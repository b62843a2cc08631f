/- SV300/Fs/Wave
   digest: The waveform capture of one channel: wavePreCaptureLF and the capture loop of Wave_Task. -/

import Mathlib.Data.List.GetD
import SV300.Clock
import SV300.Detect.Capture
import SV300.Fs.Queue
import SV300.Library.ByteCodec

set_option autoImplicit false
set_option relaxedAutoImplicit false

namespace SV300.Fs.Wave

open SV300.Clock
open SV300.Detect.Capture (take pending pending_take)
open SV300.Detect.PqEvent
open SV300.Fs.Queue
open SV300.Library.BoundedQueue (count length_pending)
open SV300.Library.ByteCodec

abbrev nLfCap : Nat := 4800
abbrev lLfWvWin : Nat := 1600
abbrev nWaveWin : Nat := 6

/-- `WAVE_WINDOW`, as far as it is captured: 200 ms of voltages and currents. -/
structure WaveWindow where
  ts : UInt64
  lU : Fin 3 → Nat → Int32
  lI : Fin 3 → Nat → Int32

/-- The settings that a capture reads; the scales by their bits. -/
structure Setup where
  pre : UInt16
  post : UInt16
  freq : UInt16
  vscale : UInt32
  iscale : UInt32

def freqHz (freq : UInt16) : Nat := if freq = 0 then 60 else 50

/-- The cycles before and after the event, 30 at most. -/
def cycles (st : Setup) : Nat × Nat :=
  let pre := st.pre.toNat
  let post := st.post.toNat
  if pre = 0 ∧ post = 0 then (6, 18)
  else if pre + post > 30 then if pre ≤ 30 then (pre, 30 - pre) else (30, 0)
  else (pre, post)

def padded (width n : Nat) : String :=
  "".pushn '0' (width - (toString n).length) ++ toString n

def getTrgFileName (title : String) (ts : UInt64) : String :=
  let t := UInt32.ofNat (ts.toNat / 1000)
  let ltm := uLocalTime t
  title ++ padded 4 ltm.tmYear ++ padded 2 ltm.tmMon ++ padded 2 ltm.tmMday ++ "T" ++
    padded 2 (tmHour t) ++ padded 2 (tmMin t) ++ padded 2 (t.toNat % 60) ++ "_" ++
    padded 3 (ts.toNat % 1000) ++ ".d"

def title : EventType → String
  | .E_SAG => "tpq_WSAG_"
  | .E_SWELL => "tpq_WSWL_"
  | .E_OC => "tpq_WOC_"
  | .E_sINTR | .E_lINTR => "tpq_WINT_"

/-- The samples as they are stored: three voltages, then three currents. -/
def dat (ww : Fin nWaveWin → WaveWindow) (rix : Fin nWaveWin) (first : Int) (count w : Nat) :
    Int32 :=
  let k := w % count
  let g : Int := first + k
  let pw := ww (Fin.ofNat nWaveWin ((rix.val + g / lLfWvWin) % nWaveWin).toNat)
  let gi := (g % lLfWvWin).toNat
  if w / count < 3 then pw.lU (Fin.ofNat 3 (w / count)) gi
  else pw.lI (Fin.ofNat 3 (w / count - 3)) gi

/-- The head of a `WAVE_LF_CAP`; the mask of an entry is never written, and padding stays. -/
def capHead (st : Setup) (Ts : UInt64) (preSamp count : Nat) (old : Nat → UInt8) : List UInt8 :=
  u64.encode Ts ++ u32.encode st.vscale ++ u16.encode (UInt16.ofNat preSamp) ++ u16.encode 0 ++
    u16.encode 8000 ++ u16.encode 2 ++ u32.encode st.iscale ++ u16.encode (UInt16.ofNat count) ++
    [old 26, old 27]

/-- `wavePreCaptureLF`: what it does to the buffer, and the message it puts; the fields of the message
that it leaves unset are those of `unset`. -/
def wavePreCaptureLF (id : Fin 3) (st : Setup) (ww : Fin nWaveWin → WaveWindow) (unset : FsMsg)
    (pqE : CapEntry) : Option (((Nat → UInt8) → Nat → UInt8) × FsMsg) :=
  let spc := 8000 / freqHz st.freq
  let preSamp := (cycles st).1 * spc
  let postSamp := (cycles st).2 * spc
  let count := min (preSamp + postSamp) nLfCap
  if count = 0 then none
  else
    match (List.finRange nWaveWin).find? fun k =>
        decide (pqE.Ts ≥ (ww k).ts ∧ pqE.Ts < (ww k).ts + 200) with
    | none => none
    | some rix =>
      let posEv := min ((pqE.Ts - (ww rix).ts).toNat * 8) (lLfWvWin - 1)
      let samples := dat ww rix (posEv - preSamp : Int) count
      some
        (fun old i =>
          if i < 28 then (capHead st pqE.Ts preSamp count old).getD i 0
          else if i < 28 + 24 * count then
            (u32.encode (samples ((i - 28) / 4)).toUInt32).getD ((i - 28) % 4) 0
          else old i,
        { unset with
          fname := getTrgFileName (title pqE.eType) pqE.Ts
          mode := .wb
          pbuf := some (.wbCapLF id)
          size := 28 + 24 * count })

/-- What a capture leaves for the writer: a message that points at the channel's buffer, and the
event's time in the buffer's first eight bytes. -/
theorem capture_spec {id : Fin 3} {st : Setup} {ww : Fin nWaveWin → WaveWindow} {unset : FsMsg}
    {pqE : CapEntry} {f : (Nat → UInt8) → Nat → UInt8} {m : FsMsg}
    (captured : wavePreCaptureLF id st ww unset pqE = some (f, m)) :
    m.mode = .wb ∧ m.pbuf = some (.wbCapLF id) ∧ fsMsgDataSz < m.size ∧
      ∀ old i, i < 8 → f old i = (u64.encode pqE.Ts).getD i 0 := by
  unfold wavePreCaptureLF at captured
  dsimp only at captured
  split at captured
  · cases captured
  rename_i some_
  split at captured
  · cases captured
  obtain ⟨rfl, rfl⟩ := Prod.mk.inj (Option.some.inj captured)
  refine ⟨rfl, rfl, ?_, fun old i early => ?_⟩
  · dsimp only [fsMsgDataSz]
    omega
  · dsimp only
    rw [if_pos (by omega)]
    unfold capHead
    simp only [List.append_assoc]
    exact List.getD_append _ _ _ _ (by rw [u64.length_encode]; exact early)

theorem captures_differ {id : Fin 3} {st : Setup} {ww : Fin nWaveWin → WaveWindow} {unset : FsMsg}
    {e e' : CapEntry} {f f' : (Nat → UInt8) → Nat → UInt8} {m m' : FsMsg}
    (captured : wavePreCaptureLF id st ww unset e = some (f, m))
    (later : wavePreCaptureLF id st ww unset e' = some (f', m')) (apart : e.Ts ≠ e'.Ts)
    (old : Nat → UInt8) : ∃ i, i < 8 ∧ f' (f old) i ≠ f old i := by
  obtain ⟨_, _, _, first⟩ := capture_spec captured
  obtain ⟨_, _, _, second⟩ := capture_spec later
  by_contra same
  push Not at same
  have equal : u64.encode e.Ts = u64.encode e'.Ts := by
    apply List.ext_getElem
    · rw [u64.length_encode, u64.length_encode]
    · intro i inside inside'
      have early : i < 8 := by
        rw [u64.length_encode] at inside
        exact inside
      have byte := same i early
      rw [second (f old) i early, first old i early, List.getD_eq_getElem _ _ inside',
        List.getD_eq_getElem _ _ inside] at byte
      exact byte.symm
  exact apart (u64.encode_injective equal)

/-- The entries that one pass captures, with what is left of the queue.  A sag that may still turn
into an interruption waits. -/
def captureLoop (newestEnd oldestTs postMs preMs : UInt64) (sagSt : SagSt) :
    Nat → CapQ → List CapEntry × CapQ
  | 0, q => ([], q)
  | n + 1, q =>
    if q.fr ≠ q.re then
      let ev := q.Q q.re
      if ev.Ts < oldestTs then captureLoop newestEnd oldestTs postMs preMs sagSt n (take q)
      else if ev.Ts + postMs < newestEnd then
        if sagSt = .sag ∧ ev.Ts > oldestTs + preMs + 200 then ([], q)
        else
          let rest := captureLoop newestEnd oldestTs postMs preMs sagSt n (take q)
          (ev :: rest.1, rest.2)
      else ([], q)
    else ([], q)

/-- The loop goes around once for each entry at most. -/
theorem captureLoop_add (newestEnd oldestTs postMs preMs : UInt64) (sagSt : SagSt) {n : Nat}
    {q : CapQ} (enough : (pending q).length ≤ n) (k : Nat) :
    captureLoop newestEnd oldestTs postMs preMs sagSt (n + k) q =
      captureLoop newestEnd oldestTs postMs preMs sagSt n q := by
  induction n generalizing q with
  | zero =>
    have fr_lt := q.fr_lt
    have re_lt := q.re_lt
    have empty : q.fr = q.re := by
      rw [pending, length_pending, count] at enough
      split at enough <;> omega
    cases k with
    | zero => rfl
    | succ k =>
      rw [Nat.zero_add]
      exact if_neg (not_not_intro empty)
  | succ n ih =>
    have fewer : (pending (take q)).length ≤ n := by
      rw [pending_take, List.length_tail]
      omega
    rw [Nat.succ_add, captureLoop, captureLoop, ih fewer]

/-- One pass over the queue of a channel, the window `bx` being the newest one. -/
def wavePass (st : Setup) (ww : Fin nWaveWin → WaveWindow) (bx : Fin nWaveWin) (sagSt : SagSt)
    (evq : CapQ) : List CapEntry × CapQ :=
  let newestEnd := (ww bx).ts + 200
  let oldestTs := (ww (bx + 1)).ts
  let postMs := (if st.post > 0 then st.post.toNat else 18) * 1000 / freqHz st.freq
  let preMs := (if st.pre > 0 then st.pre.toNat else 6) * 1000 / freqHz st.freq
  captureLoop newestEnd oldestTs (UInt64.ofNat postMs) (UInt64.ofNat preMs) sagSt 8 evq

variable {ι : Type}

/-- What a pass does to the buffer and the file queue: for every entry the buffer is filled, and its
message put at the first attempt. -/
def passEvents (t : ι) (id : Fin 3) (st : Setup) (ww : Fin nWaveWin → WaveWindow)
    (bx : Fin nWaveWin) (sagSt : SagSt) (unset : FsMsg) (evq : CapQ) : List (Event ι) :=
  (wavePass st ww bx sagSt evq).1.flatMap fun ev =>
    match wavePreCaptureLF id st ww unset ev with
    | some (f, m) => [.fill t (.wbCapLF id) f, .putFsQ t m, .attempt t]
    | none => []

end SV300.Fs.Wave
