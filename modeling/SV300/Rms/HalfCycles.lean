/- SV300/Rms/HalfCycles
   digest: The ring of half cycles: readPhaseFastRMS, RMSCapture and its part of Metering_Task. -/

import SV300.Fs.Wave
import SV300.Library.Blocks
import SV300.Library.Ring
import SV300.Library.Runs

set_option autoImplicit false
set_option relaxedAutoImplicit false

namespace SV300.Rms.HalfCycles

open SV300.Detect.Capture (take)
open SV300.Detect.PqEvent
open SV300.Fs.Queue (FsMsg)
open SV300.Fs.Wave (freqHz getTrgFileName)
open SV300.Library.Blocks SV300.Library.Runs
open SV300.Library.Ring (entry_concat)

abbrev nFastRmsBuf : Nat := 60

/-- A half cycle as the chip gives it, with its number since the start and the `sysTick64` at which
it was read. -/
structure HalfCycle where
  no : Nat
  tick : Nat
  U : Fin 3 → Int32
  I : Fin 3 → Int32

/-- `FAST_RMS`, by half cycles; one that was never written is zeros. -/
structure FastRms where
  ts : Nat
  half : Nat → Option HalfCycle

/-- `FAST_RMS_BUF`. -/
structure FastRmsBuf where
  fr : Nat
  re : Nat
  ix : Nat
  buf : Nat → FastRms

/-- `RECORDER_DEF`, as far as it is read. -/
structure Rcrd where
  pre : UInt16
  post : UInt16

/-- Half cycles in a frame, as set at the start from the nominal frequency. -/
def nFastRMS (freq : UInt16) : Nat := freqHz freq * 2

def readPhaseFastRMS (freq : UInt16) (x : HalfCycle) (w : FastRmsBuf) : FastRmsBuf :=
  let pFast := w.buf w.fr
  let filled : FastRms :=
    { ts := if w.ix = 0 then x.tick else pFast.ts
      half := Function.update pFast.half w.ix (some x) }
  let buf := Function.update w.buf w.fr filled
  if nFastRMS freq ≤ w.ix + 1 then
    { w with ix := 0, fr := if nFastRmsBuf ≤ w.fr + 1 then 0 else w.fr + 1, buf := buf }
  else { w with ix := w.ix + 1, buf := buf }

/-- `_getFastRMSBuf`, the frame of an index that may be one past the last. -/
def getFastRMSBuf (w : FastRmsBuf) (ix : Nat) : FastRms :=
  if ix = nFastRmsBuf then w.buf 0 else w.buf ix

/-- From `efr` backwards the first frame that begins less than `frameDur` before the event. -/
def findFrame (buf : Nat → FastRms) (frameDur Ts : Nat) : Nat → Nat → Option Nat
  | 0, _ => none
  | kk + 1, efr =>
    let pe := buf efr
    if pe.ts ≠ 0 ∧ pe.ts ≤ Ts ∧ Ts < pe.ts + frameDur then some efr
    else findFrame buf frameDur Ts kk (if efr = 0 then nFastRmsBuf - 1 else efr - 1)

/-- Samples before the event; the settings are unsigned. -/
def preSamp (r : Rcrd) : Nat :=
  let cyc := if r.pre = 0 ∧ r.post = 0 then (6, 18) else (r.pre.toNat, r.post.toNat)
  min (cyc.1 * 1200 / (cyc.1 + cyc.2)) 1199

/-- The position of the event in its frame, with the interval in whole milliseconds. -/
def evpos (freq : UInt16) (Ts ts : Nat) : Nat := (Ts - ts) / (1000 / freqHz freq)

/-- `while (sp < 0)`: to the frame before, `k` times at most. -/
def stepBack (n : Nat) : Nat → Int → Nat → Int × Nat
  | 0, sp, sf => (sp, sf)
  | k + 1, sp, sf =>
    if sp < 0 then stepBack n k (sp + n) (if sf = 0 then nFastRmsBuf - 1 else sf - 1) else (sp, sf)

/-- The frames and positions that the copy loop reads. -/
def readFrom (n : Nat) : Nat → Nat → Nat → List (Nat × Nat)
  | 0, _, _ => []
  | i + 1, ix, pos =>
    (ix, pos) ::
      if n ≤ pos + 1 then readFrom n i (if nFastRmsBuf ≤ ix + 1 then 0 else ix + 1) 0
      else readFrom n i ix (pos + 1)

/-- `RMS_CAP`, before scaling, with the places its samples are read from and the message it is
written with. -/
structure RmsCap where
  ts : UInt64
  pos : Nat
  mask : UInt16
  ver : Nat
  half : List (Option HalfCycle)
  reads : List (Nat × Nat)
  msg : FsMsg

def title : EventType → String
  | .E_SAG => "tpq_DSAG_"
  | .E_SWELL => "tpq_DSWL_"
  | .E_OC => "tpq_DOC_"
  | .E_sINTR | .E_lINTR => "tpq_DINT_"

/-- The capture of an event in frame `ix`; nothing sets the mask of a queued event, so it is zero. -/
def copySamples (id : Fin 3) (freq : UInt16) (r : Rcrd) (unset : FsMsg) (w : FastRmsBuf)
    (e : CapEntry) (ix : Nat) : RmsCap :=
  let n := nFastRMS freq
  let start := stepBack n 1200 (evpos freq e.Ts.toNat (getFastRMSBuf w ix).ts - preSamp r : Int) ix
  let reads := readFrom n 1200 start.2 start.1.toNat
  { ts := e.Ts
    pos := preSamp r
    mask := 0
    ver := 1
    half := reads.map fun p => (w.buf p.1).half p.2
    reads := reads
    msg :=
      { unset with
        fname := getTrgFileName (title e.eType) e.Ts
        mode := .wb
        pbuf := some (.rmsCap id)
        size := 28816 } }

/-- `RMSCapture`: what is left of the queue, and the capture if there is one. -/
def RMSCapture (id : Fin 3) (freq : UInt16) (r : Rcrd) (unset : FsMsg) (w : FastRmsBuf) (q : CapQ)
    (ix : Nat) : CapQ × Option RmsCap :=
  if q.fr = q.re then (q, none)
  else
    let e := q.Q q.re
    let Ts := e.Ts.toNat
    let frameDur := nFastRMS freq * 1000 / freqHz freq
    match findFrame w.buf frameDur Ts nFastRmsBuf ix with
    | none => (take q, none)
    | some efr =>
      let ahead := if ix < efr then ix + nFastRmsBuf - efr else ix - efr
      if ahead < 11 then (q, none)
      else if (getFastRMSBuf w efr).ts ≤ Ts ∧ Ts < (getFastRMSBuf w (efr + 1)).ts then
        (take q, some (copySamples id freq r unset w e efr))
      else (q, none)

/-- One channel: the ring, whether it is ready, the queue, and all half cycles read so far. -/
structure Sys where
  win : FastRmsBuf
  bF : Bool
  rQ : CapQ
  read : List HalfCycle

/-- The channel's part of a pass of `Metering_Task`. -/
def metering (id : Fin 3) (freq : UInt16) (r : Rcrd) (unset : FsMsg) (s : Sys) :
    Sys × Option RmsCap :=
  let w := s.win
  if w.fr ≠ w.re then
    if s.bF then
      let done := RMSCapture id freq r unset w s.rQ w.re
      let re := if nFastRmsBuf ≤ w.re + 1 then 0 else w.re + 1
      ({ s with rQ := done.1, win := { w with re := re } }, done.2)
    else if 10 < w.fr then ({ s with bF := true }, none)
    else (s, none)
  else (s, none)

/-- A half cycle is read, a detector queues or renames an event, `Metering_Task` wakes. -/
inductive Event
  | halfCycle (tick : Nat) (U I : Fin 3 → Int32)
  | putEventCap (e : CapEntry)
  | updateLastCapType (oldType newType : EventType)
  | wake (r : Rcrd) (unset : FsMsg)

def record (id : Fin 3) (freq : UInt16) (s : Sys) : Event → Sys
  | .halfCycle tick U I =>
    let x : HalfCycle := ⟨s.read.length, tick, U, I⟩
    { s with win := readPhaseFastRMS freq x s.win, read := s.read ++ [x] }
  | .putEventCap e => { s with rQ := putEventCap s.rQ e }
  | .updateLastCapType oldType newType => { s with rQ := updateLastCapType s.rQ oldType newType }
  | .wake r unset => (metering id freq r unset s).1

def start : Sys where
  win := ⟨0, 0, 0, fun _ => ⟨0, fun _ => none⟩⟩
  bF := false
  rQ := .empty
  read := []

theorem nFastRMS_pos (freq : UInt16) : 0 < nFastRMS freq := by
  unfold nFastRMS freqHz
  split <;> decide

theorem preSamp_lt (r : Rcrd) : preSamp r < 1200 := Nat.lt_succ_of_le (Nat.min_le_right _ _)

def place (n : Nat) (g : Int) : Nat × Nat := (block nFastRmsBuf n g, offset n g)

theorem place_congr {n : Nat} {g h k : Int} (some : 0 < n)
    (turns : g = h + n * (nFastRmsBuf * k)) : place n g = place n h :=
  Prod.ext (block_congr some turns) (offset_congr turns)

private theorem place_of_lt {n ix pos : Nat} (inside : pos < n) (frame : ix < nFastRmsBuf) :
    place n (ix * n + pos) = (ix, pos) :=
  Prod.ext (block_place inside frame) (offset_place inside)

theorem readFrom_eq {n : Nat} (some : 0 < n) :
    ∀ i ix pos : Nat, pos < n → ix < nFastRmsBuf →
      readFrom n i ix pos = (List.range i).map fun k : Nat => place n (ix * n + pos + k)
  | 0, _, _, _, _ => rfl
  | i + 1, ix, pos, inside, frame => by
    rw [readFrom, List.range_succ_eq_map, List.map_cons, List.map_map, Int.natCast_zero,
      Int.add_zero, place_of_lt inside frame]
    congr 1
    split
    case isTrue last =>
      have whole : pos + 1 = n := by omega
      have next : ((ix : Int) + 1) * n = ix * n + pos + 1 := by
        rw [Int.add_mul, Int.one_mul]
        omega
      split
      case isTrue around =>
        change 60 ≤ ix + 1 at around
        change ix < 60 at frame
        have end_ : ix + 1 = 60 := by omega
        rw [readFrom_eq some i 0 0 some (by decide)]
        apply List.map_congr_left
        intro k _
        refine (place_congr (k := 1) some ?_).symm
        have turn : (60 : Int) * n = ix * n + pos + 1 := by
          rw [← next]
          congr 1
          omega
        simp only [Nat.succ_eq_add_one]
        push_cast
        omega
      case isFalse inner =>
        rw [readFrom_eq some i (ix + 1) 0 some (by omega)]
        apply List.map_congr_left
        intro k _
        simp only [Function.comp_apply, Nat.succ_eq_add_one]
        congr 1
        push_cast
        omega
    case isFalse more =>
      rw [readFrom_eq some i ix (pos + 1) (by omega) frame]
      apply List.map_congr_left
      intro k _
      simp only [Function.comp_apply, Nat.succ_eq_add_one]
      congr 1
      push_cast
      omega

/-- Stepping back goes to a frame and position that mean the same place, up to turns. -/
theorem stepBack_spec {n : Nat} :
    ∀ (k : Nat) (sp : Int) (sf : Nat), sf < nFastRmsBuf → -(n * k : Int) ≤ sp →
      0 ≤ (stepBack n k sp sf).1 ∧ (sp < n → (stepBack n k sp sf).1 < n) ∧
        (stepBack n k sp sf).2 < nFastRmsBuf ∧
        ∃ t : Int, (stepBack n k sp sf).2 * n + (stepBack n k sp sf).1 =
          sf * n + sp + n * (nFastRmsBuf * t)
  | 0, sp, sf, frame, enough => by
    refine ⟨by simpa [stepBack] using enough, fun low => low, frame, 0, ?_⟩
    rw [stepBack, Int.mul_zero, Int.mul_zero, Int.add_zero]
  | k + 1, sp, sf, frame, enough => by
    rw [stepBack]
    split
    case isFalse done =>
      refine ⟨by omega, fun low => low, frame, 0, ?_⟩
      rw [Int.mul_zero, Int.mul_zero, Int.add_zero]
    case isTrue back =>
      have fuel : -(n * k : Int) ≤ sp + n := by
        rw [Int.natCast_add, Int.mul_add] at enough
        omega
      have low : sp + n < n := by omega
      split
      case isTrue first =>
        obtain ⟨nonneg, less, inside, t, same⟩ := stepBack_spec k (sp + n) (nFastRmsBuf - 1)
          (by decide) fuel
        refine ⟨nonneg, fun _ => less low, inside, t + 1, ?_⟩
        have more : (n : Int) * (60 * (t + 1)) = n * (60 * t) + 60 * n := by
          rw [Int.mul_add, Int.mul_add, Int.mul_one, Int.mul_comm (n : Int) 60]
        rw [first]
        have last : ((nFastRmsBuf - 1 : Nat) : Int) = 59 := rfl
        rw [last] at same
        push_cast at same more ⊢
        omega
      case isFalse later =>
        obtain ⟨nonneg, less, inside, t, same⟩ := stepBack_spec k (sp + n) (sf - 1) (by omega) fuel
        refine ⟨nonneg, fun _ => less low, inside, t, ?_⟩
        have before : ((sf - 1 : Nat) : Int) * n = sf * n - n := by
          rw [Int.ofNat_sub (by omega), Int.sub_mul, Int.natCast_one, Int.one_mul]
        omega

/-- The ring holds the newest half cycles, each in the place of its number, and each frame the tick
of its first one. -/
structure Synced (freq : UInt16) (s : Sys) : Prop where
  fr : s.win.fr = s.read.length / nFastRMS freq % nFastRmsBuf
  ix : s.win.ix = s.read.length % nFastRMS freq
  re : s.win.re < nFastRmsBuf
  held : ∀ j a, s.read[j]? = some a → s.read.length ≤ j + nFastRmsBuf * nFastRMS freq →
    (s.win.buf (j / nFastRMS freq % nFastRmsBuf)).half (j % nFastRMS freq) = some a
  began : ∀ F a, s.read[F * nFastRMS freq]? = some a →
    s.read.length ≤ (F + nFastRmsBuf) * nFastRMS freq →
    (s.win.buf (F % nFastRmsBuf)).ts = a.tick
  blank : ∀ f < nFastRmsBuf, s.read.length ≤ f * nFastRMS freq → (s.win.buf f).ts = 0
  numbered : ∀ (j : Nat) (a : HalfCycle), s.read[j]? = some a → a.no = j

theorem synced_start (freq : UInt16) : Synced freq start where
  fr := by simp [start]
  ix := by simp [start]
  re := by decide
  held := by
    intro j a entry
    cases entry
  began := by
    intro F a entry
    cases entry
  blank := fun _ _ _ => rfl
  numbered := by
    intro j a entry
    cases entry

private theorem readPhaseFastRMS_buf (freq : UInt16) (x : HalfCycle) (w : FastRmsBuf) :
    (readPhaseFastRMS freq x w).buf = Function.update w.buf w.fr
      { ts := if w.ix = 0 then x.tick else (w.buf w.fr).ts
        half := Function.update (w.buf w.fr).half w.ix (some x) } := by
  unfold readPhaseFastRMS
  dsimp only
  split <;> rfl

theorem readPhaseFastRMS_re (freq : UInt16) (x : HalfCycle) (w : FastRmsBuf) :
    (readPhaseFastRMS freq x w).re = w.re := by
  unfold readPhaseFastRMS
  dsimp only
  split <;> rfl

private theorem readPhaseFastRMS_count {freq : UInt16} {w : FastRmsBuf} {l : Nat}
    (fr : w.fr = l / nFastRMS freq % nFastRmsBuf) (ix : w.ix = l % nFastRMS freq) (x : HalfCycle) :
    (readPhaseFastRMS freq x w).fr = (l + 1) / nFastRMS freq % nFastRmsBuf ∧
      (readPhaseFastRMS freq x w).ix = (l + 1) % nFastRMS freq := by
  have some := nFastRMS_pos freq
  unfold readPhaseFastRMS
  dsimp only
  rw [fr, ix]
  split
  case isTrue last =>
    obtain ⟨block_, offset_⟩ := next_block some last
    rw [block_, offset_]
    refine ⟨?_, rfl⟩
    change (if 60 ≤ l / nFastRMS freq % 60 + 1 then 0 else l / nFastRMS freq % 60 + 1) =
      (l / nFastRMS freq + 1) % 60
    split <;> omega
  case isFalse inner =>
    obtain ⟨block_, offset_⟩ := next_inside (Nat.lt_of_not_le inner)
    rw [block_, offset_]
    exact ⟨rfl, rfl⟩

theorem Synced.halfCycle {id : Fin 3} {freq : UInt16} {s : Sys} (synced : Synced freq s)
    (tick : Nat) (U I : Fin 3 → Int32) :
    Synced freq (record id freq s (.halfCycle tick U I)) := by
  have some_ := nFastRMS_pos freq
  have counted := readPhaseFastRMS_count synced.fr synced.ix ⟨s.read.length, tick, U, I⟩
  have longer : (record id freq s (.halfCycle tick U I)).read.length = s.read.length + 1 := by
    rw [record, List.length_append, List.length_singleton]
  have written := readPhaseFastRMS_buf freq ⟨s.read.length, tick, U, I⟩ s.win
  rw [synced.fr, synced.ix] at written
  have entries : ∀ {j a}, (record id freq s (.halfCycle tick U I)).read[j]? = some a →
      (j < s.read.length ∧ s.read[j]? = some a) ∨
        (j = s.read.length ∧ a = ⟨s.read.length, tick, U, I⟩) := fun entry => entry_concat entry
  constructor
  · rw [longer]
    exact counted.1
  · rw [longer]
    exact counted.2
  · exact (readPhaseFastRMS_re freq _ s.win).trans_lt synced.re
  · intro j a entry recent
    rw [longer] at recent
    change ((readPhaseFastRMS freq _ s.win).buf _).half _ = _
    rw [written]
    rcases entries entry with ⟨old, entry⟩ | ⟨rfl, rfl⟩
    · have apart := place_ne old (by omega : s.read.length < j + nFastRmsBuf * nFastRMS freq)
      by_cases frame : j / nFastRMS freq % nFastRmsBuf = s.read.length / nFastRMS freq % nFastRmsBuf
      · have other : j % nFastRMS freq ≠ s.read.length % nFastRMS freq := fun same =>
          apart ⟨frame, same⟩
        rw [frame, Function.update_self]
        dsimp only
        rw [Function.update_of_ne other, ← frame]
        exact synced.held j a entry (by omega)
      · rw [Function.update_of_ne frame]
        exact synced.held j a entry (by omega)
    · rw [Function.update_self]
      dsimp only
      rw [Function.update_self]
  · intro F a entry recent
    rw [longer] at recent
    change ((readPhaseFastRMS freq _ s.win).buf _).ts = _
    rw [written]
    rcases entries entry with ⟨old, entry⟩ | ⟨first, rfl⟩
    · have apart := place_ne old (by
        rw [Nat.add_mul] at recent
        omega : s.read.length < F * nFastRMS freq + nFastRmsBuf * nFastRMS freq)
      rw [Nat.mul_div_cancel _ some_, Nat.mul_mod_left] at apart
      by_cases frame : F % nFastRmsBuf = s.read.length / nFastRMS freq % nFastRmsBuf
      · have inner : s.read.length % nFastRMS freq ≠ 0 := fun zero => apart ⟨frame, zero.symm⟩
        rw [frame, Function.update_self]
        dsimp only
        rw [if_neg inner, ← frame]
        exact synced.began F a entry (by omega)
      · rw [Function.update_of_ne frame]
        exact synced.began F a entry (by omega)
    · rw [← first, Nat.mul_div_cancel _ some_, Nat.mul_mod_left, Function.update_self]
      dsimp only
      exact if_pos rfl
  · intro f inside ahead
    rw [longer] at ahead
    change ((readPhaseFastRMS freq _ s.win).buf _).ts = _
    rw [written]
    have below : s.read.length / nFastRMS freq < f := by
      apply Nat.div_lt_of_lt_mul
      rw [Nat.mul_comm]
      omega
    have other : f ≠ s.read.length / nFastRMS freq % nFastRmsBuf := by
      have bound := Nat.mod_le (s.read.length / nFastRMS freq) nFastRmsBuf
      omega
    rw [Function.update_of_ne other]
    exact synced.blank f inside (by omega)
  · intro j a entry
    rcases entries entry with ⟨_, entry⟩ | ⟨rfl, rfl⟩
    · exact synced.numbered j a entry
    · rfl

theorem Synced.of_same {freq : UInt16} {s t : Sys} (synced : Synced freq s)
    (fr : t.win.fr = s.win.fr) (ix : t.win.ix = s.win.ix) (buf : t.win.buf = s.win.buf)
    (read : t.read = s.read) (re : t.win.re < nFastRmsBuf) : Synced freq t where
  fr := by rw [fr, read, synced.fr]
  ix := by rw [ix, read, synced.ix]
  re := re
  held := by
    rw [buf, read]
    exact synced.held
  began := by
    rw [buf, read]
    exact synced.began
  blank := by
    rw [buf, read]
    exact synced.blank
  numbered := by
    rw [read]
    exact synced.numbered

theorem metering_win (id : Fin 3) (freq : UInt16) (r : Rcrd) (unset : FsMsg) (s : Sys) :
    (metering id freq r unset s).1.win.fr = s.win.fr ∧
      (metering id freq r unset s).1.win.ix = s.win.ix ∧
      (metering id freq r unset s).1.win.buf = s.win.buf ∧
      (metering id freq r unset s).1.read = s.read := by
  unfold metering
  dsimp only
  split
  · split
    · exact ⟨rfl, rfl, rfl, rfl⟩
    · split <;> exact ⟨rfl, rfl, rfl, rfl⟩
  · exact ⟨rfl, rfl, rfl, rfl⟩

private theorem metering_re (id : Fin 3) (freq : UInt16) (r : Rcrd) (unset : FsMsg) {s : Sys}
    (inside : s.win.re < nFastRmsBuf) : (metering id freq r unset s).1.win.re < nFastRmsBuf := by
  unfold metering
  dsimp only
  split
  · split
    · dsimp only
      split
      · decide
      · omega
    · split <;> exact inside
  · exact inside

theorem Synced.step {id : Fin 3} {freq : UInt16} {s : Sys} (synced : Synced freq s) (e : Event) :
    Synced freq (record id freq s e) := by
  cases e with
  | halfCycle tick U I => exact synced.halfCycle tick U I
  | putEventCap e => exact synced.of_same rfl rfl rfl rfl synced.re
  | updateLastCapType oldType newType => exact synced.of_same rfl rfl rfl rfl synced.re
  | wake r unset =>
    obtain ⟨fr, ix, buf, read⟩ := metering_win id freq r unset s
    exact synced.of_same fr ix buf read (metering_re id freq r unset synced.re)

theorem synced_run (id : Fin 3) (freq : UInt16) (es : List Event) :
    Synced freq (run (record id freq) start es) :=
  always_run (fun _ e synced => synced.step e) (synced_start freq) es

end SV300.Rms.HalfCycles
