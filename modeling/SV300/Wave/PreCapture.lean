/- SV300/Wave/PreCapture
   digest: When the samples of a waveform capture are consecutive: the ring of windows of Wave_Task. -/

import SV300.Fs.Wave
import SV300.Library.Blocks
import SV300.Library.Ring
import SV300.Library.Runs

set_option autoImplicit false
set_option relaxedAutoImplicit false

namespace SV300.Wave.PreCapture

open SV300.Detect.PqEvent
open SV300.Fs.Queue (FsMsg)
open SV300.Fs.Wave
open SV300.Library.Blocks SV300.Library.ByteCodec SV300.Library.Runs
open SV300.Library.Ring (entry_concat)

/-- A window of the ring, and which sample of the channel its first one is; none before the slot is
first filled. -/
structure Slot where
  ww : WaveWindow
  first : Option Nat

/-- `WAVE_WINDOW_BLK`, the queue of events, the number of the next sample, and the first sample of
each window taken so far. -/
structure Sys where
  ix : Fin nWaveWin
  slots : Fin nWaveWin → Slot
  wQ : CapQ
  next : Nat
  taken : List Nat

def Sys.ww (s : Sys) : Fin nWaveWin → WaveWindow := fun k => (s.slots k).ww

/-- A detector queues or renames an event; `Wave_Task` takes a window after samples it has missed. -/
inductive Event
  | putEventCap (e : CapEntry)
  | updateLastCapType (oldType newType : EventType)
  | window (missed : Nat) (w : WaveWindow) (st : Setup) (sagSt : SagSt)

/-- The window is copied to `ix`; what is captured sees it. -/
def copied (s : Sys) (missed : Nat) (w : WaveWindow) : Sys :=
  { s with
    slots := Function.update s.slots s.ix ⟨w, some (s.next + missed)⟩
    next := s.next + missed + lLfWvWin
    taken := s.taken ++ [s.next + missed] }

def record (s : Sys) : Event → Sys
  | .putEventCap e => { s with wQ := putEventCap s.wQ e }
  | .updateLastCapType oldType newType => { s with wQ := updateLastCapType s.wQ oldType newType }
  | .window missed w st sagSt =>
    let c := copied s missed w
    { c with ix := c.ix + 1, wQ := (wavePass st c.ww c.ix sagSt c.wQ).2 }

def start : Sys where
  ix := 0
  slots := fun _ => ⟨⟨0, fun _ _ => 0, fun _ _ => 0⟩, none⟩
  wQ := .empty
  next := 0
  taken := []

def preSamp (st : Setup) : Nat := (cycles st).1 * (8000 / freqHz st.freq)

def postSamp (st : Setup) : Nat := (cycles st).2 * (8000 / freqHz st.freq)

def sampleCount (st : Setup) : Nat := min (preSamp st + postSamp st) nLfCap

def eventWindow (ww : Fin nWaveWin → WaveWindow) (Ts : UInt64) : Option (Fin nWaveWin) :=
  (List.finRange nWaveWin).find? fun k => decide (Ts ≥ (ww k).ts ∧ Ts < (ww k).ts + 200)

/-- The position of an event in a window, in samples. -/
def posEv (w : WaveWindow) (Ts : UInt64) : Nat := min ((Ts - w.ts).toNat * 8) (lLfWvWin - 1)

/-- Where sample `k` comes from, `g` being the first one's place after the start of slot `rix`. -/
def source (rix : Fin nWaveWin) (g : Int) (k : Nat) : Fin nWaveWin × Nat :=
  (Fin.ofNat nWaveWin ((rix.val + (g + k) / lLfWvWin) % nWaveWin).toNat,
    ((g + k) % lLfWvWin).toNat)

private theorem capture_words {id : Fin 3} {st : Setup} {ww : Fin nWaveWin → WaveWindow}
    {unset : FsMsg}
    {e : CapEntry} {f : (Nat → UInt8) → Nat → UInt8} {m : FsMsg} {rix : Fin nWaveWin}
    (captured : wavePreCaptureLF id st ww unset e = some (f, m))
    (found : eventWindow ww e.Ts = some rix) (old : Nat → UInt8) {j k b : Nat} (phase : j < 6)
    (inside : k < sampleCount st) (byte : b < 4) :
    let p := source rix (posEv (ww rix) e.Ts - preSamp st) k
    f old (28 + 4 * (j * sampleCount st + k) + b) =
      (u32.encode (if j < 3 then (ww p.1).lU (Fin.ofNat 3 j) p.2
        else (ww p.1).lI (Fin.ofNat 3 (j - 3)) p.2).toUInt32).getD b 0 := by
  have some_ : 0 < sampleCount st := by omega
  have row : j * sampleCount st + sampleCount st ≤ 6 * sampleCount st := by
    rw [← Nat.succ_mul]
    exact Nat.mul_le_mul_right _ phase
  have word : (28 + 4 * (j * sampleCount st + k) + b - 28) / 4 = j * sampleCount st + k := by omega
  have place : (28 + 4 * (j * sampleCount st + k) + b - 28) % 4 = b := by omega
  have column : (j * sampleCount st + k) % sampleCount st = k := by
    rw [Nat.add_comm, Nat.add_mul_mod_self_right, Nat.mod_eq_of_lt inside]
  have phase_ : (j * sampleCount st + k) / sampleCount st = j := by
    rw [Nat.add_comm, Nat.add_mul_div_right _ _ some_, Nat.div_eq_of_lt inside, Nat.zero_add]
  unfold wavePreCaptureLF at captured
  dsimp only at captured
  split at captured
  · cases captured
  split at captured
  · cases captured
  rename_i rix' found'
  obtain rfl : rix' = rix := Option.some.inj (found'.symm.trans found)
  obtain ⟨rfl, _⟩ := Prod.mk.inj (Option.some.inj captured)
  dsimp only
  change (if 28 + 4 * (j * sampleCount st + k) + b < 28 then _
    else if 28 + 4 * (j * sampleCount st + k) + b < 28 + 24 * sampleCount st then _ else _) = _
  rw [if_neg (by omega), if_pos (by omega), word, place]
  change (u32.encode (dat ww rix' _ (sampleCount st) _).toUInt32).getD b 0 = _
  unfold dat
  dsimp only
  rw [column, phase_]
  rfl

/-- Which sample of the channel is at a place of the ring. -/
def sampleNo (s : Sys) (p : Fin nWaveWin × Nat) : Option Nat := (s.slots p.1).first.map (· + p.2)

/-- The capture holds its count of samples from number `n` on, the event's being inside and where
it is marked. -/
structure GoodFrom (s : Sys) (st : Setup) (e : CapEntry) (f : (Nat → UInt8) → Nat → UInt8)
    (rix : Fin nWaveWin) (n : Nat) : Prop where
  marked : preSamp st < sampleCount st
  words : ∀ old, ∀ j < 6, ∀ k < sampleCount st, ∀ b < 4,
    let p := source rix (posEv (s.ww rix) e.Ts - preSamp st) k
    f old (28 + 4 * (j * sampleCount st + k) + b) =
      (u32.encode (if j < 3 then (s.ww p.1).lU (Fin.ofNat 3 j) p.2
        else (s.ww p.1).lI (Fin.ofNat 3 (j - 3)) p.2).toUInt32).getD b 0
  inOrder : ∀ k < sampleCount st,
    sampleNo s (source rix (posEv (s.ww rix) e.Ts - preSamp st) k) = some (n + k)
  event : (s.slots rix).first.map (· + ((e.Ts - (s.ww rix).ts).toNat * 8)) =
    some (n + preSamp st)

def Good (s : Sys) (st : Setup) (e : CapEntry) (f : (Nat → UInt8) → Nat → UInt8) : Prop :=
  ∃ rix n, eventWindow s.ww e.Ts = some rix ∧ GoodFrom s st e f rix n

/-- Among the windows taken so far, the place of the newest one that went to a slot. -/
def windowNo (s : Sys) (rix : Fin nWaveWin) : Int :=
  (s.taken.length : Int) - 1 - ((s.ix.val + nWaveWin - rix.val) % nWaveWin : Nat)

/-- The windows from `a` to `b` are taken, still in the ring, and each begins where the one before
it ends. -/
structure Unbroken (taken : List Nat) (a b : Int) : Prop where
  since : 0 ≤ a
  kept : (taken.length : Int) ≤ a + nWaveWin
  complete : b < taken.length
  joined : ∀ j : Nat, a ≤ j → j < b → taken[j + 1]? = taken[j]?.map (· + lLfWvWin)

/-- There are samples after the event, and the windows that the capture reaches into are unbroken. -/
structure Reaches (s : Sys) (st : Setup) (e : CapEntry) (rix : Fin nWaveWin) : Prop where
  marked : preSamp st < sampleCount st
  unbroken : Unbroken s.taken
    (windowNo s rix + (posEv (s.ww rix) e.Ts - preSamp st : Int) / lLfWvWin)
    (windowNo s rix + (posEv (s.ww rix) e.Ts - preSamp st + sampleCount st - 1 : Int) / lLfWvWin)

def Fits (s : Sys) (st : Setup) (e : CapEntry) : Prop :=
  ∃ rix, eventWindow s.ww e.Ts = some rix ∧ Reaches s st e rix

/-- The ring holds the newest windows, each in the slot of its place. -/
structure Held (s : Sys) : Prop where
  held : ∀ (j : Nat) (k : Fin nWaveWin), j % 6 = k.val → j < s.taken.length →
    s.taken.length ≤ j + 6 → (s.slots k).first = s.taken[j]?
  blank : ∀ k : Fin nWaveWin, s.taken.length ≤ k.val → (s.slots k).first = none
  rising : ∀ (j : Nat) (a b : Nat), s.taken[j]? = some a → s.taken[j + 1]? = some b → a < b
  next : ∀ (j : Nat) (a : Nat), s.taken[j]? = some a → a < s.next

private theorem held_start : Held start where
  held := by
    intro j k _ inside
    cases inside
  blank := fun _ _ => rfl
  rising := by
    intro j a b entry
    cases entry
  next := by
    intro j a entry
    cases entry

private theorem Held.copied {s : Sys} (held : Held s) (ix : s.ix.val = s.taken.length % 6)
    (missed : Nat) (w : WaveWindow) : Held (copied s missed w) := by
  have longer : (PreCapture.copied s missed w).taken.length = s.taken.length + 1 := by
    rw [PreCapture.copied, List.length_append, List.length_singleton]
  have last : (PreCapture.copied s missed w).taken[s.taken.length]? = some (s.next + missed) := by
    rw [PreCapture.copied, List.getElem?_concat_length]
  have old : ∀ {j : Nat}, j < s.taken.length →
      (PreCapture.copied s missed w).taken[j]? = s.taken[j]? := by
    intro j inside
    rw [PreCapture.copied, List.getElem?_append_left inside]
  have other : ∀ {k : Fin nWaveWin}, k ≠ s.ix →
      ((PreCapture.copied s missed w).slots k).first = (s.slots k).first := by
    intro k apart
    rw [PreCapture.copied]
    dsimp only
    rw [Function.update_of_ne apart]
  constructor
  · intro j k slot inside recent
    rw [longer] at inside recent
    rcases Nat.lt_or_eq_of_le (Nat.le_of_lt_succ inside) with before | rfl
    · have apart : k ≠ s.ix := by
        rintro rfl
        omega
      rw [other apart, old before]
      exact held.held j k slot before (by omega)
    · have same : k = s.ix := Fin.ext (by omega)
      rw [last, same, PreCapture.copied]
      dsimp only
      rw [Function.update_self]
  · intro k ahead
    rw [longer] at ahead
    have apart : k ≠ s.ix := by
      rintro rfl
      omega
    rw [other apart]
    exact held.blank k (by omega)
  · intro j a b first second
    rcases entry_concat second with ⟨before, second⟩ | ⟨top, rfl⟩
    · rw [old (by omega)] at first
      exact held.rising j a b first second
    · rw [old (by omega)] at first
      have below := held.next j a first
      omega
  · intro j a entry
    change a < s.next + missed + 1600
    rcases entry_concat entry with ⟨_, entry⟩ | ⟨_, rfl⟩
    · have below := held.next j a entry
      omega
    · omega

private theorem held_record {s : Sys} (held : Held s) (ix : s.ix.val = s.taken.length % 6)
    (e : Event) :
    Held (record s e) ∧ (record s e).ix.val = (record s e).taken.length % 6 := by
  cases e with
  | putEventCap e => exact ⟨⟨held.held, held.blank, held.rising, held.next⟩, ix⟩
  | updateLastCapType oldType newType =>
    exact ⟨⟨held.held, held.blank, held.rising, held.next⟩, ix⟩
  | window missed w st sagSt =>
    have after := held.copied ix missed w
    refine ⟨⟨after.held, after.blank, after.rising, after.next⟩, ?_⟩
    change (s.ix + 1).val = (s.taken ++ [s.next + missed]).length % 6
    rw [List.length_append, List.length_singleton, Fin.val_add, ix]
    exact Nat.mod_add_mod _ _ _

theorem held_run (es : List Event) :
    Held (run record start es) ∧
      (run record start es).ix.val = (run record start es).taken.length % 6 :=
  always_run (I := fun s => Held s ∧ s.ix.val = s.taken.length % 6)
    (fun _ e both => held_record both.1 both.2 e) ⟨held_start, rfl⟩ es

private theorem Held.lt {s : Sys} (held : Held s) {i j a b : Nat} (earlier : i < j)
    (first : s.taken[i]? = some a) (second : s.taken[j]? = some b) : a < b := by
  induction j, earlier using Nat.le_induction generalizing b with
  | base => exact held.rising i a b first second
  | succ j later ih =>
    have inside := (List.getElem?_eq_some_iff.mp second).1
    have present : j < s.taken.length := by omega
    have middle := List.getElem?_eq_getElem present
    exact (ih middle).trans (held.rising j _ b middle second)

def slotAt (j : Int) : Fin nWaveWin := Fin.ofNat nWaveWin (j % nWaveWin).toNat

private theorem slotAt_val (j : Int) : ((slotAt j).val : Int) = j % 6 := by
  change (((j % 6).toNat % 6 : Nat) : Int) = j % 6
  omega

private theorem slotAt_congr {i j : Int} (same : i % 6 = j % 6) : slotAt i = slotAt j := by
  apply Fin.ext
  have left := slotAt_val i
  have right := slotAt_val j
  omega

private theorem Held.first {s : Sys} (held : Held s) {j : Int}
    (low : (s.taken.length : Int) ≤ j + 6) (high : j < s.taken.length) :
    (s.slots (slotAt j)).first = if 0 ≤ j then s.taken[j.toNat]? else none := by
  have slot := slotAt_val j
  split
  case isTrue since =>
    exact held.held j.toNat (slotAt j) (by omega) (by omega) (by omega)
  case isFalse before => exact held.blank (slotAt j) (by omega)

/-- Slots whose windows begin later the further on they are do not go around the ring: a turn on
there is an older window, a turn back a newer one. -/
private theorem Held.no_turn {s : Sys} (held : Held s) {i b c : Int} {a : Nat}
    (newest : (s.taken.length : Int) ≤ i + 6) (oldest : i < s.taken.length) (back : -5 ≤ b)
    (before : b ≤ 0) (after : 0 ≤ c) (on : c ≤ 5)
    (begins : ∀ d, b ≤ d → d ≤ c →
      ∃ x, (s.slots (slotAt (i + d))).first = some x ∧ (x : Int) = a + 1600 * d) :
    0 ≤ i + b ∧ (s.taken.length : Int) ≤ i + b + 6 ∧ i + c < s.taken.length ∧
      ∀ d, b ≤ d → d ≤ c → ∃ x, s.taken[(i + d).toNat]? = some x ∧ (x : Int) = a + 1600 * d := by
  have inside : ∀ d, b ≤ d → d ≤ c → (s.taken.length : Int) ≤ i + d + 6 →
      i + d < s.taken.length →
      0 ≤ i + d ∧ ∃ x, s.taken[(i + d).toNat]? = some x ∧ (x : Int) = a + 1600 * d := by
    intro d low high recent taken
    obtain ⟨x, first, number⟩ := begins d low high
    rw [held.first recent taken] at first
    split at first
    case isTrue since => exact ⟨since, x, first, number⟩
    case isFalse => cases first
  obtain ⟨since, y, own, zero⟩ := inside 0 before after (by omega) (by omega)
  have complete : i + c < s.taken.length := by
    by_contra beyond
    obtain ⟨d, isD⟩ : ∃ d : Int, d = s.taken.length - i := ⟨_, rfl⟩
    obtain ⟨x, first, number⟩ := begins d (by omega) (by omega)
    have turn : slotAt (i + d) = slotAt (i + d - 6) := slotAt_congr (by omega)
    rw [turn, held.first (by omega) (by omega)] at first
    split at first
    case isTrue =>
      have older := @Held.lt s held (i + d - 6).toNat (i + 0).toNat x y (by omega) first own
      omega
    case isFalse => cases first
  have kept : (s.taken.length : Int) ≤ i + b + 6 := by
    by_contra beyond
    obtain ⟨d, isD⟩ : ∃ d : Int, d = s.taken.length - 7 - i := ⟨_, rfl⟩
    obtain ⟨x, first, number⟩ := begins d (by omega) (by omega)
    have turn : slotAt (i + d) = slotAt (i + d + 6) := slotAt_congr (by omega)
    rw [turn, held.first (by omega) (by omega), if_pos (by omega)] at first
    rcases Int.lt_or_le (i + 0) (i + d + 6) with later | same
    · have newer := @Held.lt s held (i + 0).toNat (i + d + 6).toNat y x (by omega) own first
      omega
    · have equal : (i + 0).toNat = (i + d + 6).toNat := by omega
      rw [equal, first] at own
      have value := Option.some.inj own
      omega
  obtain ⟨nonneg, _⟩ := inside b (by omega) (by omega) kept (by omega)
  refine ⟨nonneg, kept, complete, fun d low high => ?_⟩
  exact (inside d low high (by omega) (by omega)).2

private theorem cycles_le (st : Setup) : (cycles st).1 + (cycles st).2 ≤ 30 := by
  unfold cycles
  dsimp only
  split
  · decide
  · split
    · split <;> dsimp only <;> omega
    · dsimp only
      omega

private theorem sampleCount_eq (st : Setup) :
    sampleCount st = preSamp st + postSamp st ∧ sampleCount st ≤ 4800 := by
  have few := cycles_le st
  have spc : 8000 / freqHz st.freq ≤ 160 := by
    unfold freqHz
    split <;> decide
  have total : preSamp st + postSamp st ≤ 4800 := by
    rw [preSamp, postSamp, ← Nat.add_mul]
    exact Nat.mul_le_mul few spc
  have whole : sampleCount st = preSamp st + postSamp st := Nat.min_eq_left total
  exact ⟨whole, by omega⟩

theorem eventWindow_spec {ww : Fin nWaveWin → WaveWindow} {Ts : UInt64} {rix : Fin nWaveWin}
    (found : eventWindow ww Ts = some rix) : (Ts - (ww rix).ts).toNat < 200 := by
  unfold eventWindow at found
  have here := List.find?_some found
  obtain ⟨after, before⟩ := of_decide_eq_true here
  rw [ge_iff_le, UInt64.le_iff_toNat_le] at after
  rw [UInt64.lt_iff_toNat_lt, UInt64.toNat_add] at before
  rw [UInt64.toNat_sub_of_le _ _ (UInt64.le_iff_toNat_le.mpr after)]
  have bound := UInt64.toNat_lt Ts
  have bound_ := UInt64.toNat_lt (ww rix).ts
  change _ < (_ + 200) % 2 ^ 64 at before
  omega

section Reach

variable {s : Sys} {st : Setup} {e : CapEntry} {f : (Nat → UInt8) → Nat → UInt8}
  {rix : Fin nWaveWin} {n : Nat}

private theorem posEv_of_found (found : eventWindow s.ww e.Ts = some rix) :
    posEv (s.ww rix) e.Ts = (e.Ts - (s.ww rix).ts).toNat * 8 ∧ posEv (s.ww rix) e.Ts < 1600 := by
  have near := eventWindow_spec found
  have whole : posEv (s.ww rix) e.Ts = (e.Ts - (s.ww rix).ts).toNat * 8 :=
    Nat.min_eq_left (by change _ ≤ 1600 - 1; omega)
  exact ⟨whole, by omega⟩

private theorem slotAt_windowNo (some_ : 0 < s.taken.length)
    (ix : s.ix.val = (s.taken.length - 1) % 6) (d : Int) :
    slotAt (windowNo s rix + d) = Fin.ofNat nWaveWin ((rix.val + d) % nWaveWin).toNat := by
  have inside : rix.val < 6 := rix.isLt
  apply slotAt_congr (i := windowNo s rix + d) (j := rix.val + d)
  rw [windowNo, ix]
  change ((s.taken.length : Int) - 1 -
    (((s.taken.length - 1) % 6 + 6 - rix.val) % 6 : Nat) + d) % 6 = _
  omega

private theorem windowNo_bounds (rix : Fin nWaveWin) :
    (s.taken.length : Int) ≤ windowNo s rix + 6 ∧ windowNo s rix < s.taken.length := by
  rw [windowNo]
  change _ ≤ _ - 1 - ((_ % 6 : Nat) : Int) + 6 ∧ _ - 1 - ((_ % 6 : Nat) : Int) < _
  omega

private theorem Unbroken.stretch {taken : List Nat} {a b : Int} (unbroken : Unbroken taken a b)
    {k : Nat} (inside : a + k ≤ b) : ∃ x, taken[a.toNat]? = some x ∧
      taken[a.toNat + k]? = some (x + 1600 * k) := by
  have since := unbroken.since
  have complete := unbroken.complete
  have present : a.toNat < taken.length := by omega
  induction k with
  | zero => exact ⟨_, List.getElem?_eq_getElem present, List.getElem?_eq_getElem present⟩
  | succ k ih =>
    obtain ⟨x, first, here⟩ := ih (by omega)
    refine ⟨x, first, ?_⟩
    have next := unbroken.joined (a.toNat + k) (by omega) (by omega)
    rw [← Nat.add_assoc, next, here, Option.map_some]
    apply congrArg some
    change x + 1600 * k + 1600 = x + 1600 * (k + 1)
    omega

private theorem good_of_reaches {id : Fin 3} {unset m : FsMsg} (held : Held s)
    (some_ : 0 < s.taken.length)
    (ix : s.ix.val = (s.taken.length - 1) % 6) (found : eventWindow s.ww e.Ts = some rix)
    (captured : wavePreCaptureLF id st s.ww unset e = some (f, m))
    (reaches : Reaches s st e rix) : Good s st e f := by
  obtain ⟨marked, unbroken⟩ := reaches
  obtain ⟨position, low⟩ := posEv_of_found found
  obtain ⟨whole, most⟩ := sampleCount_eq st
  obtain ⟨g, isG⟩ : ∃ g : Int, g = posEv (s.ww rix) e.Ts - preSamp st := ⟨_, rfl⟩
  obtain ⟨i, isI⟩ : ∃ i, i = windowNo s rix := ⟨_, rfl⟩
  rw [← isG, ← isI] at unbroken
  have bounds := windowNo_bounds (s := s) rix
  rw [← isI] at bounds
  have since := unbroken.since
  have kept := unbroken.kept
  have complete := unbroken.complete
  change (s.taken.length : Int) ≤ i + g / 1600 + 6 at kept
  change i + (g + sampleCount st - 1) / 1600 < _ at complete
  change 0 ≤ i + g / 1600 at since
  -- the first sample of any window reached, counted from that of the first one
  obtain ⟨x, first⟩ : ∃ x, s.taken[(i + g / 1600).toNat]? = some x :=
    ⟨_, List.getElem?_eq_getElem (by omega)⟩
  have begins : ∀ d : Int, g / 1600 ≤ d → d ≤ (g + sampleCount st - 1) / 1600 →
      (s.slots (slotAt (i + d))).first = some (x + 1600 * (d - g / 1600).toNat) := by
    intro d after before
    obtain ⟨y, same, here⟩ := unbroken.stretch (k := (d - g / 1600).toNat)
      (by change i + g / 1600 + _ ≤ i + (g + _ - 1) / 1600; omega)
    change s.taken[(i + g / 1600).toNat]? = some y at same
    change s.taken[(i + g / 1600).toNat + _]? = _ at here
    obtain rfl : x = y := Option.some.inj (first.symm.trans same)
    have place : (i + d).toNat = (i + g / 1600).toNat + (d - g / 1600).toNat := by omega
    rw [held.first (by omega) (by omega), if_pos (by omega), place, here]
  obtain ⟨n, isN⟩ : ∃ n : Nat, (n : Int) = x + (g - 1600 * (g / 1600)) :=
    ⟨(x + (g - 1600 * (g / 1600))).toNat, by omega⟩
  have own := begins 0 (by omega) (by omega)
  have slot : slotAt (i + 0) = rix := by
    rw [isI, slotAt_windowNo some_ ix 0]
    apply Fin.ext
    change ((rix.val + 0 : Int) % 6).toNat % 6 = rix.val
    have inside : rix.val < 6 := rix.isLt
    omega
  rw [slot] at own
  refine ⟨rix, n, found, marked, ?_, ?_, ?_⟩
  · intro old j phase k inside b byte
    exact capture_words captured found old phase inside byte
  · intro k inside
    have here := begins ((g + k) / 1600) (by omega) (by omega)
    rw [isI, slotAt_windowNo some_ ix] at here
    rw [← isG, sampleNo, source]
    change (s.slots (Fin.ofNat nWaveWin ((rix.val + (g + k) / 1600) % nWaveWin).toNat)).first.map
      _ = _
    rw [here, Option.map_some]
    apply congrArg some
    change x + 1600 * ((g + k) / 1600 - g / 1600).toNat + ((g + k) % 1600).toNat = n + k
    omega
  · rw [own, Option.map_some, ← position]
    apply congrArg some
    omega

private theorem begins_of_good (good : GoodFrom s st e f rix n) (some_ : 0 < s.taken.length)
    (ix : s.ix.val = (s.taken.length - 1) % 6) (found : eventWindow s.ww e.Ts = some rix) {a : Nat}
    (own : (s.slots rix).first = some a) {d : Int}
    (after : (posEv (s.ww rix) e.Ts - preSamp st : Int) / 1600 ≤ d)
    (before : d ≤ (posEv (s.ww rix) e.Ts - preSamp st + sampleCount st - 1 : Int) / 1600) :
    ∃ x, (s.slots (slotAt (windowNo s rix + d))).first = some x ∧ (x : Int) = a + 1600 * d := by
  obtain ⟨position, _⟩ := posEv_of_found found
  have room : 0 < sampleCount st := Nat.lt_of_le_of_lt (Nat.zero_le _) good.marked
  obtain ⟨k, inside, here⟩ := covers (n := 1600) (by decide) after before room
  change (posEv (s.ww rix) e.Ts - preSamp st + k : Int) / 1600 = d at here
  have sample := good.inOrder k inside
  have event := good.event
  rw [own, Option.map_some, ← position] at event
  rw [sampleNo, source] at sample
  rw [slotAt_windowNo some_ ix d]
  change (s.slots (Fin.ofNat nWaveWin ((rix.val +
    (posEv (s.ww rix) e.Ts - preSamp st + k : Int) / 1600) % nWaveWin).toNat)).first.map _ = _
    at sample
  rw [here] at sample
  obtain ⟨x, first, number⟩ := Option.map_eq_some_iff.mp sample
  have start := Option.some.inj event
  change x + ((posEv (s.ww rix) e.Ts - preSamp st + k : Int) % 1600).toNat = n + k at number
  exact ⟨x, first, by omega⟩

private theorem reaches_of_good (held : Held s) (some_ : 0 < s.taken.length)
    (ix : s.ix.val = (s.taken.length - 1) % 6) (found : eventWindow s.ww e.Ts = some rix)
    (good : GoodFrom s st e f rix n) : Reaches s st e rix := by
  obtain ⟨_, low⟩ := posEv_of_found found
  obtain ⟨whole, most⟩ := sampleCount_eq st
  have marked := good.marked
  obtain ⟨a, own, _⟩ := Option.map_eq_some_iff.mp good.event
  have begins := fun (d : Int) => @begins_of_good s st e f rix n good some_ ix found a own d
  obtain ⟨g, isG⟩ : ∃ g : Int, g = posEv (s.ww rix) e.Ts - preSamp st := ⟨_, rfl⟩
  obtain ⟨i, isI⟩ : ∃ i, i = windowNo s rix := ⟨_, rfl⟩
  simp only [← isG, ← isI] at begins
  obtain ⟨newest, oldest⟩ := windowNo_bounds (s := s) rix
  rw [← isI] at newest oldest
  obtain ⟨since, kept, complete, taken⟩ :=
    held.no_turn newest oldest (by omega) (by omega) (by omega) (by omega) begins
  refine ⟨marked, ?_⟩
  rw [← isG, ← isI]
  refine ⟨since, kept, complete, fun j after before => ?_⟩
  change i + g / 1600 ≤ j at after
  change (j : Int) < i + (g + sampleCount st - 1) / 1600 at before
  obtain ⟨x, first, number⟩ := taken (j - i) (by omega) (by omega)
  obtain ⟨z, second, number_⟩ := taken (j + 1 - i) (by omega) (by omega)
  have here : (i + (j - i)).toNat = j := by omega
  have next : (i + (j + 1 - i)).toNat = j + 1 := by omega
  rw [here] at first
  rw [next] at second
  rw [first, second, Option.map_some]
  apply congrArg some
  change z = x + 1600
  omega

end Reach

private theorem good_iff_fits {id : Fin 3} {st : Setup} {s : Sys} {unset m : FsMsg} {e : CapEntry}
    {f : (Nat → UInt8) → Nat → UInt8} (held : Held s) (some_ : 0 < s.taken.length)
    (ix : s.ix.val = (s.taken.length - 1) % 6)
    (captured : wavePreCaptureLF id st s.ww unset e = some (f, m)) :
    Good s st e f ↔ Fits s st e := by
  constructor
  · rintro ⟨rix, n, found, good⟩
    exact ⟨rix, found, reaches_of_good held some_ ix found good⟩
  · rintro ⟨rix, found, reaches⟩
    exact good_of_reaches held some_ ix found captured reaches

/-- The events that a pass captures once its window is copied, with what each writes. -/
def captures (id : Fin 3) (st : Setup) (sagSt : SagSt) (unset : FsMsg) (c : Sys) :
    List (CapEntry × ((Nat → UInt8) → Nat → UInt8)) :=
  (wavePass st c.ww c.ix sagSt c.wQ).1.filterMap fun e =>
    (wavePreCaptureLF id st c.ww unset e).map fun written => (e, written.1)

private theorem mem_captures {id : Fin 3} {st : Setup} {sagSt : SagSt} {unset : FsMsg} {c : Sys}
    {p : CapEntry × ((Nat → UInt8) → Nat → UInt8)} :
    p ∈ captures id st sagSt unset c ↔ p.1 ∈ (wavePass st c.ww c.ix sagSt c.wQ).1 ∧
      ∃ m, wavePreCaptureLF id st c.ww unset p.1 = some (p.2, m) := by
  rw [captures, List.mem_filterMap]
  constructor
  · rintro ⟨e, member, same⟩
    obtain ⟨written, captured, rfl⟩ := Option.map_eq_some_iff.mp same
    exact ⟨member, written.2, captured⟩
  · rintro ⟨member, m, captured⟩
    refine ⟨p.1, member, ?_⟩
    rw [captured, Option.map_some]

/-- A capture written in any pass of any run holds consecutive samples around the event exactly if
it reaches into unbroken windows only. -/
theorem wave_samples_iff (id : Fin 3) (es : List Event) (missed : Nat) (w : WaveWindow) (st : Setup)
    (sagSt : SagSt) (unset : FsMsg) (p : CapEntry × ((Nat → UInt8) → Nat → UInt8))
    (captured : p ∈ captures id st sagSt unset (copied (run record start es) missed w)) :
    Good (copied (run record start es) missed w) st p.1 p.2 ↔
      Fits (copied (run record start es) missed w) st p.1 := by
  obtain ⟨_, m, written⟩ := mem_captures.mp captured
  obtain ⟨held, ix⟩ := held_run es
  have longer : (copied (run record start es) missed w).taken.length =
      (run record start es).taken.length + 1 := by
    rw [copied, List.length_append, List.length_singleton]
  apply good_iff_fits (held.copied ix missed w) (by omega) ?_ written
  rw [longer]
  exact ix

private theorem captured_of_found {id : Fin 3} {st : Setup} {ww : Fin nWaveWin → WaveWindow}
    {unset : FsMsg} {e : CapEntry} {rix : Fin nWaveWin} (found : eventWindow ww e.Ts = some rix)
    (some_ : 0 < sampleCount st) : ∃ f m, wavePreCaptureLF id st ww unset e = some (f, m) := by
  unfold eventWindow at found
  unfold sampleCount preSamp postSamp at some_
  unfold wavePreCaptureLF
  dsimp only
  rw [if_neg (Nat.ne_of_gt some_), found]
  exact ⟨_, _, rfl⟩

section Runs

private def blank (ts : UInt64) : WaveWindow := ⟨ts, fun _ _ => 0, fun _ _ => 0⟩

private def blankMsg : FsMsg := ⟨"", .w, 0, none, 0, fun _ => 0, false⟩

/-- Five cycles before the event and eight after it, at 50 Hz. -/
private def setup : Setup := ⟨5, 8, 1, 0, 0⟩

private def event : CapEntry := ⟨1300, .E_SAG⟩

private def queued : List Event :=
  [.window 0 (blank 1000) setup .normal, .window 0 (blank 1200) setup .normal,
    .putEventCap event]

private theorem reached (missed : Nat) (ts : UInt64) :
    let c := copied (run record start queued) missed (blank ts)
    windowNo c 1 + (posEv (c.ww 1) event.Ts - preSamp setup : Int) / lLfWvWin = 1 ∧
      windowNo c 1 + (posEv (c.ww 1) event.Ts - preSamp setup + sampleCount setup - 1 : Int) /
        lLfWvWin = 2 := by
  have position : posEv (blank 1200) event.Ts = 800 := by decide
  have pre : preSamp setup = 800 := by decide
  have count_ : sampleCount setup = 2080 := by decide
  intro c
  have ix : c.ix.val = 2 := rfl
  have length : c.taken.length = 3 := rfl
  have window : c.ww 1 = blank 1200 := rfl
  rw [windowNo, ix, length, window, position, pre, count_]
  decide

private theorem marked_setup : preSamp setup < sampleCount setup := by decide

end Runs

/-- The next window follows on. -/
theorem wave_samples_joined :
    ∃ f, (event, f) ∈ captures 0 setup .normal blankMsg
        (copied (run record start queued) 0 (blank 1400)) ∧
      Good (copied (run record start queued) 0 (blank 1400)) setup event f := by
  have found : eventWindow (copied (run record start queued) 0 (blank 1400)).ww event.Ts =
      some 1 := by decide
  obtain ⟨f, m, written⟩ := @captured_of_found 0 setup _ blankMsg event 1 found
    (Nat.lt_of_le_of_lt (Nat.zero_le _) marked_setup)
  have pass : event ∈ (wavePass setup (copied (run record start queued) 0 (blank 1400)).ww
      (copied (run record start queued) 0 (blank 1400)).ix .normal
      (copied (run record start queued) 0 (blank 1400)).wQ).1 := by decide
  have captured : (event, f) ∈ captures 0 setup .normal blankMsg
      (copied (run record start queued) 0 (blank 1400)) := mem_captures.mpr ⟨pass, m, written⟩
  refine ⟨f, captured, (wave_samples_iff 0 queued 0 (blank 1400) setup .normal blankMsg _
    captured).mpr ⟨1, found, marked_setup, ?_⟩⟩
  obtain ⟨first, last⟩ := reached 0 1400
  rw [first, last]
  have taken : (copied (run record start queued) 0 (blank 1400)).taken = [0, 1600, 3200] := rfl
  rw [taken]
  refine ⟨by decide, by decide, by decide, fun j after before => ?_⟩
  obtain rfl : j = 1 := by omega
  rfl

/-- A window is missed after the event's: the capture runs on in the one after it. -/
theorem wave_samples_gap :
    ∃ (es : List Event) (missed : Nat) (w : WaveWindow) (st : Setup) (sagSt : SagSt)
      (unset : FsMsg), ∃ p ∈ captures 0 st sagSt unset (copied (run record start es) missed w),
      ¬ Good (copied (run record start es) missed w) st p.1 p.2 := by
  have found : eventWindow (copied (run record start queued) 1600 (blank 1600)).ww event.Ts =
      some 1 := by decide
  obtain ⟨f, m, written⟩ := @captured_of_found 0 setup _ blankMsg event 1 found
    (Nat.lt_of_le_of_lt (Nat.zero_le _) marked_setup)
  have pass : event ∈ (wavePass setup (copied (run record start queued) 1600 (blank 1600)).ww
      (copied (run record start queued) 1600 (blank 1600)).ix .normal
      (copied (run record start queued) 1600 (blank 1600)).wQ).1 := by decide
  refine ⟨queued, 1600, blank 1600, setup, .normal, blankMsg, (event, f),
    mem_captures.mpr ⟨pass, m, written⟩, fun good => ?_⟩
  obtain ⟨held, ix⟩ := held_run queued
  obtain ⟨rix, same, reaches⟩ := (good_iff_fits (held.copied ix 1600 (blank 1600))
    (by decide) (by decide) written).mp good
  obtain rfl := Option.some.inj (found.symm.trans same)
  obtain ⟨first, last⟩ := reached 1600 1600
  have unbroken := reaches.unbroken
  rw [first, last] at unbroken
  have taken : (copied (run record start queued) 1600 (blank 1600)).taken = [0, 1600, 4800] := rfl
  rw [taken] at unbroken
  have joined := unbroken.joined 1 (by decide) (by decide)
  exact absurd joined (by decide)

end SV300.Wave.PreCapture
