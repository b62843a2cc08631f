/- SV300/Log/Store
   digest: The event and alarm FIFOs of meter.h, their push, their file and the load of that file. -/

import Mathlib.Algebra.Group.Defs
import SV300.Library.Ring

set_option autoImplicit false
set_option relaxedAutoImplicit false

namespace SV300.Log.Store

open SV300.Library.Ring

abbrev alarmLogCap : Nat := 1024
abbrev eventLogCap : Nat := 1024
abbrev logFifoSize : Nat := alarmLogCap
abbrev nAlarmFifo : Nat := alarmLogCap
abbrev nEventFifo : Nat := eventLogCap

/-- `ALARM_FIFO` and `EVENT_FIFO`: slot `i` of `log` is the memory `i` records after the start of
the array, so a slot from the capacity on lies behind the array. -/
structure Fifo (α : Type) where
  fr : Nat
  re : Nat
  count : Nat
  log : Nat → α

variable {α : Type}

/-- `++i`, back to 0 at the capacity. -/
def bump (cap i : Nat) : Nat := if i + 1 ≥ cap then 0 else i + 1

/-- The push of `pushEvent` and `storeAlarmLog`. -/
def append (cap : Nat) (f : Fifo α) (entry : α) : Fifo α :=
  let log := Function.update f.log f.fr entry
  if f.count < cap then
    { f with log := log, count := f.count + 1, fr := bump cap f.fr }
  else
    { f with log := log, re := bump cap f.re, fr := bump cap f.fr }

/-- The `memset` of the whole FIFO. -/
def zeroed [Zero α] (cap : Nat) (f : Fifo α) : Fifo α where
  fr := 0
  re := 0
  count := 0
  log i := if i < cap then 0 else f.log i

def fifoMagic : Int := 0x1234abcd

/-- `ALARM_HEAD`, which is also `EVENT_HEAD`. -/
structure Head where
  magic : Int
  fr : Int
  count : Int
  ts : UInt32

/-- A FIFO file: one record that holds the header, then whole log records. -/
structure File (α : Type) where
  head : Head
  body : List α

/-- The size of a file whose records have `size` bytes. -/
def File.fsize (size : Nat) (file : File α) : Nat := size * (1 + file.body.length)

/-- `alarmFifoHeaderOk` and `eventFifoHeaderOk`. -/
def headerOk (cap size : Nat) (file : File α) : Bool :=
  if file.fsize size < size then false
  else if file.head.magic ≠ fifoMagic then false
  else if file.head.count < 0 ∨ file.head.count > cap then false
  else if file.head.fr < 0 ∨ file.head.fr > cap then false
  else decide ((file.fsize size : Int) ≥ size * (1 + file.head.count))

/-- The file that `alarmFifoFileAppend` and the `ff` message write. -/
def snapshot (cap : Nat) (sysTick1s : UInt32) (f : Fifo α) : File α :=
  let n := if f.count > cap then cap else f.count
  { head := { magic := fifoMagic, fr := f.fr, count := n, ts := sysTick1s }
    body := (List.range n).map f.log }

/-- The read loop: `n` more records into the slots from `i` on, or `none` at a short read. -/
def readEntries : Nat → Nat → List α → (Nat → α) → Option (Nat → α)
  | 0, _, _, log => some log
  | _ + 1, _, [], _ => none
  | n + 1, i, entry :: rest, log => readEntries n (i + 1) rest (Function.update log i entry)

/-- The body of `loadAlarmLog` and `loadEventFifo`: the FIFO and the file that is left. -/
def load [Zero α] (cap size : Nat) (f : Fifo α) (file : Option (File α)) : Fifo α × Option (File α) :=
  match file with
  | none => (zeroed cap f, none)
  | some file =>
    if headerOk cap size file then
      let n := file.head.count.toNat
      match readEntries n 0 file.body (zeroed cap f).log with
      | some log => ({ zeroed cap f with log := log, count := n, fr := n }, some file)
      -- truncated: the file is deleted and the FIFO zeroed
      | none => (zeroed cap f, none)
    -- a bad header: the same
    else (zeroed cap f, none)

/-- `alarmFifoSanitizeRam`. -/
def alarmFifoSanitizeRam (f : Fifo α) : Fifo α where
  count := if f.count > nAlarmFifo then nAlarmFifo else f.count
  fr := if f.fr ≥ nAlarmFifo then 0 else f.fr
  re := if f.re ≥ nAlarmFifo then 0 else f.re
  log := f.log

/-- The ring has taken a history in from slot 0 on and kept its last `cap` entries. -/
structure Shows (cap : Nat) (f : Fifo α) (h : List α) : Prop where
  holds : Holds cap 0 f.log h
  fr : f.fr = h.length % cap
  count : f.count = min h.length cap
  re : f.re = (h.length - cap) % cap

def contents (cap : Nat) (f : Fifo α) : List α := window cap f.log f.re f.count

private theorem bump_mod {cap : Nat} (pos : 0 < cap) (n : Nat) :
    bump cap (n % cap) = (n + 1) % cap := by
  have below := Nat.mod_lt n pos
  rw [bump, Nat.add_mod]
  split
  · have last : n % cap = cap - 1 := by omega
    rcases Nat.lt_or_ge 1 cap with more | one
    · rw [last, Nat.mod_eq_of_lt more, Nat.sub_add_cancel pos, Nat.mod_self]
    · have cap_one : cap = 1 := by omega
      rw [cap_one, Nat.mod_one]
  · have one : 1 % cap = 1 := Nat.mod_eq_of_lt (by omega)
    rw [one, Nat.mod_eq_of_lt (a := n % cap + 1) (by omega)]

theorem Shows.fr_lt {cap : Nat} {f : Fifo α} {h : List α} (shown : Shows cap f h)
    (pos : 0 < cap) : f.fr < cap := by
  rw [shown.fr]
  exact Nat.mod_lt _ pos

theorem Shows.count_le {cap : Nat} {f : Fifo α} {h : List α} (shown : Shows cap f h) :
    f.count ≤ cap := by
  rw [shown.count]
  exact Nat.min_le_right _ _

theorem shows_zeroed [Zero α] (cap : Nat) (f : Fifo α) : Shows cap (zeroed cap f) [] where
  holds := holds_nil cap 0 _
  fr := (Nat.zero_mod cap).symm
  count := (Nat.zero_min cap).symm
  re := by rw [List.length_nil, Nat.zero_sub, Nat.zero_mod]; rfl

theorem Shows.append {cap : Nat} {f : Fifo α} {h : List α} (shown : Shows cap f h)
    (pos : 0 < cap) (entry : α) : Shows cap (append cap f entry) (h ++ [entry]) := by
  have length : (h ++ [entry]).length = h.length + 1 := by simp
  have slot : f.fr = (0 + h.length) % cap := by rw [shown.fr, Nat.zero_add]
  have log : (Store.append cap f entry).log = Function.update f.log f.fr entry := by
    rw [Store.append]
    split <;> rfl
  have fr : (Store.append cap f entry).fr = bump cap f.fr := by
    rw [Store.append]
    split <;> rfl
  have count := shown.count
  refine ⟨?_, ?_, ?_, ?_⟩
  · rw [log, slot]
    exact shown.holds.push entry
  · rw [fr, length, shown.fr, bump_mod pos]
  · rw [Store.append, length]
    split
    · dsimp only
      omega
    · dsimp only
      omega
  · rw [Store.append, length]
    split
    · have few : h.length < cap := by omega
      rw [Nat.sub_eq_zero_of_le (Nat.succ_le_of_lt few), shown.re,
        Nat.sub_eq_zero_of_le (Nat.le_of_lt few)]
    · dsimp only
      rw [shown.re, bump_mod pos, Nat.succ_sub (by omega : cap ≤ h.length)]

theorem Shows.contents {cap : Nat} {f : Fifo α} {h : List α} (shown : Shows cap f h) :
    contents cap f = latest f.count h := by
  have count := shown.count
  have first : window cap f.log f.re f.count = window cap f.log (h.length - f.count) f.count := by
    rcases Nat.lt_or_ge h.length cap with few | full
    · rw [shown.re, Nat.sub_eq_zero_of_le (Nat.le_of_lt few), Nat.zero_mod]
      congr 1
      omega
    · have turns : h.length - f.count = (h.length - cap) % cap + cap * ((h.length - cap) / cap) := by
        rw [Nat.mod_add_div]
        omega
      rw [turns, window_turns, shown.re]
  rw [Store.contents, first, ← Nat.zero_add (h.length - f.count)]
  exact shown.holds.window shown.count_le (by omega)

private theorem readEntries_eq {n : Nat} (i : Nat) {body : List α} (log : Nat → α)
    (enough : n ≤ body.length) :
    ∃ read, readEntries n i body log = some read ∧
      (∀ j, j < n → some (read (i + j)) = body[j]?) ∧
      ∀ k, (k < i ∨ i + n ≤ k) → read k = log k := by
  induction n generalizing i body log with
  | zero => exact ⟨log, rfl, fun j inside => absurd inside (Nat.not_lt_zero j), fun _ _ => rfl⟩
  | succ n ih =>
    obtain _ | ⟨entry, rest⟩ := body
    · cases enough
    · obtain ⟨read, result, entries, others⟩ :=
        ih (i + 1) (Function.update log i entry) (Nat.le_of_succ_le_succ enough)
      refine ⟨read, result, ?_, ?_⟩
      · intro j inside
        cases j with
        | zero =>
          rw [Nat.add_zero, others i (Or.inl (Nat.lt_succ_self i)), Function.update_self]
          rfl
        | succ j =>
          have next := entries j (by omega)
          rwa [show i + 1 + j = i + (j + 1) by omega] at next
      · intro k outside
        rw [others k (by omega), Function.update_of_ne (by omega)]

/-- A file as a save leaves it. -/
structure Saved (cap : Nat) (file : File α) (body : List α) : Prop where
  magic : file.head.magic = fifoMagic
  fr : 0 ≤ file.head.fr ∧ file.head.fr ≤ cap
  count : file.head.count = body.length
  fits : body.length ≤ cap
  body : file.body = body

theorem snapshot_saved {cap : Nat} {f : Fifo α} (now : UInt32) (fr : f.fr ≤ cap)
    (count : f.count ≤ cap) :
    Saved cap (snapshot cap now f) ((List.range f.count).map f.log) := by
  have n : (if f.count > cap then cap else f.count) = f.count := if_neg (by omega)
  refine ⟨rfl, ?_, ?_, ?_, ?_⟩
  · dsimp only [snapshot]
    omega
  · simp [snapshot, n]
  · rwa [List.length_map, List.length_range]
  · simp only [snapshot, n]

private theorem Saved.headerOk {cap size : Nat} {file : File α} {body : List α}
    (saved : Saved cap file body) : headerOk cap size file = true := by
  have fits := saved.fits
  have fr := saved.fr
  have count := saved.count
  have size_ok : (file.fsize size : Int) = size * (1 + file.head.count) := by
    rw [File.fsize, saved.body, count]
    push_cast
    rfl
  rw [Store.headerOk, if_neg, if_neg (not_not.mpr saved.magic), if_neg (by omega),
    if_neg (by omega), decide_eq_true (Int.le_of_eq size_ok.symm)]
  rw [File.fsize, Nat.mul_add, Nat.mul_one]
  exact Nat.not_lt.mpr (Nat.le_add_right _ _)

/-- A saved file loads as its body from slot 0 on, with the write index at its length. -/
theorem Saved.load [Zero α] {cap : Nat} {file : File α} {body : List α}
    (saved : Saved cap file body) (size : Nat) (f : Fifo α) : ∃ log, load cap size f (some file) =
      ({ fr := body.length, re := 0, count := body.length, log := log }, some file) ∧
      Holds cap 0 log body ∧ ∀ i, cap ≤ i → log i = f.log i := by
  have n : file.head.count.toNat = body.length := by rw [saved.count, Int.toNat_natCast]
  obtain ⟨log, result, entries, others⟩ :=
    readEntries_eq 0 (zeroed cap f).log (Nat.le_refl body.length)
  refine ⟨log, ?_, ?_, ?_⟩
  · simp only [Store.load, saved.headerOk, if_true, n, saved.body, result]
    rfl
  · intro j entry here recent
    obtain ⟨inside, _⟩ := List.getElem?_eq_some_iff.mp here
    have slot := entries j inside
    rw [here, Nat.zero_add] at slot
    rw [Nat.zero_add, Nat.mod_eq_of_lt (Nat.lt_of_lt_of_le inside saved.fits)]
    exact Option.some.inj slot
  · intro i behind
    have fits := saved.fits
    rw [others i (Or.inr (by omega)), zeroed]
    exact if_neg (by omega)

theorem Saved.load_shows [Zero α] {cap : Nat} {file : File α} {body : List α}
    (saved : Saved cap file body) (few : body.length < cap) (size : Nat) (f : Fifo α) :
    Shows cap (Store.load cap size f (some file)).1 body := by
  obtain ⟨log, result, holds, _⟩ := saved.load size f
  rw [result]
  refine ⟨holds, (Nat.mod_eq_of_lt few).symm, (Nat.min_eq_left (Nat.le_of_lt few)).symm, ?_⟩
  rw [Nat.sub_eq_zero_of_le (Nat.le_of_lt few), Nat.zero_mod]

theorem Shows.slots {cap : Nat} {f : Fifo α} {h : List α} (shown : Shows cap f h)
    (few : h.length < cap) : (List.range f.count).map f.log = h := by
  have count : f.count = h.length := by rw [shown.count, Nat.min_eq_left (Nat.le_of_lt few)]
  have start : f.re = 0 := by
    rw [shown.re, Nat.sub_eq_zero_of_le (Nat.le_of_lt few), Nat.zero_mod]
  have read := shown.contents
  rw [latest_of_short (Nat.le_of_eq count.symm), Store.contents, window, start] at read
  rw [← read]
  apply List.map_congr_left
  intro i inside
  rw [List.mem_range] at inside
  rw [Nat.zero_add, Nat.mod_eq_of_lt (by omega)]

end SV300.Log.Store
