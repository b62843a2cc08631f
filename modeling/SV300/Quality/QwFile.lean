/- SV300/Quality/QwFile
   digest: The weekly file as bytes, the update that rewrites it, and the events it keeps. -/

import Mathlib.Data.Fin.VecNotation
import Mathlib.Data.Fintype.Basic
import Mathlib.Tactic.FinCases
import SV300.Library.ByteCodec
import SV300.Library.Runs
import SV300.Quality.Week

set_option autoImplicit false
set_option relaxedAutoImplicit false

namespace SV300.Quality.QwFile

open SV300.Library.ByteCodec
open SV300.Library.Runs
open SV300.Quality.Week

/-- An event as it is logged. -/
structure EventLog (F : Type) where
  startTs : UInt32
  msec : UInt16
  duration : UInt16
  type : UInt16
  mask : UInt16
  level : Fin 3 → F

/-- The four bytes of a `float`. -/
structure FloatCodec (F : Type) extends Codec F where
  four : toCodec.size = 4

def floatBits : FloatCodec UInt32 := { u32 with four := rfl }

variable {F : Type}

def variationEquiv : QualVariation F ≃ UInt32 × F where
  toFun v := (v.err, v.var)
  invFun t := ⟨t.1, t.2⟩
  left_inv _ := rfl
  right_inv _ := rfl

def kindEquiv : EventKind ≃ Fin 5 where
  toFun
    | .sag => 0
    | .swell => 1
    | .shortIntr => 2
    | .longIntr => 3
    | .rvc => 4
  invFun := ![.sag, .swell, .shortIntr, .longIntr, .rvc]
  left_inv k := by cases k <;> rfl
  right_inv i := by fin_cases i <;> rfl

/-- The statistics in memory order, which is also the order of their flags. -/
def statistics (v : QualVarData F) : Fin 24 → QualVariation F :=
  ![v.single .freq1, v.single .freq2, v.phase .volt1 0, v.phase .volt1 1, v.phase .volt1 2,
    v.phase .volt2 0, v.phase .volt2 1, v.phase .volt2 2, v.single .voltbal,
    v.phase .voltThd 0, v.phase .voltThd 1, v.phase .voltThd 2,
    v.phase .voltHd 0, v.phase .voltHd 1, v.phase .voltHd 2,
    v.phase .pst 0, v.phase .pst 1, v.phase .pst 2, v.phase .plt 0, v.phase .plt 1, v.phase .plt 2,
    v.phase .svolt 0, v.phase .svolt 1, v.phase .svolt 2]

def varDataEquiv : QualVarData F ≃ (Fin 5 → Fin 4 → UInt32) × (Fin 24 → QualVariation F) where
  toFun v := (fun i => v.events (kindEquiv.symm i), statistics v)
  invFun t := {
    events := fun k => t.1 (kindEquiv k)
    single := fun q => t.2 ⟨q.position, by have := q.position_lt; cases q <;> decide⟩
    phase := fun q i => t.2 ⟨q.position + i, by
      have phase := i.isLt
      cases q <;> dsimp only [ThreePhase.position] <;> omega⟩ }
  left_inv v := by
    rcases v with ⟨events, single, phase⟩
    simp only [Equiv.symm_apply_apply, QualVarData.mk.injEq, true_and]
    refine ⟨?_, ?_⟩
    · funext q
      cases q <;> rfl
    · funext q i
      cases q <;> fin_cases i <;> rfl
  right_inv t := by
    refine Prod.ext ?_ ?_
    · funext i
      simp only [Equiv.apply_symm_apply]
    · funext k
      fin_cases k <;> rfl

def weekEquiv : QualWeek F ≃ UInt32 × UInt32 × UInt32 × UInt32 × UInt32 × UInt32 ×
    QualVarData F × UInt32 where
  toFun w := (w.startTs, w.endTs, w.complete, w.compliance, w.count10s, w.count10m, w.var,
    w.evtCount)
  invFun t := ⟨t.1, t.2.1, t.2.2.1, t.2.2.2.1, t.2.2.2.2.1, t.2.2.2.2.2.1, t.2.2.2.2.2.2.1,
    t.2.2.2.2.2.2.2⟩
  left_inv _ := rfl
  right_inv _ := rfl

def eventEquiv : EventLog F ≃ UInt32 × UInt16 × UInt16 × UInt16 × UInt16 × (Fin 3 → F) where
  toFun e := (e.startTs, e.msec, e.duration, e.type, e.mask, e.level)
  invFun t := ⟨t.1, t.2.1, t.2.2.1, t.2.2.2.1, t.2.2.2.2.1, t.2.2.2.2.2⟩
  left_inv _ := rfl
  right_inv _ := rfl

variable (float : FloatCodec F)

def variationCodec : Codec (QualVariation F) := relabel (pair u32 float.toCodec) variationEquiv

def weekCodec : Codec (QualWeek F) :=
  relabel (pair u32 (pair u32 (pair u32 (pair u32 (pair u32 (pair u32
    (pair (relabel (pair (array (array u32 4) 5) (array (variationCodec float) 24)) varDataEquiv)
      u32))))))) weekEquiv

def eventCodec : Codec (EventLog F) :=
  relabel (pair u32 (pair u16 (pair u16 (pair u16 (pair u16 (array float.toCodec 3))))))
    eventEquiv

private theorem size_weekCodec : (weekCodec float).size = 300 := by
  simp only [weekCodec, variationCodec, relabel, pair, size_array, float.four]
  rfl

private theorem size_eventCodec : (eventCodec float).size = 24 := by
  simp only [eventCodec, relabel, pair, size_array, float.four]
  rfl

/-! A file is its bytes, or absent. -/

def qwTailMax : Nat := 4096

/-- What one `fread` of the loop returns: up to 256 bytes. -/
def piece (room : Nat) (file : List UInt8) : List UInt8 := file.take (min room 256)

/-- The reading loop, until the buffer is full or the file ends.  It returns what was read and what
is left of the file. -/
def readPieces (room : Nat) (file : List UInt8) : List UInt8 × List UInt8 :=
  if room = 0 then ([], file)
  else if piece room file = [] then ([], file)
  else
    let r := readPieces (room - (piece room file).length) (file.drop (piece room file).length)
    (piece room file ++ r.1, r.2)
termination_by room
decreasing_by
  rename_i space some
  have pos : (piece room file).length ≠ 0 := fun none => some (List.length_eq_zero_iff.mp none)
  omega

/-- `qualWeekReadTail`: what follows the header, unless it does not fit the buffer. -/
def qualWeekReadTail : Option (List UInt8) → Option (List UInt8)
  | none => some []
  | some bytes =>
    let r := readPieces qwTailMax (bytes.drop 300)
    if r.1.length = qwTailMax ∧ r.2 ≠ [] then none else some r.1

/-- `updateQualWeekData`: rewrite the header, keep the tail, append the events. -/
def updateQualWeekData (file : Option (List UInt8)) (weekSnap : QualWeek F)
    (ev : List (EventLog F)) : Int × Option (List UInt8) :=
  match qualWeekReadTail file with
  | none => (-1, file)
  | some tail =>
    (0, some ((weekCodec float).encode weekSnap ++ tail ++ ev.flatMap (eventCodec float).encode))

/-- `createQualWeekData`: a header and nothing else. -/
def createQualWeekData (qw : QualWeek F) : Option (List UInt8) :=
  some ((weekCodec float).encode qw)

private theorem readPieces_eq (room : Nat) (file : List UInt8) :
    readPieces room file = (file.take room, file.drop room) := by
  induction room using Nat.strong_induction_on generalizing file with
  | _ room ih =>
    rw [readPieces]
    split
    · rename_i full
      rw [full, List.take_zero, List.drop_zero]
    split
    · rename_i space ended
      have empty : file = [] := by
        rcases List.take_eq_nil_iff.mp ended with zero | nil
        · omega
        · exact nil
      rw [empty, List.take_nil, List.drop_nil]
    · rename_i space some
      have length : (piece room file).length = min (min room 256) file.length := List.length_take
      have pos : (piece room file).length ≠ 0 := fun none =>
        some (List.length_eq_zero_iff.mp none)
      have front : piece room file = file.take (piece room file).length := by
        rw [length, piece, List.take_eq_take_min]
      have whole : (piece room file).length + (room - (piece room file).length) = room := by omega
      rw [ih _ (by omega)]
      dsimp only
      rw [List.drop_drop, whole]
      congr 1
      conv_lhs => lhs; rw [front]
      rw [← List.take_add, whole]

/-- A weekly file: the header and the events after it. -/
structure WeekFile (F : Type) where
  header : QualWeek F
  tail : List (EventLog F)

def WeekFile.bytes (f : WeekFile F) : List UInt8 :=
  (weekCodec float).encode f.header ++ f.tail.flatMap (eventCodec float).encode

/-- The tail of a file with so many events fits the buffer. -/
def TailFits (n : Nat) : Prop := 24 * n ≤ qwTailMax

instance (n : Nat) : Decidable (TailFits n) := inferInstanceAs (Decidable (_ ≤ _))

def WeekFile.update (f : WeekFile F) (weekSnap : QualWeek F) (ev : List (EventLog F)) :
    WeekFile F :=
  if TailFits f.tail.length then ⟨weekSnap, f.tail ++ ev⟩ else f

private theorem length_events (ev : List (EventLog F)) :
    (ev.flatMap (eventCodec float).encode).length = 24 * ev.length := by
  induction ev with
  | nil => rfl
  | cons e ev ih =>
    rw [List.flatMap_cons, List.length_append, ih, Codec.length_encode, size_eventCodec,
      List.length_cons]
    omega

private theorem length_bytes (f : WeekFile F) :
    (f.bytes float).length = 300 + 24 * f.tail.length := by
  rw [WeekFile.bytes, List.length_append, Codec.length_encode, size_weekCodec, length_events]

private theorem drop_header (f : WeekFile F) :
    (f.bytes float).drop 300 = f.tail.flatMap (eventCodec float).encode := by
  rw [WeekFile.bytes]
  exact List.drop_left' (((weekCodec float).length_encode _).trans (size_weekCodec float))

private theorem readTail_bytes (f : WeekFile F) :
    qualWeekReadTail (some (f.bytes float)) =
      if TailFits f.tail.length then some (f.tail.flatMap (eventCodec float).encode)
      else none := by
  have length := length_events float f.tail
  rw [qualWeekReadTail, readPieces_eq, drop_header]
  dsimp only
  by_cases fits : TailFits f.tail.length
  · have short : (f.tail.flatMap (eventCodec float).encode).length ≤ qwTailMax := by
      rw [length]
      exact fits
    rw [if_pos fits, List.take_of_length_le short, List.drop_of_length_le short, if_neg]
    rintro ⟨-, left⟩
    exact left rfl
  · have long : qwTailMax < (f.tail.flatMap (eventCodec float).encode).length := by
      rw [length]
      exact Nat.lt_of_not_le fits
    rw [if_neg fits, if_pos]
    refine ⟨?_, ?_⟩
    · rw [List.length_take]
      omega
    · intro none
      have end_ := List.drop_eq_nil_iff.mp none
      omega

private theorem updateQualWeekData_bytes (f : WeekFile F) (weekSnap : QualWeek F)
    (ev : List (EventLog F)) :
    updateQualWeekData float (some (f.bytes float)) weekSnap ev =
      (if TailFits f.tail.length then 0 else -1, some ((f.update weekSnap ev).bytes float)) := by
  rw [updateQualWeekData, readTail_bytes, WeekFile.update]
  by_cases fits : TailFits f.tail.length
  · rw [if_pos fits, if_pos fits, if_pos fits]
    dsimp only [WeekFile.bytes]
    rw [List.flatMap_append, List.append_assoc]
  · rw [if_neg fits, if_neg fits, if_neg fits]

def nEventQ : Nat := 1024

/-- What one ten-minute job brings: the record after the ten minutes were added, and the events of
the queue. -/
structure TenMinutes (F : Type) where
  record : QualWeek F
  ev : List (EventLog F)
  room : ev.length ≤ nEventQ

/-- The week's record in RAM and its file; `written` is the header the file got last. -/
structure Week (F : Type) where
  qw : QualWeek F
  file : Option (List UInt8)
  written : QualWeek F

/-- `pqQueueJob` followed by `pqIoTick`: the count of events goes into the record and its snapshot,
then the file is updated. -/
def step (s : Week F) (j : TenMinutes F) : Week F :=
  let qw := { j.record with evtCount := s.qw.evtCount + UInt32.ofNat j.ev.length }
  let r := updateQualWeekData float s.file qw j.ev
  { qw := qw, file := r.2, written := if r.1 = 0 then qw else s.written }

def newWeek (record : QualWeek F) : Week F :=
  let qw := { record with evtCount := 0 }
  { qw := qw, file := createQualWeekData float qw, written := qw }

def allEvents (js : List (TenMinutes F)) : List (EventLog F) := js.flatMap TenMinutes.ev

private theorem allEvents_cons (j : TenMinutes F) (js : List (TenMinutes F)) :
    allEvents (j :: js) = j.ev ++ allEvents js := List.flatMap_cons

/-- The file is the header written last followed by the given events, and the header counts them. -/
def Holds (s : Week F) (ev : List (EventLog F)) : Prop :=
  s.file = some (WeekFile.bytes float ⟨s.written, ev⟩) ∧ s.written.evtCount.toNat = ev.length

/-- No job brings events to a file whose tail has outgrown the buffer; `n` counts the events before
the jobs. -/
def TailsFit (n : Nat) (js : List (TenMinutes F)) : Prop :=
  Along (fun n j => n + j.ev.length) (fun n j => j.ev = [] ∨ TailFits n) n js

/-- The file is up to date with the record in RAM. -/
structure Current (s : Week F) (ev : List (EventLog F)) : Prop where
  holds : Holds float s ev
  counted : s.qw.evtCount.toNat = ev.length

private theorem step_fits {s : Week F} {ev : List (EventLog F)} (j : TenMinutes F)
    (current : Current float s ev) (fits : TailFits ev.length) :
    Current float (step float s j) (ev ++ j.ev) := by
  have few : ev.length ≤ 170 := by
    have bytes : 24 * ev.length ≤ 4096 := fits
    omega
  have room : j.ev.length ≤ 1024 := j.room
  have count : (s.qw.evtCount + UInt32.ofNat j.ev.length).toNat = (ev ++ j.ev).length := by
    rw [UInt32.toNat_add, UInt32.toNat_ofNat', current.counted, List.length_append]
    omega
  have update := updateQualWeekData_bytes float ⟨s.written, ev⟩
    { j.record with evtCount := s.qw.evtCount + UInt32.ofNat j.ev.length } j.ev
  rw [WeekFile.update, if_pos fits, if_pos fits] at update
  rw [step, current.holds.1]
  dsimp only
  rw [update]
  exact ⟨⟨rfl, count⟩, count⟩

private theorem step_stuck {s : Week F} {f : WeekFile F} (j : TenMinutes F)
    (file : s.file = some (f.bytes float)) (full : ¬TailFits f.tail.length) :
    (step float s j).file = s.file ∧ (step float s j).written = s.written := by
  have update := updateQualWeekData_bytes float f
    { j.record with evtCount := s.qw.evtCount + UInt32.ofNat j.ev.length } j.ev
  rw [WeekFile.update, if_neg full, if_neg full] at update
  rw [step, file]
  dsimp only
  rw [update]
  exact ⟨rfl, rfl⟩

theorem run_stuck {s : Week F} {f : WeekFile F} (js : List (TenMinutes F))
    (file : s.file = some (f.bytes float)) (full : ¬TailFits f.tail.length) :
    (run (step float) s js).file = s.file ∧ (run (step float) s js).written = s.written := by
  induction js generalizing s with
  | nil => exact ⟨rfl, rfl⟩
  | cons j js ih =>
    obtain ⟨kept, header⟩ := step_stuck float j file full
    obtain ⟨rest, last⟩ := ih (kept.trans file)
    exact ⟨rest.trans kept, last.trans header⟩

private theorem tailsFit_stuck {n : Nat} (js : List (TenMinutes F)) (full : ¬TailFits n) :
    TailsFit n js ↔ allEvents js = [] := by
  induction js generalizing n with
  | nil => simp [TailsFit, allEvents]
  | cons j js ih =>
    have grown : ¬TailFits (n + j.ev.length) := by
      intro fits
      exact full (le_trans (Nat.mul_le_mul_left 24 (Nat.le_add_right n _)) fits)
    have rest := ih grown
    rw [TailsFit] at rest ⊢
    rw [along_cons, rest, allEvents_cons, List.append_eq_nil_iff]
    exact and_congr_left' (or_iff_left full)

private theorem holds_iff_of_bytes {s : Week F} {h : QualWeek F} {ev ev' : List (EventLog F)}
    (file : s.file = some (WeekFile.bytes float ⟨h, ev⟩)) (holds : Holds float s ev') :
    ev.length = ev'.length := by
  have same := congrArg List.length (Option.some.inj (file.symm.trans holds.1))
  rw [length_bytes, length_bytes] at same
  dsimp only at same
  omega

/-- Jobs on a file that is up to date leave it with all events exactly if they find room. -/
theorem run_holds_iff {s : Week F} {ev : List (EventLog F)} (js : List (TenMinutes F))
    (current : Current float s ev) :
    Holds float (run (step float) s js) (ev ++ allEvents js) ↔ TailsFit ev.length js := by
  induction js generalizing s ev with
  | nil =>
    rw [allEvents, List.flatMap_nil, List.append_nil]
    exact iff_of_true current.holds trivial
  | cons j js ih =>
    by_cases fits : TailFits ev.length
    · have rest := ih (step_fits float j current fits)
      rw [run_cons, allEvents_cons, ← List.append_assoc, rest, TailsFit, TailsFit, along_cons,
        List.length_append]
      exact (and_iff_right (Or.inr fits)).symm
    · obtain ⟨kept, header⟩ := run_stuck float (j :: js) current.holds.1 fits
      rw [tailsFit_stuck (j :: js) fits]
      constructor
      · intro holds
        have same := holds_iff_of_bytes float (kept.trans current.holds.1) holds
        rw [List.length_append] at same
        exact List.length_eq_zero_iff.mp (by omega)
      · intro none
        rw [none, List.append_nil, Holds, kept, header]
        exact current.holds

/-- After any jobs of a week its file is the header written last followed by all events, and the
header counts them, exactly if no job brings events when the tail before it is past 4096 bytes. -/
theorem week_file_iff (record : QualWeek F) (js : List (TenMinutes F)) :
    Holds float (run (step float) (newWeek float record) js) (allEvents js) ↔ TailsFit 0 js := by
  have start : Current float (newWeek float record) [] := by
    refine ⟨⟨?_, rfl⟩, rfl⟩
    rw [WeekFile.bytes, List.flatMap_nil, List.append_nil]
    rfl
  exact run_holds_iff float js start

def noEvent : EventLog UInt32 := ⟨0, 0, 0, 0, 0, fun _ => 0⟩

def noRecord : QualWeek UInt32 where
  startTs := 0
  endTs := 0
  complete := 0
  compliance := 0
  count10s := 0
  count10m := 0
  var := { events := fun _ _ => 0, single := fun _ => ⟨0, 0⟩, phase := fun _ _ => ⟨0, 0⟩ }
  evtCount := 0

def burst (n : Nat) (room : n ≤ nEventQ) : TenMinutes UInt32 where
  record := noRecord
  ev := List.replicate n noEvent
  room := by rwa [List.length_replicate]

private theorem length_burst (n : Nat) (room : n ≤ nEventQ) : (burst n room).ev.length = n :=
  List.length_replicate

/-- The event after 171 others is counted and lost. -/
theorem event_172_lost :
    let js := [burst 171 (by decide), burst 1 (by decide)]
    let s := run (step floatBits) (newWeek floatBits noRecord) js
    (allEvents js).length = 172 ∧ s.file.map List.length = some (300 + 24 * 171) ∧
      s.qw.evtCount = 172 ∧ ¬Holds floatBits s (allEvents js) := by
  intro js s
  have start : Current floatBits (newWeek floatBits noRecord) [] := by
    refine ⟨⟨?_, rfl⟩, rfl⟩
    rw [WeekFile.bytes, List.flatMap_nil, List.append_nil]
    rfl
  have first := step_fits floatBits (burst 171 (by decide)) start (by decide)
  rw [List.nil_append] at first
  have full : ¬TailFits (burst 171 (by decide)).ev.length := by
    rw [length_burst]
    decide
  have file : s.file = _ :=
    (step_stuck floatBits (burst 1 (by decide)) first.holds.1 full).1.trans first.holds.1
  have many : (allEvents js).length = 172 := by
    have none : allEvents ([] : List (TenMinutes UInt32)) = [] := rfl
    simp only [js, allEvents_cons, none, List.append_nil, List.length_append, length_burst]
  have counted : s.qw.evtCount = 0 + UInt32.ofNat (burst 171 (by decide)).ev.length +
      UInt32.ofNat (burst 1 (by decide)).ev.length := rfl
  refine ⟨many, ?_, ?_, ?_⟩
  · rw [file, Option.map_some, length_bytes]
    dsimp only
    rw [length_burst]
  · rw [counted, length_burst, length_burst]
    rfl
  · intro holds
    have same := holds_iff_of_bytes floatBits file holds
    rw [many, length_burst] at same
    exact absurd same (by decide)

end SV300.Quality.QwFile
