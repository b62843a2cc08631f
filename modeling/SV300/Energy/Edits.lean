/- SV300/Energy/Edits
   digest: When the display shows what energy edits wrote and the live counters follow the record. -/

import Mathlib.Data.List.Induction
import SV300.Library.Runs
import SV300.Energy.Scan

set_option autoImplicit false
set_option relaxedAutoImplicit false

namespace SV300.Energy.Edits

open SV300.Library.Runs
open SV300.Energy.Record
open SV300.Energy.Registers
open SV300.Energy.Scan

variable {F : Type}

/-- One edit: the displayed registers it writes, and the channel it applies them to. -/
structure Edit where
  id : Channel
  value : Period → Cell → Option UInt32

/-- The direct writes of an edit to the displayed registers. -/
def writeEreg32 (s : Sys F) (e : Edit) : Sys F :=
  s.setMeter e.id fun m => { m with ereg32 := fun p c => (e.value p c).getD (m.ereg32 p c) }

/-- An edit as it is made: the registers are written, the apply command is given, and the scan
finds it. -/
def step [Single F] (s : Sys F) (e : Edit) : Sys F :=
  let written := writeEreg32 s e
  (editEnergy e.id (0, written.setMeter e.id fun m => { m with rstEgy := editCommand })).2

def lastWritten (id : Channel) (p : Period) (c : Cell) (es : List Edit) : Option UInt32 :=
  es.foldl (fun old e => if e.id = id then (e.value p c).or old else old) none

/-- The live counters are those of the record. -/
def InStep (s : Sys F) : Prop := ∀ id, (s.meter id).ereg64 = s.egyNvr.ereg64 id

/-- After the edits and a refresh of the display, every register shows what was last written to it,
and the live counters are those of the record. -/
def Kept [Single F] (s : Sys F) (es : List Edit) : Prop :=
  let t := channels.foldl copyEreg32 (run step s es)
  (∀ id p c v, lastWritten id p c es = some v → (t.meter id).ereg32 p c = v) ∧ InStep t

/-- The largest month value whose hundredfold a 32-bit counter holds. -/
def maxMonth : UInt32 := 42949672

/-- The value a register shows once the edits are made. -/
def shown (s : Sys F) (es : List Edit) (id : Channel) (p : Period) (c : Cell) : UInt32 :=
  (lastWritten id p c es).getD ((s.meter id).ereg32 p c)

/-- The edits do no harm: month values fit their counters, and the live counters already are what
the record ends up with. -/
structure Harmless (s : Sys F) (es : List Edit) : Prop where
  month : ∀ id c v, lastWritten id .thisMonth c es = some v → v ≤ maxMonth
  untouched : ∀ id, (∀ e ∈ es, e.id ≠ id) → (s.meter id).ereg64 = s.egyNvr.ereg64 id
  touched : ∀ id, (∃ e ∈ es, e.id = id) → ∀ c,
    (s.meter id).ereg64 c = (shown s es id .total c).toUInt64 * 100

/-- The state after edits, register by register. -/
structure Edited (s t : Sys F) (es : List Edit) : Prop where
  display : ∀ id p c, (t.meter id).ereg32 p c = shown s es id p c
  ereg64 : ∀ id, (t.meter id).ereg64 = (s.meter id).ereg64
  untouched : ∀ id, (∀ e ∈ es, e.id ≠ id) → t.egyNvr.ereg64 id = s.egyNvr.ereg64 id
  touched : ∀ id, (∃ e ∈ es, e.id = id) → ∀ c,
    t.egyNvr.ereg64 id c = (shown s es id .total c).toUInt64 * 100 ∧
    t.egyNvr.monthWh id c = shown s es id .thisMonth c * 100 ∧
    t.egyNvr.ereg32Last id c = shown s es id .lastMonth c

private theorem lastWritten_append (id : Channel) (p : Period) (c : Cell) (es : List Edit)
    (e : Edit) :
    lastWritten id p c (es ++ [e]) =
      if e.id = id then (e.value p c).or (lastWritten id p c es) else lastWritten id p c es := by
  rw [lastWritten, List.foldl_append]
  rfl

private theorem step_eq [Single F] (s : Sys F) (e : Edit) :
    step s e = applyEregEdit ((writeEreg32 s e).setMeter e.id fun m => { m with rstEgy := 0 }) e.id := by
  rw [step, editEnergy, if_pos]
  · simp only [Sys.setMeter, Function.update_self, Function.update_idem]
  · rw [setMeter_meter, if_pos rfl]

section Step

variable [Single F] (s : Sys F) (e : Edit)

private theorem step_own (c : Cell) :
    (step s e).egyNvr.ereg64 e.id c = (((step s e).meter e.id).ereg32 .total c).toUInt64 * 100 ∧
      (step s e).egyNvr.monthWh e.id c = ((step s e).meter e.id).ereg32 .thisMonth c * 100 ∧
      (step s e).egyNvr.ereg32Last e.id c = ((step s e).meter e.id).ereg32 .lastMonth c := by
  rw [step_eq]
  simp only [applyEregEdit, setMeter_egyNvr, setMeter_meter, if_true, Function.update_self,
    and_self]

private theorem step_other {id : Channel} (other : e.id ≠ id) :
    (step s e).egyNvr.ereg64 id = s.egyNvr.ereg64 id ∧
      (step s e).egyNvr.monthWh id = s.egyNvr.monthWh id ∧
      (step s e).egyNvr.ereg32Last id = s.egyNvr.ereg32Last id := by
  rw [step_eq]
  simp only [applyEregEdit, writeEreg32, setMeter_egyNvr, Function.update_of_ne other.symm,
    and_self]

private theorem step_display (id : Channel) (p : Period) (c : Cell) :
    ((step s e).meter id).ereg32 p c =
      if e.id = id then (e.value p c).getD ((s.meter id).ereg32 p c)
      else (s.meter id).ereg32 p c := by
  rw [step_eq]
  by_cases same : e.id = id
  · subst same
    simp only [applyEregEdit, writeEreg32, setMeter_meter, if_true]
  · have other : ¬id = e.id := fun h => same h.symm
    simp only [applyEregEdit, writeEreg32, setMeter_meter, other, same, if_false]

private theorem step_ereg64 (id : Channel) :
    ((step s e).meter id).ereg64 = (s.meter id).ereg64 := by
  rw [step_eq]
  by_cases same : id = e.id
  · subst same
    simp only [applyEregEdit, writeEreg32, setMeter_meter, if_true]
  · simp only [applyEregEdit, writeEreg32, setMeter_meter, same, if_false]

end Step

private theorem edited_run [Single F] (s : Sys F) (es : List Edit) :
    Edited s (run step s es) es := by
  induction es using List.reverseRecOn with
  | nil =>
    refine ⟨fun _ _ _ => rfl, fun _ => rfl, fun _ _ => rfl, ?_⟩
    rintro id ⟨e, absent, -⟩
    cases absent
  | append_singleton es e ih =>
    rw [run_append, run_cons, run_nil]
    generalize run step s es = t at ih ⊢
    have display : ∀ id p c, ((step t e).meter id).ereg32 p c = shown s (es ++ [e]) id p c := by
      intro id p c
      rw [step_display, ih.display, shown, shown, lastWritten_append]
      split
      · cases e.value p c <;> rfl
      · rfl
    refine ⟨display, ?_, ?_, ?_⟩
    · intro id
      rw [step_ereg64, ih.ereg64]
    · intro id untouched
      rw [(step_other t e (untouched e (by simp))).1]
      exact ih.untouched id fun x mem => untouched x (List.mem_append_left _ mem)
    · intro id touched c
      by_cases same : e.id = id
      · subst same
        obtain ⟨total, month, last⟩ := step_own t e c
        rw [total, month, last, display, display, display]
        exact ⟨rfl, rfl, rfl⟩
      · obtain ⟨total, month, last⟩ := step_other t e same
        obtain ⟨x, mem, named⟩ := touched
        have before : ∃ x ∈ es, x.id = id := by
          rcases List.mem_append.mp mem with old | new
          · exact ⟨x, old, named⟩
          · rw [List.mem_singleton.mp new] at named
            exact absurd named same
        have kept : ∀ p, shown s (es ++ [e]) id p c = shown s es id p c := by
          intro p
          rw [shown, lastWritten_append, if_neg same, shown]
        rw [total, month, last, kept, kept, kept]
        exact ih.touched id before c

private theorem touched_of_written {id : Channel} {p : Period} {c : Cell} {v : UInt32}
    {es : List Edit} (written : lastWritten id p c es = some v) : ∃ e ∈ es, e.id = id := by
  induction es using List.reverseRecOn with
  | nil => cases written
  | append_singleton es e ih =>
    rw [lastWritten_append] at written
    split at written
    · rename_i same
      exact ⟨e, by simp, same⟩
    · obtain ⟨x, mem, named⟩ := ih written
      exact ⟨x, List.mem_append_left _ mem, named⟩

private theorem month_shown (v : UInt32) : v * 100 / 100 = v ↔ v ≤ maxMonth := by
  have top : maxMonth.toNat = 42949672 := rfl
  have hundred : (100 : UInt32).toNat = 100 := rfl
  have small := v.toNat_lt
  rw [← UInt32.toNat_inj, UInt32.le_iff_toNat_le, UInt32.toNat_div, UInt32.toNat_mul, hundred, top]
  omega

private theorem total_shown (v : UInt32) : (v.toUInt64 * 100 / 100).toUInt32 = v := by
  have hundred : (100 : UInt64).toNat = 100 := rfl
  have small := v.toNat_lt
  have exact : v.toNat * 100 % 2 ^ 64 = v.toNat * 100 := Nat.mod_eq_of_lt (by omega)
  rw [← UInt32.toNat_inj, UInt64.toNat_toUInt32, UInt64.toNat_div, UInt64.toNat_mul, hundred,
    UInt32.toNat_toUInt64, exact]
  omega

private theorem refreshed [Single F] (s : Sys F) (es : List Edit) (id : Channel) :
    ((channels.foldl copyEreg32 (run step s es)).meter id).ereg32 =
      displayed (run step s es).egyNvr id := by
  rw [refresh_all]

/-- Edits are shown as written and leave the live counters in step exactly if they do no harm. -/
theorem edits_kept_iff [Single F] (s : Sys F) (es : List Edit) : Kept s es ↔ Harmless s es := by
  have edited := edited_run s es
  have live : InStep (channels.foldl copyEreg32 (run step s es)) ↔
      ∀ id, (s.meter id).ereg64 = (run step s es).egyNvr.ereg64 id := by
    rw [refresh_all]
    exact forall_congr' fun id => by rw [edited.ereg64]
  unfold Kept
  dsimp only
  rw [live]
  constructor
  · rintro ⟨as_written, in_step⟩
    refine ⟨?_, ?_, ?_⟩
    · intro id c v written
      have same := as_written id .thisMonth c v written
      obtain ⟨-, month, -⟩ := edited.touched id (touched_of_written written) c
      rw [refreshed] at same
      dsimp only [displayed] at same
      rw [month, shown, written] at same
      exact (month_shown v).mp same
    · intro id untouched
      rw [in_step id, edited.untouched id untouched]
    · intro id touched c
      rw [in_step id, (edited.touched id touched c).1]
  · intro harmless
    constructor
    · intro id p c v written
      obtain ⟨total, month, last⟩ := edited.touched id (touched_of_written written) c
      have value : shown s es id p c = v := by rw [shown, written]; rfl
      rw [refreshed]
      cases p with
      | total =>
        dsimp only [displayed]
        rw [total, value, total_shown]
      | thisMonth =>
        dsimp only [displayed]
        rw [month, value]
        exact (month_shown v).mpr (harmless.month id c v written)
      | lastMonth =>
        dsimp only [displayed]
        rw [last, value]
    · intro id
      by_cases touched : ∃ e ∈ es, e.id = id
      · funext c
        rw [(edited.touched id touched c).1, harmless.touched id touched c]
      · have untouched : ∀ e ∈ es, e.id ≠ id := fun e mem same => touched ⟨e, mem, same⟩
        rw [edited.untouched id untouched, harmless.untouched id untouched]

def editOne (p : Period) (v : UInt32) : Edit where
  id := 0
  value := fun q c => if q = p ∧ c = importTotal then some v else none

/-- After power-on on an empty FRAM, a month value past its counter is shown as another one, and a
new total leaves the live counters behind. -/
theorem edits_lost :
    let s : Sys Rat := powerOn 0 ⟨fun _ => 0, []⟩
    InStep s ∧ ¬Kept s [editOne .thisMonth 42949673] ∧ ¬Kept s [editOne .total 5] := by
  intro s
  refine ⟨fun _ => rfl, ?_, ?_⟩
  · intro kept
    have same := kept.1 0 .thisMonth importTotal 42949673 rfl
    have other : ((channels.foldl copyEreg32
        (run step s [editOne .thisMonth 42949673])).meter 0).ereg32 .thisMonth importTotal = 0 := by
      decide +kernel
    rw [other] at same
    exact absurd same (by decide)
  · intro kept
    have same := congrFun (kept.2 0) importTotal
    have record : (channels.foldl copyEreg32
        (run step s [editOne .total 5])).egyNvr.ereg64 0 importTotal = 500 := by
      decide +kernel
    rw [record] at same
    exact absurd same (by decide +kernel)

end SV300.Energy.Edits
