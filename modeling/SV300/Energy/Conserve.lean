/- SV300/Energy/Conserve
   digest: updateEhGrp loses no energy: counters, month counters and residues against the amounts. -/

import SV300.Library.Carry
import SV300.Library.Runs
import SV300.Energy.Persist

set_option autoImplicit false
set_option relaxedAutoImplicit false

namespace SV300.Energy.Conserve

open SV300.Library.Carry
open SV300.Library.Runs
open SV300.Energy.Record
open SV300.Energy.Fram (maxEreg64)
open SV300.Energy.Registers
open SV300.Energy.Persist (addEreg64_le)

/-- One `updateEhGrp` call, with an exact amount. -/
structure Call where
  id : Channel
  mode : Mode
  group : Group
  diff : Rat

def Call.sign (k : Call) : Sign := if 0 < k.diff then .imported else .exported

def Call.cell (k : Call) : Cell := ⟨k.group, k.mode, k.sign⟩

def step (s : Sys Rat) (k : Call) : Sys Rat := (updateEhGrp s k.id k.mode k.group k.diff).2

def amount (id : Channel) (c : Cell) (k : Call) : Rat :=
  if k.id = id ∧ k.cell = c then |k.diff| else 0

def total (id : Channel) (c : Cell) (ks : List Call) : Rat := (ks.map (amount id c)).sum

/-- Counters within their range and residues below one unit. -/
structure Within (s : Sys Rat) : Prop where
  range : ∀ id c, s.egyNvr.ereg64 id c ≤ maxEreg64
  nonneg : ∀ id c, 0 ≤ (s.meter id).ereg c
  below : ∀ id c, (s.meter id).ereg c < 1

/-- A call's sum converts to an `int`, and its whole units fit the month counter. -/
def Fits (s : Sys Rat) (k : Call) : Prop :=
  k.diff ≠ 0 →
    (s.meter k.id).ereg k.cell + |k.diff| < 2 ^ 31 ∧
    (s.egyNvr.monthWh k.id k.cell).toNat + ⌊(s.meter k.id).ereg k.cell + |k.diff|⌋.toNat < 2 ^ 32

/-- The counter, the month counter and the residue of a cell account for an amount: they have
taken in the same whole units, the counter modulo its wrap. -/
def Accounts (s t : Sys Rat) (id : Channel) (c : Cell) (amount : Rat) : Prop :=
  ∃ units, Counted maxEreg64.toNat (s.egyNvr.ereg64 id c).toNat units
      (t.egyNvr.ereg64 id c).toNat ∧
    (t.egyNvr.monthWh id c).toNat = (s.egyNvr.monthWh id c).toNat + units ∧
    Carried ((s.meter id).ereg c) amount units ((t.meter id).ereg c)

private theorem Accounts.refl (s : Sys Rat) (id : Channel) (c : Cell) : Accounts s s id c 0 :=
  ⟨0, counted_nothing _ _, rfl, carried_nothing _⟩

theorem Accounts.trans {s t u : Sys Rat} {id : Channel} {c : Cell} {x y : Rat}
    (first : Accounts s t id c x) (second : Accounts t u id c y) : Accounts s u id c (x + y) := by
  obtain ⟨m, cell, month, rest⟩ := first
  obtain ⟨n, cell', month', rest'⟩ := second
  exact ⟨m + n, cell.trans cell', by rw [month', month, Nat.add_assoc], rest.trans rest'⟩

private theorem step_eq (s : Sys Rat) (k : Call) :
    step s k = if k.diff = 0 then s else (accumulate s k.id k.cell |k.diff|).2 := by
  rw [step, updateEhGrp, Call.cell, Call.sign]
  rcases lt_trichotomy k.diff 0 with neg | zero | pos
  · rw [if_neg (not_lt.mpr neg.le), if_pos neg, if_neg neg.ne, if_neg (not_lt.mpr neg.le),
      abs_of_neg neg]
  · rw [if_neg (not_lt.mpr zero.le), if_neg (not_lt.mpr zero.ge), if_pos zero]
  · rw [if_pos pos, if_neg pos.ne', if_pos pos, abs_of_pos pos]

theorem counted_addEreg64 {cell : UInt64} {dt : Nat} (range : cell ≤ maxEreg64)
    (small : dt < 2 ^ 31) : Counted maxEreg64.toNat cell.toNat dt (addEreg64 cell dt).toNat := by
  have top : maxEreg64.toNat = 99999999999 := rfl
  rw [UInt64.le_iff_toNat_le] at range
  have sum := toNat_add_units (show cell.toNat + dt < 2 ^ 64 by omega)
  rw [addEreg64]
  split
  · rename_i past
    refine ⟨1, ?_⟩
    rw [UInt64.toNat_sub_of_le _ _ past, sum]
    rw [UInt64.le_iff_toNat_le, sum] at past
    omega
  · exact ⟨0, by rw [sum]; omega⟩

section Accumulate

variable {s : Sys Rat} {id : Channel} {c : Cell} {diff : Rat}

private theorem accumulate_other (s : Sys Rat) (diff : Rat) {j : Channel} {d : Cell}
    (other : ¬(j = id ∧ d = c)) :
    (accumulate s id c diff).2.egyNvr.ereg64 j d = s.egyNvr.ereg64 j d ∧
      (accumulate s id c diff).2.egyNvr.monthWh j d = s.egyNvr.monthWh j d ∧
      ((accumulate s id c diff).2.meter j).ereg d = (s.meter j).ereg d := by
  dsimp only [accumulate]
  split
  · refine ⟨rfl, rfl, ?_⟩
    rw [setMeter_meter]
    by_cases channel : j = id
    · have cell : d ≠ c := fun same => other ⟨channel, same⟩
      simp [channel, cell]
    · simp [channel]
  · dsimp only [setCounters, Sys.setMeter, setCell]
    by_cases channel : j = id
    · have cell : d ≠ c := fun same => other ⟨channel, same⟩
      simp [channel, cell]
    · simp [channel]

private theorem accumulate_own (inside : Within s) (pos : 0 ≤ diff)
    (int : (s.meter id).ereg c + diff < 2 ^ 31)
    (month : (s.egyNvr.monthWh id c).toNat + ⌊(s.meter id).ereg c + diff⌋.toNat < 2 ^ 32) :
    let t := (accumulate s id c diff).2
    Accounts s t id c diff ∧ t.egyNvr.ereg64 id c ≤ maxEreg64 ∧
      0 ≤ (t.meter id).ereg c ∧ (t.meter id).ereg c < 1 := by
  have sum : 0 ≤ (s.meter id).ereg c + diff := add_nonneg (inside.nonneg id c) pos
  obtain ⟨carried, nonneg, below⟩ := carried_floor sum
  have whole : ⌊(s.meter id).ereg c + diff⌋.toNat < 2 ^ 31 := by
    have floor : ⌊(s.meter id).ereg c + diff⌋ < 2 ^ 31 := Int.floor_lt.mpr (by exact_mod_cast int)
    omega
  have dt : Single.trunc ((s.meter id).ereg c + diff) = ⌊(s.meter id).ereg c + diff⌋.toNat := by
    change min ⌊(s.meter id).ereg c + diff⌋.toNat (2 ^ 31 - 1) = _
    omega
  dsimp only [accumulate]
  rw [dt]
  split
  · rename_i none
    rw [none, Nat.cast_zero, sub_zero] at carried nonneg below
    have rest : ((s.setMeter id fun m => { m with
        ereg := Function.update m.ereg c ((s.meter id).ereg c + diff) }).meter id).ereg c =
        (s.meter id).ereg c + diff := by
      rw [setMeter_meter, if_pos rfl]
      exact Function.update_self ..
    refine ⟨⟨0, counted_nothing _ _, rfl, ?_⟩, inside.range id c, ?_, ?_⟩
    · rw [rest]
      exact carried
    · rw [rest]
      exact nonneg
    · rw [rest]
      exact below
  · have cell := counted_addEreg64 (inside.range id c) whole
    have counter := addEreg64_le (inside.range id c) whole
    simp only [setCounters, Sys.setMeter, setCell, Function.update_self, Int.cast_natCast]
    exact ⟨⟨_, by simpa using cell, by simpa using toNat_add_month month, by simpa using carried⟩,
      counter, nonneg, below⟩

end Accumulate

private theorem step_accounts {s : Sys Rat} {k : Call} (inside : Within s) (fits : Fits s k) :
    Within (step s k) ∧ ∀ id c, Accounts s (step s k) id c (amount id c k) := by
  rw [step_eq]
  by_cases zero : k.diff = 0
  · rw [if_pos zero]
    refine ⟨inside, ?_⟩
    intro id c
    have none : amount id c k = 0 := by
      rw [amount, zero, abs_zero, ite_self]
    rw [none]
    exact .refl s id c
  · rw [if_neg zero]
    obtain ⟨int, month⟩ := fits zero
    obtain ⟨own, range, nonneg, below⟩ := accumulate_own inside (abs_nonneg k.diff) int month
    have at_cell : ∀ (P : Channel → Cell → Prop), P k.id k.cell →
        (∀ id c, ¬(id = k.id ∧ c = k.cell) → P id c) → ∀ id c, P id c := by
      intro P here elsewhere id c
      by_cases same : id = k.id ∧ c = k.cell
      · rw [same.1, same.2]
        exact here
      · exact elsewhere id c same
    refine ⟨⟨?_, ?_, ?_⟩, ?_⟩
    · refine at_cell _ range fun id c other => ?_
      rw [(accumulate_other s _ other).1]
      exact inside.range id c
    · refine at_cell _ nonneg fun id c other => ?_
      rw [(accumulate_other s _ other).2.2]
      exact inside.nonneg id c
    · refine at_cell _ below fun id c other => ?_
      rw [(accumulate_other s _ other).2.2]
      exact inside.below id c
    · refine at_cell _ ?_ fun id c other => ?_
      · rw [amount, if_pos ⟨rfl, rfl⟩]
        exact own
      · have apart : ¬(k.id = id ∧ k.cell = c) := fun same => other ⟨same.1.symm, same.2.symm⟩
        obtain ⟨cell, month, rest⟩ := accumulate_other s |k.diff| other
        rw [amount, if_neg apart]
        refine ⟨0, ?_, ?_, ?_⟩
        · rw [cell]
          exact counted_nothing _ _
        · rw [month, Nat.add_zero]
        · rw [rest]
          exact carried_nothing _

/-- In every sequence of calls that fit, each cell accounts for everything brought to it: its
counter modulo the wrap, its month counter without one, and a residue below one unit. -/
theorem fitting_calls_conserve (s : Sys Rat) (ks : List Call) (inside : Within s)
    (fits : Along step Fits s ks) :
    Within (run step s ks) ∧ ∀ id c, Accounts s (run step s ks) id c (total id c ks) := by
  induction ks generalizing s with
  | nil => exact ⟨inside, .refl s⟩
  | cons k ks ih =>
    obtain ⟨kept, first⟩ := step_accounts inside fits.1
    obtain ⟨ends, rest⟩ := ih (step s k) kept fits.2
    refine ⟨ends, ?_⟩
    intro id c
    rw [total, List.map_cons, List.sum_cons]
    exact (first id c).trans (rest id c)

/-- One and a half units in, a quarter out, from zero. -/
def smallCalls : List Call := [⟨0, .kwh, .total, 3 / 2⟩, ⟨0, .kwh, .total, -1 / 4⟩]

theorem smallCalls_conserved :
    Accounts (powerOn 0 ⟨fun _ => 0, []⟩) (run step (powerOn 0 ⟨fun _ => 0, []⟩) smallCalls) 0
      importTotal (3 / 2) := by
  have inside : Within (powerOn 0 ⟨fun _ => 0, []⟩) :=
    ⟨fun _ _ => (by decide : (0 : UInt64) ≤ maxEreg64), fun _ _ => le_refl 0, fun _ _ => zero_lt_one⟩
  have fits : Along step Fits (powerOn 0 ⟨fun _ => 0, []⟩) smallCalls :=
    ⟨fun _ => by decide +kernel, fun _ => by decide +kernel, trivial⟩
  have brought : total 0 importTotal smallCalls = 3 / 2 := by decide +kernel
  rw [← brought]
  exact (fitting_calls_conserve _ smallCalls inside fits).2 0 importTotal

/-- A month counter at its top is taken back to zero by one more unit. -/
theorem full_month_lost :
    let s : Sys Rat := { powerOn 0 ⟨fun _ => 0, []⟩ with
      egyNvr := { zeroRecord with monthWh := fun _ _ => 0xffffffff } }
    let t := step s ⟨0, .kwh, .total, 1⟩
    Within s ∧ t.egyNvr.ereg64 0 importTotal = 1 ∧ t.egyNvr.monthWh 0 importTotal = 0 ∧
      ¬Accounts s t 0 importTotal 1 := by
  intro s t
  have month : t.egyNvr.monthWh 0 importTotal = 0 := by decide +kernel
  have inside : Within s :=
    ⟨fun _ _ => (by decide : (0 : UInt64) ≤ maxEreg64), fun _ _ => le_refl 0, fun _ _ => zero_lt_one⟩
  refine ⟨inside, by decide +kernel, month, ?_⟩
  rintro ⟨units, -, advanced, -⟩
  have full : (s.egyNvr.monthWh 0 importTotal).toNat = 4294967295 := rfl
  rw [month, full] at advanced
  have zero : UInt32.toNat 0 = 0 := rfl
  omega

end SV300.Energy.Conserve
