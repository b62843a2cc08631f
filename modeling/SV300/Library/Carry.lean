/- SV300/Library/Carry
   digest: Amounts carried into whole units and a remainder, and units counted up to a wrap. -/

import Mathlib.Algebra.Order.Floor.Ring
import Mathlib.Algebra.Order.Ring.Rat
import Mathlib.Tactic.Ring

set_option autoImplicit false
set_option relaxedAutoImplicit false

namespace SV300.Library.Carry

section Carried

variable {α : Type*} [CommRing α]

/-- An amount put on a remainder gave these whole units and left another remainder. -/
def Carried (rest amount : α) (units : Nat) (rest' : α) : Prop := (units : α) + rest' = rest + amount

theorem carried_nothing (rest : α) : Carried rest 0 0 rest := by
  rw [Carried, Nat.cast_zero, zero_add, add_zero]

theorem Carried.trans {a b c x y : α} {m n : Nat} (first : Carried a x m b)
    (second : Carried b y n c) : Carried a (x + y) (m + n) c := by
  unfold Carried at first second ⊢
  rw [Nat.cast_add, add_assoc, second, ← add_assoc, first, add_assoc]

end Carried

theorem carried_floor {α : Type*} [CommRing α] [LinearOrder α] [IsStrictOrderedRing α]
    [FloorRing α] {rest amount : α} (pos : 0 ≤ rest + amount) :
    Carried rest amount ⌊rest + amount⌋.toNat (rest + amount - (⌊rest + amount⌋.toNat : α)) ∧
      0 ≤ rest + amount - (⌊rest + amount⌋.toNat : α) ∧
      rest + amount - (⌊rest + amount⌋.toNat : α) < 1 := by
  have floor : ((⌊rest + amount⌋.toNat : Int) : α) = (⌊rest + amount⌋ : α) := by
    rw [Int.toNat_of_nonneg (Int.floor_nonneg.mpr pos)]
  rw [Int.cast_natCast] at floor
  refine ⟨?_, ?_, ?_⟩
  · unfold Carried
    ring
  · rw [floor]
    exact Int.fract_nonneg _
  · rw [floor]
    exact Int.fract_lt_one _

/-- A counter that wraps at `cap` has counted these units. -/
def Counted (cap start units count : Nat) : Prop := ∃ wraps, count + wraps * cap = start + units

theorem counted_nothing (cap start : Nat) : Counted cap start 0 start := ⟨0, by omega⟩

theorem Counted.trans {cap a b c m n : Nat} (first : Counted cap a m b)
    (second : Counted cap b n c) : Counted cap a (m + n) c := by
  obtain ⟨v, first⟩ := first
  obtain ⟨w, second⟩ := second
  refine ⟨v + w, ?_⟩
  rw [Nat.add_mul]
  omega

end SV300.Library.Carry
