/- SV300/Library/BitField
   digest: Fields of a machine word: a field that is stored is read back and the others stay. -/

import Mathlib.Data.Nat.Basic

set_option autoImplicit false
set_option relaxedAutoImplicit false

namespace SV300.Library.BitField

variable {w n : Nat}

/-- The `n` bits from position `at_` on. -/
def field (at_ n : Nat) (v : BitVec w) : BitVec n := v.extractLsb' at_ n

def store (at_ : Nat) (c : BitVec n) (v : BitVec w) : BitVec w :=
  v &&& ~~~((BitVec.allOnes n).setWidth w <<< at_) ||| c.setWidth w <<< at_

private theorem getLsbD_store (at_ : Nat) (c : BitVec n) (v : BitVec w) {i : Nat} (lt : i < w) :
    (store at_ c v).getLsbD i =
      if at_ ≤ i ∧ i < at_ + n then c.getLsbD (i - at_) else v.getLsbD i := by
  by_cases low : i < at_
  · have outside : ¬ (at_ ≤ i ∧ i < at_ + n) := by omega
    simp [store, lt, low, outside]
  · by_cases high : i < at_ + n
    · have inside : at_ ≤ i ∧ i < at_ + n := ⟨by omega, high⟩
      have width : i - at_ < n := by omega
      simp [store, lt, low, inside, width]
    · have outside : ¬ (at_ ≤ i ∧ i < at_ + n) := by omega
      have beyond : n ≤ i - at_ := by omega
      simp [store, lt, low, outside, beyond]

theorem field_store_same {at_ : Nat} (c : BitVec n) (v : BitVec w) (le : at_ + n ≤ w) :
    field at_ n (store at_ c v) = c := by
  apply BitVec.eq_of_getLsbD_eq
  intro i lt
  have inside : at_ ≤ at_ + i ∧ at_ + i < at_ + n := by omega
  rw [field, BitVec.getLsbD_extractLsb', getLsbD_store at_ c v (by omega), if_pos inside,
    Nat.add_sub_cancel_left]
  simp [lt]

theorem field_store_other {at_ pos m : Nat} (c : BitVec n) (v : BitVec w) (le : pos + m ≤ w)
    (apart : at_ + n ≤ pos ∨ pos + m ≤ at_) : field pos m (store at_ c v) = field pos m v := by
  apply BitVec.eq_of_getLsbD_eq
  intro i lt
  have outside : ¬ (at_ ≤ pos + i ∧ pos + i < at_ + n) := by omega
  rw [field, field, BitVec.getLsbD_extractLsb', BitVec.getLsbD_extractLsb',
    getLsbD_store at_ c v (by omega), if_neg outside]

end SV300.Library.BitField
