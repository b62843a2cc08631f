/- SV300/Library/NextFit
   digest: Next-fit of a sequence of items into one row, with and without refusing what overflows. -/

import Mathlib.Data.Nat.Basic
import Mathlib.Order.Basic

set_option autoImplicit false
set_option relaxedAutoImplicit false

namespace SV300.Library.NextFit

section
variable {ι : Type*} (first : Nat → ι → Nat) (size : ι → Nat)

/-- The end of the block an item takes when the row is filled up to `c`. -/
def finish (c : Nat) (i : ι) : Nat := first c i + size i

/-- How far the first items reach when none of them is refused. -/
def reach (item : Nat → ι) : Nat → Nat
  | 0 => 0
  | n + 1 => finish first size (reach item n) (item n)

/-- How far the row is filled when an item that is absent or does not fit takes nothing. -/
def filled (cap : Nat) (item : Nat → Option ι) : Nat → Nat
  | 0 => 0
  | n + 1 => match item n with
    | none => filled cap item n
    | some i =>
      if finish first size (filled cap item n) i ≤ cap then finish first size (filled cap item n) i
      else filled cap item n

/-- The item at `n` is there and its block ends within the row. -/
def Fits (cap : Nat) (item : Nat → Option ι) (n : Nat) : Prop :=
  ∃ i, item n = some i ∧ finish first size (filled first size cap item n) i ≤ cap

end

variable {ι : Type*} {first : Nat → ι → Nat} {size : ι → Nat} {cap : Nat}

private theorem filled_of_none {item : Nat → Option ι} {n : Nat} (absent : item n = none) :
    filled first size cap item (n + 1) = filled first size cap item n := by
  simp only [filled, absent]

private theorem filled_of_some {item : Nat → Option ι} {n : Nat} {i : ι} (here : item n = some i) :
    filled first size cap item (n + 1) =
      if finish first size (filled first size cap item n) i ≤ cap then
        finish first size (filled first size cap item n) i
      else filled first size cap item n := by
  simp only [filled, here]

theorem fits_iff {item : Nat → Option ι} {n : Nat} {i : ι} (here : item n = some i) :
    Fits first size cap item n ↔ finish first size (filled first size cap item n) i ≤ cap := by
  constructor
  · rintro ⟨j, there, fits⟩
    rwa [Option.some.inj (here.symm.trans there)]
  · exact fun fits => ⟨i, here, fits⟩

theorem not_fits_of_none {item : Nat → Option ι} {n : Nat} (absent : item n = none) :
    ¬ Fits first size cap item n := by
  rintro ⟨i, here, -⟩
  rw [absent] at here
  cases here

instance (cap : Nat) (item : Nat → Option ι) (n : Nat) : Decidable (Fits first size cap item n) :=
  match here : item n with
  | none => .isFalse (not_fits_of_none here)
  | some _ => decidable_of_iff _ (fits_iff here).symm

variable (onward : ∀ c i, c ≤ first c i)
include onward

private theorem reach_le_first (item : Nat → ι) (n : Nat) :
    reach first size item n ≤ first (reach first size item n) (item n) :=
  onward _ _

private theorem reach_le_succ (item : Nat → ι) (n : Nat) :
    reach first size item n ≤ reach first size item (n + 1) :=
  (reach_le_first onward item n).trans (Nat.le_add_right _ _)

theorem reach_mono (item : Nat → ι) {m n : Nat} (le : m ≤ n) :
    reach first size item m ≤ reach first size item n := by
  induction le with
  | refl => exact le_rfl
  | step _ ih => exact ih.trans (reach_le_succ onward item _)

theorem blocks_apart (item : Nat → ι) {m n k : Nat} (lt : m < n)
    (inside : k < reach first size item (m + 1)) :
    k < first (reach first size item n) (item n) :=
  calc k < reach first size item (m + 1) := inside
    _ ≤ reach first size item n := reach_mono onward item lt
    _ ≤ _ := reach_le_first onward item n

theorem filled_eq_reach {item : Nat → Option ι} {req : Nat → ι} {n : Nat}
    (all : ∀ k, k < n → item k = some (req k)) (within : reach first size req n ≤ cap) :
    filled first size cap item n = reach first size req n := by
  induction n with
  | zero => rfl
  | succ n ih =>
    have before : reach first size req n ≤ cap := (reach_le_succ onward req n).trans within
    rw [filled_of_some (all n n.lt_succ_self), ih (fun k lt => all k (Nat.lt_succ_of_lt lt)) before]
    exact if_pos within

omit onward in
theorem filled_of_stuck {item : Nat → Option ι} {m n : Nat} (le : m ≤ n)
    (stuck : ∀ k, m ≤ k → k < n → ∀ i, item k = some i →
      cap < finish first size (filled first size cap item m) i) :
    filled first size cap item n = filled first size cap item m := by
  induction le with
  | refl => rfl
  | @step n le ih =>
    have before := ih fun k low high => stuck k low (Nat.lt_succ_of_lt high)
    cases here : item n with
    | none => rw [filled_of_none here, before]
    | some i =>
      have above := stuck n le n.lt_succ_self i here
      rw [filled_of_some here, before, if_neg (Nat.not_le.mpr above)]

end SV300.Library.NextFit
