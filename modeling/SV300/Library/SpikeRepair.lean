/- SV300/Library/SpikeRepair
   digest: The median test on 32-bit words and the value that a cubic's neighbours give. -/

import Mathlib.Algebra.Order.Group.Unbundled.Abs
import Mathlib.Algebra.Order.Ring.Int
import Mathlib.Algebra.Polynomial.Eval.Degree
import Mathlib.Tactic.Ring
import SV300.Library.Literals

set_option autoImplicit false
set_option relaxedAutoImplicit false

namespace SV300.Library.SpikeRepair

/-- The fourth difference of a cubic is zero, so four neighbours tell the value between them. -/
theorem six_center {R : Type*} [CommRing R] {p : Polynomial R} (cubic : p.natDegree ≤ 3) (x : R) :
    6 * p.eval x =
      4 * (p.eval (x - 1) + p.eval (x + 1)) - (p.eval (x - 2) + p.eval (x + 2)) := by
  have value (y : R) : p.eval y = p.coeff 0 + p.coeff 1 * y + p.coeff 2 * y ^ 2 +
      p.coeff 3 * y ^ 3 := by
    rw [Polynomial.eval_eq_sum_range' (Nat.lt_succ_of_le cubic)]
    simp only [Finset.sum_range_succ, Finset.sum_range_zero]
    ring
  simp only [value]
  ring

def median (a b d : ℤ) : ℤ := max (min a d) (min (max a d) b)

/-- How far the middle one of three samples is from their median. -/
def rise (a b d : ℤ) : ℤ := |b - median a b d|

theorem rise_le_left (a b d : ℤ) : rise a b d ≤ |b - a| := by
  unfold rise median
  grind

theorem rise_le_right (a b d : ℤ) : rise a b d ≤ |b - d| := by
  unfold rise median
  grind

/-- Where the neighbours are close a sample rises above `t` if it is off both by more. -/
theorem lt_rise_iff {a b d t : ℤ} (near : |a - d| ≤ 2 * t) :
    t < rise a b d ↔ t < |b - a| ∧ t < |b - d| := by
  unfold rise median
  grind

theorem wrap_spec (x : ℤ) : ∃ w, x.bmod (2 ^ 32) = x - 2 ^ 32 * w ∧
    -2 ^ 31 ≤ x.bmod (2 ^ 32) ∧ x.bmod (2 ^ 32) < 2 ^ 31 := by
  refine ⟨x.bdiv (2 ^ 32), Int.bmod_eq_self_sub_mul_bdiv x (2 ^ 32), ?_, ?_⟩
  · exact Int.le_bmod (by decide)
  · exact Int.bmod_lt (by decide)

/-- A number that fits a word. -/
def Fits (x : ℤ) : Prop := -2 ^ 31 ≤ x ∧ x < 2 ^ 31

/-- A distance of words that is seen to be above `t`: it is, and its own word does not hide it. -/
def Seen (t x : ℤ) : Prop := t < x ∧ x ≠ 2 ^ 31 ∧ x + t < 2 ^ 32

theorem lt_abs_wrap_iff {x t : ℤ} (pos : 0 ≤ t) (small : t < 2 ^ 31) (bound : |x| < 2 ^ 32) :
    (t < if x.bmod (2 ^ 32) < 0 then (-x.bmod (2 ^ 32)).bmod (2 ^ 32) else x.bmod (2 ^ 32)) ↔
      Seen t |x| := by
  obtain ⟨v, word, low, high⟩ := wrap_spec x
  obtain ⟨w, minus, low', high'⟩ := wrap_spec (-x.bmod (2 ^ 32))
  unfold Seen
  rcases abs_cases x with ⟨sign, _⟩ | ⟨sign, _⟩ <;> rw [sign] at bound ⊢ <;> split_ifs <;> omega

/-- The sums of two words are the neighbours' value's only if they fit; where one does not, what is
off by whole turns of 2 ^ 32 is no whole number of them after the division. -/
theorem center_eq_iff {v s₁ s₂ : ℤ} (center : 6 * v = 4 * s₁ - s₂) (fits : Fits v)
    (bound₁ : -2 ^ 32 ≤ s₁ ∧ s₁ < 2 ^ 32) (bound₂ : -2 ^ 32 ≤ s₂ ∧ s₂ < 2 ^ 32) :
    ((4 * s₁.bmod (2 ^ 32) - s₂.bmod (2 ^ 32)).tdiv 6).bmod (2 ^ 32) = v ↔
      Fits s₁ ∧ Fits s₂ := by
  obtain ⟨turns₁, word₁, low₁, high₁⟩ := wrap_spec s₁
  obtain ⟨turns₂, word₂, low₂, high₂⟩ := wrap_spec s₂
  have few₁ : turns₁ = -1 ∨ turns₁ = 0 ∨ turns₁ = 1 := by omega
  have few₂ : turns₂ = -1 ∨ turns₂ = 0 ∨ turns₂ = 1 := by omega
  rw [word₁, word₂] at *
  generalize top : 4 * (s₁ - 2 ^ 32 * turns₁) - (s₂ - 2 ^ 32 * turns₂) = n
  obtain ⟨turns, word, low, high⟩ := wrap_spec (n.tdiv 6)
  have parts := Int.mul_tdiv_add_tmod n 6
  have less := Int.tmod_lt_of_pos n (by decide : (0 : ℤ) < 6)
  have more := Int.lt_tmod_of_pos n (by decide : (0 : ℤ) < 6)
  unfold Fits at fits ⊢
  constructor
  · intro same
    -- six quotients and the turns of the sums differ by less than six
    have off : 2 ^ 32 * (6 * turns + 4 * turns₁ - turns₂) = -n.tmod 6 := by omega
    have none : 6 * turns + 4 * turns₁ - turns₂ = 0 := by omega
    omega
  · rintro ⟨fits₁, fits₂⟩
    have none₁ : turns₁ = 0 := by omega
    have none₂ : turns₂ = 0 := by omega
    have quotient : n.tdiv 6 = v := by omega
    omega

end SV300.Library.SpikeRepair
