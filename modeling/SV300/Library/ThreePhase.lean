/- SV300/Library/ThreePhase
   digest: Symmetrical components of three phasors, and how far a set is from a balanced one. -/

import Mathlib.Analysis.SpecialFunctions.Complex.Arg
import Mathlib.Analysis.SpecialFunctions.Trigonometric.Arctan
import Mathlib.Analysis.SpecialFunctions.Trigonometric.Bounds
import Mathlib.RingTheory.RootsOfUnity.Complex
import SV300.Library.Literals

set_option autoImplicit false
set_option relaxedAutoImplicit false

namespace SV300.Library.ThreePhase

open Complex (exp I)

/-- Behind the literal, as in `Library.Literals`. -/
scoped instance threeAtLeastTwo : Nat.AtLeastTwo 3 := ⟨Nat.le_succ 2⟩

section Components

variable {K : Type*} [Field K]

/-- A third of the sum of three phases, the second and the third of them turned. -/
def mean (r s a b c : K) : K := (a + r * b + s * c) / 3

/-- The zero, positive and negative sequence components. -/
def zeroSeq (a b c : K) : K := mean 1 1 a b c
def positiveSeq (w a b c : K) : K := mean w (w ^ 2) a b c
def negativeSeq (w a b c : K) : K := mean (w ^ 2) w a b c

variable {w : K}

private theorem sum_turns (root : IsPrimitiveRoot w 3) : 1 + w + w ^ 2 = 0 := by
  have sum := root.geom_sum_eq_zero (by decide)
  rw [Finset.sum_range_succ, Finset.sum_range_succ, Finset.sum_range_one, pow_zero, pow_one] at sum
  exact sum

/-- What a phase lacks to the balanced set of the first one comes from the zero and the negative
sequence. -/
private theorem second_phase (three : (3 : K) ≠ 0) (root : IsPrimitiveRoot w 3) (a b c : K) :
    b - w ^ 2 * a = zeroSeq a b c * (1 - w ^ 2) + negativeSeq w a b c * (w - w ^ 2) := by
  have turns := sum_turns root
  rw [zeroSeq, negativeSeq, mean, mean]
  field_simp
  linear_combination (-a + b * (w ^ 2 - 2 * w + 2) + c * (w - 1)) * turns

private theorem third_phase (three : (3 : K) ≠ 0) (root : IsPrimitiveRoot w 3) (a b c : K) :
    c - w * a = zeroSeq a b c * (1 - w) + negativeSeq w a b c * (w ^ 2 - w) := by
  have turns := sum_turns root
  rw [zeroSeq, negativeSeq, mean, mean]
  field_simp
  linear_combination (-a - b * (w - 1) ^ 2 + c * (2 - w)) * turns

/-- A balanced set has a positive sequence component alone, one in reverse order a negative. -/
theorem mean_balanced (root : IsPrimitiveRoot w 3) (a : K) :
    zeroSeq a (w ^ 2 * a) (w * a) = 0 ∧ negativeSeq w a (w ^ 2 * a) (w * a) = 0 := by
  have turns := sum_turns root
  have cube : w ^ 3 = 1 := root.pow_eq_one
  rw [zeroSeq, negativeSeq, mean, mean]
  constructor
  · linear_combination (a / 3) * turns
  · linear_combination (a / 3) * turns + (a * w / 3) * cube

end Components

noncomputable def phasor (m t : ℝ) : ℂ := m * exp (t * I)

theorem norm_turn (t : ℝ) : ‖exp (t * I)‖ = 1 := Complex.norm_exp_ofReal_mul_I t

theorem norm_phasor (m t : ℝ) : ‖phasor m t‖ = |m| := by
  rw [phasor, norm_mul, norm_turn, mul_one, Complex.norm_real, Real.norm_eq_abs]

theorem turn_phasor (s m t : ℝ) : exp (s * I) * phasor m t = phasor m (s + t) := by
  rw [phasor, phasor, Complex.ofReal_add, add_mul, Complex.exp_add]
  ring

theorem phasor_re (m t : ℝ) : (phasor m t).re = m * Real.cos t := by
  rw [phasor, Complex.re_ofReal_mul, Complex.exp_ofReal_mul_I_re]

theorem phasor_im (m t : ℝ) : (phasor m t).im = m * Real.sin t := by
  rw [phasor, Complex.im_ofReal_mul, Complex.exp_ofReal_mul_I_im]

theorem norm_turn_sub (s t : ℝ) : ‖exp (s * I) - exp (t * I)‖ ≤ |s - t| := by
  have split : exp (s * I) - exp (t * I) = exp (t * I) * (exp (I * ((s - t : ℝ) : ℂ)) - 1) := by
    rw [mul_sub, mul_one, ← Complex.exp_add]
    congr 2
    push_cast
    ring
  rw [split, norm_mul, norm_turn, one_mul]
  exact Real.norm_exp_I_mul_ofReal_sub_one_le

theorem norm_mean_sub (r s r' s' a b c : ℂ) :
    ‖mean r s a b c - mean r' s' a b c‖ ≤ (‖r - r'‖ * ‖b‖ + ‖s - s'‖ * ‖c‖) / 3 := by
  have split : mean r s a b c - mean r' s' a b c = ((r - r') * b + (s - s') * c) / 3 := by
    rw [mean, mean]
    ring
  rw [split, norm_div, ← norm_mul, ← norm_mul]
  have three : ‖(3 : ℂ)‖ = 3 := by norm_num
  rw [three]
  exact div_le_div_of_nonneg_right (norm_add_le _ _) (by norm_num)

/-- A set with small zero and negative sequence components is close to the balanced one. -/
theorem norm_second (w : ℂ) (root : IsPrimitiveRoot w 3) (a b c : ℂ) :
    ‖b - w ^ 2 * a‖ ≤ 2 * (‖zeroSeq a b c‖ + ‖negativeSeq w a b c‖) := by
  have unit : ‖w‖ = 1 := root.norm'_eq_one (by decide)
  rw [second_phase (by norm_num) root]
  refine (norm_add_le _ _).trans ?_
  rw [norm_mul, norm_mul]
  have first : ‖1 - w ^ 2‖ ≤ 2 := by
    refine (norm_sub_le _ _).trans ?_
    rw [norm_pow, unit]
    norm_num
  have other : ‖w - w ^ 2‖ ≤ 2 := by
    refine (norm_sub_le _ _).trans ?_
    rw [norm_pow, unit]
    norm_num
  nlinarith [norm_nonneg (zeroSeq a b c), norm_nonneg (negativeSeq w a b c)]

theorem norm_third (w : ℂ) (root : IsPrimitiveRoot w 3) (a b c : ℂ) :
    ‖c - w * a‖ ≤ 2 * (‖zeroSeq a b c‖ + ‖negativeSeq w a b c‖) := by
  have unit : ‖w‖ = 1 := root.norm'_eq_one (by decide)
  rw [third_phase (by norm_num) root]
  refine (norm_add_le _ _).trans ?_
  rw [norm_mul, norm_mul]
  have first : ‖1 - w‖ ≤ 2 := by
    refine (norm_sub_le _ _).trans ?_
    rw [unit]
    norm_num
  have other : ‖w ^ 2 - w‖ ≤ 2 := by
    refine (norm_sub_le _ _).trans ?_
    rw [norm_pow, unit]
    norm_num
  nlinarith [norm_nonneg (zeroSeq a b c), norm_nonneg (negativeSeq w a b c)]

theorem arctan_of_right {z : ℂ} (right : 0 < z.re) : Real.arctan (z.im / z.re) = Complex.arg z := by
  have within := abs_lt.mp (Complex.abs_arg_lt_pi_div_two_iff.mpr (.inl right))
  rw [← Complex.tan_arg, Real.arctan_tan within.1 within.2]

theorem arctan_of_left {z : ℂ} (left : z.re < 0) :
    Real.arctan (z.im / z.re) = Complex.arg (-z) := by
  have right : 0 < (-z).re := by simpa using left
  rw [← arctan_of_right right, Complex.neg_re, Complex.neg_im, neg_div_neg_eq]

end SV300.Library.ThreePhase
