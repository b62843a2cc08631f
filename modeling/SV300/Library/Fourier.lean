/- SV300/Library/Fourier
   digest: Fourier sums by a second-order recurrence, by circular convolution and by chirps. -/

import Mathlib.Algebra.BigOperators.Field
import Mathlib.Analysis.SpecialFunctions.Complex.Circle
import Mathlib.RingTheory.RootsOfUnity.Complex
import SV300.Library.Literals
import SV300.Library.RadixTwo

set_option autoImplicit false
set_option relaxedAutoImplicit false

namespace SV300.Library.Fourier

open SV300.Library.RadixTwo
open Complex (exp I)

noncomputable def fourierSum (t : ℝ) (n : ℕ) (x : ℕ → ℝ) : ℂ :=
  ∑ k ∈ Finset.range n, (x k : ℂ) * exp (-t * I) ^ k

/-- The two last values of the recurrence with coefficient `c`. -/
def recur (c : ℝ) (x : ℕ → ℝ) : ℕ → ℝ × ℝ
  | 0 => (0, 0)
  | n + 1 => (x n + c * (recur c x n).1 - (recur c x n).2, (recur c x n).1)

private theorem turn_mul (t : ℝ) : exp (-t * I) * exp (t * I) = 1 := by
  rw [← Complex.exp_add, show -(t : ℂ) * I + t * I = 0 by ring, Complex.exp_zero]

private theorem turn_add (t : ℝ) : exp (-t * I) + exp (t * I) = ((2 * Real.cos t : ℝ) : ℂ) := by
  push_cast
  rw [Complex.two_cos]
  ring

private theorem recur_turned (t : ℝ) (x : ℕ → ℝ) (n : ℕ) :
    exp (-t * I) ^ n * (exp (t * I) * (((recur (2 * Real.cos t) x n).1 : ℂ) -
      exp (-t * I) * ((recur (2 * Real.cos t) x n).2 : ℂ))) = fourierSum t n x := by
  induction n with
  | zero => simp [recur, fourierSum]
  | succ n ih =>
    rw [fourierSum, Finset.sum_range_succ, ← fourierSum, ← ih, recur]
    generalize recur (2 * Real.cos t) x n = s
    push_cast
    have unit := turn_mul t
    have twice := turn_add t
    push_cast at twice
    rw [← twice, pow_succ]
    linear_combination (exp (-t * I) ^ n * (x n + exp (t * I) * s.1)) * unit

theorem recur_normSq (t : ℝ) (x : ℕ → ℝ) (n : ℕ) :
    (recur (2 * Real.cos t) x n).1 * (recur (2 * Real.cos t) x n).1 +
        (recur (2 * Real.cos t) x n).2 * (recur (2 * Real.cos t) x n).2 -
        2 * Real.cos t * (recur (2 * Real.cos t) x n).1 * (recur (2 * Real.cos t) x n).2 =
      ‖fourierSum t n x‖ ^ 2 := by
  have unit : ∀ s : ℝ, ‖exp (s * I)‖ = 1 := Complex.norm_exp_ofReal_mul_I
  have back : ‖exp (-t * I)‖ = 1 := by exact_mod_cast unit (-t)
  rw [← recur_turned t x n, norm_mul, norm_pow, back, one_pow, one_mul, norm_mul, unit, one_mul,
    ← Complex.normSq_eq_norm_sq]
  generalize recur (2 * Real.cos t) x n = s
  have circle : Real.cos t ^ 2 + Real.sin t ^ 2 = 1 := Real.cos_sq_add_sin_sq t
  have parts : exp (-t * I) = (Real.cos t : ℂ) - Real.sin t * I := by
    rw [Complex.exp_mul_I, Complex.cos_neg, Complex.sin_neg, Complex.ofReal_cos,
      Complex.ofReal_sin]
    ring
  rw [parts, Complex.normSq_apply]
  simp only [Complex.sub_re, Complex.sub_im, Complex.mul_re, Complex.mul_im, Complex.ofReal_re,
    Complex.ofReal_im, Complex.I_re, Complex.I_im]
  linear_combination (-(s.2 ^ 2)) * circle

section Convolution

variable {K : Type*} [Field K] {w : K} {n : ℕ}

/-- Circular convolution of length `n`. -/
def convolution (n : ℕ) (x y : ℕ → K) (i : ℕ) : K :=
  ∑ a ∈ Finset.range n, x a * y ((i + n - a) % n)

private theorem sum_powers (root : IsPrimitiveRoot w n) {i : ℕ} (small : i < n) (m : ℕ) :
    ∑ k ∈ Finset.range n, (w ^ m * w⁻¹ ^ i) ^ k = if m % n = i then (n : K) else 0 := by
  have positive : 0 < n := by omega
  have nonzero : w ≠ 0 := root.ne_zero positive.ne'
  have power : w ^ m * w⁻¹ ^ i = w ^ ((m : ℤ) - i) := by
    rw [zpow_sub₀ nonzero, zpow_natCast, zpow_natCast, inv_pow, div_eq_mul_inv]
  have one_iff : w ^ m * w⁻¹ ^ i = 1 ↔ m % n = i := by
    rw [power, root.zpow_eq_one_iff_dvd, ← Nat.modEq_iff_dvd, Nat.ModEq, Nat.mod_eq_of_lt small]
    exact eq_comm
  split
  · rename_i same
    rw [one_iff.mpr same]
    simp
  · rename_i other
    have apart : w ^ m * w⁻¹ ^ i - 1 ≠ 0 := sub_ne_zero.mpr fun one => other (one_iff.mp one)
    have whole : (w ^ m * w⁻¹ ^ i) ^ n = 1 := by
      rw [mul_pow, ← pow_mul, ← pow_mul, Nat.mul_comm m n, Nat.mul_comm i n, pow_mul, pow_mul,
        root.pow_eq_one, inv_pow, root.pow_eq_one, inv_one, one_pow, one_pow, one_mul]
    have geometric := mul_geom_sum (w ^ m * w⁻¹ ^ i) n
    rw [whole, sub_self] at geometric
    exact (mul_eq_zero.mp geometric).resolve_left apart

theorem dft_convolution (root : IsPrimitiveRoot w n) (x y : ℕ → K) {i : ℕ} (small : i < n) :
    dft w⁻¹ n (fun k => dft w n x k * dft w n y k) i = n * convolution n x y i := by
  have terms : ∀ k, dft w n x k * dft w n y k * w⁻¹ ^ (k * i) =
      ∑ a ∈ Finset.range n, ∑ b ∈ Finset.range n, x a * y b * (w ^ (a + b) * w⁻¹ ^ i) ^ k := by
    intro k
    rw [dft, dft, Finset.sum_mul_sum, Finset.sum_mul]
    refine Finset.sum_congr rfl fun a _ => ?_
    rw [Finset.sum_mul]
    refine Finset.sum_congr rfl fun b _ => ?_
    rw [mul_pow, ← pow_mul, ← pow_mul, Nat.add_mul, pow_add, Nat.mul_comm i k]
    ring
  have single : ∀ a ∈ Finset.range n, ∑ b ∈ Finset.range n,
      x a * y b * (if (a + b) % n = i then (n : K) else 0) =
        n * (x a * y ((i + n - a) % n)) := by
    intro a member
    have inside := Finset.mem_range.mp member
    have place : (i + n - a) % n < n := Nat.mod_lt _ (by omega)
    have hits : (a + (i + n - a) % n) % n = i := by
      rw [Nat.add_mod_mod, show a + (i + n - a) = i + n by omega, Nat.add_mod_right,
        Nat.mod_eq_of_lt small]
    rw [Finset.sum_eq_single_of_mem _ (Finset.mem_range.mpr place), if_pos hits]
    · ring
    · intro b inB other
      have misses : (a + b) % n ≠ i := by
        intro same
        apply other
        have smallB := Finset.mem_range.mp inB
        rw [← same]
        rcases Nat.lt_or_ge (a + b) n with few | many
        · rw [Nat.mod_eq_of_lt few, show a + b + n - a = b + n by omega, Nat.add_mod_right,
            Nat.mod_eq_of_lt smallB]
        · rw [Nat.mod_eq_sub_mod many, Nat.mod_eq_of_lt (show a + b - n < n by omega),
            show a + b - n + n - a = b by omega, Nat.mod_eq_of_lt smallB]
      rw [if_neg misses, mul_zero]
  calc dft w⁻¹ n (fun k => dft w n x k * dft w n y k) i
      = ∑ k ∈ Finset.range n, ∑ a ∈ Finset.range n, ∑ b ∈ Finset.range n,
          x a * y b * (w ^ (a + b) * w⁻¹ ^ i) ^ k := Finset.sum_congr rfl fun k _ => terms k
    _ = ∑ a ∈ Finset.range n, ∑ b ∈ Finset.range n,
          x a * y b * ∑ k ∈ Finset.range n, (w ^ (a + b) * w⁻¹ ^ i) ^ k := by
        rw [Finset.sum_comm]
        refine Finset.sum_congr rfl fun a _ => ?_
        rw [Finset.sum_comm]
        exact Finset.sum_congr rfl fun b _ => (Finset.mul_sum ..).symm
    _ = ∑ a ∈ Finset.range n, n * (x a * y ((i + n - a) % n)) := by
        refine Finset.sum_congr rfl fun a member => ?_
        rw [← single a member]
        exact Finset.sum_congr rfl fun b _ => by rw [sum_powers root small]
    _ = n * convolution n x y i := by rw [convolution, Finset.mul_sum]

end Convolution

noncomputable def chirp (n j : ℕ) : ℂ := exp ((Real.pi * (j : ℝ) ^ 2 / n : ℝ) * I)

noncomputable def dechirp (n j : ℕ) : ℂ := exp (-(Real.pi * (j : ℝ) ^ 2 / n : ℝ) * I)

/-- The root of the transform of length `n`. -/
noncomputable def turn (n : ℕ) : ℂ := exp (-(2 * Real.pi / n : ℝ) * I)

theorem turn_isPrimitiveRoot {n : ℕ} (positive : 0 < n) : IsPrimitiveRoot (turn n) n := by
  have forward := (Complex.isPrimitiveRoot_exp n positive.ne').inv
  have same : (exp (2 * Real.pi * I / n))⁻¹ = turn n := by
    rw [← Complex.exp_neg, turn]
    congr 1
    push_cast
    ring
  exact same ▸ forward

theorem fourierSum_eq_dft {n : ℕ} (x : ℕ → ℝ) (k : ℕ) :
    fourierSum (2 * Real.pi * k / n) n x = dft (turn n) n (fun j => (x j : ℂ)) k := by
  refine Finset.sum_congr rfl fun j _ => ?_
  rw [turn, ← Complex.exp_nat_mul, ← Complex.exp_nat_mul]
  congr 2
  push_cast
  ring

/-- A cosine that turns a whole number of times in the window is in one bin below the half. -/
theorem fourierSum_cos {n m i : ℕ} (positive : 0 < m) (below : i + m < n) :
    fourierSum (2 * Real.pi * i / n) n (fun k => Real.cos (2 * Real.pi * m / n * k)) =
      if i = m then (n : ℂ) / 2 else 0 := by
  have root := turn_isPrimitiveRoot (n := n) (by omega)
  have cosine : ∀ k : ℕ, ((Real.cos (2 * Real.pi * m / n * k) : ℝ) : ℂ) =
      ((turn n ^ m) ^ k + (turn n ^ m)⁻¹ ^ k) / 2 := by
    intro k
    have power : (turn n ^ m) ^ k = exp (-((2 * Real.pi * m / n * k : ℝ) * I)) := by
      rw [turn, ← Complex.exp_nat_mul, ← Complex.exp_nat_mul]
      congr 1
      push_cast
      ring
    rw [inv_pow, power, ← Complex.exp_neg, neg_neg, Complex.ofReal_cos, Complex.cos, add_comm,
      neg_mul]
  have sums : fourierSum (2 * Real.pi * i / n) n (fun k => Real.cos (2 * Real.pi * m / n * k)) =
      (∑ k ∈ Finset.range n, (turn n ^ (i + m) * (turn n)⁻¹ ^ 0) ^ k +
        ∑ k ∈ Finset.range n, (turn n ^ i * (turn n)⁻¹ ^ m) ^ k) / 2 := by
    rw [fourierSum_eq_dft, dft, ← Finset.sum_add_distrib, Finset.sum_div]
    refine Finset.sum_congr rfl fun k _ => ?_
    rw [cosine, pow_zero, mul_one, pow_add, Nat.mul_comm k i, pow_mul, mul_pow, mul_pow, inv_pow]
    ring
  have some_ : (i + m) % n ≠ 0 := by
    rw [Nat.mod_eq_of_lt below]
    omega
  rw [sums, sum_powers root (by omega), sum_powers root (by omega), if_neg some_, zero_add,
    Nat.mod_eq_of_lt (by omega)]
  split_ifs
  · rfl
  · exact zero_div 2

theorem fourierSum_add_mul (t : ℝ) (n : ℕ) (x y : ℕ → ℝ) (c : ℝ) :
    fourierSum t n (fun k => x k + c * y k) = fourierSum t n x + c * fourierSum t n y := by
  rw [fourierSum, fourierSum, fourierSum, Finset.mul_sum, ← Finset.sum_add_distrib]
  refine Finset.sum_congr rfl fun k _ => ?_
  push_cast
  ring

private theorem chirp_product {n : ℕ} (positive : 0 < n) {j k d : ℕ}
    (distance : (d : ℝ) ^ 2 = ((k : ℝ) - j) ^ 2) :
    dechirp n j * chirp n d * dechirp n k = turn n ^ (j * k) := by
  have nonzero : (n : ℂ) ≠ 0 := Nat.cast_ne_zero.mpr positive.ne'
  rw [chirp, distance, dechirp, dechirp, turn, ← Complex.exp_add, ← Complex.exp_add,
    ← Complex.exp_nat_mul]
  congr 1
  push_cast
  field_simp
  ring

/-- A transform as a convolution with a chirp, in a ring of at least twice its length. -/
theorem chirp_transform {n m : ℕ} (wide : 2 * n ≤ m + 1) {a b x : ℕ → ℂ}
    (weighted : ∀ j < n, a j = x j * dechirp n j) (padded : ∀ j < m, n ≤ j → a j = 0)
    (rising : ∀ d < n, b d = chirp n d) (falling : ∀ d < n, 0 < d → b (m - d) = chirp n d)
    {k : ℕ} (small : k < n) :
    dechirp n k * convolution m a b k = dft (turn n) n x k := by
  have within : n ≤ m := by omega
  have kept : convolution m a b k = ∑ j ∈ Finset.range n, a j * b ((k + m - j) % m) := by
    refine (Finset.sum_subset (Finset.range_mono within) fun j inside outside => ?_).symm
    have past : n ≤ j := not_lt.mp fun less => outside (Finset.mem_range.mpr less)
    rw [padded j (Finset.mem_range.mp inside) past, zero_mul]
  rw [kept, dft, Finset.mul_sum]
  refine Finset.sum_congr rfl fun j member => ?_
  have inside := Finset.mem_range.mp member
  have kernel : ∃ d : ℕ, (d : ℝ) ^ 2 = ((k : ℝ) - j) ^ 2 ∧ b ((k + m - j) % m) = chirp n d := by
    rcases Nat.lt_or_ge k j with before | after
    · refine ⟨j - k, ?_, ?_⟩
      · rw [Nat.cast_sub before.le]
        ring
      · rw [← falling (j - k) (by omega) (by omega), show k + m - j = m - (j - k) by omega,
          Nat.mod_eq_of_lt (by omega)]
    · refine ⟨k - j, ?_, ?_⟩
      · rw [Nat.cast_sub after]
      · rw [← rising (k - j) (by omega), show k + m - j = k - j + m by omega, Nat.add_mod_right,
          Nat.mod_eq_of_lt (by omega)]
  obtain ⟨d, distance, value⟩ := kernel
  rw [weighted j inside, value, ← chirp_product (by omega) distance]
  ring

end SV300.Library.Fourier
