/- SV300/Harmonics/Czt
   digest: FFT_radix2, convolve and FFT_czt compute the Fourier sums of the window. -/

import SV300.Harmonics.Engine
import SV300.Library.Fourier

set_option autoImplicit false
set_option relaxedAutoImplicit false

namespace SV300.Harmonics.Czt

open SV300.Harmonics.Engine
open SV300.Library.RadixTwo
open SV300.Library.Fourier
open Complex (I)

def vec (v : Arrays) (i : ℕ) : ℂ := ⟨v.re i, v.im i⟩

private theorem levels_mFft : levels mFft = 12 := by decide

private theorem reverseBits_eq {i : ℕ} (small : i < 2 ^ 12) :
    reverseBits i / 2 ^ (32 - 12) = rev 12 i := by
  have reversed : reverseBits i = rev 12 i * 2 ^ 20 := by
    rw [reverseBits, List.foldl_const, List.length_range, shift_iterate, Nat.zero_mul,
      Nat.zero_add]
    exact rev_wider small 20
  rw [reversed]
  exact Nat.mul_div_cancel _ (by decide)

private theorem vec_swap (i j : ℕ) (v : Arrays) :
    vec ⟨swap i j v.re, swap i j v.im⟩ = exchange i j (vec v) := by
  funext p
  rw [exchange_apply]
  simp only [vec, swap, Function.update_apply]
  split
  · rfl
  · split <;> rfl

private theorem turn_pow (k : ℕ) : turn mFft ^ k = ⟨cosRdx k, -sinRdx k⟩ := by
  have power : turn mFft ^ k = Complex.exp ((-(2 * Real.pi * k / mFft) : ℝ) * I) := by
    rw [turn, ← Complex.exp_nat_mul]
    congr 1
    push_cast
    ring
  rw [power]
  apply Complex.ext
  · rw [Complex.exp_ofReal_mul_I_re, Real.cos_neg]
    rfl
  · rw [Complex.exp_ofReal_mul_I_im, Real.sin_neg]
    rfl

private theorem vec_cooleyTukey (k j l : ℕ) (v : Arrays) :
    vec (cooleyTukey k j l v) = butterfly (turn mFft ^ k) j l (vec v) := by
  funext p
  rw [butterfly_apply, turn_pow]
  apply Complex.ext
  · simp only [vec, cooleyTukey, Function.update_apply]
    split_ifs <;> simp only [Complex.add_re, Complex.sub_re, Complex.mul_re] <;> ring
  · simp only [vec, cooleyTukey, Function.update_apply]
    split_ifs <;> simp only [Complex.add_im, Complex.sub_im, Complex.mul_im] <;> ring

private theorem half_turn : turn mFft ^ 2 ^ (12 - 1) = -1 := by
  rw [turn_pow]
  have angle : 2 * Real.pi * ((2 ^ (12 - 1) : ℕ) : ℝ) / mFft = Real.pi := by
    norm_num [mFft]
    ring
  rw [cosRdx, sinRdx, angle, Real.cos_pi, Real.sin_pi]
  apply Complex.ext <;> simp

private theorem vec_stages (v : Arrays) (l : ℕ) :
    vec ((List.range l).foldl (fun v p =>
      (List.range (mFft / 2 ^ (p + 1))).foldl (fun v b =>
        (List.range (2 ^ (p + 1) / 2)).foldl (fun v t =>
          cooleyTukey (t * (mFft / 2 ^ (p + 1))) (b * 2 ^ (p + 1) + t)
            (b * 2 ^ (p + 1) + t + 2 ^ (p + 1) / 2) v) v) v) v) =
      (List.range l).foldl (fun v p =>
        stage (fun t => turn mFft ^ (t * (mFft / 2 ^ (p + 1)))) (mFft / 2 ^ (p + 1)) (2 ^ p) v)
        (vec v) := by
  refine (List.foldl_hom vec fun v p => ?_).symm
  have half : 2 ^ (p + 1) / 2 = 2 ^ p := by
    rw [pow_succ, Nat.mul_div_cancel _ (by decide)]
  rw [half, pow_succ' 2 p, stage]
  refine List.foldl_hom vec fun v b => ?_
  refine List.foldl_hom vec fun v t => ?_
  exact (vec_cooleyTukey _ _ _ _).symm

private theorem vec_reorder (v : Arrays) :
    vec ((List.range mFft).foldl (fun (v : Arrays) i =>
      if i < reverseBits i / 2 ^ (32 - 12) then
        ⟨swap i (reverseBits i / 2 ^ (32 - 12)) v.re, swap i (reverseBits i / 2 ^ (32 - 12)) v.im⟩
      else v) v) = reorder 12 (vec v) := by
  have code : (List.range mFft).foldl (fun (v : Arrays) i =>
      if i < reverseBits i / 2 ^ (32 - 12) then
        ⟨swap i (reverseBits i / 2 ^ (32 - 12)) v.re, swap i (reverseBits i / 2 ^ (32 - 12)) v.im⟩
      else v) v = (List.range mFft).foldl (fun (v : Arrays) i =>
        if i < rev 12 i then ⟨swap i (rev 12 i) v.re, swap i (rev 12 i) v.im⟩ else v) v := by
    refine List.foldl_ext _ _ v fun v i member => ?_
    rw [reverseBits_eq (List.mem_range.mp member)]
  rw [code, reorder]
  refine (List.foldl_hom vec fun v i => ?_).symm
  split
  · exact (vec_swap _ _ _).symm
  · rfl

private theorem fftRadix2_eq (v : Arrays) {k : ℕ} (small : k < mFft) :
    vec (fftRadix2 v mFft) k = dft (turn mFft) mFft (vec v) k := by
  have whole : 2 ^ levels mFft = mFft := by
    rw [levels_mFft]
    rfl
  refine Eq.trans ?_ (transform_eq_dft half_turn (vec v) (l := 12) small)
  rw [fftRadix2, if_neg (not_not.mpr whole)]
  simp only [levels_mFft]
  rw [vec_stages, vec_reorder, stages]
  have same : ∀ (v : ℕ → ℂ), ∀ p ∈ List.range 12,
      stage (fun t => turn mFft ^ (t * (mFft / 2 ^ (p + 1)))) (mFft / 2 ^ (p + 1)) (2 ^ p) v =
        stage (fun t => turn mFft ^ (t * 2 ^ (12 - p - 1))) (2 ^ (12 - p - 1)) (2 ^ p) v := by
    intro v p member
    have early := List.mem_range.mp member
    have blocks : mFft / 2 ^ (p + 1) = 2 ^ (12 - p - 1) := by
      show 2 ^ 12 / 2 ^ (p + 1) = 2 ^ (12 - p - 1)
      rw [Nat.pow_div (by omega) (by decide), Nat.sub_sub]
    rw [blocks]
  rw [List.foldl_ext _ _ _ same]

private theorem vec_exchanged (re im : ℕ → ℝ) (i : ℕ) :
    vec ⟨im, re⟩ i = I * starRingEnd ℂ (vec ⟨re, im⟩ i) := by
  apply Complex.ext <;> simp [vec]

private theorem turn_inv (n : ℕ) : starRingEnd ℂ (turn n) = (turn n)⁻¹ := by
  rw [turn, ← Complex.exp_conj, ← Complex.exp_neg, map_mul, map_neg, Complex.conj_ofReal,
    Complex.conj_I, mul_neg]

section Convolve

-- The length stays a variable here, so that no step computes with it.
variable {n : ℕ}

private theorem dft_exchanged (p : ℕ → ℂ) (i : ℕ) :
    I * starRingEnd ℂ (dft (turn n) n (fun k => I * starRingEnd ℂ (p k)) i) =
      dft (turn n)⁻¹ n p i := by
  rw [dft, map_sum, Finset.mul_sum, dft]
  refine Finset.sum_congr rfl fun k _ => ?_
  rw [map_mul, map_mul, map_pow, turn_inv, Complex.conj_conj, Complex.conj_I]
  linear_combination (-(p k * (turn n)⁻¹ ^ (k * i))) * Complex.I_mul_I

private theorem convolve_of (positive : 0 < n)
    (fft : ∀ v k, k < n → vec (fftRadix2 v n) k = dft (turn n) n (vec v) k) (x y : Arrays) {i : ℕ}
    (small : i < n) : vec (convolve x y n) i = convolution n (vec x) (vec y) i := by
  have nonzero : (n : ℂ) ≠ 0 := Nat.cast_ne_zero.mpr positive.ne'
  let fx := fftRadix2 x n
  let fy := fftRadix2 y n
  let product : Arrays :=
    { re := fun i => fx.re i * fy.re i - fx.im i * fy.im i
      im := fun i => fx.im i * fy.re i + fx.re i * fy.im i }
  have spectrum : ∀ k, vec product k = vec fx k * vec fy k := by
    intro k
    apply Complex.ext
    · simp only [vec, product, Complex.mul_re]
    · simp only [vec, product, Complex.mul_im]
      ring
  have terms : ∀ k < n, vec ⟨product.im, product.re⟩ k =
      I * starRingEnd ℂ (dft (turn n) n (vec x) k * dft (turn n) n (vec y) k) := by
    intro k inside
    rw [vec_exchanged, spectrum, fft x k inside, fft y k inside]
  have inverse : vec (fftRadix2 ⟨product.im, product.re⟩ n) i = dft (turn n) n
      (fun k => I * starRingEnd ℂ (dft (turn n) n (vec x) k * dft (turn n) n (vec y) k)) i := by
    rw [fft _ i small, dft, dft]
    exact Finset.sum_congr rfl fun k member => by rw [terms k (Finset.mem_range.mp member)]
  have output : vec (convolve x y n) i =
      I * starRingEnd ℂ (vec (fftRadix2 ⟨product.im, product.re⟩ n) i) / n := by
    have parts : vec (convolve x y n) i =
        ⟨(fftRadix2 ⟨product.im, product.re⟩ n).im i / n,
          (fftRadix2 ⟨product.im, product.re⟩ n).re i / n⟩ := by
      simp only [vec, convolve, product, fx, fy]
    rw [parts]
    apply Complex.ext
    · simp [vec, Complex.div_natCast_re]
    · simp [vec, Complex.div_natCast_im]
  rw [output, inverse, dft_exchanged,
    dft_convolution (turn_isPrimitiveRoot positive) (vec x) (vec y) small]
  field_simp

end Convolve

private theorem convolve_eq (x y : Arrays) {i : ℕ} (small : i < mFft) :
    vec (convolve x y mFft) i = convolution mFft (vec x) (vec y) i :=
  convolve_of (by decide) (fun v _ inside => fftRadix2_eq v inside) x y small

private theorem chirp_eq (i : ℕ) : chirp nFft i = ⟨cosCzt i, sinCzt i⟩ ∧
    dechirp nFft i = ⟨cosCzt i, -sinCzt i⟩ := by
  have whole : i ^ 2 = i * i % (nFft * 2) + nFft * 2 * (i * i / (nFft * 2)) := by
    rw [Nat.mod_add_div, sq]
  have split : (i : ℝ) ^ 2 = (i * i % (nFft * 2) : ℕ) + nFft * 2 * (i * i / (nFft * 2) : ℕ) := by
    exact_mod_cast whole
  have angle : Real.pi * (i : ℝ) ^ 2 / nFft = Real.pi * (i * i % (nFft * 2) : ℕ) / nFft +
      (i * i / (nFft * 2) : ℕ) * (2 * Real.pi) := by
    have positive : (nFft : ℝ) ≠ 0 := by norm_num [nFft]
    rw [split]
    field_simp
  have cosine : Real.cos (Real.pi * (i : ℝ) ^ 2 / nFft) = cosCzt i := by
    rw [angle, Real.cos_add_nat_mul_two_pi, cosCzt]
  have sine : Real.sin (Real.pi * (i : ℝ) ^ 2 / nFft) = sinCzt i := by
    rw [angle, Real.sin_add_nat_mul_two_pi, sinCzt]
  constructor
  · apply Complex.ext
    · rw [chirp, Complex.exp_ofReal_mul_I_re, cosine]
    · rw [chirp, Complex.exp_ofReal_mul_I_im, sine]
  · rw [dechirp, ← Complex.ofReal_neg]
    apply Complex.ext
    · rw [Complex.exp_ofReal_mul_I_re, Real.cos_neg, cosine]
    · rw [Complex.exp_ofReal_mul_I_im, Real.sin_neg, sine]

/-- Where `convolve` computes the circular convolution of a long enough ring, `FFT_czt` computes the
transform of the window's length. -/
private theorem fftCzt_of {m : ℕ} (wide : 2 * nFft ≤ m + 1)
    (convolves : ∀ x y i, i < m → vec (convolve x y m) i = convolution m (vec x) (vec y) i)
    (sample : ℕ → ℝ) {k : ℕ} (small : k < nFft) :
    vec (fftCzt (prepared sample) nFft m) k =
      dft (turn nFft) nFft (fun j => (sample j : ℂ)) k := by
  let a : Arrays :=
    { re := fun i => if i < nFft then sample i * cosCzt i else 0
      im := fun i => if i < nFft then -sample i * sinCzt i else 0 }
  let b : Arrays :=
    { re := fun i => if i < nFft then cosCzt i else if i ≤ m - nFft then 0 else cosCzt (m - i)
      im := fun i => if i < nFft then sinCzt i else if i ≤ m - nFft then 0 else sinCzt (m - i) }
  have weighted : ∀ j < nFft, vec a j = sample j * dechirp nFft j := by
    intro j inside
    rw [(chirp_eq j).2]
    apply Complex.ext <;> simp [vec, a, inside]
  have padded : ∀ j < m, nFft ≤ j → vec a j = 0 := by
    intro j _ past
    apply Complex.ext <;> simp [vec, a, not_lt.mpr past]
  have rising : ∀ d < nFft, vec b d = chirp nFft d := by
    intro d inside
    rw [(chirp_eq d).1]
    apply Complex.ext <;> simp [vec, b, inside]
  have falling : ∀ d < nFft, 0 < d → vec b (m - d) = chirp nFft d := by
    intro d inside positive
    have beyond : ¬ m - d < nFft := by omega
    have last : ¬ m - d ≤ m - nFft := by omega
    have back : m - (m - d) = d := by omega
    rw [(chirp_eq d).1]
    apply Complex.ext <;> simp only [vec, b, beyond, last, back, if_false]
  have code : vec (fftCzt (prepared sample) nFft m) k =
      dechirp nFft k * vec (convolve a b m) k := by
    rw [(chirp_eq k).2]
    apply Complex.ext
    · simp only [vec, fftCzt, prepared, small, if_true, Complex.mul_re, a, b]
      ring
    · simp only [vec, fftCzt, prepared, small, if_true, Complex.mul_im, a, b]
      ring
  rw [code, convolves a b k (by omega)]
  exact chirp_transform (by omega) weighted padded rising falling small

theorem fftCzt_eq (sample : ℕ → ℝ) {k : ℕ} (small : k < nFft) :
    vec (fftCzt (prepared sample) nFft mFft) k =
      dft (turn nFft) nFft (fun j => (sample j : ℂ)) k :=
  fftCzt_of (by decide) (fun x y _ inside => convolve_eq x y inside) sample small

end SV300.Harmonics.Czt
