/- SV300/Harmonics/Engines
   digest: When Goertzel and the chirp transform return the same harmonics. -/

import Mathlib.Algebra.BigOperators.Field
import SV300.Harmonics.Czt
import SV300.Harmonics.Goertzel

set_option autoImplicit false
set_option relaxedAutoImplicit false

namespace SV300.Harmonics.Engines

open SV300.Harmonics.Engine
open SV300.Harmonics.Goertzel
open SV300.Harmonics.Czt
open SV300.Library.Fourier
open SV300.Library.RadixTwo

noncomputable def bin (sample : ℕ → ℝ) (i : ℕ) : ℝ :=
  ‖fourierSum (2 * Real.pi * i / nFft) nFft sample‖

/-- The true amplitude of an order at the nominal frequency. -/
noncomputable def order (sample : ℕ → ℝ) (nominal : Nominal) (h : ℕ) : ℝ :=
  harmonic sample nFft (freqHz nominal) h

private theorem amplitude_fftCzt (sample : ℕ → ℝ) {i : ℕ} (small : i < nFft) :
    amplitude (fftCzt (prepared sample) nFft mFft) i = bin sample i := by
  rw [bin, fourierSum_eq_dft, ← fftCzt_eq sample small, Complex.norm_eq_sqrt_sq_add_sq, amplitude]
  simp only [vec, sq]

private theorem bin_binOf (sample : ℕ → ℝ) (nominal : Nominal) (h : ℕ) :
    bin sample (binOf nominal h) = order sample nominal h := by
  have angles : 2 * Real.pi * (binOf nominal h : ℕ) / nFft = angle h (freqHz nominal) := by
    have whole : binOf nominal h * 5 = h * freqHz nominal :=
      Nat.div_mul_cancel (Dvd.dvd.mul_left (by cases nominal <;> decide) h)
    have scaled : (binOf nominal h : ℝ) * 5 = h * freqHz nominal := by exact_mod_cast whole
    rw [angle, show (nFft : ℝ) = 1600 by norm_num [nFft]]
    linear_combination (2 * Real.pi / 8000) * scaled
  rw [bin, angles]
  rfl

private theorem binOf_lt (nominal : Nominal) {h : ℕ} (last : h ≤ 63) :
    binOf nominal h < nFft / 2 := by
  have quick : binOf nominal h ≤ h * 12 := by
    cases nominal
    · show h * 60 / 5 ≤ h * 12
      omega
    · show h * 50 / 5 ≤ h * 12
      omega
  have half : nFft / 2 = 800 := rfl
  omega

private theorem largest_succ (v : Arrays) (n : ℕ) : largest v (n + 1) =
    if largest v n < amplitude v n then amplitude v n else largest v n := by
  rw [largest, List.range_succ, List.foldl_append]
  rfl

private theorem le_largest (v : Arrays) (n : ℕ) :
    0 ≤ largest v n ∧ ∀ i < n, amplitude v i ≤ largest v n := by
  induction n with
  | zero => exact ⟨le_rfl, fun i absurd' => absurd absurd' (Nat.not_lt_zero i)⟩
  | succ n ih =>
    have grows : largest v n ≤ largest v (n + 1) := by
      rw [largest_succ]
      split
      · rename_i more
        exact more.le
      · exact le_rfl
    refine ⟨ih.1.trans grows, fun i inside => ?_⟩
    rcases Nat.lt_succ_iff_lt_or_eq.mp inside with earlier | rfl
    · exact (ih.2 i earlier).trans grows
    · rw [largest_succ]
      split
      · exact le_rfl
      · rename_i small
        exact not_lt.mp small

private theorem largest_attained (v : Arrays) (n : ℕ) :
    largest v n = 0 ∨ ∃ i < n, largest v n = amplitude v i := by
  induction n with
  | zero => exact .inl rfl
  | succ n ih =>
    rw [largest_succ]
    split
    · exact .inr ⟨n, n.lt_succ_self, rfl⟩
    · rcases ih with zero | ⟨i, inside, value⟩
      · exact .inl zero
      · exact .inr ⟨i, inside.trans n.lt_succ_self, value⟩

/-- No bin of the window is larger than the fundamental. -/
def Dominant (sample : ℕ → ℝ) (nominal : Nominal) : Prop :=
  ∀ i < nFft / 2, bin sample i ≤ order sample nominal 1

noncomputable def weighted (beyond : Sel → ℝ) (sample : ℕ → ℝ) (sel : Sel) (nominal : Nominal)
    (h : ℕ) : ℝ :=
  order sample nominal h * gain beyond sel nominal h

/-- The fundamental is the largest bin and the last order vanishes, or all orders vanish. -/
def Comparable (beyond : Sel → ℝ) (sample : ℕ → ℝ) (sel : Sel) (nominal : Nominal) : Prop :=
  Dominant sample nominal ∧ weighted beyond sample sel nominal 63 = 0 ∨
    ∀ h, 2 ≤ h → h ≤ 63 → weighted beyond sample sel nominal h = 0

/-- Both engines return the same distortion and the same words. -/
def Agree (beyond : Sel → ℝ) (g : GzCoeff) (sample : ℕ → ℝ) (sel : Sel) (nominal : Nominal) :
    Prop :=
  (fftHarmonic true beyond g sample sel nominal (freqHz nominal)).2 =
    (fftHarmonic false beyond g sample sel nominal (freqHz nominal)).2

section

variable (beyond : Sel → ℝ) (g : GzCoeff) (sample : ℕ → ℝ) (sel : Sel) (nominal : Nominal)

noncomputable def divisor : ℝ := largest (fftCzt (prepared sample) nFft mFft) (nFft / 2)

private theorem dominant_iff (fundamental : 0 < order sample nominal 1) :
    Dominant sample nominal ↔ divisor sample = order sample nominal 1 := by
  have below : ∀ i < nFft / 2, bin sample i ≤ divisor sample := by
    intro i inside
    rw [← amplitude_fftCzt sample (inside.trans (by decide))]
    exact (le_largest _ _).2 i inside
  have first : order sample nominal 1 ≤ divisor sample := by
    rw [← bin_binOf]
    exact below _ (binOf_lt nominal (by decide))
  constructor
  · intro dominant
    rcases largest_attained (fftCzt (prepared sample) nFft mFft) (nFft / 2) with
      zero | ⟨i, inside, value⟩
    · exact absurd (zero ▸ first) (not_le.mpr fundamental)
    · refine le_antisymm ?_ first
      rw [divisor, value, amplitude_fftCzt sample (inside.trans (by decide))]
      exact dominant i inside
  · intro same i inside
    exact same ▸ below i inside

private theorem divisor_pos (fundamental : 0 < order sample nominal 1) : 0 < divisor sample := by
  have first := (le_largest (fftCzt (prepared sample) nFft mFft) (nFft / 2)).2 _
    (binOf_lt nominal (h := 1) (by decide))
  rw [amplitude_fftCzt sample ((binOf_lt nominal (h := 1) (by decide)).trans (by decide)),
    bin_binOf] at first
  exact fundamental.trans_le first

private theorem goertzel_result (fundamental : 0 < order sample nominal 1) :
    (fftHarmonic true beyond g sample sel nominal (freqHz nominal)).2 =
      report (fun h => order sample nominal h / order sample nominal 1)
        (gain beyond sel nominal) 62 := by
  have running : (freqHz nominal : ℝ) ≠ 0 := by cases nominal <;> norm_num [freqHz]
  exact fftGoertzel_eq g sample nFft running beyond sel nominal fundamental

private theorem czt_result :
    (fftHarmonic false beyond g sample sel nominal (freqHz nominal)).2 =
      report (fun h => if nFft / 2 ≤ binOf nominal h then 0 else
        amplitude (fftCzt (prepared sample) nFft mFft) (binOf nominal h) / divisor sample)
        (gain beyond sel nominal) 63 :=
  rfl

private theorem czt_amplitude {h : ℕ} (last : h ≤ 63) :
    (if nFft / 2 ≤ binOf nominal h then 0 else
      amplitude (fftCzt (prepared sample) nFft mFft) (binOf nominal h) / divisor sample) =
      order sample nominal h / divisor sample := by
  have inside := binOf_lt nominal last
  rw [if_neg (not_le.mpr inside), amplitude_fftCzt sample (inside.trans (by decide)), bin_binOf]

end

private theorem distortion_sum_succ (amp gain : ℕ → ℝ) :
    ∑ h ∈ Finset.Icc 2 63, amp h * amp h * gain h * gain h =
      ∑ h ∈ Finset.Icc 2 62, amp h * amp h * gain h * gain h +
        amp 63 * gain 63 * (amp 63 * gain 63) := by
  rw [Finset.sum_Icc_succ_top (show 2 ≤ 62 + 1 by decide)]
  ring

/-- Engines whose weighted orders agree, the longer one with nothing in order 63, report the
same. -/
private theorem report_eq {amp amp' gain : ℕ → ℝ}
    (same : ∀ h, 2 ≤ h → h ≤ 62 → amp h * gain h = amp' h * gain h) (none : amp' 63 * gain 63 = 0) :
    report amp gain 62 = report amp' gain 63 := by
  have square : ∀ a b : ℝ, a * a * b * b = a * b * (a * b) := fun a b => by ring
  have sums : ∑ h ∈ Finset.Icc 2 62, amp h * amp h * gain h * gain h =
      ∑ h ∈ Finset.Icc 2 63, amp' h * amp' h * gain h * gain h := by
    rw [distortion_sum_succ, none, mul_zero, add_zero]
    refine Finset.sum_congr rfl fun h member => ?_
    obtain ⟨two, last⟩ := Finset.mem_Icc.mp member
    rw [square, square, same h two last]
  have thd : distortion amp gain 62 = distortion amp' gain 63 := by
    rw [distortion, distortion, sums]
  have zero : toUint16 0 = 0 := by simp [toUint16]
  rw [report, report, Result.mk.injEq]
  refine ⟨thd, funext fun h => ?_⟩
  have bound := h.isLt
  by_cases first : h.val = 0
  · rw [if_pos first, if_pos first, thd]
  · rw [if_neg first, if_neg first]
    by_cases one : h.val = 1
    · rw [if_pos (.inl one), if_pos (.inl one)]
    · have inside : ¬ (h.val = 1 ∨ 63 < h.val) := by omega
      rw [if_neg inside]
      by_cases top : h.val = 63
      · rw [if_pos (.inr (by omega)), top, none, zero_mul, zero]
      · rw [if_neg (by omega), same h (by omega) (by omega)]

section

variable (beyond : Sel → ℝ) (g : GzCoeff) (sample : ℕ → ℝ) (sel : Sel) (nominal : Nominal)
  (fundamental : 0 < order sample nominal 1)
include fundamental

private theorem agree_iff_report : Agree beyond g sample sel nominal ↔
    report (fun h => order sample nominal h / order sample nominal 1) (gain beyond sel nominal) 62 =
      report (fun h => if nFft / 2 ≤ binOf nominal h then 0 else
        amplitude (fftCzt (prepared sample) nFft mFft) (binOf nominal h) / divisor sample)
        (gain beyond sel nominal) 63 := by
  rw [Agree, goertzel_result beyond g sample sel nominal fundamental, czt_result]

private theorem agree_of_comparable (comparable : Comparable beyond sample sel nominal) :
    Agree beyond g sample sel nominal := by
  rw [agree_iff_report beyond g sample sel nominal fundamental]
  rcases comparable with ⟨dominant, last⟩ | silent
  · have divides := (dominant_iff sample nominal fundamental).mp dominant
    refine report_eq (fun h _ small => ?_) ?_
    · rw [czt_amplitude sample nominal (by omega), divides]
    · rw [czt_amplitude sample nominal le_rfl, div_mul_eq_mul_div, ← weighted, last, zero_div]
  · refine report_eq (fun h two small => ?_) ?_
    · rw [czt_amplitude sample nominal (by omega), div_mul_eq_mul_div, div_mul_eq_mul_div,
        ← weighted, silent h two (by omega), zero_div, zero_div]
    · rw [czt_amplitude sample nominal le_rfl, div_mul_eq_mul_div, ← weighted,
        silent 63 (by decide) le_rfl, zero_div]

private theorem squares_of_agree (agree : Agree beyond g sample sel nominal) :
    (∑ h ∈ Finset.Icc 2 62, weighted beyond sample sel nominal h ^ 2) * divisor sample ^ 2 =
      (∑ h ∈ Finset.Icc 2 62, weighted beyond sample sel nominal h ^ 2 +
        weighted beyond sample sel nominal 63 ^ 2) * order sample nominal 1 ^ 2 := by
  have positive := divisor_pos sample nominal fundamental
  rw [agree_iff_report beyond g sample sel nominal fundamental] at agree
  have thd := congrArg Result.thd agree
  have scaled : ∀ (d : ℝ) (last : ℕ) (amp : ℕ → ℝ),
      (∀ h, 2 ≤ h → h ≤ last → amp h = order sample nominal h / d) →
      ∑ h ∈ Finset.Icc 2 last, amp h * amp h * gain beyond sel nominal h *
        gain beyond sel nominal h =
          (∑ h ∈ Finset.Icc 2 last, weighted beyond sample sel nominal h ^ 2) / d ^ 2 := by
    intro d last amp value
    rw [Finset.sum_div]
    refine Finset.sum_congr rfl fun h member => ?_
    obtain ⟨two, small⟩ := Finset.mem_Icc.mp member
    rw [value h two small, weighted]
    ring
  have nonneg : ∀ (d : ℝ) (last : ℕ),
      0 ≤ (∑ h ∈ Finset.Icc 2 last, weighted beyond sample sel nominal h ^ 2) / d ^ 2 :=
    fun d last => div_nonneg (Finset.sum_nonneg fun h _ => sq_nonneg _) (sq_nonneg d)
  have first := scaled (order sample nominal 1) 62 _ fun _ _ _ => rfl
  have second := scaled (divisor sample) 63 _ fun h _ small => czt_amplitude sample nominal small
  simp only [report, distortion] at thd
  rw [first, second, Real.sqrt_inj (nonneg _ _) (nonneg _ _)] at thd
  rw [Finset.sum_Icc_succ_top (show 2 ≤ 62 + 1 by decide)] at thd
  have squareFirst : order sample nominal 1 ^ 2 ≠ 0 := (pow_pos fundamental 2).ne'
  have squareDivisor : divisor sample ^ 2 ≠ 0 := (pow_pos positive 2).ne'
  rw [div_eq_div_iff squareFirst squareDivisor] at thd
  exact thd

private theorem comparable_of_agree (agree : Agree beyond g sample sel nominal)
    (one : Dominant sample nominal ∨ weighted beyond sample sel nominal 63 = 0) :
    Comparable beyond sample sel nominal := by
  have positive := divisor_pos sample nominal fundamental
  have squares := squares_of_agree beyond g sample sel nominal fundamental agree
  rcases one with dominant | last
  · have divides := (dominant_iff sample nominal fundamental).mp dominant
    rw [divides] at squares
    have squareFirst : order sample nominal 1 ^ 2 ≠ 0 := (pow_pos fundamental 2).ne'
    have equal := mul_right_cancel₀ squareFirst squares
    have last : weighted beyond sample sel nominal 63 ^ 2 = 0 := by linarith
    exact .inl ⟨dominant, pow_eq_zero_iff (two_ne_zero) |>.mp last⟩
  · rw [last, zero_pow two_ne_zero, add_zero] at squares
    rcases mul_eq_mul_left_iff.mp squares with same | silent
    · have divides := (pow_left_inj₀ positive.le fundamental.le two_ne_zero).mp same
      exact .inl ⟨(dominant_iff sample nominal fundamental).mpr divides, last⟩
    · refine .inr fun h two small => ?_
      by_cases top : h = 63
      · rw [top, last]
      · have each := (Finset.sum_eq_zero_iff_of_nonneg fun h _ => sq_nonneg
          (weighted beyond sample sel nominal h)).mp silent h (Finset.mem_Icc.mpr ⟨two, by omega⟩)
        exact pow_eq_zero_iff (two_ne_zero) |>.mp each

end

/-- For every window with a fundamental, the engines agree at the nominal frequency if the
fundamental is the largest bin and order 63 vanishes, or if all orders vanish; and where only one of
the two differences is met, they agree in no other case. -/
theorem engines_agree (beyond : Sel → ℝ) (g : GzCoeff) (sample : ℕ → ℝ) (sel : Sel)
    (nominal : Nominal) (fundamental : 0 < order sample nominal 1) :
    (Comparable beyond sample sel nominal → Agree beyond g sample sel nominal) ∧
      (Dominant sample nominal ∨ weighted beyond sample sel nominal 63 = 0 →
        Agree beyond g sample sel nominal → Comparable beyond sample sel nominal) :=
  ⟨agree_of_comparable beyond g sample sel nominal fundamental, fun one agree =>
    comparable_of_agree beyond g sample sel nominal fundamental agree one⟩

private theorem bin_tones {i : ℕ} (below : i < nFft / 2) :
    bin tones i = if i = 10 then 800 else if i = 30 then 80 else 0 :=
  fourierSum_tones below

private theorem tones_comparable : Comparable (fun _ => 0) tones .U .hz50 := by
  have first : order tones .hz50 1 = 800 := by
    rw [← bin_binOf, bin_tones (binOf_lt .hz50 (by decide))]
    rfl
  refine .inl ⟨fun i below => ?_, ?_⟩
  · rw [first, bin_tones below]
    split_ifs <;> norm_num
  · have last : order tones .hz50 63 = 0 := by
      rw [← bin_binOf, bin_tones (binOf_lt .hz50 (by decide))]
      rfl
    rw [weighted, last, zero_mul]

/-- A fundamental with a tenth of its third harmonic. -/
theorem engines_agree_tones :
    Comparable (fun _ => 0) tones .U .hz50 ∧ Agree (fun _ => 0) GzCoeff.zero tones .U .hz50 := by
  have fundamental : 0 < order tones .hz50 1 := by
    rw [← bin_binOf, bin_tones (binOf_lt .hz50 (by decide))]
    norm_num [binOf, freqHz]
  exact ⟨tones_comparable,
    (engines_agree (fun _ => 0) GzCoeff.zero tones .U .hz50 fundamental).1 tones_comparable⟩

def click : ℕ → ℝ := fun i => if i = 0 then 1 else 0

private theorem fourierSum_click (t : ℝ) : fourierSum t nFft click = 1 := by
  rw [fourierSum, Finset.sum_eq_single_of_mem 0 (Finset.mem_range.mpr (by decide))]
  · simp [click]
  · intro k _ later
    simp [click, later]

private theorem order_click (nominal : Nominal) (h : ℕ) : order click nominal h = 1 := by
  rw [order, Goertzel.harmonic, fourierSum_click, norm_one]

/-- The click has as much of order 63 as of the fundamental; only the fallback reports it. -/
theorem engines_differ : ¬ Agree (fun _ => 0) GzCoeff.zero click .U .hz50 := by
  intro agree
  have fundamental : 0 < order click .hz50 1 := by
    rw [order_click]
    exact one_pos
  have dominant : Dominant click .hz50 := by
    intro i _
    rw [bin, fourierSum_click, norm_one, order_click]
  have word : gain (fun _ => 0) .U .hz50 63 = ((1000 : ℕ) : ℝ) / 1000 := rfl
  have last : weighted (fun _ => 0) click .U .hz50 63 ≠ 0 := by
    rw [weighted, order_click, word]
    norm_num
  rcases comparable_of_agree _ _ _ _ _ fundamental agree (.inl dominant) with ⟨-, none⟩ | silent
  · exact last none
  · exact last (silent 63 (by decide) le_rfl)

end SV300.Harmonics.Engines
