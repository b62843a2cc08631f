/- SV300/Harmonics/Goertzel
   digest: The recurrences of FFT_goertzel compute the Fourier sums of the harmonics. -/

import SV300.Harmonics.Engine
import SV300.Library.Fourier

set_option autoImplicit false
set_option relaxedAutoImplicit false

namespace SV300.Harmonics.Goertzel

open SV300.Harmonics.Engine
open SV300.Library.Fourier

/-- The true amplitude of a harmonic of `n` samples. -/
noncomputable def harmonic (sample : ℕ → ℝ) (n : ℕ) (freq : ℝ) (h : ℕ) : ℝ :=
  ‖fourierSum (angle h freq) n sample‖

private theorem gzRun_recur (cf : ℕ → ℝ) (sample : ℕ → ℝ) (n h : ℕ) :
    (gzRun cf sample n).s1 h = (recur (cf h) sample n).1 ∧
      (gzRun cf sample n).s2 h = (recur (cf h) sample n).2 := by
  induction n with
  | zero => exact ⟨rfl, rfl⟩
  | succ n ih =>
    have next : gzRun cf sample (n + 1) = gzSample cf (sample n) (gzRun cf sample n) := by
      rw [gzRun, List.range_succ, List.foldl_append]
      rfl
    rw [next, recur]
    refine ⟨?_, ih.1⟩
    simp only [gzSample, ih.1, ih.2]

private theorem refresh_cf (g : GzCoeff) {freq : ℝ} (running : freq ≠ 0) (h : ℕ) :
    (g.refresh freq).cf h = 2 * Real.cos (angle h freq) := by
  unfold GzCoeff.refresh
  split
  · rfl
  · rename_i same
    have kept : g.freqM = freq := not_not.mp same
    rw [g.right (kept ▸ running), kept]

section

variable (g : GzCoeff) (sample : ℕ → ℝ) (n : ℕ) {freq : ℝ} (running : freq ≠ 0)
include running

private theorem gzRun_normSq (h : ℕ) :
    let s := gzRun (g.refresh freq).cf sample n
    s.s1 h * s.s1 h + s.s2 h * s.s2 h - 2 * Real.cos (angle h freq) * s.s1 h * s.s2 h =
      harmonic sample n freq h ^ 2 := by
  intro s
  obtain ⟨first, second⟩ := gzRun_recur (g.refresh freq).cf sample n h
  simp only [s, first, second, refresh_cf g running]
  exact recur_normSq (angle h freq) sample n

private theorem gzMag_eq (h : ℕ) :
    gzMag (g.refresh freq).cf (gzRun (g.refresh freq).cf sample n) h =
      harmonic sample n freq h := by
  have squared := gzRun_normSq g sample n running h
  rw [gzMag, refresh_cf g running, squared, harmonic, Real.sqrt_sq (norm_nonneg _)]

theorem fftGoertzel_eq (beyond : Sel → ℝ) (sel : Sel) (nominal : Nominal)
    (fundamental : 0 < harmonic sample n freq 1) :
    (fftGoertzel beyond g sample n freq sel nominal).2 =
      report (fun h => harmonic sample n freq h / harmonic sample n freq 1)
        (gain beyond sel nominal) 62 := by
  have mag := gzMag_eq g sample n running
  simp only [fftGoertzel, mag, if_pos fundamental]

end

private theorem report_word (amp gain : ℕ → ℝ) {last : ℕ} {h : Fin 64} (two : 2 ≤ h.val)
    (inside : h.val ≤ last) : (report amp gain last).pHD h = toUint16 (amp h * gain h * 10000) := by
  have notZero : h.val ≠ 0 := by omega
  have others : ¬ (h.val = 1 ∨ last < h.val) := by omega
  simp only [report, notZero, others, if_false]

private theorem report_none (amp gain : ℕ → ℝ) {last : ℕ} {h : Fin 64}
    (outside : h.val = 1 ∨ last < h.val ∧ h.val ≠ 0) : (report amp gain last).pHD h = 0 := by
  have notZero : h.val ≠ 0 := by omega
  have others : h.val = 1 ∨ last < h.val := by omega
  simp only [report, notZero, others, if_false, if_true]

private theorem toNat_toUint16 {x : ℝ} (within : x < 65536) : (toUint16 x).toNat = ⌊x⌋₊ := by
  have small : ⌊x⌋₊ < 65536 := (Nat.floor_lt' (by decide)).mpr (by exact_mod_cast within)
  rw [toUint16, UInt16.toNat_ofNat']
  exact Nat.mod_eq_of_lt small

/-- The reported ratio of a harmonic is its true amplitude ratio times the gain, in hundredths of a
percent. -/
def Reports (out : Result) (ratio gain : ℕ → ℝ) (h : Fin 64) : Prop :=
  (out.pHD h).toNat = ⌊ratio h * gain h * 10000⌋₊

/-- All 63 recurrences end with the squared magnitude of their harmonic.  The orders 2 to 62 are
reported as their true ratio to a fundamental that is not zero, while they fit into the word; the
orders 1 and 63 are reported as zero. -/
theorem goertzel_reports (beyond : Sel → ℝ) (g : GzCoeff) (sample : ℕ → ℝ) (n : ℕ) {freq : ℝ}
    (running : freq ≠ 0) (sel : Sel) (nominal : Nominal) :
    let s := gzRun (g.refresh freq).cf sample n
    let amp := harmonic sample n freq
    let out := (fftGoertzel beyond g sample n freq sel nominal).2
    (∀ h, 1 ≤ h → h ≤ 63 → s.s1 h * s.s1 h + s.s2 h * s.s2 h -
        2 * Real.cos (angle h freq) * s.s1 h * s.s2 h = amp h ^ 2) ∧
      (0 < amp 1 → ∀ h : Fin 64, 2 ≤ h.val → h.val < 63 →
        amp h / amp 1 * gain beyond sel nominal h * 10000 < 65536 →
        Reports out (fun h => amp h / amp 1) (gain beyond sel nominal) h) ∧
      out.pHD 1 = 0 ∧ out.pHD 63 = 0 := by
  intro s amp out
  refine ⟨fun h _ _ => gzRun_normSq g sample n running h, ?_, ?_, ?_⟩
  · intro fundamental h two below within
    have engine : out = report (fun h => amp h / amp 1) (gain beyond sel nominal) 62 :=
      fftGoertzel_eq g sample n running beyond sel nominal fundamental
    rw [Reports, engine, report_word _ _ two (by omega)]
    exact toNat_toUint16 within
  · exact report_none _ _ (.inl rfl)
  · exact report_none _ _ (.inr ⟨by decide, by decide⟩)

def impulse : ℕ → ℝ := fun _ => 1

private theorem harmonic_impulse (freq : ℝ) (h : ℕ) : harmonic impulse 1 freq h = 1 := by
  simp [harmonic, fourierSum, impulse]

/-- A window at 50 Hz with a tenth of the third harmonic. -/
noncomputable def tones : ℕ → ℝ := fun k =>
  Real.cos (2 * Real.pi * (10 : ℕ) / nFft * k) + 1 / 10 *
    Real.cos (2 * Real.pi * (30 : ℕ) / nFft * k)

theorem fourierSum_tones {i : ℕ} (below : i < nFft / 2) :
    ‖fourierSum (2 * Real.pi * i / nFft) nFft tones‖ =
      if i = 10 then 800 else if i = 30 then 80 else 0 := by
  have small : i < 800 := below
  have window : (nFft : ℂ) = 1600 := by norm_num [nFft]
  unfold tones
  rw [fourierSum_add_mul, fourierSum_cos (by decide) (by change i + 10 < 1600; omega),
    fourierSum_cos (by decide) (by change i + 30 < 1600; omega), window]
  by_cases first : i = 10
  · norm_num [first]
  · rw [if_neg first, if_neg first]
    split_ifs <;> norm_num

private theorem harmonic_tones {h : ℕ} (last : h ≤ 63) :
    harmonic tones nFft 50 h = if h = 1 then 800 else if h = 3 then 80 else 0 := by
  have turned : angle h 50 = 2 * Real.pi * (10 * h : ℕ) / nFft := by
    rw [angle, show (nFft : ℝ) = 1600 by norm_num [nFft]]
    push_cast
    ring
  have below : 10 * h < nFft / 2 := by
    change 10 * h < 800
    omega
  rw [harmonic, turned, fourierSum_tones below]
  have tenth : (10 * h = 10) = (h = 1) := propext (by omega)
  have third : (10 * h = 30) = (h = 3) := propext (by omega)
  simp only [tenth, third]

/-- The third harmonic is reported as 9.96 %, its tenth times its gain. -/
theorem goertzel_reports_tones :
    let s := gzRun (GzCoeff.zero.refresh 50).cf tones nFft
    let out := (fftGoertzel (fun _ => 0) GzCoeff.zero tones nFft 50 .U .hz50).2
    s.s1 3 * s.s1 3 + s.s2 3 * s.s2 3 - 2 * Real.cos (angle 3 50) * s.s1 3 * s.s2 3 = 80 ^ 2 ∧
      (out.pHD 3).toNat = 996 ∧ out.pHD 1 = 0 ∧ out.pHD 63 = 0 := by
  obtain ⟨squares, words, none_⟩ :=
    goertzel_reports (fun _ => 0) GzCoeff.zero tones nFft (by norm_num : (50 : ℝ) ≠ 0) .U .hz50
  have first : harmonic tones nFft 50 1 = 800 := harmonic_tones (by decide)
  have third : harmonic tones nFft 50 3 = 80 := harmonic_tones (by decide)
  have gain_ : gain (fun _ => 0) .U .hz50 3 = 996 / 1000 := by
    change ((996 : ℕ) : ℝ) / 1000 = _
    norm_num
  have ratio : harmonic tones nFft 50 ((3 : Fin 64) : ℕ) / harmonic tones nFft 50 1 *
      gain (fun _ => 0) .U .hz50 ((3 : Fin 64) : ℕ) * 10000 = 996 := by
    change harmonic tones nFft 50 3 / _ * gain (fun _ => 0) .U .hz50 3 * 10000 = 996
    rw [first, third, gain_]
    norm_num
  refine ⟨(squares 3 (by decide) (by decide)).trans (by rw [third]), ?_, none_⟩
  have word := words (by rw [first]; norm_num) 3 (by decide) (by decide)
    (by rw [ratio]; norm_num)
  rw [Reports] at word
  rw [word, ratio]
  exact Nat.floor_ofNat 996

/-- The impulse has as much of harmonic 63 as of the fundamental, and it is reported as zero. -/
theorem order_63_not_reported :
    ¬ Reports (fftGoertzel (fun _ => 0) GzCoeff.zero impulse 1 50 .U .hz50).2
      (fun h => harmonic impulse 1 50 h / harmonic impulse 1 50 1) (gain (fun _ => 0) .U .hz50)
      63 := by
  have none : (fftGoertzel (fun _ => 0) GzCoeff.zero impulse 1 50 .U .hz50).2.pHD 63 = 0 :=
    report_none _ _ (.inr ⟨by decide, by decide⟩)
  have unit : gain (fun _ => 0) .U .hz50 (63 : Fin 64).val = ((1000 : ℕ) : ℝ) / 1000 := rfl
  rw [Reports, none, harmonic_impulse, harmonic_impulse, unit]
  norm_num

end SV300.Harmonics.Goertzel
