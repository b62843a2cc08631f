/- SV300/Rms/Sequence
   digest: The symmetrical components and the unbalance of three voltages or currents. -/

import Mathlib.Analysis.Real.Pi.Bounds
import SV300.Feeder.Map
import SV300.Library.ThreePhase

set_option autoImplicit false
set_option relaxedAutoImplicit false

namespace SV300.Rms.Sequence

open SV300.Library.ThreePhase
open SV300.Feeder (WiringMode is1LN1CT wm1LL2CT)
open Complex (exp I)

/-- The functions of the C library that the calculation uses. -/
structure Trig (F : Type) where
  sqrt : F → F
  cos : F → F
  sin : F → F
  atan : F → F
  pi : F

section Code

variable {F : Type} [Field F] [LinearOrder F]

def radians (fn : Trig F) (angle : F) : F := angle * (fn.pi / 180)

def degrees (fn : Trig F) (rad : F) : F :=
  let f := rad / (fn.pi / 180)
  f + if f < 0 then 360 else 0

/-- `rad120` and `rad240` as single-precision constants. -/
def rad120 : F := 4392265 / 2097152
def rad240 : F := 4392265 / 1048576

def magnitude (fn : Trig F) (q : F × F) : F := fn.sqrt (q.1 * q.1 + q.2 * q.2)

def argument (fn : Trig F) (q : F × F) : F :=
  degrees fn (if q.1 = 0 then 0 else fn.atan (q.2 / q.1))

/-- `calcSeqComponent`: magnitude and angle of the zero, positive and negative sequence. -/
def calcSeqComponent (fn : Trig F) (mag angle : ℕ → F) : ℕ → F :=
  let rad i := radians fn (angle i)
  let x i := mag i * fn.cos (rad i)
  let y i := mag i * fn.sin (rad i)
  let up i : F × F := (mag i * fn.cos (rad120 + rad i), mag i * fn.sin (rad120 + rad i))
  let useq i : F × F := (mag i * fn.cos (rad240 + rad i), mag i * fn.sin (rad240 + rad i))
  let q0 : F × F := ((x 0 + x 1 + x 2) / 3, (y 0 + y 1 + y 2) / 3)
  let q1 : F × F := ((x 0 + (up 1).1 + (useq 2).1) / 3, (y 0 + (up 1).2 + (useq 2).2) / 3)
  let q2 : F × F := ((x 0 + (useq 1).1 + (up 2).1) / 3, (y 0 + (useq 1).2 + (up 2).2) / 3)
  ([magnitude fn q0, argument fn q0, magnitude fn q1, argument fn q1, magnitude fn q2,
    argument fn q2].getD · 0)

/-- `calcUnbalance`: the negative and the zero sequence in percent of the positive. -/
def calcUnbalance (seq : ℕ → F) : F × F :=
  if seq 2 = 0 then (0, 0)
  else
    let un := seq 4 / seq 2
    let uo := seq 0 / seq 2
    (if 1 < un then 100 else un * 100, if 3 < uo then 300 else uo * 100)

def fabs (x : F) : F := if x < 0 then -x else x

/-- A quotient that nothing guards: of zero it is no number. -/
def quotient (x y : F) : Option F := if y = 0 then none else some (x / y)

/-- What `calcRmsAngle` reports as unbalance, of voltages as of currents; the average is `U 3`. -/
def unbalance (fn : Trig F) (w : WiringMode) (U Uangle : ℕ → F) : Option (F × F) :=
  if is1LN1CT w then some (0, 0)
  else if w = wm1LL2CT then
    (quotient (fabs (U 3 - U 0)) (U 3)).map fun d => (d * 100, d * 100)
  else some (calcUnbalance (calcSeqComponent fn U Uangle))

end Code

noncomputable def realTrig : Trig ℝ := ⟨Real.sqrt, Real.cos, Real.sin, Real.arctan, Real.pi⟩

noncomputable def phase (mag angle : ℕ → ℝ) (i : ℕ) : ℂ :=
  phasor (mag i) (radians realTrig (angle i))

/-- A third of a turn, and what the code has for it and for two thirds. -/
noncomputable def third : ℂ := exp ((2 * Real.pi / 3 : ℝ) * I)
noncomputable def turn120 : ℂ := exp ((rad120 : ℝ) * I)
noncomputable def turn240 : ℂ := exp ((rad240 : ℝ) * I)

noncomputable def computed (mag angle : ℕ → ℝ) (k : ℕ) : ℂ :=
  let v := phase mag angle
  match k with
  | 0 => zeroSeq (v 0) (v 1) (v 2)
  | 1 => mean turn120 turn240 (v 0) (v 1) (v 2)
  | _ => mean turn240 turn120 (v 0) (v 1) (v 2)

private theorem third_root : IsPrimitiveRoot third 3 := by
  have root := Complex.isPrimitiveRoot_exp 3 (by decide)
  rw [third]
  convert root using 2
  push_cast
  ring

private theorem third_sq : third ^ 2 = exp ((4 * Real.pi / 3 : ℝ) * I) := by
  rw [third, ← Complex.exp_nat_mul]
  congr 1
  push_cast
  ring

private theorem norm_turn120_sub : ‖turn120 - third‖ ≤ 6 / 10 ^ 8 := by
  refine (norm_turn_sub _ _).trans ?_
  have low := Real.pi_gt_d20
  have high := Real.pi_lt_d20
  rw [abs_le, rad120]
  constructor <;> linarith

private theorem norm_turn240_sub : ‖turn240 - third ^ 2‖ ≤ 12 / 10 ^ 8 := by
  rw [third_sq]
  refine (norm_turn_sub _ _).trans ?_
  have low := Real.pi_gt_d20
  have high := Real.pi_lt_d20
  rw [abs_le, rad240]
  constructor <;> linarith

private theorem mean_re (r s a b c : ℂ) :
    (mean r s a b c).re = (a.re + (r * b).re + (s * c).re) / 3 := by
  simp [mean, Complex.div_ofNat_re]

private theorem mean_im (r s a b c : ℂ) :
    (mean r s a b c).im = (a.im + (r * b).im + (s * c).im) / 3 := by
  simp [mean, Complex.div_ofNat_im]

private theorem magnitude_eq (z : ℂ) : magnitude realTrig (z.re, z.im) = ‖z‖ := by
  rw [Complex.norm_def, Complex.normSq_apply]
  rfl

section Components

variable (mag angle : ℕ → ℝ)

private theorem calcSeqComponent_eq :
    calcSeqComponent realTrig mag angle =
      ([magnitude realTrig ((computed mag angle 0).re, (computed mag angle 0).im),
        argument realTrig ((computed mag angle 0).re, (computed mag angle 0).im),
        magnitude realTrig ((computed mag angle 1).re, (computed mag angle 1).im),
        argument realTrig ((computed mag angle 1).re, (computed mag angle 1).im),
        magnitude realTrig ((computed mag angle 2).re, (computed mag angle 2).im),
        argument realTrig ((computed mag angle 2).re, (computed mag angle 2).im)].getD · 0) := by
  simp only [computed, zeroSeq, mean_re, mean_im, one_mul, phase, turn120, turn240, turn_phasor,
    phasor_re, phasor_im]
  rfl

private theorem seq_norm {k : ℕ} (small : k < 3) :
    calcSeqComponent realTrig mag angle (2 * k) = ‖computed mag angle k‖ := by
  rw [calcSeqComponent_eq]
  have place : k = 0 ∨ k = 1 ∨ k = 2 := by omega
  rcases place with rfl | rfl | rfl <;> exact magnitude_eq _

private theorem seq_argument {k : ℕ} (small : k < 3) :
    calcSeqComponent realTrig mag angle (2 * k + 1) =
      argument realTrig ((computed mag angle k).re, (computed mag angle k).im) := by
  rw [calcSeqComponent_eq]
  have place : k = 0 ∨ k = 1 ∨ k = 2 := by omega
  rcases place with rfl | rfl | rfl <;> rfl

end Components

private theorem phasor_degrees (m t : ℝ) :
    phasor m (radians realTrig (degrees realTrig t)) = phasor m t := by
  have scale : Real.pi / 180 ≠ 0 := by positivity
  change phasor m ((t / (Real.pi / 180) + if t / (Real.pi / 180) < 0 then 360 else 0) *
    (Real.pi / 180)) = phasor m t
  rw [add_mul, div_mul_cancel₀ _ scale]
  split
  · have whole : t + 360 * (Real.pi / 180) = t + 2 * Real.pi := by ring
    rw [whole, phasor, phasor, Complex.ofReal_add, add_mul, Complex.exp_add]
    have full : exp (((2 * Real.pi : ℝ) : ℂ) * I) = 1 := by
      push_cast
      exact Complex.exp_two_pi_mul_I
    rw [full, mul_one]
  · rw [zero_mul, add_zero]

/-- Magnitude and angle give the component back in the right half plane alone: the angle is that of
a quotient, without its quadrant. -/
private theorem polar_iff (z : ℂ) :
    phasor ‖z‖ (radians realTrig (argument realTrig (z.re, z.im))) = z ↔ 0 < z.re ∨ z = 0 := by
  have polar (u : ℂ) : phasor ‖u‖ (Complex.arg u) = u := Complex.norm_mul_exp_arg_mul_I u
  rw [argument, phasor_degrees]
  dsimp only
  change phasor ‖z‖ (if z.re = 0 then 0 else Real.arctan (z.im / z.re)) = z ↔ _
  rcases lt_trichotomy z.re 0 with left | up | right
  · have other : z ≠ 0 := by
      rintro rfl
      exact lt_irrefl _ left
    rw [if_neg left.ne, arctan_of_left left, ← norm_neg z, polar (-z)]
    have apart : ¬ (-z = z) := fun same => other (by linear_combination (-(1 : ℂ) / 2) * same)
    simp [apart, other, left.le]
  · rw [if_pos up]
    have flat : phasor ‖z‖ 0 = (‖z‖ : ℂ) := by simp [phasor]
    rw [flat]
    constructor
    · intro same
      have part : ‖z‖ = z.re := congrArg Complex.re same
      exact .inr (norm_eq_zero.mp (part.trans up))
    · rintro (right | rfl)
      · exact absurd right (by rw [up]; exact lt_irrefl _)
      · simp
  · rw [if_neg right.ne', arctan_of_right right, polar z]
    simp [right]

private theorem norm_phase (mag angle : ℕ → ℝ) (i : ℕ) : ‖phase mag angle i‖ = |mag i| :=
  norm_phasor _ _

private theorem computed_positive (mag angle : ℕ → ℝ) :
    ‖computed mag angle 1 -
        positiveSeq third (phase mag angle 0) (phase mag angle 1) (phase mag angle 2)‖ ≤
      4 / 10 ^ 8 * (|mag 1| + |mag 2|) := by
  refine (norm_mean_sub ..).trans ?_
  rw [norm_phase, norm_phase]
  have first := mul_le_mul_of_nonneg_right norm_turn120_sub (abs_nonneg (mag 1))
  have second := mul_le_mul_of_nonneg_right norm_turn240_sub (abs_nonneg (mag 2))
  have one := abs_nonneg (mag 1)
  linarith

private theorem computed_negative (mag angle : ℕ → ℝ) :
    ‖computed mag angle 2 -
        negativeSeq third (phase mag angle 0) (phase mag angle 1) (phase mag angle 2)‖ ≤
      4 / 10 ^ 8 * (|mag 1| + |mag 2|) := by
  refine (norm_mean_sub ..).trans ?_
  rw [norm_phase, norm_phase]
  have first := mul_le_mul_of_nonneg_right norm_turn240_sub (abs_nonneg (mag 1))
  have second := mul_le_mul_of_nonneg_right norm_turn120_sub (abs_nonneg (mag 2))
  have two := abs_nonneg (mag 2)
  linarith

/-- The magnitudes are those of the components, the constants' rounding apart; magnitude and angle
give a component back exactly in the right half plane. -/
structure Components (mag angle seq : ℕ → ℝ) : Prop where
  zero : seq 0 = ‖zeroSeq (phase mag angle 0) (phase mag angle 1) (phase mag angle 2)‖
  positive : |seq 2 -
      ‖positiveSeq third (phase mag angle 0) (phase mag angle 1) (phase mag angle 2)‖| ≤
    4 / 10 ^ 8 * (|mag 1| + |mag 2|)
  negative : |seq 4 -
      ‖negativeSeq third (phase mag angle 0) (phase mag angle 1) (phase mag angle 2)‖| ≤
    4 / 10 ^ 8 * (|mag 1| + |mag 2|)
  polar : ∀ k < 3, phasor (seq (2 * k)) (radians realTrig (seq (2 * k + 1))) =
    computed mag angle k ↔ 0 < (computed mag angle k).re ∨ computed mag angle k = 0

theorem sequence_components (mag angle : ℕ → ℝ) :
    Components mag angle (calcSeqComponent realTrig mag angle) where
  zero := seq_norm mag angle (k := 0) (by decide)
  positive := by
    have size : calcSeqComponent realTrig mag angle 2 = ‖computed mag angle 1‖ :=
      seq_norm mag angle (k := 1) (by decide)
    rw [size]
    exact (abs_norm_sub_norm_le _ _).trans (computed_positive mag angle)
  negative := by
    have size : calcSeqComponent realTrig mag angle 4 = ‖computed mag angle 2‖ :=
      seq_norm mag angle (k := 2) (by decide)
    rw [size]
    exact (abs_norm_sub_norm_le _ _).trans (computed_negative mag angle)
  polar k small := by
    rw [seq_norm mag angle small, seq_argument mag angle small]
    exact polar_iff _

noncomputable def figures (mag angle : ℕ → ℝ) : ℝ × ℝ :=
  calcUnbalance (calcSeqComponent realTrig mag angle)

/-- Three equal phases a third of a turn apart, in order. -/
structure Balanced (mag angle : ℕ → ℝ) : Prop where
  positive : 0 < mag 0
  second : mag 1 = mag 0
  third : mag 2 = mag 0
  turned : ∃ k l : ℤ, angle 1 = angle 0 + 240 + 360 * k ∧ angle 2 = angle 0 + 120 + 360 * l

private theorem calcUnbalance_range {seq : ℕ → ℝ} (signs : 0 ≤ seq 0 ∧ 0 ≤ seq 2 ∧ 0 ≤ seq 4) :
    0 ≤ (calcUnbalance seq).1 ∧ (calcUnbalance seq).1 ≤ 100 ∧ 0 ≤ (calcUnbalance seq).2 ∧
      (calcUnbalance seq).2 ≤ 300 := by
  obtain ⟨zero, positive, negative⟩ := signs
  have un := div_nonneg negative positive
  have uo := div_nonneg zero positive
  unfold calcUnbalance
  split
  · norm_num
  · dsimp only
    refine ⟨?_, ?_, ?_, ?_⟩ <;> split <;> linarith

private theorem seq_signs (mag angle : ℕ → ℝ) :
    0 ≤ calcSeqComponent realTrig mag angle 0 ∧ 0 ≤ calcSeqComponent realTrig mag angle 2 ∧
      0 ≤ calcSeqComponent realTrig mag angle 4 := by
  refine ⟨?_, ?_, ?_⟩
  · exact (norm_nonneg _).trans_eq (seq_norm mag angle (k := 0) (by decide)).symm
  · exact (norm_nonneg _).trans_eq (seq_norm mag angle (k := 1) (by decide)).symm
  · exact (norm_nonneg _).trans_eq (seq_norm mag angle (k := 2) (by decide)).symm

private theorem figures_congr {mag angle mag' angle' : ℕ → ℝ} {c : ℝ} (factor : c ≠ 0)
    (same : ∀ k < 3, ‖computed mag' angle' k‖ = c * ‖computed mag angle k‖) :
    figures mag' angle' = figures mag angle := by
  have size {k : ℕ} (small : k < 3) : calcSeqComponent realTrig mag' angle' (2 * k) =
      c * calcSeqComponent realTrig mag angle (2 * k) := by
    rw [seq_norm mag' angle' small, seq_norm mag angle small, same k small]
  have zero := size (k := 0) (by decide)
  have positive := size (k := 1) (by decide)
  have negative := size (k := 2) (by decide)
  unfold figures calcUnbalance
  simp only [Nat.mul_zero, Nat.mul_one, Nat.reduceMul] at zero positive negative
  rw [zero, positive, negative, mul_div_mul_left _ _ factor, mul_div_mul_left _ _ factor]
  simp only [mul_eq_zero, factor, false_or]

private theorem computed_turned (mag angle : ℕ → ℝ) (c t : ℝ) (k : ℕ) :
    computed (fun i => c * mag i) (fun i => angle i + t) k =
      c * exp (radians realTrig t * I) * computed mag angle k := by
  have each (i : ℕ) : phase (fun i => c * mag i) (fun i => angle i + t) i =
      c * exp (radians realTrig t * I) * phase mag angle i := by
    rw [phase, phase, phasor, phasor]
    have sum : radians realTrig (angle i + t) = radians realTrig (angle i) + radians realTrig t :=
      add_mul ..
    rw [sum]
    push_cast
    rw [add_mul, Complex.exp_add]
    ring
  unfold computed zeroSeq mean
  simp only [each]
  split <;> ring

private theorem norm_computed_turned (mag angle : ℕ → ℝ) {c : ℝ} (positive : 0 < c) (t : ℝ)
    (k : ℕ) :
    ‖computed (fun i => c * mag i) (fun i => angle i + t) k‖ = c * ‖computed mag angle k‖ := by
  rw [computed_turned, norm_mul, norm_mul, norm_turn, mul_one, Complex.norm_real,
    Real.norm_of_nonneg positive.le]

private theorem phasor_degree_turns (m a d : ℝ) (k : ℤ) :
    phasor m (radians realTrig (a + d + 360 * k)) =
      exp ((d * (Real.pi / 180) : ℝ) * I) * phasor m (radians realTrig a) := by
  have sum : radians realTrig (a + d + 360 * k) =
      d * (Real.pi / 180) + radians realTrig a + k * (2 * Real.pi) := by
    change (a + d + 360 * k) * (Real.pi / 180) = d * (Real.pi / 180) + a * (Real.pi / 180) + _
    ring
  have whole : exp (((k * (2 * Real.pi) : ℝ) : ℂ) * I) = 1 := by
    push_cast
    rw [mul_assoc]
    exact Complex.exp_int_mul_two_pi_mul_I k
  rw [turn_phasor, sum, phasor, Complex.ofReal_add _ (k * (2 * Real.pi)), add_mul, Complex.exp_add,
    whole, mul_one]
  rfl

private theorem phases_balanced {mag angle : ℕ → ℝ} (balanced : Balanced mag angle) :
    phase mag angle 1 = third ^ 2 * phase mag angle 0 ∧
      phase mag angle 2 = third * phase mag angle 0 := by
  obtain ⟨-, second, last, k, l, first, other⟩ := balanced
  refine ⟨?_, ?_⟩
  · rw [phase, first, second, phasor_degree_turns, third_sq]
    congr 4
    ring
  · rw [phase, other, last, phasor_degree_turns, Sequence.third]
    congr 4
    ring

private theorem figures_balanced {mag angle : ℕ → ℝ} (balanced : Balanced mag angle) :
    (figures mag angle).1 ≤ 1 / 10 ^ 5 ∧ (figures mag angle).2 = 0 := by
  have large := balanced.positive
  obtain ⟨first, other⟩ := phases_balanced balanced
  obtain ⟨none, absent⟩ := mean_balanced third_root (phase mag angle 0)
  rw [← first, ← other] at none absent
  have whole : positiveSeq third (phase mag angle 0) (phase mag angle 1) (phase mag angle 2) =
      phase mag angle 0 := by
    have cube : third ^ 3 = 1 := third_root.pow_eq_one
    rw [first, other, positiveSeq, mean]
    linear_combination (2 * phase mag angle 0 / 3) * cube
  have parts := sequence_components mag angle
  have size : |mag 1| + |mag 2| = 2 * mag 0 := by
    rw [balanced.second, balanced.third, abs_of_pos large]
    ring
  have zero := parts.zero
  have positive := parts.positive
  have negative := parts.negative
  rw [none, norm_zero] at zero
  rw [absent, norm_zero, sub_zero, size] at negative
  rw [whole, norm_phase, abs_of_pos large, size] at positive
  unfold figures calcUnbalance
  generalize calcSeqComponent realTrig mag angle = seq at zero positive negative ⊢
  obtain ⟨under, -⟩ := abs_le.mp positive
  obtain ⟨-, above⟩ := abs_le.mp negative
  have main : 0 < seq 2 := by linarith
  have ratio : seq 4 / seq 2 ≤ 1 / 10 ^ 7 := by
    rw [div_le_iff₀ main]
    linarith
  have below : ¬ 1 < seq 4 / seq 2 := by
    rw [not_lt]
    exact ratio.trans (by norm_num)
  rw [if_neg main.ne']
  dsimp only
  rw [if_neg below, zero, zero_div, if_neg (by norm_num), zero_mul]
  exact ⟨by linarith, rfl⟩

private theorem calcUnbalance_ratio {seq : ℕ → ℝ} (small : (calcUnbalance seq).1 < 100)
    (low : (calcUnbalance seq).2 < 300) (there : seq 2 ≠ 0) :
    seq 4 = (calcUnbalance seq).1 / 100 * seq 2 ∧ seq 0 = (calcUnbalance seq).2 / 100 * seq 2 := by
  unfold calcUnbalance at small low ⊢
  rw [if_neg there] at small low ⊢
  dsimp only at small low ⊢
  split at small
  · exact absurd small (lt_irrefl _)
  · next un =>
    split at low
    · exact absurd low (lt_irrefl _)
    · next uo =>
      rw [if_neg un, if_neg uo]
      constructor <;> field_simp

private theorem figures_close {mag angle : ℕ → ℝ} (small : (figures mag angle).1 < 100)
    (low : (figures mag angle).2 < 300)
    (there : calcSeqComponent realTrig mag angle 2 ≠ 0) :
    let size := calcSeqComponent realTrig mag angle 2
    let distance := 2 * ((figures mag angle).1 + (figures mag angle).2) / 100 * size +
      8 / 10 ^ 8 * (|mag 1| + |mag 2|)
    ‖phase mag angle 1 - third ^ 2 * phase mag angle 0‖ ≤ distance ∧
      ‖phase mag angle 2 - third * phase mag angle 0‖ ≤ distance := by
  intro size distance
  obtain ⟨negative, zero⟩ := calcUnbalance_ratio small low there
  have parts := sequence_components mag angle
  have near := (abs_le.mp parts.negative).1
  have sum : 2 * (‖zeroSeq (phase mag angle 0) (phase mag angle 1) (phase mag angle 2)‖ +
      ‖negativeSeq third (phase mag angle 0) (phase mag angle 1) (phase mag angle 2)‖) ≤
      distance := by
    rw [← parts.zero, zero]
    rw [negative] at near
    change _ ≤ 2 * ((calcUnbalance _).1 + (calcUnbalance _).2) / 100 * _ + _
    linarith
  exact ⟨(norm_second third third_root ..).trans sum, (norm_third third third_root ..).trans sum⟩

/-- The wirings whose unbalance comes from the components. -/
def ThreePhase (w : WiringMode) : Prop := is1LN1CT w = false ∧ w ≠ wm1LL2CT

private theorem unbalance_three {w : WiringMode} (three : ThreePhase w) (U Uangle : ℕ → ℝ) :
    unbalance realTrig w U Uangle = some (figures U Uangle) := by
  rw [unbalance, three.1, if_neg Bool.false_ne_true, if_neg three.2]
  rfl

private theorem fabs_eq (x : ℝ) : fabs x = |x| := by
  rw [fabs]
  split
  · next negative => exact (abs_of_neg negative).symm
  · next other => exact (abs_of_nonneg (not_lt.mp other)).symm

private theorem unbalance_two (U Uangle : ℕ → ℝ) :
    unbalance realTrig wm1LL2CT U Uangle = if U 3 = 0 then none else
      some (|U 3 - U 0| / U 3 * 100, |U 3 - U 0| / U 3 * 100) := by
  rw [unbalance, if_neg (by decide), if_pos rfl, fabs_eq, quotient]
  split <;> rfl

/-- Two magnitudes with their average at position 3. -/
structure TwoElements (U : ℕ → ℝ) : Prop where
  first : 0 ≤ U 0
  last : 0 ≤ U 2
  average : U 3 = (U 0 + U 2) / 2

/-- The figures keep their ranges in every wiring and depend neither on the scale nor on the
reference angle, and only two elements without a load have none; of three phases they are nothing for
a balanced set, and bound how far a set with a positive sequence is from a balanced one. -/
structure Sound (w : WiringMode) (U Uangle : ℕ → ℝ) : Prop where
  range : ∀ u ∈ unbalance realTrig w U Uangle, 0 ≤ u.1 ∧ u.1 ≤ 100 ∧ 0 ≤ u.2 ∧ u.2 ≤ 300
  reported : unbalance realTrig w U Uangle = none ↔ w = wm1LL2CT ∧ U 0 = 0 ∧ U 2 = 0
  scaled : ∀ c > 0, ∀ t, unbalance realTrig w (fun i => c * U i) (fun i => Uangle i + t) =
    unbalance realTrig w U Uangle
  balanced : ThreePhase w → Balanced U Uangle →
    ∀ u ∈ unbalance realTrig w U Uangle, u.1 ≤ 1 / 10 ^ 5 ∧ u.2 = 0
  absent : ThreePhase w → calcSeqComponent realTrig U Uangle 2 = 0 →
    unbalance realTrig w U Uangle = some (0, 0)
  close : ThreePhase w → calcSeqComponent realTrig U Uangle 2 ≠ 0 →
    ∀ u ∈ unbalance realTrig w U Uangle, u.1 < 100 → u.2 < 300 →
      let distance := 2 * (u.1 + u.2) / 100 * calcSeqComponent realTrig U Uangle 2 +
        8 / 10 ^ 8 * (|U 1| + |U 2|)
      ‖phase U Uangle 1 - third ^ 2 * phase U Uangle 0‖ ≤ distance ∧
        ‖phase U Uangle 2 - third * phase U Uangle 0‖ ≤ distance

private theorem two_range {U : ℕ → ℝ} (two : TwoElements U) (load : U 3 ≠ 0) :
    0 ≤ |U 3 - U 0| / U 3 * 100 ∧ |U 3 - U 0| / U 3 * 100 ≤ 100 := by
  obtain ⟨first, last, average⟩ := two
  have positive : 0 < U 3 := lt_of_le_of_ne (by linarith) load.symm
  have less : |U 3 - U 0| ≤ U 3 := by
    rw [abs_le]
    constructor <;> linarith
  have ratio : |U 3 - U 0| / U 3 ≤ 1 := (div_le_one positive).mpr less
  exact ⟨by positivity, by linarith⟩

private theorem no_load_iff {U : ℕ → ℝ} (two : TwoElements U) : U 3 = 0 ↔ U 0 = 0 ∧ U 2 = 0 := by
  obtain ⟨first, last, average⟩ := two
  constructor
  · intro none
    constructor <;> linarith
  · rintro ⟨one, other⟩
    rw [average, one, other]
    norm_num

theorem unbalance_sound (w : WiringMode) (U Uangle : ℕ → ℝ)
    (two : w = wm1LL2CT → TwoElements U) : Sound w U Uangle := by
  have kinds : is1LN1CT w = true ∧ w ≠ wm1LL2CT ∨ w = wm1LL2CT ∨ ThreePhase w := by
    by_cases pair : w = wm1LL2CT
    · exact .inr (.inl pair)
    · cases single : is1LN1CT w with
      | true => exact .inl ⟨rfl, pair⟩
      | false => exact .inr (.inr ⟨single, pair⟩)
  constructor
  · intro u given
    rcases kinds with ⟨single, -⟩ | rfl | three
    · rw [unbalance, if_pos single, Option.mem_some_iff] at given
      rw [← given]
      norm_num
    · rw [unbalance_two] at given
      split at given
      · cases given
      · next load =>
        obtain ⟨low, high⟩ := two_range (two rfl) load
        rw [← Option.mem_some_iff.mp given]
        exact ⟨low, high, low, by linarith⟩
    · rw [unbalance_three three, Option.mem_some_iff] at given
      rw [← given]
      exact calcUnbalance_range (seq_signs U Uangle)
  · rcases kinds with ⟨single, other⟩ | rfl | three
    · rw [unbalance, if_pos single]
      simp [other]
    · rw [unbalance_two, ← no_load_iff (two rfl)]
      simp
    · rw [unbalance_three three]
      simp [three.2]
  · intro c positive t
    rcases kinds with ⟨single, -⟩ | rfl | three
    · rw [unbalance, unbalance, if_pos single, if_pos single]
    · rw [unbalance_two, unbalance_two, ← mul_sub, abs_mul, abs_of_pos positive,
        mul_div_mul_left _ _ positive.ne']
      simp only [mul_eq_zero, positive.ne', false_or]
    · rw [unbalance_three three, unbalance_three three]
      exact congrArg some
        (figures_congr positive.ne' fun k _ => norm_computed_turned U Uangle positive t k)
  · intro three balanced u given
    rw [unbalance_three three, Option.mem_some_iff] at given
    rw [← given]
    exact figures_balanced balanced
  · intro three absent
    rw [unbalance_three three, figures, calcUnbalance, if_pos absent]
  · intro three there u given small low
    rw [unbalance_three three, Option.mem_some_iff] at given
    rw [← given] at small low ⊢
    exact figures_close small low there

/-- Two elements of 100 V and 120 V. -/
theorem unbalance_sound_pair : Sound wm1LL2CT (fun i => [100, 0, 120, 110].getD i 0) fun _ => 0 :=
  unbalance_sound wm1LL2CT _ _ fun _ => ⟨by norm_num, by norm_num, by norm_num⟩

end SV300.Rms.Sequence
