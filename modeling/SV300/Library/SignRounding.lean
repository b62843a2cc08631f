/- SV300/Library/SignRounding
   digest: Roundings that keep signs, and what they keep of differences, quotients and products. -/

import Mathlib.Tactic.Positivity
import SV300.Library.Rounded

set_option autoImplicit false
set_option relaxedAutoImplicit false

namespace SV300.Library.SignRounding

open SV300.Library.Rounded

/-- A rounding that treats both signs alike and takes no other number to zero. -/
structure Signed (p : Nat) extends Rounding p where
  odd : ∀ x, round (-x) = -round x
  pos : ∀ x, 0 < x → 0 < round x

def exactly (p : Nat) : Signed p := ⟨exact p, fun _ => rfl, fun _ pos => pos⟩

variable {p : Nat} (S : Signed p)

private theorem Signed.pos_iff (x : Rat) : 0 < S.round x ↔ 0 < x := by
  refine ⟨fun pos => ?_, S.pos x⟩
  rcases lt_trichotomy 0 x with above | zero | below
  · exact above
  · rw [← zero] at pos
    have same := S.odd 0
    rw [neg_zero] at same
    linarith
  · have other := S.pos (-x) (by linarith)
    rw [S.odd] at other
    linarith

def Positive (v : Value) : Prop := (Value.finite 0).lt v = true

instance (v : Value) : Decidable (Positive v) := inferInstanceAs (Decidable (_ = _))

theorem positive_finite {x : Rat} : Positive (.finite x) ↔ 0 < x := decide_eq_true_iff

theorem ne_zero_of_positive {v : Value} (pos : Positive v) : v ≠ .finite 0 := by
  rintro rfl
  exact absurd pos (by decide)

theorem lt_asymm {v w : Value} (less : v.lt w = true) : ¬ w.lt v = true := by
  cases v with
  | finite x =>
    cases w with
    | finite y =>
      simp only [Value.lt, decide_eq_true_eq] at less ⊢
      exact less.asymm
    | infinite s => cases s <;> simp [Value.lt] at less ⊢
    | nan => cases less
  | infinite s =>
    cases w with
    | finite y => cases s <;> simp [Value.lt] at less ⊢
    | infinite t => cases s <;> cases t <;> simp [Value.lt] at less ⊢
    | nan => cases less
  | nan => cases w <;> cases less

theorem lt_zero_iff (v : Value) : v.lt (.finite 0) = true ↔ Positive v.neg := by
  cases v with
  | finite x => simp [Value.lt, Value.neg, Positive]
  | infinite s => cases s <;> decide
  | nan => decide

def sub (v w : Value) : Value := (v.add w.neg).round S.toRounding

def quot (v w : Value) : Value := (v.div w).round S.toRounding

def prod (v w : Value) : Value := (v.mul w).round S.toRounding

private theorem round_neg (v : Value) : v.neg.round S.toRounding = (v.round S.toRounding).neg := by
  cases v with
  | finite x => exact congrArg Value.finite (S.odd x)
  | infinite s => rfl
  | nan => rfl

private theorem positive_round (v : Value) : Positive (v.round S.toRounding) ↔ Positive v := by
  cases v with
  | finite x =>
    rw [Value.round, positive_finite, positive_finite]
    exact S.pos_iff x
  | infinite s => exact Iff.rfl
  | nan => exact Iff.rfl

theorem sub_swap (v : Value) (n : Rat) : sub S (.finite n) v = (sub S v (.finite n)).neg := by
  rw [sub, sub, ← round_neg]
  congr 1
  cases v with
  | finite x =>
    simp only [Value.neg, Value.add]
    congr 1
    ring
  | infinite s => rfl
  | nan => rfl

theorem positive_sub (v : Value) (n : Rat) :
    Positive (sub S v (.finite n)) ↔ (Value.finite n).lt v = true := by
  rw [sub, positive_round]
  cases v with
  | finite x => simp [Value.neg, Value.add, Value.lt, Positive]
  | infinite s => cases s <;> simp [Value.neg, Value.add, Value.lt, Positive]
  | nan => exact iff_of_false nofun nofun

theorem positive_sub_from (v : Value) (n : Rat) :
    Positive (sub S (.finite n) v) ↔ v.lt (.finite n) = true := by
  rw [sub, positive_round]
  cases v with
  | finite x => simp [Value.neg, Value.add, Value.lt, Positive]
  | infinite s => cases s <;> simp [Value.neg, Value.add, Value.lt, Positive]
  | nan => exact iff_of_false nofun nofun

section
variable {d : Rat} (pos : 0 < d)
include pos

theorem quot_neg (v : Value) : quot S v.neg (.finite d) = (quot S v (.finite d)).neg := by
  rw [quot, quot, ← round_neg]
  congr 1
  cases v with
  | finite x =>
    simp only [Value.neg, Value.div, if_neg pos.ne', neg_div]
  | infinite s => cases s <;> simp [Value.neg, Value.div, not_lt.mpr pos.le]
  | nan => rfl

theorem prod_neg (v : Value) : prod S v.neg (.finite d) = (prod S v (.finite d)).neg := by
  rw [prod, prod, ← round_neg]
  congr 1
  cases v with
  | finite x => simp only [Value.neg, Value.mul, neg_mul]
  | infinite s => cases s <;> simp [Value.neg, Value.mul, pos.ne', not_lt.mpr pos.le]
  | nan => rfl

theorem positive_quot (v : Value) : Positive (quot S v (.finite d)) ↔ Positive v := by
  rw [quot, positive_round]
  cases v with
  | finite x =>
    rw [Value.div, if_neg pos.ne', positive_finite, positive_finite]
    exact div_pos_iff_of_pos_right pos
  | infinite s => cases s <;> simp [Value.div, Positive, Value.lt, not_lt.mpr pos.le]
  | nan => exact Iff.rfl

theorem positive_prod (v : Value) : Positive (prod S v (.finite d)) ↔ Positive v := by
  rw [prod, positive_round]
  cases v with
  | finite x =>
    rw [Value.mul, positive_finite, positive_finite]
    exact mul_pos_iff_of_pos_right pos
  | infinite s => cases s <;> simp [Value.mul, Positive, Value.lt, pos.ne', not_lt.mpr pos.le]
  | nan => exact Iff.rfl

end

end SV300.Library.SignRounding
