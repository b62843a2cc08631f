/- SV300/Library/Rounded
   digest: Rounded arithmetic on rationals with infinities, and bounds that rounding keeps. -/

import Mathlib.Algebra.Order.Floor.Defs
import Mathlib.Data.Rat.Floor
import Mathlib.Tactic.Linarith

set_option autoImplicit false
set_option relaxedAutoImplicit false

namespace SV300.Library.Rounded

/-- A rounding to `p` bits of precision: monotone, and exact on the integers of `p` bits.  The range
of exponents is not bounded. -/
structure Rounding (p : Nat) where
  round : Rat → Rat
  mono : Monotone round
  exact : ∀ n : Int, |n| ≤ 2 ^ p → round n = n

def exact (p : Nat) : Rounding p where
  round x := x
  mono := monotone_id
  exact _ _ := rfl

variable {p : Nat} (R : Rounding p)

private theorem Rounding.le_round {n : Int} (small : |n| ≤ 2 ^ p) {x : Rat} (le : (n : Rat) ≤ x) :
    (n : Rat) ≤ R.round x := by
  rw [← R.exact n small]
  exact R.mono le

private theorem Rounding.round_le {n : Int} (small : |n| ≤ 2 ^ p) {x : Rat} (le : x ≤ (n : Rat)) :
    R.round x ≤ (n : Rat) := by
  rw [← R.exact n small]
  exact R.mono le

/-- The result of an operation: a number, an infinity or not a number.  Zero has no sign. -/
inductive Value
  | finite (x : Rat)
  | infinite (negative : Bool)
  | nan
  deriving DecidableEq

namespace Value

def neg : Value → Value
  | finite x => finite (-x)
  | infinite s => infinite (!s)
  | nan => nan

def add : Value → Value → Value
  | finite x, finite y => finite (x + y)
  | infinite s, infinite t => if s = t then infinite s else nan
  | infinite s, finite _ => infinite s
  | finite _, infinite t => infinite t
  | nan, _ => nan
  | _, nan => nan

def mul : Value → Value → Value
  | finite x, finite y => finite (x * y)
  | infinite s, infinite t => infinite (s ^^ t)
  | infinite s, finite y => if y = 0 then nan else infinite (s ^^ decide (y < 0))
  | finite x, infinite t => if x = 0 then nan else infinite (t ^^ decide (x < 0))
  | nan, _ => nan
  | _, nan => nan

def div : Value → Value → Value
  | finite x, finite y =>
    if y = 0 then if x = 0 then nan else infinite (decide (x < 0)) else finite (x / y)
  | infinite s, finite y => infinite (s ^^ decide (y < 0))
  | finite _, infinite _ => finite 0
  | infinite _, infinite _ => nan
  | nan, _ => nan
  | _, nan => nan

/-- Whether one value is less than another; nothing is less or greater than what is not a number. -/
def lt : Value → Value → Bool
  | finite x, finite y => decide (x < y)
  | infinite s, infinite t => s && !t
  | infinite s, finite _ => s
  | finite _, infinite t => !t
  | nan, _ => false
  | _, nan => false

/-- Whether one value is at most another; nothing is, or is at most, what is not a number. -/
def le : Value → Value → Bool
  | nan, _ => false
  | _, nan => false
  | x, y => !lt y x

def round : Value → Value
  | finite x => finite (R.round x)
  | v => v

/-- The conversion to an integer within bounds: truncation, saturation, and zero for what is not a
number. -/
def toInt (low high : Int) : Value → Int
  | finite x => max low (min high (if 0 ≤ x then ⌊x⌋ else ⌈x⌉))
  | infinite s => if s then low else high
  | nan => 0

end Value

/-- The rounded quotient of two rounded counts, one at most the other, lies between 0 and 1. -/
theorem share_between {m n : Nat} (pos : 0 < n) (le : m ≤ n) :
    ∃ x, ((Value.finite (R.round m)).div (.finite (R.round n))).round R = .finite x ∧
      0 ≤ x ∧ x ≤ 1 := by
  have one : |(1 : Int)| ≤ 2 ^ p := by
    rw [abs_one]
    exact one_le_pow₀ (by norm_num)
  have zero : |(0 : Int)| ≤ 2 ^ p := by
    rw [abs_zero]
    positivity
  have divisor : (1 : Rat) ≤ R.round n := by
    have first : ((1 : Int) : Rat) ≤ (n : Rat) := by exact_mod_cast pos
    exact_mod_cast R.le_round one first
  have dividend : (0 : Rat) ≤ R.round m := by
    have first : ((0 : Int) : Rat) ≤ (m : Rat) := by exact_mod_cast Nat.zero_le m
    exact_mod_cast R.le_round zero first
  have ordered : R.round m ≤ R.round n := R.mono (by exact_mod_cast le)
  have low : ((0 : Int) : Rat) ≤ R.round m / R.round n := by
    rw [Int.cast_zero]
    exact div_nonneg dividend (by linarith)
  have high : R.round m / R.round n ≤ ((1 : Int) : Rat) := by
    rw [Int.cast_one]
    exact (div_le_one (by linarith)).mpr ordered
  refine ⟨R.round (R.round m / R.round n), ?_, ?_, ?_⟩
  · have apart : R.round n ≠ 0 := by linarith
    rw [Value.div, if_neg apart, Value.round]
  · exact_mod_cast R.le_round zero low
  · exact_mod_cast R.round_le one high

/-- What is left of a share, scaled, rounded and truncated, lies between 0 and the scale. -/
theorem scaled_rest_between (scale : Nat) {x : Rat} (low : 0 ≤ x) (high : x ≤ 1)
    (small : (scale : Int) ≤ 2 ^ p) {least most : Int} (under : least ≤ 0) (top : scale ≤ most) :
    0 ≤ ((((Value.finite (R.round (1 : Int))).add (Value.finite x).neg).round R).mul
        (.finite (R.round (scale : Int))) |>.round R).toInt least most ∧
      ((((Value.finite (R.round (1 : Int))).add (Value.finite x).neg).round R).mul
        (.finite (R.round (scale : Int))) |>.round R).toInt least most ≤ scale := by
  have one : |(1 : Int)| ≤ 2 ^ p := by
    rw [abs_one]
    exact one_le_pow₀ (by norm_num)
  have zero : |(0 : Int)| ≤ 2 ^ p := by
    rw [abs_zero]
    positivity
  have wide : |(scale : Int)| ≤ 2 ^ p := by rwa [Nat.abs_cast]
  dsimp only [Value.add, Value.neg, Value.round, Value.mul, Value.toInt]
  rw [R.exact 1 one, R.exact scale wide]
  have rest : 0 ≤ R.round (((1 : Int) : Rat) + -x) ∧ R.round (((1 : Int) : Rat) + -x) ≤ 1 := by
    have least : ((0 : Int) : Rat) ≤ ((1 : Int) : Rat) + -x := by push_cast; linarith
    have most : ((1 : Int) : Rat) + -x ≤ ((1 : Int) : Rat) := by linarith
    refine ⟨?_, ?_⟩
    · exact_mod_cast R.le_round zero least
    · exact_mod_cast R.round_le one most
  generalize R.round (((1 : Int) : Rat) + -x) = y at rest
  have scaled : (0 : Rat) ≤ (scale : Int) := by exact_mod_cast Nat.zero_le scale
  have product : 0 ≤ R.round (y * (scale : Int)) ∧ R.round (y * (scale : Int)) ≤ (scale : Int) := by
    have least : ((0 : Int) : Rat) ≤ y * (scale : Int) := by
      rw [Int.cast_zero]
      exact mul_nonneg rest.1 scaled
    have most : y * (scale : Int) ≤ ((scale : Int) : Rat) := mul_le_of_le_one_left scaled rest.2
    refine ⟨?_, R.round_le wide most⟩
    exact_mod_cast R.le_round zero least
  generalize R.round (y * (scale : Int)) = z at product
  rw [if_pos product.1]
  have floor : 0 ≤ ⌊z⌋ ∧ ⌊z⌋ ≤ scale := by
    refine ⟨Int.floor_nonneg.mpr product.1, ?_⟩
    have upper : ((⌊z⌋ : Int) : Rat) ≤ (scale : Int) := le_trans (Int.floor_le z) product.2
    exact_mod_cast upper
  omega

end SV300.Library.Rounded
