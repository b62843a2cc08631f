/- SV300/Library/Nearest
   digest: Binary formats: rounding to nearest, ties to even, with overflow, and what it keeps. -/

import Mathlib.Data.Int.Log
import Mathlib.Data.Rat.Floor
import Mathlib.Tactic.Linarith
import Mathlib.Tactic.Ring
import SV300.Library.Binary32
import SV300.Library.Rounded

set_option autoImplicit false
set_option relaxedAutoImplicit false

namespace SV300.Library.Nearest

open SV300.Library.Rounded

def roundEven (x : Rat) : Int :=
  if x - ⌊x⌋ < 1 / 2 then ⌊x⌋
  else if 1 / 2 < x - ⌊x⌋ then ⌊x⌋ + 1
  else if ⌊x⌋ % 2 = 0 then ⌊x⌋ else ⌊x⌋ + 1

private theorem roundEven_intCast (n : Int) : roundEven n = n := by
  have whole : (n : Rat) - ⌊(n : Rat)⌋ < 1 / 2 := by
    rw [Int.floor_intCast, sub_self]
    norm_num
  rw [roundEven, if_pos whole, Int.floor_intCast]

private theorem floor_le_roundEven (x : Rat) : ⌊x⌋ ≤ roundEven x := by
  unfold roundEven
  split_ifs <;> omega

private theorem roundEven_le_floor (x : Rat) : roundEven x ≤ ⌊x⌋ + 1 := by
  unfold roundEven
  split_ifs <;> omega

private theorem roundEven_mono {x y : Rat} (le : x ≤ y) : roundEven x ≤ roundEven y := by
  rcases (Int.floor_mono le).lt_or_eq with below | same
  · have upper := roundEven_le_floor x
    have lower := floor_le_roundEven y
    omega
  · unfold roundEven
    rw [same]
    split_ifs <;> first | omega | linarith

private theorem roundEven_le {x : Rat} {n : Int} (le : x ≤ n) : roundEven x ≤ n := by
  rw [← roundEven_intCast n]
  exact roundEven_mono le

private theorem le_roundEven {x : Rat} {n : Int} (le : (n : Rat) ≤ x) : n ≤ roundEven x := by
  rw [← roundEven_intCast n]
  exact roundEven_mono le

/-- A binary format: the bits of a significand, the exponents of the last place of the smallest
and of the largest numbers. -/
structure Format where
  precision : Nat
  least : Int
  greatest : Int
  positive : 0 < precision

def single : Format := ⟨24, -149, 104, by decide⟩

def double : Format := ⟨53, -1074, 971, by decide⟩

namespace Format

variable (F : Format)

def unit (x : Rat) : Int := max F.least (Int.log 2 |x| + 1 - F.precision)

/-- The nearest number of the format, without a bound on the exponent. -/
def nearest (x : Rat) : Rat := roundEven (x / 2 ^ F.unit x) * 2 ^ F.unit x

def top : Rat := (2 ^ F.precision - 1) * 2 ^ F.greatest

/-- The numbers of the format, without a bound on the exponent. -/
def Holds (x : Rat) : Prop :=
  ∃ m e : Int, |m| < 2 ^ F.precision ∧ F.least ≤ e ∧ x = m * 2 ^ e

/-- A result brought into the format: what is too large becomes infinite. -/
def fit : Value → Value
  | .finite x => if |F.nearest x| ≤ F.top then .finite (F.nearest x) else .infinite (decide (x < 0))
  | v => v

variable {F}

theorem Holds.wider {G : Format} (bits : F.precision ≤ G.precision) (fine : G.least ≤ F.least)
    {x : Rat} (holds : F.Holds x) : G.Holds x := by
  obtain ⟨m, e, small, low, rfl⟩ := holds
  refine ⟨m, e, lt_of_lt_of_le small ?_, fine.trans low, rfl⟩
  exact pow_le_pow_right₀ (by norm_num) bits

theorem power_pos (e : Int) : (0 : Rat) < 2 ^ e := zpow_pos (by norm_num) e

private theorem power_split {a b : Int} (le : a ≤ b) :
    (2 : Rat) ^ b = ((2 ^ (b - a).toNat : Int) : Rat) * 2 ^ a := by
  have whole : ((b - a).toNat : Int) = b - a := Int.toNat_of_nonneg (by omega)
  push_cast
  rw [← zpow_natCast, whole, ← zpow_add₀ (by norm_num)]
  congr 1
  omega

private theorem nearest_le {x : Rat} {e : Int} (n : Int) (coarse : F.unit x ≤ e)
    (le : x ≤ n * 2 ^ e) :
    F.nearest x ≤ n * 2 ^ e := by
  have scale := power_pos (F.unit x)
  have whole : (n : Rat) * 2 ^ e = ((n * 2 ^ (e - F.unit x).toNat : Int) : Rat) * 2 ^ F.unit x := by
    rw [power_split coarse]
    push_cast
    ring
  rw [whole] at le ⊢
  apply mul_le_mul_of_nonneg_right _ scale.le
  exact_mod_cast roundEven_le ((div_le_iff₀ scale).mpr le)

private theorem le_nearest {x : Rat} {e : Int} (n : Int) (coarse : F.unit x ≤ e)
    (le : n * 2 ^ e ≤ x) :
    n * 2 ^ e ≤ F.nearest x := by
  have scale := power_pos (F.unit x)
  have whole : (n : Rat) * 2 ^ e = ((n * 2 ^ (e - F.unit x).toNat : Int) : Rat) * 2 ^ F.unit x := by
    rw [power_split coarse]
    push_cast
    ring
  rw [whole] at le ⊢
  apply mul_le_mul_of_nonneg_right _ scale.le
  exact_mod_cast le_roundEven ((le_div_iff₀ scale).mpr le)

private theorem nearest_nonpos {x : Rat} (le : x ≤ 0) : F.nearest x ≤ 0 := by
  have bound := nearest_le (F := F) (x := x) 0 le_rfl (by rwa [Int.cast_zero, zero_mul])
  rwa [Int.cast_zero, zero_mul] at bound

private theorem nearest_nonneg {x : Rat} (le : 0 ≤ x) : 0 ≤ F.nearest x := by
  have bound := le_nearest (F := F) (x := x) 0 le_rfl (by rwa [Int.cast_zero, zero_mul])
  rwa [Int.cast_zero, zero_mul] at bound

private theorem Holds.nearest {x : Rat} (holds : F.Holds x) : F.nearest x = x := by
  obtain ⟨m, e, small, low, rfl⟩ := holds
  by_cases zero : m = 0
  · rw [zero, Int.cast_zero, zero_mul]
    exact le_antisymm (nearest_nonpos le_rfl) (nearest_nonneg le_rfl)
  have size : |(m : Rat) * 2 ^ e| < 2 ^ (F.precision + e) := by
    rw [abs_mul, abs_of_pos (power_pos e), zpow_add₀ (by norm_num),
      zpow_natCast]
    apply mul_lt_mul_of_pos_right _ (power_pos e)
    exact_mod_cast small
  have apart : 0 < |(m : Rat) * 2 ^ e| := by
    apply abs_pos.mpr
    exact mul_ne_zero (by exact_mod_cast zero) (power_pos e).ne'
  have place : F.unit ((m : Rat) * 2 ^ e) ≤ e := by
    have below := (Int.lt_zpow_iff_log_lt (b := 2) (by norm_num) apart).mp (by exact_mod_cast size)
    unfold unit
    omega
  exact le_antisymm (nearest_le m place le_rfl) (le_nearest m place le_rfl)

private theorem parted {x y : Rat} (finer : F.unit x < F.unit y) (apart : y ≠ 0) :
    ∃ k : Int, F.unit y ≤ k ∧ |x| < 2 ^ k ∧ 2 ^ k ≤ |y| := by
  have positive := F.positive
  have coarse : F.unit y = Int.log 2 |y| + 1 - F.precision := by
    unfold unit at *
    omega
  have below : Int.log 2 |x| + 1 ≤ Int.log 2 |y| := by
    have fine : Int.log 2 |x| + 1 - F.precision ≤ F.unit x := le_max_right _ _
    omega
  refine ⟨Int.log 2 |y|, by omega, ?_, ?_⟩
  · calc |x| < ((2 : Nat) : Rat) ^ (Int.log 2 |x| + 1) := Int.lt_zpow_succ_log_self (by norm_num) _
      _ ≤ 2 ^ Int.log 2 |y| := by
        push_cast
        exact zpow_le_zpow_right₀ (by norm_num) below
  · exact_mod_cast Int.zpow_log_le_self (b := 2) (by norm_num) (abs_pos.mpr apart)

private theorem nearest_mono : Monotone F.nearest := by
  intro x y le
  rcases lt_trichotomy (F.unit x) (F.unit y) with finer | same | coarser
  · by_cases zero : y = 0
    · rw [zero] at le ⊢
      exact (nearest_nonpos le).trans (nearest_nonneg le_rfl)
    · obtain ⟨k, place, small, large⟩ := parted finer zero
      have above : (2 : Rat) ^ k ≤ y := by
        rcases le_abs.mp large with plus | minus
        · exact plus
        · have := neg_abs_le x
          linarith
      have low := nearest_le (F := F) (x := x) (e := k) 1 (by omega)
        (by rw [Int.cast_one, one_mul]; exact ((le_abs_self x).trans_lt small).le)
      exact low.trans (le_nearest 1 place (by rwa [Int.cast_one, one_mul]))
  · unfold nearest
    rw [same]
    have scale := power_pos (F.unit y)
    apply mul_le_mul_of_nonneg_right _ scale.le
    exact_mod_cast roundEven_mono (div_le_div_of_nonneg_right le scale.le)
  · by_cases zero : x = 0
    · rw [zero] at le ⊢
      exact (nearest_nonpos le_rfl).trans (nearest_nonneg le)
    · obtain ⟨k, place, small, large⟩ := parted coarser zero
      have below : x ≤ -(2 : Rat) ^ k := by
        rcases le_abs.mp large with plus | minus
        · have := le_abs_self y
          linarith
        · linarith
      have low := nearest_le (F := F) (x := x) (e := k) (-1) place
        (by push_cast; linarith)
      have high := le_nearest (F := F) (x := y) (e := k) (-1) (by omega)
        (by push_cast; have := neg_abs_le y; linarith)
      exact low.trans high

/-- A number from `x` on, or the positive infinity. -/
def AtLeast (x : Rat) : Value → Prop
  | .finite y => x ≤ y
  | .infinite s => s = false
  | .nan => False

/-- A number up to `x`, or the negative infinity. -/
def AtMost (x : Rat) : Value → Prop
  | .finite y => y ≤ x
  | .infinite s => s = true
  | .nan => False

theorem holds_zero : F.Holds 0 := by
  refine ⟨0, F.least, ?_, le_rfl, ?_⟩
  · rw [abs_zero]
    positivity
  · rw [Int.cast_zero, zero_mul]

theorem AtLeast.fit {x : Rat} {v : Value} (bound : AtLeast x v) (holds : F.Holds x)
    (small : |x| ≤ F.top) : AtLeast x (F.fit v) := by
  cases v with
  | nan => exact bound
  | infinite s => exact bound
  | finite y =>
    have kept : x ≤ F.nearest y := by
      rw [← holds.nearest]
      exact nearest_mono bound
    dsimp only [Format.fit]
    split
    · exact kept
    · rename_i large
      apply decide_eq_false
      intro minus
      have sign : F.nearest y ≤ 0 := nearest_nonpos minus.le
      have size := neg_abs_le x
      rw [abs_of_nonpos sign] at large
      linarith

theorem AtMost.fit {x : Rat} {v : Value} (bound : AtMost x v) (holds : F.Holds x)
    (small : |x| ≤ F.top) : AtMost x (F.fit v) := by
  cases v with
  | nan => exact bound
  | infinite s => exact bound
  | finite y =>
    have kept : F.nearest y ≤ x := by
      rw [← holds.nearest]
      exact nearest_mono bound
    dsimp only [Format.fit]
    split
    · exact kept
    · rename_i large
      apply decide_eq_true
      by_contra plus
      have sign : 0 ≤ F.nearest y := nearest_nonneg (not_lt.mp plus)
      have size := le_abs_self x
      rw [abs_of_nonneg sign] at large
      linarith

theorem AtLeast.div {v : Value} (bound : AtLeast 0 v) {y : Rat} (positive : 0 < y) :
    AtLeast 0 (v.div (.finite y)) := by
  cases v with
  | nan => exact bound
  | infinite s =>
    rw [show s = false from bound, Value.div, decide_eq_false (not_lt.mpr positive.le)]
    rfl
  | finite x =>
    rw [Value.div, if_neg positive.ne']
    exact div_nonneg bound positive.le

theorem AtLeast.add {v : Value} (bound : AtLeast 0 v) (x : Rat) :
    AtLeast x ((Value.finite x).add v) := by
  cases v with
  | nan => exact bound
  | infinite s => exact bound
  | finite y => exact le_add_of_nonneg_right bound

theorem AtLeast.sub {v : Value} (bound : AtLeast 0 v) (x : Rat) :
    AtMost x ((Value.finite x).add v.neg) := by
  cases v with
  | nan => exact bound
  | infinite s =>
    rw [show s = false from bound]
    rfl
  | finite y => exact add_le_of_nonpos_right (neg_nonpos.mpr bound)

theorem AtLeast.not_le {x : Rat} {v w : Value} (bound : AtLeast x v)
    (below : w.lt (.finite x) = true) : ¬ v.le w = true := by
  intro reached
  cases v with
  | nan => exact bound
  | infinite s =>
    cases bound
    cases w <;> simp_all [Value.le, Value.lt]
  | finite y =>
    cases w with
    | nan => cases below
    | infinite t => simp_all [Value.le, Value.lt]
    | finite z =>
      have apart : z < x := of_decide_eq_true below
      have above : x ≤ y := bound
      simp only [Value.le, Value.lt, Bool.not_eq_true', decide_eq_false_iff_not] at reached
      linarith

theorem AtMost.not_le {x : Rat} {v w : Value} (bound : AtMost x v)
    (above : (Value.finite x).lt w = true) : ¬ w.le v = true := by
  intro reached
  cases v with
  | nan => exact bound
  | infinite s =>
    cases bound
    cases w <;> simp_all [Value.le, Value.lt]
  | finite y =>
    cases w with
    | nan => cases above
    | infinite t => simp_all [Value.le, Value.lt]
    | finite z =>
      have apart : x < z := of_decide_eq_true above
      have below : y ≤ x := bound
      simp only [Value.le, Value.lt, Bool.not_eq_true', decide_eq_false_iff_not] at reached
      linarith

def value : Binary32.Decoded → Value
  | .finite s m => .finite (if s then -(m / 2 ^ 149) else m / 2 ^ 149)
  | .infinite s => .infinite s
  | .nan => .nan

private theorem magnitude_split {e f : Nat} (last : e < 255) (small : f < 2 ^ 23) :
    ∃ n k : Nat, Binary32.magnitude e f = n * 2 ^ k ∧ n < 2 ^ 24 ∧ k ≤ 253 := by
  unfold Binary32.magnitude
  split
  · exact ⟨f, 0, by omega, by omega, by omega⟩
  · exact ⟨2 ^ 23 + f, e - 1, rfl, by omega, by omega⟩

theorem single_value {b : UInt32} {x : Rat} (bits : value (Binary32.decode b) = .finite x) :
    single.Holds x ∧ |x| ≤ single.top := by
  have range : Binary32.exponent b < 256 := Nat.mod_lt _ (by decide)
  unfold Binary32.decode at bits
  split at bits
  · split at bits <;> cases bits
  · rename_i finite
    obtain ⟨n, k, split, bound, place⟩ := magnitude_split (e := Binary32.exponent b) (by omega)
      (Binary32.fraction_lt b)
    have size : (n : Rat) * 2 ^ k / 2 ^ 149 = n * 2 ^ ((k : Int) - 149) := by
      rw [zpow_sub₀ (by norm_num), mul_div_assoc]
      rfl
    rw [split] at bits
    injection bits with same
    push_cast at same
    rw [size] at same
    have top : (n : Rat) * 2 ^ ((k : Int) - 149) ≤ single.top := by
      have digits : (n : Rat) ≤ 2 ^ 24 - 1 := by
        have next : (n : Rat) + 1 ≤ 2 ^ 24 := by exact_mod_cast bound
        linarith
      have power : (2 : Rat) ^ ((k : Int) - 149) ≤ 2 ^ (104 : Int) :=
        zpow_le_zpow_right₀ (by norm_num) (by omega)
      exact mul_le_mul digits power (power_pos _).le (by norm_num [single])
    have sign : 0 ≤ (n : Rat) * 2 ^ ((k : Int) - 149) :=
      mul_nonneg (Nat.cast_nonneg n) (power_pos _).le
    have fine : single.least ≤ (k : Int) - 149 := by
      change -149 ≤ (k : Int) - 149
      omega
    split at same
    · rw [← same, abs_neg, abs_of_nonneg sign]
      refine ⟨⟨-n, k - 149, ?_, fine, by push_cast; ring⟩, top⟩
      rw [abs_neg, Nat.abs_cast]
      exact_mod_cast bound
    · rw [← same, abs_of_nonneg sign]
      refine ⟨⟨n, k - 149, ?_, fine, by push_cast; ring⟩, top⟩
      rw [Nat.abs_cast]
      exact_mod_cast bound

end Format

end SV300.Library.Nearest
