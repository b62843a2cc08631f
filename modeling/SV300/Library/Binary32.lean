/- SV300/Library/Binary32
   digest: Single-precision numbers read from their bits, and their decimal output. -/

import Mathlib.Data.Nat.Basic
import Mathlib.Tactic.Ring

set_option autoImplicit false
set_option relaxedAutoImplicit false

namespace SV300.Library.Binary32

/-- The number a bit pattern stands for; the magnitude counts the smallest denormal, `2 ^ -149`. -/
inductive Decoded
  | finite (negative : Bool) (magnitude : Nat)
  | infinite (negative : Bool)
  | nan
  deriving DecidableEq, Repr

def negative (x : UInt32) : Bool := 2 ^ 31 ≤ x.toNat

def exponent (x : UInt32) : Nat := x.toNat / 2 ^ 23 % 256

def fraction (x : UInt32) : Nat := x.toNat % 2 ^ 23

/-- The magnitude of an exponent and a fraction; exponent zero has no implicit bit. -/
def magnitude (e f : Nat) : Nat := if e = 0 then f else (2 ^ 23 + f) * 2 ^ (e - 1)

def decode (x : UInt32) : Decoded :=
  if exponent x = 255 then
    if fraction x = 0 then .infinite (negative x) else .nan
  else .finite (negative x) (magnitude (exponent x) (fraction x))

/-- What a decimal conversion prints: a signed count of units of the last place, or a word. -/
inductive Printed
  | number (negative : Bool) (units : Nat)
  | inf (negative : Bool)
  | nan
  deriving DecidableEq, Repr

def roundDiv (n d : Nat) : Nat :=
  if 2 * (n % d) < d ∨ (2 * (n % d) = d ∧ n / d % 2 = 0) then n / d else n / d + 1

/-- `%.<places>f`: the exact value, rounded to the last place. -/
def fixed (places : Nat) : Decoded → Printed
  | .finite s m => .number s (roundDiv (m * 10 ^ places) (2 ^ 149))
  | .infinite s => .inf s
  | .nan => .nan

/-- The printed text is a numeral of the natural number. -/
def Printed.Is (places : Nat) : Printed → Nat → Prop
  | .number false u, y => u = y * 10 ^ places
  | .number true u, y => u = 0 ∧ y = 0
  | .inf _, _ | .nan, _ => False

instance (places : Nat) : ∀ (p : Printed) (y : Nat), Decidable (p.Is places y)
  | .number false _, _ => inferInstanceAs (Decidable (_ = _))
  | .number true _, _ => inferInstanceAs (Decidable (_ ∧ _))
  | .inf _, _ | .nan, _ => inferInstanceAs (Decidable False)

private theorem roundDiv_le (n : Nat) {d : Nat} (pos : 0 < d) :
    2 * (d * roundDiv n d) ≤ 2 * n + d := by
  have whole := Nat.div_add_mod n d
  have rest := Nat.mod_lt n pos
  unfold roundDiv
  split
  · omega
  · rename_i up
    rw [Nat.mul_add, Nat.mul_one]
    omega

private theorem roundDiv_mul (q : Nat) {d : Nat} (pos : 0 < d) : roundDiv (q * d) d = q := by
  have rest : q * d % d = 0 := Nat.mul_mod_left q d
  rw [roundDiv, rest, Nat.mul_div_cancel q pos, if_pos (.inl (by omega))]

/-- The largest bit pattern whose number is below the pattern itself. -/
def crossing : Nat := 1318926964

private theorem toNat_split (x : UInt32) (plus : x.toNat < 2 ^ 31) :
    x.toNat = exponent x * 2 ^ 23 + fraction x := by
  unfold exponent fraction
  omega

theorem fraction_lt (x : UInt32) : fraction x < 2 ^ 23 := by
  unfold fraction
  omega

private theorem decode_is {places y : Nat} {x : UInt32} (plus : x.toNat < 2 ^ 31)
    (is : (fixed places (decode x)).Is places y) :
    exponent x ≠ 255 ∧
      roundDiv (magnitude (exponent x) (fraction x) * 10 ^ places) (2 ^ 149) =
        y * 10 ^ places := by
  have sign : negative x = false := decide_eq_false (by omega)
  unfold decode at is
  split at is
  · split at is
    · exact is.elim
    · exact is.elim
  · rename_i finite
    rw [sign] at is
    exact ⟨finite, is⟩

private theorem printed_le {places y m : Nat}
    (is : roundDiv (m * 10 ^ places) (2 ^ 149) = y * 10 ^ places) :
    2 ^ 150 * y ≤ 2 * m + 2 ^ 149 := by
  have scale : 0 < 10 ^ places := Nat.pow_pos (by omega)
  have bound := roundDiv_le (m * 10 ^ places) (d := 2 ^ 149) (by omega)
  rw [is] at bound
  have scaled : (2 ^ 150 * y) * 10 ^ places ≤ (2 * m + 2 ^ 149) * 10 ^ places :=
    calc (2 ^ 150 * y) * 10 ^ places
        = 2 * (2 ^ 149 * (y * 10 ^ places)) := by ring
      _ ≤ 2 * (m * 10 ^ places) + 2 ^ 149 := bound
      _ ≤ 2 * (m * 10 ^ places) + 2 ^ 149 * 10 ^ places :=
        Nat.add_le_add_left (Nat.le_mul_of_pos_right _ scale) _
      _ = (2 * m + 2 ^ 149) * 10 ^ places := by ring
  exact Nat.le_of_mul_le_mul_right scaled scale

private theorem printed_eq {places y e f : Nat} (large : 150 ≤ e)
    (is : roundDiv (magnitude e f * 10 ^ places) (2 ^ 149) = y * 10 ^ places) :
    y = (2 ^ 23 + f) * 2 ^ (e - 150) := by
  have scale : 0 < 10 ^ places := Nat.pow_pos (by omega)
  have some : e ≠ 0 := by omega
  have power : 2 ^ (e - 1) = 2 ^ (e - 150) * 2 ^ 149 := by
    rw [← Nat.pow_add]
    congr 1
    omega
  have whole : magnitude e f * 10 ^ places =
      ((2 ^ 23 + f) * 2 ^ (e - 150) * 10 ^ places) * 2 ^ 149 := by
    rw [magnitude, if_neg some, power]
    ring
  rw [whole, roundDiv_mul _ (by omega)] at is
  exact (Nat.eq_of_mul_eq_mul_right scale is).symm

private theorem magnitude_lt {e f : Nat} (small : f < 2 ^ 23) (below : e < 150) :
    magnitude e f < 2 ^ 172 ∧ (e ≤ 1 → magnitude e f < 2 ^ 24) := by
  unfold magnitude
  split
  · exact ⟨by omega, fun _ => by omega⟩
  · have power : 2 ^ (e - 1) ≤ 2 ^ 148 := Nat.pow_le_pow_right (by omega) (by omega)
    have product : (2 ^ 23 + f) * 2 ^ (e - 1) ≤ (2 ^ 23 + f) * 2 ^ 148 :=
      Nat.mul_le_mul_left _ power
    refine ⟨by omega, fun one => ?_⟩
    have zero : e - 1 = 0 := by omega
    rw [zero, Nat.pow_zero, Nat.mul_one]
    omega

/-- The number of a positive pattern is below the pattern up to `crossing` and above it from there
on: they are never equal. -/
private theorem printed_crossing {places y : Nat} {x : UInt32} (pos : 0 < x.toNat)
    (plus : x.toNat < 2 ^ 31) (is : (fixed places (decode x)).Is places y) :
    (x.toNat ≤ crossing → y < x.toNat) ∧ (crossing < x.toNat → x.toNat < y) := by
  obtain ⟨finite, units⟩ := decode_is plus is
  have split := toNat_split x plus
  have small := fraction_lt x
  generalize exponent x = e at *
  generalize fraction x = f at *
  unfold crossing
  by_cases below : e < 150
  · have bound := printed_le units
    obtain ⟨size, tiny⟩ := magnitude_lt small below
    have under : y < x.toNat := by
      by_cases one : e ≤ 1
      · have := tiny one
        omega
      · omega
    exact ⟨fun _ => under, fun above => by omega⟩
  have value := printed_eq (by omega) units
  by_cases middle : e < 157
  · have power : 2 ^ (e - 150) ≤ 2 ^ 6 := Nat.pow_le_pow_right (by omega) (by omega)
    have product : (2 ^ 23 + f) * 2 ^ (e - 150) ≤ (2 ^ 23 + f) * 2 ^ 6 :=
      Nat.mul_le_mul_left _ power
    exact ⟨fun _ => by omega, fun above => by omega⟩
  by_cases last : e = 157
  · -- 128 times the significand against 157 * 2 ^ 23 plus the fraction
    rw [last] at value
    exact ⟨fun _ => by omega, fun above => by omega⟩
  · have power : 2 ^ 8 ≤ 2 ^ (e - 150) := Nat.pow_le_pow_right (by omega) (by omega)
    have product : (2 ^ 23 + f) * 2 ^ 8 ≤ (2 ^ 23 + f) * 2 ^ (e - 150) :=
      Nat.mul_le_mul_left _ power
    exact ⟨fun _ => by omega, fun above => by omega⟩

private theorem printed_zero {places y : Nat} : (fixed places (decode 0)).Is places y ↔ y = 0 := by
  have scale : 10 ^ places ≠ 0 := Nat.pos_iff_ne_zero.mp (Nat.pow_pos (by omega))
  have zero : decode 0 = .finite false 0 := rfl
  rw [zero, fixed, Nat.zero_mul, Printed.Is]
  have none : roundDiv 0 (2 ^ 149) = 0 := by decide
  rw [none, eq_comm, Nat.mul_eq_zero]
  exact or_iff_left scale

private theorem printed_negative {places y : Nat} {x : UInt32} (minus : 2 ^ 31 ≤ x.toNat)
    (is : (fixed places (decode x)).Is places y) : y = 0 := by
  have sign : negative x = true := decide_eq_true minus
  unfold decode at is
  split at is
  · split at is
    · exact is.elim
    · exact is.elim
  · rw [sign] at is
    exact is.2

/-- Two words that each print, their bits read as a number, the integer of the other are zero. -/
theorem printed_swapped_iff {places : Nat} {x y : UInt32} :
    ((fixed places (decode x)).Is places y.toNat ∧ (fixed places (decode y)).Is places x.toNat) ↔
      x = 0 ∧ y = 0 := by
  constructor
  · rintro ⟨there, back⟩
    have collapse : ∀ {u v : UInt32}, (fixed places (decode u)).Is places v.toNat →
        (fixed places (decode v)).Is places u.toNat → v.toNat = 0 → u = 0 ∧ v = 0 := by
      intro u v _ back zero
      have empty : v = 0 := UInt32.toNat_inj.mp zero
      rw [empty] at back
      exact ⟨UInt32.toNat_inj.mp (printed_zero.mp back), empty⟩
    by_cases minus : 2 ^ 31 ≤ x.toNat
    · exact collapse there back (printed_negative minus there)
    by_cases minus' : 2 ^ 31 ≤ y.toNat
    · exact (collapse back there (printed_negative minus' back)).symm
    by_cases zero : x.toNat = 0
    · exact (collapse back there zero).symm
    by_cases zero' : y.toNat = 0
    · exact collapse there back zero'
    -- the smaller of the two would have to go up and the larger one down
    obtain ⟨down, up⟩ := printed_crossing (by omega) (by omega) there
    obtain ⟨down', up'⟩ := printed_crossing (by omega) (by omega) back
    omega
  · rintro ⟨rfl, rfl⟩
    exact ⟨printed_zero.mpr rfl, printed_zero.mpr rfl⟩

end SV300.Library.Binary32
