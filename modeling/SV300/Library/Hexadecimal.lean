/- SV300/Library/Hexadecimal
   digest: Hexadecimal numerals of a fixed width, read in either case of their letters. -/

import Mathlib.Algebra.Group.Nat.Defs
import Mathlib.Data.List.Basic
import Mathlib.Tactic.Ring

set_option autoImplicit false
set_option relaxedAutoImplicit false

namespace SV300.Library.Hexadecimal

def hexDigit (n : Nat) : Char :=
  if n % 16 < 10 then Char.ofNat (48 + n % 16) else Char.ofNat (87 + n % 16)

/-- The last `w` digits of `n`. -/
def hexPad : Nat → Nat → List Char
  | 0, _ => []
  | w + 1, n => hexPad w (n / 16) ++ [hexDigit n]

def hexVal (c : Char) : Option Nat :=
  if '0' ≤ c ∧ c ≤ '9' then some (c.toNat - 48)
  else if 'a' ≤ c ∧ c ≤ 'f' then some (c.toNat - 87)
  else if 'A' ≤ c ∧ c ≤ 'F' then some (c.toNat - 55)
  else none

def hexFrom : Nat → List Char → Option Nat
  | v, [] => some v
  | v, c :: t => (hexVal c).bind fun d => hexFrom (16 * v + d) t

theorem hexVal_lt {c : Char} {d : Nat} (reads : hexVal c = some d) : d < 16 := by
  have zero : ('0' : Char).toNat = 48 := rfl
  have nine : ('9' : Char).toNat = 57 := rfl
  have a : ('a' : Char).toNat = 97 := rfl
  have f : ('f' : Char).toNat = 102 := rfl
  have bigA : ('A' : Char).toNat = 65 := rfl
  have bigF : ('F' : Char).toNat = 70 := rfl
  unfold hexVal at reads
  split_ifs at reads with digit lower upper
  · have top : c.toNat ≤ ('9' : Char).toNat := digit.2
    have value := Option.some.inj reads
    omega
  · have top : c.toNat ≤ ('f' : Char).toNat := lower.2
    have value := Option.some.inj reads
    omega
  · have top : c.toNat ≤ ('F' : Char).toNat := upper.2
    have value := Option.some.inj reads
    omega

private theorem hexVal_hexDigit (n : Nat) : hexVal (hexDigit n) = some (n % 16) := by
  have every : ∀ d : Fin 16, hexVal (if d.val < 10 then Char.ofNat (48 + d)
      else Char.ofNat (87 + d)) = some d.val := by decide
  exact every ⟨n % 16, Nat.mod_lt n (by decide)⟩

theorem hexDigit_cases (n : Nat) : hexDigit n ∈ "0123456789abcdef".toList := by
  have every : ∀ d : Fin 16, (if d.val < 10 then Char.ofNat (48 + d)
      else Char.ofNat (87 + d)) ∈ "0123456789abcdef".toList := by decide
  exact every ⟨n % 16, Nat.mod_lt n (by decide)⟩

@[simp] theorem hexPad_length (w n : Nat) : (hexPad w n).length = w := by
  induction w generalizing n with
  | zero => rfl
  | succ w ih => rw [hexPad, List.length_append, ih, List.length_singleton]

theorem hexPad_cases (w n : Nat) : ∀ c ∈ hexPad w n, c ∈ "0123456789abcdef".toList := by
  induction w generalizing n with
  | zero => exact fun c inside => absurd inside List.not_mem_nil
  | succ w ih =>
    intro c inside
    rcases List.mem_append.mp inside with high | low
    · exact ih _ c high
    · exact List.mem_singleton.mp low ▸ hexDigit_cases n

private theorem hexFrom_append (v : Nat) (s t : List Char) :
    hexFrom v (s ++ t) = (hexFrom v s).bind fun v => hexFrom v t := by
  induction s generalizing v with
  | nil => rfl
  | cons c s ih =>
    rw [List.cons_append, hexFrom, hexFrom, Option.bind_assoc]
    exact congrArg _ (funext fun d => ih _)

theorem hexFrom_hexPad (v w n : Nat) :
    hexFrom v (hexPad w n) = some (v * 16 ^ w + n % 16 ^ w) := by
  induction w generalizing n with
  | zero => simp [hexPad, hexFrom, Nat.mod_one]
  | succ w ih =>
    have digits : n % 16 ^ (w + 1) = 16 * (n / 16 % 16 ^ w) + n % 16 := by
      rw [Nat.pow_succ, Nat.mul_comm (16 ^ w) 16, Nat.mod_mul, Nat.add_comm]
    rw [hexPad, hexFrom_append, ih, Option.bind_some, hexFrom, hexVal_hexDigit, Option.bind_some,
      hexFrom, digits, Nat.pow_succ]
    congr 1
    ring

end SV300.Library.Hexadecimal
