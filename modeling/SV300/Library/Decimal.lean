/- SV300/Library/Decimal
   digest: Decimal numerals of a fixed width, with leading zeros, and their value. -/

import Mathlib.Algebra.Group.Nat.Defs
import Mathlib.Data.List.Induction
import Mathlib.Data.List.Lex

set_option autoImplicit false
set_option relaxedAutoImplicit false

namespace SV300.Library.Decimal

def digit (n : Nat) : Char := Char.ofNat (48 + n % 10)

/-- The last `w` digits of `n`. -/
def pad : Nat → Nat → List Char
  | 0, _ => []
  | w + 1, n => pad w (n / 10) ++ [digit n]

def isDigit (c : Char) : Bool := decide ('0' ≤ c) && decide (c ≤ '9')

def digitValue (c : Char) : Nat := c.toNat - 48

def value (cs : List Char) : Nat := cs.foldl (fun key c => key * 10 + digitValue c) 0

def dec (n : Nat) : List Char := if n < 10 then [digit n] else dec (n / 10) ++ [digit n]

theorem digit_cases (n : Nat) : isDigit (digit n) = true ∧ digitValue (digit n) = n % 10 := by
  have every : ∀ d : Fin 10, isDigit (Char.ofNat (48 + d)) = true ∧
      digitValue (Char.ofNat (48 + d)) = d := by decide
  exact every ⟨n % 10, Nat.mod_lt n (by decide)⟩

theorem pad_length (w n : Nat) : (pad w n).length = w := by
  induction w generalizing n with
  | zero => rfl
  | succ w ih => rw [pad, List.length_append, ih, List.length_singleton]

theorem pad_isDigit (w n : Nat) : ∀ c ∈ pad w n, isDigit c = true := by
  induction w generalizing n with
  | zero => exact fun c hc => absurd hc List.not_mem_nil
  | succ w ih =>
    intro c hc
    rw [pad, List.mem_append, List.mem_singleton] at hc
    rcases hc with hc | rfl
    · exact ih _ c hc
    · exact (digit_cases n).1

theorem dec_isDigit (n : Nat) : ∀ c ∈ dec n, isDigit c = true := by
  induction n using dec.induct with
  | case1 n small =>
    rw [dec, if_pos small]
    exact fun c inside => List.mem_singleton.mp inside ▸ (digit_cases n).1
  | case2 n large ih =>
    rw [dec, if_neg large]
    intro c inside
    rcases List.mem_append.mp inside with high | low
    · exact ih c high
    · exact List.mem_singleton.mp low ▸ (digit_cases n).1

theorem value_concat (cs : List Char) (c : Char) :
    value (cs ++ [c]) = value cs * 10 + digitValue c := by
  rw [value, List.foldl_append]
  rfl

theorem value_append (cs ds : List Char) :
    value (cs ++ ds) = value cs * 10 ^ ds.length + value ds := by
  induction ds using List.reverseRecOn with
  | nil => simp [value]
  | append_singleton ds d ih =>
    rw [← List.append_assoc, value_concat, value_concat, ih, List.length_append,
      List.length_singleton, Nat.pow_succ, Nat.add_mul, Nat.mul_assoc, Nat.add_assoc]

theorem value_lt {cs : List Char} (digits : ∀ c ∈ cs, isDigit c = true) :
    value cs < 10 ^ cs.length := by
  induction cs using List.reverseRecOn with
  | nil => exact Nat.one_pos
  | append_singleton cs c ih =>
    have below : digitValue c < 10 := by
      have range := digits c (by simp)
      rw [isDigit, Bool.and_eq_true, decide_eq_true_eq, decide_eq_true_eq] at range
      have upper : c.toNat ≤ '9'.toNat := range.2
      have nine : '9'.toNat = 57 := rfl
      rw [digitValue]
      omega
    have before := ih fun d hd => digits d (List.mem_append_left _ hd)
    rw [value_concat, List.length_append, List.length_singleton, Nat.pow_succ]
    omega

theorem value_pad {w n : Nat} (fits : n < 10 ^ w) : value (pad w n) = n := by
  induction w generalizing n with
  | zero =>
    have none : n = 0 := by omega
    rw [none]
    rfl
  | succ w ih =>
    have fewer : n / 10 < 10 ^ w := by
      rw [Nat.pow_succ] at fits
      omega
    rw [pad, value_concat, ih fewer, (digit_cases n).2]
    omega

theorem pad_inj {w n m : Nat} (fits : n < 10 ^ w) (fit : m < 10 ^ w) (same : pad w n = pad w m) :
    n = m := by
  rw [← value_pad fits, same, value_pad fit]

private theorem append_lt_append {cs ds : List Char} (before : cs < ds)
    (same : cs.length = ds.length) (us vs : List Char) : cs ++ us < ds ++ vs := by
  induction cs generalizing ds with
  | nil =>
    rw [List.length_nil, eq_comm, List.length_eq_zero_iff] at same
    exact absurd (same ▸ before) (List.not_lt_nil _)
  | cons c cs ih =>
    cases ds with
    | nil => exact absurd before (List.not_lt_nil _)
    | cons d ds =>
      rw [List.cons_append, List.cons_append]
      rcases List.cons_lt_cons_iff.mp before with first | ⟨equal, rest⟩
      · exact List.cons_lt_cons_iff.mpr (.inl first)
      · exact List.cons_lt_cons_iff.mpr (.inr ⟨equal, ih rest (Nat.succ.inj same)⟩)

private theorem digit_lt {n m : Nat} (less : n % 10 < m % 10) : digit n < digit m := by
  have every : ∀ d e : Fin 10, d < e → Char.ofNat (48 + d) < Char.ofNat (48 + e) := by decide
  exact every ⟨n % 10, Nat.mod_lt n (by decide)⟩ ⟨m % 10, Nat.mod_lt m (by decide)⟩ less

private theorem pad_lt {w n m : Nat} (less : n < m) (fits : m < 10 ^ w) : pad w n < pad w m := by
  induction w generalizing n m with
  | zero => exact absurd less (by omega)
  | succ w ih =>
    have fewer : m / 10 < 10 ^ w := by
      rw [Nat.pow_succ] at fits
      omega
    rw [pad, pad]
    rcases Nat.lt_or_eq_of_le (Nat.div_le_div_right less.le) with high | high
    · exact append_lt_append (ih high fewer) (by rw [pad_length, pad_length]) _ _
    · rw [high]
      have low : n % 10 < m % 10 := by omega
      exact List.append_left_lt (List.cons_lt_cons_iff.mpr (.inl (digit_lt low)))

theorem pad_append_lt {w n m : Nat} {us vs : List Char} (fits : m < 10 ^ w)
    (less : n < m ∨ n = m ∧ us < vs) : pad w n ++ us < pad w m ++ vs := by
  rcases less with before | ⟨rfl, rest⟩
  · exact append_lt_append (pad_lt before fits) (by rw [pad_length, pad_length]) us vs
  · exact List.append_left_lt rest

end SV300.Library.Decimal
