/- SV300/Library/FlagWord
   digest: Words packed flag by flag at a running position, and the bits read back from them. -/

import Mathlib.Data.List.Basic

set_option autoImplicit false
set_option relaxedAutoImplicit false

namespace SV300.Library.FlagWord

def pack (s : Nat × Nat) (flag : Bool) : Nat × Nat :=
  (s.1 + 1, if flag then s.2 ||| 1 <<< s.1 else s.2)

private theorem testBit_pack (s : Nat × Nat) (flag : Bool) (k : Nat) :
    (pack s flag).2.testBit k = (s.2.testBit k || (flag && decide (s.1 = k))) := by
  cases flag with
  | false => simp [pack]
  | true => simp [pack, Nat.one_shiftLeft, Nat.testBit_two_pow]

private theorem testBit_foldl (flags : List Bool) (s : Nat × Nat) (k : Nat) :
    (flags.foldl pack s).2.testBit k =
      (s.2.testBit k || (decide (s.1 ≤ k) && flags.getD (k - s.1) false)) := by
  induction flags generalizing s with
  | nil => simp
  | cons flag flags ih =>
    rw [List.foldl_cons, ih, testBit_pack, Bool.or_assoc]
    congr 1
    rcases Nat.lt_trichotomy s.1 k with below | here | above
    · have later : k - s.1 = k - (s.1 + 1) + 1 := by omega
      have apart : s.1 ≠ k := by omega
      have first : s.1 ≤ k := by omega
      have next : s.1 + 1 ≤ k := below
      simp [pack, apart, first, next, later]
    · have past : ¬ k + 1 ≤ k := by omega
      simp [pack, here, past]
    · have apart : s.1 ≠ k := by omega
      have first : ¬ s.1 ≤ k := by omega
      have next : ¬ s.1 + 1 ≤ k := by omega
      simp [pack, apart, first, next]

theorem testBit_packed (flags : List Bool) (k : Nat) :
    (flags.foldl pack (0, 0)).2.testBit k = flags.getD k false := by
  rw [testBit_foldl]
  simp

end SV300.Library.FlagWord
