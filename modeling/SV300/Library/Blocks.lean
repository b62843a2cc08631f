/- SV300/Library/Blocks
   digest: A ring of N blocks of n places, addressed by running numbers of either sign. -/

import Mathlib.Data.Int.Init
import Mathlib.Order.Basic

set_option autoImplicit false
set_option relaxedAutoImplicit false

namespace SV300.Library.Blocks

/-- The block of the ring that the place with a running number is in. -/
def block (N n : Nat) (g : Int) : Nat := (g / n % N).toNat

def offset (n : Nat) (g : Int) : Nat := (g % n).toNat

private theorem cast_block {N n : Nat} (some : 0 < N) (g : Int) : (block N n g : Int) = g / n % N :=
  Int.toNat_of_nonneg (Int.emod_nonneg _ (by omega))

private theorem cast_offset {n : Nat} (some : 0 < n) (g : Int) : (offset n g : Int) = g % n :=
  Int.toNat_of_nonneg (Int.emod_nonneg _ (by omega))

theorem block_lt {N n : Nat} (some : 0 < N) (g : Int) : block N n g < N := by
  have below := Int.emod_lt_of_pos (g / n) (by omega : (0 : Int) < N)
  have same := cast_block (n := n) some g
  omega

theorem offset_lt {n : Nat} (some : 0 < n) (g : Int) : offset n g < n := by
  have below := Int.emod_lt_of_pos g (by omega : (0 : Int) < n)
  have same := cast_offset some g
  omega

theorem block_congr {N n : Nat} {g h k : Int} (some : 0 < n) (turns : g = h + n * (N * k)) :
    block N n g = block N n h := by
  have pos : (n : Int) ≠ 0 := by omega
  rw [block, block, turns, Int.add_mul_ediv_left _ _ pos, Int.add_mul_emod_self_left]

theorem offset_congr {n : Nat} {g h k : Int} (turns : g = h + n * k) : offset n g = offset n h := by
  rw [offset, offset, turns, Int.add_mul_emod_self_left]

theorem block_place {N n d o : Nat} (inside : o < n) (block_ : d < N) :
    block N n (d * n + o) = d := by
  have pos : (n : Int) ≠ 0 := by omega
  have small : (o : Int) / n = 0 := Int.ediv_eq_zero_of_lt (by omega) (by omega)
  have quotient : ((d : Int) * n + o) / n = d := by
    rw [Int.add_comm, Int.add_mul_ediv_right _ _ pos, small, Int.zero_add]
  rw [block, quotient, Int.emod_eq_of_lt (by omega) (by omega), Int.toNat_natCast]

theorem offset_place {n d o : Nat} (inside : o < n) : offset n (d * n + o) = o := by
  rw [offset, Int.add_comm, Int.add_mul_emod_self_right, Int.emod_eq_of_lt (by omega) (by omega),
    Int.toNat_natCast]

theorem block_bounds {n : Nat} (some : 0 < n) (l : Nat) :
    l / n * n ≤ l ∧ l < (l / n + 1) * n := by
  have below := @Nat.lt_div_mul_add l n some
  rw [Nat.add_mul, Nat.one_mul]
  exact ⟨Nat.div_mul_le_self l n, below⟩

theorem next_inside {n l : Nat} (inside : l % n + 1 < n) :
    (l + 1) / n = l / n ∧ (l + 1) % n = l % n + 1 := by
  have parts := Nat.mod_add_div l n
  exact (Nat.div_mod_unique (by omega)).mpr ⟨by omega, inside⟩

theorem next_block {n l : Nat} (some : 0 < n) (last : n ≤ l % n + 1) :
    (l + 1) / n = l / n + 1 ∧ (l + 1) % n = 0 := by
  have parts := Nat.mod_add_div l n
  have below := Nat.mod_lt l some
  refine (Nat.div_mod_unique some).mpr ⟨?_, some⟩
  rw [Nat.mul_add, Nat.mul_one]
  omega

theorem place_ne {N n i j : Nat} (less : i < j) (near : j < i + N * n) :
    ¬ (i / n % N = j / n % N ∧ i % n = j % n) := by
  rintro ⟨same, aligned⟩
  have low := Nat.mod_add_div i n
  have high := Nat.mod_add_div j n
  have after : i / n < j / n := by
    apply Nat.lt_of_mul_lt_mul_left (a := n)
    omega
  have within : j / n < i / n + N := by
    apply Nat.lt_of_mul_lt_mul_left (a := n)
    rw [Nat.mul_add, Nat.mul_comm n N]
    omega
  have gap : (j / n - i / n) % N = 0 := Nat.sub_mod_eq_zero_of_mod_eq same.symm
  rw [Nat.mod_eq_of_lt (by omega)] at gap
  omega

theorem covers {n m : Nat} {S d : Int} (some : 0 < n) (first : S / n ≤ d)
    (last : d ≤ (S + m - 1) / n) (room : 0 < m) : ∃ k < m, (S + k) / n = d := by
  have pos : (0 : Int) < n := by omega
  have low : S < (d + 1) * n := Int.lt_mul_of_ediv_lt pos (by omega)
  have high : d * n ≤ S + m - 1 := Int.mul_le_of_le_ediv pos last
  have next : (d + 1) * n = d * n + n := by rw [Int.add_mul, Int.one_mul]
  rcases Int.le_total (d * n) S with before | after
  · refine ⟨0, room, ?_⟩
    rw [Int.natCast_zero, Int.add_zero]
    apply Int.le_antisymm
    · exact Int.lt_add_one_iff.mp (Int.ediv_lt_of_lt_mul pos low)
    · exact Int.le_ediv_of_mul_le pos before
  · refine ⟨(d * n - S).toNat, by omega, ?_⟩
    have here : S + ((d * n - S).toNat : Int) = d * n := by omega
    rw [here, Int.mul_ediv_cancel _ (by omega)]

end SV300.Library.Blocks
