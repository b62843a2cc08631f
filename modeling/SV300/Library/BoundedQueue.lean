/- SV300/Library/BoundedQueue
   digest: A bounded queue in a ring of slots: what is pending after a put, a take, a last-slot write. -/

import Mathlib.Data.List.Basic
import Mathlib.Logic.Function.Basic
import Mathlib.Tactic.SplitIfs

set_option autoImplicit false
set_option relaxedAutoImplicit false

namespace SV300.Library.BoundedQueue

variable {α : Type*}

/-- A position past the end of the ring, taken around once. -/
def wrap (N i : Nat) : Nat := if i < N then i else i - N

/-- The number of entries between the read and the write position. -/
def count (N fr re : Nat) : Nat := if re ≤ fr then fr - re else fr + N - re

/-- The entries from the read position up to the write position, oldest first. -/
def pending (N : Nat) (slots : Nat → α) (fr re : Nat) : List α :=
  (List.range (count N fr re)).map fun i => slots (wrap N (re + i))

section Positions

variable {N fr re : Nat} (slots : Nat → α)

@[simp] theorem length_pending : (pending N slots fr re).length = count N fr re := by
  rw [pending, List.length_map, List.length_range]

theorem pending_empty : pending N slots fr fr = [] := by
  rw [pending, count, if_pos (Nat.le_refl fr), Nat.sub_self]
  rfl

private theorem wrap_ne (re_lt : re < N) {i : Nat} (inside : i < count N fr re) :
    wrap N (re + i) ≠ fr := by
  unfold count at inside
  unfold wrap
  split_ifs at inside ⊢ <;> omega

private theorem wrap_count (fr_lt : fr < N) (re_lt : re < N) :
    wrap N (re + count N fr re) = fr := by
  unfold wrap count
  split_ifs <;> omega

private theorem count_put (fr_lt : fr < N) (re_lt : re < N) (room : wrap N (fr + 1) ≠ re) :
    count N (wrap N (fr + 1)) re = count N fr re + 1 := by
  unfold wrap at room ⊢
  unfold count
  split_ifs at room ⊢ <;> omega

theorem pending_put (fr_lt : fr < N) (re_lt : re < N) (room : wrap N (fr + 1) ≠ re) (x : α) :
    pending N (Function.update slots fr x) (wrap N (fr + 1)) re = pending N slots fr re ++ [x] := by
  rw [pending, count_put fr_lt re_lt room, List.range_succ, List.map_append, List.map_singleton,
    wrap_count fr_lt re_lt, Function.update_self, pending]
  congr 1
  apply List.map_congr_left
  intro i mem
  rw [Function.update_of_ne (wrap_ne re_lt (List.mem_range.mp mem))]

theorem pending_free (re_lt : re < N) (x : α) :
    pending N (Function.update slots fr x) fr re = pending N slots fr re := by
  apply List.map_congr_left
  intro i mem
  rw [Function.update_of_ne (wrap_ne re_lt (List.mem_range.mp mem))]

theorem pending_take (fr_lt : fr < N) (re_lt : re < N) (some : fr ≠ re) :
    pending N slots fr re = slots re :: pending N slots fr (wrap N (re + 1)) := by
  have less : count N fr re = count N fr (wrap N (re + 1)) + 1 := by
    unfold count wrap
    split_ifs <;> omega
  rw [pending, less, List.range_succ_eq_map, List.map_cons, List.map_map, pending]
  have first : wrap N (re + 0) = re := by
    rw [wrap, if_pos (by omega)]
    rfl
  rw [first]
  congr 1
  apply List.map_congr_left
  intro i mem
  have inside := List.mem_range.mp mem
  have next : wrap N (re + (i + 1)) = wrap N (wrap N (re + 1) + i) := by
    unfold count wrap at inside
    unfold wrap
    split_ifs at inside ⊢ <;> omega
  exact congrArg slots next

theorem pending_last {last : Nat} (last_lt : last < N) (re_lt : re < N)
    (before : wrap N (last + 1) = fr) (some : fr ≠ re) :
    pending N slots fr re = pending N slots last re ++ [slots last] := by
  rw [← before] at some ⊢
  have put := pending_put slots last_lt re_lt some (slots last)
  rwa [Function.update_eq_self] at put

theorem pending_setLast {last : Nat} (last_lt : last < N) (re_lt : re < N)
    (before : wrap N (last + 1) = fr) (some : fr ≠ re) (x : α) :
    pending N (Function.update slots last x) fr re = pending N slots last re ++ [x] := by
  rw [← before] at some ⊢
  exact pending_put slots last_lt re_lt some x

end Positions

end SV300.Library.BoundedQueue
