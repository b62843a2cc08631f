/- SV300/Library/Stream
   digest: Reading a length of bytes from a connection, however they arrive and are buffered. -/

import Mathlib.Data.List.Basic

set_option autoImplicit false
set_option relaxedAutoImplicit false

namespace SV300.Library.Stream

variable {α : Type*}

/-- One receive call: at most `want` of the pieces that arrive, and what is left of them.  The end
of the connection and an error give nothing. -/
def receive (want : Nat) : List (List α) → List α × List (List α)
  | [] => ([], [])
  | piece :: rest =>
    (piece.take want, if piece.length ≤ want then rest else piece.drop want :: rest)

def arrived : List (List α) → List α
  | [] => []
  | piece :: rest => if piece.isEmpty then [] else piece ++ arrived rest

/-- Read `left` bytes, at most `cap` in one call, until nothing comes. -/
def readAll (cap : Nat) : Nat → Nat → List (List α) → List α
  | 0, _, _ => []
  | fuel + 1, left, s =>
    if left = 0 then []
    else
      let r := receive (min left cap) s
      if r.1.isEmpty then [] else r.1 ++ readAll cap fuel (left - r.1.length) r.2

theorem receive_length_le (want : Nat) (s : List (List α)) : (receive want s).1.length ≤ want := by
  cases s with
  | nil => exact Nat.zero_le _
  | cons piece rest =>
    rw [receive, List.length_take]
    exact Nat.min_le_left _ _

theorem receive_arrived {want : Nat} (some : 0 < want) (s : List (List α)) :
    arrived s = (receive want s).1 ++
      if (receive want s).1.isEmpty then [] else arrived (receive want s).2 := by
  cases s with
  | nil => rfl
  | cons piece rest =>
    cases piece with
    | nil =>
      rw [receive, List.take_nil]
      rfl
    | cons a piece =>
      obtain ⟨n, rfl⟩ : ∃ n, want = n + 1 := ⟨want - 1, by omega⟩
      have full : ((a :: piece).take (n + 1)).isEmpty = false := rfl
      simp only [receive, full, Bool.false_eq_true, if_false]
      split_ifs with whole
      · rw [List.take_of_length_le whole]
        rfl
      · have more : ((a :: piece).drop (n + 1)).isEmpty = false := by
          rw [List.isEmpty_eq_false_iff_exists_mem]
          apply List.exists_mem_of_length_pos
          rw [List.length_drop]
          omega
        have opened : arrived ((a :: piece).drop (n + 1) :: rest) =
            (a :: piece).drop (n + 1) ++ arrived rest := by
          rw [arrived, more, if_neg Bool.false_ne_true]
        rw [opened, ← List.append_assoc, List.take_append_drop]
        rfl

theorem readAll_eq {cap : Nat} (some : 0 < cap) {fuel left : Nat} (enough : left ≤ fuel)
    (s : List (List α)) : readAll cap fuel left s = (arrived s).take left := by
  induction fuel generalizing left s with
  | zero =>
    obtain rfl : left = 0 := by omega
    rfl
  | succ fuel ih =>
    rw [readAll]
    split_ifs with done
    · rw [done, List.take_zero]
    · dsimp only
      have wanted : 0 < min left cap := by omega
      have short := receive_length_le (min left cap) s
      have begins := receive_arrived wanted s
      -- a call that gets nothing is the end; otherwise the rest is read with what is left
      cases got : (receive (min left cap) s).1 with
      | nil =>
        rw [got] at begins
        rw [begins]
        exact List.take_nil.symm
      | cons a piece =>
        rw [got] at begins short
        rw [List.length_cons] at short
        have less : left - (a :: piece).length ≤ fuel := by rw [List.length_cons]; omega
        have rest := ih less (receive (min left cap) s).2
        have cut : (a :: piece).take left = a :: piece :=
          List.take_of_length_le (by rw [List.length_cons]; omega)
        simp only [List.isEmpty_cons, Bool.false_eq_true, if_false] at begins ⊢
        rw [rest, begins, List.take_append, cut]

end SV300.Library.Stream
