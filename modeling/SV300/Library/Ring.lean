/- SV300/Library/Ring
   digest: A ring of N slots that a history is written into, and the window that reads it back. -/

import Mathlib.Data.List.Rotate
import Mathlib.Logic.Function.Basic

set_option autoImplicit false
set_option relaxedAutoImplicit false

namespace SV300.Library.Ring

variable {α : Type*}

/-- The last `n` entries of a history, oldest first. -/
def latest (n : Nat) (h : List α) : List α := h.drop (h.length - n)

theorem length_latest (n : Nat) (h : List α) : (latest n h).length = min n h.length := by
  rw [latest, List.length_drop]
  omega

theorem latest_of_short {n : Nat} {h : List α} (short : h.length ≤ n) : latest n h = h := by
  rw [latest, Nat.sub_eq_zero_of_le short, List.drop_zero]

theorem reverse_latest (n : Nat) (h : List α) :
    (latest (min h.length n) h).reverse = h.reverse.take n := by
  rw [latest, ← List.take_reverse, Nat.min_comm, ← List.take_take, ← List.length_reverse,
    List.take_length]

theorem length_filter_recent (p : α → Bool) (n : Nat) (h : List α) (x : α) :
    (((h ++ [x]).reverse.take (n + 1)).filter p).length +
        (if (h.reverse[n]?).any p then 1 else 0) =
      ((h.reverse.take (n + 1)).filter p).length + if p x then 1 else 0 := by
  rw [List.reverse_append, List.reverse_singleton, List.singleton_append, List.take_succ_cons,
    List.take_add_one, List.filter_append, List.filter_cons, List.length_append]
  cases h.reverse[n]? with
  | none => split <;> simp
  | some old =>
    by_cases dropped : p old = true
    · by_cases added : p x = true <;> simp [dropped, added]
    · by_cases added : p x = true <;> simp [dropped, added]

theorem entry_concat {h : List α} {j : Nat} {x y : α} (entry : (h ++ [x])[j]? = some y) :
    (j < h.length ∧ h[j]? = some y) ∨ (j = h.length ∧ y = x) := by
  rcases Nat.lt_trichotomy j h.length with old | new | beyond
  · rw [List.getElem?_append_left old] at entry
    exact .inl ⟨old, entry⟩
  · rw [new, List.getElem?_concat_length] at entry
    exact .inr ⟨new, (Option.some.inj entry).symm⟩
  · rw [List.getElem?_eq_none (by rw [List.length_append, List.length_singleton]; omega)] at entry
    cases entry

/-- Slot `(o + j) % N` holds entry `j` of the history, for its last `N` entries. -/
def Holds (N o : Nat) (slots : Nat → α) (h : List α) : Prop :=
  ∀ j x, h[j]? = some x → h.length ≤ j + N → slots ((o + j) % N) = x

/-- `n` consecutive slots from a position on, around the ring. -/
def window (N : Nat) (slots : Nat → α) (first n : Nat) : List α :=
  (List.range n).map fun i => slots ((first + i) % N)

@[simp] theorem length_window (N : Nat) (slots : Nat → α) (first n : Nat) :
    (window N slots first n).length = n := by
  rw [window, List.length_map, List.length_range]

theorem window_cons (N : Nat) (slots : Nat → α) (first n : Nat) :
    window N slots first (n + 1) = slots (first % N) :: window N slots (first + 1) n := by
  rw [window, List.range_succ_eq_map, List.map_cons, List.map_map, window]
  congr 1
  apply List.map_congr_left
  intro i _
  simp only [Function.comp_apply, Nat.succ_eq_add_one, Nat.add_assoc, Nat.add_comm 1]

theorem window_snoc (N : Nat) (slots : Nat → α) (first n : Nat) :
    window N slots first (n + 1) = window N slots first n ++ [slots ((first + n) % N)] := by
  rw [window, List.range_succ, List.map_append, List.map_singleton, window]

theorem window_update {N first n j : Nat} {slots : Nat → α} (x : α)
    (outside : ∀ i < n, (first + i) % N ≠ j) :
    window N (Function.update slots j x) first n = window N slots first n := by
  apply List.map_congr_left
  intro i member
  rw [Function.update_of_ne (outside i (List.mem_range.mp member))]

theorem window_mod (N : Nat) (slots : Nat → α) (first n : Nat) :
    window N slots (first % N) n = window N slots first n := by
  simp only [window, Nat.mod_add_mod]

theorem holds_nil (N o : Nat) (slots : Nat → α) : Holds N o slots [] := by
  intro j x entry
  cases entry

theorem holds_window (N : Nat) (slots : Nat → α) (first n : Nat) :
    Holds N first slots (window N slots first n) := by
  intro j x entry _
  obtain ⟨i, index, value⟩ := Option.map_eq_some_iff.mp ((List.getElem?_map ..).symm.trans entry)
  obtain ⟨lt, rfl⟩ := List.getElem?_eq_some_iff.mp index
  rw [List.getElem_range] at value
  exact value

theorem window_turns (N : Nat) (slots : Nat → α) (first k n : Nat) :
    window N slots (first + N * k) n = window N slots first n := by
  have turn : ∀ i, (first + N * k + i) % N = (first + i) % N := by
    intro i
    rw [Nat.add_right_comm, Nat.add_mul_mod_self_left]
  simp only [window, turn]

theorem window_rotate (N : Nat) (slots : Nat → α) (k : Nat) :
    window N slots k N = (window N slots 0 N).rotate k := by
  apply List.ext_getElem
  · rw [List.length_rotate, length_window, length_window]
  · intro i left right
    rw [length_window] at left
    rw [List.getElem_rotate]
    simp only [window, List.getElem_map, List.getElem_range, List.length_map, List.length_range]
    rw [Nat.zero_add, Nat.mod_mod, Nat.add_comm]

theorem slot_ne {N o i j : Nat} (less : i < j) (near : j < i + N) :
    (o + i) % N ≠ (o + j) % N := by
  intro same
  have gap : (o + j - (o + i)) % N = 0 := Nat.sub_mod_eq_zero_of_mod_eq same.symm
  rw [Nat.mod_eq_of_lt (by omega)] at gap
  omega

theorem Holds.push {N o : Nat} {slots : Nat → α} {h : List α} (holds : Holds N o slots h) (x : α) :
    Holds N o (Function.update slots ((o + h.length) % N) x) (h ++ [x]) := by
  intro j y entry recent
  rw [List.length_append, List.length_singleton] at recent
  rcases entry_concat entry with ⟨old, entry⟩ | ⟨rfl, rfl⟩
  · rw [Function.update_of_ne (slot_ne old (by omega))]
    exact holds j y entry (by omega)
  · rw [Function.update_self]

theorem Holds.window {N o n : Nat} {slots : Nat → α} {h : List α} (holds : Holds N o slots h)
    (fits : n ≤ N) (enough : n ≤ h.length) :
    Ring.window N slots (o + (h.length - n)) n = latest n h := by
  apply List.ext_getElem?
  intro i
  rw [Ring.window, latest, List.getElem?_map, List.getElem?_drop]
  rcases Nat.lt_or_ge i n with inside | outside
  · have here : h.length - n + i < h.length := by omega
    rw [List.getElem?_range inside, List.getElem?_eq_getElem here, Option.map_some, Nat.add_assoc,
      holds _ _ (List.getElem?_eq_getElem here) (by omega)]
  · rw [List.getElem?_eq_none (by rwa [List.length_range]), List.getElem?_eq_none (by omega)]
    rfl

end SV300.Library.Ring
