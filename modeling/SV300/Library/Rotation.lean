/- SV300/Library/Rotation
   digest: Named entries given up one at a time, the least key first, until enough room is left. -/

import Mathlib.Data.List.MinMax
import Mathlib.Algebra.Order.BigOperators.Group.List
import Mathlib.Algebra.Order.Ring.Nat

set_option autoImplicit false
set_option relaxedAutoImplicit false

namespace SV300.Library.Rotation

/-- What a rotation knows of an entry: its name, its key and whether it may be given up. -/
structure Rule (α ι β : Type*) where
  name : α → ι
  key : α → β
  old : α → Bool

variable {α ι β : Type*} (r : Rule α ι β)

section Definitions

variable [DecidableEq ι] [LinearOrder β]

/-- The first entry of least key among those that may go. -/
def Rule.oldest (fs : List α) : Option α := (fs.filter r.old).argmin r.key

def Rule.without (a : α) (fs : List α) : List α := fs.filter fun b => decide (r.name b ≠ r.name a)

/-- The entries with the oldest `n` gone. -/
def Rule.rest : Nat → List α → List α
  | 0, fs => fs
  | n + 1, fs =>
    match r.oldest fs with
    | none => fs
    | some a => Rule.rest n (r.without a fs)

/-- The entries given up on the way to `rest`, in their order. -/
def Rule.gone : Nat → List α → List α
  | 0, _ => []
  | n + 1, fs =>
    match r.oldest fs with
    | none => []
    | some a => a :: Rule.gone n (r.without a fs)

/-- Give up the oldest entry while there is one and `enough` does not hold. -/
def Rule.trim (enough : List α → Bool) : Nat → List α → Option (List α)
  | 0, _ => none
  | fuel + 1, fs =>
    match r.oldest fs with
    | none => some fs
    | some a => if enough fs then some fs else Rule.trim enough fuel (r.without a fs)

end Definitions

variable {r} {fs : List α} {a : α}

section Oldest

variable [LinearOrder β]

theorem Rule.oldest_mem (this : r.oldest fs = some a) : a ∈ fs ∧ r.old a = true :=
  List.mem_filter.mp (List.argmin_mem this)

theorem Rule.oldest_le (this : r.oldest fs = some a) {b : α} (inside : b ∈ fs)
    (old : r.old b = true) : r.key a ≤ r.key b :=
  List.le_of_mem_argmin (List.mem_filter.mpr ⟨inside, old⟩) this

theorem Rule.oldest_none : r.oldest fs = none ↔ ∀ b ∈ fs, r.old b = false := by
  rw [Rule.oldest, List.argmin_eq_none, List.filter_eq_nil_iff]
  simp only [Bool.not_eq_true]

end Oldest

section Without

variable [DecidableEq ι]

private theorem Rule.mem_without {b : α} : b ∈ r.without a fs ↔ b ∈ fs ∧ r.name b ≠ r.name a := by
  rw [Rule.without, List.mem_filter, decide_eq_true_eq]

private theorem Rule.without_length (inside : a ∈ fs) : (r.without a fs).length < fs.length :=
  List.length_filter_lt_length_iff_exists.mpr ⟨a, inside, by simp⟩

private theorem Rule.without_sublist : (r.without a fs).Sublist fs := List.filter_sublist

theorem Rule.perm_without (distinct : (fs.map r.name).Nodup) (inside : a ∈ fs) :
    fs.Perm (a :: r.without a fs) := by
  induction fs with
  | nil => cases inside
  | cons b fs ih =>
    rw [List.map_cons, List.nodup_cons] at distinct
    cases inside with
    | head =>
      have others : r.without a fs = fs := by
        refine List.filter_eq_self.mpr fun c hc => decide_eq_true ?_
        exact fun same => distinct.1 (same ▸ List.mem_map_of_mem hc)
      have first : r.without a (a :: fs) = r.without a fs := List.filter_cons_of_neg (by simp)
      rw [first, others]
    | tail _ inside =>
      have differs : r.name b ≠ r.name a := fun same =>
        distinct.1 (same ▸ List.mem_map_of_mem inside)
      have kept : r.without a (b :: fs) = b :: r.without a fs :=
        List.filter_cons_of_pos (decide_eq_true differs)
      rw [kept]
      exact ((ih distinct.2 inside).cons b).trans (.swap a b _)

end Without

variable [DecidableEq ι] [LinearOrder β]

theorem Rule.rest_sublist (n : Nat) (fs : List α) : (r.rest n fs).Sublist fs := by
  induction n generalizing fs with
  | zero => exact .refl fs
  | succ n ih =>
    rw [Rule.rest]
    cases r.oldest fs with
    | none => exact .refl fs
    | some a => exact (ih _).trans Rule.without_sublist

private theorem Rule.rest_of_none {fs : List α} (none : r.oldest fs = none) (n : Nat) :
    r.rest n fs = fs := by
  cases n with
  | zero => rfl
  | succ n => rw [Rule.rest, none]

private theorem Rule.rest_add (m n : Nat) (fs : List α) :
    r.rest (m + n) fs = r.rest n (r.rest m fs) := by
  induction m generalizing fs with
  | zero => rw [Nat.zero_add, Rule.rest]
  | succ m ih =>
    rw [Nat.add_right_comm, Rule.rest, Rule.rest]
    cases found : r.oldest fs with
    | none => exact (Rule.rest_of_none found n).symm
    | some a => exact ih _

theorem Rule.rest_antitone {m n : Nat} (le : m ≤ n) (fs : List α) :
    (r.rest n fs).Sublist (r.rest m fs) := by
  obtain ⟨k, rfl⟩ := Nat.exists_eq_add_of_le le
  rw [Rule.rest_add]
  exact Rule.rest_sublist k _

theorem Rule.rest_stays {n m : Nat} {fs : List α} (none : r.oldest (r.rest n fs) = none)
    (le : n ≤ m) : r.rest m fs = r.rest n fs := by
  obtain ⟨k, rfl⟩ := Nat.exists_eq_add_of_le le
  rw [Rule.rest_add, Rule.rest_of_none none]

theorem Rule.gone_perm_rest (n : Nat) {fs : List α} (distinct : (fs.map r.name).Nodup) :
    fs.Perm (r.gone n fs ++ r.rest n fs) := by
  induction n generalizing fs with
  | zero => exact .refl fs
  | succ n ih =>
    rw [Rule.gone, Rule.rest]
    cases found : r.oldest fs with
    | none => exact .refl fs
    | some a =>
      have fewer : ((r.without a fs).map r.name).Nodup :=
        (Rule.without_sublist.map r.name).nodup distinct
      exact (Rule.perm_without distinct (Rule.oldest_mem found).1).trans ((ih fewer).cons a)

theorem Rule.gone_old (n : Nat) (fs : List α) :
    ∀ a ∈ r.gone n fs, a ∈ fs ∧ r.old a = true := by
  induction n generalizing fs with
  | zero => exact fun a ha => absurd ha List.not_mem_nil
  | succ n ih =>
    rw [Rule.gone]
    cases found : r.oldest fs with
    | none => exact fun a ha => absurd ha List.not_mem_nil
    | some a =>
      intro b hb
      cases hb with
      | head => exact Rule.oldest_mem found
      | tail _ hb => exact ⟨(Rule.mem_without.mp (ih _ b hb).1).1, (ih _ b hb).2⟩

theorem Rule.gone_sorted (n : Nat) (fs : List α) :
    (r.gone n fs).Pairwise fun a b => r.key a ≤ r.key b := by
  induction n generalizing fs with
  | zero => exact .nil
  | succ n ih =>
    rw [Rule.gone]
    cases found : r.oldest fs with
    | none => exact .nil
    | some a =>
      refine .cons (fun b hb => ?_) (ih _)
      obtain ⟨inside, old⟩ := Rule.gone_old n _ b hb
      exact Rule.oldest_le found (Rule.mem_without.mp inside).1 old

theorem Rule.gone_le_rest (n : Nat) (fs : List α) :
    ∀ a ∈ r.gone n fs, ∀ b ∈ r.rest n fs, r.old b = true → r.key a ≤ r.key b := by
  induction n generalizing fs with
  | zero => exact fun a ha => absurd ha List.not_mem_nil
  | succ n ih =>
    rw [Rule.gone, Rule.rest]
    cases found : r.oldest fs with
    | none => exact fun a ha => absurd ha List.not_mem_nil
    | some a =>
      intro c hc b hb old
      cases hc with
      | head =>
        have inside := (Rule.rest_sublist n _).subset hb
        exact Rule.oldest_le found (Rule.mem_without.mp inside).1 old
      | tail _ hc => exact ih _ c hc b hb old

theorem Rule.mem_gone_iff {a : α} {n : Nat} {fs : List α} :
    a ∈ r.gone n fs ↔ ∃ k < n, r.oldest (r.rest k fs) = some a := by
  induction n generalizing fs with
  | zero => simp [Rule.gone]
  | succ n ih =>
    rw [Rule.gone]
    cases found : r.oldest fs with
    | none =>
      refine ⟨fun ha => absurd ha List.not_mem_nil, fun ⟨k, _, at_k⟩ => ?_⟩
      rw [Rule.rest_of_none found, found] at at_k
      cases at_k
    | some b =>
      have later (k : Nat) : r.rest (k + 1) fs = r.rest k (r.without b fs) := by
        rw [Rule.rest, found]
      rw [List.mem_cons, ih]
      constructor
      · rintro (rfl | ⟨k, below, at_k⟩)
        · exact ⟨0, Nat.succ_pos n, found⟩
        · exact ⟨k + 1, Nat.succ_lt_succ below, (later k).symm ▸ at_k⟩
      · rintro ⟨k, below, at_k⟩
        cases k with
        | zero => exact .inl (Option.some.inj (at_k.symm.trans found))
        | succ k => exact .inr ⟨k, Nat.lt_of_succ_lt_succ below, later k ▸ at_k⟩

/-- Within as many rounds as there are entries the loop ends, at the first rest that has enough room
or holds nothing more to give up. -/
theorem Rule.trim_eq_rest (enough : List α → Bool) {fuel : Nat} {fs : List α}
    (fueled : fs.length < fuel) :
    ∃ n, r.trim enough fuel fs = some (r.rest n fs) ∧
      (∀ k < n, enough (r.rest k fs) = false) ∧
      (r.oldest (r.rest n fs) = none ∨ enough (r.rest n fs) = true) := by
  induction fuel generalizing fs with
  | zero => exact absurd fueled (Nat.not_lt_zero _)
  | succ fuel ih =>
    rw [Rule.trim]
    cases found : r.oldest fs with
    | none => exact ⟨0, rfl, fun k below => absurd below (Nat.not_lt_zero k), .inl found⟩
    | some a =>
      cases room : enough fs with
      | true => exact ⟨0, rfl, fun k below => absurd below (Nat.not_lt_zero k), .inr room⟩
      | false =>
        have fewer : (r.without a fs).length < fuel :=
          lt_of_lt_of_le (Rule.without_length (Rule.oldest_mem found).1)
            (Nat.lt_succ_iff.mp fueled)
        have later (k : Nat) : r.rest (k + 1) fs = r.rest k (r.without a fs) := by
          rw [Rule.rest, found]
        obtain ⟨n, ends, before, last⟩ := ih fewer
        refine ⟨n + 1, by simpa [later] using ends, fun k below => ?_, later n ▸ last⟩
        cases k with
        | zero => exact room
        | succ k => exact later k ▸ before k (Nat.lt_of_succ_lt_succ below)

end SV300.Library.Rotation
