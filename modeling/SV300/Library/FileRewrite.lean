/- SV300/Library/FileRewrite
   digest: Files rewritten in place one after the other, and what they hold when that is cut short. -/

import Mathlib.Data.List.Basic
import Mathlib.Logic.Function.Basic
import SV300.Library.Runs

set_option autoImplicit false
set_option relaxedAutoImplicit false

namespace SV300.Library.FileRewrite

open SV300.Library.Runs

variable {φ β : Type*}

/-- What each file holds; none if there is no such file. -/
abbrev Disk (φ β : Type*) := φ → Option (List β)

inductive Op (φ β : Type*)
  | truncate (f : φ)
  | append (f : φ) (b : β)

def Op.file : Op φ β → φ
  | .truncate f => f
  | .append f _ => f

/-- A file is emptied as it is opened, then written from its start. -/
def rewrite (f : φ) (bs : List β) : List (Op φ β) := .truncate f :: bs.map (.append f)

theorem file_of_mem_rewrite {f : φ} {bs : List β} {o : Op φ β} (member : o ∈ rewrite f bs) :
    o.file = f := by
  rcases List.mem_cons.mp member with rfl | appended
  · rfl
  · obtain ⟨b, -, rfl⟩ := List.mem_map.mp appended
    rfl

theorem take_rewrite (f : φ) (bs : List β) (k : Nat) :
    (rewrite f bs).take (k + 1) = rewrite f (bs.take k) := by
  rw [rewrite, List.take_succ_cons, ← List.map_take, rewrite]

variable [DecidableEq φ]

def apply (d : Disk φ β) : Op φ β → Disk φ β
  | .truncate f => Function.update d f (some [])
  | .append f b => Function.update d f ((d f).map (· ++ [b]))

private theorem apply_elsewhere (d : Disk φ β) {o : Op φ β} {f : φ} (other : o.file ≠ f) :
    apply d o f = d f := by
  cases o <;> exact Function.update_of_ne (Ne.symm other) ..

theorem run_elsewhere {ops : List (Op φ β)} {f : φ} (other : ∀ o ∈ ops, o.file ≠ f) (d : Disk φ β) :
    run apply d ops f = d f := by
  induction ops generalizing d with
  | nil => rfl
  | cons o ops ih =>
    rw [run_cons, ih fun p member => other p (List.mem_cons_of_mem o member),
      apply_elsewhere d (other o List.mem_cons_self)]

theorem run_appends {d : Disk φ β} {f : φ} {cs : List β} (held : d f = some cs) (bs : List β) :
    run apply d (bs.map (.append f)) f = some (cs ++ bs) := by
  induction bs generalizing d cs with
  | nil => rw [List.append_nil]; exact held
  | cons b bs ih =>
    have next : apply d (.append f b) f = some (cs ++ [b]) := by
      rw [apply, Function.update_self, held, Option.map_some]
    rw [List.map_cons, run_cons, ih next, List.append_assoc, List.singleton_append]

theorem run_rewrite (d : Disk φ β) (f : φ) (bs : List β) :
    run apply d (rewrite f bs) f = some bs :=
  run_appends (Function.update_self f (some []) d) bs

/-- A rewrite among operations on other files, cut short after `j` of them: the file is as it was,
or holds what was written of it. -/
theorem run_cut (d : Disk φ β) (f : φ) (bs : List β) {before after : List (Op φ β)}
    (other_before : ∀ o ∈ before, o.file ≠ f) (other_after : ∀ o ∈ after, o.file ≠ f) (j : Nat) :
    run apply d ((before ++ rewrite f bs ++ after).take j) f =
      if j ≤ before.length then d f else some (bs.take (j - before.length - 1)) := by
  have head : ∀ o ∈ before.take j, o.file ≠ f := fun o member =>
    other_before o (List.mem_of_mem_take member)
  have tail : ∀ i, ∀ o ∈ after.take i, o.file ≠ f := fun i o member =>
    other_after o (List.mem_of_mem_take member)
  rw [List.append_assoc, List.take_append, List.take_append, run_append, run_append,
    run_elsewhere (tail _)]
  split_ifs with early
  · rw [Nat.sub_eq_zero_of_le early, List.take_zero, run_nil, run_elsewhere head]
  · obtain ⟨k, late⟩ : ∃ k, j - before.length = k + 1 := ⟨j - before.length - 1, by omega⟩
    rw [late, take_rewrite, run_rewrite, Nat.add_sub_cancel]

end SV300.Library.FileRewrite
