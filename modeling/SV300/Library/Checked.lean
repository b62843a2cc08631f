/- SV300/Library/Checked
   digest: Arrays whose every access is checked, and loops that write them place by place. -/

import Mathlib.Data.List.Nodup
import Mathlib.Data.List.Range
import Mathlib.Logic.Function.Basic

set_option autoImplicit false
set_option relaxedAutoImplicit false

namespace SV300.Library.Checked

variable {α σ κ : Type} {m n : Nat}

abbrev Cells (n : Nat) (α : Type) := Fin n → α

/-- The element at an index; none outside of the array. -/
def read (a : Cells n α) (i : Int) : Option α :=
  if h : 0 ≤ i ∧ i < n then some (a ⟨i.toNat, by omega⟩) else none

def write (a : Cells n α) (i : Int) (x : α) : Option (Cells n α) :=
  if h : 0 ≤ i ∧ i < n then some (Function.update a ⟨i.toNat, by omega⟩ x) else none

theorem read_at (a : Cells n α) {i : Int} {k : Fin n} (here : i = k.val) :
    read a i = some (a k) := by
  subst here
  rw [read, dif_pos ⟨Int.natCast_nonneg _, Int.ofNat_lt.mpr k.isLt⟩]
  rfl

theorem read_pred (a : Cells n α) {k : Nat} (pos : 1 ≤ k) (inside : k - 1 < n) :
    read a ((k : Int) - 1) = some (a ⟨k - 1, inside⟩) :=
  read_at a (Int.ofNat_sub pos).symm

theorem read_succ (a : Cells n α) {k : Nat} (inside : k + 1 < n) :
    read a ((k : Int) + 1) = some (a ⟨k + 1, inside⟩) :=
  read_at a rfl

theorem write_at (a : Cells n α) {i : Int} {k : Fin n} (here : i = k.val) (x : α) :
    write a i x = some (Function.update a k x) := by
  subst here
  rw [write, dif_pos ⟨Int.natCast_nonneg _, Int.ofNat_lt.mpr k.isLt⟩]
  rfl

theorem some_bind (x : α) (f : α → Option σ) : (some x >>= f) = f x := rfl

abbrev Grid (m n : Nat) (α : Type) := Cells m (Cells n α)

def readAt (g : Grid m n α) (i j : Int) : Option α := do
  read (← read g i) j

def writeAt (g : Grid m n α) (i j : Int) (x : α) : Option (Grid m n α) := do
  write g i (← write (← read g i) j x)

def Grid.put (g : Grid m n α) (p : Fin m × Fin n) (x : α) : Grid m n α :=
  Function.update g p.1 (Function.update (g p.1) p.2 x)

theorem readAt_at (g : Grid m n α) {i j : Int} {p : Fin m × Fin n} (row : i = p.1.val)
    (column : j = p.2.val) : readAt g i j = some (g p.1 p.2) := by
  rw [readAt, read_at g row]
  exact read_at (g p.1) column

theorem writeAt_at (g : Grid m n α) {i j : Int} {p : Fin m × Fin n} (row : i = p.1.val)
    (column : j = p.2.val) (x : α) : writeAt g i j x = some (g.put p x) := by
  rw [writeAt, read_at g row, Option.bind_eq_bind, Option.bind_some, write_at (g p.1) column,
    Option.bind_some]
  exact write_at g row _

private theorem put_same (g : Grid m n α) (p : Fin m × Fin n) (x : α) : g.put p x p.1 p.2 = x := by
  rw [Grid.put, Function.update_self, Function.update_self]

private theorem put_other (g : Grid m n α) {p r : Fin m × Fin n} (other : r ≠ p) (x : α) :
    g.put p x r.1 r.2 = g r.1 r.2 := by
  rw [Grid.put]
  by_cases row : r.1 = p.1
  · have column : r.2 ≠ p.2 := fun same => other (Prod.ext row same)
    rw [row, Function.update_self, Function.update_of_ne column]
  · rw [Function.update_of_ne row]

theorem foldlM_some {f : σ → κ → Option σ} {g : σ → κ → σ} {ks : List κ}
    (through : ∀ k ∈ ks, ∀ s, f s k = some (g s k)) (s : σ) :
    ks.foldlM f s = some (ks.foldl g s) := by
  induction ks generalizing s with
  | nil => rfl
  | cons k ks ih =>
    rw [List.foldlM_cons, through k List.mem_cons_self, Option.bind_eq_bind, Option.bind_some]
    exact ih (fun j member => through j (List.mem_cons_of_mem k member)) _

theorem foldlM_fill {f : Nat → Option α} {v : Cells n α} {s k : Nat} (inside : s + k ≤ n)
    (gives : ∀ i : Fin n, s ≤ i.val → i.val < s + k → f i = some (v i)) (a : Cells n α) :
    (List.range' s k).foldlM (fun a (i : Nat) => do write a i (← f i)) a =
      some fun i => if s ≤ i.val ∧ i.val < s + k then v i else a i := by
  induction k with
  | zero =>
    refine congrArg some (funext fun i => (if_neg ?_).symm)
    omega
  | succ k ih =>
    have last : s + k < n := by omega
    have before := ih (by omega) fun i low high => gives i low (by omega)
    have value := gives ⟨s + k, last⟩ (Nat.le_add_right s k) (by simp)
    rw [List.range'_concat, Nat.one_mul, List.foldlM_append, before]
    simp only [Option.bind_eq_bind, Option.bind_some, List.foldlM_cons, List.foldlM_nil, value,
      write_at _ (k := ⟨s + k, last⟩) rfl]
    refine congrArg some (funext fun i => ?_)
    by_cases here : i = ⟨s + k, last⟩
    · rw [here, Function.update_self, if_pos ⟨Nat.le_add_right s k, by simp⟩]
    · have other : i.val ≠ s + k := fun same => here (Fin.ext same)
      rw [Function.update_of_ne here]
      refine if_congr ?_ rfl rfl
      omega

/-- A loop that puts a value at each of its places, where it is to; no two places are the same. -/
theorem foldl_put {ks : List κ} {place : κ → Fin m × Fin n} (on : κ → Bool) (v : κ → α)
    (distinct : (ks.map place).Nodup) (g : Grid m n α) :
    let after := ks.foldl (fun g k => if on k then g.put (place k) (v k) else g) g
    (∀ k ∈ ks, on k = true → after (place k).1 (place k).2 = v k) ∧
      ∀ p : Fin m × Fin n, (∀ k ∈ ks, on k = true → place k ≠ p) →
        after p.1 p.2 = g p.1 p.2 := by
  induction ks generalizing g with
  | nil => exact ⟨nofun, fun _ _ => rfl⟩
  | cons k ks ih =>
    rw [List.map_cons, List.nodup_cons] at distinct
    obtain ⟨apart, rest⟩ := distinct
    obtain ⟨placed, kept⟩ := ih rest (if on k then g.put (place k) (v k) else g)
    refine ⟨fun j member onj => ?_, fun p away => ?_⟩
    · rcases List.mem_cons.mp member with rfl | later
      · have gone : ∀ i ∈ ks, on i = true → place i ≠ place j := fun i inside _ same =>
          apart (same ▸ List.mem_map_of_mem inside)
        rw [List.foldl_cons, kept (place j) gone, if_pos onj, put_same]
      · exact placed j later onj
    · have here := kept p fun i inside => away i (List.mem_cons_of_mem k inside)
      rw [List.foldl_cons, here]
      split_ifs with onk
      · exact put_other g (away k List.mem_cons_self onk).symm (v k)
      · rfl

end SV300.Library.Checked
