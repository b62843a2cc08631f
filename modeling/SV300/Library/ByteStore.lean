/- SV300/Library/ByteStore
   digest: A byte store written one byte at a time, so that a power cut is a prefix of the writes. -/

import Mathlib.Logic.Function.Basic
import Mathlib.Data.List.Basic

set_option autoImplicit false
set_option relaxedAutoImplicit false

namespace SV300.Library.ByteStore

abbrev Store := Nat → UInt8

/-- The byte writes of an operation in the order they reach the memory. -/
abbrev Writes := List (Nat × UInt8)

def apply (ws : Writes) (s : Store) : Store :=
  ws.foldl (fun s w => Function.update s w.1 w.2) s

def block : Nat → List UInt8 → Writes
  | _, [] => []
  | off, b :: bs => (off, b) :: block (off + 1) bs

def read (s : Store) : Nat → Nat → List UInt8
  | _, 0 => []
  | off, n + 1 => s off :: read s (off + 1) n

@[simp] theorem apply_nil (s : Store) : apply [] s = s := rfl

@[simp] theorem apply_cons (w : Nat × UInt8) (ws : Writes) (s : Store) :
    apply (w :: ws) s = apply ws (Function.update s w.1 w.2) := rfl

theorem apply_append (ws vs : Writes) (s : Store) :
    apply (ws ++ vs) s = apply vs (apply ws s) :=
  List.foldl_append

@[simp] theorem length_block (off : Nat) (bs : List UInt8) : (block off bs).length = bs.length := by
  induction bs generalizing off with
  | nil => rfl
  | cons b bs ih => simp [block, ih]

@[simp] theorem length_read (s : Store) (off n : Nat) : (read s off n).length = n := by
  induction n generalizing off with
  | zero => rfl
  | succ n ih => simp [read, ih]

theorem block_append (off : Nat) (as bs : List UInt8) :
    block off (as ++ bs) = block off as ++ block (off + as.length) bs := by
  induction as generalizing off with
  | nil => rfl
  | cons a as ih =>
    simp only [List.cons_append, block, ih, List.length_cons]
    rw [show off + 1 + as.length = off + (as.length + 1) by omega]

theorem take_block (off k : Nat) (bs : List UInt8) :
    (block off bs).take k = block off (bs.take k) := by
  induction bs generalizing off k with
  | nil => simp [block]
  | cons b bs ih =>
    cases k with
    | zero => rfl
    | succ k => simp only [block, List.take_succ_cons, ih]

private theorem read_congr {s t : Store} {off n : Nat}
    (same : ∀ a, off ≤ a → a < off + n → s a = t a) : read s off n = read t off n := by
  induction n generalizing off with
  | zero => rfl
  | succ n ih =>
    simp only [read]
    rw [same off (Nat.le_refl off) (by omega),
      ih (fun a lo hi => same a (by omega) (by omega))]

theorem read_append (s : Store) (off m n : Nat) :
    read s off (m + n) = read s off m ++ read s (off + m) n := by
  induction m generalizing off with
  | zero => simp [read]
  | succ m ih =>
    rw [show m + 1 + n = (m + n) + 1 by omega]
    simp only [read, ih, List.cons_append]
    rw [show off + 1 + m = off + (m + 1) by omega]

private theorem apply_block_outside (s : Store) (off : Nat) (bs : List UInt8) (a : Nat)
    (out : a < off ∨ off + bs.length ≤ a) : apply (block off bs) s a = s a := by
  induction bs generalizing off s with
  | nil => rfl
  | cons b bs ih =>
    simp only [List.length_cons] at out
    simp only [block, apply_cons]
    rw [ih _ (off + 1) (by omega)]
    exact Function.update_of_ne (by omega) _ _

theorem read_apply_disjoint (s : Store) (off n off' : Nat) (bs : List UInt8)
    (out : off + n ≤ off' ∨ off' + bs.length ≤ off) :
    read (apply (block off' bs) s) off n = read s off n :=
  read_congr fun a lo hi => apply_block_outside s off' bs a (by omega)

private theorem read_apply_block (s : Store) (off : Nat) (bs : List UInt8) :
    read (apply (block off bs) s) off bs.length = bs := by
  induction bs generalizing off s with
  | nil => rfl
  | cons b bs ih =>
    simp only [List.length_cons, block, apply_cons, read]
    rw [ih, apply_block_outside _ _ _ _ (by omega), Function.update_self]

theorem read_apply_prefix (s : Store) (off n : Nat) (bs : List UInt8) (fits : bs.length ≤ n) :
    read (apply (block off bs) s) off n = bs ++ (read s off n).drop bs.length := by
  obtain ⟨m, rfl⟩ := Nat.exists_eq_add_of_le fits
  rw [read_append, read_apply_block, read_apply_disjoint _ _ _ _ _ (by omega), read_append]
  rw [List.drop_left' (length_read s off bs.length)]

theorem read_apply_within (s : Store) (off n a : Nat) (bs : List UInt8) (fits : a + bs.length ≤ n) :
    read (apply (block (off + a) bs) s) off n =
      (read s off n).take a ++ bs ++ (read s off n).drop (a + bs.length) := by
  obtain ⟨m, rfl⟩ := Nat.exists_eq_add_of_le fits
  have old : read s off (a + bs.length + m) =
      read s off a ++ read s (off + a) bs.length ++ read s (off + (a + bs.length)) m := by
    rw [read_append, read_append]
  have front : (read s off a ++ read s (off + a) bs.length).length = a + bs.length := by simp
  have new : read (apply (block (off + a) bs) s) off (a + bs.length + m) =
      read s off a ++ bs ++ read s (off + (a + bs.length)) m := by
    rw [read_append, read_append, read_apply_block, read_apply_disjoint _ _ _ _ _ (by omega),
      read_apply_disjoint _ _ _ _ _ (by omega)]
  have kept : (read s off a ++ read s (off + a) bs.length ++
      read s (off + (a + bs.length)) m).take a = read s off a := by
    rw [List.append_assoc, List.take_left' (length_read s off a)]
  rw [new, old, List.drop_left' front, kept]

end SV300.Library.ByteStore
