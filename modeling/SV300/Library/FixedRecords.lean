/- SV300/Library/FixedRecords
   digest: Files of records of one length, written one behind the other. -/

import SV300.Library.Ring

set_option autoImplicit false
set_option relaxedAutoImplicit false

namespace SV300.Library.FixedRecords

open SV300.Library.Ring

variable {β : Type*} {n : Nat}

abbrev Record (β : Type*) (n : Nat) := { bs : List β // bs.length = n }

def file (rs : List (Record β n)) : List β := rs.flatMap Subtype.val

@[simp] theorem file_nil : file ([] : List (Record β n)) = [] := rfl

theorem file_append (rs ss : List (Record β n)) : file (rs ++ ss) = file rs ++ file ss :=
  List.flatMap_append

theorem file_concat (rs : List (Record β n)) (r : Record β n) :
    file (rs ++ [r]) = file rs ++ r.1 := by
  rw [file_append, file, file, List.flatMap_singleton]

theorem length_file (rs : List (Record β n)) : (file rs).length = n * rs.length := by
  induction rs with
  | nil => rfl
  | cons r rs ih =>
    have first : file (r :: rs) = r.1 ++ file rs := List.flatMap_cons
    rw [first, List.length_append, ih, r.2, List.length_cons, Nat.mul_succ, Nat.add_comm]

theorem drop_file (rs : List (Record β n)) (k : Nat) :
    (file rs).drop ((file rs).length - n * k) = file (latest k rs) := by
  have parts : file rs = file (rs.take (rs.length - k)) ++ file (latest k rs) := by
    rw [latest, ← file_append, List.take_append_drop]
  have before : (file rs).length - n * k = (file (rs.take (rs.length - k))).length := by
    rw [length_file, length_file, List.length_take, Nat.min_eq_left (Nat.sub_le _ _), Nat.mul_sub]
  rw [before, parts, List.drop_left]

/-- The end of a history, with its last `k` entries at least. -/
structure Tail {α : Type*} (k : Nat) (rs h : List α) : Prop where
  suffix : rs <:+ h
  enough : min k h.length ≤ rs.length

theorem Tail.refl {α : Type*} (k : Nat) (h : List α) : Tail k h h where
  suffix := List.suffix_rfl
  enough := Nat.min_le_right ..

theorem Tail.concat {α : Type*} {k : Nat} {rs h : List α} (tail : Tail k rs h) (x : α) :
    Tail k (rs ++ [x]) (h ++ [x]) where
  suffix := by
    obtain ⟨front, rfl⟩ := tail.suffix
    exact ⟨front, List.append_assoc .. |>.symm⟩
  enough := by
    have enough := tail.enough
    rw [List.length_append, List.length_append, List.length_singleton]
    omega

theorem Tail.newest {α : Type*} {k : Nat} {rs h : List α} (tail : Tail k rs h) :
    Tail k (latest k rs) h where
  suffix := (List.drop_suffix _ _).trans tail.suffix
  enough := by
    have enough := tail.enough
    rw [length_latest]
    omega

theorem Tail.latest_eq {α : Type*} {k j : Nat} {rs h : List α} (tail : Tail k rs h) (le : j ≤ k) :
    latest j rs = latest j h := by
  obtain ⟨front, rfl⟩ := tail.suffix
  have enough := tail.enough
  rw [List.length_append] at enough
  rw [latest, latest, List.length_append]
  rcases Nat.lt_or_ge rs.length j with short | long
  · have none : front = [] := List.length_eq_zero_iff.mp (by omega)
    rw [none, List.nil_append, List.length_nil, Nat.zero_add]
  · have past : front.length + rs.length - j = front.length + (rs.length - j) := by omega
    rw [past, ← List.drop_drop, List.drop_left]

/-- The records stand somewhere in the bytes, behind whole records. -/
def Holds (bs : List β) (rs : List (Record β n)) : Prop :=
  ∃ (front : List (Record β n)) (back : List β), bs = file front ++ file rs ++ back

theorem Holds.length {bs : List β} {rs : List (Record β n)} (holds : Holds bs rs) :
    n * rs.length ≤ bs.length := by
  obtain ⟨front, back, rfl⟩ := holds
  rw [List.length_append, List.length_append, length_file rs]
  omega

theorem holds_latest (k : Nat) (rs : List (Record β n)) (back : List β) :
    Holds (file rs ++ back) (latest k rs) := by
  refine ⟨rs.take (rs.length - k), back, ?_⟩
  rw [latest, ← file_append, List.take_append_drop]

end SV300.Library.FixedRecords
