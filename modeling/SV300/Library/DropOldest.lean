/- SV300/Library/DropOldest
   digest: A queue of bounded length that gives up its oldest entry for a new one. -/

import SV300.Library.Ring
import SV300.Library.Runs

set_option autoImplicit false
set_option relaxedAutoImplicit false

namespace SV300.Library.DropOldest

open SV300.Library.Ring SV300.Library.Runs

variable {α : Type*}

/-- The new entry goes behind the others, of which the last ones are kept. -/
def put (N : Nat) (q : List α) (x : α) : List α := latest N (q ++ [x])

theorem put_of_room {N : Nat} {q : List α} (room : q.length < N) (x : α) : put N q x = q ++ [x] := by
  apply latest_of_short
  rw [List.length_append]
  exact room

theorem put_of_full {N : Nat} {q : List α} (full : q.length = N) (some : 0 < N) (x : α) :
    put N q x = q.tail ++ [x] := by
  cases q with
  | nil => exact absurd full.symm (Nat.pos_iff_ne_zero.mp some)
  | cons y q =>
    have one : (y :: q ++ [x]).length - N = 1 := by
      rw [List.length_append, full, Nat.add_sub_cancel_left, List.length_singleton]
    rw [put, latest, one]
    rfl

inductive Op (α : Type*)
  | put (x : α)
  | take

/-- The queue with all that was put and all that was taken. -/
structure Log (α : Type*) where
  queue : List α
  entered : List α
  taken : List α

def Log.empty : Log α := ⟨[], [], []⟩

def record (N : Nat) (l : Log α) : Op α → Log α
  | .put x => { l with queue := put N l.queue x, entered := l.entered ++ [x] }
  | .take => { l with queue := l.queue.tail, taken := l.taken ++ l.queue.head?.toList }

/-- The queue holds the newest entries, and what was taken and what it holds entered in this order,
each once. -/
structure Log.Sound (N : Nat) (l : Log α) : Prop where
  bounded : l.queue.length ≤ N
  newest : l.queue <:+ l.entered
  once : List.Sublist (l.taken ++ l.queue) l.entered

private theorem head_append_tail (q : List α) : q.head?.toList ++ q.tail = q := by
  cases q <;> rfl

theorem Log.Sound.record {N : Nat} {l : Log α} (sound : l.Sound N) (o : Op α) :
    (record N l o).Sound N := by
  cases o with
  | put x =>
    have tail : put N l.queue x <:+ l.queue ++ [x] := List.drop_suffix ..
    constructor
    · change (latest N (l.queue ++ [x])).length ≤ N
      rw [length_latest]
      exact Nat.min_le_left ..
    · obtain ⟨before, whole⟩ := sound.newest
      exact tail.trans ⟨before, by rw [← List.append_assoc, whole]; rfl⟩
    · have kept : List.Sublist (l.taken ++ put N l.queue x) (l.taken ++ (l.queue ++ [x])) :=
        (List.Sublist.refl _).append tail.sublist
      rw [← List.append_assoc] at kept
      exact kept.trans (sound.once.append (List.Sublist.refl _))
  | take =>
    constructor
    · change l.queue.tail.length ≤ N
      rw [List.length_tail]
      exact (Nat.sub_le ..).trans sound.bounded
    · exact (List.tail_suffix _).trans sound.newest
    · change List.Sublist (l.taken ++ l.queue.head?.toList ++ l.queue.tail) l.entered
      rw [List.append_assoc, head_append_tail]
      exact sound.once

theorem sound_empty (N : Nat) : (Log.empty : Log α).Sound N :=
  ⟨Nat.zero_le N, List.nil_suffix, List.nil_sublist _⟩

end SV300.Library.DropOldest
