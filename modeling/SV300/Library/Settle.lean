/- SV300/Library/Settle
   digest: The debounced level of a history of samples, the filter that tracks it, and how long its
   initial level matters. -/

import Mathlib.Data.List.Basic

set_option autoImplicit false
set_option relaxedAutoImplicit false

namespace SV300.Library.Settle

variable (d : Nat)

/-- The newest `d` samples of a history, newest first, are all `b`. -/
def Held (b : Bool) (h : List Bool) : Prop := d ≤ (h.takeWhile (· == b)).length

instance (b : Bool) (h : List Bool) : Decidable (Held d b h) := Nat.decLe _ _

def level (init : Bool) : List Bool → Bool
  | [] => init
  | x :: h => if Held d x (x :: h) then x else level init h

def settled : List Bool → Option Bool
  | [] => none
  | x :: h => (settled h).or (if Held d x (x :: h) then some x else none)

/-- A sample makes the debounced level active. -/
def Rises (init : Bool) (h : List Bool) (x : Bool) : Prop :=
  level d init h = false ∧ level d init (x :: h) = true

instance (init : Bool) (h : List Bool) (x : Bool) : Decidable (Rises d init h x) :=
  inferInstanceAs (Decidable (_ ∧ _))

variable {d}

private theorem level_of_held {init x : Bool} {h : List Bool} (held : Held d x (x :: h)) :
    level d init (x :: h) = x :=
  if_pos held

private theorem level_of_short {init x : Bool} {h : List Bool} (short : ¬ Held d x (x :: h)) :
    level d init (x :: h) = level d init h :=
  if_neg short

private theorem settled_of_held {x : Bool} {h : List Bool} (none : settled d h = none)
    (held : Held d x (x :: h)) : settled d (x :: h) = some x := by
  rw [settled, none, Option.none_or, if_pos held]

private theorem settled_of_short {x : Bool} {h : List Bool} (short : ¬ Held d x (x :: h)) :
    settled d (x :: h) = settled d h := by
  rw [settled, if_neg short, Option.or_none]

theorem settled_cons {b : Bool} {h : List Bool} (first : settled d h = some b) (x : Bool) :
    settled d (x :: h) = some b := by
  rw [settled, first, Option.some_or]

theorem settled_append {b : Bool} {h : List Bool} (first : settled d h = some b) (g : List Bool) :
    settled d (g ++ h) = some b := by
  induction g with
  | nil => exact first
  | cons x g ih => exact settled_cons ih x

private theorem level_of_unsettled (init : Bool) {h : List Bool} (unsettled : settled d h = none) :
    level d init h = init := by
  induction h with
  | nil => rfl
  | cons x h ih =>
    rw [settled, Option.or_eq_none_iff] at unsettled
    have short : ¬ Held d x (x :: h) := by
      intro held
      rw [if_pos held] at unsettled
      cases unsettled.2
    rw [level_of_short short, ih unsettled.1]

private theorem level_of_settled (init init' : Bool) {b : Bool} {h : List Bool}
    (first : settled d h = some b) : level d init h = level d init' h := by
  induction h generalizing b with
  | nil => cases first
  | cons x h ih =>
    by_cases held : Held d x (x :: h)
    · rw [level_of_held held, level_of_held held]
    · rw [level_of_short held, level_of_short held]
      rw [settled_of_short held] at first
      exact ih first

/-- From the two initial levels a sample raises the debounced level in the same way, unless it makes
the active level the first that holds. -/
theorem rises_iff_rises (init : Bool) (h : List Bool) (x : Bool) :
    (Rises d (!init) h x ↔ Rises d init h x) ↔
      (settled d h = none → settled d (x :: h) ≠ some true) := by
  cases first : settled d h with
  | some b =>
    have before := level_of_settled (!init) init first
    have after := level_of_settled (!init) init (settled_cons first x)
    rw [Rises, Rises, before, after]
    exact iff_of_true Iff.rfl nofun
  | none =>
    rw [Rises, Rises, level_of_unsettled _ first, level_of_unsettled _ first]
    by_cases held : Held d x (x :: h)
    · rw [level_of_held held, level_of_held held, settled_of_held first held]
      cases init <;> cases x <;> decide
    · rw [level_of_short held, level_of_short held, level_of_unsettled _ first,
        level_of_unsettled _ first, settled_of_short held, first]
      refine iff_of_true ⟨?_, ?_⟩ nofun
      all_goals
        rintro ⟨low, high⟩
        rw [low] at high
        cases high

/-- The level a filter shows, and for how many samples the input has differed from it. -/
structure Filter where
  level : Bool
  count : Nat
  deriving DecidableEq

variable (d) in
def Filter.step (f : Filter) (x : Bool) : Filter :=
  if x = f.level then ⟨f.level, 0⟩
  else if d ≤ f.count + 1 then ⟨x, 0⟩ else ⟨f.level, f.count + 1⟩

variable (d) in
/-- A filter shows the debounced level of a history and counts the newest samples that differ. -/
structure Tracks (init : Bool) (h : List Bool) (f : Filter) : Prop where
  level : f.level = level d init h
  count : f.count = (h.takeWhile (· == !f.level)).length

theorem tracks_start (init : Bool) : Tracks d init [] ⟨init, 0⟩ := ⟨rfl, rfl⟩

theorem Tracks.step {init : Bool} {h : List Bool} {f : Filter} (t : Tracks d init h f) (x : Bool) :
    Tracks d init (x :: h) (f.step d x) := by
  unfold Filter.step
  by_cases same : x = f.level
  · rw [if_pos same]
    refine ⟨?_, ?_⟩
    · by_cases held : Held d x (x :: h)
      · rw [level_of_held held, same]
      · rw [level_of_short held, t.level]
    · subst same
      cases f.level <;> rfl
  · have other : x = !f.level := Bool.eq_not.mpr same
    have longer : ((x :: h).takeWhile (· == x)).length = f.count + 1 := by
      rw [List.takeWhile_cons, if_pos (beq_self_eq_true x), List.length_cons, t.count, ← other]
    rw [if_neg same]
    by_cases due : d ≤ f.count + 1
    · have held : Held d x (x :: h) := by rw [Held, longer]; exact due
      rw [if_pos due]
      refine ⟨(level_of_held held).symm, ?_⟩
      cases x <;> rfl
    · have short : ¬ Held d x (x :: h) := by rw [Held, longer]; exact due
      rw [if_neg due]
      refine ⟨by rw [level_of_short short, t.level], ?_⟩
      rw [← other, longer]

theorem Filter.step_count_lt (positive : 0 < d) (f : Filter) (x : Bool) : (f.step d x).count < d := by
  unfold Filter.step
  by_cases same : x = f.level
  · rw [if_pos same]
    exact positive
  · rw [if_neg same]
    by_cases due : d ≤ f.count + 1
    · rw [if_pos due]
      exact positive
    · rw [if_neg due]
      exact Nat.lt_of_not_le due

theorem Tracks.rises_iff {init : Bool} {h : List Bool} {f : Filter} (t : Tracks d init h f)
    (x : Bool) : (f.level = false ∧ (f.step d x).level = true) ↔ Rises d init h x := by
  rw [Rises, t.level, (t.step x).level]

end SV300.Library.Settle
