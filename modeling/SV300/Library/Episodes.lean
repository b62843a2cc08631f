/- SV300/Library/Episodes
   digest: The episodes of a condition that comes and goes, each a required gap after the last. -/

import Mathlib.Data.List.Basic

set_option autoImplicit false
set_option relaxedAutoImplicit false

namespace SV300.Library.Episodes

/-- A finished episode, with the gap it had to keep from the one before. -/
structure Episode where
  start : Nat
  stop : Nat
  gap : Nat
  deriving DecidableEq

/-- The episodes seen: the start and the gap of one that is open, and the finished ones, newest
first. -/
structure History where
  opened : Option (Nat × Nat)
  closed : List Episode
  deriving DecidableEq

def History.none : History := ⟨.none, []⟩

def History.observe (h : History) (was is : Prop) [Decidable was] [Decidable is] (now gap : Nat) :
    History :=
  if ¬ was ∧ is then { h with opened := some (now, gap) }
  else if was ∧ ¬ is then
    { opened := .none
      closed := (h.opened.toList.map fun o => ⟨o.1, now, o.2⟩) ++ h.closed }
  else h

/-- The last finished episode ended more than the gap before. -/
def Clear (closed : List Episode) (gap now : Nat) : Prop :=
  ∀ e ∈ closed.head?, e.stop + gap < now

/-- No episode ends before it starts, and each starts more than its gap after the one before. -/
def Spaced : List Episode → Prop
  | [] => True
  | e :: es => e.start ≤ e.stop ∧ Clear es e.gap e.start ∧ Spaced es

/-- The finished episodes are spaced, and so is the open one. -/
structure History.WellFormed (h : History) : Prop where
  closed : Spaced h.closed
  opened : ∀ o ∈ h.opened, Clear h.closed o.2 o.1

theorem wellFormed_none : History.none.WellFormed := ⟨trivial, nofun⟩

section Observe

variable {h : History} {was is : Prop} [Decidable was] [Decidable is] {now gap : Nat}

theorem observe_same (same : was ↔ is) : h.observe was is now gap = h := by
  rw [History.observe, if_neg fun k => k.1 (same.mpr k.2), if_neg fun k => k.2 (same.mp k.1)]

theorem observe_start (before : ¬ was) (after : is) :
    h.observe was is now gap = { h with opened := some (now, gap) } := by
  rw [History.observe, if_pos ⟨before, after⟩]

theorem observe_stop {start g : Nat} (before : was) (after : ¬ is)
    (isOpen : h.opened = some (start, g)) :
    h.observe was is now gap = ⟨.none, ⟨start, now, g⟩ :: h.closed⟩ := by
  rw [History.observe, if_neg fun k => k.1 before, if_pos ⟨before, after⟩, isOpen]
  rfl

end Observe

theorem History.WellFormed.start {h : History} (ok : h.WellFormed) {now gap : Nat}
    (clear : Clear h.closed gap now) :
    History.WellFormed { h with opened := some (now, gap) } where
  closed := ok.closed
  opened := by
    intro o mem
    rw [Option.mem_some] at mem
    rw [← mem]
    exact clear

theorem History.WellFormed.stop {h : History} (ok : h.WellFormed) {start g now : Nat}
    (isOpen : h.opened = some (start, g)) (later : start ≤ now) :
    History.WellFormed ⟨.none, ⟨start, now, g⟩ :: h.closed⟩ where
  closed := ⟨later, ok.opened (start, g) isOpen, ok.closed⟩
  opened := nofun

theorem Clear.mono {closed : List Episode} {gap gap' now now' : Nat} (clear : Clear closed gap now)
    (less : gap' ≤ gap) (later : now ≤ now') : Clear closed gap' now' := by
  intro e mem
  have := clear e mem
  omega

end SV300.Library.Episodes
