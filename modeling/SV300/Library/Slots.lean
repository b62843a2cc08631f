/- SV300/Library/Slots
   digest: Slots of a growing quantity, read off as differences of a display that shows whole units. -/

import Mathlib.Algebra.BigOperators.Group.List.Basic
import Mathlib.Algebra.GroupWithZero.Nat

set_option autoImplicit false
set_option relaxedAutoImplicit false

namespace SV300.Library.Slots

/-- A closed slot: the quantity when it was opened and when it was closed, and the value written. -/
structure Slot where
  opened : Nat
  closed : Nat
  value : Nat
  deriving DecidableEq

/-- The closed slots, and the quantity when the one that is open began. -/
structure Ledger where
  slots : List Slot
  opened : Nat

def Ledger.start (now : Nat) : Ledger := ⟨[], now⟩

/-- Close the open slot with a value and begin another. -/
def Ledger.close (l : Ledger) (now value : Nat) : Ledger :=
  ⟨l.slots ++ [⟨l.opened, now, value⟩], now⟩

/-- The value written is the increase during the slot. -/
def Slot.Exact (s : Slot) : Prop := s.opened ≤ s.closed ∧ s.value = s.closed - s.opened

/-- Each slot begins where the one before it ended. -/
def Contiguous : Nat → List Slot → Nat → Prop
  | first, [], last => first = last
  | first, s :: slots, last => s.opened = first ∧ Contiguous s.closed slots last

/-- The slots since `first`: no gap, no overlap, and the increase of each. -/
structure Ledger.Exact (first : Nat) (l : Ledger) : Prop where
  contiguous : Contiguous first l.slots l.opened
  exact : ∀ s ∈ l.slots, s.Exact

theorem exact_start (now : Nat) : (Ledger.start now).Exact now where
  contiguous := rfl
  exact := nofun

private theorem contiguous_append {first mid : Nat} {slots : List Slot}
    (h : Contiguous first slots mid)
    (closed value : Nat) : Contiguous first (slots ++ [⟨mid, closed, value⟩]) closed := by
  induction slots generalizing first with
  | nil => exact ⟨h.symm, rfl⟩
  | cons s slots ih => exact ⟨h.1, ih h.2⟩

theorem Ledger.Exact.close {first : Nat} {l : Ledger} (h : l.Exact first) {now value : Nat}
    (later : l.opened ≤ now) (increase : value = now - l.opened) :
    (l.close now value).Exact first where
  contiguous := contiguous_append h.contiguous now value
  exact := by
    intro s mem
    rcases List.mem_append.mp mem with old | new
    · exact h.exact s old
    · rw [List.mem_singleton.mp new]
      exact ⟨later, increase⟩

private theorem sum_contiguous {first last : Nat} {slots : List Slot}
    (h : Contiguous first slots last) (exact : ∀ s ∈ slots, s.Exact) :
    first + (slots.map Slot.value).sum = last := by
  induction slots generalizing first with
  | nil => exact h
  | cons s slots ih =>
    obtain ⟨opened, rest⟩ := h
    obtain ⟨later, increase⟩ := exact s List.mem_cons_self
    have tail := ih rest fun x mem => exact x (List.mem_cons_of_mem s mem)
    rw [List.map_cons, List.sum_cons]
    omega

theorem Ledger.Exact.sum {first : Nat} {l : Ledger} (h : l.Exact first) :
    first + (l.slots.map Slot.value).sum = l.opened :=
  sum_contiguous h.contiguous h.exact

/-- What was counted, how much of it is on display, in units, and by how much the display has grown
from counting. -/
structure Display where
  counted : Nat
  shown : Nat
  grown : Nat

def Display.count (d : Display) (n : Nat) : Display := { d with counted := d.counted + n }

def Display.refresh (unit : Nat) (d : Display) : Display :=
  { d with shown := d.counted / unit, grown := d.grown + (d.counted / unit - d.shown) }

/-- Set counter and display to a value; that is no growth. -/
def Display.set (unit : Nat) (d : Display) (v : Nat) : Display :=
  { d with counted := v * unit, shown := v }

/-- No more is shown than was counted. -/
def Display.Sound (unit : Nat) (d : Display) : Prop := d.shown ≤ d.counted / unit

theorem Display.Sound.count {unit : Nat} {d : Display} (h : d.Sound unit) (n : Nat) :
    (d.count n).Sound unit :=
  Nat.le_trans h (Nat.div_le_div_right (Nat.le_add_right d.counted n))

theorem Display.Sound.refresh {unit : Nat} (d : Display) : (d.refresh unit).Sound unit :=
  Nat.le_refl (d.counted / unit)

theorem Display.Sound.set {unit : Nat} (positive : 0 < unit) (d : Display) (v : Nat) :
    (d.set unit v).Sound unit :=
  Nat.le_of_eq (Nat.mul_div_cancel v positive).symm

/-- A baseline read off the display when the growth was `opened`: since then the display has risen
by what it has grown. -/
def Tracks (baseline opened : Nat) (d : Display) : Prop :=
  baseline ≤ d.shown ∧ d.grown + baseline = opened + d.shown

theorem tracks_now (d : Display) : Tracks d.shown d.grown d := ⟨Nat.le_refl d.shown, rfl⟩

section Tracks

variable {baseline opened : Nat} {d : Display}

theorem Tracks.count (h : Tracks baseline opened d) (n : Nat) :
    Tracks baseline opened (d.count n) := h

theorem Tracks.refresh {unit : Nat} (h : Tracks baseline opened d) (sound : d.Sound unit) :
    Tracks baseline opened (d.refresh unit) := by
  obtain ⟨below, risen⟩ := h
  have above : d.shown ≤ d.counted / unit := sound
  constructor
  · exact Nat.le_trans below above
  · change d.grown + (d.counted / unit - d.shown) + baseline = opened + d.counted / unit
    omega

theorem Tracks.set_same {unit v : Nat} (h : Tracks baseline opened d) (same : v = d.shown) :
    Tracks baseline opened (d.set unit v) := by
  subst same
  exact h

theorem Tracks.difference (h : Tracks baseline opened d) :
    opened ≤ d.grown ∧ d.shown - baseline = d.grown - opened := by
  obtain ⟨below, risen⟩ := h
  omega

end Tracks

end SV300.Library.Slots
