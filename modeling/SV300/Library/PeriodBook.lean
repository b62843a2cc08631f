/- SV300/Library/PeriodBook
   digest: Metered amounts booked by period, closed when the period changes, saved and restored. -/

import Mathlib.Algebra.BigOperators.Group.List.Basic
import Mathlib.Algebra.Group.Pi.Basic
import Mathlib.Algebra.GroupWithZero.Nat

set_option autoImplicit false
set_option relaxedAutoImplicit false

namespace SV300.Library.PeriodBook

variable {K M : Type}

/-- Amounts per key: of the current period, of the finished ones (newest first), and in total;
`reported` is what is shown for the last finished period, in units. -/
structure Book (K M : Type) where
  period : M
  current : K → Nat
  reported : K → Nat
  closed : List (K → Nat)
  total : K → Nat

/-- A book opened with amounts already booked in the current period. -/
def Book.opening (m : M) (current reported : K → Nat) : Book K M where
  period := m
  current := current
  reported := reported
  closed := []
  total := current

def Book.add (b : Book K M) (u : K → Nat) : Book K M :=
  { b with current := b.current + u, total := b.total + u }

/-- Finish the current period and begin another from zero. -/
def Book.close (unit : Nat) (b : Book K M) (m : M) : Book K M where
  period := m
  current := 0
  reported := fun k => b.current k / unit
  closed := b.current :: b.closed
  total := b.total

/-- Look at the calendar: the period is closed exactly when another one has begun. -/
def Book.observe [DecidableEq M] (unit : Nat) (b : Book K M) (m : M) : Book K M :=
  if m = b.period then b else b.close unit m

/-- Every amount is in the current period or in exactly one finished period, and the last finished
period is the one reported. -/
structure Book.Balanced (unit : Nat) (b : Book K M) : Prop where
  total : ∀ k, b.total k = b.current k + (b.closed.map (· k)).sum
  reported : ∀ x ∈ b.closed.head?, b.reported = fun k => x k / unit

theorem balanced_opening (unit : Nat) (m : M) (current reported : K → Nat) :
    (Book.opening m current reported).Balanced unit where
  total k := by simp [Book.opening]
  reported x h := by simp [Book.opening] at h

theorem Book.Balanced.add {unit : Nat} {b : Book K M} (h : b.Balanced unit) (u : K → Nat) :
    (b.add u).Balanced unit where
  total k := by
    simp only [Book.add, Pi.add_apply, h.total k]
    omega
  reported := h.reported

theorem Book.Balanced.close {unit : Nat} {b : Book K M} (h : b.Balanced unit) (m : M) :
    (b.close unit m).Balanced unit where
  total k := by simp [Book.close, h.total k]
  reported x first := by
    obtain rfl := Option.some.inj first
    rfl

theorem Book.Balanced.observe [DecidableEq M] {unit : Nat} {b : Book K M} (h : b.Balanced unit)
    (m : M) : (b.observe unit m).Balanced unit := by
  unfold Book.observe
  split
  · exact h
  · exact h.close m

theorem observe_same [DecidableEq M] (unit : Nat) {b : Book K M} {m : M} (same : m = b.period) :
    b.observe unit m = b :=
  if_pos same

theorem observe_other [DecidableEq M] (unit : Nat) {b : Book K M} {m : M} (other : m ≠ b.period) :
    b.observe unit m = b.close unit m :=
  if_neg other

@[simp] theorem observe_period [DecidableEq M] (unit : Nat) (b : Book K M) (m : M) :
    (b.observe unit m).period = m := by
  unfold Book.observe
  split
  · rename_i same
    exact same.symm
  · rfl

/-- A book in working memory and the copy of it last saved. -/
structure Journal (K M : Type) where
  live : Book K M
  saved : Book K M

def Journal.commit (j : Journal K M) : Journal K M := ⟨j.live, j.live⟩

/-- Restart from the saved copy, look at the calendar, and save. -/
def Journal.restart [DecidableEq M] (unit : Nat) (j : Journal K M) (m : M) : Journal K M :=
  Journal.commit ⟨j.saved.observe unit m, j.saved⟩

def Journal.Balanced (unit : Nat) (j : Journal K M) : Prop :=
  j.live.Balanced unit ∧ j.saved.Balanced unit

theorem Journal.Balanced.commit {unit : Nat} {j : Journal K M} (h : j.Balanced unit) :
    j.commit.Balanced unit :=
  ⟨h.1, h.1⟩

theorem Journal.Balanced.restart [DecidableEq M] {unit : Nat} {j : Journal K M}
    (h : j.Balanced unit) (m : M) : (j.restart unit m).Balanced unit :=
  ⟨h.2.observe m, h.2.observe m⟩

end SV300.Library.PeriodBook
