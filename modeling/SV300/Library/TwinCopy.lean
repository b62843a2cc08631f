/- SV300/Library/TwinCopy
   digest: Two checked copies written one after the other keep the last record or the cut one. -/

import Mathlib.Data.Option.Basic
import Mathlib.Tactic.Common

set_option autoImplicit false
set_option relaxedAutoImplicit false

namespace SV300.Library.TwinCopy

variable {I R : Type}

/-- The two places a record is kept in, first copy first. -/
@[ext]
structure Twin (I : Type) where
  first : I
  second : I
  deriving DecidableEq

/-- What an observer of the saves knows: the last record completely saved, and the one of a save
that was cut since. -/
structure Ledger (R : Type) where
  last : R
  cut : Option R

/-- The reader tries the first copy and falls back to the second. -/
def load (accept : I → Option R) (t : Twin I) : Option R :=
  (accept t.first).or (accept t.second)

/-- A save has completed once both copies are written, and has begun once a byte has changed. -/
def Ledger.record [DecidableEq I] (l : Ledger R) (image : R → I) (before after : Twin I) (r : R) :
    Ledger R :=
  if after = ⟨image r, image r⟩ then ⟨r, none⟩
  else if after = before then l
  else ⟨l.last, some r⟩

/-- Every intact copy holds a record of the ledger, and one copy is intact. -/
structure Sound (accept : I → Option R) (l : Ledger R) (t : Twin I) : Prop where
  first : accept t.first = none ∨ accept t.first = some l.last ∨ accept t.first = l.cut
  second : accept t.second = none ∨ accept t.second = some l.last
  intact : accept t.first ≠ none ∨ accept t.second ≠ none

/-- An interrupted save, seen at the two places: a torn copy is rejected, and the second copy is
begun when the first is finished. -/
structure CutSave (accept : I → Option R) (image : R → I) (before after : Twin I) (r : R) :
    Prop where
  firstTorn : accept after.first = none ∨ after.first = before.first ∨ after.first = image r
  secondTorn : accept after.second = none ∨ after.second = before.second ∨ after.second = image r
  ordered : after.first = image r ∨ after.second = before.second

variable {accept : I → Option R} {image : R → I}

theorem sound_saved {r : R} (ok : accept (image r) = some r) :
    Sound accept ⟨r, none⟩ ⟨image r, image r⟩ where
  first := .inr (.inl ok)
  second := .inr ok
  intact := .inl (by simp [ok])

theorem Sound.load {l : Ledger R} {t : Twin I} (h : Sound accept l t) :
    ∃ r, load accept t = some r ∧ (r = l.last ∨ l.cut = some r) := by
  cases found : accept t.first with
  | some r =>
      refine ⟨r, by simp [TwinCopy.load, found], ?_⟩
      rcases h.first with none | last | cut
      · simp [found] at none
      · exact .inl (Option.some.inj (found.symm.trans last))
      · exact .inr (cut.symm.trans found)
  | none =>
      have second : accept t.second ≠ none := h.intact.resolve_left (by simp [found])
      exact ⟨l.last, by simp [TwinCopy.load, found, h.second.resolve_left second], .inl rfl⟩

/-- The rule for one save: it keeps the pair sound unless it tears the first copy while the
second is already torn. -/
theorem Sound.save [DecidableEq I] {l : Ledger R} {before after : Twin I} {r : R}
    (h : Sound accept l before) (ok : accept (image r) = some r)
    (cut : CutSave accept image before after r)
    (spare : after.first = image r ∨ after = before ∨ accept before.second ≠ none) :
    Sound accept (l.record image before after r) after := by
  unfold Ledger.record
  split
  · rename_i complete
    rw [complete]
    exact sound_saved ok
  split
  · rename_i same
    rw [same]
    exact h
  rename_i incomplete changed
  by_cases written : after.first = image r
  · refine ⟨.inr (.inr (by rw [written, ok])), ?_, .inl (by simp [written, ok])⟩
    rcases cut.secondTorn with torn | old | new
    · exact .inl torn
    · rw [old]
      exact h.second
    · exact absurd (Twin.ext written new) incomplete
  · have kept : after.second = before.second := cut.ordered.resolve_left written
    have readable : accept before.second ≠ none :=
      (spare.resolve_left written).resolve_left changed
    refine ⟨?_, by rw [kept]; exact h.second, .inr (by rwa [kept])⟩
    rcases cut.firstTorn with torn | old | new
    · exact .inl torn
    · exact absurd (Twin.ext old kept) changed
    · exact absurd new written

end SV300.Library.TwinCopy
