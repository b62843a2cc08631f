/- SV300/Library/Peak
   digest: The first largest entry of a sequence, and the record that follows it entry by entry. -/

import Mathlib.Order.Lattice
import Mathlib.Data.List.Basic

set_option autoImplicit false
set_option relaxedAutoImplicit false

namespace SV300.Library.Peak

variable {τ α : Type*} [LinearOrder α]

/-- An entry that is at least as large as all and larger than all before it. -/
def IsPeak (entries : List (τ × α)) (peak : τ × α) : Prop :=
  ∃ before after, entries = before ++ peak :: after ∧ (∀ e ∈ before, e.2 < peak.2) ∧
    ∀ e ∈ after, e.2 ≤ peak.2

/-- The record after the comparison with one more entry. -/
def raise (peak e : τ × α) : τ × α := if peak.2 < e.2 then e else peak

theorem isPeak_singleton (e : τ × α) : IsPeak [e] e :=
  ⟨[], [], rfl, fun _ absent => (nomatch absent), fun _ absent => (nomatch absent)⟩

theorem IsPeak.le {entries : List (τ × α)} {peak : τ × α} (h : IsPeak entries peak) :
    ∀ e ∈ entries, e.2 ≤ peak.2 := by
  obtain ⟨before, after, rfl, smaller, small⟩ := h
  intro e member
  rcases List.mem_append.mp member with early | late
  · exact (smaller e early).le
  · rcases List.mem_cons.mp late with rfl | late
    · exact le_rfl
    · exact small e late

theorem IsPeak.append {entries : List (τ × α)} {peak : τ × α} (h : IsPeak entries peak)
    (e : τ × α) : IsPeak (entries ++ [e]) (raise peak e) := by
  unfold raise
  split
  · rename_i higher
    refine ⟨entries, [], rfl, fun d member => ?_, fun _ absent => (nomatch absent)⟩
    exact (h.le d member).trans_lt higher
  · rename_i low
    obtain ⟨before, after, rfl, smaller, small⟩ := h
    refine ⟨before, after ++ [e], by simp, smaller, fun d member => ?_⟩
    rcases List.mem_append.mp member with early | last
    · exact small d early
    · rw [List.mem_singleton.mp last]
      exact not_lt.mp low

theorem isPeak_head {entries : List (τ × α)} (first : τ × α) :
    IsPeak (first :: entries) first ↔ ∀ e ∈ entries, e.2 ≤ first.2 := by
  constructor
  · exact fun h e member => h.le e (List.mem_cons_of_mem first member)
  · exact fun small => ⟨[], entries, rfl, fun _ absent => (nomatch absent), small⟩

end SV300.Library.Peak
