/- SV300/Library/Newest
   digest: A stream of keyed entries of which a bounded number is kept, those of greatest keys. -/

import Mathlib.Data.Finset.Card
import Mathlib.Order.Basic

set_option autoImplicit false
set_option relaxedAutoImplicit false

namespace SV300.Library.Newest

variable {α β : Type*} [LinearOrder β]

/-- Of all entries ever at most `n` are kept; one is gone only where `n` others are kept, none of
them older. -/
structure Keeps (n : Nat) (key : α → β) (ever kept : Finset α) : Prop where
  sub : kept ⊆ ever
  few : kept.card ≤ n
  gone : ∀ a ∈ ever, a ∉ kept → kept.card = n ∧ ∀ b ∈ kept, key a ≤ key b

variable {n : Nat} {key : α → β} {ever kept : Finset α} {a x : α}

theorem keeps_self (few : ever.card ≤ n) : Keeps n key ever ever where
  sub := Finset.Subset.refl ever
  few := few
  gone _ inside gone := absurd inside gone

variable [DecidableEq α]

theorem Keeps.add (h : Keeps n key ever kept) (room : (insert a kept).card ≤ n) :
    Keeps n key (insert a ever) (insert a kept) where
  sub := Finset.insert_subset_insert a h.sub
  few := room
  gone c inside gone := by
    have others := not_or.mp (mt Finset.mem_insert.mpr gone)
    have before := h.gone c ((Finset.mem_insert.mp inside).resolve_left others.1) others.2
    have held : a ∈ kept := by
      by_contra new
      rw [Finset.card_insert_of_notMem new] at room
      omega
    rw [Finset.insert_eq_of_mem held]
    exact before

theorem Keeps.exchange (h : Keeps n key ever kept) (excess : n < (insert a kept).card)
    (inside : x ∈ insert a kept) (oldest : ∀ b ∈ insert a kept, key x ≤ key b) :
    Keeps n key (insert a ever) ((insert a kept).erase x) := by
  have new : a ∉ kept := by
    intro held
    rw [Finset.insert_eq_of_mem held] at excess
    exact absurd h.few (Nat.not_le_of_lt excess)
  have card : ((insert a kept).erase x).card = n := by
    have few := h.few
    rw [Finset.card_insert_of_notMem new] at excess
    rw [Finset.card_erase_of_mem inside, Finset.card_insert_of_notMem new]
    omega
  refine ⟨(Finset.erase_subset x _).trans (Finset.insert_subset_insert a h.sub), card.le, ?_⟩
  intro c ever' gone
  refine ⟨card, fun b keeps => ?_⟩
  obtain ⟨other, b_in⟩ := Finset.mem_erase.mp keeps
  by_cases same : c = x
  · exact same ▸ oldest b b_in
  · have left := not_or.mp (mt Finset.mem_insert.mpr
      fun back => gone (Finset.mem_erase.mpr ⟨same, back⟩))
    have before := (h.gone c ((Finset.mem_insert.mp ever').resolve_left left.1) left.2).2
    rcases Finset.mem_insert.mp b_in with rfl | held
    · -- the new entry stays, so the one that goes was kept before
      have older := (Finset.mem_insert.mp inside).resolve_left (Ne.symm other)
      exact (before x older).trans (oldest b b_in)
    · exact before b held

omit [DecidableEq α] in
theorem Keeps.all (h : Keeps n key ever kept) (room : ever.card ≤ n) : kept = ever := by
  refine Finset.eq_of_subset_of_card_le h.sub ?_
  by_contra fewer
  obtain ⟨a, inside, gone⟩ := Finset.exists_mem_notMem_of_card_lt_card (not_le.mp fewer)
  have full := (h.gone a inside gone).1
  omega

omit [DecidableEq α] in
/-- The one oldest entry is gone as soon as there have been more entries than are kept. -/
theorem Keeps.oldest_gone (h : Keeps n key ever kept) (more : n < ever.card)
    (oldest : ∀ b ∈ ever, b ≠ x → key x < key b) : x ∉ kept := by
  intro held
  obtain ⟨a, inside, gone⟩ := Finset.exists_mem_notMem_of_card_lt_card (h.few.trans_lt more)
  have other : a ≠ x := fun same => gone (same ▸ held)
  exact absurd ((h.gone a inside gone).2 x held) (not_le_of_gt (oldest a inside other))

end SV300.Library.Newest
