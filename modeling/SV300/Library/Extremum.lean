/- SV300/Library/Extremum
   digest: The order of the rounded values that are numbers, and the first smallest entry of a
   sequence. -/

import Mathlib.Order.OrderDual
import Mathlib.Order.WithBot
import SV300.Library.Peak
import SV300.Library.Rounded

set_option autoImplicit false
set_option relaxedAutoImplicit false

namespace SV300.Library.Extremum

open SV300.Library.Peak SV300.Library.Rounded

abbrev Number := WithBot (WithTop Rat)

def number : Value → Option Number
  | .finite x => some ((x : WithTop Rat) : Number)
  | .infinite negative => some (if negative then ⊥ else ((⊤ : WithTop Rat) : Number))
  | .nan => none

theorem number_inj {v w : Value} {x : Number} (left : number v = some x) (right : number w = some x) :
    v = w := by
  cases v with
  | nan => cases left
  | finite a =>
    cases w with
    | nan => cases right
    | finite b =>
      have same := Option.some_injective _ (left.trans right.symm)
      simpa using same
    | infinite s =>
      have same := Option.some_injective _ (left.trans right.symm)
      cases s <;> simp at same
  | infinite s =>
    cases w with
    | nan => cases right
    | finite b =>
      have same := Option.some_injective _ (left.trans right.symm)
      cases s <;> simp at same
    | infinite t =>
      have same := Option.some_injective _ (left.trans right.symm)
      cases s <;> cases t <;> simp at same <;> rfl

theorem lt_iff {v w : Value} {x y : Number} (left : number v = some x) (right : number w = some y) :
    v.lt w = true ↔ x < y := by
  cases v with
  | nan => cases left
  | finite a =>
    cases left
    cases w with
    | nan => cases right
    | finite b =>
      cases right
      simp [Value.lt]
    | infinite s =>
      cases right
      cases s with
      | false => exact iff_of_true rfl (WithBot.coe_lt_coe.mpr (WithTop.coe_lt_top a))
      | true => exact iff_of_false nofun not_lt_bot
  | infinite s =>
    cases left
    cases w with
    | nan => cases right
    | finite b =>
      cases right
      cases s <;> simp [Value.lt]
    | infinite t =>
      cases right
      cases s <;> cases t <;> simp [Value.lt]

theorem lt_nan (v : Value) : v.lt .nan = false := by cases v <;> rfl

theorem nan_lt (v : Value) : Value.nan.lt v = false := by cases v <;> rfl

variable {τ α : Type*} [LinearOrder α]

def dual (e : τ × α) : τ × αᵒᵈ := (e.1, OrderDual.toDual e.2)

/-- An entry that is at most as large as all and smaller than all before it. -/
def IsDip (entries : List (τ × α)) (dip : τ × α) : Prop := IsPeak (entries.map dual) (dual dip)

/-- The record after the comparison with one more entry. -/
def lower (dip e : τ × α) : τ × α := if e.2 < dip.2 then e else dip

theorem isDip_singleton (e : τ × α) : IsDip [e] e := isPeak_singleton (dual e)

theorem IsDip.le {entries : List (τ × α)} {dip : τ × α} (h : IsDip entries dip) :
    ∀ e ∈ entries, dip.2 ≤ e.2 :=
  fun _ member => IsPeak.le h _ (List.mem_map_of_mem member)

theorem IsDip.append {entries : List (τ × α)} {dip : τ × α} (h : IsDip entries dip) (e : τ × α) :
    IsDip (entries ++ [e]) (lower dip e) := by
  have next := IsPeak.append h (dual e)
  have same : raise (dual dip) (dual e) = dual (lower dip e) := by
    unfold raise lower
    by_cases less : e.2 < dip.2
    · rw [if_pos less]
      exact if_pos (OrderDual.toDual_lt_toDual.mpr less)
    · rw [if_neg less]
      exact if_neg fun more => less (OrderDual.toDual_lt_toDual.mp more)
  rw [same] at next
  rw [IsDip, List.map_append]
  exact next

theorem mem_of_isPeak {entries : List (τ × α)} {peak : τ × α} (h : IsPeak entries peak) :
    peak ∈ entries := by
  obtain ⟨before, after, rfl, _, _⟩ := h
  exact List.mem_append_right _ List.mem_cons_self

theorem IsDip.mem {entries : List (τ × α)} {dip : τ × α} (h : IsDip entries dip) :
    dip ∈ entries := by
  obtain ⟨e, member, same⟩ := List.mem_map.mp (mem_of_isPeak h)
  have parts := Prod.ext_iff.mp same
  have whole : e = dip := Prod.ext parts.1 (OrderDual.toDual_inj.mp parts.2)
  exact whole ▸ member

end SV300.Library.Extremum
