/- SV300/Feeder/Packing
   digest: The feeder map is the next-fit packing of the used feeders, except after two kinds of gap. -/

import Mathlib.Data.Nat.Find
import SV300.Feeder.Map

set_option autoImplicit false
set_option relaxedAutoImplicit false

namespace SV300.Feeder

open Library.NextFit

def item (pt : Nat → PtDef) (f : Nat) : Option WiringMode :=
  if f < maxCh ∧ (pt f).wiring ≠ notUsed then some (pt f).wiring else none

/-- How far the row is used before `f` when unused and refused feeders take nothing. -/
def taken (pt : Nat → PtDef) (f : Nat) : Nat := filled first size slots (item pt) f

/-- The feeder is in use and its block ends in the row. -/
abbrev HasRoom (pt : Nat → PtDef) (f : Nat) : Prop := Fits first size slots (item pt) f

/-- A map that serves every used feeder that fits, in order, and no other. -/
structure Packs (pt : Nat → PtDef) (map : Nat → FeederMap) : Prop where
  served : ∀ f, f < maxCh → HasRoom pt f →
    (map f).valid = true ∧ pairs (map f) = cells (first (taken pt f) (pt f).wiring) (pt f).wiring
  refused : ∀ f, f < maxCh → ¬ HasRoom pt f → (map f).valid = false ∧ pairs (map f) = []
  within : ∀ f, f < maxCh → ∀ p ∈ pairs (map f), p.1 < meterChCount ∧ p.2 < 3
  apart : ∀ f g, f < maxCh → g < maxCh → f ≠ g → ∀ p ∈ pairs (map f), p ∉ pairs (map g)

/-- No unused feeder stands before a used one while a whole meter is free. -/
def NoGap (pt : Nat → PtDef) : Prop :=
  ∀ f g, f < g → g < maxCh → (pt f).wiring = notUsed → (pt g).wiring ≠ notUsed →
    slots < demand pt f + 3

/-- No single-phase feeder stands after one that asks for a meter when the last is begun. -/
def NoneStranded (pt : Nat → PtDef) : Prop :=
  ∀ f g, f < g → g < maxCh → is1LN1CT (pt f).wiring = false → is1LN1CT (pt g).wiring = true →
    ¬ (slots < demand pt f + 3 ∧ demand pt f < slots)

private theorem item_used {pt : Nat → PtDef} {f : Nat} (lt : f < maxCh)
    (used : (pt f).wiring ≠ notUsed) :
    item pt f = some (pt f).wiring :=
  if_pos ⟨lt, used⟩

private theorem item_unused {pt : Nat → PtDef} {f : Nat} (unused : (pt f).wiring = notUsed) :
    item pt f = none :=
  if_neg fun h => h.2 unused

private theorem item_some {pt : Nat → PtDef} {f : Nat} {wm : WiringMode}
    (here : item pt f = some wm) :
    f < maxCh ∧ (pt f).wiring ≠ notUsed ∧ wm = (pt f).wiring := by
  unfold item at here
  split at here
  case isTrue h => exact ⟨h.1, h.2, (Option.some.inj here).symm⟩
  case isFalse => cases here

private theorem used_of_single {w : WiringMode} (single : is1LN1CT w = true) : w ≠ notUsed := by
  rintro rfl
  cases single

private theorem countFeeders_split {pt : Nat → PtDef} {m : Nat} (le : m ≤ maxCh)
    (used : ∀ k, k < m → (pt k).wiring ≠ notUsed) :
    countFeeders pt = m + ((List.range (maxCh - m)).map (m + ·)).countP
      fun i => decide ((pt i).wiring ≠ notUsed) := by
  have split : List.range maxCh = List.range m ++ (List.range (maxCh - m)).map (m + ·) := by
    rw [← List.range_add, Nat.add_sub_cancel' le]
  have before : (List.range m).countP (fun i => decide ((pt i).wiring ≠ notUsed)) = m := by
    rw [List.countP_eq_length.mpr, List.length_range]
    intro k member
    exact decide_eq_true (used k (List.mem_range.mp member))
  rw [countFeeders, split, List.countP_append, before]

private theorem le_countFeeders {pt : Nat → PtDef} {m : Nat} (le : m ≤ maxCh)
    (used : ∀ k, k < m → (pt k).wiring ≠ notUsed) : m ≤ countFeeders pt := by
  rw [countFeeders_split le used]
  exact Nat.le_add_right _ _

private theorem lt_countFeeders {pt : Nat → PtDef} {m g : Nat} (lt : g < maxCh) (le : m ≤ g)
    (used : ∀ k, k < m → (pt k).wiring ≠ notUsed) (later : (pt g).wiring ≠ notUsed) :
    m < countFeeders pt := by
  rw [countFeeders_split (le.trans lt.le) used]
  apply Nat.lt_add_of_pos_right
  apply List.countP_pos_iff.mpr
  refine ⟨g, List.mem_map.mpr ⟨g - m, List.mem_range.mpr (by omega), by omega⟩, ?_⟩
  exact decide_eq_true later

private theorem countFeeders_eq {pt : Nat → PtDef} {m : Nat} (le : m ≤ maxCh)
    (used : ∀ k, k < m → (pt k).wiring ≠ notUsed)
    (unused : ∀ k, m ≤ k → k < maxCh → (pt k).wiring = notUsed) : countFeeders pt = m := by
  rw [countFeeders_split le used, Nat.add_eq_left, List.countP_eq_zero]
  intro i member
  obtain ⟨k, low, rfl⟩ := List.mem_map.mp member
  have lt := List.mem_range.mp low
  simp [unused (m + k) (Nat.le_add_right _ _) (by omega)]

private theorem demand_mono (pt : Nat → PtDef) {m n : Nat} (le : m ≤ n) :
    demand pt m ≤ demand pt n :=
  reach_mono le_first _ le

private theorem taken_eq_demand {pt : Nat → PtDef} {n : Nat} (le : n ≤ maxCh)
    (used : ∀ k, k < n → (pt k).wiring ≠ notUsed) (within : demand pt n ≤ slots) :
    taken pt n = demand pt n :=
  filled_eq_reach le_first (fun k lt => item_used (lt.trans_le le) (used k lt)) within

/-- No room is left for any used feeder from `k` on. -/
def Stuck (pt : Nat → PtDef) (k : Nat) : Prop :=
  slots < demand pt k + 3 ∧
    (demand pt k = slots ∨ ∀ g, k ≤ g → g < maxCh → is1LN1CT (pt g).wiring = false)

private theorem whole_overflows {c : Nat} {wm : WiringMode} (whole : is1LN1CT wm = false)
    (late : slots < c + 3) : slots < finish first size c wm := by
  change 9 < c + 3 at late
  change 9 < first c wm + size wm
  rw [first_whole whole, size_whole whole]
  omega

private theorem Stuck.overflows {pt : Nat → PtDef} {k g : Nat} (h : Stuck pt k) (le : k ≤ g)
    (lt : g < maxCh) : slots < finish first size (demand pt k) (pt g).wiring := by
  cases kind : is1LN1CT (pt g).wiring with
  | false => exact whole_overflows kind h.1
  | true =>
    rcases h.2 with full | none
    · change slots < first (demand pt k) (pt g).wiring + size (pt g).wiring
      rw [first_single kind, size_single kind, full]
      exact Nat.lt_succ_self _
    · rw [none g le lt] at kind
      cases kind

private theorem Stuck.no_room {pt : Nat → PtDef} {k f : Nat} (h : Stuck pt k)
    (same : taken pt k = demand pt k) (le : k ≤ f) : ¬ HasRoom pt f := by
  rintro ⟨wm, here, fits⟩
  have stays : taken pt f = demand pt k := by
    rw [← same]
    apply filled_of_stuck le
    intro g low _ wm there
    obtain ⟨lt, -, rfl⟩ := item_some there
    change slots < finish first size (taken pt k) _
    rw [same]
    exact h.overflows low lt
  obtain ⟨lt, -, rfl⟩ := item_some here
  change finish first size (taken pt f) _ ≤ slots at fits
  rw [stays] at fits
  exact absurd fits (Nat.not_le.mpr (h.overflows le lt))

private theorem Stuck.invalid {pt : Nat → PtDef} {k f : Nat} (h : Stuck pt k) (le : k ≤ f)
    (lt : f < maxCh) : ¬ first (demand pt f) (pt f).wiring < slots := by
  rw [← finish_le_slots, Nat.not_le]
  rcases le.lt_or_eq with later | rfl
  · calc slots < demand pt (k + 1) := h.overflows le_rfl (later.trans lt)
      _ ≤ demand pt f := demand_mono pt later
      _ ≤ first (demand pt f) (pt f).wiring := le_first _ _
      _ ≤ _ := Nat.le_add_right _ _
  · exact h.overflows le_rfl lt

private theorem exists_stop (pt : Nat → PtDef) :
    ∃ k ≤ maxCh, (∀ i, i < k → (pt i).wiring ≠ notUsed) ∧ demand pt k ≤ slots ∧
      (k = maxCh ∨ (pt k).wiring = notUsed ∨ slots < demand pt (k + 1)) := by
  suffices ∀ n ≤ maxCh, (∃ k ≤ n, (∀ i, i < k → (pt i).wiring ≠ notUsed) ∧ demand pt k ≤ slots ∧
      ((pt k).wiring = notUsed ∨ slots < demand pt (k + 1))) ∨
      (∀ i, i < n → (pt i).wiring ≠ notUsed) ∧ demand pt n ≤ slots by
    rcases this maxCh le_rfl with ⟨k, le, used, within, stop⟩ | ⟨used, within⟩
    · exact ⟨k, le, used, within, .inr stop⟩
    · exact ⟨maxCh, le_rfl, used, within, .inl rfl⟩
  intro n le
  induction n with
  | zero => exact .inr ⟨nofun, Nat.zero_le _⟩
  | succ n ih =>
    rcases ih (Nat.le_of_succ_le le) with ⟨k, low, rest⟩ | ⟨used, within⟩
    · exact .inl ⟨k, low.trans n.le_succ, rest⟩
    · by_cases unused : (pt n).wiring = notUsed
      · exact .inl ⟨n, n.le_succ, used, within, .inl unused⟩
      by_cases over_ : slots < demand pt (n + 1)
      · exact .inl ⟨n, n.le_succ, used, within, .inr over_⟩
      · refine .inr ⟨fun i lt => ?_, Nat.not_lt.mp over_⟩
        rcases Nat.lt_succ_iff_lt_or_eq.mp lt with earlier | rfl
        · exact used i earlier
        · exact unused

private theorem stuck_of_late {pt : Nat → PtDef} (stranded : NoneStranded pt) {k : Nat}
    (within : demand pt k ≤ slots) (late : slots < demand pt k + 3)
    (whole : is1LN1CT (pt k).wiring = false) : Stuck pt k := by
  refine ⟨late, ?_⟩
  by_cases full : demand pt k = slots
  · exact .inl full
  · refine .inr fun i le lt => ?_
    rcases le.lt_or_eq with after | rfl
    · by_contra single
      exact stranded k i after lt whole (by simpa using single) ⟨late, lt_of_le_of_ne within full⟩
    · exact whole

private theorem stuck_of_stop {pt : Nat → PtDef} (gap : NoGap pt) (stranded : NoneStranded pt)
    {k g : Nat}
    (within : demand pt k ≤ slots) (stop : (pt k).wiring = notUsed ∨ slots < demand pt (k + 1))
    (low : k ≤ g) (high : g < maxCh) (later : (pt g).wiring ≠ notUsed) : Stuck pt k := by
  rcases stop with unused | over_
  · have lt : k < g := by
      refine lt_of_le_of_ne low ?_
      rintro rfl
      exact later unused
    apply stuck_of_late stranded within (gap k g lt high unused later)
    rw [unused]
    rfl
  · cases kind : is1LN1CT (pt k).wiring with
    | true =>
      rw [demand_succ, first_single kind, size_single kind] at over_
      have full : demand pt k = slots := by omega
      exact ⟨by omega, .inl full⟩
    | false =>
      rw [demand_succ, first_whole kind, size_whole kind] at over_
      change 9 < (demand pt k + 2) / 3 * 3 + 3 at over_
      refine stuck_of_late stranded within ?_ kind
      change 9 < demand pt k + 3
      omega

private theorem past_stop {pt : Nat → PtDef} (gap : NoGap pt) (stranded : NoneStranded pt) {k : Nat}
    (used : ∀ i, i < k → (pt i).wiring ≠ notUsed) (within : demand pt k ≤ slots)
    (stop : (pt k).wiring = notUsed ∨ slots < demand pt (k + 1)) {f : Nat} (le : k ≤ f)
    (lt : f < maxCh) :
    ¬ HasRoom pt f ∧ (f < countFeeders pt → ¬ first (demand pt f) (pt f).wiring < slots) := by
  have top : k ≤ maxCh := le.trans lt.le
  by_cases rest : ∀ i, k ≤ i → i < maxCh → (pt i).wiring = notUsed
  · refine ⟨?_, fun scanned => ?_⟩
    · exact not_fits_of_none (item_unused (rest f le lt))
    · rw [countFeeders_eq top used rest] at scanned
      exact absurd scanned (Nat.not_lt.mpr le)
  · push Not at rest
    obtain ⟨g, low, high, later⟩ := rest
    have stuck := stuck_of_stop gap stranded within stop low high later
    exact ⟨stuck.no_room (taken_eq_demand top used within) le, fun _ => stuck.invalid le lt⟩

private theorem feederMap_valid {pt : Nat → PtDef} {f : Nat} :
    (feederMap pt f).valid = true ↔
      f < countFeeders pt ∧ first (demand pt f) (pt f).wiring < slots := by
  rw [feederMap_apply]
  by_cases scanned : f < countFeeders pt
  · simp [scanned, entryAt]
  · simp [scanned, FeederMap.zero]

private theorem pairs_of_invalid {e : FeederMap} (invalid : e.valid = false) : pairs e = [] := by
  simp [pairs, invalid]

private theorem packs_of_clear {pt : Nat → PtDef} (gap : NoGap pt) (stranded : NoneStranded pt) :
    Packs pt (feederMap pt) := by
  obtain ⟨k, top, used, within, stop⟩ := exists_stop pt
  have before : ∀ f, f < k → HasRoom pt f ∧ f < countFeeders pt ∧ taken pt f = demand pt f := by
    intro f lt
    have reached : demand pt (f + 1) ≤ slots := (demand_mono pt lt).trans within
    have same := taken_eq_demand (n := f) (by omega) (fun i low => used i (low.trans lt))
      ((demand_mono pt lt.le).trans within)
    refine ⟨?_, lt.trans_le (le_countFeeders top used), same⟩
    rw [HasRoom, fits_iff (item_used (lt.trans_le top) (used f lt))]
    change finish first size (taken pt f) _ ≤ slots
    rw [same]
    exact reached
  have after : ∀ f, k ≤ f → f < maxCh →
      ¬ HasRoom pt f ∧ (f < countFeeders pt → ¬ first (demand pt f) (pt f).wiring < slots) := by
    intro f le lt
    rcases stop with rfl | stop
    · exact absurd lt (Nat.not_lt.mpr le)
    · exact past_stop gap stranded used within stop le lt
  constructor
  · intro f lt room
    rcases Nat.lt_or_ge f k with early | late
    · obtain ⟨⟨wm, here, fits⟩, scanned, same⟩ := before f early
      obtain ⟨-, -, rfl⟩ := item_some here
      change finish first size (taken pt f) _ ≤ slots at fits
      rw [same] at fits
      have inside := finish_le_slots.mp fits
      refine ⟨feederMap_valid.mpr ⟨scanned, inside⟩, ?_⟩
      rw [feederMap_apply, if_pos scanned, pairs_entryAt, if_pos inside, same]
    · exact absurd room (after f late lt).1
  · intro f lt none
    rcases Nat.lt_or_ge f k with early | late
    · exact absurd (before f early).1 none
    · have invalid : (feederMap pt f).valid = false := by
        rw [← Bool.not_eq_true, feederMap_valid]
        rintro ⟨scanned, inside⟩
        exact (after f late lt).2 scanned inside
      exact ⟨invalid, pairs_of_invalid invalid⟩
  · rintro f - ⟨m, s⟩ claimed
    exact buildFeederMap_within claimed
  · rintro f g - - differ ⟨m, s⟩ claimed again
    exact differ (buildFeederMap_apart claimed again)

private theorem noGap_of_packs {pt : Nat → PtDef} (packs : Packs pt (feederMap pt)) : NoGap pt := by
  intro f g lt high unused later
  by_contra free
  -- the first unused feeder is reached, since a used one stands behind it
  classical
  have some_unused : ∃ i, (pt i).wiring = notUsed := ⟨f, unused⟩
  have here := Nat.find_spec some_unused
  have low : Nat.find some_unused ≤ f := Nat.find_le unused
  have used : ∀ i, i < Nat.find some_unused → (pt i).wiring ≠ notUsed :=
    fun i small => Nat.find_min some_unused small
  generalize Nat.find some_unused = i at here low used
  have scanned : i < countFeeders pt :=
    lt_countFeeders high (low.trans lt.le) used later
  have valid : (feederMap pt i).valid = true := by
    refine feederMap_valid.mpr ⟨scanned, ?_⟩
    have small := demand_mono pt low
    rw [here, first_whole rfl]
    change ¬ 9 < demand pt f + 3 at free
    change (demand pt i + 2) / 3 * 3 < 9
    omega
  have top : i < maxCh := (low.trans_lt lt).trans high
  rw [(packs.refused i top (not_fits_of_none (item_unused here))).1] at valid
  cases valid

private theorem noneStranded_of_packs {pt : Nat → PtDef} (packs : Packs pt (feederMap pt)) :
    NoneStranded pt := by
  rintro f g lt high whole single ⟨late, begun⟩
  have used : ∀ i, i < f → (pt i).wiring ≠ notUsed := by
    intro i lower unused
    have free := noGap_of_packs packs i g (lower.trans lt) high unused (used_of_single single)
    have whole_i : is1LN1CT (pt i).wiring = false := by rw [unused]; rfl
    have over_ := whole_overflows whole_i free
    have : demand pt (i + 1) ≤ demand pt f := demand_mono pt lower
    exact absurd (over_.trans_le this) (Nat.not_lt.mpr begun.le)
  have same : taken pt f = demand pt f := taken_eq_demand (lt.trans high).le used begun.le
  -- the first single-phase feeder from `f` on
  classical
  have some_single : ∃ i, f ≤ i ∧ is1LN1CT (pt i).wiring = true := ⟨g, lt.le, single⟩
  obtain ⟨low, here⟩ := Nat.find_spec some_single
  have least : ∀ i, f ≤ i → i < Nat.find some_single → is1LN1CT (pt i).wiring = false := by
    intro i le small
    have := Nat.find_min some_single small
    simpa [le] using this
  have small : Nat.find some_single ≤ g := Nat.find_le ⟨lt.le, single⟩
  generalize Nat.find some_single = i at low here least small
  have top : i < maxCh := small.trans_lt high
  have stays : taken pt i = demand pt f := by
    rw [← same]
    apply filled_of_stuck low
    intro j ge below wm there
    obtain ⟨-, -, rfl⟩ := item_some there
    change slots < finish first size (taken pt f) _
    rw [same]
    exact whole_overflows (least j ge below) late
  have room : HasRoom pt i := by
    rw [HasRoom, fits_iff (item_used top (used_of_single here))]
    change finish first size (taken pt i) _ ≤ slots
    rw [stays, finish_le_slots, first_single here]
    exact begun
  have later : f + 1 ≤ i := by
    refine lt_of_le_of_ne low ?_
    rintro rfl
    rw [whole] at here
    cases here
  have inside := (feederMap_valid.mp (packs.served i top room).1).2
  have reached : slots < first (demand pt i) (pt i).wiring :=
    calc slots < demand pt (f + 1) := whole_overflows whole late
      _ ≤ demand pt i := demand_mono pt later
      _ ≤ _ := le_first _ _
  exact absurd inside (Nat.not_lt.mpr reached.le)

/-- The map serves every used feeder that fits, in order, and no other, exactly if no unused
feeder stands before a used one while a meter is free, and no single-phase feeder after a refused
meter while the last meter has a slot left. -/
theorem feederMap_packs_iff (pt : Nat → PtDef) :
    Packs pt (feederMap pt) ↔ NoGap pt ∧ NoneStranded pt :=
  ⟨fun packs => ⟨noGap_of_packs packs, noneStranded_of_packs packs⟩,
    fun clear => packs_of_clear clear.1 clear.2⟩

/-- Two meters, a single-phase feeder, a third meter that is refused, a single-phase feeder. -/
def strandedPt (f : Nat) : PtDef :=
  ⟨[wm3LN3CT, wm3LN3CT, wm1LN1CT_L1, wm3LN3CT, wm1LN1CT_L2].getD f notUsed, 220⟩

/-- The last feeder still has room in the third meter and is marked invalid. -/
theorem feederMap_not_packs : ¬ Packs strandedPt (feederMap strandedPt) := by
  intro packs
  have room : HasRoom strandedPt 4 := by decide
  have invalid : (feederMap strandedPt 4).valid = false := by decide
  rw [(packs.served 4 (by decide) room).1] at invalid
  cases invalid

end SV300.Feeder
