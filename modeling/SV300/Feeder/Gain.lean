/- SV300/Feeder/Gain
   digest: Voltage gain, voltage channel and published phase of a slot, from one map or from two. -/

import Mathlib.Data.Int.Order.Basic
import SV300.Library.BitField
import SV300.Library.Runs
import SV300.Feeder.Simple

set_option autoImplicit false
set_option relaxedAutoImplicit false

namespace SV300.Feeder

open Library.Runs Library.BitField

/-- The result of uGainSel: phase index, PT range and line-voltage flag. -/
structure Gain where
  z : Int
  pt : Nat
  ll : Bool
  deriving DecidableEq

def ptRange (d : PtDef) : Nat := if d.PT2 < 150 then 1 else 0

/-- The test of the search: the entry is valid and on the slot. -/
def onSlot (map : Nat → FeederMap) (id j f : Nat) : Bool :=
  (map f).valid && decide ((map f).meter = id) && ((map f).is3ph || decide ((map f).slot = j))

def uGainSel (s : Settings) (id j : Nat) : Gain :=
  let map := (buildFeederMap s.feederCnt s.pt).1
  match (List.range maxCh).find? (onSlot map id j) with
  | none => ⟨j, 0, false⟩
  | some f =>
    ⟨if (map f).is3ph then j else (map f).vphase, ptRange (s.pt f),
      (map f).is3ph && is3P3W (s.pt f).wiring⟩

def adcRdrDefault : BitVec 32 := 0x1FFFFF

def adcRdrVsh (slot : Nat) : Nat := 12 + 3 * slot

def vcode (vphase : Nat) : BitVec 3 := [4, 5, 6].getD vphase 0

def redirect (map : Nat → FeederMap) (id : Nat) (v : BitVec 32) (f : Nat) : BitVec 32 :=
  if (map f).valid = true ∧ (map f).is3ph = false ∧ (map f).meter = id then
    store (adcRdrVsh (map f).slot) (vcode (map f).vphase.toNat) v
  else v

def adcRedirectWord (s : Settings) (id : Nat) : BitVec 32 :=
  run (redirect (buildFeederMap s.feederCnt s.pt).1 id) adcRdrDefault (List.range maxCh)

/-- The voltage phase a slot's channel reads: code 7 is the slot's own converter. -/
def routedPhase (v : BitVec 32) (j : Nat) : Int :=
  let code := field (adcRdrVsh j) 3 v
  if code = 7 then j else (code.toNat : Int) - 4

def gainOf (d : PtDef) (j : Nat) : Gain :=
  if is1LN1CT d.wiring then ⟨(d.wiring : Int) - wm1LN1CT_L1, ptRange d, false⟩
  else ⟨j, ptRange d, is3P3W d.wiring⟩

def ownGain (j : Nat) : Gain := ⟨j, 0, false⟩

/-- A feeder in use that the published map places on the slot. -/
def Owns (pt : Nat → PtDef) (id j f : Nat) : Prop :=
  (pt f).wiring ≠ notUsed ∧ (id, j) ∈ pairs (feederMap pt f)

section
variable {F : Type} [Zero F]

def phaseArrays (d : SmpChannel F) : List (Nat → F) :=
  [d.U, d.Uangle, d.I, d.Iangle, d.P, d.THD_U, d.THD_I, d.TDD_I]

omit [Zero F] in
def slotArrays (pm : MeterData F) : List (Nat → F) :=
  [pm.U, pm.Uangle, pm.I, pm.Iangle, pm.P, pm.THD_U, pm.THD_I, pm.TDD_I]

/-- The readings of slot `j` stand at phase `p` and the other phases are zero. -/
def StoresAt (d : SmpChannel F) (pm : MeterData F) (j p : Nat) : Prop :=
  List.Forall₂ (fun a b => a p = b j ∧ ∀ q, q < 3 → q ≠ p → a q = 0)
      (phaseArrays d) (slotArrays pm) ∧
    d.harmU p = orders (pm.hdU j) ∧ d.harmI p = orders (pm.hdI j) ∧
    ∀ q, q ≠ p → d.harmU q = 0 ∧ d.harmI q = 0

variable (F) [LE F] [DecidableLE F]

/-- Gain, channel and published phase of a slot agree. -/
structure Agree (s : Settings) (id j : Nat) : Prop where
  gain : ∀ f, Owns s.pt id j f → uGainSel s id j = gainOf (s.pt f) j
  channel : ∀ f, Owns s.pt id j f →
    routedPhase (adcRedirectWord s id) j = (gainOf (s.pt f) j).z
  own : (∀ f, ¬ Owns s.pt id j f) →
    uGainSel s id j = ownGain j ∧ routedPhase (adcRedirectWord s id) j = j
  stored : ∀ f, Owns s.pt id j f → is1LN1CT (s.pt f).wiring = true →
    ∀ meters : Nat → MeterData F, StoresAt ((copySimpleMap s meters).2 f) (meters id) j
      ((s.pt f).wiring - wm1LN1CT_L1)
  only : ∀ f, Owns s.pt id j f → ∀ g, g ≠ f → ∀ a b : Nat → MeterData F, SameBut id j a b →
    (copySimpleMap s a).2 g = (copySimpleMap s b).2 g

end

/-- The feeder's settings select what its slot reads anyway. -/
def Neutral (pt : Nat → PtDef) (f : Nat) : Prop :=
  150 ≤ (pt f).PT2 ∧ is3P3W (pt f).wiring = false ∧
    (is1LN1CT (pt f).wiring = true → (pt f).wiring = wm1LN1CT_L1 + demand pt f % 3)

/-- Each feeder with a place in the meters is scanned exactly if it is in use and counted, or its
settings make no difference. -/
def Settled (s : Settings) : Prop :=
  ∀ f, f < maxCh → first (demand s.pt f) (s.pt f).wiring < slots →
    ((f < countFeeders s.pt ∧ (s.pt f).wiring ≠ notUsed) ↔ f < s.feederCnt) ∨ Neutral s.pt f

private theorem onSlot_iff {map : Nat → FeederMap} {id j f : Nat} (lt : j < 3) :
    onSlot map id j f = true ↔ (id, j) ∈ pairs (map f) := by
  rw [mem_pairs_iff lt]
  simp [onSlot, and_assoc]

private theorem entry_of_claim {feederCnt : Nat} {pt : Nat → PtDef} {f m s : Nat}
    (claimed : (m, s) ∈ pairs ((buildFeederMap feederCnt pt).1 f)) :
    (buildFeederMap feederCnt pt).1 f = entryAt (demand pt f) (pt f).wiring := by
  rw [buildFeederMap_apply, if_pos (mem_pairs_buildFeederMap.mp claimed).1]

private theorem uGainSel_of_claim {s : Settings} {id j f : Nat} (lt : j < 3)
    (claimed : (id, j) ∈ pairs ((buildFeederMap s.feederCnt s.pt).1 f)) :
    uGainSel s id j = gainOf (s.pt f) j := by
  have top : f < maxCh :=
    (mem_pairs_buildFeederMap.mp claimed).1.trans_le (Nat.min_le_right _ _)
  cases found : (List.range maxCh).find? (onSlot (buildFeederMap s.feederCnt s.pt).1 id j) with
  | none =>
    have absent := List.find?_eq_none.mp found f (List.mem_range.mpr top)
    exact absurd ((onSlot_iff lt).mpr claimed) absent
  | some g =>
    have again := (onSlot_iff lt).mp (List.find?_some found)
    obtain rfl := buildFeederMap_apart claimed again
    simp only [uGainSel, found, entry_of_claim claimed, entryAt, gainOf]
    cases kind : is1LN1CT (s.pt f).wiring <;> simp

private theorem uGainSel_of_free {s : Settings} {id j : Nat} (lt : j < 3)
    (free : ∀ f, (id, j) ∉ pairs ((buildFeederMap s.feederCnt s.pt).1 f)) :
    uGainSel s id j = ownGain j := by
  have absent : (List.range maxCh).find?
      (onSlot (buildFeederMap s.feederCnt s.pt).1 id j) = none := by
    apply List.find?_eq_none.mpr
    intro f _ found
    exact free f ((onSlot_iff lt).mp found)
  simp only [uGainSel, absent, ownGain]

private theorem field_redirect_other {s : Settings} {id j g : Nat} (lt : j < 3)
    (free : (id, j) ∉ pairs ((buildFeederMap s.feederCnt s.pt).1 g) ∨
      ((buildFeederMap s.feederCnt s.pt).1 g).is3ph = true) (v : BitVec 32) :
    field (adcRdrVsh j) 3 (redirect (buildFeederMap s.feederCnt s.pt).1 id v g) =
      field (adcRdrVsh j) 3 v := by
  unfold redirect
  split
  case isTrue h =>
    obtain ⟨valid, single, meter⟩ := h
    have differ : ((buildFeederMap s.feederCnt s.pt).1 g).slot ≠ j := by
      intro same
      rcases free with elsewhere | whole
      · exact elsewhere ((mem_pairs_iff lt).mpr ⟨valid, meter, .inr same⟩)
      · rw [single] at whole
        cases whole
    apply field_store_other
    · unfold adcRdrVsh
      omega
    · unfold adcRdrVsh
      omega
  case isFalse => rfl

private theorem phase_of_vcode {w : WiringMode} (single : is1LN1CT w = true) :
    vcode ((w : Int) - wm1LN1CT_L1).toNat ≠ 7 ∧
      ((vcode ((w : Int) - wm1LN1CT_L1).toNat).toNat : Int) - 4 = (w : Int) - wm1LN1CT_L1 := by
  have bounds : wm1LN1CT_L1 ≤ w ∧ w ≤ wm1LN1CT_L3 := of_decide_eq_true single
  have cases : ∀ n : Nat, 4 ≤ n ∧ n ≤ 6 → n = 4 ∨ n = 5 ∨ n = 6 := by omega
  rcases cases w bounds with rfl | rfl | rfl <;> decide

private theorem field_adcRedirectWord_own {s : Settings} {id j : Nat} (lt : j < 3)
    (free : ∀ g, (id, j) ∉ pairs ((buildFeederMap s.feederCnt s.pt).1 g) ∨
      ((buildFeederMap s.feederCnt s.pt).1 g).is3ph = true) :
    field (adcRdrVsh j) 3 (adcRedirectWord s id) = 7 := by
  apply always_run (I := fun v => field (adcRdrVsh j) 3 v = 7)
  · intro v g own
    rw [← own]
    exact field_redirect_other lt (free g) v
  · have slot : j = 0 ∨ j = 1 ∨ j = 2 := by omega
    rcases slot with rfl | rfl | rfl <;> decide

private theorem routedPhase_eq {s : Settings} {id j : Nat} (lt : j < 3) :
    routedPhase (adcRedirectWord s id) j = (uGainSel s id j).z := by
  by_cases taken : ∃ f, (id, j) ∈ pairs ((buildFeederMap s.feederCnt s.pt).1 f)
  · obtain ⟨f, claimed⟩ := taken
    rw [uGainSel_of_claim lt claimed]
    have entry := entry_of_claim claimed
    cases kind : is1LN1CT (s.pt f).wiring with
    | true =>
      have top : f < maxCh :=
        (mem_pairs_buildFeederMap.mp claimed).1.trans_le (Nat.min_le_right _ _)
      obtain ⟨valid, meter, place⟩ := (mem_pairs_iff lt).mp claimed
      have single : ((buildFeederMap s.feederCnt s.pt).1 f).is3ph = false := by
        rw [entry]
        simp [entryAt, kind]
      have slot : ((buildFeederMap s.feederCnt s.pt).1 f).slot = j := by
        simpa [single] using place
      have phase : ((buildFeederMap s.feederCnt s.pt).1 f).vphase =
          ((s.pt f).wiring : Int) - wm1LN1CT_L1 := by
        rw [entry]
        simp [entryAt, kind]
      have code : field (adcRdrVsh j) 3 (adcRedirectWord s id) =
          vcode (((s.pt f).wiring : Int) - wm1LN1CT_L1).toNat := by
        apply run_own (g := field (adcRdrVsh j) 3)
          (f := fun _ => vcode (((s.pt f).wiring : Int) - wm1LN1CT_L1).toNat) _ _
          List.nodup_range (List.mem_range.mpr top)
        · intro v g differ
          exact field_redirect_other lt
            (.inl fun again => differ (buildFeederMap_apart again claimed)) v
        intro v
        rw [redirect, if_pos ⟨valid, single, meter⟩, slot, phase]
        apply field_store_same
        unfold adcRdrVsh
        omega
      obtain ⟨differs, read⟩ := phase_of_vcode kind
      simp only [routedPhase, code, if_neg differs, read, gainOf, kind, if_true]
    | false =>
      have whole : ((buildFeederMap s.feederCnt s.pt).1 f).is3ph = true := by
        rw [entry]
        simp [entryAt, kind]
      have code : field (adcRdrVsh j) 3 (adcRedirectWord s id) = 7 := by
        refine field_adcRedirectWord_own lt fun g => ?_
        by_cases here : g = f
        · exact .inr (here ▸ whole)
        · exact .inl fun again => here (buildFeederMap_apart again claimed)
      simp [routedPhase, code, gainOf, kind]
  · push Not at taken
    have code := field_adcRedirectWord_own lt fun g => .inl (taken g)
    rw [uGainSel_of_free lt taken]
    simp [routedPhase, code, ownGain]

private theorem Owns.claimed {pt : Nat → PtDef} {id j f : Nat} (h : Owns pt id j f) :
    f < maxCh ∧ f < countFeeders pt ∧ (id, j) ∈ pairs (entryAt (demand pt f) (pt f).wiring) := by
  obtain ⟨scanned, claimed⟩ := mem_pairs_buildFeederMap.mp h.2
  exact ⟨scanned.trans_le (Nat.min_le_right _ _), scanned.trans_le (Nat.min_le_left _ _), claimed⟩

private theorem owns_iff {pt : Nat → PtDef} {id j f : Nat} (lt : f < maxCh) :
    Owns pt id j f ↔ (f < countFeeders pt ∧ (pt f).wiring ≠ notUsed) ∧
      (id, j) ∈ pairs (entryAt (demand pt f) (pt f).wiring) := by
  constructor
  · intro h
    exact ⟨⟨h.claimed.2.1, h.1⟩, h.claimed.2.2⟩
  · rintro ⟨⟨counted, used⟩, claimed⟩
    exact ⟨used, mem_pairs_buildFeederMap.mpr ⟨lt_min counted lt, claimed⟩⟩

section
variable {F : Type} [Zero F] [LE F] [DecidableLE F]

omit [LE F] [DecidableLE F] in
private theorem stores_smpFill1ph (pm : MeterData F) {j p : Nat} (lt : p < 3) :
    StoresAt (smpFill1ph pm j p) pm j p := by
  have three : p ≠ 3 := lt.ne
  have stored : ∀ x : F, placed p x p = x ∧ ∀ q, q < 3 → q ≠ p → placed p x q = 0 :=
    fun x => ⟨placed_same p x, fun q _ differ => placed_other differ x⟩
  have total : ∀ x : F, Function.update (placed p x) 3 x p = x ∧
      ∀ q, q < 3 → q ≠ p → Function.update (placed p x) 3 x q = 0 := by
    intro x
    constructor
    · rw [Function.update_of_ne three, placed_same]
    · intro q low differ
      rw [Function.update_of_ne low.ne, placed_other differ]
  refine ⟨?_, funext fun o => if_pos rfl, funext fun o => if_pos rfl, fun q differ => ?_⟩
  · exact .cons (total _) (.cons (stored _) (.cons (total _) (.cons (stored _) (.cons (stored _)
      (.cons (stored _) (.cons (stored _) (.cons (stored _) .nil)))))))
  · exact ⟨funext fun o => if_neg differ, funext fun o => if_neg differ⟩

private theorem copySimpleMap_stored {s : Settings} {id j f : Nat} (lt : j < 3)
    (owns : Owns s.pt id j f)
    (single : is1LN1CT (s.pt f).wiring = true) (meters : Nat → MeterData F) :
    StoresAt ((copySimpleMap s meters).2 f) (meters id) j ((s.pt f).wiring - wm1LN1CT_L1) := by
  have entry : feederMap s.pt f = entryAt (demand s.pt f) (s.pt f).wiring :=
    entry_of_claim owns.2
  obtain ⟨valid, meter, place⟩ := (mem_pairs_iff lt).mp owns.2
  have one : (feederMap s.pt f).is3ph = false := by
    rw [entry]
    simp [entryAt, single]
  have slot : (feederMap s.pt f).slot = j := by simpa [one] using place
  have phase : (feederMap s.pt f).vphase.toNat = (s.pt f).wiring - wm1LN1CT_L1 := by
    rw [entry]
    simp only [entryAt, single, if_true]
    exact Int.toNat_sub _ _
  have filled := @stores_smpFill1ph F _ (meters id) j _ (single_phase_lt single)
  rw [copySimpleMap_channel]
  simp only [smpChannel, valid, one, meter, slot, phase, if_true, Bool.false_eq_true, if_false]
  exact filled

private theorem copySimpleMap_only {s : Settings} {id j f g : Nat} (lt : j < 3)
    (owns : Owns s.pt id j f) (differ : g ≠ f) {a b : Nat → MeterData F} (same : SameBut id j a b) :
    (copySimpleMap s a).2 g = (copySimpleMap s b).2 g := by
  rw [copySimpleMap_channel, copySimpleMap_channel]
  unfold smpChannel
  split
  case isFalse => rfl
  case isTrue valid =>
    by_cases meter : (feederMap s.pt g).meter = id
    · have free : ¬ ((feederMap s.pt g).is3ph = true ∨ (feederMap s.pt g).slot = j) := fun place =>
        differ (buildFeederMap_apart ((mem_pairs_iff lt).mpr ⟨valid, meter, place⟩) owns.2)
      push Not at free
      obtain ⟨one, slot⟩ := free
      have single : (feederMap s.pt g).is3ph = false := by simpa using one
      have low : (feederMap s.pt g).slot < 3 := by
        have claimed : ((feederMap s.pt g).meter, (feederMap s.pt g).slot) ∈
            pairs (feederMap s.pt g) := by
          simp [pairs, valid, single]
        exact (buildFeederMap_within claimed).2
      simp only [single, meter, Bool.false_eq_true, if_false, same.I_start,
        smpFill1ph_congr (same.slot _ low slot) same.Freq]
    · rw [same.meter _ meter]

end

private theorem gainOf_eq_own_iff {pt : Nat → PtDef} {id j f : Nat}
    (claimed : (id, j) ∈ pairs (entryAt (demand pt f) (pt f).wiring)) :
    gainOf (pt f) j = ownGain j ↔ Neutral pt f := by
  have range : ptRange (pt f) = 0 ↔ 150 ≤ (pt f).PT2 := by
    unfold ptRange
    split <;> omega
  obtain ⟨-, third, low, high⟩ := mem_pairs_entryAt.mp claimed
  cases kind : is1LN1CT (pt f).wiring with
  | true =>
    rw [first_single kind] at low high
    rw [size_single kind] at high
    have slot : demand pt f % 3 = j := by omega
    have line := not_3P3W_of_single kind
    have phase : ((pt f).wiring : Int) - wm1LN1CT_L1 = j ↔ (pt f).wiring = wm1LN1CT_L1 + j := by
      have shift : ∀ n : Nat, (n : Int) - (4 : Nat) = j ↔ n = 4 + j := by omega
      exact shift _
    simp [gainOf, ownGain, Neutral, kind, range, line, slot, phase, and_comm]
  | false => simp [gainOf, ownGain, Neutral, kind, range]

private theorem exists_claim {pt : Nat → PtDef} {f : Nat}
    (inside : first (demand pt f) (pt f).wiring < slots) :
    ∃ id j, id < meterChCount ∧ j < 3 ∧
      (id, j) ∈ pairs (entryAt (demand pt f) (pt f).wiring) := by
  refine ⟨first (demand pt f) (pt f).wiring / 3, first (demand pt f) (pt f).wiring % 3, ?_,
    Nat.mod_lt _ (by decide), ?_⟩
  · change first (demand pt f) (pt f).wiring < 9 at inside
    change first (demand pt f) (pt f).wiring / 3 < 3
    omega
  · have positive : 0 < size (pt f).wiring := by
      unfold size
      split <;> decide
    exact mem_pairs_entryAt.mpr ⟨inside, Nat.mod_lt _ (by decide), by omega, by omega⟩

section Scan

variable {s : Settings} {id j f : Nat}

private theorem uGainSel_of_scanned (slot : j < 3) (top : f < maxCh) (scanned : f < s.feederCnt)
    (claimed : (id, j) ∈ pairs (entryAt (demand s.pt f) (s.pt f).wiring)) :
    uGainSel s id j = gainOf (s.pt f) j :=
  uGainSel_of_claim slot (mem_pairs_buildFeederMap.mpr ⟨lt_min scanned top, claimed⟩)

private theorem uGainSel_of_unscanned (slot : j < 3) (unscanned : ¬ f < s.feederCnt)
    (claimed : (id, j) ∈ pairs (entryAt (demand s.pt f) (s.pt f).wiring)) :
    uGainSel s id j = ownGain j := by
  apply uGainSel_of_free slot
  intro g again
  obtain ⟨low, place⟩ := mem_pairs_buildFeederMap.mp again
  obtain rfl := entries_apart claimed place
  exact unscanned (low.trans_le (Nat.min_le_left _ _))

private theorem not_owns_of_idle (top : f < maxCh)
    (idle : ¬ (f < countFeeders s.pt ∧ (s.pt f).wiring ≠ notUsed))
    (claimed : (id, j) ∈ pairs (entryAt (demand s.pt f) (s.pt f).wiring)) (g : Nat) :
    ¬ Owns s.pt id j g := by
  intro owns
  obtain rfl := entries_apart claimed owns.claimed.2.2
  exact idle ((owns_iff top).mp owns).1

private theorem gain_of_owns (settled : Settled s) (slot : j < 3) (owns : Owns s.pt id j f) :
    uGainSel s id j = gainOf (s.pt f) j := by
  obtain ⟨top, -, claimed⟩ := owns.claimed
  by_cases scanned : f < s.feederCnt
  · exact uGainSel_of_scanned slot top scanned claimed
  · rcases settled f top (mem_pairs_entryAt.mp claimed).1 with same | neutral
    · exact absurd (same.mp ((owns_iff top).mp owns).1) scanned
    · rw [uGainSel_of_unscanned slot scanned claimed, (gainOf_eq_own_iff claimed).mpr neutral]

private theorem gain_of_free (settled : Settled s) (slot : j < 3) (free : ∀ f, ¬ Owns s.pt id j f) :
    uGainSel s id j = ownGain j := by
  by_cases taken : ∃ f, (id, j) ∈ pairs ((buildFeederMap s.feederCnt s.pt).1 f)
  · obtain ⟨f, again⟩ := taken
    obtain ⟨low, claimed⟩ := mem_pairs_buildFeederMap.mp again
    have top := low.trans_le (Nat.min_le_right _ _)
    rw [uGainSel_of_claim slot again]
    rcases settled f top (mem_pairs_entryAt.mp claimed).1 with same | neutral
    · have counted := same.mpr (low.trans_le (Nat.min_le_left _ _))
      exact absurd ((owns_iff top).mpr ⟨counted, claimed⟩) (free f)
    · exact (gainOf_eq_own_iff claimed).mpr neutral
  · push Not at taken
    exact uGainSel_of_free slot taken

end Scan

/-- Gain, channel and published phase agree on every slot exactly if each feeder with a place is
scanned with the stored count exactly when it is in use and counted, up to neutral settings. -/
theorem agree_iff (F : Type) [Zero F] [LE F] [DecidableLE F] (s : Settings) :
    (∀ id j, id < meterChCount → j < 3 → Agree F s id j) ↔ Settled s := by
  constructor
  · intro agree f top inside
    obtain ⟨id, j, meter, slot, claimed⟩ := exists_claim inside
    have here := agree id j meter slot
    by_contra unsettled
    obtain ⟨differs, change⟩ := not_or.mp unsettled
    rw [← gainOf_eq_own_iff claimed] at change
    by_cases scanned : f < s.feederCnt
    · have idle : ¬ (f < countFeeders s.pt ∧ (s.pt f).wiring ≠ notUsed) :=
        fun counted => differs (iff_of_true counted scanned)
      have free := not_owns_of_idle top idle claimed
      exact change ((uGainSel_of_scanned slot top scanned claimed).symm.trans (here.own free).1)
    · have counted : f < countFeeders s.pt ∧ (s.pt f).wiring ≠ notUsed := by
        by_contra idle
        exact differs (iff_of_false idle scanned)
      have owns := (owns_iff top).mpr ⟨counted, claimed⟩
      exact change ((here.gain f owns).symm.trans (uGainSel_of_unscanned slot scanned claimed))
  · intro settled id j _ slot
    constructor
    · exact fun f owns => gain_of_owns settled slot owns
    · intro f owns
      rw [routedPhase_eq slot, gain_of_owns settled slot owns]
    · intro free
      have own := gain_of_free settled slot free
      refine ⟨own, ?_⟩
      rw [routedPhase_eq slot, own]
      rfl
    · exact fun f owns single meters => copySimpleMap_stored slot owns single meters
    · exact fun f owns g differ a b same => copySimpleMap_only slot owns differ same

/-- Nine feeders on the second phase under the feeder count of the factory settings. -/
def staleSettings : Settings := ⟨3, fun _ => ⟨wm1LN1CT_L2, 220⟩⟩

/-- The fourth feeder's slot keeps the channel and gain of the first phase. -/
theorem stale_count_disagrees : ¬ Agree Int staleSettings 1 0 := by
  intro agree
  have owns : Owns staleSettings.pt 1 0 3 := by
    unfold Owns
    decide
  have wrong : uGainSel staleSettings 1 0 ≠ gainOf (staleSettings.pt 3) 0 := by decide
  exact wrong (agree.gain 3 owns)

end SV300.Feeder
