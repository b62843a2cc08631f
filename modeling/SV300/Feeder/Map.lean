/- SV300/Feeder/Map
   digest: The feeder map is a next-fit packing of feeders into phase slots, up to two slips. -/

import Mathlib.Logic.Function.Basic
import Mathlib.Data.Finset.Range
import SV300.Library.NextFit

set_option autoImplicit false
set_option relaxedAutoImplicit false

namespace SV300.Feeder

open Library.NextFit

def maxCh : Nat := 9

def meterChCount : Nat := 3

/-- WIRING_MODE; the register that holds it is 16 bits wide and may hold any other value. -/
abbrev WiringMode := Nat

def notUsed : WiringMode := 0
def wm3LN3CT : WiringMode := 1
def wm3LL2CT : WiringMode := 2
def wm3LL3CT : WiringMode := 3
def wm1LN1CT_L1 : WiringMode := 4
def wm1LN1CT_L2 : WiringMode := 5
def wm1LN1CT_L3 : WiringMode := 6
def wm1LL2CT : WiringMode := 7

def is1LN1CT (w : WiringMode) : Bool := decide (wm1LN1CT_L1 ≤ w ∧ w ≤ wm1LN1CT_L3)

/-- The two wirings whose voltages are line voltages. -/
def is3P3W (w : WiringMode) : Bool := decide (w = wm3LL3CT ∨ w = wm3LL2CT)

/-- The fields of PT_DEF that the users of the feeder map read. -/
structure PtDef where
  wiring : WiringMode
  PT2 : Nat
  deriving DecidableEq

/-- FEEDER_MAP: where a logical feeder is measured. -/
structure FeederMap where
  meter : Nat
  slot : Nat
  vphase : Int
  is3ph : Bool
  valid : Bool
  deriving DecidableEq

def FeederMap.zero : FeederMap := ⟨0, 0, 0, false, false⟩

def countFeeders (pt : Nat → PtDef) : Nat :=
  (List.range maxCh).countP fun i => decide ((pt i).wiring ≠ notUsed)

/-- The local variables of buildFeederMap. -/
structure Scan where
  map : Nat → FeederMap
  meterIdx : Int
  slot : Nat
  curSingle : Bool
  nvalid : Nat

def Scan.start : Scan := ⟨fun _ => .zero, -1, 3, false, 0⟩

/-- A store into a `uint8_t`. -/
def u8 (x : Int) : Nat := (x % 256).toNat

/-- The open single-phase meter or, when it has no slot left, the next meter. -/
def openMeter (s : Scan) : Scan :=
  if s.curSingle = false ∨ 3 ≤ s.slot then
    { s with meterIdx := s.meterIdx + 1, curSingle := true, slot := 0 }
  else s

def takeSlot (wm : WiringMode) (s : Scan) (f : Nat) : Scan :=
  { s with
    map := Function.update s.map f
      ⟨u8 s.meterIdx, s.slot, (wm : Int) - wm1LN1CT_L1, false, false⟩
    slot := s.slot + 1 }

/-- The branch of every other wiring, `notUsed` among them: a meter of its own. -/
def placeWhole (s : Scan) (f : Nat) : Scan :=
  { s with
    meterIdx := s.meterIdx + 1
    curSingle := false
    slot := 3
    map := Function.update s.map f ⟨u8 (s.meterIdx + 1), 0, -1, true, false⟩ }

/-- `valid` is set last, from the meter index alone. -/
def markValid (s : Scan) (f : Nat) : Scan :=
  let valid := decide (s.meterIdx < meterChCount)
  { s with
    map := Function.update s.map f { s.map f with valid := valid }
    nvalid := if valid then s.nvalid + 1 else s.nvalid }

def scanFeeder (pt : Nat → PtDef) (s : Scan) (f : Nat) : Scan :=
  let wm := (pt f).wiring
  markValid (if is1LN1CT wm then takeSlot wm (openMeter s) f else placeWhole s f) f

/-- The first `n` rounds of the loop. -/
def scan (pt : Nat → PtDef) (n : Nat) : Scan := (List.range n).foldl (scanFeeder pt) .start

def buildFeederMap (feederCnt : Nat) (pt : Nat → PtDef) : (Nat → FeederMap) × Nat :=
  let s := scan pt (min feederCnt maxCh)
  (s.map, s.nvalid)

/-- copySimpleMap counts the feeders before it builds the map. -/
def feederMap (pt : Nat → PtDef) : Nat → FeederMap := (buildFeederMap (countFeeders pt) pt).1

private theorem scan_succ (pt : Nat → PtDef) (n : Nat) :
    scan pt (n + 1) = scanFeeder pt (scan pt n) n := by
  simp only [scan, List.range_succ, List.foldl_append, List.foldl_cons, List.foldl_nil]

def first (c : Nat) (wm : WiringMode) : Nat := if is1LN1CT wm then c else (c + 2) / 3 * 3

def size (wm : WiringMode) : Nat := if is1LN1CT wm then 1 else 3

def slots : Nat := 3 * meterChCount

/-- How many slots of the row the feeders before `f` need when they are scanned one by one. -/
def demand (pt : Nat → PtDef) (f : Nat) : Nat := reach first size (fun i => (pt i).wiring) f

theorem le_first (c : Nat) (wm : WiringMode) : c ≤ first c wm := by
  unfold first
  split <;> omega

theorem demand_succ (pt : Nat → PtDef) (f : Nat) :
    demand pt (f + 1) = first (demand pt f) (pt f).wiring + size (pt f).wiring := rfl

theorem not_3P3W_of_single {w : WiringMode} (single : is1LN1CT w = true) : is3P3W w = false := by
  apply decide_eq_false
  rintro (same | same) <;> rw [same] at single <;> cases single

theorem single_phase_lt {w : WiringMode} (single : is1LN1CT w = true) : w - wm1LN1CT_L1 < 3 := by
  have bounds : wm1LN1CT_L1 ≤ w ∧ w ≤ wm1LN1CT_L3 := of_decide_eq_true single
  have small : ∀ n : Nat, n ≤ 6 → n - 4 < 3 := by omega
  exact small w bounds.2

theorem first_single {c : Nat} {wm : WiringMode} (single : is1LN1CT wm = true) :
    first c wm = c := by
  simp [first, single]

theorem first_whole {c : Nat} {wm : WiringMode} (whole : is1LN1CT wm = false) :
    first c wm = (c + 2) / 3 * 3 := by
  simp [first, whole]

theorem size_single {wm : WiringMode} (single : is1LN1CT wm = true) : size wm = 1 := by
  simp [size, single]

theorem size_whole {wm : WiringMode} (whole : is1LN1CT wm = false) : size wm = 3 := by
  simp [size, whole]

private theorem demand_le (pt : Nat → PtDef) (f : Nat) : demand pt f ≤ 5 * f := by
  induction f with
  | zero => exact le_rfl
  | succ f ih =>
    rw [demand_succ]
    cases kind : is1LN1CT (pt f).wiring with
    | true => rw [first_single kind, size_single kind]; omega
    | false => rw [first_whole kind, size_whole kind]; omega

/-- The entry of a feeder when the feeders before it need `c` slots. -/
def entryAt (c : Nat) (wm : WiringMode) : FeederMap where
  meter := first c wm / 3
  slot := first c wm % 3
  vphase := if is1LN1CT wm then (wm : Int) - wm1LN1CT_L1 else -1
  is3ph := !is1LN1CT wm
  valid := decide (first c wm < slots)

/-- The scan's variables say how far the row is used: the next slot is `3 * meterIdx + slot`. -/
structure Tracks (c : Nat) (s : Scan) : Prop where
  position : 3 * s.meterIdx + s.slot = c
  low : 1 ≤ s.slot
  high : s.slot ≤ 3
  closed : s.curSingle = false → s.slot = 3

private theorem tracks_start : Tracks 0 .start := ⟨rfl, by decide, by decide, fun _ => rfl⟩

private theorem u8_of_nat {x : Int} {n : Nat} (same : x = n) (small : n < 256) : u8 x = n := by
  unfold u8
  omega

private theorem Tracks.markValid {c : Nat} {s : Scan} (h : Tracks c s) (f : Nat) :
    Tracks c (markValid s f) :=
  ⟨h.position, h.low, h.high, h.closed⟩

private theorem markValid_map {s : Scan} {map : Nat → FeederMap} {f a : Nat} {e : FeederMap}
    (stored : s.map = Function.update map f e) (meter : s.meterIdx = (a / 3 : Nat)) :
    (markValid s f).map = Function.update map f { e with valid := decide (a < slots) } := by
  have inside : s.meterIdx < (meterChCount : Int) ↔ a < slots := by
    rw [meter]
    change ((a / 3 : Nat) : Int) < 3 ↔ a < 9
    omega
  simp [markValid, stored, inside]

theorem openMeter_spec {c : Nat} {s : Scan} (h : Tracks c s) :
    (openMeter s).meterIdx = (c / 3 : Nat) ∧ (openMeter s).slot = c % 3 ∧
      (openMeter s).curSingle = true ∧ (openMeter s).map = s.map := by
  obtain ⟨position, low, high, closed⟩ := h
  unfold openMeter
  split
  case isTrue fresh =>
    have full : s.slot = 3 := by
      rcases fresh with new | full
      · exact closed new
      · exact Nat.le_antisymm high full
    refine ⟨?_, ?_, rfl, rfl⟩
    · change s.meterIdx + 1 = (c / 3 : Nat)
      omega
    · change 0 = c % 3
      omega
  case isFalse room =>
    obtain ⟨single, free⟩ : s.curSingle = true ∧ s.slot < 3 := by simpa using room
    exact ⟨by omega, by omega, single, rfl⟩

theorem scanFeeder_spec {pt : Nat → PtDef} {s : Scan} {c f : Nat} (h : Tracks c s)
    (small : c < 700) :
    Tracks (first c (pt f).wiring + size (pt f).wiring) (scanFeeder pt s f) ∧
      (scanFeeder pt s f).map = Function.update s.map f (entryAt c (pt f).wiring) := by
  cases kind : is1LN1CT (pt f).wiring with
  | true =>
    obtain ⟨meter, slot, single, map⟩ := openMeter_spec h
    have index : u8 (openMeter s).meterIdx = c / 3 := u8_of_nat meter (by omega)
    have step : scanFeeder pt s f = markValid (takeSlot (pt f).wiring (openMeter s) f) f := by
      simp only [scanFeeder, kind, if_true]
    rw [step]
    constructor
    · rw [first_single kind, size_single kind]
      apply Tracks.markValid
      constructor
      · change 3 * (openMeter s).meterIdx + (((openMeter s).slot + 1 : Nat) : Int) = _
        omega
      · change 1 ≤ (openMeter s).slot + 1
        omega
      · change (openMeter s).slot + 1 ≤ 3
        omega
      · change (openMeter s).curSingle = false → _
        simp [single]
    · have stored : (takeSlot (pt f).wiring (openMeter s) f).map = Function.update s.map f
          ⟨c / 3, c % 3, ((pt f).wiring : Int) - wm1LN1CT_L1, false, false⟩ := by
        rw [← index, ← slot, ← map]
        rfl
      rw [markValid_map stored meter]
      simp [entryAt, first, kind]
  | false =>
    obtain ⟨position, low, high, closed⟩ := h
    have meter : s.meterIdx + 1 = ((c + 2) / 3 * 3 / 3 : Nat) := by omega
    have index : u8 (s.meterIdx + 1) = (c + 2) / 3 * 3 / 3 := u8_of_nat meter (by omega)
    have step : scanFeeder pt s f = markValid (placeWhole s f) f := by
      simp only [scanFeeder, kind, Bool.false_eq_true, if_false]
    rw [step]
    constructor
    · rw [first_whole kind, size_whole kind]
      apply Tracks.markValid
      refine ⟨?_, Nat.le_add_left 1 2, le_rfl, fun _ => rfl⟩
      change 3 * (s.meterIdx + 1) + 3 = _
      omega
    · have stored : (placeWhole s f).map = Function.update s.map f
          ⟨(c + 2) / 3 * 3 / 3, 0, -1, true, false⟩ := by
        rw [← index]
        rfl
      rw [markValid_map stored meter]
      simp [entryAt, first, kind]

theorem scan_spec (pt : Nat → PtDef) {n : Nat} (le : n ≤ maxCh) :
    Tracks (demand pt n) (scan pt n) ∧
      ∀ f, (scan pt n).map f = if f < n then entryAt (demand pt f) (pt f).wiring else .zero := by
  induction n with
  | zero => exact ⟨tracks_start, fun f => rfl⟩
  | succ n ih =>
    obtain ⟨tracks, map⟩ := ih (Nat.le_of_succ_le le)
    have small : demand pt n < 700 := by
      have := demand_le pt n
      have : n + 1 ≤ 9 := le
      omega
    obtain ⟨next, entry⟩ := scanFeeder_spec (f := n) tracks small
    rw [scan_succ]
    refine ⟨next, fun f => ?_⟩
    rw [entry]
    by_cases same : f = n
    · subst same
      simp
    · have split : f < n + 1 ↔ f < n := by omega
      simp only [Function.update_of_ne same, map f, split]

/-- Each scanned feeder has the entry its place in the row gives it, the others are zero. -/
theorem buildFeederMap_apply (feederCnt : Nat) (pt : Nat → PtDef) (f : Nat) :
    (buildFeederMap feederCnt pt).1 f =
      if f < min feederCnt maxCh then entryAt (demand pt f) (pt f).wiring else .zero :=
  (scan_spec pt (Nat.min_le_right _ _)).2 f

theorem feederMap_apply (pt : Nat → PtDef) (f : Nat) :
    feederMap pt f =
      if f < countFeeders pt then entryAt (demand pt f) (pt f).wiring else .zero := by
  have le : countFeeders pt ≤ maxCh := by
    simpa [countFeeders] using
      List.countP_le_length (p := fun i => decide ((pt i).wiring ≠ notUsed)) (l := List.range maxCh)
  rw [feederMap, buildFeederMap_apply, Nat.min_eq_left le]

/-- The (meter, phase slot) pairs of a block of the row. -/
def cells (a : Nat) (wm : WiringMode) : List (Nat × Nat) :=
  (List.range' a (size wm)).map fun k => (k / 3, k % 3)

def pairs (e : FeederMap) : List (Nat × Nat) :=
  if e.valid then
    if e.is3ph then [(e.meter, 0), (e.meter, 1), (e.meter, 2)] else [(e.meter, e.slot)]
  else []

private theorem mem_cells {a m s : Nat} {wm : WiringMode} :
    (m, s) ∈ cells a wm ↔ s < 3 ∧ a ≤ 3 * m + s ∧ 3 * m + s < a + size wm := by
  simp only [cells, List.mem_map, List.mem_range'_1, Prod.mk.injEq]
  constructor
  · rintro ⟨k, ⟨low, high⟩, rfl, rfl⟩
    have split := Nat.div_add_mod k 3
    exact ⟨Nat.mod_lt k (by decide), by omega, by omega⟩
  · rintro ⟨slot, low, high⟩
    exact ⟨3 * m + s, ⟨low, high⟩, by omega, by omega⟩

private theorem pairs_zero : pairs .zero = [] := rfl

theorem pairs_entryAt (c : Nat) (wm : WiringMode) :
    pairs (entryAt c wm) = if first c wm < slots then cells (first c wm) wm else [] := by
  by_cases inside : first c wm < slots
  · cases kind : is1LN1CT wm with
    | true => simp [pairs, entryAt, inside, kind, cells, size]
    | false =>
      have meter : (c + 2) / 3 * 3 / 3 = (c + 2) / 3 := by omega
      have second : ((c + 2) / 3 * 3 + 1) / 3 = (c + 2) / 3 := by omega
      have third : ((c + 2) / 3 * 3 + 1 + 1) / 3 = (c + 2) / 3 := by omega
      rw [first_whole kind] at inside
      simp [pairs, entryAt, inside, kind, cells, size, first, List.range', meter, second, third]
      omega
  · simp [pairs, entryAt, inside]

theorem mem_pairs_entryAt {c m s : Nat} {wm : WiringMode} :
    (m, s) ∈ pairs (entryAt c wm) ↔
      first c wm < slots ∧ s < 3 ∧ first c wm ≤ 3 * m + s ∧
        3 * m + s < first c wm + size wm := by
  rw [pairs_entryAt]
  by_cases inside : first c wm < slots
  · rw [if_pos inside, mem_cells]
    exact (and_iff_right inside).symm
  · simp [inside]

theorem finish_le_slots {c : Nat} {wm : WiringMode} :
    finish first size c wm ≤ slots ↔ first c wm < slots := by
  change first c wm + size wm ≤ 9 ↔ first c wm < 9
  cases kind : is1LN1CT wm with
  | true => rw [first_single kind, size_single kind]; omega
  | false => rw [first_whole kind, size_whole kind]; omega

theorem mem_pairs_buildFeederMap {feederCnt : Nat} {pt : Nat → PtDef} {f m s : Nat} :
    (m, s) ∈ pairs ((buildFeederMap feederCnt pt).1 f) ↔
      f < min feederCnt maxCh ∧ (m, s) ∈ pairs (entryAt (demand pt f) (pt f).wiring) := by
  rw [buildFeederMap_apply]
  by_cases scanned : f < min feederCnt maxCh
  · rw [if_pos scanned, and_iff_right scanned]
  · rw [if_neg scanned, pairs_zero]
    simp [scanned]

theorem buildFeederMap_within {feederCnt : Nat} {pt : Nat → PtDef} {f m s : Nat}
    (claimed : (m, s) ∈ pairs ((buildFeederMap feederCnt pt).1 f)) :
    m < meterChCount ∧ s < 3 := by
  obtain ⟨inside, slot, low, high⟩ :=
    mem_pairs_entryAt.mp (mem_pairs_buildFeederMap.mp claimed).2
  have ends : first (demand pt f) (pt f).wiring + size (pt f).wiring ≤ 9 :=
    finish_le_slots.mpr inside
  refine ⟨?_, slot⟩
  change m < 3
  omega

theorem entries_apart {pt : Nat → PtDef} {f g m s : Nat}
    (claimed : (m, s) ∈ pairs (entryAt (demand pt f) (pt f).wiring))
    (again : (m, s) ∈ pairs (entryAt (demand pt g) (pt g).wiring)) : f = g := by
  obtain ⟨-, -, low, high⟩ := mem_pairs_entryAt.mp claimed
  obtain ⟨-, -, low', high'⟩ := mem_pairs_entryAt.mp again
  rcases Nat.lt_trichotomy f g with lt | same | gt
  · have := blocks_apart (k := 3 * m + s) le_first (fun i => (pt i).wiring) lt high
    exact absurd low' (Nat.not_le.mpr this)
  · exact same
  · have := blocks_apart (k := 3 * m + s) le_first (fun i => (pt i).wiring) gt high'
    exact absurd low (Nat.not_le.mpr this)

theorem buildFeederMap_apart {feederCnt feederCnt' : Nat} {pt : Nat → PtDef} {f g m s : Nat}
    (claimed : (m, s) ∈ pairs ((buildFeederMap feederCnt pt).1 f))
    (again : (m, s) ∈ pairs ((buildFeederMap feederCnt' pt).1 g)) : f = g :=
  entries_apart (mem_pairs_buildFeederMap.mp claimed).2 (mem_pairs_buildFeederMap.mp again).2

theorem mem_pairs_iff {e : FeederMap} {m s : Nat} (lt : s < 3) :
    (m, s) ∈ pairs e ↔ e.valid = true ∧ e.meter = m ∧ (e.is3ph = true ∨ e.slot = s) := by
  cases valid : e.valid with
  | false => simp [pairs, valid]
  | true =>
    cases whole : e.is3ph with
    | false => simp [pairs, valid, whole, eq_comm]
    | true =>
      have slot : s = 0 ∨ s = 1 ∨ s = 2 := by omega
      simp only [pairs, valid, whole, if_true, List.mem_cons, Prod.mk.injEq, List.not_mem_nil,
        or_false, true_or, and_true, true_and, ← and_or_left, slot]
      exact eq_comm

end SV300.Feeder
