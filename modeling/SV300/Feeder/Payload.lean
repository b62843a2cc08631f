/- SV300/Feeder/Payload
   digest: The phases the MQTT payload reports for a feeder, against those its wiring measures. -/

import SV300.Rms.Angle
import SV300.Feeder.Simple

set_option autoImplicit false
set_option relaxedAutoImplicit false

namespace SV300.Feeder

open SV300.Energy.Registers SV300.Rms

variable {F : Type} [Single F]

/-- The values of one feeder. -/
structure Row (F : Type) where
  number : Nat
  ftype : String
  volt : List F
  amp : List F
  watt : F
  var : F
  VA : F
  PF : F
  kwh_imp : UInt32
  kvarh_imp : UInt32
  kvah : UInt32
  unbal : F
  thd : F

structure Payload (F : Type) where
  n_feeder : Nat
  frequency : F
  rows : List (Row F)

def feederType (w : WiringMode) : String :=
  if w = wm3LN3CT then "3P4W"
  else if w = wm3LL2CT ∨ w = wm3LL3CT then "3P3W"
  else if w = wm1LN1CT_L1 then "1P2W_A"
  else if w = wm1LN1CT_L2 then "1P2W_B"
  else if w = wm1LN1CT_L3 then "1P2W_C"
  else if w = wm1LL2CT then "1P3W"
  else "SIM"

def avg3 (v : Nat → F) (start n : Nat) : F :=
  if n = 0 then 0
  else ((List.range n).map fun i => v (start + i)).foldl (· + ·) 0 / ((n : Int) : F)

/-- The first position reported and how many follow from it. -/
def reportedRange (w : WiringMode) : Nat × Nat :=
  if is1LN1CT w then (w - wm1LN1CT_L1, 1) else if w = wm1LL2CT then (0, 2) else (0, 3)

/-- The part of one feeder; a channel without a type is left out. -/
def feederRow (f : Nat) (d : SmpChannel F) : Option (Row F) :=
  let w := d.cbType
  let p0 := (reportedRange w).1
  let np := (reportedRange w).2
  let u := if is3P3W w then d.Upp else d.U
  if w = notUsed then none
  else some
    { number := f + 1
      ftype := feederType w
      volt := (List.range np).map fun k => u (p0 + k)
      amp := (List.range np).map fun k => d.I (p0 + k)
      watt := d.Ptot
      var := d.Qtot
      VA := d.Stot
      PF := d.PFtot
      kwh_imp := d.kWh_imp
      kvarh_imp := d.kVARh_imp
      kvah := d.kVAh
      unbal := d.Iunb
      thd := avg3 d.THD_I p0 np }

/-- The payload without the time stamp, the version and the temperature. -/
def buildPayload (ch : Nat → SmpChannel F) : Payload F where
  n_feeder := (List.range maxCh).countP fun f => decide ((ch f).cbType ≠ notUsed)
  frequency := (ch 0).Freq
  rows := (List.range maxCh).filterMap fun f => feederRow f (ch f)

def Payload.rowsOf (p : Payload F) (f : Nat) : List (Row F) :=
  p.rows.filter fun row => row.number = f + 1

/-- A meter after calcRmsAngle and the THD calculation, which skips currents below the start. -/
def measure (fn : Libm F) (pickupVolt : F) (w : WiringMode) (pm : MeterData F) (c : Cntl F)
    (fft : Nat → F) : MeterData F :=
  let r := distribute fn pickupVolt w c pm.I pm.Upp
  { pm with
    U := r.U
    I := r.I
    Upp := r.Upp
    THD_I := fun i => if r.I i < pm.I_start then 0 else fft i }

/-- The positions at which a wiring measures; a single-phase feeder has its slot. -/
def measuredAt (w : WiringMode) (slot : Nat) : List Nat :=
  if is1LN1CT w then [slot] else if w = wm1LL2CT then [0, 2] else [0, 1, 2]

def reportedVolt (w : WiringMode) (pm : MeterData F) : Nat → F := if is3P3W w then pm.Upp else pm.U

def mean (l : List F) : F := l.foldl (· + ·) 0 / ((l.length : Int) : F)

omit [Single F] in
/-- A placed feeder in use has one row, with its phases, each once; another feeder has none. All
chips measure with the wiring under their own number, and any values may be measured. -/
structure Reports (s : Settings) (f : Nat) : Prop where
  present : (feederMap s.pt f).valid = true → (s.pt f).wiring ≠ notUsed →
    ∀ (F : Type) [Single F] [LE F] [DecidableLE F] (fn : Libm F) (pickupVolt : F)
      (pm : Nat → MeterData F) (c : Nat → Cntl F) (fft : Nat → Nat → F),
      let meters id := measure fn pickupVolt (s.pt id).wiring (pm id) (c id) (fft id)
      let e := feederMap s.pt f
      let w := (s.pt f).wiring
      let own := measure fn pickupVolt w (pm e.meter) (c e.meter) (fft e.meter)
      ∃ row, (buildPayload (copySimpleMap s meters).2).rowsOf f = [row] ∧
        row.volt = (measuredAt w e.slot).map (reportedVolt w own) ∧
        row.amp = (measuredAt w e.slot).map own.I ∧
        row.thd = mean ((measuredAt w e.slot).map own.THD_I)
  absent : ¬ ((feederMap s.pt f).valid = true ∧ (s.pt f).wiring ≠ notUsed) →
    ∀ (F : Type) [Single F] [LE F] [DecidableLE F] (meters : Nat → MeterData F),
      (buildPayload (copySimpleMap s meters).2).rowsOf f = []

/-- Under the wiring `chip` a meter's positions hold what a feeder of wiring `w` reports. -/
def SeenAs (chip w : WiringMode) (slot : Nat) : Prop :=
  if is1LN1CT w = true then Plain chip slot
  else if w = wm1LL2CT then False
  else if is3P3W w = true then chip = w
  else is3P3W chip = false ∧ chip ≠ wm1LL2CT

def reportedAt (w : WiringMode) (slot : Nat) : List Nat :=
  if is1LN1CT w then [slot] else if w = wm1LL2CT then [0, 1] else [0, 1, 2]

def positions (w : WiringMode) : List Nat :=
  (List.range (reportedRange w).2).map fun k => (reportedRange w).1 + k

private theorem positions_single {w : WiringMode} (single : is1LN1CT w = true) :
    positions w = [w - wm1LN1CT_L1] := by
  unfold positions reportedRange
  rw [if_pos single]
  rfl

private theorem positions_whole {w : WiringMode} (whole : is1LN1CT w = false) (slot : Nat) :
    positions w = reportedAt w slot ∧ ∀ k ∈ positions w, k < 3 := by
  by_cases two : w = wm1LL2CT
  · subst two
    exact ⟨rfl, by decide⟩
  · have range : reportedRange w = (0, 3) := by simp [reportedRange, whole, two]
    have here : positions w = [0, 1, 2] := by
      unfold positions
      rw [range]
      rfl
    rw [here]
    exact ⟨by simp [reportedAt, whole, two], by decide⟩

private theorem avg3_eq_mean (v : Nat → F) {w : WiringMode} :
    avg3 v (reportedRange w).1 (reportedRange w).2 = mean ((positions w).map v) := by
  have positive : (reportedRange w).2 ≠ 0 := by
    unfold reportedRange
    split_ifs <;> simp
  simp [avg3, mean, positions, positive, Function.comp_def]

theorem feederRow_some {d : SmpChannel F} (f : Nat) (used : d.cbType ≠ notUsed) :
    ∃ row, feederRow f d = some row ∧
      row.volt = (positions d.cbType).map (if is3P3W d.cbType then d.Upp else d.U) ∧
      row.amp = (positions d.cbType).map d.I ∧
      row.thd = mean ((positions d.cbType).map d.THD_I) := by
  refine ⟨_, if_neg used, ?_, ?_, avg3_eq_mean d.THD_I⟩
  · simp [positions, Function.comp_def]
  · simp [positions, Function.comp_def]

theorem number_feederRow {f : Nat} {d : SmpChannel F} {row : Row F}
    (here : feederRow f d = some row) : row.number = f + 1 := by
  by_cases used : d.cbType = notUsed
  · cases (if_pos used).symm.trans here
  · cases (if_neg used).symm.trans here
    rfl

private theorem filter_feederRow (ch : Nat → SmpChannel F) (f n : Nat) :
    (feederRow n (ch n)).toList.filter (fun row => row.number = f + 1) =
      if n = f then (feederRow f (ch f)).toList else [] := by
  cases here : feederRow n (ch n) with
  | none =>
    split_ifs with same
    · rw [← same, here]
      rfl
    · rfl
  | some row =>
    have number := number_feederRow here
    split_ifs with same
    · subst same
      simp [here, number]
    · simp [number, same]

private theorem rowsOf_buildPayload (ch : Nat → SmpChannel F) {f : Nat} (top : f < maxCh) :
    (buildPayload ch).rowsOf f = (feederRow f (ch f)).toList := by
  have upTo : ∀ n, ((List.range n).filterMap fun g => feederRow g (ch g)).filter
      (fun row => row.number = f + 1) = if f < n then (feederRow f (ch f)).toList else [] := by
    intro n
    induction n with
    | zero => rfl
    | succ n ih =>
      have last : [n].filterMap (fun g => feederRow g (ch g)) = (feederRow n (ch n)).toList := by
        cases here : feederRow n (ch n) <;> simp [here]
      rw [List.range_succ, List.filterMap_append, List.filter_append, ih, last, filter_feederRow]
      rcases Nat.lt_trichotomy f n with low | same | high
      · simp [low, low.ne', Nat.lt_succ_of_lt low]
      · simp [same]
      · simp [high.ne, Nat.not_lt.mpr high.le, Nat.not_lt.mpr (Nat.succ_le_of_lt high)]
  exact (upTo maxCh).trans (if_pos top)

private theorem feederMap_entry {pt : Nat → PtDef} {f : Nat}
    (valid : (feederMap pt f).valid = true) :
    feederMap pt f = entryAt (demand pt f) (pt f).wiring := by
  rw [feederMap_apply] at valid ⊢
  split
  case isTrue => rfl
  case isFalse idle =>
    rw [if_neg idle] at valid
    cases valid

private theorem single_slot_lt {pt : Nat → PtDef} {f : Nat} (valid : (feederMap pt f).valid = true)
    (single : is1LN1CT (pt f).wiring = true) : (feederMap pt f).slot < 3 := by
  have one : (feederMap pt f).is3ph = false := by
    rw [feederMap_entry valid]
    simp [entryAt, single]
  have claimed : ((feederMap pt f).meter, (feederMap pt f).slot) ∈ pairs (feederMap pt f) := by
    simp [pairs, valid, one]
  exact (buildFeederMap_within claimed).2

section
variable [LE F] [DecidableLE F]

private theorem channel_single {s : Settings} {f : Nat} (valid : (feederMap s.pt f).valid = true)
    (single : is1LN1CT (s.pt f).wiring = true) (meters : Nat → MeterData F) :
    let e := feederMap s.pt f
    let d := (copySimpleMap s meters).2 f
    let p := (s.pt f).wiring - wm1LN1CT_L1
    d.cbType = (s.pt f).wiring ∧ d.U p = (meters e.meter).U e.slot ∧
      d.I p = (meters e.meter).I e.slot ∧ d.THD_I p = (meters e.meter).THD_I e.slot := by
  have entry := feederMap_entry valid
  have one : (feederMap s.pt f).is3ph = false := by
    rw [entry]
    simp [entryAt, single]
  have phase : (feederMap s.pt f).vphase.toNat = (s.pt f).wiring - wm1LN1CT_L1 := by
    rw [entry]
    simp only [entryAt, single, if_true]
    exact Int.toNat_sub _ _
  have three : (s.pt f).wiring - wm1LN1CT_L1 ≠ 3 := (single_phase_lt single).ne
  simp only [copySimpleMap_channel, smpChannel, valid, one, phase, if_true, Bool.false_eq_true,
    if_false, smpFill1ph, Function.update_of_ne three, placed_same, and_self]

private theorem channel_whole {s : Settings} {f : Nat} (valid : (feederMap s.pt f).valid = true)
    (whole : is1LN1CT (s.pt f).wiring = false) (meters : Nat → MeterData F) :
    let e := feederMap s.pt f
    let d := (copySimpleMap s meters).2 f
    d.cbType = (s.pt f).wiring ∧ ∀ k, k < 3 → d.U k = (meters e.meter).U k ∧
      d.Upp k = (meters e.meter).Upp k ∧ d.I k = (meters e.meter).I k ∧
      d.THD_I k = (meters e.meter).THD_I k := by
  have three : (feederMap s.pt f).is3ph = true := by
    rw [feederMap_entry valid]
    simp [entryAt, whole]
  simp only [copySimpleMap_channel, smpChannel, valid, three, if_true, smpFill3ph, copied,
    true_and]
  intro k lt
  simp [lt, lt.trans (Nat.lt_succ_self 3)]

private theorem feederRow_present {s : Settings} {f : Nat} (valid : (feederMap s.pt f).valid = true)
    (used : (s.pt f).wiring ≠ notUsed) (meters : Nat → MeterData F) :
    let e := feederMap s.pt f
    let w := (s.pt f).wiring
    ∃ row, feederRow f ((copySimpleMap s meters).2 f) = some row ∧
      row.volt = (reportedAt w e.slot).map (reportedVolt w (meters e.meter)) ∧
      row.amp = (reportedAt w e.slot).map (meters e.meter).I ∧
      row.thd = mean ((reportedAt w e.slot).map (meters e.meter).THD_I) := by
  intro e w
  cases kind : is1LN1CT w with
  | true =>
    obtain ⟨type, volt, amp, thd⟩ := channel_single valid kind meters
    obtain ⟨row, here, volts, amps, thds⟩ := feederRow_some f (type ▸ used)
    refine ⟨row, here, ?_, ?_, ?_⟩
    · rw [volts, type, positions_single kind, not_3P3W_of_single kind]
      simp [reportedAt, reportedVolt, kind, not_3P3W_of_single kind, volt, w, e]
    · rw [amps, type, positions_single kind]
      simp [reportedAt, kind, amp, w, e]
    · rw [thds, type, positions_single kind]
      simp [reportedAt, kind, thd, w, e]
  | false =>
    obtain ⟨type, values⟩ := channel_whole valid kind meters
    obtain ⟨row, here, volts, amps, thds⟩ := feederRow_some f (type ▸ used)
    obtain ⟨same, low⟩ := positions_whole kind e.slot
    refine ⟨row, here, ?_, ?_, ?_⟩
    · rw [volts, type, ← same]
      apply List.map_congr_left
      intro k member
      obtain ⟨phase, line, -, -⟩ := values k (low k member)
      unfold reportedVolt
      split
      · exact line
      · exact phase
    · rw [amps, type, ← same]
      apply List.map_congr_left
      exact fun k member => (values k (low k member)).2.2.1
    · rw [thds, type, ← same]
      congr 1
      apply List.map_congr_left
      exact fun k member => (values k (low k member)).2.2.2

private theorem feederRow_absent {s : Settings} {f : Nat}
    (out : ¬ ((feederMap s.pt f).valid = true ∧ (s.pt f).wiring ≠ notUsed))
    (meters : Nat → MeterData F) : feederRow f ((copySimpleMap s meters).2 f) = none := by
  have type : ((copySimpleMap s meters).2 f).cbType = notUsed := by
    rw [copySimpleMap_channel, smpChannel]
    split
    case isTrue valid =>
      by_contra used
      exact out ⟨valid, used⟩
    case isFalse => rfl
  exact if_pos type

end

omit [Single F] in
private theorem plain_of_single {w : WiringMode} (single : is1LN1CT w = true) (s : Nat) :
    Plain w s := by
  constructor
  · intro line
    rw [not_3P3W_of_single single] at line
    cases line
  · rintro rfl
    cases single

private theorem measure_agree {w w' : WiringMode} {k : Nat} (plain : Plain w k)
    (plain' : Plain w' k)
    (lt : k < 3) (fn : Libm F) (pickupVolt : F) (pm : MeterData F) (c : Cntl F) (fft : Nat → F) :
    (measure fn pickupVolt w pm c fft).U k = (measure fn pickupVolt w' pm c fft).U k ∧
      (measure fn pickupVolt w pm c fft).I k = (measure fn pickupVolt w' pm c fft).I k ∧
      (measure fn pickupVolt w pm c fft).THD_I k =
        (measure fn pickupVolt w' pm c fft).THD_I k := by
  simp only [measure, distribute, voltages_plain plain lt, voltages_plain plain' lt,
    currents_plain plain lt, currents_plain plain' lt, and_self]

private theorem values_of_seenAs {chip w : WiringMode} {slot : Nat} (seen : SeenAs chip w slot)
    (low : is1LN1CT w = true → slot < 3) (fn : Libm F) (pickupVolt : F) (pm : MeterData F)
    (c : Cntl F) (fft : Nat → F) :
    let m := measure fn pickupVolt chip pm c fft
    let own := measure fn pickupVolt w pm c fft
    (reportedAt w slot).map (reportedVolt w m) = (measuredAt w slot).map (reportedVolt w own) ∧
      (reportedAt w slot).map m.I = (measuredAt w slot).map own.I ∧
      (reportedAt w slot).map m.THD_I = (measuredAt w slot).map own.THD_I := by
  unfold SeenAs at seen
  cases kind : is1LN1CT w with
  | true =>
    rw [if_pos kind] at seen
    obtain ⟨volt, amp, thd⟩ := measure_agree seen (plain_of_single kind slot) (low kind) fn
      pickupVolt pm c fft
    simp [reportedAt, measuredAt, reportedVolt, kind, not_3P3W_of_single kind, volt, amp, thd]
  | false =>
    rw [if_neg (Bool.eq_false_iff.mp kind)] at seen
    split at seen
    case isTrue => exact seen.elim
    case isFalse two =>
      have places : reportedAt w slot = measuredAt w slot := by
        simp [reportedAt, measuredAt, kind, two]
      rw [places]
      split at seen
      case isTrue =>
        subst seen
        exact ⟨rfl, rfl, rfl⟩
      case isFalse other =>
        have line : is3P3W w = false := by simpa using other
        have here : measuredAt w slot = [0, 1, 2] := by simp [measuredAt, kind, two]
        have chips : ∀ k, Plain chip k :=
          fun k => ⟨fun h => by simp [seen.1] at h, fun h => absurd h seen.2⟩
        have owns : ∀ k, Plain w k :=
          fun k => ⟨fun h => by simp [line] at h, fun h => absurd h two⟩
        have agree : ∀ k, k < 3 → _ := fun k lt =>
          measure_agree (chips k) (owns k) lt fn pickupVolt pm c fft
        obtain ⟨u0, i0, t0⟩ := agree 0 (by decide)
        obtain ⟨u1, i1, t1⟩ := agree 1 (by decide)
        obtain ⟨u2, i2, t2⟩ := agree 2 (by decide)
        simp [here, reportedVolt, line, u0, u1, u2, i0, i1, i2, t0, t1, t2]

/-- Channel `k` reads `k + 1`, and every vector calculation gives 100. -/
def unitCntl : Cntl Rat where
  U := phases 1 2 3 0
  I := phases 1 2 3 0
  fU := phases 1 2 3 0
  fI := phases 1 2 3 0
  Uangle _ := 0
  Iangle _ := 0

def unitLibm : Libm Rat := ⟨fun _ => 100, fun _ => 0, fun _ _ => 0, 0⟩

def unitMeter : MeterData Rat where
  Freq := 0
  U _ := 0
  Upp _ := 0
  Uangle _ := 0
  I _ := 0
  Iangle _ := 0
  In := 0
  P _ := 0
  Q _ := 0
  S _ := 0
  PF _ := 0
  Ubal _ := 0
  Ibal _ := 0
  THD_U _ := 0
  THD_I _ := 0
  TDD_I _ := 0
  Ereg32 _ _ := 0
  hdU _ _ := 0
  hdI _ _ := 0
  I_start := 0

def unitMeasure (w : WiringMode) : MeterData Rat :=
  measure unitLibm 0 w unitMeter unitCntl fun _ => 0

omit [Single F] in
private theorem plain_of_unit {w : WiringMode} {s : Nat} (lt : s < 3)
    (same : (unitMeasure w).U s = unitCntl.U s) : Plain w s := by
  have place : s = 0 ∨ s = 1 ∨ s = 2 := by omega
  change voltages w unitCntl.U s = unitCntl.U s at same
  unfold voltages at same
  constructor
  · intro line
    rw [if_pos line] at same
    rcases place with rfl | rfl | rfl
    · rfl
    · norm_num [phasesAvg, phases, unitCntl] at same
    · norm_num [phasesAvg, phases, unitCntl] at same
  · rintro rfl rfl
    norm_num [phases, unitCntl, is3P3W, wm1LL2CT, wm3LL3CT, wm3LL2CT] at same

omit [Single F] in
private theorem unit_second (w : WiringMode) :
    (unitMeasure w).I 1 = if w = wm1LL2CT then 0 else if w = wm3LL2CT then 100 else 2 := by
  change (currents unitLibm w unitCntl unitMeter.I).1 1 = _
  unfold currents
  split_ifs with single two calculated
  · subst two
    cases single
  · subst calculated
    cases single
  · rfl
  · rfl
  · rfl
  · rfl

omit [Single F] in
private theorem unit_line {w : WiringMode} (same : (unitMeasure w).Upp 2 = 2) :
    is3P3W w = true := by
  change lineVoltages unitLibm 0 w unitCntl _ unitMeter.Upp 2 = 2 at same
  unfold lineVoltages at same
  split_ifs at same with four line two single
  · norm_num [phasesAvg, phases, calcLineVolt, unitLibm] at same
  · exact line
  · subst two
    norm_num [phases, voltages, is3P3W, wm1LL2CT, wm3LL3CT, wm3LL2CT, unitMeasure, measure,
      distribute, unitCntl] at same
  · norm_num [phases] at same
  · norm_num [unitMeter] at same

omit [Single F] in
private theorem unit_two_element (chip : WiringMode) :
    (unitMeasure chip).I 1 ≠ (unitMeasure wm1LL2CT).I 2 := by
  have third : (unitMeasure wm1LL2CT).I 2 = 3 := rfl
  rw [unit_second, third]
  split_ifs <;> norm_num

omit [Single F] in
private theorem unit_same_line {chip w : WiringMode} (line : is3P3W w = true)
    (volt : (unitMeasure chip).Upp 2 = (unitMeasure w).Upp 2)
    (amp : (unitMeasure chip).I 1 = (unitMeasure w).I 1) : chip = w := by
  have own : (unitMeasure w).Upp 2 = 2 := by
    have four : w ≠ wm3LN3CT := by
      rintro rfl
      cases line
    change lineVoltages unitLibm 0 w unitCntl (voltages w unitCntl.U) unitMeter.Upp 2 = 2
    rw [lineVoltages, if_neg four, if_pos line, voltages, if_pos line]
    rfl
  rw [unit_second, unit_second] at amp
  have kinds : chip = wm3LL3CT ∨ chip = wm3LL2CT := of_decide_eq_true (unit_line (volt.trans own))
  have kinds' : w = wm3LL3CT ∨ w = wm3LL2CT := of_decide_eq_true line
  rcases kinds with rfl | rfl <;> rcases kinds' with rfl | rfl
  · rfl
  · norm_num [wm3LL3CT, wm3LL2CT, wm1LL2CT] at amp
  · norm_num [wm3LL3CT, wm3LL2CT, wm1LL2CT] at amp
  · rfl

omit [Single F] in
private theorem seenAs_of_unit {chip w : WiringMode} {slot : Nat}
    (low : is1LN1CT w = true → slot < 3)
    (volt : (reportedAt w slot).map (reportedVolt w (unitMeasure chip)) =
      (measuredAt w slot).map (reportedVolt w (unitMeasure w)))
    (amp : (reportedAt w slot).map (unitMeasure chip).I =
      (measuredAt w slot).map (unitMeasure w).I) : SeenAs chip w slot := by
  unfold SeenAs
  cases kind : is1LN1CT w with
  | true =>
    rw [if_pos rfl]
    apply plain_of_unit (low kind)
    have own : (unitMeasure w).U slot = unitCntl.U slot :=
      voltages_plain (plain_of_single kind slot) (low kind) unitCntl.U
    rw [← own]
    simpa [reportedAt, measuredAt, reportedVolt, kind, not_3P3W_of_single kind] using volt
  | false =>
    rw [if_neg Bool.false_ne_true]
    split
    case isTrue two =>
      subst two
      apply unit_two_element chip
      simpa [reportedAt, measuredAt, kind] using (List.cons.inj (List.cons.inj amp).2).1
    case isFalse two =>
      have reported : reportedAt w slot = [0, 1, 2] := by simp [reportedAt, kind, two]
      have places : measuredAt w slot = [0, 1, 2] := by simp [measuredAt, kind, two]
      rw [reported, places] at volt amp
      simp only [List.map_cons, List.map_nil, List.cons.injEq, and_true] at volt amp
      split
      case isTrue line =>
        simp only [reportedVolt, line, if_true] at volt
        exact unit_same_line line volt.2.2 amp.2.1
      case isFalse other =>
        have line : is3P3W w = false := by simpa using other
        have own : (unitMeasure w).U 1 = unitCntl.U 1 :=
          voltages_plain ⟨fun h => by simp [line] at h, fun h => absurd h two⟩ (by decide)
            unitCntl.U
        simp only [reportedVolt, line, Bool.false_eq_true, if_false] at volt
        have plain : Plain chip 1 := plain_of_unit (by decide) (volt.2.1.trans own)
        constructor
        · cases line' : is3P3W chip with
          | false => rfl
          | true => cases plain.1 line'
        · exact fun here => plain.2 here rfl

omit [Single F] in
private theorem seenAs_of_reports {s : Settings} {f : Nat} (reports : Reports s f) (top : f < maxCh)
    (valid : (feederMap s.pt f).valid = true) (used : (s.pt f).wiring ≠ notUsed) :
    SeenAs (s.pt (feederMap s.pt f).meter).wiring (s.pt f).wiring (feederMap s.pt f).slot := by
  obtain ⟨row, here, volt, amp, -⟩ := reports.present valid used Rat unitLibm 0
    (fun _ => unitMeter) (fun _ => unitCntl) (fun _ _ => 0)
  obtain ⟨row', here', volt', amp', -⟩ := feederRow_present valid used
    (fun id => unitMeasure (s.pt id).wiring)
  rw [rowsOf_buildPayload _ top] at here
  obtain rfl : row' = row := List.singleton_inj.mp ((congrArg _ here').symm.trans here)
  exact seenAs_of_unit (single_slot_lt valid) (volt'.symm.trans volt) (amp'.symm.trans amp)

omit [Single F] in
/-- The payload reports, for every feeder and all measured values, each phase its wiring measures
once and no other, exactly if the feeder is not a two-element single-phase one and the wiring
stored under its chip's number leaves the feeder's quantities at the positions that are read. -/
theorem reports_iff (s : Settings) :
    (∀ f, f < maxCh → Reports s f) ↔
      ∀ f, f < maxCh → (feederMap s.pt f).valid = true → (s.pt f).wiring ≠ notUsed →
        SeenAs (s.pt (feederMap s.pt f).meter).wiring (s.pt f).wiring (feederMap s.pt f).slot := by
  constructor
  · intro reports f top valid used
    exact seenAs_of_reports (reports f top) top valid used
  · intro seen f top
    constructor
    · intro valid used F _ _ _ fn pickupVolt pm c fft meters e w own
      obtain ⟨row, here, volt, amp, thd⟩ := feederRow_present valid used meters
      obtain ⟨volts, amps, thds⟩ := values_of_seenAs (seen f top valid used)
        (single_slot_lt valid) fn pickupVolt (pm e.meter) (c e.meter) (fft e.meter)
      refine ⟨row, ?_, volt.trans volts, amp.trans amps, thd.trans (congrArg mean thds)⟩
      rw [rowsOf_buildPayload _ top, here]
      rfl
    · intro out F _ _ _ meters
      rw [rowsOf_buildPayload _ top, feederRow_absent out meters]
      rfl

def twoElementSettings : Settings := ⟨1, fun f => ⟨if f = 0 then wm1LL2CT else notUsed, 220⟩⟩

omit [Single F] in
/-- Its second current is reported as zero. -/
theorem two_element_not_reported : ¬ Reports twoElementSettings 0 := by
  intro reports
  have valid : (feederMap twoElementSettings.pt 0).valid = true := by decide
  have used : (twoElementSettings.pt 0).wiring ≠ notUsed := by decide
  exact seenAs_of_reports reports (by decide) valid used

end SV300.Feeder
