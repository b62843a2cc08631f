/- SV300/Energy/Scan
   digest: One energy_scan call: accumulation, month check, clear, edit and the throttled save. -/

import SV300.Energy.Registers

set_option autoImplicit false
set_option relaxedAutoImplicit false

namespace SV300.Energy.Scan

open SV300.Energy.Record
open SV300.Energy.Fram
open SV300.Energy.Registers

variable {F : Type}

/-- One phase of the chip's read-with-reset energy registers. -/
structure MeterEhRegs where
  wh : Int32
  varh : Int32
  vah : Int32

inductive Wiring
  | wm3LN3CT | wm3LL2CT | wm3LL3CT | wm1LN1CT_L1 | wm1LN1CT_L2 | wm1LN1CT_L3 | wm1LL2CT
  deriving DecidableEq, Repr

/-- What the scan reads besides the sample: the phases with zero current and the settings. -/
structure ScanEnv (F : Type) where
  noCurrent : Fin 3 → Bool
  wiring : Wiring
  ctDir : Fin 3 → Bool
  wscale : F

def pwrMax : Int := 20694066

def scaleEnergy [Single F] (env : ScanEnv F) (raw : Int32) : F :=
  (raw.toInt : F) * env.wscale / (pwrMax : F) / ((3600 : Int) : F)

/-- Apparent energy carries the factor of the two-element wirings. -/
def scaleApparent [Single F] (env : ScanEnv F) (raw : Int32) : F :=
  if env.wiring = .wm3LL3CT ∨ env.wiring = .wm3LL2CT then
    scaleEnergy env raw * (((1732051 : Int) : F) / ((1000000 : Int) : F)) / ((2 : Int) : F)
  else scaleEnergy env raw

/-- A phase's sample after the no-current, wiring and CT-direction corrections. -/
def correct (env : ScanEnv F) (ereg : Fin 3 → MeterEhRegs) (i : Fin 3) : MeterEhRegs :=
  let e := if env.noCurrent i then ⟨0, 0, 0⟩ else ereg i
  let e := if i = 1 ∧ (env.wiring = .wm3LL3CT ∨ env.wiring = .wm3LL2CT ∨
    env.wiring = .wm1LL2CT) then ⟨0, 0, 0⟩ else e
  if env.ctDir i then { e with wh := -e.wh, varh := -e.varh } else e

def phaseGroup : Fin 3 → Group
  | 0 => .phA
  | 1 => .phB
  | 2 => .phC

/-- The amounts of one scan in the order they are accumulated: each phase, then the totals. -/
def energyDeltas [Single F] (env : ScanEnv F) (ereg : Fin 3 → MeterEhRegs) :
    List (Mode × Group × F) :=
  let e := correct env ereg
  let phase (i : Fin 3) : List (Mode × Group × F) :=
    [(.kwh, phaseGroup i, scaleEnergy env (e i).wh),
      (.kvarh, phaseGroup i, scaleEnergy env (e i).varh),
      (.kvah, phaseGroup i, scaleApparent env (e i).vah)]
  phase 0 ++ phase 1 ++ phase 2 ++
    [(.kwh, .total, scaleEnergy env ((e 0).wh + (e 1).wh + (e 2).wh)),
      (.kvarh, .total, scaleEnergy env ((e 0).varh + (e 1).varh + (e 2).varh)),
      (.kvah, .total, scaleApparent env ((e 0).vah + (e 1).vah + (e 2).vah))]

/-! Each step of a scan takes and returns `ewF`, the sum of change flags, with the state. -/

/-- Accumulate a list of amounts, adding up the flags. -/
def updateEhAll [Single F] (id : Channel) (deltas : List (Mode × Group × F)) (s : Nat × Sys F) :
    Nat × Sys F :=
  deltas.foldl (fun s d =>
    let r := updateEhGrp s.2 id d.1 d.2.1 d.2.2
    (s.1 + r.1, r.2)) s

def rolloverFlag : Nat := 1 <<< 3

/-- The run-time month check; it also shows the finished month as the last one. -/
def checkMonth (s : Nat × Sys F) : Nat × Sys F :=
  if MonthChanged s.2 then
    let t := rollover s.2
    (s.1 + rolloverFlag, { t with meter := fun id => { t.meter id with
      ereg32 := Function.update (t.meter id).ereg32 .lastMonth (t.egyNvr.ereg32Last id) } })
  else s

def clearCommand : UInt16 := 0x1234
def editCommand : UInt16 := 0x5678

def clearEnergy [Single F] (id : Channel) (s : Nat × Sys F) : Nat × Sys F :=
  if (s.2.meter id).rstEgy = clearCommand then
    let t := { s.2 with egyNvr := { s.2.egyNvr with
      ereg64 := Function.update s.2.egyNvr.ereg64 id fun _ => 0
      monthWh := Function.update s.2.egyNvr.monthWh id fun _ => 0
      ereg32Last := Function.update s.2.egyNvr.ereg32Last id fun _ => 0 } }
    (s.1 + rolloverFlag, t.setMeter id fun m => { m with
      ereg32 := fun _ _ => 0
      ereg64 := fun _ => 0
      ereg := fun _ => 0
      rstEgy := 0 })
  else s

/-- The edit command of one channel; it changes RAM only and raises no flag. -/
def editEnergy [Single F] (id : Channel) (s : Nat × Sys F) : Nat × Sys F :=
  if (s.2.meter id).rstEgy = editCommand then
    (s.1, applyEregEdit (s.2.setMeter id fun m => { m with rstEgy := 0 }) id)
  else s

def egySaveSec : UInt32 := 300

/-- The save of a dirty record is due: a rollover or clear was flagged, or five minutes passed. -/
def SaveDue (ewF : Nat) (s : Sys F) : Prop :=
  ewF &&& rolloverFlag ≠ 0 ∨ egySaveSec ≤ s.sysTick1s - s.egyLastSave

instance (ewF : Nat) (s : Sys F) : Decidable (SaveDue ewF s) := inferInstanceAs (Decidable (_ ∨ _))

/-- A scan that changed anything marks the record dirty. -/
def markDirty (ewF : Nat) (s : Sys F) : Sys F :=
  { s with egyDirty := if ewF ≠ 0 then true else s.egyDirty }

def saveNow (s : Sys F) : Sys F :=
  { storeEnergy (channels.foldl copyEreg32 s) with
    egyDirty := false
    egyLastSave := s.sysTick1s }

/-- The scan's save takes place. -/
def Saves (s : Nat × Sys F) : Prop := (markDirty s.1 s.2).egyDirty = true ∧ SaveDue s.1 s.2

instance (s : Nat × Sys F) : Decidable (Saves s) := inferInstanceAs (Decidable (_ ∧ _))

/-- The throttled save; the save lock is never taken. -/
def saveThrottled (s : Nat × Sys F) : Sys F :=
  if Saves s then saveNow (markDirty s.1 s.2) else markDirty s.1 s.2

def scanSteps [Single F] (s : Sys F) (id : Channel) (env : ScanEnv F)
    (ereg : Fin 3 → MeterEhRegs) : Nat × Sys F :=
  editEnergy id (clearEnergy id (checkMonth (updateEhAll id (energyDeltas env ereg) (0, s))))

def scanBody [Single F] (s : Sys F) (id : Channel) (env : ScanEnv F) (ereg : Fin 3 → MeterEhRegs) :
    Sys F :=
  saveThrottled (scanSteps s id env ereg)

/-- `energy_scan`: the first sample after power-on is garbage and is dropped. -/
def energyScan [Single F] (s : Sys F) (id : Channel) (env : ScanEnv F)
    (ereg : Fin 3 → MeterEhRegs) : Sys F :=
  if (s.meter id).energyInit then scanBody s id env ereg
  else s.setMeter id fun m => { m with energyInit := true }

/-- What no step before the save changes: the clock, the FRAM, the save throttle, the record's
magic, timestamp and CRC, and the channels' first-sample flags. -/
structure Frame (s t : Sys F) : Prop where
  sysTick1s : t.sysTick1s = s.sysTick1s
  fram : t.fram = s.fram
  egyDirty : t.egyDirty = s.egyDirty
  egyLastSave : t.egyLastSave = s.egyLastSave
  magic : t.egyNvr.magic = s.egyNvr.magic
  ts : t.egyNvr.ts = s.egyNvr.ts
  crc : t.egyNvr.crc = s.egyNvr.crc
  energyInit : ∀ j, (t.meter j).energyInit = (s.meter j).energyInit

theorem Frame.refl (s : Sys F) : Frame s s := ⟨rfl, rfl, rfl, rfl, rfl, rfl, rfl, fun _ => rfl⟩

theorem Frame.trans {s t u : Sys F} (h : Frame s t) (k : Frame t u) : Frame s u where
  sysTick1s := k.sysTick1s.trans h.sysTick1s
  fram := k.fram.trans h.fram
  egyDirty := k.egyDirty.trans h.egyDirty
  egyLastSave := k.egyLastSave.trans h.egyLastSave
  magic := k.magic.trans h.magic
  ts := k.ts.trans h.ts
  crc := k.crc.trans h.crc
  energyInit j := (k.energyInit j).trans (h.energyInit j)

private theorem frame_setMeter {s t : Sys F} {id : Channel} {f : Meter F → Meter F}
    (h : Frame s t) (keeps : ∀ m, (f m).energyInit = m.energyInit) :
    Frame s (t.setMeter id f) where
  sysTick1s := h.sysTick1s
  fram := h.fram
  egyDirty := h.egyDirty
  egyLastSave := h.egyLastSave
  magic := h.magic
  ts := h.ts
  crc := h.crc
  energyInit j := by
    rw [setMeter_meter]
    split
    · rename_i same
      rw [keeps, ← same, h.energyInit]
    · exact h.energyInit j

/-- What accumulation leaves alone besides: the display, the commands and the last month. -/
structure Accrued (s t : Sys F) : Prop extends Frame s t where
  ereg32 : ∀ j, (t.meter j).ereg32 = (s.meter j).ereg32
  rstEgy : ∀ j, (t.meter j).rstEgy = (s.meter j).rstEgy
  ereg32Last : t.egyNvr.ereg32Last = s.egyNvr.ereg32Last

theorem Accrued.refl (s : Sys F) : Accrued s s := ⟨.refl s, fun _ => rfl, fun _ => rfl, rfl⟩

theorem Accrued.trans {s t u : Sys F} (h : Accrued s t) (k : Accrued t u) : Accrued s u where
  toFrame := h.toFrame.trans k.toFrame
  ereg32 j := (k.ereg32 j).trans (h.ereg32 j)
  rstEgy j := (k.rstEgy j).trans (h.rstEgy j)
  ereg32Last := k.ereg32Last.trans h.ereg32Last

private theorem accrued_setMeter {s t : Sys F} {id : Channel} {f : Meter F → Meter F}
    (h : Accrued s t) (init : ∀ m, (f m).energyInit = m.energyInit)
    (shown : ∀ m, (f m).ereg32 = m.ereg32) (command : ∀ m, (f m).rstEgy = m.rstEgy) :
    Accrued s (t.setMeter id f) where
  toFrame := frame_setMeter h.toFrame init
  ereg32 j := by
    rw [setMeter_meter]
    split
    · rename_i same
      rw [shown, ← same, h.ereg32]
    · exact h.ereg32 j
  rstEgy j := by
    rw [setMeter_meter]
    split
    · rename_i same
      rw [command, ← same, h.rstEgy]
    · exact h.rstEgy j
  ereg32Last := h.ereg32Last

private theorem setCounters_accrued (s : Sys F) (id : Channel) (c : Cell) (cell : UInt64)
    (month : UInt32) (rest : F) : Accrued s (setCounters s id c cell month rest) := by
  dsimp only [setCounters]
  refine accrued_setMeter ?_ ?_ ?_ ?_
  · exact ⟨⟨rfl, rfl, rfl, rfl, rfl, rfl, rfl, fun _ => rfl⟩, fun _ => rfl, fun _ => rfl, rfl⟩
  all_goals exact fun _ => rfl

theorem accumulate_accrued [Single F] (s : Sys F) (id : Channel) (c : Cell) (diff : F) :
    Accrued s (accumulate s id c diff).2 := by
  dsimp only [accumulate]
  split
  · dsimp only
    refine accrued_setMeter (.refl s) ?_ ?_ ?_
    all_goals exact fun _ => rfl
  · exact setCounters_accrued s id c _ _ _

/-- The rule for a list of amounts: what every single accumulation keeps, they all keep. -/
theorem updateEhAll_induct [Single F] {P : Sys F → Sys F → Prop} (refl : ∀ s, P s s)
    (trans : ∀ {s t u}, P s t → P t u → P s u) (id : Channel)
    (one : ∀ s c diff, P s (accumulate s id c diff).2)
    (deltas : List (Mode × Group × F)) (s : Nat × Sys F) : P s.2 (updateEhAll id deltas s).2 := by
  have group : ∀ s mode group diff, P s (updateEhGrp s id mode group diff).2 := by
    intro s mode group diff
    unfold updateEhGrp
    split
    · exact one s _ diff
    split
    · exact one s _ (-diff)
    · exact refl s
  induction deltas generalizing s with
  | nil => exact refl s.2
  | cons d deltas ih =>
      exact trans (group s.2 d.1 d.2.1 d.2.2) (ih (s.1 + (updateEhGrp s.2 id d.1 d.2.1 d.2.2).1,
        (updateEhGrp s.2 id d.1 d.2.1 d.2.2).2))

theorem updateEhAll_accrued [Single F] (id : Channel) (deltas : List (Mode × Group × F))
    (s : Nat × Sys F) : Accrued s.2 (updateEhAll id deltas s).2 :=
  updateEhAll_induct .refl .trans id (fun s c diff => accumulate_accrued s id c diff) deltas s

private theorem checkMonth_frame (s : Nat × Sys F) : Frame s.2 (checkMonth s).2 := by
  unfold checkMonth
  split
  · exact ⟨rfl, rfl, rfl, rfl, rfl, rfl, rfl, fun _ => rfl⟩
  · exact .refl s.2

private theorem applyEregEdit_frame [Single F] (s : Sys F) (id : Channel) :
    Frame s (applyEregEdit s id) := by
  dsimp only [applyEregEdit]
  refine frame_setMeter ?_ ?_
  · exact ⟨rfl, rfl, rfl, rfl, rfl, rfl, rfl, fun _ => rfl⟩
  · exact fun _ => rfl

private theorem clearEnergy_frame [Single F] (id : Channel) (s : Nat × Sys F) :
    Frame s.2 (clearEnergy id s).2 := by
  dsimp only [clearEnergy]
  split
  · dsimp only
    refine frame_setMeter ?_ ?_
    · exact ⟨rfl, rfl, rfl, rfl, rfl, rfl, rfl, fun _ => rfl⟩
    · exact fun _ => rfl
  · exact .refl s.2

private theorem editEnergy_frame [Single F] (id : Channel) (s : Nat × Sys F) :
    Frame s.2 (editEnergy id s).2 := by
  unfold editEnergy
  split
  · have cleared : Frame s.2 (s.2.setMeter id fun m => { m with rstEgy := 0 }) :=
      frame_setMeter (.refl s.2) fun _ => rfl
    exact cleared.trans (applyEregEdit_frame _ id)
  · exact .refl s.2

theorem scanSteps_frame [Single F] (s : Sys F) (id : Channel) (env : ScanEnv F)
    (ereg : Fin 3 → MeterEhRegs) : Frame s (scanSteps s id env ereg).2 :=
  (((updateEhAll_accrued id _ (0, s)).toFrame.trans (checkMonth_frame _)).trans
    (clearEnergy_frame id _)).trans (editEnergy_frame id _)

section MarkDirty

variable (ewF : Nat) (s : Sys F)

@[simp] theorem markDirty_fram : (markDirty ewF s).fram = s.fram := rfl
@[simp] theorem markDirty_egyNvr : (markDirty ewF s).egyNvr = s.egyNvr := rfl
@[simp] theorem markDirty_meter : (markDirty ewF s).meter = s.meter := rfl
@[simp] theorem markDirty_sysTick1s : (markDirty ewF s).sysTick1s = s.sysTick1s := rfl
@[simp] theorem markDirty_egyLastSave : (markDirty ewF s).egyLastSave = s.egyLastSave := rfl

end MarkDirty

@[simp] theorem saveNow_egyNvr (s : Sys F) :
    (saveNow s).egyNvr = stamp s.sysTick1s s.egyNvr := by
  rw [saveNow, refresh_all]
  rfl

theorem saveNow_fram (s : Sys F) :
    (saveNow s).fram = s.fram.write (storeEnergyNVR (saveNow s).egyNvr) := by
  rw [saveNow_egyNvr, saveNow, refresh_all]
  rfl

theorem saveNow_meter (s : Sys F) (id : Channel) :
    (saveNow s).meter id = { s.meter id with ereg32 := displayed s.egyNvr id } := by
  rw [saveNow, refresh_all]
  rfl

theorem scanBody_saved [Single F] {s : Sys F} {id : Channel} {env : ScanEnv F}
    {ereg : Fin 3 → MeterEhRegs} (saves : Saves (scanSteps s id env ereg)) :
    (scanBody s id env ereg).fram =
        s.fram.write (storeEnergyNVR (scanBody s id env ereg).egyNvr) ∧
      (scanBody s id env ereg).egyNvr = stamp s.sysTick1s (scanSteps s id env ereg).2.egyNvr := by
  have frame := scanSteps_frame s id env ereg
  rw [scanBody, saveThrottled, if_pos saves]
  refine ⟨?_, ?_⟩
  · rw [saveNow_fram, markDirty_fram, frame.fram]
  · rw [saveNow_egyNvr, markDirty_egyNvr, markDirty_sysTick1s, frame.sysTick1s]

theorem scanBody_unsaved [Single F] {s : Sys F} {id : Channel} {env : ScanEnv F}
    {ereg : Fin 3 → MeterEhRegs} (unsaved : ¬ Saves (scanSteps s id env ereg)) :
    (scanBody s id env ereg).fram = s.fram ∧
      (scanBody s id env ereg).egyNvr = (scanSteps s id env ereg).2.egyNvr := by
  have frame := scanSteps_frame s id env ereg
  rw [scanBody, saveThrottled, if_neg unsaved]
  exact ⟨by rw [markDirty_fram, frame.fram], by rw [markDirty_egyNvr]⟩

private theorem scanBody_energyInit [Single F] (s : Sys F) (id : Channel) (env : ScanEnv F)
    (ereg : Fin 3 → MeterEhRegs) (j : Channel) :
    ((scanBody s id env ereg).meter j).energyInit = (s.meter j).energyInit := by
  have frame := scanSteps_frame s id env ereg
  rw [scanBody, saveThrottled]
  split
  · rw [saveNow_meter, markDirty_meter, frame.energyInit]
  · rw [markDirty_meter, frame.energyInit]

theorem updateEhAll_zero [Single F] (id : Channel) {deltas : List (Mode × Group × F)}
    (zero : ∀ d ∈ deltas, ¬ 0 < d.2.2 ∧ ¬ d.2.2 < 0) (s : Nat × Sys F) :
    updateEhAll id deltas s = s := by
  induction deltas with
  | nil => rfl
  | cons d deltas ih =>
      obtain ⟨pos, neg⟩ := zero d List.mem_cons_self
      have here : updateEhGrp s.2 id d.1 d.2.1 d.2.2 = (0, s.2) := by
        rw [updateEhGrp, if_neg pos, if_neg neg]
      rw [updateEhAll, List.foldl_cons, here]
      exact ih fun x mem => zero x (List.mem_cons_of_mem d mem)

/-- A scan of a star-connected meter that measured nothing. -/
def quiet : ScanEnv Rat := ⟨fun _ => false, .wm3LN3CT, fun _ => false, 1⟩

def noEnergy : Fin 3 → MeterEhRegs := fun _ => ⟨0, 0, 0⟩

theorem no_deltas : ∀ d ∈ energyDeltas quiet noEnergy, ¬ 0 < d.2.2 ∧ ¬ d.2.2 < 0 := by
  decide +kernel

/-- After a scan its own channel has had a first sample; the other channels are as they were. -/
theorem energyScan_energyInit [Single F] (s : Sys F) (id : Channel) (env : ScanEnv F)
    (ereg : Fin 3 → MeterEhRegs) (j : Channel) :
    ((energyScan s id env ereg).meter j).energyInit =
      if j = id then true else (s.meter j).energyInit := by
  unfold energyScan
  split
  · rename_i started
    rw [scanBody_energyInit]
    split
    · rename_i same
      rw [same, started]
    · rfl
  · rw [setMeter_meter]
    split <;> rfl

end SV300.Energy.Scan
