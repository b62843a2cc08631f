/- SV300/Demand/Scan
   digest: The demand registers of one channel, as the scan collects and closes them. -/

import Mathlib.Data.Rat.Defs
import Mathlib.Algebra.Order.Ring.Rat
import Mathlib.Logic.Function.Basic
import SV300.Library.Literals

set_option autoImplicit false
set_option relaxedAutoImplicit false

namespace SV300.Demand.Scan

/-- `MAX_DEMAND`. -/
structure MaxDemand where
  mdTime : UInt32
  value : Rat
  deriving DecidableEq

/-- `DEMAND`; index 0 of a pair is the import, 1 the export. -/
structure DemandData where
  mdP : Fin 2 → MaxDemand
  mdQ : Fin 2 → MaxDemand
  mdS : MaxDemand
  mdI : Fin 3 → MaxDemand
  ddTime : UInt32
  ddP : Fin 2 → Rat
  ddQ : Fin 2 → Rat
  ddS : Rat
  ddI : Fin 3 → Rat
  cdP : Fin 2 → Rat
  cdQ : Fin 2 → Rat
  cdS : Rat
  pdP : Rat
  ddP15 : Rat
  dmdLogTs : UInt32
  dpPLog : Fin 96 → Rat
  magic : UInt16

/-- `DEMAND_LOG`: the day before. -/
structure DemandLog where
  ts : UInt32
  dpPLog : Fin 96 → Rat

/-- The words of `CNTL_DATA` that the demand uses. -/
structure Cntl where
  energyInit : Bool
  dInterval : UInt16
  mInterval : UInt16
  mInterval15m : UInt16
  dmdTs : UInt32
  dmdStartTs : UInt32
  dmdEndTs : UInt32
  dmdI : Fin 3 → Rat
  dmdP : Fin 2 → Rat
  dmdQ : Fin 2 → Rat
  dmdS : Fin 2 → Rat
  dmdTs15m : UInt32
  dmdStartTs15m : UInt32
  dmdEndTs15m : UInt32
  dmdP15m : Fin 2 → Rat
  rstDemand : UInt16

/-- One channel, the clock it reads and its demand file (`none`: absent or too short). -/
structure Sys where
  sysTick1s : UInt32
  sysTick15m : UInt32
  sysTickDemand : UInt32
  interval : UInt16
  cntl : Cntl
  dm : DemandData
  dlog : DemandLog
  dmSnap : DemandData
  dlogSnap : DemandLog
  dmStorePending : Bool
  file : Option (DemandData × DemandLog)

/-- What one scan brings: the energies of the second and the phase currents. -/
structure Sample where
  dtP : Rat
  dtQ : Rat
  dtS : Rat
  current : Fin 3 → Rat

/-- The interval that `buildSettings` sets; an unknown setting means one minute. -/
def dIntervalOf (interval : UInt16) : UInt16 :=
  match interval.toNat with
  | 0 => 1 * 60
  | 1 => 5 * 60
  | 2 => 15 * 60
  | 3 => 30 * 60
  | 4 => 60 * 60
  | _ => 1 * 60

def buildSettings (s : Sys) (interval : UInt16) : Sys :=
  { s with
    interval := if 4 < interval then 0 else interval
    cntl := { s.cntl with dInterval := dIntervalOf interval } }

/-- The one-second part of `tickHandler`. -/
def tick (s : Sys) : Sys :=
  let now := s.sysTick1s + 1
  { s with
    sysTick1s := now
    sysTick15m := now / 900
    sysTickDemand :=
      if 0 < s.cntl.dInterval then now / s.cntl.dInterval.toUInt32 else s.sysTickDemand }

/-- `tickSet`: the clock is set, the demand tick is left to the next second. -/
def tickSet (s : Sys) (sec : UInt32) : Sys :=
  if sec ≠ s.sysTick1s then { s with sysTick1s := sec, sysTick15m := sec / 900 } else s

/-- `incEnergy`. -/
def incEnergy (diff : Rat) (acc : Fin 2 → Rat) : Fin 2 → Rat :=
  if 0 < diff then Function.update acc 0 (acc 0 + diff)
  else Function.update acc 1 (acc 1 + -diff)

def updatePresentDemand (c : Cntl) (pdm : DemandData) : DemandData :=
  let mult : Rat := 3600 / (c.mInterval.toNat : Rat)
  { pdm with
    cdP := fun i => c.dmdP i * mult
    cdQ := fun i => c.dmdQ i * mult
    cdS := c.dmdS 0 * mult }

/-- The divisor of `updatePredictDemand`: whole minutes collected. -/
def predictDivisor (c : Cntl) : Nat := c.mInterval.toNat / 60

/-- `updatePredictDemand`; an integer division by zero gives zero, as the processor's does. -/
def updatePredictDemand (c : Cntl) (delta : Rat) (pdm : DemandData) : DemandData :=
  let mult : Nat := 60 / predictDivisor c
  let delta := if delta < 0 then 0 else delta
  let rest : Int := (c.dInterval.toNat : Int) - c.mInterval.toNat + 1
  { pdm with pdP := (c.dmdP 0 + delta * (rest : Rat)) * (mult : Rat) }

/-- A recorded maximum after the comparison with one more demand. -/
def MaxDemand.update (md : MaxDemand) (now : UInt32) (dd : Rat) : MaxDemand :=
  if md.value < dd then ⟨now, dd⟩ else md

/-- The dynamic demands of the interval that ends now. -/
def dynamicDemand (now : UInt32) (c : Cntl) (pdm : DemandData) : DemandData :=
  let mInterval : Rat := (c.mInterval.toNat : Rat)
  let mult : Rat := ((60 / (c.dInterval.toNat / 60) : Nat) : Rat)
  let dt : Rat := (c.dInterval.toNat : Rat) / mInterval
  { pdm with
    ddTime := now
    ddI := fun i => c.dmdI i / mInterval
    ddP := fun i => c.dmdP i * dt * mult
    ddQ := fun i => c.dmdQ i * dt * mult
    ddS := c.dmdS 0 * dt * mult }

/-- The maxima after the comparisons; the second comparison of a direction repeats the first. -/
def compareMax (now : UInt32) (pdm : DemandData) : DemandData :=
  let mdP := fun i => (pdm.mdP i).update now (pdm.ddP i)
  { pdm with
    mdI := fun i => (pdm.mdI i).update now (pdm.ddI i)
    mdP := mdP
    mdQ := fun i => if (mdP i).value < pdm.ddP i then ⟨now, pdm.ddQ i⟩ else pdm.mdQ i
    mdS := pdm.mdS.update now pdm.ddS }

/-- What `updateMaxDemand` leaves in the control words. -/
def clearInterval (now : UInt32) (c : Cntl) : Cntl :=
  { c with
    dmdEndTs := now
    dmdI := fun _ => 0
    dmdP := fun _ => 0
    dmdQ := fun _ => 0
    dmdS := Function.update c.dmdS 0 0
    dmdStartTs := now }

/-- `updateMaxDemand`; its result, never zero, asks for a save. -/
def updateMaxDemand (s : Sys) : Sys :=
  { s with
    cntl := clearInterval s.sysTick1s s.cntl
    dm := compareMax s.sysTick1s (dynamicDemand s.sysTick1s s.cntl s.dm) }

def binOf (utc : UInt32) : Fin 96 :=
  ⟨utc.toNat % 86400 / 900, by omega⟩

/-- The part of `putDemandBin` for bin 0: today's bins become the day before. -/
def startDay (s : Sys) : Sys :=
  { s with
    dlog := ⟨s.dm.dmdLogTs, s.dm.dpPLog⟩
    dm := { s.dm with dpPLog := fun _ => 0 } }

/-- `putDemandBin`: bin 0 starts a new day. -/
def putDemandBin (s : Sys) (dd : Rat) (utc : UInt32) : Sys :=
  let bin := binOf utc
  let s := if bin = 0 then startDay s else s
  { s with dm := { s.dm with
    dmdLogTs := if bin = 0 ∨ s.dm.dmdLogTs = 0 then utc else s.dm.dmdLogTs
    dpPLog := Function.update s.dm.dpPLog bin dd } }

/-- `resetDemand`. -/
def resetDemand (s : Sys) : Sys :=
  let cleared : MaxDemand := ⟨s.sysTick1s, 0⟩
  { s with
    dm := { s.dm with
      mdI := fun _ => cleared
      mdP := fun _ => cleared
      mdQ := fun _ => cleared
      mdS := cleared
      ddI := fun _ => 0
      ddP := fun _ => 0
      ddQ := fun _ => 0
      ddS := 0
      dmdLogTs := 0
      dpPLog := fun _ => 0 }
    cntl := { s.cntl with dmdTs := s.sysTickDemand, dmdStartTs := s.sysTick1s }
    dlog := ⟨0, fun _ => 0⟩ }

/-- `storeDemandDefer`: the snapshot that the file task writes later. -/
def storeDemandDefer (s : Sys) : Sys :=
  { s with dmSnap := s.dm, dlogSnap := s.dlog, dmStorePending := true }

/-- The scan up to the present demand: seconds, currents, prediction, energies. -/
def collect (s : Sys) (x : Sample) : Sys :=
  let counted : Cntl := { s.cntl with
    mInterval := s.cntl.mInterval + 1
    mInterval15m := s.cntl.mInterval15m + 1
    dmdI := fun i => s.cntl.dmdI i + x.current i }
  let dm := updatePredictDemand counted x.dtP s.dm
  let cntl : Cntl := { counted with
    dmdP := incEnergy x.dtP counted.dmdP
    dmdQ := incEnergy x.dtQ counted.dmdQ
    dmdS := incEnergy x.dtS counted.dmdS
    dmdP15m := incEnergy x.dtP counted.dmdP15m }
  { s with cntl := cntl, dm := updatePresentDemand cntl dm }

/-- The configured interval is over. -/
def ClosesInterval (s : Sys) : Prop := s.cntl.dmdTs ≠ s.sysTickDemand

/-- The quarter of an hour is over. -/
def ClosesQuarter (s : Sys) : Prop := s.cntl.dmdTs15m ≠ s.sysTick15m

instance (s : Sys) : Decidable (ClosesInterval s) := inferInstanceAs (Decidable (_ ≠ _))
instance (s : Sys) : Decidable (ClosesQuarter s) := inferInstanceAs (Decidable (_ ≠ _))

/-- The end of the configured interval, when it is due. -/
def closeInterval (s : Sys) : Sys :=
  if ClosesInterval s then
    let t := updateMaxDemand s
    { t with cntl := { t.cntl with
      dmdTs := t.sysTickDemand
      dmdStartTs := t.sysTick1s
      mInterval := 0 } }
  else s

/-- The end of the quarter of an hour, when it is due. -/
def closeQuarter (s : Sys) : Sys :=
  if ClosesQuarter s then
    let ddP15 := s.cntl.dmdP15m 0 * 4 * 960 / (s.cntl.mInterval15m.toNat : Rat)
    let t := putDemandBin { s with dm := { s.dm with ddP15 := ddP15 } } ddP15
      s.cntl.dmdStartTs15m
    { t with cntl := { t.cntl with
      dmdEndTs15m := t.sysTick1s
      dmdP15m := Function.update t.cntl.dmdP15m 0 0
      dmdTs15m := t.sysTick15m
      dmdStartTs15m := t.sysTick1s
      mInterval15m := 0 } }
  else s

/-- The scan with its closed intervals, before the reset command is looked at. -/
def intervals (s : Sys) (x : Sample) : Sys := closeQuarter (closeInterval (collect s x))

def resetCommand : UInt16 := 0x1234

/-- The scan executes a reset. -/
def Resets (s : Sys) : Prop := s.cntl.energyInit = true ∧ s.cntl.rstDemand = resetCommand

instance (s : Sys) : Decidable (Resets s) := inferInstanceAs (Decidable (_ ∧ _))

/-- The demand part of `energy_scan`; the first sample after power-on is dropped. -/
def energyScan (s : Sys) (x : Sample) : Sys :=
  if s.cntl.energyInit then
    let t := intervals s x
    if s.cntl.rstDemand = resetCommand then
      storeDemandDefer (resetDemand { t with cntl := { t.cntl with rstDemand := 0 } })
    else if ClosesInterval s ∨ ClosesQuarter s then storeDemandDefer t
    else t
  else { s with cntl := { s.cntl with energyInit := true } }

/-- How the writing of the file ends. -/
inductive Written
  | whole | notOpened | cut
  deriving DecidableEq

/-- `demandIoTick` in the file task. -/
def demandIoTick (s : Sys) (written : Written) : Sys :=
  if s.dmStorePending then
    { s with
      dmStorePending := false
      file := match written with
        | .whole => some (s.dmSnap, s.dlogSnap)
        | .notOpened => s.file
        | .cut => none }
  else s

def demandMagic : UInt16 := 0x1234

def MaxDemand.zero : MaxDemand := ⟨0, 0⟩

def DemandData.zero : DemandData where
  mdP _ := .zero
  mdQ _ := .zero
  mdS := .zero
  mdI _ := .zero
  ddTime := 0
  ddP _ := 0
  ddQ _ := 0
  ddS := 0
  ddI _ := 0
  cdP _ := 0
  cdQ _ := 0
  cdS := 0
  pdP := 0
  ddP15 := 0
  dmdLogTs := 0
  dpPLog _ := 0
  magic := 0

def DemandLog.zero : DemandLog := ⟨0, fun _ => 0⟩

/-- `memset` and the sentinel, for a file that is missing or damaged. -/
def defaults : DemandData × DemandLog := ({ DemandData.zero with magic := demandMagic }, .zero)

def loaded : Option (DemandData × DemandLog) → DemandData × DemandLog
  | some r => if r.1.magic = demandMagic then r else defaults
  | none => defaults

/-- `loadDemand`. -/
def loadDemand (s : Sys) : Sys :=
  let r := loaded s.file
  { s with dm := r.1, dlog := r.2, file := some r }

def Cntl.zero : Cntl where
  energyInit := false
  dInterval := 0
  mInterval := 0
  mInterval15m := 0
  dmdTs := 0
  dmdStartTs := 0
  dmdEndTs := 0
  dmdI _ := 0
  dmdP _ := 0
  dmdQ _ := 0
  dmdS _ := 0
  dmdTs15m := 0
  dmdStartTs15m := 0
  dmdEndTs15m := 0
  dmdP15m _ := 0
  rstDemand := 0

/-- Power-on: RAM cleared, settings and records loaded, clock set from the RTC. -/
def powerOn (interval : UInt16) (file : Option (DemandData × DemandLog)) (now : UInt32) : Sys :=
  loadDemand (buildSettings
    { sysTick1s := now
      sysTick15m := now / 900
      sysTickDemand := 0
      interval := interval
      cntl := .zero
      dm := .zero
      dlog := .zero
      dmSnap := .zero
      dlogSnap := .zero
      dmStorePending := false
      file := file } interval)

/-- The beginning of `Metering_Task`. -/
def startMetering (s : Sys) : Sys :=
  { s with cntl := { s.cntl with
    dmdTs := s.sysTickDemand
    dmdTs15m := s.sysTick15m
    dmdStartTs := s.sysTick1s
    dmdStartTs15m := s.sysTick1s } }

/-- A boot; some seconds pass before the metering task runs. -/
def boot (interval : UInt16) (file : Option (DemandData × DemandLog)) (now : UInt32) (ticks : Nat) :
    Sys :=
  startMetering (tick^[ticks] (powerOn interval file now))

/-- What happens while the power is on. -/
inductive Event
  | tick
  | tickSet (sec : UInt32)
  | configure (interval : UInt16)
  | command (cmd : UInt16)
  | scan (x : Sample)
  | demandIoTick (written : Written)

def step (s : Sys) : Event → Sys
  | .tick => tick s
  | .tickSet sec => tickSet s sec
  | .configure interval => buildSettings s interval
  | .command cmd => { s with cntl := { s.cntl with rstDemand := cmd } }
  | .scan x => energyScan s x
  | .demandIoTick written => demandIoTick s written

@[simp] theorem putDemandBin_cntl (s : Sys) (dd : Rat) (utc : UInt32) :
    (putDemandBin s dd utc).cntl = s.cntl := by
  simp only [putDemandBin]
  split <;> rfl

private theorem intervals_eq (s : Sys) (x : Sample) : ∃ c dm dlog,
    intervals s x = { s with cntl := c, dm := dm, dlog := dlog } := by
  have first : ∃ c dm, closeInterval (collect s x) = { s with cntl := c, dm := dm } := by
    unfold closeInterval
    split <;> exact ⟨_, _, rfl⟩
  obtain ⟨c, dm, first⟩ := first
  rw [intervals, first]
  simp only [closeQuarter, putDemandBin]
  split
  · split <;> exact ⟨_, _, _, rfl⟩
  · exact ⟨_, _, _, rfl⟩

theorem intervals_sysTick1s (s : Sys) (x : Sample) : (intervals s x).sysTick1s = s.sysTick1s := by
  obtain ⟨c, dm, dlog, same⟩ := intervals_eq s x
  rw [same]

theorem intervals_file (s : Sys) (x : Sample) : (intervals s x).file = s.file := by
  obtain ⟨c, dm, dlog, same⟩ := intervals_eq s x
  rw [same]

theorem intervals_snap (s : Sys) (x : Sample) : (intervals s x).dmSnap = s.dmSnap := by
  obtain ⟨c, dm, dlog, same⟩ := intervals_eq s x
  rw [same]

theorem closesQuarter_closeInterval (s : Sys) :
    ClosesQuarter (closeInterval s) ↔ ClosesQuarter s := by
  unfold closeInterval
  split <;> exact Iff.rfl

private theorem closeQuarter_dm (s : Sys) : ∃ ts bins, (closeQuarter s).dm = { s.dm with
    ddP15 := if ClosesQuarter s then
      s.cntl.dmdP15m 0 * 4 * 960 / (s.cntl.mInterval15m.toNat : Rat) else s.dm.ddP15
    dmdLogTs := ts
    dpPLog := bins } := by
  by_cases due : ClosesQuarter s
  · simp only [closeQuarter, due, if_true, putDemandBin]
    split <;> exact ⟨_, _, rfl⟩
  · simp only [closeQuarter, due, if_false]
    exact ⟨_, _, rfl⟩

theorem intervals_dm (s : Sys) (x : Sample) : ∃ ts bins, (intervals s x).dm =
    { (closeInterval (collect s x)).dm with
      ddP15 := if ClosesQuarter s then (collect s x).cntl.dmdP15m 0 * 4 * 960 /
        ((collect s x).cntl.mInterval15m.toNat : Rat) else (closeInterval (collect s x)).dm.ddP15
      dmdLogTs := ts
      dpPLog := bins } := by
  have quarter := closeQuarter_dm (closeInterval (collect s x))
  have same : ∀ t : Sys, (closeInterval t).cntl.dmdP15m = t.cntl.dmdP15m ∧
      (closeInterval t).cntl.mInterval15m = t.cntl.mInterval15m := by
    intro t
    unfold closeInterval
    split <;> exact ⟨rfl, rfl⟩
  rw [(same _).1, (same _).2] at quarter
  simp only [closesQuarter_closeInterval] at quarter
  exact quarter

end SV300.Demand.Scan
