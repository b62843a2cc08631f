/- SV300/Demand/Average
   digest: Which demands are average powers, and when the predicted demand is the extrapolated one. -/

import Mathlib.Algebra.Order.BigOperators.Group.List
import Mathlib.Tactic.FieldSimp
import Mathlib.Tactic.Linarith
import Mathlib.Tactic.Ring
import SV300.Demand.Scan
import SV300.Library.Runs

set_option autoImplicit false
set_option relaxedAutoImplicit false

namespace SV300.Demand.Average

open SV300.Demand.Scan
open SV300.Library.Runs

def flow (i : Fin 2) (dt : Rat) : Rat := if i = 0 then max dt 0 else max (-dt) 0

/-- The energy that samples brought in one direction. -/
def energy (dt : Sample → Rat) (i : Fin 2) (xs : List Sample) : Rat :=
  (xs.map fun x => flow i (dt x)).sum

/-- The average power of samples taken a second apart. -/
def average (dt : Sample → Rat) (i : Fin 2) (xs : List Sample) : Rat :=
  energy dt i xs * 3600 / xs.length

/-- The system with the samples of the configured interval and of the quarter that are open. -/
structure Watched where
  sys : Sys
  interval : List Sample
  quarter : List Sample

/-- A sample after the first one joins both intervals; a close starts the next one. -/
def watch (w : Watched) (e : Event) : Watched :=
  match e with
  | .scan x =>
    if w.sys.cntl.energyInit then
      { sys := step w.sys e
        interval := if ClosesInterval w.sys then [] else w.interval ++ [x]
        quarter := if ClosesQuarter w.sys then [] else w.quarter ++ [x] }
    else { w with sys := step w.sys e }
  | _ => { w with sys := step w.sys e }

def booted (interval : UInt16) (file : Option (DemandData × DemandLog)) (now : UInt32)
    (ticks : Nat) : Watched :=
  ⟨boot interval file now ticks, [], []⟩

@[simp] theorem energy_nil (dt : Sample → Rat) (i : Fin 2) : energy dt i [] = 0 := rfl

@[simp] theorem energy_append (dt : Sample → Rat) (i : Fin 2) (xs : List Sample) (x : Sample) :
    energy dt i (xs ++ [x]) = energy dt i xs + flow i (dt x) := by
  simp [energy]

private theorem incEnergy_apply (diff : Rat) (acc : Fin 2 → Rat) (i : Fin 2) :
    incEnergy diff acc i = acc i + flow i diff := by
  unfold incEnergy flow
  split
  · rename_i gain
    match i with
    | 0 => simp [max_eq_left gain.le]
    | 1 => simp [max_eq_right (neg_nonpos.mpr gain.le)]
  · rename_i loss
    match i with
    | 0 => simp [max_eq_right (not_lt.mp loss)]
    | 1 => simp [max_eq_left (neg_nonneg.mpr (not_lt.mp loss))]

/-- The five intervals that can be configured. -/
def Configured (dInterval : UInt16) : Prop :=
  dInterval = 60 ∨ dInterval = 300 ∨ dInterval = 900 ∨ dInterval = 1800 ∨ dInterval = 3600

private theorem dIntervalOf_configured (interval : UInt16) : Configured (dIntervalOf interval) := by
  unfold dIntervalOf Configured
  split <;> decide

/-- What the control words say about the samples collected. -/
structure Collected (c : Cntl) (interval quarter : List Sample) : Prop where
  configured : Configured c.dInterval
  seconds : c.mInterval = UInt16.ofNat interval.length
  dmdP : ∀ i, c.dmdP i = energy Sample.dtP i interval
  dmdQ : ∀ i, c.dmdQ i = energy Sample.dtQ i interval
  dmdS : c.dmdS 0 = energy Sample.dtS 0 interval
  seconds15m : c.mInterval15m = UInt16.ofNat quarter.length
  dmdP15m : c.dmdP15m 0 = energy Sample.dtP 0 quarter

variable {s : Sys} {interval quarter : List Sample}

private theorem ofNat_succ (n : Nat) : UInt16.ofNat n + 1 = UInt16.ofNat (n + 1) := by
  rw [UInt16.ofNat_add]
  rfl

theorem collect_collected (law : Collected s.cntl interval quarter) (x : Sample) :
    Collected (collect s x).cntl (interval ++ [x]) (quarter ++ [x]) where
  configured := law.configured
  seconds := by
    rw [List.length_append, List.length_singleton, ← ofNat_succ, ← law.seconds]
    rfl
  dmdP i := by
    rw [energy_append, ← law.dmdP]
    exact incEnergy_apply _ _ _
  dmdQ i := by
    rw [energy_append, ← law.dmdQ]
    exact incEnergy_apply _ _ _
  dmdS := by
    rw [energy_append, ← law.dmdS]
    exact incEnergy_apply _ _ _
  seconds15m := by
    rw [List.length_append, List.length_singleton, ← ofNat_succ, ← law.seconds15m]
    rfl
  dmdP15m := by
    rw [energy_append, ← law.dmdP15m]
    exact incEnergy_apply _ _ _

private theorem closeInterval_collected (law : Collected s.cntl interval quarter) :
    Collected (closeInterval s).cntl (if ClosesInterval s then [] else interval) quarter := by
  unfold closeInterval
  split
  · exact ⟨law.configured, rfl, fun _ => rfl, fun _ => rfl, rfl, law.seconds15m, law.dmdP15m⟩
  · exact law

private theorem closeQuarter_collected (law : Collected s.cntl interval quarter) :
    Collected (closeQuarter s).cntl interval (if ClosesQuarter s then [] else quarter) := by
  unfold closeQuarter
  split
  · refine ⟨?_, ?_, ?_, ?_, ?_, rfl, rfl⟩
    all_goals simp only [putDemandBin_cntl]
    · exact law.configured
    · exact law.seconds
    · exact law.dmdP
    · exact law.dmdQ
    · exact law.dmdS
  · exact law

private theorem intervals_collected (law : Collected s.cntl interval quarter) (x : Sample) :
    Collected (intervals s x).cntl (if ClosesInterval s then [] else interval ++ [x])
      (if ClosesQuarter s then [] else quarter ++ [x]) := by
  have counted := closeQuarter_collected (closeInterval_collected (collect_collected law x))
  simp only [closesQuarter_closeInterval] at counted
  exact counted

private theorem Collected.command {c : Cntl} (law : Collected c interval quarter) (cmd : UInt16) :
    Collected { c with rstDemand := cmd } interval quarter :=
  ⟨law.configured, law.seconds, law.dmdP, law.dmdQ, law.dmdS, law.seconds15m, law.dmdP15m⟩

private theorem resetDemand_collected (law : Collected s.cntl interval quarter) :
    Collected (resetDemand s).cntl interval quarter :=
  ⟨law.configured, law.seconds, law.dmdP, law.dmdQ, law.dmdS, law.seconds15m, law.dmdP15m⟩

private theorem step_collected (w : Watched) (e : Event)
    (law : Collected w.sys.cntl w.interval w.quarter) :
    Collected (watch w e).sys.cntl (watch w e).interval (watch w e).quarter := by
  cases e with
  | tick => exact law
  | tickSet sec =>
    show Collected (tickSet w.sys sec).cntl w.interval w.quarter
    unfold tickSet
    split <;> exact law
  | configure interval =>
    exact { law with configured := dIntervalOf_configured interval }
  | command cmd => exact law.command cmd
  | demandIoTick written =>
    show Collected (demandIoTick w.sys written).cntl w.interval w.quarter
    unfold demandIoTick
    split <;> exact law
  | scan x =>
    by_cases started : w.sys.cntl.energyInit
    · have counted := intervals_collected law x
      simp only [watch, started, if_true, step, energyScan]
      split
      · dsimp only [storeDemandDefer]
        exact resetDemand_collected (counted.command 0)
      · split
        · dsimp only [storeDemandDefer]
          exact counted
        · exact counted
    · simp only [watch, started, step, energyScan]
      exact { law with }

private theorem tick_cntl (ticks : Nat) (s : Sys) : (tick^[ticks] s).cntl = s.cntl := by
  induction ticks generalizing s with
  | zero => rfl
  | succ n ih => exact ih (tick s)

private theorem boot_collected (interval : UInt16) (file : Option (DemandData × DemandLog))
    (now : UInt32) (ticks : Nat) : Collected (boot interval file now ticks).cntl [] [] := by
  have words := tick_cntl ticks (powerOn interval file now)
  refine ⟨?_, ?_, ?_, ?_, ?_, ?_, ?_⟩
  all_goals simp only [boot, startMetering, words]
  · exact dIntervalOf_configured interval
  all_goals intros; rfl

theorem run_collected (es : List Event) (interval : UInt16)
    (file : Option (DemandData × DemandLog)) (now : UInt32) (ticks : Nat) :
    Collected (run watch (booted interval file now ticks) es).sys.cntl
      (run watch (booted interval file now ticks) es).interval
      (run watch (booted interval file now ticks) es).quarter :=
  always_run (I := fun w : Watched => Collected w.sys.cntl w.interval w.quarter) step_collected
    (boot_collected interval file now ticks) es

/-- The demands that a scan shows are the average powers of the intervals they belong to, and a
closed interval leaves no energy to the next one. -/
structure Averages (w : Watched) (x : Sample) : Prop where
  cdP : ∀ i, (intervals w.sys x).dm.cdP i = average Sample.dtP i (w.interval ++ [x])
  cdQ : ∀ i, (intervals w.sys x).dm.cdQ i = average Sample.dtQ i (w.interval ++ [x])
  cdS : (intervals w.sys x).dm.cdS = average Sample.dtS 0 (w.interval ++ [x])
  ddP : ClosesInterval w.sys →
    ∀ i, (intervals w.sys x).dm.ddP i = average Sample.dtP i (w.interval ++ [x])
  ddQ : ClosesInterval w.sys →
    ∀ i, (intervals w.sys x).dm.ddQ i = average Sample.dtQ i (w.interval ++ [x])
  ddS : ClosesInterval w.sys →
    (intervals w.sys x).dm.ddS = average Sample.dtS 0 (w.interval ++ [x])
  cleared : ClosesInterval w.sys → (∀ i, (intervals w.sys x).cntl.dmdP i = 0) ∧
    (∀ i, (intervals w.sys x).cntl.dmdQ i = 0) ∧ (intervals w.sys x).cntl.dmdS 0 = 0
  ddP15 : ClosesQuarter w.sys →
    (intervals w.sys x).dm.ddP15 = average Sample.dtP 0 (w.quarter ++ [x])
  cleared15m : ClosesQuarter w.sys → (intervals w.sys x).cntl.dmdP15m 0 = 0

/-- The sixteen-bit second counters have not wrapped. -/
def Short (w : Watched) : Prop := w.interval.length + 1 < 65536 ∧ w.quarter.length + 1 < 65536

instance (w : Watched) : Decidable (Short w) := inferInstanceAs (Decidable (_ ∧ _))

private theorem seconds_of_short {m : UInt16} {xs : List Sample}
    (counted : m = UInt16.ofNat xs.length)
    (short : xs.length < 65536) : (m.toNat : Rat) = xs.length := by
  rw [counted, UInt16.toNat_ofNat', Nat.mod_eq_of_lt short]

private theorem interval_scale {dInterval : UInt16} (configured : Configured dInterval)
    (e m : Rat) :
    e * ((dInterval.toNat : Rat) / m) * ((60 / (dInterval.toNat / 60) : Nat) : Rat) =
      e * 3600 / m := by
  have scale : (dInterval.toNat : Rat) * ((60 / (dInterval.toNat / 60) : Nat) : Rat) = 3600 := by
    rcases configured with h | h | h | h | h <;> subst h <;> norm_num [UInt16.toNat]
  calc e * ((dInterval.toNat : Rat) / m) * ((60 / (dInterval.toNat / 60) : Nat) : Rat)
      = e * ((dInterval.toNat : Rat) * ((60 / (dInterval.toNat / 60) : Nat) : Rat)) / m := by ring
    _ = e * 3600 / m := by rw [scale]

private theorem intervals_present (s : Sys) (x : Sample) :
    (intervals s x).dm.cdP = (collect s x).dm.cdP ∧ (intervals s x).dm.cdQ = (collect s x).dm.cdQ ∧
      (intervals s x).dm.cdS = (collect s x).dm.cdS := by
  obtain ⟨ts, bins, dm⟩ := intervals_dm s x
  rw [dm]
  unfold closeInterval
  split <;> exact ⟨rfl, rfl, rfl⟩

private theorem intervals_dynamic {s : Sys} (due : ClosesInterval s) (x : Sample) :
    let closed := dynamicDemand s.sysTick1s (collect s x).cntl (collect s x).dm
    (intervals s x).dm.ddP = closed.ddP ∧ (intervals s x).dm.ddQ = closed.ddQ ∧
      (intervals s x).dm.ddS = closed.ddS := by
  obtain ⟨ts, bins, dm⟩ := intervals_dm s x
  have due' : ClosesInterval (collect s x) := due
  rw [dm, closeInterval, if_pos due']
  exact ⟨rfl, rfl, rfl⟩

private theorem present_average {c : Cntl} {interval quarter : List Sample}
    (law : Collected c interval quarter) (short : interval.length < 65536) (pdm : DemandData) :
    (∀ i, (updatePresentDemand c pdm).cdP i = average Sample.dtP i interval) ∧
      (∀ i, (updatePresentDemand c pdm).cdQ i = average Sample.dtQ i interval) ∧
      (updatePresentDemand c pdm).cdS = average Sample.dtS 0 interval := by
  have seconds := seconds_of_short law.seconds short
  have scale : ∀ e : Rat, e * (3600 / (c.mInterval.toNat : Rat)) = e * 3600 / interval.length := by
    intro e
    rw [seconds, mul_div_assoc]
  refine ⟨fun i => ?_, fun i => ?_, ?_⟩
  · exact (scale _).trans (by rw [law.dmdP, average])
  · exact (scale _).trans (by rw [law.dmdQ, average])
  · exact (scale _).trans (by rw [law.dmdS, average])

private theorem dynamic_average {c : Cntl} {interval quarter : List Sample}
    (law : Collected c interval quarter) (short : interval.length < 65536) (now : UInt32)
    (pdm : DemandData) :
    (∀ i, (dynamicDemand now c pdm).ddP i = average Sample.dtP i interval) ∧
      (∀ i, (dynamicDemand now c pdm).ddQ i = average Sample.dtQ i interval) ∧
      (dynamicDemand now c pdm).ddS = average Sample.dtS 0 interval := by
  have seconds := seconds_of_short law.seconds short
  have scale := interval_scale law.configured
  refine ⟨fun i => ?_, fun i => ?_, ?_⟩
  · exact (scale _ _).trans (by rw [law.dmdP, seconds, average])
  · exact (scale _ _).trans (by rw [law.dmdQ, seconds, average])
  · exact (scale _ _).trans (by rw [law.dmdS, seconds, average])

private theorem quarter_scale {c : Cntl} {interval quarter : List Sample}
    (law : Collected c interval quarter) (short : quarter.length < 65536) :
    c.dmdP15m 0 * 4 * 960 / (c.mInterval15m.toNat : Rat) =
      average Sample.dtP 0 quarter * (16 / 15) := by
  rw [seconds_of_short law.seconds15m short, law.dmdP15m, average]
  ring

private theorem average_eq_zero (dt : Sample → Rat) (i : Fin 2) (xs : List Sample) (x : Sample) :
    average dt i (xs ++ [x]) = 0 ↔ energy dt i (xs ++ [x]) = 0 := by
  have seconds : ((xs ++ [x]).length : Rat) ≠ 0 := by
    rw [List.length_append, List.length_singleton]
    exact_mod_cast Nat.succ_ne_zero xs.length
  rw [average, div_eq_zero_iff, mul_eq_zero]
  constructor
  · rintro ((zero | absurd') | absurd')
    · exact zero
    · norm_num at absurd'
    · exact absurd absurd' seconds
  · exact fun zero => .inl (.inl zero)

private theorem averages_iff {w : Watched} (law : Collected w.sys.cntl w.interval w.quarter)
    (short : Short w) (x : Sample) :
    Averages w x ↔ (ClosesQuarter w.sys → energy Sample.dtP 0 (w.quarter ++ [x]) = 0) := by
  have counted := collect_collected law x
  have shortInterval : (w.interval ++ [x]).length < 65536 := by
    rw [List.length_append]
    exact short.1
  have shortQuarter : (w.quarter ++ [x]).length < 65536 := by
    rw [List.length_append]
    exact short.2
  have after := intervals_collected law x
  have quarter : ClosesQuarter w.sys → (intervals w.sys x).dm.ddP15 =
      average Sample.dtP 0 (w.quarter ++ [x]) * (16 / 15) := by
    intro due
    obtain ⟨ts, bins, dm⟩ := intervals_dm w.sys x
    rw [dm, ← quarter_scale counted shortQuarter]
    exact if_pos due
  constructor
  · intro averages due
    rw [← average_eq_zero]
    have scaled := quarter due
    rw [averages.ddP15 due] at scaled
    linarith
  · intro idle
    obtain ⟨presentP, presentQ, presentS⟩ := intervals_present w.sys x
    obtain ⟨cdP, cdQ, cdS⟩ := present_average counted shortInterval
      (updatePredictDemand _ x.dtP w.sys.dm)
    refine ⟨?_, ?_, ?_, ?_, ?_, ?_, ?_, ?_, ?_⟩
    · rw [presentP]
      exact cdP
    · rw [presentQ]
      exact cdQ
    · rw [presentS]
      exact cdS
    · intro due
      rw [(intervals_dynamic due x).1]
      exact (dynamic_average counted shortInterval _ _).1
    · intro due
      rw [(intervals_dynamic due x).2.1]
      exact (dynamic_average counted shortInterval _ _).2.1
    · intro due
      rw [(intervals_dynamic due x).2.2]
      exact (dynamic_average counted shortInterval _ _).2.2
    · intro due
      rw [if_pos due] at after
      exact ⟨after.dmdP, after.dmdQ, after.dmdS⟩
    · intro due
      rw [quarter due, (average_eq_zero Sample.dtP 0 w.quarter x).mpr (idle due), zero_mul]
    · intro due
      rw [if_pos due] at after
      exact after.dmdP15m

/-- After every boot and run, the demands of the next scan are average powers exactly when it
closes no quarter that imported energy. -/
theorem demands_average_iff (interval : UInt16) (file : Option (DemandData × DemandLog))
    (now : UInt32) (ticks : Nat) (es : List Event) (x : Sample)
    (short : Short (run watch (booted interval file now ticks) es)) :
    Averages (run watch (booted interval file now ticks) es) x ↔
      (ClosesQuarter (run watch (booted interval file now ticks) es).sys →
        energy Sample.dtP 0 ((run watch (booted interval file now ticks) es).quarter ++ [x]) = 0) :=
  averages_iff (run_collected es interval file now ticks) short x

def oneKwh : Sample := ⟨1, 0, 0, fun _ => 0⟩

/-- The last seconds of a minute, and the first of the next. -/
def minuteEnds : Watched :=
  run watch (booted 0 none 956 1)
    [.scan oneKwh, .tick, .scan oneKwh, .tick, .scan oneKwh, .tick]

theorem minuteEnds_averages :
    ClosesInterval minuteEnds.sys ∧ minuteEnds.interval = [oneKwh, oneKwh] ∧
      Averages minuteEnds oneKwh :=
  ⟨by decide, rfl, (demands_average_iff 0 none 956 1 _ oneKwh (by decide)).mpr
    fun due => absurd due (by decide)⟩

/-- A quarter of two seconds with import. -/
theorem quarter_demand_not_average :
    ¬ Averages (run watch (booted 0 none 898 1) [.scan oneKwh, .scan oneKwh, .tick]) oneKwh := by
  intro averages
  have demand := averages.ddP15 (by decide)
  revert demand
  decide +kernel

end SV300.Demand.Average
