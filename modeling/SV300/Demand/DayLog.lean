/- SV300/Demand/DayLog
   digest: The day's 96 demand bins over gaps, resets and reboots. -/

import SV300.Demand.Scan
import SV300.Library.Runs

set_option autoImplicit false
set_option relaxedAutoImplicit false

namespace SV300.Demand.DayLog

open SV300.Demand.Scan
open SV300.Library.Runs

def day (utc : UInt32) : Nat := utc.toNat / 86400

/-- Today's bins with their time stamp, and the day before. -/
structure Bins where
  ts : UInt32
  bins : Fin 96 → Rat
  last : DemandLog

def dayLog (s : Sys) : Bins := ⟨s.dm.dmdLogTs, s.dm.dpPLog, s.dlog⟩

/-- Nothing was logged since the log was created or reset. -/
def Blank (l : Bins) : Prop :=
  l.ts = 0 ∧ (∀ k, l.bins k = 0) ∧ l.last.ts = 0 ∧ ∀ k, l.last.dpPLog k = 0

instance (l : Bins) : Decidable (Blank l) := inferInstanceAs (Decidable (_ ∧ _))

/-- The log as it should be kept: the date decides whether the finished day is put away. -/
def recordDay (l : Bins) (dd : Rat) (utc : UInt32) : Bins :=
  if Blank l ∨ day utc = day l.ts then
    { l with
      ts := if l.ts = 0 then utc else l.ts
      bins := Function.update l.bins (binOf utc) dd }
  else ⟨utc, Function.update (fun _ => 0) (binOf utc) dd, ⟨l.ts, l.bins⟩⟩

/-- Bin 0 comes exactly with the first value of a new day. -/
def Fits (l : Bins) (utc : UInt32) : Prop := Blank l ∨ (binOf utc = 0 ↔ day utc ≠ day l.ts)

instance (l : Bins) (utc : UInt32) : Decidable (Fits l utc) := inferInstanceAs (Decidable (_ ∨ _))

/-- Every bin that holds something holds it for its own time of the log's day. -/
def SameDay (ts : UInt32) (bins : Fin 96 → Rat) (origin : Fin 96 → UInt32) : Prop :=
  ∀ k, bins k ≠ 0 → day (origin k) = day ts ∧ binOf (origin k) = k

instance (ts : UInt32) (bins : Fin 96 → Rat) (origin : Fin 96 → UInt32) :
    Decidable (SameDay ts bins origin) :=
  inferInstanceAs (Decidable (∀ _, _))

private theorem sameDay_empty (ts : UInt32) (origin : Fin 96 → UInt32) :
    SameDay ts (fun _ => 0) origin :=
  fun _ filled => absurd rfl filled

private theorem SameDay.set {ts : UInt32} {bins : Fin 96 → Rat} {origin : Fin 96 → UInt32}
    (law : SameDay ts bins origin) {utc : UInt32} (same : day utc = day ts) (dd : Rat) :
    SameDay ts (Function.update bins (binOf utc) dd) (Function.update origin (binOf utc) utc) := by
  intro k filled
  by_cases here : k = binOf utc
  · subst here
    simpa using same
  · simp only [Function.update_of_ne here] at filled ⊢
    exact law k filled

private theorem recordDay_sameDay {l : Bins} {origin : Fin 96 → UInt32}
    (law : SameDay l.ts l.bins origin) (dd : Rat) (utc : UInt32) :
    SameDay (recordDay l dd utc).ts (recordDay l dd utc).bins
      (Function.update origin (binOf utc) utc) := by
  unfold recordDay
  split
  · rename_i today
    show SameDay (if l.ts = 0 then utc else l.ts) _ _
    rcases today with ⟨unset, empty, -, -⟩ | same
    · rw [if_pos unset, show l.bins = fun _ => 0 from funext empty]
      exact (sameDay_empty utc origin).set rfl dd
    · split
      · rename_i unset
        -- A log stamped zero is of the first day, and so is the new value.
        have first : SameDay utc l.bins origin := fun k filled => same ▸ law k filled
        exact first.set rfl dd
      · exact law.set same dd
  · exact (sameDay_empty utc origin).set rfl dd

private theorem putDemandBin_of_fits {s : Sys} {utc : UInt32} (fits : Fits (dayLog s) utc)
    (dd : Rat) :
    dayLog (putDemandBin s dd utc) = recordDay (dayLog s) dd utc := by
  by_cases first : binOf utc = 0
  · have code : dayLog (putDemandBin s dd utc) =
        ⟨utc, Function.update (fun _ => 0) (binOf utc) dd, ⟨s.dm.dmdLogTs, s.dm.dpPLog⟩⟩ := by
      simp only [putDemandBin, first, if_true, true_or, startDay, dayLog]
    rw [code, recordDay]
    by_cases blank : Blank (dayLog s)
    · obtain ⟨unset, empty, lastTs, lastEmpty⟩ := blank
      have bins : (dayLog s).bins = fun _ => 0 := funext empty
      have last : (dayLog s).last = ⟨s.dm.dmdLogTs, s.dm.dpPLog⟩ := by
        have stamp : s.dm.dmdLogTs = (dayLog s).last.ts := unset.trans lastTs.symm
        have logged : s.dm.dpPLog = (dayLog s).last.dpPLog := bins.trans (funext lastEmpty).symm
        rw [stamp, logged]
      rw [if_pos (.inl ⟨unset, empty, lastTs, lastEmpty⟩), if_pos unset, bins, last]
    · have changed := (fits.resolve_left blank).mp first
      rw [if_neg (not_or.mpr ⟨blank, changed⟩)]
      rfl
  · have code : dayLog (putDemandBin s dd utc) = { dayLog s with
        ts := if s.dm.dmdLogTs = 0 then utc else s.dm.dmdLogTs
        bins := Function.update s.dm.dpPLog (binOf utc) dd } := by
      simp only [putDemandBin, first, if_false, false_or, dayLog]
    have today : Blank (dayLog s) ∨ day utc = day (dayLog s).ts := by
      rcases fits with blank | rule
      · exact .inl blank
      · exact .inr (not_not.mp fun changed => first (rule.mpr changed))
    rw [code, recordDay, if_pos today]
    rfl

/-- The system with the times its bins, the snapshot's and the file's were measured at. -/
structure Filed where
  sys : Sys
  origin : Fin 96 → UInt32
  snapOrigin : Fin 96 → UInt32
  fileOrigin : Fin 96 → UInt32

inductive Life
  | event (e : Event)
  | reboot (now : UInt32) (ticks : Nat)

/-- A scan puts a value into a bin. -/
def Puts (s : Sys) : Prop := s.cntl.energyInit = true ∧ ClosesQuarter s

/-- A scan leaves a snapshot for the file. -/
def Stores (s : Sys) : Prop :=
  s.cntl.energyInit = true ∧
    (s.cntl.rstDemand = resetCommand ∨ ClosesInterval s ∨ ClosesQuarter s)

instance (s : Sys) : Decidable (Puts s) := inferInstanceAs (Decidable (_ ∧ _))
instance (s : Sys) : Decidable (Stores s) := inferInstanceAs (Decidable (_ ∧ _))

def putOrigin (f : Filed) : Fin 96 → UInt32 :=
  if Puts f.sys then
    Function.update f.origin (binOf f.sys.cntl.dmdStartTs15m) f.sys.cntl.dmdStartTs15m
  else f.origin

def live (f : Filed) : Life → Filed
  | .event (.scan x) =>
    { f with
      sys := energyScan f.sys x
      origin := putOrigin f
      snapOrigin := if Stores f.sys then putOrigin f else f.snapOrigin }
  | .event (.demandIoTick written) =>
    { f with
      sys := demandIoTick f.sys written
      fileOrigin :=
        if f.sys.dmStorePending ∧ written = .whole then f.snapOrigin else f.fileOrigin }
  | .event e => { f with sys := step f.sys e }
  | .reboot now ticks =>
    { f with
      sys := boot f.sys.interval f.sys.file now ticks
      origin := f.fileOrigin }

def factory (interval : UInt16) (now : UInt32) (ticks : Nat) : Filed :=
  ⟨boot interval none now ticks, fun _ => 0, fun _ => 0, fun _ => 0⟩

/-- Bins of RAM, snapshot and file: none mixes days. -/
structure Unmixed (f : Filed) : Prop where
  ram : SameDay f.sys.dm.dmdLogTs f.sys.dm.dpPLog f.origin
  snap : SameDay f.sys.dmSnap.dmdLogTs f.sys.dmSnap.dpPLog f.snapOrigin
  file : SameDay (loaded f.sys.file).1.dmdLogTs (loaded f.sys.file).1.dpPLog f.fileOrigin

/-- The scan's value falls into the bin that its date calls for. -/
def Proper (f : Filed) : Life → Prop
  | .event (.scan _) => Puts f.sys → Fits (dayLog f.sys) f.sys.cntl.dmdStartTs15m
  | _ => True

/-- The scan keeps the log by dates: a finished day is put away whole, with its time stamp. -/
def Moves (f : Filed) : Life → Prop
  | .event (.scan x) => Puts f.sys → dayLog (intervals f.sys x) =
      recordDay (dayLog f.sys) (intervals f.sys x).dm.ddP15 f.sys.cntl.dmdStartTs15m
  | _ => True

instance (f : Filed) : (e : Life) → Decidable (Proper f e)
  | .event (.scan _) => inferInstanceAs (Decidable (_ → _))
  | .event .tick => .isTrue trivial
  | .event (.tickSet _) => .isTrue trivial
  | .event (.configure _) => .isTrue trivial
  | .event (.command _) => .isTrue trivial
  | .event (.demandIoTick _) => .isTrue trivial
  | .reboot _ _ => .isTrue trivial

private theorem dayLog_closeInterval (s : Sys) (x : Sample) :
    dayLog (closeInterval (collect s x)) = dayLog s := by
  unfold closeInterval
  split <;> rfl

private theorem dayLog_closeQuarter {s : Sys} (due : ClosesQuarter s)
    (fits : Fits (dayLog s) s.cntl.dmdStartTs15m) : dayLog (closeQuarter s) =
      recordDay (dayLog s) (closeQuarter s).dm.ddP15 s.cntl.dmdStartTs15m := by
  let demand := s.cntl.dmdP15m 0 * 4 * 960 / (s.cntl.mInterval15m.toNat : Rat)
  let valued : Sys := { s with dm := { s.dm with ddP15 := demand } }
  have put : dayLog (putDemandBin valued demand s.cntl.dmdStartTs15m) =
      recordDay (dayLog s) demand s.cntl.dmdStartTs15m :=
    putDemandBin_of_fits (s := valued) fits demand
  have kept : (putDemandBin valued demand s.cntl.dmdStartTs15m).dm.ddP15 = demand := by
    simp only [putDemandBin]
    split <;> rfl
  rw [closeQuarter, if_pos due]
  show dayLog (putDemandBin valued demand s.cntl.dmdStartTs15m) = recordDay (dayLog s)
    (putDemandBin valued demand s.cntl.dmdStartTs15m).dm.ddP15 s.cntl.dmdStartTs15m
  rw [put, kept]

private theorem dayLog_intervals {s : Sys} (x : Sample)
    (fits : ClosesQuarter s → Fits (dayLog s) s.cntl.dmdStartTs15m) :
    dayLog (intervals s x) = if ClosesQuarter s then
      recordDay (dayLog s) (intervals s x).dm.ddP15 s.cntl.dmdStartTs15m else dayLog s := by
  have same := dayLog_closeInterval s x
  have start : (closeInterval (collect s x)).cntl.dmdStartTs15m = s.cntl.dmdStartTs15m := by
    unfold closeInterval
    split <;> rfl
  have due_iff : ClosesQuarter (closeInterval (collect s x)) ↔ ClosesQuarter s :=
    closesQuarter_closeInterval (collect s x)
  split
  · rename_i due
    have moved := dayLog_closeQuarter (due_iff.mpr due) (by rw [same, start]; exact fits due)
    rw [same, start] at moved
    exact moved
  · rename_i open_
    rw [intervals, closeQuarter, if_neg (mt due_iff.mp open_)]
    exact same

private theorem sameDay_intervals {f : Filed} (law : Unmixed f) (x : Sample)
    (started : f.sys.cntl.energyInit = true) (proper : Proper f (.event (.scan x))) :
    SameDay (intervals f.sys x).dm.dmdLogTs (intervals f.sys x).dm.dpPLog (putOrigin f) := by
  have log := dayLog_intervals x fun due => proper ⟨started, due⟩
  have parts : SameDay (dayLog (intervals f.sys x)).ts (dayLog (intervals f.sys x)).bins
      (putOrigin f) := by
    rw [log, putOrigin]
    by_cases due : ClosesQuarter f.sys
    · rw [if_pos due, if_pos ⟨started, due⟩]
      exact recordDay_sameDay law.ram _ _
    · rw [if_neg due, if_neg fun puts => due puts.2]
      exact law.ram
  exact parts

private theorem unmixed_scan {f : Filed} (law : Unmixed f) (x : Sample)
    (proper : Proper f (.event (.scan x))) : Unmixed (live f (.event (.scan x))) := by
  by_cases started : f.sys.cntl.energyInit = true
  · have bins := sameDay_intervals law x started proper
    by_cases resets : f.sys.cntl.rstDemand = resetCommand
    · have stores : Stores f.sys := ⟨started, .inl resets⟩
      simp only [live, energyScan, started, resets, stores, if_true]
      refine ⟨sameDay_empty _ _, sameDay_empty _ _, ?_⟩
      dsimp only
      rw [intervals_file]
      exact law.file
    · by_cases closes : ClosesInterval f.sys ∨ ClosesQuarter f.sys
      · have stores : Stores f.sys := ⟨started, .inr closes⟩
        simp only [live, energyScan, started, resets, closes, stores, if_true, if_false]
        refine ⟨bins, bins, ?_⟩
        dsimp only [storeDemandDefer]
        rw [intervals_file]
        exact law.file
      · have stores : ¬ Stores f.sys := fun stores => stores.2.elim resets closes
        simp only [live, energyScan, started, resets, closes, stores, if_true, if_false]
        refine ⟨bins, ?_, ?_⟩
        · rw [intervals_snap]
          exact law.snap
        · dsimp only
          rw [intervals_file]
          exact law.file
  · have stores : ¬ Stores f.sys := fun stores => started stores.1
    have puts : ¬ Puts f.sys := fun puts => started puts.1
    simp only [live, energyScan, started, stores, putOrigin, puts, if_false]
    exact ⟨law.ram, law.snap, law.file⟩

private theorem loaded_magic (file : Option (DemandData × DemandLog)) :
    (loaded file).1.magic = demandMagic := by
  unfold loaded
  split
  · split
    · assumption
    · rfl
  · rfl

private theorem loaded_loaded (file : Option (DemandData × DemandLog)) :
    loaded (some (loaded file)) = loaded file :=
  if_pos (loaded_magic file)

private theorem tick_records (ticks : Nat) (s : Sys) : (tick^[ticks] s).dm = s.dm ∧
    (tick^[ticks] s).file = s.file ∧ (tick^[ticks] s).dmSnap = s.dmSnap := by
  induction ticks generalizing s with
  | zero => exact ⟨rfl, rfl, rfl⟩
  | succ n ih => exact ih (tick s)

private theorem boot_records (interval : UInt16) (file : Option (DemandData × DemandLog))
    (now : UInt32) (ticks : Nat) : (boot interval file now ticks).dm = (loaded file).1 ∧
      (boot interval file now ticks).file = some (loaded file) ∧
      (boot interval file now ticks).dmSnap = .zero :=
  tick_records ticks (powerOn interval file now)

private theorem unmixed_boot {file : Option (DemandData × DemandLog)} {origin : Fin 96 → UInt32}
    (law : SameDay (loaded file).1.dmdLogTs (loaded file).1.dpPLog origin)
    (snapOrigin : Fin 96 → UInt32) (interval : UInt16) (now : UInt32) (ticks : Nat) :
    Unmixed ⟨boot interval file now ticks, origin, snapOrigin, origin⟩ := by
  obtain ⟨dm, stored, snap⟩ := boot_records interval file now ticks
  refine ⟨?_, ?_, ?_⟩
  · rw [dm]
    exact law
  · rw [snap]
    exact sameDay_empty _ _
  · rw [stored, loaded_loaded]
    exact law

private theorem unmixed_demandIoTick {f : Filed} (law : Unmixed f) (written : Written) :
    Unmixed (live f (.event (.demandIoTick written))) := by
  by_cases pending : f.sys.dmStorePending = true
  · simp only [live, demandIoTick, pending, if_true, true_and]
    refine ⟨law.ram, law.snap, ?_⟩
    cases written with
    | whole =>
      simp only [loaded, if_true]
      split
      · exact law.snap
      · exact sameDay_empty _ _
    | notOpened => exact law.file
    | cut => exact sameDay_empty _ _
  · simp only [live, demandIoTick, pending]
    exact ⟨law.ram, law.snap, law.file⟩

private theorem unmixed_live (f : Filed) (e : Life) (law : Unmixed f) (proper : Proper f e) :
    Unmixed (live f e) := by
  match e with
  | .event (.scan x) => exact unmixed_scan law x proper
  | .event (.demandIoTick written) => exact unmixed_demandIoTick law written
  | .event .tick => exact ⟨law.ram, law.snap, law.file⟩
  | .event (.tickSet sec) =>
    have same : ∃ now quarter, tickSet f.sys sec =
        { f.sys with sysTick1s := now, sysTick15m := quarter } := by
      unfold tickSet
      split <;> exact ⟨_, _, rfl⟩
    obtain ⟨now, quarter, same⟩ := same
    simp only [live, step, same]
    exact ⟨law.ram, law.snap, law.file⟩
  | .event (.configure interval) => exact ⟨law.ram, law.snap, law.file⟩
  | .event (.command cmd) => exact ⟨law.ram, law.snap, law.file⟩
  | .reboot now ticks => exact unmixed_boot law.file f.snapOrigin f.sys.interval now ticks

private theorem moves_of_proper (f : Filed) (e : Life) (proper : Proper f e) : Moves f e := by
  match e with
  | .event (.scan x) =>
    intro puts
    rw [dayLog_intervals x fun _ => proper puts, if_pos puts.2]
  | .event .tick | .event (.tickSet _) | .event (.configure _) | .event (.command _)
  | .event (.demandIoTick _) | .reboot _ _ => trivial

private theorem unmixed_factory (interval : UInt16) (now : UInt32) (ticks : Nat) :
    Unmixed (factory interval now ticks) :=
  unmixed_boot (sameDay_empty _ _) _ interval now ticks

/-- In every life of the instrument whose first value of each day is that of bin 0, and of no other
time, no bin is of another day than its log and every finished day is put away whole. -/
theorem day_log_kept (interval : UInt16) (now : UInt32) (ticks : Nat) (es : List Life)
    (proper : Along live Proper (factory interval now ticks) es) :
    SameDay (run live (factory interval now ticks) es).sys.dm.dmdLogTs
        (run live (factory interval now ticks) es).sys.dm.dpPLog
        (run live (factory interval now ticks) es).origin ∧
      Along live Moves (factory interval now ticks) es := by
  have law := unmixed_factory interval now ticks
  constructor
  · exact (invariant_run unmixed_live law proper).ram
  · exact along_of_invariant (I := Unmixed) unmixed_live
      (fun f e _ proper => moves_of_proper f e proper) law proper

def importing : Sample := ⟨1, 0, 0, fun _ => 0⟩

/-- A quarter measured from 00:29:59 of the second day on. -/
def quarterOfDay : List Life :=
  [.event (.scan importing), .event .tick, .event (.scan importing),
    .event (.demandIoTick .whole)]

/-- Then a power-off until 23:59:59, the first quarter of the third day, and a restart in it. -/
def twoDays : List Life :=
  quarterOfDay ++
    [.reboot 172799 0, .event (.scan importing), .event .tick, .event (.scan importing),
      .event (.tickSet 173699), .event .tick, .event (.scan importing),
      .event (.demandIoTick .whole)] ++
    .reboot 174599 0 :: quarterOfDay

/-- The finished second day is put away with its two quarters, and the third day has two. -/
theorem day_log_kept_two_days :
    let kept := run live (factory 0 88199 0) twoDays
    SameDay kept.sys.dm.dmdLogTs kept.sys.dm.dpPLog kept.origin ∧
      Along live Moves (factory 0 88199 0) twoDays ∧
      kept.sys.dm.dmdLogTs = 172800 ∧
      (∀ k, kept.sys.dm.dpPLog k ≠ 0 ↔ k = 0 ∨ k = 1) ∧
      kept.sys.dlog.ts = 88199 ∧
      ∀ k, kept.sys.dlog.dpPLog k ≠ 0 ↔ k = 1 ∨ k = 95 := by
  have proper : Along live Proper (factory 0 88199 0) twoDays := by decide +kernel
  obtain ⟨same, moves⟩ := day_log_kept 0 88199 0 twoDays proper
  exact ⟨same, moves, by decide +kernel, by decide +kernel, by decide +kernel, by decide +kernel⟩

/-- A power-off from the first quarter until 00:44:59 of the third day mixes the two days. -/
theorem power_off_mixes_days :
    ¬ SameDay (run live (factory 0 88199 0) (quarterOfDay ++ .reboot 175499 0 ::
          quarterOfDay)).sys.dm.dmdLogTs
        (run live (factory 0 88199 0) (quarterOfDay ++ .reboot 175499 0 ::
          quarterOfDay)).sys.dm.dpPLog
        (run live (factory 0 88199 0) (quarterOfDay ++ .reboot 175499 0 ::
          quarterOfDay)).origin := by
  decide +kernel

end SV300.Demand.DayLog
