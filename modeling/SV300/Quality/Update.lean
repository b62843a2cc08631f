/- SV300/Quality/Update
   digest: The one-second quality update: averages, ten-minute checks, the weekly record, its file. -/

import SV300.Clock
import SV300.Quality.QwFile

set_option autoImplicit false
set_option relaxedAutoImplicit false

namespace SV300.Quality.Update

open SV300.Clock
open SV300.Quality.Week
open SV300.Quality.QwFile (EventLog WeekFile)

/-- The name of a weekly file of channel 0, given by the date in it. -/
abbrev FileName := Tm

structure QualSumData (F : Type) where
  freq : F
  u : Fin 3 → F
  ubal : Fin 2 → F

/-- The statistics of channel 0, the channel the weekly record is made from. -/
structure QualLogData (F : Type) where
  qwfn : FileName
  qsum : QualSumData F
  q10m : QualData10m F
  qw : QualWeek F
  tsChanged : Bool

/-- The one-entry buffer through which the file task gets its work. -/
structure PqIoJob (F : Type) where
  pending : Bool
  rollover : Bool
  qwfn : FileName
  newQwfn : FileName
  weekSnap : QualWeek F
  newQw : QualWeek F
  ev : List (EventLog F)

structure Sys (F : Type) where
  sysTick1s : UInt32
  startDay : UInt16
  log : QualLogData F
  rpt : Fin 2 → EN50160
  eventQ : List (EventLog F)
  pqIoJob : PqIoJob F
  files : FileName → Option (WeekFile F)

/-- What one call reads: the measured values, the limits and whether the report is active. -/
structure Sample (F : Type) where
  freq : F
  u1012 : Fin 3 → F
  ubal : Fin 2 → F
  uthd : Fin 3 → F
  uhd : Fin 3 → Fin 24 → F
  freqLo : Fin 2 → F
  freqHi : Fin 2 → F
  uLo : Fin 2 → F
  uHi : Fin 2 → F
  active : Bool

def sysTick10s (now : UInt32) : UInt32 := now / 10
def sysTick10m (now : UInt32) : UInt32 := now / 600

/-- The days from the start day of a tick's week to the tick. -/
def weekDays (startDay : UInt16) (utc : UInt32) : UInt32 :=
  let sd := if 6 < startDay then 0 else startDay.toNat
  UInt32.ofNat ((tmWday utc + 7 - sd) % 7)

/-- `getQualWeekFN`: the file of the tick's week carries the date of its first day. -/
def getQualWeekFN (startDay : UInt16) (now : UInt32) : FileName :=
  uLocalTime (now - weekDays startDay now * 24 * 3600)

def getQualLastWeekFN (startDay : UInt16) (now : UInt32) : FileName :=
  uLocalTime (now - (weekDays startDay now + 7) * 24 * 3600)

/-- `getQualWeekEndTs`: midnight before the next start day. -/
def getQualWeekEndTs (startDay : UInt16) (now : UInt32) : UInt32 :=
  mktimeMidnight now + (7 - weekDays startDay now) * 86400

variable {F : Type} [Measure F]

/-- A value outside its limits. -/
def OutOf (llimit hlimit val : F) : Prop := val < llimit ∨ hlimit < val

instance (llimit hlimit val : F) : Decidable (OutOf llimit hlimit val) :=
  inferInstanceAs (Decidable (_ ∨ _))

def ofCount (n : UInt32) : F := ((n.toNat : Int) : F)

/-- `QualVarUpdate`; the count is passed as an `int`. -/
def qualVarUpdate (pqvar : QualVariation F) (val llimit hlimit : F) (count : UInt32) :
    QualVariation F :=
  if OutOf llimit hlimit val then
    { err := pqvar.err + 1, var := ofCount (pqvar.err + 1) / ((count.toInt32.toInt : Int) : F) }
  else pqvar

/-- Limits of the harmonics from the second on, in percent. -/
def harmLimit : List Rat :=
  [2, 5, 1, 6, 1/2, 5, 1/2, 3/2, 1/2, 7/2, 1/2, 3, 1/2, 1/2, 1/2, 2, 1/2, 3/2, 1/2, 1/2, 1/2, 3/2,
    1/2, 3/2]

/-- The loop over the harmonics of a phase; it stops at the first one out of limits. -/
def checkHarmonics (pqvar : QualVariation F) (uhd : Fin 24 → F) (count : UInt32) :
    List (Fin 24) → QualVariation F
  | [] => pqvar
  | j :: js =>
    let limit : F := Measure.literal (harmLimit.getD j 0)
    if OutOf 0 limit (uhd j) then qualVarUpdate pqvar (uhd j) 0 limit count
    else checkHarmonics pqvar uhd count js

def collect (smp : Sample F) (l : QualLogData F) : QualLogData F :=
  { l with
    qsum := { l.qsum with freq := l.qsum.freq + smp.freq }
    q10m := { l.q10m with
      count10m := l.q10m.count10m + 1
      count10s := l.q10m.count10s + 1 } }

def nFreq : UInt32 := 60

/-- The ten-second check is due. -/
def Due10s (now : UInt32) (l : QualLogData F) : Prop :=
  l.q10m.ts10s ≠ sysTick10s now ∨ l.tsChanged = true

instance (now : UInt32) (l : QualLogData F) : Decidable (Due10s now l) :=
  inferInstanceAs (Decidable (_ ∨ _))

def meanFreq (l : QualLogData F) : F := l.qsum.freq / ofCount l.q10m.count10s

/-- The ten-second check: no more than sixty samples are counted, but every check judges. -/
def check10s (now : UInt32) (smp : Sample F) (l : QualLogData F) : QualLogData F :=
  if Due10s now l then
    let freq := meanFreq l
    let count10s := if l.q10m.avg.count10s < nFreq then l.q10m.avg.count10s + 1
      else l.q10m.avg.count10s
    let var := l.q10m.var
    { l with
      qsum := { l.qsum with freq := 0 }
      q10m := { l.q10m with
        ts10s := sysTick10s now
        count10s := 0
        avg := { l.q10m.avg with count10s := count10s, uthd := smp.uthd, uhd := smp.uhd }
        var := { var with
          single := fun
            | .freq1 =>
              qualVarUpdate (var.single .freq1) freq (smp.freqLo 0) (smp.freqHi 0) count10s
            | .freq2 =>
              qualVarUpdate (var.single .freq2) freq (smp.freqLo 1) (smp.freqHi 1) count10s
            | .voltbal => var.single .voltbal } } }
  else l

def average (smp : Sample F) (l : QualLogData F) : QualLogData F :=
  let u := fun i => l.qsum.u i + smp.u1012 i
  let ubal := fun i => l.qsum.ubal i + smp.ubal i
  { l with
    qsum := { l.qsum with u := u, ubal := ubal }
    q10m := { l.q10m with avg := { l.q10m.avg with
      u := fun i => u i / ofCount l.q10m.count10m
      ubal := fun i => ubal i / ofCount l.q10m.count10m } } }

/-- The ten minutes are over. -/
def Due10m (now : UInt32) (l : QualLogData F) : Prop :=
  l.q10m.ts10m ≠ sysTick10m now ∨ l.tsChanged = true

instance (now : UInt32) (l : QualLogData F) : Decidable (Due10m now l) :=
  inferInstanceAs (Decidable (_ ∨ _))

/-- The checks of the ten-minute averages: voltages, unbalance, distortion and harmonics. -/
def check10m (smp : Sample F) (l : QualLogData F) : QualLogData F :=
  let q := l.q10m
  let n := q.count10m
  { l with
    tsChanged := false
    q10m := { q with var := { q.var with
      single := fun
        | .voltbal => qualVarUpdate (q.var.single .voltbal) (q.avg.ubal 0) 0 (Measure.literal 2) n
        | .freq1 => q.var.single .freq1
        | .freq2 => q.var.single .freq2
      phase := fun
        | .volt1, i => qualVarUpdate (q.var.phase .volt1 i) (q.avg.u i) (smp.uLo 0) (smp.uHi 0) n
        | .volt2, i => qualVarUpdate (q.var.phase .volt2 i) (q.avg.u i) (smp.uLo 1) (smp.uHi 1) n
        | .voltThd, i =>
          qualVarUpdate (q.var.phase .voltThd i) (q.avg.uthd i) 0 (Measure.literal 8) n
        | .voltHd, i => checkHarmonics (q.var.phase .voltHd i) (q.avg.uhd i) n (List.finRange 24)
        | .pst, i => q.var.phase .pst i
        | .plt, i => q.var.phase .plt i
        | .svolt, i => q.var.phase .svolt i } } }

def noVariation : QualVarData F where
  events _ _ := 0
  single _ := ⟨0, 0⟩
  phase _ _ := ⟨0, 0⟩

def noAverage : QualAvgData F where
  count10s := 0
  u _ := 0
  uthd _ := 0
  ubal _ := 0
  uhd _ _ := 0

def noSum : QualSumData F where
  freq := 0
  u _ := 0
  ubal _ := 0

/-- Start the next ten minutes; the running ten seconds are kept. -/
def clear10m (now : UInt32) (l : QualLogData F) : QualLogData F :=
  { l with
    qsum := noSum
    q10m := { l.q10m with
      avg := noAverage
      var := noVariation
      count10m := 0
      ts10m := sysTick10m now } }

def Sys.setQw (s : Sys F) (qw : QualWeek F) : Sys F := { s with log := { s.log with qw := qw } }

def Sys.setRpt (s : Sys F) (pos : Fin 2) (rpt : EN50160) : Sys F :=
  { s with rpt := Function.update s.rpt pos rpt }

/-- `pqQueueJob`: hand the events and a snapshot to the file task, unless its last job is pending. -/
def pqQueueJob (s : Sys F) : Bool × Sys F :=
  if s.pqIoJob.pending then (false, s)
  else
    let qw := { s.log.qw with evtCount := s.log.qw.evtCount + UInt32.ofNat s.eventQ.length }
    (true, { s.setQw qw with
      eventQ := []
      pqIoJob := { s.pqIoJob with
        rollover := false, qwfn := s.log.qwfn, weekSnap := qw, ev := s.eventQ } })

def pqCommitJob (s : Sys F) : Sys F := { s with pqIoJob := { s.pqIoJob with pending := true } }

def newWeek (startDay : UInt16) (now : UInt32) : QualWeek F where
  startTs := now
  endTs := getQualWeekEndTs startDay now
  complete := 0
  compliance := 0
  count10s := 0
  count10m := 0
  var := noVariation
  evtCount := 0

/-- The record's week goes on. -/
def InWindow (now : UInt32) (qw : QualWeek F) : Prop := qw.startTs ≤ now ∧ now < qw.endTs

instance (now : UInt32) (qw : QualWeek F) : Decidable (InWindow now qw) :=
  inferInstanceAs (Decidable (_ ∧ _))

def addedWeek (s : Sys F) : QualWeek F := updateQualWeek s.sysTick1s s.log.q10m s.log.qw

def continueWeek (s : Sys F) : Sys F :=
  let r := pqQueueJob (s.setQw (addedWeek s))
  let t := if r.1 then pqCommitJob r.2 else r.2
  t.setRpt 0 (updateQualReport t.log.qw)

/-- The ten minutes that end a week: the record is finished, and a new one is made for the week of
the clock.  Its file is created over whatever has that name. -/
def rolloverWeek (s : Sys F) : Sys F :=
  let now := s.sysTick1s
  let r := pqQueueJob ((s.setQw (addedWeek s)).setRpt 1 (updateQualReport (addedWeek s)))
  let qwfn := getQualWeekFN s.startDay now
  let qw := newWeek s.startDay now
  let t := { r.2 with log := { r.2.log with qwfn := qwfn, qw := qw } }
  let t := if r.1 then
      pqCommitJob { t with pqIoJob := { t.pqIoJob with
        rollover := true, newQwfn := qwfn, newQw := qw } }
    else t
  t.setRpt 0 (updateQualReport qw)

/-- The weekly part of the ten-minute update; nothing is recorded while the report is inactive. -/
def updateWeek (active : Bool) (s : Sys F) : Sys F :=
  if active then if InWindow s.sysTick1s s.log.qw then continueWeek s else rolloverWeek s
  else s

def sampled (smp : Sample F) (s : Sys F) : Sys F :=
  { s with log := average smp (check10s s.sysTick1s smp (collect smp s.log)) }

def checked (smp : Sample F) (s : Sys F) : Sys F :=
  { sampled smp s with log := check10m smp (sampled smp s).log }

/-- `updateQualData` of channel 0. -/
def updateQualData (smp : Sample F) (s : Sys F) : Sys F :=
  if Due10m s.sysTick1s (sampled smp s).log then
    let t := updateWeek smp.active (checked smp s)
    { t with log := clear10m t.sysTick1s t.log }
  else sampled smp s

/-- `updateQualWeekData` on a file; an absent one is made. -/
def updateFile (weekSnap : QualWeek F) (ev : List (EventLog F)) :
    Option (WeekFile F) → Option (WeekFile F)
  | none => some ⟨weekSnap, ev⟩
  | some f => some (f.update weekSnap ev)

/-- `pqIoTick`: do the pending job. -/
def pqIoTick (s : Sys F) : Sys F :=
  let job := s.pqIoJob
  if job.pending then
    let files := Function.update s.files job.qwfn (updateFile job.weekSnap job.ev (s.files job.qwfn))
    { s with
      files := if job.rollover then Function.update files job.newQwfn (some ⟨job.newQw, []⟩)
        else files
      pqIoJob := { job with pending := false } }
  else s

def tickHandler (s : Sys F) : Sys F := { s with sysTick1s := s.sysTick1s + 1 }

/-- `tickSet`: set the clock; jumps by a user of more than a second are remembered. -/
def tickSet (sec : UInt32) (mode : Bool) (s : Sys F) : Sys F :=
  if sec = s.sysTick1s then s
  else
    { s with
      sysTick1s := sec
      log := if mode ∧ 1 < (s.sysTick1s - sec).toInt32.abs then { s.log with tsChanged := true }
        else s.log }

def noReport : EN50160 where
  sTime := 0
  eTime := 0
  compliance := 0
  single _ := 0
  phase _ _ := 0
  events _ _ := 0

def noJob : PqIoJob F where
  pending := false
  rollover := false
  qwfn := uLocalTime 0
  newQwfn := uLocalTime 0
  weekSnap := newWeek 0 0
  newQw := newWeek 0 0
  ev := []

/-- `initPQHeader` of channel 0: load the record of the clock's week, or create its file. -/
def initPQHeader (now : UInt32) (startDay : UInt16) (files : FileName → Option (WeekFile F)) :
    Sys F :=
  let qwfn := getQualWeekFN startDay now
  let qw := match files qwfn with
    | some f => f.header
    | none => newWeek startDay now
  let last := match files (getQualLastWeekFN startDay now) with
    | some f => updateQualReport f.header
    | none => noReport
  { sysTick1s := now
    startDay := startDay
    log := {
      qwfn := qwfn
      qsum := noSum
      q10m := {
        ts10m := sysTick10m now
        ts10s := sysTick10s now
        count10m := 0
        count10s := 0
        avg := noAverage
        var := noVariation }
      qw := qw
      tsChanged := false }
    rpt := fun pos => if pos = 0 then
        if (files qwfn).isSome then updateQualReport qw else noReport
      else last
    eventQ := []
    pqIoJob := noJob
    files := match files qwfn with
      | some _ => files
      | none => Function.update files qwfn (some ⟨qw, []⟩) }

/-- What can happen: a tick, a setting of the clock, an event, an update, the file task. -/
inductive Event (F : Type)
  | tick
  | tickSet (sec : UInt32) (mode : Bool)
  | pushEvent (e : EventLog F)
  | update (smp : Sample F)
  | pqIoTick

/-- `pushEvent`: append to the queue while it has room. -/
def pushEvent (e : EventLog F) (s : Sys F) : Sys F :=
  if s.eventQ.length < QwFile.nEventQ then { s with eventQ := s.eventQ ++ [e] } else s

def step (s : Sys F) : Event F → Sys F
  | .tick => tickHandler s
  | .tickSet sec mode => tickSet sec mode s
  | .pushEvent e => pushEvent e s
  | .update smp => updateQualData smp s
  | .pqIoTick => pqIoTick s

end SV300.Quality.Update
