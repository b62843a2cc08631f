/- SV300/Energy/SlotLog
   digest: The hourly and the 15-minute energy log of one channel, from scan to deferred file job. -/

import SV300.Clock
import SV300.Energy.Record

set_option autoImplicit false
set_option relaxedAutoImplicit false

namespace SV300.Energy.SlotLog

open SV300.Clock
open SV300.Energy.Record

/-- The quantities of a slot, each a displayed register of the total group. -/
inductive Quantity
  | kwh | kvarhImport | kvarhExport | kvah
  deriving DecidableEq, Repr

def Quantity.cell : Quantity → Cell
  | .kwh => ⟨.total, .kwh, .imported⟩
  | .kvarhImport => ⟨.total, .kvarh, .imported⟩
  | .kvarhExport => ⟨.total, .kvarh, .exported⟩
  | .kvah => ⟨.total, .kvah, .imported⟩

abbrev Reading := Quantity → UInt32

/-- A day of slots (`ENERGY_LOG` with 24 of them, `ENERGY_LOG15` with 96) and when it began. -/
structure DayLog where
  ts : UInt32
  egy : Nat → Reading

def DayLog.empty (ts : UInt32) : DayLog := ⟨ts, fun _ _ => 0⟩

def DayLog.put (d : DayLog) (slot : Nat) (r : Reading) : DayLog :=
  { d with egy := Function.update d.egy slot r }

/-- The jobs a scan leaves to the file task. -/
inductive EioKind
  | elog0 | elog1 | e15Day0 | e15Day1 | e15Arch
  deriving DecidableEq, Repr

/-- `EGY15_CH`: the 15-minute log, of today and of the day before. -/
structure Egy15 where
  log : Fin 2 → DayLog
  buf : Reading
  lastQ : Nat
  lastQstore : Nat
  dayMday : Nat
  dayStartTick : UInt32
  pendArch : Bool

/-- What one channel holds of the energy logs, and its jobs with their snapshots. -/
structure Logs where
  elog : Fin 2 → DayLog
  egyTs1H : Nat
  egyTs1D : Nat
  egyStartTs1D : UInt32
  egyBuf : Reading
  egy15 : Egy15
  egyIoPending : EioKind → Bool
  elogSnap : Fin 2 → DayLog
  e15Snap : Fin 2 → DayLog

/-- `egyIoDefer`: take a snapshot and ask for its file job. -/
def egyIoDefer (kind : EioKind) (l : Logs) : Logs :=
  { l with
    egyIoPending := Function.update l.egyIoPending kind true
    elogSnap := match kind with
      | .elog0 => Function.update l.elogSnap 0 (l.elog 0)
      | .elog1 => Function.update l.elogSnap 1 (l.elog 1)
      | _ => l.elogSnap
    e15Snap := match kind with
      | .e15Day0 => Function.update l.e15Snap 0 (l.egy15.log 0)
      | .e15Day1 => Function.update l.e15Snap 1 (l.egy15.log 1)
      | .e15Arch => Function.update l.e15Snap 1 (l.egy15.log 1)
      | _ => l.e15Snap }

/-- A log of today and of the day before, when the day has changed. -/
def turnDay (now : UInt32) (today : DayLog) : Fin 2 → DayLog
  | 0 => .empty now
  | 1 => today

/-- `putEnergyLog`: the slot of hour `hix` is the difference to the reading kept. -/
def putEnergyLog (now : UInt32) (egyTotal : Reading) (hix : Nat) (l : Logs) : Logs :=
  let began := if (l.elog 0).ts = 0 then l.egyStartTs1D else (l.elog 0).ts
  let today := { l.elog 0 with ts := began }.put hix fun q => egyTotal q - l.egyBuf q
  let l := { l with egyBuf := egyTotal }
  if l.egyTs1D ≠ (uLocalTime now).tmMday then
    egyIoDefer .elog1 (egyIoDefer .elog0 { l with
      egyTs1D := (uLocalTime now).tmMday
      elog := turnDay now today
      egyStartTs1D := now })
  else egyIoDefer .elog0 { l with elog := Function.update l.elog 0 today }

/-- `putEnergyLog15`: the slot of quarter `q`, and yesterday's log when the day has changed. -/
def putEnergyLog15 (now : UInt32) (egyTotal : Reading) (slot : Nat) (l : Logs) : Logs :=
  if 96 ≤ slot then l
  else
    let e := l.egy15
    let start := if e.dayStartTick ≠ 0 then e.dayStartTick else now
    let began := if (e.log 0).ts = 0 then start else (e.log 0).ts
    let today := { e.log 0 with ts := began }.put slot fun q => egyTotal q - e.buf q
    let e := { e with buf := egyTotal, log := Function.update e.log 0 today }
    if e.dayMday ≠ (uLocalTime now).tmMday then
      -- the snapshot of the finished day is taken before today's log is cleared
      let l := egyIoDefer .e15Day1 { l with egy15 := { e with
        dayMday := (uLocalTime now).tmMday
        log := Function.update e.log 1 today
        pendArch := true } }
      { l with egy15 := { l.egy15 with
        log := Function.update l.egy15.log 0 (.empty now)
        dayStartTick := now } }
    else { l with egy15 := e }

/-- The quarter of an hour a tick is in, from 0 to 95. -/
def quarter (now : UInt32) : Nat := tmHour now * 4 + tmMin now / 15

theorem quarter_lt (now : UInt32) : quarter now < 96 := by
  have hour := tmHour_lt now
  have minute := tmMin_lt now
  unfold quarter
  omega

/-- The hour's slot is to be written. -/
def HourDue (now : UInt32) (l : Logs) : Prop := l.egyTs1H ≠ tmHour now

/-- The quarter's slot is to be written. -/
def QuarterDue (now : UInt32) (l : Logs) : Prop := quarter now ≠ l.egy15.lastQ

instance (now : UInt32) (l : Logs) : Decidable (HourDue now l) := inferInstanceAs (Decidable (_ ≠ _))

instance (now : UInt32) (l : Logs) : Decidable (QuarterDue now l) :=
  inferInstanceAs (Decidable (_ ≠ _))

def scanHour (now : UInt32) (egyTotal : Reading) (l : Logs) : Logs :=
  if HourDue now l then
    { putEnergyLog now egyTotal l.egyTs1H l with egyTs1H := tmHour now }
  else l

def scanQuarter (now : UInt32) (egyTotal : Reading) (l : Logs) : Logs :=
  if QuarterDue now l then
    let l := putEnergyLog15 now egyTotal l.egy15.lastQ l
    { l with egy15 := { l.egy15 with lastQ := quarter now } }
  else l

/-- Today's file is written two minutes into the next quarter. -/
def scanStore (now : UInt32) (l : Logs) : Logs :=
  if l.egy15.lastQstore ≠ l.egy15.lastQ ∧ 2 ≤ tmMin now % 15 then
    let l := egyIoDefer .e15Day0 l
    { l with egy15 := { l.egy15 with lastQstore := l.egy15.lastQ } }
  else l

/-- The finished day goes to the archive three minutes into the new one. -/
def scanArchive (now : UInt32) (l : Logs) : Logs :=
  if l.egy15.pendArch = true ∧ 180 ≤ now - l.egy15.dayStartTick then
    let l := egyIoDefer .e15Arch l
    { l with egy15 := { l.egy15 with pendArch := false } }
  else l

/-- The logs' part of `energy_scan`; it comes before the accumulation. -/
def scanLogs (now : UInt32) (egyTotal : Reading) (l : Logs) : Logs :=
  scanArchive now (scanStore now (scanQuarter now egyTotal (scanHour now egyTotal l)))

/-- Before the scans begin: the logs as loaded, the 15-minute baseline from the display.  The
hourly baseline stays as the RAM is, zero. -/
def initLogs (now : UInt32) (egyTotal : Reading) (elog log15 : Fin 2 → DayLog) : Logs where
  elog := elog
  egyTs1H := tmHour now
  egyTs1D := (uLocalTime now).tmMday
  egyStartTs1D := now
  egyBuf _ := 0
  egy15 := {
    log := log15
    buf := egyTotal
    lastQ := quarter now
    lastQstore := quarter now
    dayMday := (uLocalTime now).tmMday
    dayStartTick := now
    pendArch := false }
  egyIoPending _ := false
  elogSnap _ := .empty 0
  e15Snap _ := .empty 0

/-- A log of today that is loaded belongs to an earlier day. -/
def StaleDay (now : UInt32) (d : DayLog) : Prop :=
  d.ts ≠ 0 ∧ ((uLocalTime d.ts).tmMday ≠ (uLocalTime now).tmMday ∨
    (uLocalTime d.ts).tmMon ≠ (uLocalTime now).tmMon)

instance (now : UInt32) (d : DayLog) : Decidable (StaleDay now d) :=
  inferInstanceAs (Decidable (_ ∧ _))

def bootTurn (now : UInt32) (l : Logs) : Logs :=
  if StaleDay now (l.egy15.log 0) then
    { l with egy15 := { l.egy15 with log := turnDay now (l.egy15.log 0) } }
  else l

/-- The hour slot a scan has written: in the log of the day it belongs to. -/
def hourWritten (now : UInt32) (before after : Logs) : Reading :=
  (after.elog (if before.egyTs1D ≠ (uLocalTime now).tmMday then 1 else 0)).egy before.egyTs1H

def quarterWritten (now : UInt32) (before after : Logs) : Reading :=
  (after.egy15.log (if before.egy15.dayMday ≠ (uLocalTime now).tmMday then 1 else 0)).egy
    before.egy15.lastQ

section Defer

variable (kind : EioKind) (l : Logs)

@[simp] theorem egyIoDefer_elog : (egyIoDefer kind l).elog = l.elog := rfl
@[simp] theorem egyIoDefer_egy15 : (egyIoDefer kind l).egy15 = l.egy15 := rfl

end Defer

private theorem scanLogs_hour (now : UInt32) (r : Reading) (l : Logs) :
    (scanLogs now r l).elog = (scanHour now r l).elog ∧
      (scanLogs now r l).egyBuf = (scanHour now r l).egyBuf := by
  have quarterly : ∀ m : Logs, (scanQuarter now r m).elog = m.elog ∧
      (scanQuarter now r m).egyBuf = m.egyBuf := by
    intro m
    rw [scanQuarter]
    split
    · rw [putEnergyLog15]
      split
      · exact ⟨rfl, rfl⟩
      · dsimp only
        split
        · exact ⟨rfl, rfl⟩
        · exact ⟨rfl, rfl⟩
    · exact ⟨rfl, rfl⟩
  have store : ∀ m : Logs, (scanStore now m).elog = m.elog ∧
      (scanStore now m).egyBuf = m.egyBuf := by
    intro m
    rw [scanStore]
    split
    · exact ⟨rfl, rfl⟩
    · exact ⟨rfl, rfl⟩
  have archive : ∀ m : Logs, (scanArchive now m).elog = m.elog ∧
      (scanArchive now m).egyBuf = m.egyBuf := by
    intro m
    rw [scanArchive]
    split
    · exact ⟨rfl, rfl⟩
    · exact ⟨rfl, rfl⟩
  rw [scanLogs, (archive _).1, (archive _).2, (store _).1, (store _).2, (quarterly _).1,
    (quarterly _).2]
  exact ⟨rfl, rfl⟩

theorem scanLogs_hourDue {now : UInt32} {l : Logs} (due : HourDue now l) (r : Reading) :
    hourWritten now l (scanLogs now r l) = (fun q => r q - l.egyBuf q) ∧
      (scanLogs now r l).egyBuf = r := by
  rw [hourWritten, (scanLogs_hour now r l).1, (scanLogs_hour now r l).2, scanHour, if_pos due,
    putEnergyLog]
  dsimp only
  split
  · exact ⟨Function.update_self .., rfl⟩
  · constructor
    · rw [egyIoDefer_elog]
      dsimp only
      rw [Function.update_self]
      exact Function.update_self ..
    · rfl

theorem scanLogs_hourRuns {now : UInt32} {l : Logs} (runs : ¬HourDue now l) (r : Reading) :
    (scanLogs now r l).egyBuf = l.egyBuf := by
  rw [(scanLogs_hour now r l).2, scanHour, if_neg runs]

private theorem scanLogs_quarter (now : UInt32) (r : Reading) (l : Logs) :
    (scanLogs now r l).egy15.log = (scanQuarter now r l).egy15.log ∧
      (scanLogs now r l).egy15.buf = (scanQuarter now r l).egy15.buf ∧
      (scanLogs now r l).egy15.lastQ = (scanQuarter now r l).egy15.lastQ := by
  have hourly : (scanHour now r l).egy15 = l.egy15 := by
    rw [scanHour]
    split
    · rw [putEnergyLog]
      dsimp only
      split
      · rfl
      · rfl
    · rfl
  have only : ∀ m : Logs, m.egy15 = l.egy15 →
      (scanQuarter now r m).egy15 = (scanQuarter now r l).egy15 := by
    intro m same
    have both : QuarterDue now m ↔ QuarterDue now l := by
      unfold QuarterDue
      rw [same]
    rw [scanQuarter, scanQuarter]
    by_cases due : QuarterDue now l
    · rw [if_pos due, if_pos (both.mpr due), putEnergyLog15, putEnergyLog15, same]
      split
      · dsimp only
        rw [same]
      · dsimp only
        split
        · rfl
        · rfl
    · rw [if_neg due, if_neg fun h => due (both.mp h)]
      exact same
  have later : ∀ m : Logs, (scanArchive now (scanStore now m)).egy15.log = m.egy15.log ∧
      (scanArchive now (scanStore now m)).egy15.buf = m.egy15.buf ∧
      (scanArchive now (scanStore now m)).egy15.lastQ = m.egy15.lastQ := by
    intro m
    rw [scanArchive, scanStore]
    split
    · split
      · exact ⟨rfl, rfl, rfl⟩
      · exact ⟨rfl, rfl, rfl⟩
    · split
      · exact ⟨rfl, rfl, rfl⟩
      · exact ⟨rfl, rfl, rfl⟩
  rw [scanLogs, (later _).1, (later _).2.1, (later _).2.2, only _ hourly]
  exact ⟨rfl, rfl, rfl⟩

theorem scanLogs_lastQ (now : UInt32) (r : Reading) {l : Logs} (slot : l.egy15.lastQ < 96) :
    (scanLogs now r l).egy15.lastQ < 96 := by
  rw [(scanLogs_quarter now r l).2.2, scanQuarter]
  split
  · exact quarter_lt now
  · exact slot

/-- When a quarter ends its slot holds the difference to the baseline, which moves on. -/
theorem scanLogs_quarterDue {now : UInt32} {l : Logs} (due : QuarterDue now l)
    (slot : l.egy15.lastQ < 96) (r : Reading) :
    quarterWritten now l (scanLogs now r l) = (fun q => r q - l.egy15.buf q) ∧
      (scanLogs now r l).egy15.buf = r := by
  have inside : ¬96 ≤ l.egy15.lastQ := by omega
  rw [quarterWritten, (scanLogs_quarter now r l).1, (scanLogs_quarter now r l).2.1, scanQuarter,
    if_pos due, putEnergyLog15, if_neg inside]
  dsimp only
  split
  · constructor
    · simp [DayLog.put]
    · rfl
  · constructor
    · simp [DayLog.put]
    · rfl

theorem scanLogs_quarterRuns {now : UInt32} {l : Logs} (runs : ¬QuarterDue now l) (r : Reading) :
    (scanLogs now r l).egy15.buf = l.egy15.buf := by
  rw [(scanLogs_quarter now r l).2.1, scanQuarter, if_neg runs]

end SV300.Energy.SlotLog
