/- SV300/Energy/Archive
   digest: The monthly archive of the 15-minute log over runs with reboots at any instant. -/

import SV300.Library.Runs
import SV300.Energy.SlotLog

set_option autoImplicit false
set_option relaxedAutoImplicit false

namespace SV300.Energy.Archive

open SV300.Library.Runs
open SV300.Clock
open SV300.Energy.SlotLog

def day (ts : UInt32) : Nat := ts.toNat / 86400

/-- Where the boot stands: the two files are loaded, the logs are set up, and a stale day is
archived, stored as yesterday's and replaced. -/
inductive Phase
  | load0 | load1 | init | archive | store1 | reset | running
  deriving DecidableEq

/-- The clock, one channel's logs in RAM and the file task's jobs; what survives a reboot: the files
of today and yesterday and the archive by year and month; and a history: the days whose log was
begun, and the day whose log a reboot took before it was first stored. -/
structure St where
  now : UInt32
  phase : Phase
  logs : Logs
  jobs : List EioKind
  file : Fin 2 → Option DayLog
  archive : Nat × Nat → List DayLog
  opened : List Nat
  lost : Option Nat

def St.setLog (s : St) (i : Fin 2) (d : DayLog) : St :=
  { s with logs := { s.logs with egy15 := { s.logs.egy15 with
    log := Function.update s.logs.egy15.log i d } } }

def St.store (s : St) (i : Fin 2) (d : DayLog) : St :=
  { s with file := Function.update s.file i (some d) }

@[simp] theorem setLog_self (s : St) (i : Fin 2) (d : DayLog) :
    (s.setLog i d).logs.egy15.log i = d :=
  Function.update_self ..

private theorem setLog_other (s : St) {i k : Fin 2} (other : k ≠ i) (d : DayLog) :
    (s.setLog i d).logs.egy15.log k = s.logs.egy15.log k :=
  Function.update_of_ne other ..

@[simp] theorem store_self (s : St) (i : Fin 2) (d : DayLog) : (s.store i d).file i = some d :=
  Function.update_self ..

private theorem store_other (s : St) {i k : Fin 2} (other : k ≠ i) (d : DayLog) :
    (s.store i d).file k = s.file k :=
  Function.update_of_ne other ..

/-- `archiveEnergyLog15Day`: append a day to the file of its month.  Old months stay: the deletion
for space and age is left out. -/
def archiveEnergyLog15Day (d : DayLog) (s : St) : St :=
  if d.ts = 0 then s
  else
    { s with
      archive := Function.update s.archive (yearMonth d.ts) (s.archive (yearMonth d.ts) ++ [d]) }

/-- `loadOrCreateFsBlob`: an absent file is made, with a day that begins now. -/
def load (i : Fin 2) (s : St) : St :=
  match s.file i with
  | some d => s.setLog i d
  | none => (s.store i (.empty s.now)).setLog i (.empty s.now)

def bootStep (egyTotal : Reading) (s : St) : St :=
  match s.phase with
  | .load0 =>
    { load 0 s with
      phase := .load1
      opened := if (s.file 0).isNone then s.opened ++ [day s.now] else s.opened }
  | .load1 => { load 1 s with phase := .init }
  | .init =>
    { s with
      logs := initLogs s.now egyTotal s.logs.elog s.logs.egy15.log
      phase := if StaleDay s.now (s.logs.egy15.log 0) then .archive else .running }
  | .archive =>
    let s := s.setLog 1 (s.logs.egy15.log 0)
    { archiveEnergyLog15Day (s.logs.egy15.log 1) s with phase := .store1 }
  | .store1 => { s.store 1 (s.logs.egy15.log 1) with phase := .reset }
  | .reset =>
    { (s.setLog 0 (.empty s.now)).store 0 (.empty s.now) with
      phase := .running
      opened := s.opened ++ [day s.now]
      lost := if s.lost = some (day s.now) then none else s.lost }
  | .running => s

/-- The day changes in the next scan: the log of today becomes yesterday's. -/
def Turns (now : UInt32) (l : Logs) : Prop :=
  QuarterDue now l ∧ l.egy15.lastQ < 96 ∧ l.egy15.dayMday ≠ (uLocalTime now).tmMday

instance (now : UInt32) (l : Logs) : Decidable (Turns now l) := inferInstanceAs (Decidable (_ ∧ _))

def scan (egyTotal : Reading) (s : St) : St :=
  { s with
    logs := scanLogs s.now egyTotal s.logs
    opened := if Turns s.now s.logs then s.opened ++ [day s.now] else s.opened }

/-- The jobs in the order `egyIoTick` looks at them. -/
def kinds : List EioKind := [.elog0, .elog1, .e15Day0, .e15Day1, .e15Arch]

def take (s : St) : St :=
  if s.jobs = [] then
    { s with
      jobs := kinds.filter fun k => s.logs.egyIoPending k
      logs := { s.logs with egyIoPending := fun _ => false } }
  else s

/-- One job, from its snapshot.  The files of the hourly log are not followed. -/
def perform (k : EioKind) (s : St) : St :=
  match k with
  | .elog0 => s
  | .elog1 => s
  | .e15Day0 => s.store 0 (s.logs.e15Snap 0)
  | .e15Day1 => s.store 1 (s.logs.e15Snap 1)
  | .e15Arch => archiveEnergyLog15Day (s.logs.e15Snap 1) s

def write (s : St) : St :=
  match s.jobs with
  | [] => s
  | k :: jobs => { perform k s with jobs := jobs }

def zeroLogs : Logs := initLogs 0 (fun _ => 0) (fun _ => .empty 0) fun _ => .empty 0

/-- The file of today is a log of day `d`. -/
def FileDay (s : St) (d : Nat) : Prop := ∀ f, s.file 0 = some f → day f.ts = d

instance (s : St) (d : Nat) : Decidable (FileDay s d) :=
  match h : s.file 0 with
  | none => .isTrue fun f found => by
      rw [h] at found
      cases found
  | some e => decidable_of_iff (day e.ts = d) (by
      constructor
      · intro same f found
        rw [h] at found
        cases found
        exact same
      · intro all
        exact all e h)

def today (s : St) : Nat := day (s.logs.egy15.log 0).ts

def yesterday (s : St) : Nat := day (s.logs.egy15.log 1).ts

/-- A reboot takes the RAM, and with it a log of today that was not stored yet. -/
def reboot (s : St) : St :=
  { s with
    phase := .load0
    logs := zeroLogs
    jobs := []
    lost := if s.phase = .running ∧ ¬FileDay s (today s) then some (today s) else s.lost }

/-- What can happen: the clock goes on, also while the power is off; a scan; the file task takes
jobs or does one; a step of the boot; a reboot. -/
inductive Event
  | clock (now : UInt32)
  | scan (egyTotal : Reading)
  | take
  | write
  | boot (egyTotal : Reading)
  | reboot

def step (s : St) : Event → St
  | .clock now => { s with now := now }
  | .scan egyTotal => if s.phase = .running then scan egyTotal s else s
  | .take => take s
  | .write => write s
  | .boot egyTotal => bootStep egyTotal s
  | .reboot => reboot s

def initial (now : UInt32) : St where
  now := now
  phase := .load0
  logs := zeroLogs
  jobs := []
  file _ := none
  archive _ := []
  opened := []
  lost := none

def monthOf (d : Nat) : Nat × Nat := yearMonth (UInt32.ofNat (d * 86400 + 1))

def copies (s : St) (d : Nat) : Nat := (s.archive (monthOf d)).countP fun l => day l.ts = d

private theorem yearMonth_day {ts : UInt32} (set : ts ≠ 0) : yearMonth ts = monthOf (day ts) := by
  have small := ts.toNat_lt
  have value : (UInt32.ofNat (day ts * 86400 + 1)).toNat = day ts * 86400 + 1 := by
    rw [UInt32.toNat_ofNat']
    unfold day
    omega
  have nonzero : UInt32.ofNat (day ts * 86400 + 1) ≠ 0 := by
    intro zero
    rw [zero] at value
    exact absurd value (Nat.succ_ne_zero _).symm
  have same : day ts = day (UInt32.ofNat (day ts * 86400 + 1)) := by
    unfold day at value ⊢
    rw [value]
    omega
  rw [monthOf, yearMonth, yearMonth, uLocalTime_of_day set nonzero same]

private theorem copies_append {w : DayLog} (set : w.ts ≠ 0) (s : St) (d : Nat) :
    copies (archiveEnergyLog15Day w s) d = copies s d + if d = day w.ts then 1 else 0 := by
  rw [archiveEnergyLog15Day, if_neg set, copies, copies, yearMonth_day set]
  dsimp only
  by_cases month : monthOf d = monthOf (day w.ts)
  · rw [month, Function.update_self, List.countP_append, List.countP_singleton]
    by_cases same : d = day w.ts
    · rw [if_pos same, if_pos (decide_eq_true same.symm)]
    · have other : ¬decide (day w.ts = d) = true := by
        rw [decide_eq_true_eq]
        exact fun h => same h.symm
      rw [if_neg same, if_neg other]
  · have other : d ≠ day w.ts := fun same => month (congrArg monthOf same)
    rw [Function.update_of_ne month, if_neg other]
    rfl

/-- The archive jobs on their way: asked for, deferred or taken. -/
def outstanding (s : St) : Nat :=
  (if s.logs.egy15.pendArch then 1 else 0) +
    (if s.logs.egyIoPending .e15Arch then 1 else 0) + s.jobs.count .e15Arch

/-- The file of today holds the day that waits for the archive, if one does, and then the power
fails on the day after; else it holds today's log. -/
def SafeReboot (s : St) : Prop :=
  if outstanding s = 0 then FileDay s (today s)
  else FileDay s (yesterday s) ∧ day s.now = today s

/-- What keeps every day archived once.  The clock does not go back; from the boot's look at it the
date stays until the logs are set up, and also before when a log of that day was lost.  At the
boot and at the end of a day the day (and month) alone tell one date from another, and a day ends
only when the one before is archived.  No reboot between the archiving at boot and the storing of
the new day, and else only when the file of today holds what is not archived. -/
def Careful (s : St) : Event → Prop
  | .clock now => s.now ≤ now ∧
      (s.phase = .archive ∨ s.phase = .store1 ∨ s.phase = .reset ∨ s.lost.isSome →
        day now = day s.now)
  | .scan _ => s.phase = .running → QuarterDue s.now s.logs →
      day s.now = today s ∨ Turns s.now s.logs ∧ outstanding s = 0
  | .boot _ => s.phase = .init →
      day s.now = today s ∨ StaleDay s.now (s.logs.egy15.log 0)
  | .reboot => s.phase ≠ .store1 ∧ s.phase ≠ .reset ∧ (s.phase = .running → SafeReboot s)
  | .take => True
  | .write => True

instance (s : St) : Decidable (SafeReboot s) := inferInstanceAs (Decidable (ite _ _ _))

instance (s : St) : ∀ e, Decidable (Careful s e)
  | .clock now => inferInstanceAs (Decidable (s.now ≤ now ∧
      (s.phase = .archive ∨ s.phase = .store1 ∨ s.phase = .reset ∨ s.lost.isSome →
        day now = day s.now)))
  | .scan _ => inferInstanceAs (Decidable (s.phase = .running → QuarterDue s.now s.logs →
      day s.now = today s ∨ Turns s.now s.logs ∧ outstanding s = 0))
  | .boot _ => inferInstanceAs (Decidable (s.phase = .init →
      day s.now = today s ∨ StaleDay s.now (s.logs.egy15.log 0)))
  | .reboot => inferInstanceAs (Decidable (s.phase ≠ .store1 ∧ s.phase ≠ .reset ∧
      (s.phase = .running → SafeReboot s)))
  | .take => .isTrue trivial
  | .write => .isTrue trivial

/-- What holds between the steps after the boot: the days before today are archived once, but for
yesterday's while its job is outstanding. -/
structure Running (s : St) : Prop where
  slot : s.logs.egy15.lastQ < 96
  began : (s.logs.egy15.log 0).ts ≠ 0
  set : s.now ≠ 0
  clock : today s ≤ day s.now
  mday : s.logs.egy15.dayMday = (uLocalTime (s.logs.egy15.log 0).ts).tmMday
  opened : today s ∈ s.opened
  latest : ∀ d ∈ s.opened, d ≤ today s
  one : outstanding s ≤ 1
  waits : outstanding s = 1 → s.logs.e15Snap 1 = s.logs.egy15.log 1 ∧
    (s.logs.egy15.log 1).ts ≠ 0 ∧ yesterday s ∈ s.opened ∧ yesterday s < today s
  archived : ∀ d ∈ s.opened,
    copies s d = if d = today s ∨ outstanding s = 1 ∧ d = yesterday s then 0 else 1
  unopened : ∀ d, d ∉ s.opened → copies s d = 0
  file : ∃ f, s.file 0 = some f ∧ f.ts ≠ 0
  snap : s.logs.egyIoPending .e15Day0 = true ∨ EioKind.e15Day0 ∈ s.jobs →
    (s.logs.e15Snap 0).ts ≠ 0
  lost : s.lost = none

/-- A change of the logs that leaves the days, their snapshots and their jobs alone. -/
structure SameDays (l m : Logs) : Prop where
  slot : l.egy15.lastQ < 96 → m.egy15.lastQ < 96
  began : (m.egy15.log 0).ts = (l.egy15.log 0).ts
  yesterday : m.egy15.log 1 = l.egy15.log 1
  mday : m.egy15.dayMday = l.egy15.dayMday
  start : m.egy15.dayStartTick = l.egy15.dayStartTick
  pendArch : m.egy15.pendArch = l.egy15.pendArch
  e15Snap : m.e15Snap = l.e15Snap
  day0 : m.egyIoPending .e15Day0 = l.egyIoPending .e15Day0
  arch : m.egyIoPending .e15Arch = l.egyIoPending .e15Arch

/-- A step that leaves the days, the archive and the number of its jobs alone. -/
structure Alike (s t : St) : Prop where
  now : t.now = s.now
  archive : t.archive = s.archive
  opened : t.opened = s.opened
  lost : t.lost = s.lost
  slot : s.logs.egy15.lastQ < 96 → t.logs.egy15.lastQ < 96
  began : (t.logs.egy15.log 0).ts = (s.logs.egy15.log 0).ts
  yesterday : t.logs.egy15.log 1 = s.logs.egy15.log 1
  mday : t.logs.egy15.dayMday = s.logs.egy15.dayMday
  waiting : outstanding t = outstanding s

private theorem Running.alike {s t : St} (h : Running s) (same : Alike s t)
    (snap1 : outstanding s = 1 → t.logs.e15Snap 1 = t.logs.egy15.log 1)
    (file : ∃ f, t.file 0 = some f ∧ f.ts ≠ 0)
    (snap : t.logs.egyIoPending .e15Day0 = true ∨ EioKind.e15Day0 ∈ t.jobs →
      (t.logs.e15Snap 0).ts ≠ 0) : Running t := by
  have todays : today t = today s := congrArg day same.began
  have yesterdays : yesterday t = yesterday s :=
    congrArg (fun d : DayLog => day d.ts) same.yesterday
  have copied : ∀ d, copies t d = copies s d := by
    intro d
    rw [copies, copies, same.archive]
  refine ⟨same.slot h.slot, ?_, ?_, ?_, ?_, ?_, ?_, ?_, ?_, ?_, ?_, file, snap, ?_⟩
  · rw [same.began]
    exact h.began
  · rw [same.now]
    exact h.set
  · rw [todays, same.now]
    exact h.clock
  · rw [same.mday, same.began]
    exact h.mday
  · rw [todays, same.opened]
    exact h.opened
  · rw [todays, same.opened]
    exact h.latest
  · rw [same.waiting]
    exact h.one
  · rw [same.waiting, yesterdays, todays, same.opened, same.yesterday]
    intro waits
    rw [← same.yesterday]
    refine ⟨snap1 waits, ?_⟩
    rw [same.yesterday]
    exact (h.waits waits).2
  · intro d opened
    rw [same.opened] at opened
    rw [copied, same.waiting, yesterdays, todays]
    exact h.archived d opened
  · intro d unopened
    rw [same.opened] at unopened
    rw [copied]
    exact h.unopened d unopened
  · rw [same.lost]
    exact h.lost

private theorem Running.of_sameDays {s : St} {l : Logs} (h : Running s)
    (same : SameDays s.logs l) : Running { s with logs := l } := by
  have waiting : outstanding { s with logs := l } = outstanding s := by
    rw [outstanding, outstanding]
    dsimp only
    rw [same.pendArch, same.arch]
  refine h.alike ⟨rfl, rfl, rfl, rfl, same.slot, same.began, same.yesterday, same.mday, waiting⟩ ?_
    h.file ?_
  · intro waits
    dsimp only
    rw [same.e15Snap, same.yesterday]
    exact (h.waits waits).1
  · dsimp only
    rw [same.day0, same.e15Snap]
    exact h.snap

private theorem scanHour_egy15 (now : UInt32) (r : Reading) (l : Logs) :
    (scanHour now r l).egy15 = l.egy15 := by
  rw [scanHour]
  split
  · rw [putEnergyLog]
    dsimp only
    split
    · rfl
    · rfl
  · rfl

private theorem scanHour_sameDays (now : UInt32) (r : Reading) (l : Logs) :
    SameDays l (scanHour now r l) := by
  rw [scanHour]
  split
  · rw [putEnergyLog]
    dsimp only
    split
    · exact ⟨id, rfl, rfl, rfl, rfl, rfl, rfl, rfl, rfl⟩
    · exact ⟨id, rfl, rfl, rfl, rfl, rfl, rfl, rfl, rfl⟩
  · exact ⟨id, rfl, rfl, rfl, rfl, rfl, rfl, rfl, rfl⟩

private theorem scanQuarter_sameDays {now : UInt32} {l : Logs} (slot : l.egy15.lastQ < 96)
    (began : (l.egy15.log 0).ts ≠ 0) (stays : ¬Turns now l) (r : Reading) :
    SameDays l (scanQuarter now r l) := by
  rw [scanQuarter]
  split
  · rename_i due
    have inside : ¬96 ≤ l.egy15.lastQ := by omega
    have same : l.egy15.dayMday = (uLocalTime now).tmMday := by
      by_contra other
      exact stays ⟨due, slot, other⟩
    rw [putEnergyLog15, if_neg inside]
    dsimp only
    rw [if_neg (not_not_intro same)]
    refine ⟨fun _ => quarter_lt now, ?_, ?_, rfl, rfl, rfl, rfl, rfl, rfl⟩
    · simp [DayLog.put, began]
    · simp
  · exact ⟨id, rfl, rfl, rfl, rfl, rfl, rfl, rfl, rfl⟩

/-- The end of a quarter that ends the day: today's log becomes yesterday's, its file job and its
archiving are asked for, and another log begins. -/
structure NewDay (now : UInt32) (l m : Logs) : Prop where
  slot : m.egy15.lastQ < 96
  fresh : m.egy15.log 0 = .empty now
  finished : (m.egy15.log 1).ts = (l.egy15.log 0).ts
  mday : m.egy15.dayMday = (uLocalTime now).tmMday
  pendArch : m.egy15.pendArch = true
  snap0 : m.e15Snap 0 = l.e15Snap 0
  snap1 : m.e15Snap 1 = m.egy15.log 1
  day0 : m.egyIoPending .e15Day0 = l.egyIoPending .e15Day0
  arch : m.egyIoPending .e15Arch = l.egyIoPending .e15Arch

private theorem scanQuarter_newDay {now : UInt32} {l : Logs} (turns : Turns now l)
    (began : (l.egy15.log 0).ts ≠ 0) (r : Reading) : NewDay now l (scanQuarter now r l) := by
  obtain ⟨due, slot, turned⟩ := turns
  have inside : ¬96 ≤ l.egy15.lastQ := by omega
  rw [scanQuarter, if_pos due, putEnergyLog15, if_neg inside]
  dsimp only
  rw [if_pos turned]
  refine ⟨quarter_lt now, ?_, ?_, rfl, rfl, ?_, ?_, ?_, ?_⟩
  all_goals simp [egyIoDefer, DayLog.put, began]

private theorem Running.of_newDay {s : St} {l : Logs} (h : Running s)
    (new : NewDay s.now s.logs l) (later : today s < day s.now) (none : outstanding s = 0) :
    Running { s with logs := l, opened := s.opened ++ [day s.now] } := by
  have todays : day (l.egy15.log 0).ts = day s.now := by
    rw [new.fresh]
    rfl
  have yesterdays : day (l.egy15.log 1).ts = today s := by
    rw [new.finished]
    rfl
  have waiting : outstanding { s with logs := l, opened := s.opened ++ [day s.now] } = 1 := by
    rw [outstanding] at none ⊢
    dsimp only
    rw [new.pendArch, new.arch, if_pos rfl]
    omega
  have fresh : day s.now ∉ s.opened := by
    intro opened
    have before := h.latest _ opened
    omega
  refine ⟨new.slot, ?_, h.set, ?_, ?_, ?_, ?_, ?_, ?_, ?_, ?_, h.file, ?_, h.lost⟩
  · dsimp only
    rw [new.fresh]
    exact h.set
  · exact todays.le
  · dsimp only
    rw [new.fresh]
    exact new.mday
  · rw [today]
    dsimp only
    rw [todays]
    exact List.mem_append_right _ (List.mem_singleton.mpr rfl)
  · intro d opened
    rw [today]
    dsimp only at opened ⊢
    rw [todays]
    rcases List.mem_append.mp opened with old | new
    · have before := h.latest d old
      omega
    · rw [List.mem_singleton.mp new]
  · rw [waiting]
  · intro _
    refine ⟨new.snap1, ?_, ?_, ?_⟩
    · dsimp only
      rw [new.finished]
      exact h.began
    · rw [yesterday]
      dsimp only
      rw [yesterdays]
      exact List.mem_append_left _ h.opened
    · rw [yesterday, today]
      dsimp only
      rw [yesterdays, todays]
      exact later
  · intro d opened
    have same : copies { s with logs := l, opened := s.opened ++ [day s.now] } d = copies s d := rfl
    rw [same, waiting, yesterday, today]
    dsimp only at opened ⊢
    rw [todays, yesterdays]
    by_cases new : d = day s.now
    · rw [if_pos (.inl new), new]
      exact h.unopened _ fresh
    · have old : d ∈ s.opened := by
        rcases List.mem_append.mp opened with old | added
        · exact old
        · exact absurd (List.mem_singleton.mp added) new
      have before := h.archived d old
      rw [none] at before
      simpa [new] using before
  · intro d unopened
    exact h.unopened d fun old => unopened (List.mem_append_left _ old)
  · dsimp only
    rw [new.day0, new.snap0]
    exact h.snap

private theorem running_quarter {s : St} (h : Running s) (r : Reading)
    (careful : QuarterDue s.now s.logs →
      day s.now = today s ∨ Turns s.now s.logs ∧ outstanding s = 0) :
    Running { s with
      logs := scanQuarter s.now r s.logs
      opened := if Turns s.now s.logs then s.opened ++ [day s.now] else s.opened } := by
  by_cases turns : Turns s.now s.logs
  · rw [if_pos turns]
    have other : day s.now ≠ today s := by
      intro same
      have date := uLocalTime_of_day h.set h.began same
      exact turns.2.2 (h.mday.trans (congrArg Tm.tmMday date).symm)
    have later : today s < day s.now := Nat.lt_of_le_of_ne h.clock other.symm
    rcases careful turns.1 with same | ⟨-, none⟩
    · exact absurd same other
    · exact h.of_newDay (scanQuarter_newDay turns h.began r) later none
  · rw [if_neg turns]
    exact h.of_sameDays (scanQuarter_sameDays h.slot h.began turns r)

private theorem running_store {s : St} (h : Running s) :
    Running { s with logs := scanStore s.now s.logs } := by
  rw [scanStore]
  split
  · refine h.alike ⟨rfl, rfl, rfl, rfl, id, rfl, rfl, rfl, rfl⟩ ?_ h.file ?_
    · intro waits
      exact (h.waits waits).1
    · intro _
      exact h.began
  · exact h

private theorem running_archive {s : St} (h : Running s) :
    Running { s with logs := scanArchive s.now s.logs } := by
  rw [scanArchive]
  split
  · rename_i due
    have waiting : outstanding { s with logs :=
        { egyIoDefer .e15Arch s.logs with
          egy15 := { (egyIoDefer .e15Arch s.logs).egy15 with pendArch := false } } } =
        outstanding s := by
      have one := h.one
      rw [outstanding, if_pos due.1] at one
      rw [outstanding, outstanding, if_pos due.1]
      simp only [egyIoDefer, Function.update_self, if_true, Bool.false_eq_true, if_false]
      omega
    refine h.alike ⟨rfl, rfl, rfl, rfl, id, rfl, rfl, rfl, waiting⟩ ?_ h.file h.snap
    intro _
    rfl
  · exact h

private theorem running_scan {s : St} (h : Running s) (r : Reading)
    (careful : QuarterDue s.now s.logs →
      day s.now = today s ∨ Turns s.now s.logs ∧ outstanding s = 0) : Running (scan r s) := by
  have hourly : (scanHour s.now r s.logs).egy15 = s.logs.egy15 := scanHour_egy15 s.now r s.logs
  have due : QuarterDue s.now (scanHour s.now r s.logs) ↔ QuarterDue s.now s.logs := by
    rw [QuarterDue, QuarterDue, hourly]
  have turns : Turns s.now (scanHour s.now r s.logs) ↔ Turns s.now s.logs := by
    rw [Turns, Turns, due, hourly]
  have same := scanHour_sameDays s.now r s.logs
  have quarter := running_quarter (h.of_sameDays same) r (by
    intro ends
    have before := careful (due.mp ends)
    rw [turns, today, same.began, outstanding]
    rw [outstanding] at before
    dsimp only
    rw [same.pendArch, same.arch]
    exact before)
  dsimp only at quarter
  have archive := running_archive (running_store quarter)
  rw [scan, scanLogs]
  simp only [turns] at archive
  exact archive

private theorem count_kinds (p : EioKind → Bool) :
    (kinds.filter p).count .e15Arch = if p .e15Arch then 1 else 0 := by
  cases asked : p .e15Arch with
  | true =>
    rw [if_pos rfl, List.count_filter asked]
    decide
  | false =>
    rw [if_neg Bool.false_ne_true, List.count_eq_zero]
    intro taken
    have yes := (List.mem_filter.mp taken).2
    rw [asked] at yes
    exact absurd yes Bool.false_ne_true

private theorem running_take {s : St} (h : Running s) : Running (take s) := by
  rw [take]
  split
  · rename_i idle
    have waiting : outstanding { s with
        jobs := kinds.filter fun k => s.logs.egyIoPending k
        logs := { s.logs with egyIoPending := fun _ => false } } = outstanding s := by
      rw [outstanding, outstanding, idle, count_kinds]
      rfl
    refine h.alike ⟨rfl, rfl, rfl, rfl, id, rfl, rfl, rfl, waiting⟩ ?_ h.file ?_
    · intro waits
      exact (h.waits waits).1
    · rintro (none | taken)
      · exact absurd none Bool.false_ne_true
      · exact h.snap (.inl (List.mem_filter.mp taken).2)
  · exact h

private theorem running_job {s : St} (h : Running s) {k : EioKind} {rest : List EioKind}
    (jobs : s.jobs = k :: rest) (other : k ≠ .e15Arch) {file : Fin 2 → Option DayLog}
    (kept : ∃ f, file 0 = some f ∧ f.ts ≠ 0) : Running { s with file := file, jobs := rest } := by
  have waiting : outstanding { s with file := file, jobs := rest } = outstanding s := by
    rw [outstanding, outstanding, jobs, List.count_cons_of_ne other]
  refine h.alike ⟨rfl, rfl, rfl, rfl, id, rfl, rfl, rfl, waiting⟩ ?_ kept ?_
  · intro waits
    exact (h.waits waits).1
  · rintro (pending | queued)
    · exact h.snap (.inl pending)
    · refine h.snap (.inr ?_)
      rw [jobs]
      exact List.mem_cons_of_mem _ queued

private theorem running_append {s : St} (h : Running s) {rest : List EioKind}
    (jobs : s.jobs = .e15Arch :: rest) :
    Running { archiveEnergyLog15Day (s.logs.e15Snap 1) s with jobs := rest } := by
  have counts : outstanding s = outstanding { s with jobs := rest } + 1 := by
    rw [outstanding, outstanding, jobs, List.count_cons_self]
    rfl
  have one := h.one
  have before : outstanding s = 1 := by omega
  have after : outstanding { s with jobs := rest } = 0 := by omega
  obtain ⟨snap, set, began, earlier⟩ := h.waits before
  rw [snap]
  have appended := copies_append set s
  rw [archiveEnergyLog15Day, if_neg set] at appended ⊢
  have none : outstanding { s with
      archive := Function.update s.archive (yearMonth (s.logs.egy15.log 1).ts)
        (s.archive (yearMonth (s.logs.egy15.log 1).ts) ++ [s.logs.egy15.log 1])
      jobs := rest } = 0 := after
  refine ⟨h.slot, h.began, h.set, h.clock, h.mday, h.opened, h.latest, none.le.trans zero_le_one,
    ?_, ?_, ?_, h.file, ?_, h.lost⟩
  · intro waits
    rw [none] at waits
    exact absurd waits zero_ne_one
  · intro d opened
    rw [none]
    have archived := h.archived d opened
    have sum : ((if d = today s ∨ 1 = 1 ∧ d = yesterday s then 0 else 1) +
        if d = yesterday s then 1 else 0) =
          if d = today s ∨ 0 = 1 ∧ d = yesterday s then 0 else 1 := by
      by_cases last : d = yesterday s
      · have other : d ≠ today s := by omega
        simp [last, last ▸ other]
      · simp [last]
    rw [before] at archived
    refine (appended d).trans ?_
    rw [archived]
    exact sum
  · intro d unopened
    refine (appended d).trans ?_
    rw [h.unopened d unopened, if_neg]
    intro same
    exact unopened (same ▸ began)
  · rintro (pending | queued)
    · exact h.snap (.inl pending)
    · refine h.snap (.inr ?_)
      rw [jobs]
      exact List.mem_cons_of_mem _ queued

private theorem running_write {s : St} (h : Running s) : Running (write s) := by
  rw [write]
  cases jobs : s.jobs with
  | nil => exact h
  | cons k rest =>
    cases k with
    | elog0 => exact running_job h jobs (by decide) h.file
    | elog1 => exact running_job h jobs (by decide) h.file
    | e15Day0 =>
      refine running_job h jobs (by decide) ⟨s.logs.e15Snap 0, ?_, h.snap (.inr ?_)⟩
      · exact store_self s 0 _
      · rw [jobs]
        exact List.mem_cons_self
    | e15Day1 =>
      refine running_job h jobs (by decide) ?_
      obtain ⟨f, found, set⟩ := h.file
      exact ⟨f, (store_other s (by decide) _).trans found, set⟩
    | e15Arch => exact running_append h jobs

/-- Nothing is asked of the file task. -/
structure Idle (s : St) : Prop where
  jobs : s.jobs = []
  pending : ∀ k, s.logs.egyIoPending k = false

private theorem Idle.take {s : St} (h : Idle s) : take s = s := by
  have none : (fun _ => false) = s.logs.egyIoPending := by
    funext k
    exact (h.pending k).symm
  have empty : (kinds.filter fun k => s.logs.egyIoPending k) = [] := by
    rw [← none]
    rfl
  rw [Archive.take, if_pos h.jobs, empty, none, ← h.jobs]

private theorem Idle.write {s : St} (h : Idle s) : write s = s := by
  rw [Archive.write, h.jobs]

/-- The file of today holds a log of day `d`: all days are archived but `d` and a lost one. -/
structure Found (s : St) (d : Nat) : Prop where
  began : d ∈ s.opened
  clock : d ≤ day s.now
  latest : ∀ x ∈ s.opened, x ≤ day s.now
  last : s.lost = none → ∀ x ∈ s.opened, x ≤ d
  lost : ∀ x, s.lost = some x → x = day s.now ∧ x ≠ d
  archived : ∀ x ∈ s.opened, copies s x = if x = d ∨ s.lost = some x then 0 else 1

/-- What holds until the boot has looked at the date. -/
structure Loading (s : St) : Prop where
  set : s.now ≠ 0
  idle : Idle s
  unopened : ∀ d, d ∉ s.opened → copies s d = 0
  blank : s.file 0 = none → s.phase = .load0 ∧ s.opened = [] ∧ s.lost = none
  file : ∀ f, s.file 0 = some f → f.ts ≠ 0 ∧ Found s (day f.ts) ∧
    (s.phase ≠ .load0 → s.logs.egy15.log 0 = f)

/-- The trackers of the logs are those of the date the boot looked at. -/
structure Tracked (s : St) : Prop where
  slot : s.logs.egy15.lastQ < 96
  mday : s.logs.egy15.dayMday = (uLocalTime s.now).tmMday
  pendArch : s.logs.egy15.pendArch = false

/-- Today's log is stale, and about to be archived. -/
structure Stale (s : St) : Prop where
  loading : Loading s
  tracked : Tracked s
  stale : today s ≠ day s.now

/-- Every day begun is archived, and the log of the present one not set up. -/
structure Ending (s : St) : Prop where
  set : s.now ≠ 0
  idle : Idle s
  tracked : Tracked s
  unopened : ∀ d, d ∉ s.opened → copies s d = 0
  latest : ∀ d ∈ s.opened, d ≤ day s.now
  last : s.lost = none → day s.now ∉ s.opened
  lost : ∀ d, s.lost = some d → d = day s.now
  archived : ∀ d ∈ s.opened, copies s d = if s.lost = some d then 0 else 1

/-- The invariant, by phase. -/
def Holds (s : St) : Phase → Prop
  | .load0 => Loading s
  | .load1 => Loading s
  | .init => Loading s
  | .archive => Stale s
  | .store1 => Ending s
  | .reset => Ending s
  | .running => Running s

def Inv (s : St) : Prop := Holds s s.phase

private theorem Inv.at {s : St} (h : Inv s) {p : Phase} (phase : s.phase = p) : Holds s p := by
  rw [← phase]
  exact h

private theorem Inv.of {s : St} {p : Phase} (phase : s.phase = p) (h : Holds s p) : Inv s := by
  rw [Inv, phase]
  exact h

private theorem load_found {i : Fin 2} {s : St} {f : DayLog} (found : s.file i = some f) :
    load i s = s.setLog i f := by
  rw [load, found]

private theorem load_blank {i : Fin 2} {s : St} (blank : s.file i = none) :
    load i s = (s.store i (.empty s.now)).setLog i (.empty s.now) := by
  rw [load, blank]

private theorem loading_load0 {s : St} (h : Loading s) (phase : s.phase = .load0) (r : Reading) :
    Loading (bootStep r s) := by
  rw [bootStep, phase]
  dsimp only
  cases found : s.file 0 with
  | none =>
    obtain ⟨-, fresh, kept⟩ := h.blank found
    rw [load_blank found, fresh, Option.isNone_none, if_pos rfl]
    have zero : ∀ d, copies s d = 0 := by
      intro d
      refine h.unopened d ?_
      rw [fresh]
      exact List.not_mem_nil
    have stored := store_self s 0 (.empty s.now)
    refine ⟨h.set, ⟨h.idle.jobs, h.idle.pending⟩, fun d _ => zero d, ?_, ?_⟩
    · intro empty
      exact absurd (stored.symm.trans empty) (Option.some_ne_none _)
    · intro f now
      rw [← Option.some.inj (stored.symm.trans now)]
      refine ⟨h.set, ⟨List.mem_singleton.mpr rfl, le_rfl, ?_, ?_, ?_, ?_⟩, ?_⟩
      · intro d opened
        exact (List.mem_singleton.mp opened).le
      · intro _ d opened
        rw [List.mem_singleton.mp opened]
        exact le_rfl
      · intro d lost
        exact absurd (kept.symm.trans lost) (Option.some_ne_none _).symm
      · intro d opened
        rw [if_pos (.inl (List.mem_singleton.mp opened))]
        exact zero d
      · intro _
        exact setLog_self ..
  | some f =>
    obtain ⟨set, old, -⟩ := h.file f found
    rw [load_found found, Option.isNone_some, if_neg Bool.false_ne_true]
    refine ⟨h.set, ⟨h.idle.jobs, h.idle.pending⟩, h.unopened, ?_, ?_⟩
    · intro empty
      exact absurd (found.symm.trans empty) (Option.some_ne_none _)
    · intro g same
      rw [← Option.some.inj (found.symm.trans same)]
      refine ⟨set, ⟨old.began, old.clock, old.latest, old.last, old.lost, old.archived⟩, ?_⟩
      intro _
      exact setLog_self ..

private theorem Loading.found {s : St} (h : Loading s) (phase : s.phase ≠ .load0) :
    ∃ f, s.file 0 = some f := by
  cases found : s.file 0 with
  | none => exact absurd (h.blank found).1 phase
  | some f => exact ⟨f, rfl⟩

private theorem Loading.alike {s t : St} (h : Loading s) (beyond : s.phase ≠ .load0)
    (now : t.now = s.now) (archive : t.archive = s.archive) (opened : t.opened = s.opened)
    (lost : t.lost = s.lost) (file : t.file 0 = s.file 0)
    (log : t.logs.egy15.log 0 = s.logs.egy15.log 0) (idle : Idle t) : Loading t := by
  have copied : ∀ d, copies t d = copies s d := by
    intro d
    rw [copies, copies, archive]
  obtain ⟨f, found⟩ := h.found beyond
  obtain ⟨set, old, loaded⟩ := h.file f found
  refine ⟨now ▸ h.set, idle, ?_, ?_, ?_⟩
  · intro d unopened
    rw [copied]
    exact h.unopened d (opened ▸ unopened)
  · intro empty
    rw [file, found] at empty
    cases empty
  · intro g same
    rw [file, found] at same
    obtain rfl := Option.some.inj same
    refine ⟨set, ⟨?_, ?_, ?_, ?_, ?_, ?_⟩, fun _ => log.trans (loaded beyond)⟩
    · rw [opened]
      exact old.began
    · rw [now]
      exact old.clock
    · rw [opened, now]
      exact old.latest
    · rw [opened, lost]
      exact old.last
    · rw [lost, now]
      exact old.lost
    · rw [opened, lost]
      intro d began
      rw [copied]
      exact old.archived d began

private theorem loading_load1 {s : St} (h : Loading s) (phase : s.phase = .load1) (r : Reading) :
    Loading (bootStep r s) := by
  have beyond : s.phase ≠ .load0 := by
    rw [phase]
    decide
  have other : (0 : Fin 2) ≠ 1 := by decide
  rw [bootStep, phase]
  dsimp only
  cases absent : s.file 1 with
  | none =>
    rw [load_blank absent]
    exact h.alike beyond rfl rfl rfl rfl (store_other s other (.empty s.now))
      (setLog_other _ other _) ⟨h.idle.jobs, h.idle.pending⟩
  | some g =>
    rw [load_found absent]
    exact h.alike beyond rfl rfl rfl rfl rfl (setLog_other _ other _)
      ⟨h.idle.jobs, h.idle.pending⟩

private theorem inv_init {s : St} (h : Loading s) (phase : s.phase = .init) (r : Reading)
    (careful : day s.now = today s ∨ StaleDay s.now (s.logs.egy15.log 0)) :
    Inv (bootStep r s) := by
  have beyond : s.phase ≠ .load0 := by
    rw [phase]
    decide
  obtain ⟨f, found⟩ := h.found beyond
  obtain ⟨set, old, loaded⟩ := h.file f found
  have log := loaded beyond
  rw [bootStep, phase]
  dsimp only
  by_cases stale : StaleDay s.now (s.logs.egy15.log 0)
  · rw [if_pos stale]
    have loading : Loading { s with
        logs := initLogs s.now r s.logs.elog s.logs.egy15.log
        phase := .archive } :=
      h.alike beyond rfl rfl rfl rfl rfl rfl ⟨h.idle.jobs, fun _ => rfl⟩
    refine ⟨loading, ⟨quarter_lt s.now, rfl, rfl⟩, ?_⟩
    intro same
    have date : uLocalTime (s.logs.egy15.log 0).ts = uLocalTime s.now :=
      uLocalTime_of_day stale.1 h.set same
    rw [StaleDay, date] at stale
    exact stale.2.elim (fun other => other rfl) fun other => other rfl
  · rw [if_neg stale]
    have same : day s.now = today s := careful.resolve_right stale
    have todays : today s = day f.ts := congrArg (fun d : DayLog => day d.ts) log
    have began : (s.logs.egy15.log 0).ts ≠ 0 := by
      rw [log]
      exact set
    have none : s.lost = none := by
      cases lost : s.lost with
      | none => rfl
      | some d =>
        have other := old.lost d lost
        exact absurd (other.1.trans (same.trans todays)) other.2
    have waiting : outstanding { s with
        logs := initLogs s.now r s.logs.elog s.logs.egy15.log
        phase := .running } = 0 := by
      rw [outstanding, h.idle.jobs]
      rfl
    refine ⟨quarter_lt s.now, began, h.set, same.ge, ?_, ?_, ?_, ?_, ?_, ?_, h.unopened,
      ⟨f, found, set⟩, ?_, none⟩
    · exact congrArg Tm.tmMday (uLocalTime_of_day h.set began same)
    · exact todays ▸ old.began
    · intro d opened
      exact (old.last none d opened).trans todays.ge
    · exact waiting.le.trans zero_le_one
    · intro waits
      exact absurd (waiting.symm.trans waits) zero_ne_one
    · intro d opened
      refine (old.archived d opened).trans ?_
      rw [waiting]
      change _ = if d = today s ∨ 0 = 1 ∧ d = _ then 0 else 1
      simp [none, todays]
    · rintro (pending | queued)
      · exact absurd pending Bool.false_ne_true
      · rw [h.idle.jobs] at queued
        exact absurd queued List.not_mem_nil

private theorem ending_archive {s : St} (h : Stale s) (phase : s.phase = .archive) (r : Reading) :
    Ending (bootStep r s) := by
  have beyond : s.phase ≠ .load0 := by
    rw [phase]
    decide
  obtain ⟨f, found⟩ := h.loading.found beyond
  obtain ⟨set, old, loaded⟩ := h.loading.file f found
  have log := loaded beyond
  have later : day f.ts < day s.now := by
    refine Nat.lt_of_le_of_ne old.clock ?_
    have stale := h.stale
    rw [today, log] at stale
    exact stale
  have appended := copies_append set (s.setLog 1 f)
  rw [bootStep, phase]
  dsimp only
  rw [log, setLog_self]
  rw [archiveEnergyLog15Day, if_neg set] at appended ⊢
  refine ⟨h.loading.set, ⟨h.loading.idle.jobs, h.loading.idle.pending⟩,
    ⟨h.tracked.slot, h.tracked.mday, h.tracked.pendArch⟩, ?_, old.latest, ?_, ?_, ?_⟩
  · intro d unopened
    refine (appended d).trans ?_
    rw [if_neg]
    · exact h.loading.unopened d unopened
    · intro same
      exact unopened (same ▸ old.began)
  · intro none opened
    have last : day s.now ≤ day f.ts := old.last none _ opened
    omega
  · intro d lost
    exact (old.lost d lost).1
  · intro d opened
    refine (appended d).trans ?_
    have before : copies (s.setLog 1 f) d = if d = day f.ts ∨ s.lost = some d then 0 else 1 :=
      old.archived d opened
    rw [before]
    change _ = if s.lost = some d then 0 else 1
    by_cases own : d = day f.ts
    · have kept : s.lost ≠ some d := fun lost => (old.lost d lost).2 own
      rw [if_pos (.inl own), if_pos own, if_neg kept]
    · simp [own]

private theorem ending_store1 {s : St} (h : Ending s) (phase : s.phase = .store1) (r : Reading) :
    Ending (bootStep r s) := by
  rw [bootStep, phase]
  exact ⟨h.set, ⟨h.idle.jobs, h.idle.pending⟩, ⟨h.tracked.slot, h.tracked.mday, h.tracked.pendArch⟩,
    h.unopened, h.latest, h.last, h.lost, h.archived⟩

private theorem Ending.waiting {s : St} (h : Ending s) : outstanding s = 0 := by
  simp [outstanding, h.idle.jobs, h.idle.pending, h.tracked.pendArch]

private theorem running_reset {s : St} (h : Ending s) (phase : s.phase = .reset) (r : Reading) :
    Running (bootStep r s) := by
  rw [bootStep, phase]
  dsimp only
  have waiting : outstanding { (s.setLog 0 (.empty s.now)).store 0 (.empty s.now) with
      phase := .running
      opened := s.opened ++ [day s.now]
      lost := if s.lost = some (day s.now) then none else s.lost } = 0 := h.waiting
  have fresh : copies s (day s.now) = 0 := by
    by_cases opened : day s.now ∈ s.opened
    · rw [h.archived _ opened, if_pos]
      cases lost : s.lost with
      | none => exact absurd opened (h.last lost)
      | some d => rw [h.lost d lost]
    · exact h.unopened _ opened
  have stored := store_self s 0 (.empty s.now)
  have log := setLog_self s 0 (.empty s.now)
  have todays : today { (s.setLog 0 (.empty s.now)).store 0 (.empty s.now) with
      phase := .running
      opened := s.opened ++ [day s.now]
      lost := if s.lost = some (day s.now) then none else s.lost } = day s.now :=
    congrArg (fun d : DayLog => day d.ts) log
  refine ⟨h.tracked.slot, ?_, h.set, todays.le, ?_, ?_, ?_, ?_, ?_, ?_, ?_, ⟨_, stored, h.set⟩, ?_,
    ?_⟩
  · exact fun zero => h.set ((congrArg DayLog.ts log).symm.trans zero)
  · exact h.tracked.mday.trans (congrArg (fun d : DayLog => (uLocalTime d.ts).tmMday) log).symm
  · rw [todays]
    exact List.mem_append_right _ (List.mem_singleton.mpr rfl)
  · intro d opened
    rw [todays]
    rcases List.mem_append.mp opened with old | new
    · exact h.latest d old
    · exact (List.mem_singleton.mp new).le
  · exact waiting.le.trans zero_le_one
  · intro waits
    exact absurd (waiting.symm.trans waits) zero_ne_one
  · intro d opened
    rw [todays, waiting]
    change copies s d = _
    by_cases new : d = day s.now
    · rw [if_pos (.inl new), new]
      exact fresh
    · have old : d ∈ s.opened := by
        rcases List.mem_append.mp opened with old | added
        · exact old
        · exact absurd (List.mem_singleton.mp added) new
      have kept : s.lost ≠ some d := fun lost => new (h.lost d lost)
      rw [h.archived d old, if_neg kept]
      simp [new]
  · intro d unopened
    exact h.unopened d fun old => unopened (List.mem_append_left _ old)
  · rintro (pending | queued)
    · exact absurd ((h.idle.pending _).symm.trans pending) Bool.false_ne_true
    · exact absurd (h.idle.jobs ▸ queued) List.not_mem_nil
  · cases lost : s.lost with
    | none => simp
    | some d => simp [h.lost d lost]

private theorem Found.clock_on {s : St} {d : Nat} (h : Found s d) {now : UInt32}
    (later : s.now ≤ now) (stays : s.lost.isSome → day now = day s.now) :
    Found { s with now := now } d := by
  have onward : day s.now ≤ day now := Nat.div_le_div_right (UInt32.le_iff_toNat_le.mp later)
  refine ⟨h.began, h.clock.trans onward, ?_, h.last, ?_, h.archived⟩
  · intro x opened
    exact (h.latest x opened).trans onward
  · intro x lost
    have kept : s.lost = some x := lost
    refine ⟨?_, (h.lost x kept).2⟩
    change x = day now
    rw [stays (by rw [kept]; rfl)]
    exact (h.lost x kept).1

private theorem later_set {a b : UInt32} (set : a ≠ 0) (later : a ≤ b) : b ≠ 0 := by
  intro zero
  rw [zero] at later
  exact set (UInt32.le_antisymm later (UInt32.zero_le))

private theorem loading_clock {s : St} (h : Loading s) {now : UInt32} (later : s.now ≤ now)
    (stays : s.lost.isSome → day now = day s.now) : Loading { s with now := now } := by
  refine ⟨later_set h.set later, ⟨h.idle.jobs, h.idle.pending⟩, h.unopened, h.blank, ?_⟩
  intro f found
  obtain ⟨set, old, loaded⟩ := h.file f found
  exact ⟨set, old.clock_on later stays, loaded⟩

private theorem Tracked.clock_on {s : St} (h : Tracked s) {now : UInt32} (old : s.now ≠ 0)
    (new : now ≠ 0) (stays : day now = day s.now) : Tracked { s with now := now } := by
  refine ⟨h.slot, ?_, h.pendArch⟩
  change _ = (uLocalTime now).tmMday
  rw [uLocalTime_of_day new old stays]
  exact h.mday

private theorem ending_clock {s : St} (h : Ending s) {now : UInt32} (later : s.now ≤ now)
    (stays : day now = day s.now) : Ending { s with now := now } := by
  have new := later_set h.set later
  refine ⟨new, ⟨h.idle.jobs, h.idle.pending⟩, h.tracked.clock_on h.set new stays, h.unopened, ?_, ?_,
    ?_, h.archived⟩
  · intro d opened
    exact (h.latest d opened).trans stays.ge
  · intro none
    change day now ∉ s.opened
    rw [stays]
    exact h.last none
  · intro d lost
    exact (h.lost d lost).trans stays.symm

private theorem running_clock {s : St} (h : Running s) {now : UInt32} (later : s.now ≤ now) :
    Running { s with now := now } := by
  have onward : day s.now ≤ day now := Nat.div_le_div_right (UInt32.le_iff_toNat_le.mp later)
  exact ⟨h.slot, h.began, later_set h.set later, h.clock.trans onward, h.mday, h.opened, h.latest,
    h.one, h.waits, h.archived, h.unopened, h.file, h.snap, h.lost⟩

private theorem Loading.again {s : St} (h : Loading s) (before : s.phase ≠ .running) :
    Loading (reboot s) := by
  have kept : (reboot s).lost = s.lost := by
    rw [reboot]
    exact if_neg fun now => before now.1
  refine ⟨h.set, ⟨rfl, fun _ => rfl⟩, h.unopened, ?_, ?_⟩
  · intro empty
    obtain ⟨-, fresh, none⟩ := h.blank empty
    exact ⟨rfl, fresh, kept.trans none⟩
  · intro f found
    obtain ⟨set, old, -⟩ := h.file f found
    refine ⟨set, ⟨old.began, old.clock, old.latest, ?_, ?_, ?_⟩, ?_⟩
    · rw [kept]
      exact old.last
    · rw [kept]
      exact old.lost
    · rw [kept]
      exact old.archived
    · intro beyond
      exact absurd rfl beyond

private theorem loading_reboot {s : St} (h : Running s) (phase : s.phase = .running)
    (safe : SafeReboot s) : Loading (reboot s) := by
  obtain ⟨f, found, set⟩ := h.file
  have blank : s.file 0 ≠ none := by
    rw [found]
    exact Option.some_ne_none f
  rw [SafeReboot] at safe
  refine ⟨h.set, ⟨rfl, fun _ => rfl⟩, h.unopened, fun empty => absurd empty blank, ?_⟩
  intro g same
  rw [← Option.some.inj (found.symm.trans same)]
  refine ⟨set, ?_, fun beyond => absurd rfl beyond⟩
  split at safe
  · rename_i idle
    -- the file has the day of today's log
    have own : day f.ts = today s := safe f found
    have kept : (reboot s).lost = none := by
      rw [reboot]
      exact (if_neg fun lost => lost.2 safe).trans h.lost
    rw [own]
    refine ⟨h.opened, h.clock, fun x opened => (h.latest x opened).trans h.clock,
      fun _ => h.latest, ?_, ?_⟩
    · intro x lost
      exact absurd (kept.symm.trans lost) (Option.some_ne_none _).symm
    · intro x opened
      refine (h.archived x opened).trans ?_
      rw [kept, idle]
      simp
  · rename_i busy
    -- the file has the day that waits, and today's log is lost
    have one := h.one
    have waits : outstanding s = 1 := by omega
    obtain ⟨-, -, began, earlier⟩ := h.waits waits
    obtain ⟨older, current⟩ := safe
    have own : day f.ts = yesterday s := older f found
    have other : ¬FileDay s (today s) := by
      intro todays
      have both := (todays f found).symm.trans own
      omega
    have lost : (reboot s).lost = some (today s) := by
      rw [reboot]
      exact if_pos ⟨phase, other⟩
    rw [own]
    refine ⟨began, (earlier.le.trans h.clock), fun x opened => (h.latest x opened).trans h.clock,
      ?_, ?_, ?_⟩
    · intro none
      exact absurd (none.symm.trans lost) (Option.some_ne_none _).symm
    · intro x taken
      rw [← Option.some.inj (lost.symm.trans taken)]
      exact ⟨current.symm, earlier.ne'⟩
    · intro x opened
      refine (h.archived x opened).trans ?_
      rw [lost, waits]
      simp [or_comm, eq_comm]

private theorem inv_initial {now : UInt32} (set : now ≠ 0) : Inv (initial now) := by
  refine ⟨set, ⟨rfl, fun _ => rfl⟩, fun _ _ => rfl, fun _ => ⟨rfl, rfl, rfl⟩, ?_⟩
  intro f found
  cases found

private theorem inv_clock {s : St} (h : Inv s) {now : UInt32} (careful : Careful s (.clock now)) :
    Inv (step s (.clock now)) := by
  obtain ⟨later, stays⟩ := careful
  cases phase : s.phase with
  | load0 | load1 | init =>
    have loading : Loading s := h.at phase
    have clocked := loading_clock loading later fun lost => stays (.inr (.inr (.inr lost)))
    exact .of phase clocked
  | archive =>
    obtain ⟨loading, tracked, stale⟩ : Stale s := h.at phase
    have same := stays (.inl phase)
    have clocked := tracked.clock_on loading.set (later_set loading.set later) same
    refine .of phase ⟨loading_clock loading later fun _ => same, clocked, ?_⟩
    intro current
    exact stale (current.trans same)
  | store1 =>
    have ending : Ending s := h.at phase
    exact .of phase (ending_clock ending later (stays (.inr (.inl phase))))
  | reset =>
    have ending : Ending s := h.at phase
    exact .of phase (ending_clock ending later (stays (.inr (.inr (.inl phase)))))
  | running =>
    have running : Running s := h.at phase
    exact .of phase (running_clock running later)

private theorem inv_scan {s : St} (h : Inv s) (r : Reading) (careful : Careful s (.scan r)) :
    Inv (step s (.scan r)) := by
  rw [step]
  split
  · rename_i phase
    have running : Running s := h.at phase
    exact .of phase (running_scan running r (careful phase))
  · exact h

private theorem Inv.idle {s : St} (h : Inv s) (before : s.phase ≠ .running) : Idle s := by
  cases phase : s.phase with
  | load0 | load1 | init =>
    have loading : Loading s := h.at phase
    exact loading.idle
  | archive =>
    have stale : Stale s := h.at phase
    exact stale.loading.idle
  | store1 | reset =>
    have ending : Ending s := h.at phase
    exact ending.idle
  | running => exact absurd phase before

private theorem take_phase (s : St) : (take s).phase = s.phase := by
  rw [take]
  split
  · rfl
  · rfl

private theorem write_fields (s : St) : (write s).logs = s.logs ∧ (write s).jobs = s.jobs.tail ∧
    (write s).opened = s.opened ∧ (write s).phase = s.phase := by
  rw [write]
  cases jobs : s.jobs with
  | nil => exact ⟨rfl, jobs, rfl, rfl⟩
  | cons k rest =>
    cases k with
    | e15Arch =>
      dsimp only
      rw [perform, archiveEnergyLog15Day]
      split
      · exact ⟨rfl, rfl, rfl, rfl⟩
      · exact ⟨rfl, rfl, rfl, rfl⟩
    | _ => exact ⟨rfl, rfl, rfl, rfl⟩

private theorem inv_take {s : St} (h : Inv s) : Inv (take s) := by
  by_cases phase : s.phase = .running
  · have running : Running s := h.at phase
    exact .of ((take_phase s).trans phase) (running_take running)
  · rw [(h.idle phase).take]
    exact h

private theorem inv_write {s : St} (h : Inv s) : Inv (write s) := by
  by_cases phase : s.phase = .running
  · have running : Running s := h.at phase
    exact .of ((write_fields s).2.2.2.trans phase) (running_write running)
  · rw [(h.idle phase).write]
    exact h

private theorem inv_boot {s : St} (h : Inv s) (r : Reading) (careful : Careful s (.boot r)) :
    Inv (bootStep r s) := by
  cases phase : s.phase with
  | load0 =>
    have loading : Loading s := h.at phase
    have next : (bootStep r s).phase = .load1 := by rw [bootStep, phase]
    exact .of next (loading_load0 loading phase r)
  | load1 =>
    have loading : Loading s := h.at phase
    have next : (bootStep r s).phase = .init := by rw [bootStep, phase]
    exact .of next (loading_load1 loading phase r)
  | init =>
    have loading : Loading s := h.at phase
    exact inv_init loading phase r (careful phase)
  | archive =>
    have stale : Stale s := h.at phase
    have next : (bootStep r s).phase = .store1 := by rw [bootStep, phase]
    exact .of next (ending_archive stale phase r)
  | store1 =>
    have ending : Ending s := h.at phase
    have next : (bootStep r s).phase = .reset := by rw [bootStep, phase]
    exact .of next (ending_store1 ending phase r)
  | reset =>
    have ending : Ending s := h.at phase
    have next : (bootStep r s).phase = .running := by rw [bootStep, phase]
    exact .of next (running_reset ending phase r)
  | running =>
    rw [bootStep, phase]
    exact h

private theorem inv_reboot {s : St} (h : Inv s) (careful : Careful s .reboot) :
    Inv (reboot s) := by
  have restart : Loading (reboot s) → Inv (reboot s) := by
    intro loading
    have first : (reboot s).phase = .load0 := rfl
    exact .of first loading
  cases phase : s.phase with
  | load0 | load1 | init =>
    have loading : Loading s := h.at phase
    refine restart (loading.again ?_)
    rw [phase]
    decide
  | archive =>
    have stale : Stale s := h.at phase
    refine restart (stale.loading.again ?_)
    rw [phase]
    decide
  | store1 => exact absurd phase careful.1
  | reset => exact absurd phase careful.2.1
  | running =>
    have running : Running s := h.at phase
    exact restart (loading_reboot running phase (careful.2.2 phase))

private theorem inv_step (s : St) (e : Event) (h : Inv s) (careful : Careful s e) :
    Inv (step s e) := by
  cases e with
  | clock now => exact inv_clock h careful
  | scan r => exact inv_scan h r careful
  | take => exact inv_take h
  | write => exact inv_write h
  | boot r => exact inv_boot h r careful
  | reboot => exact inv_reboot h careful

private theorem Inv.once {s : St} (h : Inv s) (d : Nat) : copies s d ≤ 1 := by
  have split : ∀ {c : Prop} [Decidable c], copies s d = (if c then 0 else 1) → copies s d ≤ 1 := by
    intro c _ same
    rw [same]
    split
    · exact zero_le_one
    · exact le_rfl
  have loaded : Loading s → copies s d ≤ 1 := by
    intro loading
    by_cases opened : d ∈ s.opened
    · cases found : s.file 0 with
      | none => exact absurd ((loading.blank found).2.1 ▸ opened) List.not_mem_nil
      | some f => exact split ((loading.file f found).2.1.archived d opened)
    · exact (loading.unopened d opened).le.trans zero_le_one
  have ended : Ending s → copies s d ≤ 1 := by
    intro ending
    by_cases opened : d ∈ s.opened
    · exact split (ending.archived d opened)
    · exact (ending.unopened d opened).le.trans zero_le_one
  cases phase : s.phase with
  | load0 | load1 | init => exact loaded (h.at phase)
  | archive =>
    have stale : Stale s := h.at phase
    exact loaded stale.loading
  | store1 | reset => exact ended (h.at phase)
  | running =>
    have running : Running s := h.at phase
    by_cases opened : d ∈ s.opened
    · exact split (running.archived d opened)
    · exact (running.unopened d opened).le.trans zero_le_one

private theorem writes_fields (s : St) (n : Nat) :
    (run step s (List.replicate n .write)).logs = s.logs ∧
      (run step s (List.replicate n .write)).jobs = s.jobs.drop n ∧
      (run step s (List.replicate n .write)).opened = s.opened ∧
      (run step s (List.replicate n .write)).phase = s.phase := by
  induction n generalizing s with
  | zero => exact ⟨rfl, rfl, rfl, rfl⟩
  | succ n ih =>
    obtain ⟨logs, jobs, opened, phase⟩ := ih (write s)
    obtain ⟨logs', jobs', opened', phase'⟩ := write_fields s
    rw [List.replicate_succ, run_cons]
    refine ⟨logs.trans logs', jobs.trans ?_, opened.trans opened', phase.trans phase'⟩
    rw [jobs', List.drop_tail]

private theorem short_step (s : St) (e : Event) (short : s.jobs.length ≤ 5) :
    (step s e).jobs.length ≤ 5 := by
  cases e with
  | clock now => exact short
  | scan r =>
    rw [step]
    split
    · exact short
    · exact short
  | take =>
    rw [step, take]
    split
    · exact List.length_filter_le _ kinds
    · exact short
  | write =>
    rw [step, (write_fields s).2.1, List.length_tail]
    omega
  | boot r =>
    have same : (bootStep r s).jobs = s.jobs := by
      rw [bootStep]
      split
      · dsimp only
        rw [load]
        split
        · rfl
        · rfl
      · dsimp only
        rw [load]
        split
        · rfl
        · rfl
      · rfl
      · dsimp only
        rw [archiveEnergyLog15Day]
        split
        · rfl
        · rfl
      · rfl
      · rfl
      · rfl
    rw [step, same]
    exact short
  | reboot => exact Nat.zero_le _

private theorem short_run {now : UInt32} (es : List Event) :
    (run step (initial now) es).jobs.length ≤ 5 :=
  always_run (I := fun s : St => s.jobs.length ≤ 5) (s := initial now) short_step (Nat.zero_le 5) es

/-- A scan, and what the file task has to do before and after it looks for jobs. -/
def round (r : Reading) : List Event :=
  .scan r :: (List.replicate 5 .write ++ .take :: List.replicate 5 .write)

private theorem along_writes (s : St) (n : Nat) :
    Along step Careful s (List.replicate n .write) := by
  induction n generalizing s with
  | zero => trivial
  | succ n ih => exact ⟨trivial, ih _⟩

private theorem round_careful {s : St} (current : day s.now = today s) (r : Reading) :
    Along step Careful s (round r) := by
  refine ⟨fun _ _ => .inl current, ?_⟩
  rw [along_append]
  exact ⟨along_writes _ 5, trivial, along_writes _ 5⟩

private theorem scanStore_days (now : UInt32) (l : Logs) :
    (scanStore now l).egy15.log = l.egy15.log ∧
      (scanStore now l).egy15.dayStartTick = l.egy15.dayStartTick := by
  rw [scanStore]
  split
  · exact ⟨rfl, rfl⟩
  · exact ⟨rfl, rfl⟩

private theorem scanArchive_days {now : UInt32} {l : Logs}
    (due : 180 ≤ now - l.egy15.dayStartTick) :
    (scanArchive now l).egy15.log = l.egy15.log ∧ (scanArchive now l).egy15.pendArch = false := by
  rw [scanArchive]
  split
  · exact ⟨rfl, rfl⟩
  · rename_i early
    refine ⟨rfl, ?_⟩
    cases pending : l.egy15.pendArch with
    | true => exact absurd ⟨pending, due⟩ early
    | false => rfl

private theorem scan_within {s : St} (h : Running s) (current : day s.now = today s)
    (due : 180 ≤ s.now - s.logs.egy15.dayStartTick) (r : Reading) :
    (scan r s).logs.egy15.pendArch = false ∧ (scan r s).opened = s.opened ∧
      today (scan r s) = today s := by
  have stays : ¬Turns s.now s.logs := by
    intro turns
    have date := uLocalTime_of_day h.set h.began current
    exact turns.2.2 (h.mday.trans (congrArg Tm.tmMday date).symm)
  have hour := scanHour_sameDays s.now r s.logs
  have hourly : ¬Turns s.now (scanHour s.now r s.logs) := by
    rw [Turns, QuarterDue, scanHour_egy15]
    exact stays
  have began : ((scanHour s.now r s.logs).egy15.log 0).ts ≠ 0 := by
    rw [hour.began]
    exact h.began
  have quarter := scanQuarter_sameDays (hour.slot h.slot) began hourly r
  have store := scanStore_days s.now (scanQuarter s.now r (scanHour s.now r s.logs))
  have late : 180 ≤ s.now - (scanStore s.now (scanQuarter s.now r
      (scanHour s.now r s.logs))).egy15.dayStartTick := by
    rw [store.2, quarter.start, hour.start]
    exact due
  have archive := scanArchive_days late
  refine ⟨archive.2, if_neg stays, ?_⟩
  rw [today, scan, scanLogs]
  dsimp only
  rw [archive.1, store.1, quarter.began, hour.began]
  rfl

private theorem round_done {s : St} (h : Running s) (phase : s.phase = .running)
    (short : s.jobs.length ≤ 5) (current : day s.now = today s)
    (due : 180 ≤ s.now - s.logs.egy15.dayStartTick) (r : Reading) :
    outstanding (run step s (round r)) = 0 ∧ (run step s (round r)).opened = s.opened ∧
      today (run step s (round r)) = today s ∧ (run step s (round r)).phase = .running := by
  obtain ⟨asked, opened, same⟩ := scan_within h current due r
  have scanned : step s (.scan r) = scan r s := by rw [step, if_pos phase]
  rw [round, run_cons, scanned, run_append, run_cons]
  obtain ⟨logs₁, jobs₁, opened₁, phase₁⟩ := writes_fields (scan r s) 5
  generalize run step (scan r s) (List.replicate 5 .write) = t at logs₁ jobs₁ opened₁ phase₁
  have idle : t.jobs = [] := by
    rw [jobs₁, List.drop_eq_nil_iff]
    exact short
  have taken : step t .take = { t with
      jobs := kinds.filter fun k => t.logs.egyIoPending k
      logs := { t.logs with egyIoPending := fun _ => false } } := by
    rw [step, take, if_pos idle]
  rw [taken]
  obtain ⟨logs₂, jobs₂, opened₂, phase₂⟩ := writes_fields { t with
      jobs := kinds.filter fun k => t.logs.egyIoPending k
      logs := { t.logs with egyIoPending := fun _ => false } } 5
  generalize run step _ (List.replicate 5 Event.write) = u at logs₂ jobs₂ opened₂ phase₂
  dsimp only at logs₂ jobs₂ opened₂ phase₂
  have done : u.jobs = [] := by
    rw [jobs₂, List.drop_eq_nil_iff]
    exact List.length_filter_le _ kinds
  refine ⟨?_, opened₂.trans (opened₁.trans opened), ?_, phase₂.trans (phase₁.trans phase)⟩
  · rw [outstanding, done, logs₂]
    dsimp only
    rw [logs₁, asked]
    rfl
  · rw [today, logs₂]
    dsimp only
    rw [logs₁]
    exact same

def Phase.left : Phase → Nat
  | .load0 => 6
  | .load1 => 5
  | .init => 4
  | .archive => 3
  | .store1 => 2
  | .reset => 1
  | .running => 0

private theorem bootStep_left (s : St) (r : Reading) :
    (bootStep r s).phase.left ≤ s.phase.left - 1 := by
  rw [bootStep]
  cases phase : s.phase with
  | init =>
    dsimp only
    split
    · exact le_rfl
    · exact Nat.zero_le _
  | running => rw [phase]; exact le_rfl
  | _ => exact le_rfl

private theorem boots_left (s : St) (r : Reading) (n : Nat) :
    (run step s (List.replicate n (.boot r))).phase.left ≤ s.phase.left - n := by
  induction n generalizing s with
  | zero => exact le_rfl
  | succ n ih =>
    have later := ih (bootStep r s)
    have first := bootStep_left s r
    rw [List.replicate_succ, run_cons, step]
    omega

private theorem boots_end (s : St) (r : Reading) :
    (run step s (List.replicate 6 (.boot r))).phase = .running := by
  have most : s.phase.left ≤ 6 := by
    cases s.phase
    all_goals decide
  have left := boots_left s r 6
  cases phase : (run step s (List.replicate 6 (.boot r))).phase with
  | running => rfl
  | _ =>
    rw [phase, Phase.left] at left
    omega

/-- In every careful run no day is archived twice; while the scans run each day begun before the
present one is archived, but for yesterday while its job is outstanding; and three minutes into a
day a scan and the file task's work on it archive that one.  A boot of six steps ends. -/
theorem careful_runs_archive {now : UInt32} (set : now ≠ 0) {es : List Event}
    (careful : Along step Careful (initial now) es) :
    let s := run step (initial now) es
    (∀ d, copies s d ≤ 1) ∧
      (s.phase = .running → ∀ d ∈ s.opened, d < today s →
        copies s d = if outstanding s = 1 ∧ d = yesterday s then 0 else 1) ∧
      (s.phase = .running → day s.now = today s → 180 ≤ s.now - s.logs.egy15.dayStartTick →
        ∀ r, ∀ d ∈ s.opened, d < today s → copies (run step s (round r)) d = 1) ∧
      ∀ r, (run step s (List.replicate 6 (.boot r))).phase = .running := by
  intro s
  have inv : Inv s := invariant_run inv_step (inv_initial set) careful
  refine ⟨inv.once, ?_, ?_, boots_end s⟩
  · intro phase d opened earlier
    have running : Running s := inv.at phase
    rw [running.archived d opened]
    simp [earlier.ne]
  · intro phase current due r d opened earlier
    have running : Running s := inv.at phase
    obtain ⟨done, opened', same, phase'⟩ :=
      round_done running phase (short_run es) current due r
    have after : Inv (run step s (round r)) :=
      invariant_run inv_step inv (round_careful current r)
    have ends : Running (run step s (round r)) := after.at phase'
    rw [ends.archived d (opened' ▸ opened), done, same]
    simp [earlier.ne]

def noon : UInt32 := 1790856000
def reading : Reading := fun _ => 0

def boots (n : Nat) : List Event := List.replicate n (.boot reading)

def scans (ts : List UInt32) : List Event :=
  ts.flatMap fun t => [.clock (noon + t), .scan reading]

/-- A day ends, a reboot takes the next day's log and archives the first at boot; the next day ends
and is archived by the file task. -/
def twoDays : List Event :=
  boots 3 ++ [.reboot] ++ boots 3 ++ scans [43140, 43200] ++
    [.clock (noon + 43230), .reboot, .clock (noon + 43260)] ++ boots 6 ++
    scans [129540, 129600] ++ [.clock (noon + 129790)]

theorem two_days_archived :
    let s := run step (initial noon) twoDays
    (copies s 20727 = 1 ∧ copies s 20728 = 0) ∧ copies (run step s (round reading)) 20728 = 1 := by
  have careful : Along step Careful (initial noon) twoDays := by decide +kernel
  have all := careful_runs_archive (show noon ≠ 0 by decide) careful
  have facts : let s := run step (initial noon) twoDays
      (s.phase = .running ∧ outstanding s = 1 ∧ yesterday s = 20728 ∧ s.opened.contains 20727 ∧
        s.opened.contains 20728 ∧ today s = 20729) ∧
      day s.now = today s ∧ 180 ≤ s.now - s.logs.egy15.dayStartTick := by decide +kernel
  dsimp only at all facts ⊢
  generalize run step (initial noon) twoDays = s at all facts ⊢
  obtain ⟨⟨phase, waits, last, first, second, current⟩, within⟩ := facts
  obtain ⟨-, archived, done, -⟩ := all
  have day1 : 20727 ∈ s.opened := List.contains_iff_mem.mp first
  have day2 : 20728 ∈ s.opened := List.contains_iff_mem.mp second
  refine ⟨⟨?_, ?_⟩, ?_⟩
  · rw [archived phase 20727 day1 (by omega), last, if_neg (by omega)]
  · rw [archived phase 20728 day2 (by omega), last, if_pos ⟨waits, rfl⟩]
  · exact done phase within.1 within.2 reading 20728 day2 (by omega)

/-- The clock does not go back. -/
def Onward (s : St) : Event → Prop
  | .clock now => s.now ≤ now
  | _ => True

instance (s : St) : ∀ e, Decidable (Onward s e)
  | .clock now => inferInstanceAs (Decidable (s.now ≤ now))
  | .scan _ => .isTrue trivial
  | .take => .isTrue trivial
  | .write => .isTrue trivial
  | .boot _ => .isTrue trivial
  | .reboot => .isTrue trivial

/-- A reboot between the storing of a new day at 0:02 and the archiving at 0:03. -/
def rebootAtNight : List Event :=
  boots 3 ++ scans [43140, 43200, 43320] ++ round reading ++ [.reboot] ++ boots 3

/-- A reboot in the boot that archives a stale day, before the new one is stored. -/
def rebootAtBoot : List Event :=
  boots 3 ++ [.reboot, .clock (noon + 72000)] ++ boots 4 ++ [.reboot] ++ boots 6

/-- Clock onward, a day is skipped, or archived twice. -/
theorem day_skipped_or_doubled :
    (Along step Onward (initial noon) rebootAtNight ∧
      let s := run step (initial noon) rebootAtNight
      s.phase = .running ∧ 20727 ∈ s.opened ∧ 20727 < today s ∧ outstanding s = 0 ∧
        copies s 20727 = 0) ∧
    Along step Onward (initial noon) rebootAtBoot ∧
      copies (run step (initial noon) rebootAtBoot) 20727 = 2 := by
  decide +kernel

end SV300.Energy.Archive
