/- SV300/Quality/Window
   digest: When the weekly window follows the clock and no week's record is started twice. -/

import SV300.Library.Runs
import SV300.Quality.Update

set_option autoImplicit false
set_option relaxedAutoImplicit false

namespace SV300.Quality.Window

open SV300.Clock
open SV300.Library.Runs
open SV300.Quality.Week
open SV300.Quality.QwFile (WeekFile)
open SV300.Quality.Update

/-- The first day of a tick's week, counted as the clock counts days. -/
def weekStart (startDay : UInt16) (utc : UInt32) : Nat :=
  utc.toNat / 86400 - (weekDays startDay utc).toNat

/-- The clock's week starts after the first day of the clock and ends within its range. -/
def WeekInRange (startDay : UInt16) (now : UInt32) : Prop :=
  (weekDays startDay now).toNat < now.toNat / 86400 ∧
    (weekStart startDay now + 7) * 86400 < 2 ^ 32

instance (startDay : UInt16) (now : UInt32) : Decidable (WeekInRange startDay now) :=
  inferInstanceAs (Decidable (_ ∧ _))

private theorem weekDays_eq (startDay : UInt16) {utc : UInt32} (set : utc ≠ 0) :
    ∃ sd ≤ 6, (weekDays startDay utc).toNat = ((utc.toNat / 86400 + 4) % 7 + 7 - sd) % 7 ∧
      ∀ u : UInt32, u ≠ 0 →
        (weekDays startDay u).toNat = ((u.toNat / 86400 + 4) % 7 + 7 - sd) % 7 := by
  have six : (6 : UInt16).toNat = 6 := rfl
  have days : ∀ u : UInt32, u ≠ 0 → (weekDays startDay u).toNat =
      ((u.toNat / 86400 + 4) % 7 + 7 - if 6 < startDay then 0 else startDay.toNat) % 7 := by
    intro u set
    rw [weekDays, tmWday, if_neg set, UInt32.toNat_ofNat']
    generalize (if 6 < startDay then 0 else startDay.toNat) = sd
    have short : ((u.toNat / 86400 + 4) % 7 + 7 - sd) % 7 < 7 := Nat.mod_lt _ (by decide)
    omega
  refine ⟨if 6 < startDay then 0 else startDay.toNat, ?_, days utc set, days⟩
  split
  · omega
  · rename_i small
    rw [UInt16.lt_iff_toNat_lt, six] at small
    omega

private theorem weekFN_same {startDay : UInt16} {u v : UInt32}
    (inu : (weekDays startDay u).toNat < u.toNat / 86400)
    (inv : (weekDays startDay v).toNat < v.toNat / 86400)
    (same : weekStart startDay u = weekStart startDay v) :
    getQualWeekFN startDay u = getQualWeekFN startDay v := by
  have back : ∀ t : UInt32, (weekDays startDay t).toNat < t.toNat / 86400 →
      (t - weekDays startDay t * 24 * 3600).toNat / 86400 = weekStart startDay t ∧
        t - weekDays startDay t * 24 * 3600 ≠ 0 := by
    intro t within
    have small := t.toNat_lt
    have hours : (24 : UInt32).toNat = 24 := rfl
    have seconds : (3600 : UInt32).toNat = 3600 := rfl
    have offset : (weekDays startDay t * 24 * 3600).toNat =
        (weekDays startDay t).toNat * 86400 := by
      rw [UInt32.toNat_mul, UInt32.toNat_mul, hours, seconds]
      omega
    have start : (t - weekDays startDay t * 24 * 3600).toNat =
        t.toNat - (weekDays startDay t).toNat * 86400 := by
      rw [UInt32.toNat_sub_of_le, offset]
      rw [UInt32.le_iff_toNat_le, offset]
      omega
    refine ⟨?_, ?_⟩
    · rw [start, weekStart]
      omega
    · intro none
      rw [none] at start
      have zero : (0 : UInt32).toNat = 0 := rfl
      omega
  obtain ⟨dayu, setu⟩ := back u inu
  obtain ⟨dayv, setv⟩ := back v inv
  exact uLocalTime_of_day setu setv (by rw [dayu, dayv, same])

private theorem newWeek_window {F : Type} [Measure F] {startDay : UInt16} {now : UInt32}
    (range : WeekInRange startDay now) :
    InWindow now (newWeek startDay now : QualWeek F) ∧
      ∀ u, InWindow u (newWeek startDay now : QualWeek F) →
        getQualWeekFN startDay u = getQualWeekFN startDay now := by
  obtain ⟨early, late⟩ := range
  have set : now ≠ 0 := by
    intro none
    rw [none] at early
    have zero : (0 : UInt32).toNat = 0 := rfl
    omega
  obtain ⟨sd, le, days, others⟩ := weekDays_eq startDay set
  have seven : (7 : UInt32).toNat = 7 := rfl
  have day : (86400 : UInt32).toNat = 86400 := rfl
  have small := now.toNat_lt
  have short : weekDays startDay now ≤ 7 := by
    rw [UInt32.le_iff_toNat_le, seven, days]
    omega
  have rest : ((7 - weekDays startDay now) * 86400).toNat =
      (7 - (weekDays startDay now).toNat) * 86400 := by
    rw [UInt32.toNat_mul, UInt32.toNat_sub_of_le _ _ short, seven, day]
    omega
  have midnight : (mktimeMidnight now).toNat = now.toNat / 86400 * 86400 := by
    rw [mktimeMidnight, if_neg set, UInt32.toNat_ofNat']
    omega
  rw [weekStart] at late
  have end_ : (getQualWeekEndTs startDay now).toNat = (weekStart startDay now + 7) * 86400 := by
    rw [getQualWeekEndTs, UInt32.toNat_add, midnight, rest, weekStart]
    omega
  rw [weekStart] at end_
  constructor
  · refine ⟨UInt32.le_refl now, ?_⟩
    rw [UInt32.lt_iff_toNat_lt]
    change _ < (getQualWeekEndTs startDay now).toNat
    rw [end_]
    omega
  · rintro u ⟨after, before⟩
    rw [UInt32.le_iff_toNat_le] at after
    rw [UInt32.lt_iff_toNat_lt] at before
    change now.toNat ≤ _ at after
    change _ < (getQualWeekEndTs startDay now).toNat at before
    rw [end_] at before
    have setu : u ≠ 0 := by
      intro none
      rw [none] at after
      have zero : (0 : UInt32).toNat = 0 := rfl
      omega
    have daysu := others u setu
    refine weekFN_same ?_ early ?_
    · omega
    · rw [weekStart, weekStart]
      omega

variable {F : Type} [Measure F]

/-- The update ends ten minutes that count for the week. -/
def Flushes (smp : Sample F) (s : Sys F) : Prop :=
  Due10m s.sysTick1s (sampled smp s).log ∧ smp.active = true

/-- There is a record of the week with a file name: in RAM, in a file or on its way to one. -/
def HasRecord (s : Sys F) (name : FileName) : Prop :=
  s.log.qwfn = name ∨ (s.files name).isSome ∨
    (s.pqIoJob.pending = true ∧
      (s.pqIoJob.qwfn = name ∨ (s.pqIoJob.rollover = true ∧ s.pqIoJob.newQwfn = name)))

/-- After an update that counts for the week the window holds the clock and has its file's name,
and the record of the clock's week, if there is one, was added to.  The file task replaces no file
by a new one. -/
def WeekKept (s : Sys F) : Event F → Prop
  | .update smp => Flushes smp s →
      let t := updateQualData smp s
      InWindow s.sysTick1s t.log.qw ∧
        (∀ u, InWindow u t.log.qw → getQualWeekFN s.startDay u = t.log.qwfn) ∧
        (HasRecord s (getQualWeekFN s.startDay s.sysTick1s) →
          ∃ n, t.log.qw = { addedWeek (checked smp s) with evtCount := n })
  | .pqIoTick => ∀ name f, s.files name = some f →
      (pqIoTick s).files name = some f ∨
        (pqIoTick s).files name = some (f.update s.pqIoJob.weekSnap s.pqIoJob.ev)
  | _ => True

/-- An update that counts for the week finds the clock in the window of the record, or in a week
without a record that lies within the range of the clock. -/
def Orderly (s : Sys F) : Event F → Prop
  | .update smp => Flushes smp s →
      InWindow s.sysTick1s s.log.qw ∨
        (¬HasRecord s (getQualWeekFN s.startDay s.sysTick1s) ∧
          WeekInRange s.startDay s.sysTick1s)
  | _ => True

/-- The invariant: the window lies in the week of its file's name, and a new file on its way has a
name no other file has. -/
structure Placed (s : Sys F) : Prop where
  window : ∀ u, InWindow u s.log.qw → getQualWeekFN s.startDay u = s.log.qwfn
  unused : s.pqIoJob.pending = true → s.pqIoJob.rollover = true →
    s.files s.pqIoJob.newQwfn = none ∧ s.pqIoJob.qwfn ≠ s.pqIoJob.newQwfn

/-- The parts of the state that the statistics do not touch. -/
structure SameWeek (s t : Sys F) : Prop where
  sysTick1s : t.sysTick1s = s.sysTick1s
  startDay : t.startDay = s.startDay
  qw : t.log.qw = s.log.qw
  qwfn : t.log.qwfn = s.log.qwfn
  pqIoJob : t.pqIoJob = s.pqIoJob
  files : t.files = s.files

private theorem sampled_same (smp : Sample F) (s : Sys F) : SameWeek s (sampled smp s) := by
  have log : (sampled smp s).log.qw = s.log.qw ∧ (sampled smp s).log.qwfn = s.log.qwfn := by
    have eq : (sampled smp s).log = average smp (check10s s.sysTick1s smp (collect smp s.log)) := rfl
    rw [eq, check10s]
    split
    all_goals exact ⟨rfl, rfl⟩
  exact ⟨rfl, rfl, log.1, log.2, rfl, rfl⟩

private theorem checked_same (smp : Sample F) (s : Sys F) : SameWeek s (checked smp s) := by
  have same := sampled_same smp s
  exact ⟨rfl, rfl, same.qw, same.qwfn, rfl, rfl⟩

private theorem addedWeek_window (s : Sys F) :
    (addedWeek s).startTs = (if s.log.qw.startTs = 0 then s.sysTick1s else s.log.qw.startTs) ∧
      (addedWeek s).endTs = s.log.qw.endTs := by
  rw [addedWeek, updateQualWeek, judge]
  split
  all_goals exact ⟨rfl, rfl⟩

/-- A job that was handed over, or the pending one. -/
def Handed (s t : Sys F) (rollover : Bool) : Prop :=
  (s.pqIoJob.pending = true ∧ t.pqIoJob = s.pqIoJob) ∨
    (t.pqIoJob.pending = true ∧ t.pqIoJob.rollover = rollover ∧
      t.pqIoJob.qwfn = s.log.qwfn ∧ (rollover = true → t.pqIoJob.newQwfn = t.log.qwfn))

theorem continueWeek_spec (s : Sys F) :
    (∃ n, (continueWeek s).log.qw = { addedWeek s with evtCount := n }) ∧
      (continueWeek s).log.qwfn = s.log.qwfn ∧ (continueWeek s).startDay = s.startDay ∧
      (continueWeek s).files = s.files ∧ Handed s (continueWeek s) false := by
  by_cases pending : s.pqIoJob.pending = true
  · have busy : (s.setQw (addedWeek s)).pqIoJob.pending = true := pending
    rw [continueWeek, pqQueueJob, if_pos busy]
    exact ⟨⟨(addedWeek s).evtCount, rfl⟩, rfl, rfl, rfl, Or.inl ⟨pending, rfl⟩⟩
  · have idle : ¬(s.setQw (addedWeek s)).pqIoJob.pending = true := pending
    rw [continueWeek, pqQueueJob, if_neg idle]
    exact ⟨⟨_, rfl⟩, rfl, rfl, rfl, Or.inr ⟨rfl, rfl, rfl, nofun⟩⟩

theorem rolloverWeek_spec (s : Sys F) :
    (rolloverWeek s).log.qw = newWeek s.startDay s.sysTick1s ∧
      (rolloverWeek s).log.qwfn = getQualWeekFN s.startDay s.sysTick1s ∧
      (rolloverWeek s).startDay = s.startDay ∧ (rolloverWeek s).files = s.files ∧
      Handed s (rolloverWeek s) true := by
  by_cases pending : s.pqIoJob.pending = true
  · have busy : ((s.setQw (addedWeek s)).setRpt 1 (updateQualReport (addedWeek s))).pqIoJob.pending =
        true := pending
    rw [rolloverWeek, pqQueueJob, if_pos busy]
    exact ⟨rfl, rfl, rfl, rfl, Or.inl ⟨pending, rfl⟩⟩
  · have idle : ¬((s.setQw (addedWeek s)).setRpt 1
        (updateQualReport (addedWeek s))).pqIoJob.pending = true := pending
    rw [rolloverWeek, pqQueueJob, if_neg idle]
    exact ⟨rfl, rfl, rfl, rfl, Or.inr ⟨rfl, rfl, rfl, fun _ => rfl⟩⟩

omit [Measure F] in
private theorem handed_unused {s t : Sys F} {rollover : Bool} (placed : Placed s)
    (files : t.files = s.files) (handed : Handed s t rollover)
    (new : rollover = true → s.files t.log.qwfn = none ∧ s.log.qwfn ≠ t.log.qwfn) :
    t.pqIoJob.pending = true → t.pqIoJob.rollover = true →
      t.files t.pqIoJob.newQwfn = none ∧ t.pqIoJob.qwfn ≠ t.pqIoJob.newQwfn := by
  intro pending rolled
  rcases handed with ⟨busy, same⟩ | ⟨-, kind, qwfn, newQwfn⟩
  · rw [same] at rolled ⊢
    rw [files]
    exact placed.unused busy rolled
  · rw [kind] at rolled
    rw [newQwfn rolled, qwfn, files]
    exact new rolled

private theorem update_flushes {smp : Sample F} {s : Sys F} (placed : Placed s)
    (orderly : Orderly s (.update smp)) (flushes : Flushes smp s) :
    Placed (updateQualData smp s) ∧ WeekKept s (.update smp) := by
  have same := checked_same smp s
  have placed' : Placed (checked smp s) := by
    refine ⟨?_, ?_⟩
    · rw [same.qw, same.qwfn, same.startDay]
      exact placed.window
    · rw [same.pqIoJob, same.files]
      exact placed.unused
  rw [WeekKept, updateQualData, if_pos flushes.1, flushes.2, updateWeek, if_pos rfl]
  by_cases running : InWindow s.sysTick1s s.log.qw
  · have running' : InWindow (checked smp s).sysTick1s (checked smp s).log.qw := by
      rw [same.sysTick1s, same.qw]
      exact running
    rw [if_pos running']
    obtain ⟨⟨n, qw⟩, qwfn, startDay, files, handed⟩ := continueWeek_spec (checked smp s)
    obtain ⟨startTs, endTs⟩ := addedWeek_window (checked smp s)
    have window : ∀ u, InWindow u (continueWeek (checked smp s)).log.qw →
        InWindow u (checked smp s).log.qw := by
      rintro u ⟨after, before⟩
      rw [qw] at after before
      change (addedWeek (checked smp s)).startTs ≤ u at after
      change u < (addedWeek (checked smp s)).endTs at before
      rw [endTs] at before
      rw [startTs] at after
      refine ⟨?_, before⟩
      split at after
      · rename_i none
        rw [none]
        exact UInt32.zero_le
      · exact after
    have now : InWindow s.sysTick1s (continueWeek (checked smp s)).log.qw := by
      rw [qw]
      change (addedWeek (checked smp s)).startTs ≤ _ ∧ _ < (addedWeek (checked smp s)).endTs
      rw [startTs, endTs]
      refine ⟨?_, running'.2⟩
      split
      · exact UInt32.le_refl _
      · exact running'.1
    have named : ∀ u, InWindow u (continueWeek (checked smp s)).log.qw →
        getQualWeekFN s.startDay u = (continueWeek (checked smp s)).log.qwfn := by
      intro u inside
      rw [qwfn]
      exact placed'.window u (window u inside)
    refine ⟨⟨?_, handed_unused placed' files handed nofun⟩, fun _ => ⟨now, named, fun _ => ⟨n, qw⟩⟩⟩
    change ∀ u, InWindow u (continueWeek (checked smp s)).log.qw →
      getQualWeekFN (continueWeek (checked smp s)).startDay u = _
    rw [startDay]
    exact named
  · have ended : ¬InWindow (checked smp s).sysTick1s (checked smp s).log.qw := by
      rw [same.sysTick1s, same.qw]
      exact running
    obtain ⟨absent, range⟩ := (orderly flushes).resolve_left running
    rw [if_neg ended]
    obtain ⟨qw, qwfn, startDay, files, handed⟩ := rolloverWeek_spec (checked smp s)
    obtain ⟨now, window⟩ := newWeek_window (F := F) range
    have named : ∀ u, InWindow u (rolloverWeek (checked smp s)).log.qw →
        getQualWeekFN s.startDay u = (rolloverWeek (checked smp s)).log.qwfn := by
      intro u inside
      rw [qw] at inside
      rw [qwfn]
      exact window u inside
    have new : (checked smp s).files (rolloverWeek (checked smp s)).log.qwfn = none ∧
        (checked smp s).log.qwfn ≠ (rolloverWeek (checked smp s)).log.qwfn := by
      rw [qwfn, same.qwfn]
      constructor
      · rw [← Option.not_isSome_iff_eq_none]
        exact fun found => absent (Or.inr (Or.inl found))
      · exact fun named => absent (Or.inl named)
    refine ⟨⟨?_, handed_unused placed' files handed fun _ => new⟩, fun _ => ⟨?_, named, ?_⟩⟩
    · change ∀ u, InWindow u (rolloverWeek (checked smp s)).log.qw →
        getQualWeekFN (rolloverWeek (checked smp s)).startDay u = _
      rw [startDay]
      exact named
    · change InWindow s.sysTick1s (rolloverWeek (checked smp s)).log.qw
      rw [qw]
      exact now
    · exact fun found => absurd found absent

private theorem pqIoTick_kept {s : Sys F} (placed : Placed s) :
    Placed (pqIoTick s) ∧ WeekKept s .pqIoTick := by
  rw [WeekKept, pqIoTick]
  dsimp only
  by_cases pending : s.pqIoJob.pending = true
  · rw [if_pos pending]
    refine ⟨⟨placed.window, nofun⟩, ?_⟩
    intro name f found
    have updated : Function.update s.files s.pqIoJob.qwfn
        (updateFile s.pqIoJob.weekSnap s.pqIoJob.ev (s.files s.pqIoJob.qwfn)) name = some f ∨
        Function.update s.files s.pqIoJob.qwfn
          (updateFile s.pqIoJob.weekSnap s.pqIoJob.ev (s.files s.pqIoJob.qwfn)) name =
            some (f.update s.pqIoJob.weekSnap s.pqIoJob.ev) := by
      by_cases own : name = s.pqIoJob.qwfn
      · subst own
        right
        rw [Function.update_self, found, updateFile]
      · left
        rw [Function.update_of_ne own, found]
    by_cases rolled : s.pqIoJob.rollover = true
    · have other : name ≠ s.pqIoJob.newQwfn := by
        intro same
        rw [same, (placed.unused pending rolled).1] at found
        cases found
      rw [if_pos rolled]
      dsimp only
      rw [Function.update_of_ne other]
      exact updated
    · rw [if_neg rolled]
      exact updated
  · rw [if_neg pending]
    exact ⟨placed, fun name f found => Or.inl found⟩

private theorem step_kept {s : Sys F} (placed : Placed s) {e : Event F} (orderly : Orderly s e) :
    Placed (step s e) ∧ WeekKept s e := by
  cases e with
  | tick => exact ⟨⟨placed.window, placed.unused⟩, trivial⟩
  | tickSet sec mode =>
    refine ⟨?_, trivial⟩
    rw [step, tickSet]
    split
    · exact placed
    · dsimp only
      split
      all_goals exact ⟨placed.window, placed.unused⟩
  | pushEvent e =>
    refine ⟨?_, trivial⟩
    rw [step, pushEvent]
    split
    · exact ⟨placed.window, placed.unused⟩
    · exact placed
  | update smp =>
    by_cases flushes : Flushes smp s
    · exact update_flushes placed orderly flushes
    · refine ⟨?_, fun flushed => absurd flushed flushes⟩
      have same := sampled_same smp s
      have kept : SameWeek s (updateQualData smp s) := by
        rw [updateQualData]
        split
        · rename_i due
          have inactive : smp.active = false := by
            rw [← Bool.not_eq_true]
            exact fun active => flushes ⟨due, active⟩
          have same := checked_same smp s
          rw [inactive, updateWeek, if_neg Bool.false_ne_true]
          exact ⟨rfl, rfl, same.qw, same.qwfn, rfl, rfl⟩
        · exact same
      change Placed (updateQualData smp s)
      refine ⟨?_, ?_⟩
      · rw [kept.qw, kept.qwfn, kept.startDay]
        exact placed.window
      · rw [kept.pqIoJob, kept.files]
        exact placed.unused
  | pqIoTick => exact pqIoTick_kept placed

private theorem boot_placed {now : UInt32} {startDay : UInt16}
    {files : FileName → Option (WeekFile F)} (range : WeekInRange startDay now)
    (windows : ∀ name f, files name = some f →
      ∀ u, InWindow u f.header → getQualWeekFN startDay u = name) :
    Placed (initPQHeader now startDay files) := by
  refine ⟨?_, nofun⟩
  rw [initPQHeader]
  dsimp only
  cases found : files (getQualWeekFN startDay now) with
  | none => exact (newWeek_window range).2
  | some f => exact windows _ f found

/-- In every run whose updates are orderly, the window holds the clock after each update that counts
for the week and has the name of its file, and no week's record is started twice. -/
theorem orderly_runs_keep_weeks (s : Sys F) (es : List (Event F)) (start : Placed s)
    (orderly : Along step Orderly s es) : Along step WeekKept s es :=
  along_of_invariant (fun _ _ placed orderly => (step_kept placed orderly).1)
    (fun _ _ placed orderly => (step_kept placed orderly).2) start orderly

/-- A meter that starts with no files, in the middle of a week. -/
def started : Sys Rat := initPQHeader 1780000200 0 fun _ => none

def calm : Sample Rat where
  freq := 50
  u1012 _ := 220
  ubal _ := 0
  uthd _ := 0
  uhd _ _ := 0
  freqLo i := if i = 0 then 99 / 2 else 47
  freqHi i := if i = 0 then 101 / 2 else 52
  uLo _ := 187
  uHi _ := 242
  active := true

def tenMinutes : List (Event Rat) := [.tickSet 1780000800 false, .update calm, .pqIoTick]

theorem tenMinutes_kept : Along step WeekKept started tenMinutes := by
  have range : WeekInRange 0 1780000200 := by decide +kernel
  have start : Placed started := by
    refine boot_placed range ?_
    intro name f found
    cases found
  have orderly : Along step Orderly started tenMinutes :=
    ⟨trivial, fun _ => Or.inl (by decide +kernel), trivial, trivial⟩
  exact orderly_runs_keep_weeks started tenMinutes start orderly

/-- A clock set back to before the start of the record, within its week, starts the week's record
and file again. -/
theorem set_back_restarts_week :
    let s := run step started (tenMinutes ++ [.tickSet 1779999600 false])
    let t := run step s [.update calm, .pqIoTick]
    s.log.qw.count10m = 1 ∧ getQualWeekFN s.startDay s.sysTick1s = s.log.qwfn ∧
      t.log.qw.count10m = 0 ∧
      (t.files s.log.qwfn).map (fun f => f.header.count10m) = some 0 ∧
      ¬WeekKept s (.update calm) := by
  intro s t
  have named : getQualWeekFN s.startDay s.sysTick1s = s.log.qwfn := by decide +kernel
  have flushes : Flushes calm s := ⟨by decide +kernel, rfl⟩
  refine ⟨by decide +kernel, named, by decide +kernel, by decide +kernel, ?_⟩
  intro kept
  obtain ⟨-, -, added⟩ := kept flushes
  obtain ⟨n, grown⟩ := added (Or.inl named.symm)
  have empty : (updateQualData calm s).log.qw.count10m = 0 := by decide +kernel
  have counted : (addedWeek (checked calm s)).count10m = 2 := by decide +kernel
  rw [grown] at empty
  exact absurd (empty.symm.trans counted) (by decide)

end SV300.Quality.Window
