/- SV300/Log/Reload
   digest: Which alarm and event rings a save and a load give back as they were. -/

import SV300.Log.Event

set_option autoImplicit false
set_option relaxedAutoImplicit false

namespace SV300.Log.Reload

open SV300.Library.Ring
open SV300.Library.Runs
open SV300.Log.Store
open SV300.Log.Listing
open SV300.Log.Event (EventLog IticLog fetchEvent pushEvent loadEventFifo sizeofEventU
  delivered_fetchEvent tracks_empty tracks_step Tracks)

/-- `ALARM_LOG`; a float is its bit pattern. -/
structure AlarmLog where
  ts : UInt32
  status : UInt16
  chan : UInt8
  cond : UInt8
  level : UInt32
  value : UInt32
  deriving DecidableEq

instance : Zero AlarmLog := ⟨⟨0, 0, 0, 0, 0, 0⟩⟩

/-- `sizeof(ALARM_U)`. -/
abbrev sizeofAlarmU : Nat := 16

/-- The alarm part of one meter channel: the FIFO, the page last fetched, the FIFO file, and
whether the file that marks the one-shot purge exists. -/
structure State where
  alarmFifo : Fifo AlarmLog
  alist : Page AlarmLog
  file : Option (File AlarmLog)
  purged : Bool

def alarmBottom (count : Nat) : Nat :=
  if count > 0 then (count - 1) / nAlarmList * nAlarmList else 0

theorem alarmBottom_eq (count : Nat) : alarmBottom count = (count - 1) / nAlarmList * nAlarmList := by
  unfold alarmBottom
  split
  · rfl
  · have empty : count = 0 := by omega
    rw [empty]
    rfl

def fetchAlarm (cmd : Nat) (s : State) : State :=
  let f := alarmFifoSanitizeRam s.alarmFifo
  let record (ix : Int) : AlarmLog := if ix < 0 ∨ ix ≥ nAlarmFifo then 0 else f.log ix.toNat
  { s with
    alarmFifo := f
    alist := fetchPage nAlarmFifo nAlarmList (alarmBottom f.count) f.fr f.count record cmd s.alist }

/-- The FIFO part of `storeAlarmLog`, from the record it has built on. -/
def storeAlarmLog (s : State) (alog : AlarmLog) : State :=
  { s with alarmFifo := append nAlarmFifo s.alarmFifo alog }

def alarmFifoFileAppend (sysTick1s : UInt32) (s : State) : State :=
  { s with file := some (snapshot nAlarmFifo sysTick1s s.alarmFifo) }

def loadAlarmLog (id : Nat) (s : State) : State :=
  -- the one-shot purge of channel 0's file
  let s := if id = 0 ∧ s.purged = false then
      { s with file := none, alarmFifo := zeroed nAlarmFifo s.alarmFifo, purged := true }
    else s
  let loaded := load nAlarmFifo sizeofAlarmU s.alarmFifo s.file
  fetchAlarm 3 { s with alarmFifo := alarmFifoSanitizeRam loaded.1, file := loaded.2 }

def boot (id : Nat) : State :=
  loadAlarmLog id ⟨⟨0, 0, 0, fun _ => 0⟩, ⟨0, 0, 0, List.replicate nAlarmList 0⟩, none, false⟩

def alarmListing (s : State) : List AlarmLog := delivered fetchAlarm State.alist nAlarmList s

def eventListing (s : Event.State) : List EventLog :=
  delivered fetchEvent Event.State.elist nEventList s

/-- After these alarms, a save and a load deliver what was delivered before, and one more alarm
then pushes the oldest out. -/
def AlarmRestored (id : Nat) (now : UInt32) (alarms : List AlarmLog) : Prop :=
  let s := run storeAlarmLog (boot id) alarms
  let loaded := loadAlarmLog id (alarmFifoFileAppend now s)
  alarmListing loaded = alarmListing s ∧
    ∀ alog, alarmListing (storeAlarmLog loaded alog) = (alog :: alarmListing s).take nAlarmFifo

/-- The same for these events. -/
def EventRestored (behind : Nat → IticLog) (now : UInt32) (events : List IticLog) : Prop :=
  let s := run pushEvent (Event.empty behind) events
  let loaded := loadEventFifo
    { s with file := some (snapshot nEventFifo now s.eventFifo) }
  eventListing loaded = eventListing s ∧
    ∀ ilog, eventListing (pushEvent loaded ilog) =
      (ilog.toEventLog :: eventListing s).take nEventFifo

theorem sanitize_of_shows {f : Fifo AlarmLog} {h : List AlarmLog} (shown : Shows nAlarmFifo f h) :
    alarmFifoSanitizeRam f = f := by
  have fr := shown.fr_lt (by decide)
  have count := shown.count_le
  have re : f.re < nAlarmFifo := by
    rw [shown.re]
    exact Nat.mod_lt _ (by decide)
  rw [alarmFifoSanitizeRam, if_neg (by omega), if_neg (by omega), if_neg (by omega)]

theorem alarm_slots {f : Fifo AlarmLog} {h : List AlarmLog} (shown : Shows nAlarmFifo f h) :
    (List.range f.count).map (fun j =>
        if back nAlarmFifo f.fr (j + 1) < 0 ∨ back nAlarmFifo f.fr (j + 1) ≥ nAlarmFifo then 0
        else f.log (back nAlarmFifo f.fr (j + 1)).toNat) = h.reverse.take nAlarmFifo := by
  have write := shown.fr_lt (by decide)
  have count := shown.count
  have inside : ∀ j ∈ List.range f.count, (if back nAlarmFifo f.fr (j + 1) < 0 ∨
      back nAlarmFifo f.fr (j + 1) ≥ nAlarmFifo then 0
      else f.log (back nAlarmFifo f.fr (j + 1)).toNat) =
        f.log (back nAlarmFifo f.fr (j + 1)).toNat := by
    intro j listed
    rw [List.mem_range] at listed
    apply if_neg
    unfold back
    split <;> omega
  rw [List.map_congr_left inside, shown_backwards shown (by decide), count, reverse_latest]

private theorem alarmListing_eq {s : State} {h : List AlarmLog}
    (shown : Shows nAlarmFifo s.alarmFifo h) :
    alarmListing s = h.reverse.take nAlarmFifo := by
  have clean := sanitize_of_shows shown
  have keeps : ∀ cmd (t : State), t.alarmFifo = s.alarmFifo →
      (fetchAlarm cmd t).alarmFifo = s.alarmFifo := by
    intro cmd t same
    rw [fetchAlarm, same]
    exact clean
  have reads : ∀ cmd (t : State), t.alarmFifo = s.alarmFifo → (fetchAlarm cmd t).alist =
      fetchPage nAlarmFifo nAlarmList (alarmBottom s.alarmFifo.count) s.alarmFifo.fr
        s.alarmFifo.count (fun ix => if ix < 0 ∨ ix ≥ nAlarmFifo then 0 else
          s.alarmFifo.log ix.toNat) cmd t.alist := by
    intro cmd t same
    simp only [fetchAlarm, same, clean]
  rw [alarmListing, delivered_eq keeps reads rfl (by decide) shown.count_le, alarm_slots shown]

theorem alarms_shown (id : Nat) (alarms : List AlarmLog) :
    Shows nAlarmFifo (run storeAlarmLog (boot id) alarms).alarmFifo alarms ∧
      (id = 0 → (run storeAlarmLog (boot id) alarms).purged = true) := by
  induction alarms using List.reverseRecOn with
  | nil =>
    have start : ∀ f : Fifo AlarmLog, alarmFifoSanitizeRam (zeroed nAlarmFifo f) =
        zeroed nAlarmFifo f := fun f => sanitize_of_shows (shows_zeroed nAlarmFifo f)
    rw [run_nil, boot, loadAlarmLog]
    by_cases first : id = 0
    · rw [if_pos ⟨first, rfl⟩]
      refine ⟨?_, fun _ => rfl⟩
      simp only [fetchAlarm, load, start]
      exact shows_zeroed nAlarmFifo _
    · rw [if_neg fun both => first both.1]
      refine ⟨?_, fun same => absurd same first⟩
      simp only [fetchAlarm, load, start]
      exact shows_zeroed nAlarmFifo _
  | append_singleton alarms alog ih =>
    rw [run_append, run_cons, run_nil]
    exact ⟨ih.1.append (by decide) alog, ih.2⟩

private theorem loaded_shows {id : Nat} {s : State} {h : List AlarmLog} (now : UInt32)
    (shown : Shows nAlarmFifo s.alarmFifo h) (purged : id = 0 → s.purged = true) :
    Shows nAlarmFifo (loadAlarmLog id (alarmFifoFileAppend now s)).alarmFifo
      ((List.range s.alarmFifo.count).map s.alarmFifo.log) := by
  have fits := shown.count_le
  have saved := snapshot_saved now (Nat.le_of_lt (shown.fr_lt (by decide))) fits
  have length : ((List.range s.alarmFifo.count).map s.alarmFifo.log).length = s.alarmFifo.count := by
    rw [List.length_map, List.length_range]
  obtain ⟨log, result, holds, _⟩ := saved.load sizeofAlarmU s.alarmFifo
  have kept : ¬(id = 0 ∧ s.purged = false) := by
    rintro ⟨first, absent⟩
    rw [purged first] at absent
    cases absent
  have clean : Shows nAlarmFifo (alarmFifoSanitizeRam ⟨s.alarmFifo.count, 0, s.alarmFifo.count, log⟩)
      ((List.range s.alarmFifo.count).map s.alarmFifo.log) := by
    refine ⟨holds, ?_, ?_, ?_⟩
    · rw [length, alarmFifoSanitizeRam]
      dsimp only
      split
      · have full : s.alarmFifo.count = nAlarmFifo := by omega
        rw [full, Nat.mod_self]
      · exact (Nat.mod_eq_of_lt (by omega)).symm
    · rw [length, alarmFifoSanitizeRam, Nat.min_eq_left fits]
      exact if_neg (Nat.not_lt.mpr fits)
    · rw [length, Nat.sub_eq_zero_of_le fits]
      rfl
  rw [alarmFifoFileAppend, loadAlarmLog, if_neg kept, result, length, fetchAlarm,
    sanitize_of_shows clean]
  exact clean

/-- The slots of an alarm ring in their physical order are its history, or rotated if it has
wrapped. -/
private theorem latest_eq_rotate {cap : Nat} {f : Fifo AlarmLog} {h : List AlarmLog}
    (shown : Shows cap f h) (full : cap ≤ h.length) :
    latest cap h = ((List.range f.count).map f.log).rotate (h.length % cap) := by
  have count : f.count = cap := by rw [shown.count, Nat.min_eq_right full]
  have read := shown.contents
  have slots : window cap f.log 0 cap = (List.range cap).map f.log := by
    apply List.map_congr_left
    intro i inside
    rw [Nat.zero_add, Nat.mod_eq_of_lt (List.mem_range.mp inside)]
  rw [contents, count, shown.re, window_rotate, slots, ← Nat.mod_eq_sub_mod full] at read
  rw [count, read]

/-- The physical order is the order of arrival exactly for a ring that has not wrapped or whose
last entries are their own rotation. -/
private theorem physical_iff {f : Fifo AlarmLog} {h : List AlarmLog}
    (shown : Shows nAlarmFifo f h) :
    ((List.range f.count).map f.log).reverse = h.reverse.take nAlarmFifo ↔
      h.length < nAlarmFifo ∨
        (latest nAlarmFifo h).rotate (h.length % nAlarmFifo) = latest nAlarmFifo h := by
  rcases Nat.lt_or_ge h.length nAlarmFifo with few | full
  · rw [shown.slots few, List.take_of_length_le (by rw [List.length_reverse]; omega)]
    exact iff_of_true rfl (Or.inl few)
  · have turned := latest_eq_rotate shown full
    rw [← reverse_latest, Nat.min_eq_right full, List.reverse_inj]
    constructor
    · intro same
      right
      rw [same] at turned
      exact turned.symm
    · rintro (few | same)
      · omega
      · rw [turned]
        rw [turned] at same
        exact (List.rotate_injective _ same).symm

/-- An alarm log survives a save and a load exactly if its ring has not wrapped or its last
entries are their own rotation. -/
private theorem alarmRestored_iff (id : Nat) (now : UInt32) (alarms : List AlarmLog) :
    AlarmRestored id now alarms ↔ alarms.length < nAlarmFifo ∨
      (latest nAlarmFifo alarms).rotate (alarms.length % nAlarmFifo) = latest nAlarmFifo alarms := by
  obtain ⟨shown, purged⟩ := alarms_shown id alarms
  have loaded := loaded_shows now shown purged
  have few : ((List.range (run storeAlarmLog (boot id) alarms).alarmFifo.count).map
      (run storeAlarmLog (boot id) alarms).alarmFifo.log).reverse.length ≤ nAlarmFifo := by
    simpa using shown.count_le
  rw [← physical_iff shown]
  unfold AlarmRestored
  simp only [alarmListing_eq loaded, alarmListing_eq shown, List.take_of_length_le few]
  constructor
  · intro restored
    exact restored.1
  · intro same
    refine ⟨same, ?_⟩
    intro alog
    have pushed := loaded.append (by decide) alog
    have listing := alarmListing_eq (s := storeAlarmLog _ alog) pushed
    rw [listing, List.reverse_append, same, List.reverse_singleton, List.singleton_append]

private theorem eventListing_eq {behind : Nat → IticLog} {s : Event.State} {h : Event.History}
    (tracks : Tracks behind s h) :
    eventListing s = (h.held.map IticLog.toEventLog).reverse.take nEventFifo := by
  rw [eventListing, tracks.delivered, ← List.map_reverse, tracks.ring.count, reverse_latest,
    List.map_take, List.map_reverse]

private theorem events_tracked (behind : Nat → IticLog) (events : List IticLog) :
    Tracks behind (run pushEvent (Event.empty behind) events) ⟨events, []⟩ := by
  induction events using List.reverseRecOn with
  | nil => exact tracks_empty behind
  | append_singleton events ilog ih =>
    rw [run_append, run_cons, run_nil]
    exact tracks_step _ _ (.push ilog) ih (.push _ ilog)

private theorem push_after_full_load {s : Event.State} {log : Nat → IticLog}
    (loaded : s.eventFifo = ⟨nEventFifo, 0, nEventFifo, log⟩) (ilog : IticLog) :
    eventListing (pushEvent s ilog) = eventListing s := by
  have pushed : (pushEvent s ilog).eventFifo =
      ⟨0, 1, nEventFifo, Function.update log nEventFifo ilog⟩ := by
    rw [pushEvent, Event.fetchEvent_eventFifo]
    dsimp only
    rw [loaded]
    rfl
  have before := delivered_fetchEvent (s := s) (by rw [loaded])
  have after := delivered_fetchEvent (s := pushEvent s ilog) (by rw [pushed])
  rw [eventListing, eventListing, before, after, pushed, loaded]
  refine congrArg (List.map IticLog.toEventLog) (List.map_congr_left ?_)
  intro j listed
  have inside : j < nEventFifo := List.mem_range.mp listed
  dsimp only
  have slot : (back nEventFifo 0 (j + 1)).toNat = (back nEventFifo nEventFifo (j + 1)).toNat := by
    unfold back
    split <;> split <;> omega
  have below : (back nEventFifo nEventFifo (j + 1)).toNat ≠ nEventFifo := by
    unfold back
    split <;> omega
  rw [slot, Function.update_of_ne below]

private theorem eventRestored_iff (behind : Nat → IticLog) (now : UInt32) (events : List IticLog) :
    EventRestored behind now events ↔ events.length < nEventFifo := by
  have tracks := events_tracked behind events
  have stored := tracks_step _ _ (.store now) tracks (.store _ now)
  constructor
  · intro restored
    by_contra full
    obtain ⟨log, result, _⟩ := (snapshot_saved now
      (Nat.le_of_lt (tracks.ring.fr_lt (by decide))) tracks.ring.count_le).load
      sizeofEventU (run pushEvent (Event.empty behind) events).eventFifo
    rw [List.length_map, List.length_range, tracks.ring.count,
      Nat.min_eq_right (Nat.not_lt.mp full)] at result
    have fifo : (loadEventFifo { run pushEvent (Event.empty behind) events with
        file := some (snapshot nEventFifo now
          (run pushEvent (Event.empty behind) events).eventFifo) }).eventFifo =
        ⟨nEventFifo, 0, nEventFifo, log⟩ := by
      rw [loadEventFifo, Event.fetchEvent_eventFifo, result]
    -- two different events would both have to be the newest entry
    have first := restored.2 0
    have second := restored.2 ⟨⟨1, 0, 0, 0, 0, fun _ => 0⟩, 0⟩
    rw [push_after_full_load fifo] at first second
    have heads := congrArg List.head? (first.symm.trans second)
    rw [List.take_succ_cons, List.take_succ_cons, List.head?_cons, List.head?_cons] at heads
    have times := congrArg EventLog.startTs (Option.some.inj heads)
    exact absurd times (by decide)
  · intro few
    have fits : Event.ReloadFits { run pushEvent (Event.empty behind) events with
        file := some (snapshot nEventFifo now
          (run pushEvent (Event.empty behind) events).eventFifo) } .reload := by
      intro _ file present
      obtain rfl := Option.some.inj present
      have count : (run pushEvent (Event.empty behind) events).eventFifo.count =
          min events.length nEventFifo := tracks.ring.count
      rw [(snapshot_saved now (Nat.le_of_lt (tracks.ring.fr_lt (by decide)))
        tracks.ring.count_le).count, List.length_map, List.length_range]
      omega
    have loaded := tracks_step _ _ .reload stored fits
    refine ⟨?_, ?_⟩
    · exact (eventListing_eq loaded).trans (eventListing_eq tracks).symm
    · intro ilog
      have pushed := tracks_step _ _ (.push ilog) loaded (.push _ ilog)
      refine (eventListing_eq pushed).trans ?_
      rw [eventListing_eq tracks]
      dsimp only [Event.History.step]
      rw [List.map_append, List.reverse_append, List.map_singleton, List.reverse_singleton,
        List.singleton_append, List.take_succ_cons, List.take_succ_cons, List.take_take]
      rfl

/-- A save and a load give back an alarm log exactly if its ring has not wrapped or its last
entries are their own rotation, and an event log exactly below its capacity. -/
theorem logs_restored_iff (id : Nat) (now : UInt32) (behind : Nat → IticLog) :
    (∀ alarms, AlarmRestored id now alarms ↔ alarms.length < nAlarmFifo ∨
      (latest nAlarmFifo alarms).rotate (alarms.length % nAlarmFifo) = latest nAlarmFifo alarms) ∧
    ∀ events, EventRestored behind now events ↔ events.length < nEventFifo :=
  ⟨alarmRestored_iff id now, eventRestored_iff behind now⟩

private theorem last_entry_rotated {a b : AlarmLog} (other : a ≠ b) {n : Nat} (two : 2 ≤ n) :
    (latest n (List.replicate n a ++ [b])).rotate ((List.replicate n a ++ [b]).length % n) ≠
      latest n (List.replicate n a ++ [b]) := by
  obtain ⟨k, rfl⟩ := Nat.exists_eq_add_of_le' two
  have length : (List.replicate (k + 2) a ++ [b]).length = k + 2 + 1 := by
    rw [List.length_append, List.length_replicate, List.length_singleton]
  have turn : (k + 2 + 1) % (k + 2) = 1 := by
    rw [Nat.add_mod_left, Nat.mod_eq_of_lt (by omega)]
  have kept : latest (k + 2) (List.replicate (k + 2) a ++ [b]) =
      a :: (List.replicate k a ++ [b]) := by
    rw [latest, length, Nat.add_sub_cancel_left]
    rfl
  intro same
  rw [length, turn, kept, List.rotate_cons_succ, List.rotate_zero] at same
  have last := congrArg List.getLast? same
  rw [List.getLast?_concat, ← List.cons_append, List.getLast?_concat] at last
  exact other (Option.some.inj last)

/-- One alarm after 1024 others comes back as the oldest, and 1024 events do not take the next. -/
theorem wrapped_logs_lost :
    ¬AlarmRestored 0 0 (List.replicate nAlarmFifo 0 ++ [⟨60, 1, 2, 1, 0, 0⟩]) ∧
      ¬EventRestored (fun _ => 0) 0 (List.replicate nEventFifo 0) := by
  constructor
  · rw [alarmRestored_iff]
    rintro (few | same)
    · rw [List.length_append, List.length_replicate] at few
      exact absurd few (by decide)
    · exact last_entry_rotated (by decide) (by decide) same
  · rw [eventRestored_iff, List.length_replicate]
    decide

end SV300.Log.Reload
