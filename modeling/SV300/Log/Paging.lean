/- SV300/Log/Paging
   digest: Which runs of pushes, clears and page commands keep every page on its entries. -/

import SV300.Library.Literals
import SV300.Library.Runs
import SV300.Log.Itic
import SV300.Log.Reload

set_option autoImplicit false
set_option relaxedAutoImplicit false

namespace SV300.Log.Paging

open SV300.Library.Ring
open SV300.Library.Runs
open SV300.Log.Store
open SV300.Log.Listing
open SV300.Log.Itic
open SV300.Log.Event (EventLog IticLog)
open SV300.Log.Reload (AlarmLog)

/-- The alarm log, the event log and the two ITIC pages of one meter channel. -/
structure Channel where
  alarms : Reload.State
  events : Event.State
  itic : Fin 2 → Page IticLog

def noItic : Page IticLog := ⟨0, 0, 0, List.replicate nIticList 0⟩

def noAlarms : Page AlarmLog := ⟨0, 0, 0, List.replicate nAlarmList 0⟩

def fetchItic (mode : Fin 2) (cmd : Nat) (s : Channel) : Channel :=
  { s with itic :=
      Function.update s.itic mode (fetchIticCommon s.events.eventFifo cmd (s.itic mode)) }

/-- `pushEvent` and its three fetches. -/
def pushEvent (entry : IticLog) (s : Channel) : Channel :=
  fetchItic 1 0 (fetchItic 0 0 { s with events := Event.pushEvent s.events entry })

/-- `deleteAlarmLog`: the FIFO file deleted and the FIFO zeroed. -/
def deleteAlarmLog (s : Reload.State) : Reload.State :=
  { s with file := none, alarmFifo := zeroed nAlarmFifo s.alarmFifo }

/-- An alarm stored, the alarm list reset, the alarm log deleted, an alarm page fetched; an event
pushed, the events cleared, the ITIC pages cleared, an event page or an ITIC page fetched. An order
to reset the alarms runs `resetAlarm` and, after a flash write, `deleteAlarmLog`; fetches come from
other tasks and may fall between the two. -/
inductive Op
  | alarm (alog : AlarmLog)
  | resetAlarm
  | deleteAlarmLog
  | fetchAlarm (cmd : Nat)
  | event (entry : IticLog)
  | clearEventList
  | clearIticListData
  | fetchEvent (cmd : Nat)
  | fetchItic (mode : Fin 2) (cmd : Nat)

def step (s : Channel) : Op → Channel
  | .alarm alog => { s with alarms := Reload.storeAlarmLog s.alarms alog }
  | .resetAlarm => { s with alarms := { s.alarms with alist := noAlarms } }
  | .deleteAlarmLog => { s with alarms := deleteAlarmLog s.alarms }
  | .fetchAlarm cmd => { s with alarms := Reload.fetchAlarm cmd s.alarms }
  | .event entry => pushEvent entry s
  | .clearEventList => { s with events := Event.clearEventList s.events }
  | .clearIticListData => { s with itic := fun _ => noItic }
  | .fetchEvent cmd => { s with events := Event.fetchEvent cmd s.events }
  | .fetchItic mode cmd => fetchItic mode cmd s

/-- A channel, the alarms stored since its log was last deleted and the events pushed since the last
clear. -/
structure Logged where
  s : Channel
  alarms : List AlarmLog
  events : List IticLog

def record (l : Logged) (op : Op) : Logged where
  s := step l.s op
  alarms := match op with
    | .alarm alog => l.alarms ++ [alog]
    | .deleteAlarmLog => []
    | _ => l.alarms
  events := match op with
    | .event entry => l.events ++ [entry]
    | .clearEventList => []
    | _ => l.events

/-- The first boot of a channel, with any memory behind its event array. -/
def boot (id : Nat) (behind : Nat → IticLog) : Logged :=
  ⟨⟨Reload.boot id, Event.empty behind, fun _ => noItic⟩, [], []⟩

/-- The entries of a log that its ring still holds, the newest first. -/
def newestAlarms (h : List AlarmLog) : List AlarmLog := h.reverse.take nAlarmFifo

def newestEvents (h : List IticLog) : List EventLog :=
  (h.reverse.take nEventFifo).map IticLog.toEventLog

/-- Every cursor is at the start of a page that holds an entry, or of the first one. -/
structure Paged (l : Logged) : Prop where
  alarm : OnPage nAlarmList (newestAlarms l.alarms).length l.s.alarms.alist.re
  event : OnPage nEventList (newestEvents l.events).length l.s.events.elist.re
  itic : ∀ mode, OnPage nIticList (newestSelected l.events).length (l.s.itic mode).re

/-- What an operation has fetched delivers the entries from its cursor on. -/
def Fetched (l : Logged) : Op → Prop
  | .fetchAlarm _ => Delivers nAlarmList l.s.alarms.alist (newestAlarms l.alarms)
  | .event _ => Delivers nEventList l.s.events.elist (newestEvents l.events) ∧
      ∀ mode, Delivers nIticList (l.s.itic mode) (newestSelected l.events)
  | .fetchEvent _ => Delivers nEventList l.s.events.elist (newestEvents l.events)
  | .fetchItic mode _ => Delivers nIticList (l.s.itic mode) (newestSelected l.events)
  | _ => True

def Exact (l : Logged) (op : Op) : Prop := Paged (record l op) ∧ Fetched (record l op) op

/-- A push overwrites an event that the ITIC pages select with one that they do not. -/
def Drops (h : List IticLog) (entry : IticLog) : Prop :=
  (h.reverse[nEventFifo - 1]?).any selects = true ∧ ¬ selects entry = true

/-- The alarm log is deleted with the alarm cursor at the top, the events are cleared with both ITIC
cursors at the top, and no ITIC page past the first is left without its only entry by a push that
overwrites it. -/
def Kept (l : Logged) : Op → Prop
  | .deleteAlarmLog => l.s.alarms.alist.re = 0
  | .clearEventList => ∀ mode, (l.s.itic mode).re = 0
  | .event entry => ∀ mode, Drops l.events entry → 0 < (l.s.itic mode).re →
      (l.s.itic mode).re + 1 ≠ (newestSelected l.events).length
  | _ => True

/-- Both rings show their histories. -/
structure Rings (l : Logged) : Prop where
  alarms : Shows nAlarmFifo l.s.alarms.alarmFifo l.alarms
  events : Shows nEventFifo l.s.events.eventFifo l.events

@[simp] theorem fetchAlarm_alarmFifo {s : Reload.State} {h : List AlarmLog}
    (shown : Shows nAlarmFifo s.alarmFifo h) (cmd : Nat) :
    (Reload.fetchAlarm cmd s).alarmFifo = s.alarmFifo :=
  Reload.sanitize_of_shows shown

private theorem rings_record {l : Logged} (rings : Rings l) (op : Op) : Rings (record l op) := by
  cases op with
  | alarm alog => exact ⟨rings.alarms.append (by decide) alog, rings.events⟩
  | fetchAlarm cmd =>
    refine ⟨?_, rings.events⟩
    change Shows nAlarmFifo (Reload.fetchAlarm cmd l.s.alarms).alarmFifo l.alarms
    rw [fetchAlarm_alarmFifo rings.alarms]
    exact rings.alarms
  | event entry => exact ⟨rings.alarms, rings.events.append (by decide) entry⟩
  | clearEventList => exact ⟨rings.alarms, shows_zeroed nEventFifo _⟩
  | resetAlarm => exact ⟨rings.alarms, rings.events⟩
  | deleteAlarmLog => exact ⟨shows_zeroed nAlarmFifo _, rings.events⟩
  | clearIticListData => exact ⟨rings.alarms, rings.events⟩
  | fetchEvent cmd => exact ⟨rings.alarms, rings.events⟩
  | fetchItic mode cmd => exact ⟨rings.alarms, rings.events⟩

private theorem delivers_fetchAlarm {s : Reload.State} {h : List AlarmLog}
    (shown : Shows nAlarmFifo s.alarmFifo h) (cmd : Nat) :
    Delivers nAlarmList (Reload.fetchAlarm cmd s).alist (newestAlarms h) := by
  rw [newestAlarms, ← Reload.alarm_slots shown]
  simp only [Reload.fetchAlarm, Reload.sanitize_of_shows shown]
  exact delivers_pageAt shown.count_le _

private theorem delivers_fetchEvent {s : Event.State} {h : List IticLog}
    (shown : Shows nEventFifo s.eventFifo h) (cmd : Nat) :
    Delivers nEventList (Event.fetchEvent cmd s).elist (newestEvents h) := by
  have entries := shown_backwards shown (by decide)
  have listing : newestEvents h = (List.range s.eventFifo.count).map fun j =>
      (s.eventFifo.log (back nEventFifo s.eventFifo.fr (j + 1)).toNat).toEventLog := by
    rw [newestEvents, ← reverse_latest, ← shown.count, ← entries, List.map_map]
    rfl
  rw [listing]
  exact delivers_pageAt shown.count_le _

private theorem fetched_record {l : Logged} (rings : Rings l) (op : Op) :
    Fetched (record l op) op := by
  cases op with
  | fetchAlarm cmd => exact delivers_fetchAlarm rings.alarms cmd
  | event entry =>
    have pushed := rings.events.append (by decide) entry
    refine ⟨delivers_fetchEvent (s := { l.s.events with
      eventFifo := append nEventFifo l.s.events.eventFifo entry }) pushed 0, fun mode => ?_⟩
    match mode with
    | 0 => exact delivers_fetchItic pushed 0 (l.s.itic 0)
    | 1 => exact delivers_fetchItic pushed 0 (l.s.itic 1)
  | fetchEvent cmd => exact delivers_fetchEvent rings.events cmd
  | fetchItic mode cmd =>
    change Delivers nIticList (Function.update l.s.itic mode _ mode) _
    rw [Function.update_self]
    exact delivers_fetchItic rings.events cmd (l.s.itic mode)
  | alarm alog => trivial
  | resetAlarm => trivial
  | deleteAlarmLog => trivial
  | clearEventList => trivial
  | clearIticListData => trivial

private theorem length_newestSelected_append (h : List IticLog) (entry : IticLog) :
    (newestSelected (h ++ [entry])).length +
        (if (h.reverse[nEventFifo - 1]?).any selects then 1 else 0) =
      (newestSelected h).length + if selects entry then 1 else 0 :=
  length_filter_recent selects (nEventFifo - 1) h entry

private theorem length_newestAlarms (h : List AlarmLog) :
    (newestAlarms h).length = min h.length nAlarmFifo := by
  rw [newestAlarms, List.length_take, List.length_reverse, Nat.min_comm]

private theorem length_newestEvents (h : List IticLog) :
    (newestEvents h).length = min h.length nEventFifo := by
  rw [newestEvents, List.length_map, List.length_take, List.length_reverse, Nat.min_comm]

private theorem onPage_fetchAlarm {s : Reload.State} {h : List AlarmLog}
    (shown : Shows nAlarmFifo s.alarmFifo h)
    (on : OnPage nAlarmList (newestAlarms h).length s.alist.re) (cmd : Nat) :
    OnPage nAlarmList (newestAlarms h).length (Reload.fetchAlarm cmd s).alist.re := by
  have turned : (Reload.fetchAlarm cmd s).alist.re =
      turn nAlarmList (Reload.alarmBottom s.alarmFifo.count) s.alarmFifo.count cmd s.alist.re := by
    simp only [Reload.fetchAlarm, Reload.sanitize_of_shows shown]
    rfl
  rw [turned, Reload.alarmBottom_eq, shown.count, ← length_newestAlarms]
  exact on.turn (by decide) cmd

private theorem onPage_fetchEvent {s : Event.State} {h : List IticLog}
    (shown : Shows nEventFifo s.eventFifo h)
    (on : OnPage nEventList (newestEvents h).length s.elist.re) (cmd : Nat) :
    OnPage nEventList (newestEvents h).length (Event.fetchEvent cmd s).elist.re := by
  have turned : (Event.fetchEvent cmd s).elist.re =
      turn nEventList (Event.eventBottom s.eventFifo.count) s.eventFifo.count cmd s.elist.re :=
    rfl
  rw [turned, Event.eventBottom_eq, shown.count, ← length_newestEvents]
  exact on.turn (by decide) cmd

private theorem onPage_append_iff {h : List IticLog} {re : Nat}
    (on : OnPage nIticList (newestSelected h).length re) (entry : IticLog) :
    OnPage nIticList (newestSelected (h ++ [entry])).length re ↔
      (Drops h entry → 0 < re → re + 1 ≠ (newestSelected h).length) := by
  have counted := length_newestSelected_append h entry
  have inside := on.inside
  have page : OnPage nIticList (newestSelected (h ++ [entry])).length re ↔
      re < max 1 (newestSelected (h ++ [entry])).length :=
    ⟨OnPage.inside, fun below => ⟨on.aligned, below⟩⟩
  rw [page, Drops]
  by_cases lost : (h.reverse[nEventFifo - 1]?).any selects = true
  · by_cases added : selects entry = true
    · rw [if_pos lost, if_pos added] at counted
      refine iff_of_true (by omega) fun drops => absurd added drops.2
    · rw [if_pos lost, if_neg added] at counted
      simp only [lost, added]
      constructor
      · intro below _ some
        omega
      · intro kept
        have apart := kept ⟨trivial, nofun⟩
        omega
  · rw [if_neg lost] at counted
    refine iff_of_true ?_ fun drops => absurd drops.1 lost
    split at counted <;> omega

private theorem onPage_empty_iff {nList re : Nat} : OnPage nList 0 re ↔ re = 0 := by
  constructor
  · intro on
    have inside := on.inside
    omega
  · intro top
    rw [top]
    exact onPage_zero nList 0

private theorem paged_iff {l : Logged} (rings : Rings l) (paged : Paged l) (op : Op) :
    Paged (record l op) ↔ Kept l op := by
  cases op with
  | alarm alog =>
    have alarm : OnPage nAlarmList (newestAlarms (l.alarms ++ [alog])).length
        l.s.alarms.alist.re := by
      apply paged.alarm.mono
      rw [length_newestAlarms, length_newestAlarms, List.length_append]
      omega
    exact iff_of_true ⟨alarm, paged.event, paged.itic⟩ trivial
  | resetAlarm => exact iff_of_true ⟨onPage_zero _ _, paged.event, paged.itic⟩ trivial
  | deleteAlarmLog =>
    constructor
    · intro after
      exact onPage_empty_iff.mp after.alarm
    · intro kept
      exact ⟨onPage_empty_iff.mpr kept, paged.event, paged.itic⟩
  | fetchAlarm cmd =>
    exact iff_of_true ⟨onPage_fetchAlarm rings.alarms paged.alarm cmd, paged.event, paged.itic⟩
      trivial
  | event entry =>
    have cursor : ∀ mode, ((record l (.event entry)).s.itic mode).re = (l.s.itic mode).re := by
      intro mode
      match mode with
      | 0 => rfl
      | 1 => rfl
    have event : OnPage nEventList (newestEvents (l.events ++ [entry])).length
        l.s.events.elist.re := by
      apply paged.event.mono
      rw [length_newestEvents, length_newestEvents, List.length_append]
      omega
    constructor
    · intro after mode
      have on := after.itic mode
      rw [cursor] at on
      exact (onPage_append_iff (paged.itic mode) entry).mp on
    · intro kept
      refine ⟨paged.alarm, event, fun mode => ?_⟩
      rw [cursor]
      exact (onPage_append_iff (paged.itic mode) entry).mpr (kept mode)
  | clearEventList =>
    constructor
    · intro after mode
      exact onPage_empty_iff.mp (after.itic mode)
    · intro kept
      exact ⟨paged.alarm, onPage_zero _ _, fun mode => onPage_empty_iff.mpr (kept mode)⟩
  | clearIticListData =>
    exact iff_of_true ⟨paged.alarm, paged.event, fun _ => onPage_zero _ _⟩ trivial
  | fetchEvent cmd =>
    exact iff_of_true ⟨paged.alarm, onPage_fetchEvent rings.events paged.event cmd, paged.itic⟩
      trivial
  | fetchItic mode cmd =>
    refine iff_of_true ⟨paged.alarm, paged.event, fun other => ?_⟩ trivial
    by_cases same : other = mode
    · rw [same]
      change OnPage _ _ (Function.update l.s.itic mode _ mode).re
      rw [Function.update_self, re_fetchItic rings.events]
      exact onPage_turnItic (paged.itic mode) cmd
    · change OnPage _ _ (Function.update l.s.itic mode _ other).re
      rw [Function.update_of_ne same]
      exact paged.itic other

structure Inv (l : Logged) : Prop where
  rings : Rings l
  paged : Paged l

private theorem exact_iff {l : Logged} (inv : Inv l) (op : Op) : Exact l op ↔ Kept l op := by
  unfold Exact
  rw [and_iff_left (fetched_record inv.rings op)]
  exact paged_iff inv.rings inv.paged op

private theorem inv_boot (id : Nat) (behind : Nat → IticLog) : Inv (boot id behind) where
  rings := ⟨(Reload.alarms_shown id []).1, shows_zeroed nEventFifo ⟨0, 0, 0, behind⟩⟩
  paged := by
    refine ⟨?_, onPage_zero _ _, fun _ => onPage_zero _ _⟩
    change OnPage _ _ (Reload.boot id).alist.re
    exact onPage_zero _ _

/-- From the first boot, over every run of pushes, clears and page commands, all fetches deliver the
entries from their cursors on and all cursors stay on pages exactly as long as the pages are kept. -/
theorem pages_exact_iff_kept (id : Nat) (behind : Nat → IticLog) (ops : List Op) :
    Along record Exact (boot id behind) ops ↔ Along record Kept (boot id behind) ops :=
  along_guarded_iff (I := Inv)
    (fun _ op inv kept => ⟨rings_record inv.rings op, (paged_iff inv.rings inv.paged op).mpr kept⟩)
    (fun _ op inv => exact_iff inv op) (inv_boot id behind) ops

def sag : IticLog := ⟨⟨0, 0, 20, 1, 1, fun _ => 0⟩, 0⟩

def toSecondPage : List Op := List.replicate 33 (.event sag) ++ [.fetchItic 0 1]

def overLevel : AlarmLog := ⟨0, 1, 1, 1, 0, 0⟩

/-- A page down of the alarm list between the two halves of a reset. -/
def resetBroken : List Op := List.replicate 33 (.alarm overLevel) ++ [.resetAlarm, .fetchAlarm 1]

/-- With 33 sags logged and the second ITIC page open, a clear of the events leaves the cursor at 32
of 0 entries, and so does a deletion of 33 alarms after a page down. -/
theorem clear_leaves_itic_cursor :
    ¬ Along record Exact (boot 0 fun _ => 0) (toSecondPage ++ [.clearEventList]) ∧
      ¬ Along record Exact (boot 0 fun _ => 0) (resetBroken ++ [.deleteAlarmLog]) := by
  constructor
  · intro exact
    obtain ⟨cleared, _⟩ := ((along_append ..).mp exact).2
    have inside := (cleared.1.itic 0).inside
    have cursor : ((run record (boot 0 fun _ => 0) toSecondPage).s.itic 0).re = 32 := by
      decide +kernel
    change ((run record (boot 0 fun _ => 0) toSecondPage).s.itic 0).re < max 1 0 at inside
    omega
  · intro exact
    obtain ⟨deleted, _⟩ := ((along_append ..).mp exact).2
    have inside := deleted.1.alarm.inside
    have cursor : (run record (boot 0 fun _ => 0) resetBroken).s.alarms.alist.re = 32 := by
      decide +kernel
    change (run record (boot 0 fun _ => 0) resetBroken).s.alarms.alist.re < max 1 0 at inside
    omega

end SV300.Log.Paging
