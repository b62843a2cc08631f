/- SV300/Log/Event
   digest: Runs of pushes, clears, saves and reloads of the PQ event FIFO against its history. -/

import SV300.Library.Runs
import SV300.Log.Listing

set_option autoImplicit false
set_option relaxedAutoImplicit false

namespace SV300.Log.Event

open SV300.Library.Ring
open SV300.Library.Runs
open SV300.Log.Store
open SV300.Log.Listing

/-- `EVENT_LOG`; a float is its bit pattern. -/
structure EventLog where
  startTs : UInt32
  msec : UInt16
  duration : UInt16
  type : UInt16
  mask : UInt16
  level : Fin 3 → UInt32

/-- `ITIC_LOG`: an event and the rated value it is measured against. -/
structure IticLog extends EventLog where
  norm : UInt32

instance : Zero EventLog := ⟨⟨0, 0, 0, 0, 0, fun _ => 0⟩⟩

instance : Zero IticLog := ⟨⟨0, 0⟩⟩

/-- `sizeof(EVENT_U)`. -/
abbrev sizeofEventU : Nat := 28

/-- The event part of one meter channel: the FIFO, the page last fetched and the FIFO file. -/
structure State where
  eventFifo : Fifo IticLog
  elist : Page EventLog
  file : Option (File IticLog)

def eventBottom (count : Nat) : Nat := (((count : Int) - 1).tdiv nEventList * nEventList).toNat

def fetchEvent (cmd : Nat) (s : State) : State :=
  { s with
    elist := fetchPage nEventFifo nEventList (eventBottom s.eventFifo.count) s.eventFifo.fr
      s.eventFifo.count (fun ix => (s.eventFifo.log ix.toNat).toEventLog) cmd s.elist }

theorem eventBottom_eq (count : Nat) : eventBottom count = (count - 1) / nEventList * nEventList := by
  unfold eventBottom
  cases count with
  | zero => rfl
  | succ n =>
    rw [Nat.add_sub_cancel, Int.natCast_succ, Int.add_sub_cancel]
    exact Int.toNat_natCast _

/-- `pushEvent`, from the entry it has built on. -/
def pushEvent (s : State) (entry : IticLog) : State :=
  fetchEvent 0 { s with eventFifo := append nEventFifo s.eventFifo entry }

def noPage : Page EventLog := ⟨0, 0, 0, List.replicate nEventList 0⟩

/-- `clearEventList`; its `rm` message is served later. -/
def clearEventList (s : State) : State :=
  { s with elist := noPage, eventFifo := zeroed nEventFifo s.eventFifo }

def loadEventFifo (s : State) : State :=
  let loaded := load nEventFifo sizeofEventU s.eventFifo s.file
  fetchEvent 3 { s with eventFifo := loaded.1, file := loaded.2 }

/-- A push, a clear, an `ff` message served at some second, an `rm` message served, a boot. -/
inductive Op
  | push (entry : IticLog)
  | clear
  | store (sysTick1s : UInt32)
  | remove
  | reload

def step (s : State) : Op → State
  | .push entry => pushEvent s entry
  | .clear => clearEventList s
  | .store now => { s with file := some (snapshot nEventFifo now s.eventFifo) }
  | .remove => { s with file := none }
  | .reload => loadEventFifo s

/-- The empty FIFO, with any memory behind its array. -/
def empty (behind : Nat → IticLog) : State where
  eventFifo := { fr := 0, re := 0, count := 0, log := fun i => if i < nEventFifo then 0 else behind i }
  elist := noPage
  file := none

/-- The events a FIFO stands for, and those its file stands for. -/
structure History where
  held : List IticLog
  saved : List IticLog

def History.step (h : History) : Op → History
  | .push entry => { h with held := h.held ++ [entry] }
  | .clear => { h with held := [] }
  | .store _ => { h with saved := h.held }
  | .remove => { h with saved := [] }
  | .reload => { h with held := h.saved }

/-- One more operation for the list of the events pushed since the last clear. -/
def sinceClearStep (pushed : List IticLog) : Op → List IticLog
  | .push entry => pushed ++ [entry]
  | .clear => []
  | _ => pushed

def sinceClear (ops : List Op) : List IticLog := run sinceClearStep [] ops

/-- A reload finds a file that is not full. -/
def ReloadFits (s : State) (op : Op) : Prop :=
  op = .reload → ∀ file, s.file = some file → file.head.count < nEventFifo

theorem ReloadFits.push (s : State) (ilog : IticLog) : ReloadFits s (.push ilog) := nofun

theorem ReloadFits.store (s : State) (now : UInt32) : ReloadFits s (.store now) := nofun

/-- A reload finds the file of the FIFO as it stands. -/
def ReloadCurrent (s : State) (op : Op) : Prop :=
  op = .reload →
    (s.file = none → s.eventFifo.count = 0) ∧
    ∀ file, s.file = some file → file.body = (List.range s.eventFifo.count).map s.eventFifo.log

/-- The FIFO shows its history, its file holds the saved one unless it is full, and the memory
behind the array is untouched. -/
structure Tracks (behind : Nat → IticLog) (s : State) (h : History) : Prop where
  ring : Shows nEventFifo s.eventFifo h.held
  behind : ∀ i, nEventFifo ≤ i → s.eventFifo.log i = behind i
  unsaved : s.file = none → h.saved = []
  saved : ∀ file, s.file = some file →
    ∃ body, Saved nEventFifo file body ∧ (body.length < nEventFifo → body = h.saved)

@[simp] theorem fetchEvent_eventFifo (cmd : Nat) (s : State) :
    (fetchEvent cmd s).eventFifo = s.eventFifo := rfl

@[simp] theorem fetchEvent_file (cmd : Nat) (s : State) : (fetchEvent cmd s).file = s.file := rfl

private theorem append_behind {f : Fifo IticLog} {behind : Nat → IticLog}
    (kept : ∀ i, nEventFifo ≤ i → f.log i = behind i) (inside : f.fr < nEventFifo)
    (entry : IticLog) : ∀ i, nEventFifo ≤ i → (append nEventFifo f entry).log i = behind i := by
  intro i outside
  have log : (append nEventFifo f entry).log = Function.update f.log f.fr entry := by
    rw [append]
    split <;> rfl
  have other : i ≠ f.fr := by
    intro same
    rw [same] at outside
    exact absurd inside (Nat.not_lt.mpr outside)
  rw [log, Function.update_of_ne other, kept i outside]

theorem tracks_empty (behind : Nat → IticLog) : Tracks behind (empty behind) ⟨[], []⟩ where
  ring := shows_zeroed nEventFifo ⟨0, 0, 0, behind⟩
  behind _ outside := if_neg (Nat.not_lt.mpr outside)
  unsaved _ := rfl
  saved _ absent := nomatch absent

private theorem tracks_push {behind : Nat → IticLog} {s : State} {h : History}
    (tracks : Tracks behind s h) (entry : IticLog) :
    Tracks behind (pushEvent s entry) { h with held := h.held ++ [entry] } where
  ring := tracks.ring.append (by decide) entry
  behind := append_behind tracks.behind (tracks.ring.fr_lt (by decide)) entry
  unsaved := tracks.unsaved
  saved := tracks.saved

private theorem tracks_clear {behind : Nat → IticLog} {s : State} {h : History}
    (tracks : Tracks behind s h) : Tracks behind (clearEventList s) { h with held := [] } where
  ring := shows_zeroed nEventFifo s.eventFifo
  behind i outside := (if_neg (Nat.not_lt.mpr outside)).trans (tracks.behind i outside)
  unsaved := tracks.unsaved
  saved := tracks.saved

private theorem saved_store {behind : Nat → IticLog} {s : State} {h : History}
    (tracks : Tracks behind s h) (now : UInt32) :
    Saved nEventFifo (snapshot nEventFifo now s.eventFifo)
      ((List.range s.eventFifo.count).map s.eventFifo.log) :=
  snapshot_saved now (Nat.le_of_lt (tracks.ring.fr_lt (by decide))) tracks.ring.count_le

private theorem tracks_store {behind : Nat → IticLog} {s : State} {h : History}
    (tracks : Tracks behind s h) (now : UInt32) :
    Tracks behind (step s (.store now)) { h with saved := h.held } where
  ring := tracks.ring
  behind := tracks.behind
  unsaved absent := nomatch absent
  saved file stored := by
    obtain rfl := Option.some.inj stored
    refine ⟨_, saved_store tracks now, ?_⟩
    intro few
    rw [List.length_map, List.length_range, tracks.ring.count] at few
    exact tracks.ring.slots (by omega)

private theorem tracks_remove {behind : Nat → IticLog} {s : State} {h : History}
    (tracks : Tracks behind s h) : Tracks behind (step s .remove) { h with saved := [] } where
  ring := tracks.ring
  behind := tracks.behind
  unsaved _ := rfl
  saved _ absent := nomatch absent

private theorem tracks_reload {behind : Nat → IticLog} {s : State} {h : History}
    (tracks : Tracks behind s h) (fits : ReloadFits s .reload) :
    Tracks behind (loadEventFifo s) { h with held := h.saved } := by
  cases stored : s.file with
  | none =>
    have fifo : (loadEventFifo s).eventFifo = zeroed nEventFifo s.eventFifo := by
      rw [loadEventFifo, stored]
      rfl
    have file : (loadEventFifo s).file = none := by
      rw [loadEventFifo, stored]
      rfl
    refine ⟨?_, ?_, fun _ => tracks.unsaved stored, ?_⟩
    · rw [fifo, tracks.unsaved stored]
      exact shows_zeroed nEventFifo s.eventFifo
    · intro i outside
      rw [fifo]
      exact (if_neg (Nat.not_lt.mpr outside)).trans (tracks.behind i outside)
    · intro other present
      rw [file] at present
      cases present
  | some file =>
    obtain ⟨body, saved, short⟩ := tracks.saved file stored
    have few : body.length < nEventFifo := by
      have below := fits rfl file stored
      rw [saved.count] at below
      exact Int.ofNat_lt.mp below
    obtain ⟨log, loaded, holds, behind_kept⟩ := saved.load sizeofEventU s.eventFifo
    have fifo : (loadEventFifo s).eventFifo = ⟨body.length, 0, body.length, log⟩ := by
      rw [loadEventFifo, stored, loaded]
      rfl
    have kept : (loadEventFifo s).file = some file := by
      rw [loadEventFifo, stored, loaded]
      rfl
    have shown := saved.load_shows few sizeofEventU s.eventFifo
    rw [loaded, short few] at shown
    refine ⟨?_, ?_, ?_, ?_⟩
    · rw [fifo, short few]
      exact shown
    · intro i outside
      rw [fifo]
      exact (behind_kept i outside).trans (tracks.behind i outside)
    · intro absent
      rw [kept] at absent
      cases absent
    · intro other present
      rw [kept, Option.some.injEq] at present
      obtain rfl := present
      exact ⟨body, saved, short⟩

theorem tracks_step {behind : Nat → IticLog} (s : State) (h : History) (op : Op)
    (tracks : Tracks behind s h) (fits : ReloadFits s op) :
    Tracks behind (step s op) (h.step op) := by
  cases op with
  | push entry => exact tracks_push tracks entry
  | clear => exact tracks_clear tracks
  | store now => exact tracks_store tracks now
  | remove => exact tracks_remove tracks
  | reload => exact tracks_reload tracks fits

private theorem held_eq_saved {behind : Nat → IticLog} {s : State} {h : History}
    (tracks : Tracks behind s h) (fits : ReloadFits s .reload)
    (current : ReloadCurrent s .reload) : h.held = h.saved := by
  have count := tracks.ring.count
  cases stored : s.file with
  | none =>
    rw [(current rfl).1 stored] at count
    rw [tracks.unsaved stored, ← List.length_eq_zero_iff]
    have cap : nEventFifo = 1024 := rfl
    omega
  | some file =>
    obtain ⟨body, saved, short⟩ := tracks.saved file stored
    have written := (current rfl).2 file stored
    have few : body.length < nEventFifo := by
      have below := fits rfl file stored
      rw [saved.count] at below
      exact Int.ofNat_lt.mp below
    rw [saved.body] at written
    have length : body.length = s.eventFifo.count := by
      rw [written, List.length_map, List.length_range]
    rw [← short few, written, tracks.ring.slots (by omega)]

private theorem tracks_since {behind : Nat → IticLog} (s : State) (pushed : List IticLog) (op : Op)
    (tracks : ∃ saved, Tracks behind s ⟨pushed, saved⟩)
    (guard : ReloadFits s op ∧ ReloadCurrent s op) :
    ∃ saved, Tracks behind (step s op) ⟨sinceClearStep pushed op, saved⟩ := by
  obtain ⟨saved, tracks⟩ := tracks
  have next := tracks_step s _ op tracks guard.1
  cases op with
  | push entry => exact ⟨_, next⟩
  | clear => exact ⟨_, next⟩
  | store now => exact ⟨_, next⟩
  | remove => exact ⟨_, next⟩
  | reload =>
    have same : pushed = saved := held_eq_saved tracks guard.1 guard.2
    exact ⟨saved, same ▸ next⟩

theorem delivered_fetchEvent {s : State} (counted : s.eventFifo.count ≤ nEventFifo) :
    delivered fetchEvent State.elist nEventList s =
      ((List.range s.eventFifo.count).map fun j =>
        s.eventFifo.log (back nEventFifo s.eventFifo.fr (j + 1)).toNat).map IticLog.toEventLog := by
  have reads : ∀ cmd (t : State), t.eventFifo = s.eventFifo → (fetchEvent cmd t).elist =
      fetchPage nEventFifo nEventList (eventBottom s.eventFifo.count) s.eventFifo.fr
        s.eventFifo.count (fun ix => (s.eventFifo.log ix.toNat).toEventLog) cmd t.elist := by
    intro cmd t same
    rw [fetchEvent, same]
  have keeps : ∀ cmd (t : State), t.eventFifo = s.eventFifo →
      (fetchEvent cmd t).eventFifo = s.eventFifo :=
    fun _ _ same => same
  rw [delivered_eq keeps reads rfl (by decide) counted, List.map_map]
  rfl

theorem Tracks.delivered {behind : Nat → IticLog} {s : State} {h : History}
    (tracks : Tracks behind s h) : delivered fetchEvent State.elist nEventList s =
      ((latest s.eventFifo.count h.held).map IticLog.toEventLog).reverse := by
  rw [delivered_fetchEvent tracks.ring.count_le, shown_backwards tracks.ring (by decide),
    List.map_reverse]

/-- In every run whose reloads find a file below its capacity, the write index stays in the array,
and the FIFO holds the last entries of its history, which the pages deliver newest first. Where a
reload also finds the FIFO's own file, that history is what was pushed since the last clear. -/
theorem short_reloads_keep_fifo (behind : Nat → IticLog) (ops : List Op)
    (fits : Along step ReloadFits (empty behind) ops) :
    let s := run step (empty behind) ops
    let kept := min s.eventFifo.count nEventFifo
    (s.eventFifo.fr < nEventFifo ∧ s.eventFifo.count ≤ nEventFifo ∧
      ∀ i, nEventFifo ≤ i → s.eventFifo.log i = behind i) ∧
    contents nEventFifo s.eventFifo = latest kept (run History.step ⟨[], []⟩ ops).held ∧
    (Along step ReloadCurrent (empty behind) ops →
      contents nEventFifo s.eventFifo = latest kept (sinceClear ops)) ∧
    delivered fetchEvent State.elist nEventList s =
      ((contents nEventFifo s.eventFifo).map IticLog.toEventLog).reverse := by
  intro s kept
  have tracks := simulation_run tracks_step (tracks_empty behind) fits
  have all : kept = s.eventFifo.count := Nat.min_eq_left tracks.ring.count_le
  refine ⟨⟨tracks.ring.fr_lt (by decide), tracks.ring.count_le, tracks.behind⟩, ?_, ?_, ?_⟩
  · rw [all]
    exact tracks.ring.contents
  · intro current
    obtain ⟨saved, since⟩ := simulation_run tracks_since ⟨_, tracks_empty behind⟩
      (Along.and fits current)
    rw [all]
    exact since.ring.contents
  · rw [tracks.ring.contents]
    exact tracks.delivered

/-- A sag stored, reloaded and followed by a swell: the file is current and far from full. -/
def shortRun : List Op :=
  [.push ⟨⟨1, 0, 10, 1, 7, fun _ => 0⟩, 0⟩, .store 60, .reload,
    .push ⟨⟨2, 0, 20, 2, 7, fun _ => 0⟩, 0⟩]

theorem shortRun_kept :
    (run step (empty fun _ => 0) shortRun).eventFifo.fr < nEventFifo ∧
      contents nEventFifo (run step (empty fun _ => 0) shortRun).eventFifo =
        latest 2 (sinceClear shortRun) := by
  have fits : Along step ReloadFits (empty fun _ => 0) shortRun := by
    refine ⟨nofun, nofun, ?_, nofun, trivial⟩
    intro _ file stored
    obtain rfl := Option.some.inj stored
    decide
  have current : Along step ReloadCurrent (empty fun _ => 0) shortRun := by
    refine ⟨nofun, nofun, ?_, nofun, trivial⟩
    intro _
    refine ⟨nofun, ?_⟩
    intro file stored
    obtain rfl := Option.some.inj stored
    rfl
  have kept := short_reloads_keep_fifo (fun _ => 0) shortRun fits
  exact ⟨kept.1.1, kept.2.2.1 current⟩

private theorem sinceClear_pushes (n : Nat) (entry : IticLog) (pushed : List IticLog) :
    run sinceClearStep pushed (List.replicate n (.push entry)) =
      pushed ++ List.replicate n entry := by
  induction n generalizing pushed with
  | zero => simp
  | succ n ih =>
    rw [List.replicate_succ, run_cons, sinceClearStep, ih, List.append_assoc, List.replicate_succ]
    rfl

private theorem pushes_without_reload {P : State → Op → Prop}
    (other : ∀ s entry, P s (.push entry)) (s : State) (n : Nat) (entry : IticLog) :
    Along step P s (List.replicate n (.push entry)) := by
  induction n generalizing s with
  | zero => trivial
  | succ n ih => exact ⟨other s entry, ih _⟩

private theorem reload_full {behind : Nat → IticLog} {s : State} {h : History}
    (tracks : Tracks behind s h) (full : nEventFifo ≤ h.held.length) (now : UInt32) :
    (run step s [.store now, .reload]).eventFifo.fr = nEventFifo ∧
      (run step s [.store now, .reload]).eventFifo.count = nEventFifo := by
  have count : s.eventFifo.count = nEventFifo := by
    rw [tracks.ring.count]
    exact Nat.min_eq_right full
  obtain ⟨log, loaded, _⟩ := (saved_store tracks now).load sizeofEventU s.eventFifo
  rw [List.length_map, List.length_range, count] at loaded
  have fifo : (run step s [.store now, .reload]).eventFifo = ⟨nEventFifo, 0, nEventFifo, log⟩ := by
    simp only [run_cons, run_nil, step, loadEventFifo, loaded, fetchEvent_eventFifo]
  rw [fifo]
  exact ⟨rfl, rfl⟩

/-- After 1024 pushes, a save and a reload, the next event is written behind the array. -/
theorem full_reload_writes_behind :
    let full := List.replicate 1024 (.push 0) ++ [.store 0, .reload]
    let next : IticLog := ⟨⟨1, 0, 10, 1, 7, fun _ => 0⟩, 0⟩
    (run step (empty fun _ => 0) full).eventFifo.fr = nEventFifo ∧
      (run step (empty fun _ => 0) (full ++ [.push next])).eventFifo.log nEventFifo = next := by
  intro full next
  have fits := pushes_without_reload (P := fun s op => ReloadFits s op ∧ ReloadCurrent s op)
    (fun _ _ => ⟨nofun, nofun⟩) (empty fun _ => 0) 1024 0
  obtain ⟨saved, tracks⟩ := simulation_run tracks_since ⟨_, tracks_empty fun _ => 0⟩ fits
  rw [sinceClear_pushes, List.nil_append] at tracks
  have reloaded := reload_full tracks (Nat.le_of_eq List.length_replicate.symm) 0
  have index : (run step (empty fun _ => 0) full).eventFifo.fr = nEventFifo := by
    rw [run_append]
    exact reloaded.1
  refine ⟨index, ?_⟩
  rw [run_append, run_cons, run_nil]
  have written : ∀ s entry, (step s (.push entry)).eventFifo.log =
      Function.update s.eventFifo.log s.eventFifo.fr entry := by
    intro s entry
    rw [step, pushEvent, fetchEvent_eventFifo]
    dsimp only
    rw [append]
    split <;> rfl
  rw [written, index, Function.update_self]

end SV300.Log.Event
