/- SV300/Quality/Handoff
   digest: Event detection interleaved with the ten-minute update and the file task, step by step. -/

import SV300.Library.Runs
import SV300.Quality.Update

set_option autoImplicit false
set_option relaxedAutoImplicit false

namespace SV300.Quality.Handoff

open SV300.Library.Runs
open SV300.Quality.Week
open SV300.Quality.QwFile (EventLog nEventQ)
open SV300.Quality.Update

variable {F : Type}

/-- A detected event: what is logged, the counters it belongs to (an overcurrent has none) and the
phases it was seen on. -/
structure Detection (F : Type) where
  log : EventLog F
  kind : Option EventKind
  mask : Nat

/-- A counter: of a phase, or of the events on several phases. -/
abbrev Counter := EventKind × Fin 4

def counters : List Counter :=
  [EventKind.sag, .swell, .shortIntr, .longIntr, .rvc].flatMap fun k =>
    (List.finRange 4).map fun i => (k, i)

private theorem mem_counters (c : Counter) : c ∈ counters := by
  rcases c with ⟨k, i⟩
  cases k
  all_goals
    simp [counters]

private theorem nodup_counters : counters.Nodup := by decide

def phases (mask : Nat) : List (Fin 3) := (List.finRange 3).filter fun i => mask.testBit i

/-- `updateEventCount`: a count for each phase, and one more if there are several. -/
def updateEventCount (mask : Nat) (ec : Fin 4 → UInt32) : Fin 4 → UInt32 :=
  let ec := (phases mask).foldl (fun ec i => Function.update ec i.castSucc (ec i.castSucc + 1)) ec
  if 1 < (phases mask).length then Function.update ec 3 (ec 3 + 1) else ec

def bump (mask : Nat) : Fin 4 → UInt32
  | 0 => if mask.testBit 0 then 1 else 0
  | 1 => if mask.testBit 1 then 1 else 0
  | 2 => if mask.testBit 2 then 1 else 0
  | 3 => if 1 < (phases mask).length then 1 else 0

private theorem updateEventCount_eq (mask : Nat) (ec : Fin 4 → UInt32) (i : Fin 4) :
    updateEventCount mask ec i = ec i + bump mask i := by
  have three : phases mask = [0, 1, 2].filter fun i : Fin 3 => mask.testBit i := rfl
  rw [updateEventCount, three]
  cases first : mask.testBit 0
  all_goals
    cases second : mask.testBit 1
    all_goals
      cases third : mask.testBit 2
      all_goals
        match i with
        | 0 => simp [bump, first, second, third, Function.update]
        | 1 => simp [bump, first, second, third, Function.update]
        | 2 => simp [bump, first, second, third, Function.update]
        | 3 => simp [bump, three, first, second, third, Function.update]

def raised (d : Detection F) (c : Counter) : UInt32 :=
  if d.kind = some c.1 then bump d.mask c.2 else 0

def tally (ds : List (Detection F)) (c : Counter) : UInt32 :=
  ds.foldl (fun n d => n + raised d c) 0

private theorem tally_append (ds : List (Detection F)) (d : Detection F) (c : Counter) :
    tally (ds ++ [d]) c = tally ds c + raised d c := by
  rw [tally, List.foldl_append]
  rfl

/-- Where the update stands. -/
inductive Pc
  | idle
  | adding (rest : List Counter) (rollover : Bool)
  | checking (rollover : Bool)
  | copying (rollover : Bool)
  | emptying (rollover : Bool)
  | starting (accepted : Bool)
  | committing
  | clearing (rest : List Counter)
  deriving DecidableEq

/-- The data the three tasks share, where each of them stands, and a history: the counters of the
weeks that are over, the events handed to the weekly files, the detections, and how many of them
there were since the queue was emptied for a job. -/
structure St (F : Type) where
  eventQ : List (EventLog F)
  ten : Counter → UInt32
  week : Counter → UInt32
  ev : List (EventLog F)
  pending : Bool
  pc : Pc
  uncounted : Option (Detection F)
  taken : Bool
  closed : Counter → UInt32
  filed : List (EventLog F)
  seen : List (Detection F)
  since : Nat

/-- The step of the update that is due: the counters are added to the week one by one, the job is prepared
unless the last one is pending, a new record is started at the end of a week, the job is committed,
and the counters are cleared one by one. -/
def consumeAt (s : St F) : Pc → St F
  | .idle => s
  | .adding [] rollover => { s with pc := .checking rollover }
  | .adding (c :: cs) rollover =>
    { s with week := Function.update s.week c (s.week c + s.ten c), pc := .adding cs rollover }
  | .checking rollover =>
    { s with
      pc := if s.pending then if rollover then .starting false else .clearing counters
        else .copying rollover }
  | .copying rollover => { s with ev := s.eventQ, pc := .emptying rollover }
  | .emptying rollover =>
    { s with eventQ := [], since := 0, pc := if rollover then .starting true else .committing }
  | .starting accepted =>
    { s with
      closed := fun c => s.closed c + s.week c
      week := fun _ => 0
      pc := if accepted then .committing else .clearing counters }
  | .committing => { s with pending := true, pc := .clearing counters }
  | .clearing [] => { s with pc := .idle }
  | .clearing (c :: cs) => { s with ten := Function.update s.ten c 0, pc := .clearing cs }

def consume (s : St F) : St F := consumeAt s s.pc

/-- A step of the detection (`pushEvent`, then `updateEventCount`), of the update, or of the file
task (the events are handed to the weekly file, then the job is released). -/
inductive Event (F : Type)
  | push (d : Detection F)
  | count
  | start (rollover : Bool)
  | consume
  | hand
  | release

def step (s : St F) : Event F → St F
  | .push d =>
    match s.uncounted with
    | some _ => s
    | none => { s with
        eventQ := if s.eventQ.length < nEventQ then s.eventQ ++ [d.log] else s.eventQ
        uncounted := some d
        seen := s.seen ++ [d]
        since := s.since + 1 }
  | .count =>
    match s.uncounted with
    | none => s
    | some d => { s with
        ten := match d.kind with
          | some k => fun c =>
            if c.1 = k then updateEventCount d.mask (fun i => s.ten (k, i)) c.2 else s.ten c
          | none => s.ten
        uncounted := none }
  | .start rollover => if s.pc = .idle then { s with pc := .adding counters rollover } else s
  | .consume => consume s
  | .hand =>
    if s.pending ∧ ¬s.taken then { s with filed := s.filed ++ s.ev, taken := true } else s
  | .release => if s.taken then { s with pending := false, taken := false } else s

def initial : St F where
  eventQ := []
  ten _ := 0
  week _ := 0
  ev := []
  pending := false
  pc := .idle
  uncounted := none
  taken := false
  closed _ := 0
  filed := []
  seen := []
  since := 0

/-- A counter of the ten minutes is already in the week and not yet cleared. -/
def Added (c : Counter) : Pc → Prop
  | .idle => False
  | .adding rest _ => c ∉ rest
  | .clearing rest => c ∈ rest
  | _ => True

instance (c : Counter) (pc : Pc) : Decidable (Added c pc) := by
  cases pc
  all_goals
    dsimp only [Added]
    infer_instance

/-- What a counter of the ten minutes still has to give to the week. -/
def unadded (pc : Pc) (ten : Counter → UInt32) (c : Counter) : UInt32 :=
  if Added c pc then 0 else ten c

private theorem unadded_of_added {c : Counter} {pc : Pc} (ten : Counter → UInt32) (h : Added c pc) :
    unadded pc ten c = 0 :=
  if_pos h

private theorem unadded_of_not {c : Counter} {pc : Pc} (ten : Counter → UInt32) (h : ¬Added c pc) :
    unadded pc ten c = ten c :=
  if_neg h

/-- The events that left the queue and are not yet handed to a file. -/
def waiting (s : St F) : List (EventLog F) :=
  if s.pending then if s.taken then [] else s.ev
  else
    match s.pc with
    | .starting true => s.ev
    | .committing => s.ev
    | _ => []

private theorem waiting_free {s : St F} (free : s.pending = false) :
    waiting s =
      match s.pc with
      | .starting true => s.ev
      | .committing => s.ev
      | _ => [] := by
  rw [waiting, free, if_neg Bool.false_ne_true]

def uncountedOf (s : St F) (c : Counter) : UInt32 :=
  match s.uncounted with
  | some d => raised d c
  | none => 0

/-- Every detected event is in a file, on its way to one or in the queue, once and in order; and
every counter of the weeks, with what is still to be added to it, has counted every detection
once. -/
structure Accounted (s : St F) : Prop where
  events : s.filed ++ waiting s ++ s.eventQ = s.seen.map Detection.log
  counts : ∀ c, s.closed c + s.week c + unadded s.pc s.ten c + uncountedOf s c = tally s.seen c

/-- No more events between two accepted jobs than the queue has room for; and the detection does not
meet the update between the copy of the queue and its clearing, nor a counter between its adding
and its clearing. -/
def Apart (s : St F) : Event F → Prop
  | .push _ => s.uncounted = none → s.since < nEventQ ∧ ∀ rollover, s.pc ≠ .emptying rollover
  | .count => ∀ d, s.uncounted = some d → ∀ c, raised d c ≠ 0 → ¬Added c s.pc
  | _ => True

/-- The job's buffer is the update's. -/
def Preparing : Pc → Prop
  | .copying _ => True
  | .emptying _ => True
  | .starting accepted => accepted = true
  | .committing => True
  | _ => False

/-- The counters still to be walked are distinct. -/
def Walks : Pc → Prop
  | .adding rest _ => rest.Nodup
  | .clearing rest => rest.Nodup
  | _ => True

structure Consistent (s : St F) : Prop extends Accounted s where
  room : s.eventQ.length ≤ s.since
  free : Preparing s.pc → s.pending = false
  copied : ∀ rollover, s.pc = .emptying rollover → s.ev = s.eventQ
  taken : s.taken = true → s.pending = true
  walks : Walks s.pc

private theorem initial_consistent : Consistent (initial : St F) where
  events := rfl
  counts _ := rfl
  room := Nat.le_refl 0
  free := nofun
  copied := nofun
  taken := nofun
  walks := trivial

private theorem counted_eq (s : St F) (d : Detection F) (c : Counter) :
    (match d.kind with
      | some k => fun c : Counter =>
        if c.1 = k then updateEventCount d.mask (fun i => s.ten (k, i)) c.2 else s.ten c
      | none => s.ten) c = s.ten c + raised d c := by
  rw [raised]
  cases kind : d.kind with
  | none => simp
  | some k =>
    dsimp only
    by_cases own : c.1 = k
    · subst own
      rw [if_pos rfl, if_pos rfl, updateEventCount_eq]
    · have other : ¬some k = some c.1 := fun same => own (Option.some.inj same).symm
      rw [if_neg own, if_neg other, UInt32.add_zero]

private theorem push_consistent {s : St F} (h : Consistent s) (d : Detection F)
    (apart : Apart s (.push d)) : Consistent (step s (.push d)) := by
  rw [step]
  cases idle : s.uncounted with
  | some _ => exact h
  | none =>
    obtain ⟨fits, between⟩ := apart idle
    have room := Nat.lt_of_le_of_lt h.room fits
    have events := h.events
    refine ⟨⟨?_, ?_⟩, ?_, h.free, ?_, h.taken, h.walks⟩
    · dsimp only
      rw [if_pos room, List.map_append, ← events, ← List.append_assoc]
      rfl
    · intro c
      have counts := h.counts c
      rw [uncountedOf, idle] at counts
      dsimp only [uncountedOf] at counts ⊢
      rw [tally_append, ← counts, UInt32.add_zero]
    · dsimp only
      rw [if_pos room, List.length_append]
      exact Nat.add_le_add_right h.room 1
    · intro rollover copied
      exact absurd copied (between rollover)

private theorem count_consistent {s : St F} (h : Consistent s) (apart : Apart s .count) :
    Consistent (step s .count) := by
  rw [step]
  cases open_ : s.uncounted with
  | none => exact h
  | some d =>
    refine ⟨⟨h.events, ?_⟩, h.room, h.free, h.copied, h.taken, h.walks⟩
    intro c
    have counts := h.counts c
    rw [uncountedOf, open_] at counts
    dsimp only [uncountedOf] at counts ⊢
    rw [← counts]
    by_cases added : Added c s.pc
    · have none : raised d c = 0 := by
        by_contra some
        exact apart d open_ c some added
      rw [unadded_of_added _ added, unadded_of_added _ added, none]
    · rw [unadded_of_not _ added, unadded_of_not _ added, counted_eq, UInt32.add_zero,
        ← UInt32.add_assoc]

private theorem start_consistent {s : St F} (h : Consistent s) (rollover : Bool) :
    Consistent (step s (.start rollover)) := by
  rw [step]
  split
  · rename_i idle
    have events := h.events
    have counts := h.counts
    rw [waiting, idle] at events
    rw [idle] at counts
    refine ⟨⟨events, ?_⟩, h.room, nofun, nofun, h.taken, nodup_counters⟩
    intro c
    have before : ¬Added c (.adding counters rollover) := fun added => added (mem_counters c)
    have here := counts c
    have idle : ¬Added c .idle := id
    rw [unadded_of_not _ idle] at here
    dsimp only
    rw [unadded_of_not _ before]
    exact here
  · exact h

private theorem hand_consistent {s : St F} (h : Consistent s) : Consistent (step s .hand) := by
  rw [step]
  split
  · rename_i ready
    have events := h.events
    rw [waiting, if_pos ready.1, if_neg ready.2] at events
    refine ⟨⟨?_, h.counts⟩, h.room, h.free, h.copied, fun _ => ready.1, h.walks⟩
    rw [waiting, if_pos ready.1, if_pos rfl, List.append_nil]
    exact events
  · exact h

private theorem release_consistent {s : St F} (h : Consistent s) :
    Consistent (step s .release) := by
  rw [step]
  split
  · rename_i taken
    have pending := h.taken taken
    have events := h.events
    rw [waiting, if_pos pending, if_pos taken] at events
    refine ⟨⟨?_, h.counts⟩, h.room, fun _ => rfl, h.copied, nofun, h.walks⟩
    have busy : ¬Preparing s.pc := fun preparing =>
      Bool.false_ne_true ((h.free preparing).symm.trans pending)
    have none : waiting { s with pending := false, taken := false } = [] := by
      rw [waiting, if_neg Bool.false_ne_true]
      dsimp only
      split
      · rename_i pc
        rw [pc] at busy
        exact absurd rfl busy
      · rename_i pc
        rw [pc] at busy
        exact absurd trivial busy
      · rfl
    rw [none]
    exact events
  · exact h

private theorem counts_added {s : St F} {k : Counter} {rest : List Counter} {rollover : Bool}
    (at_ : s.pc = .adding (k :: rest) rollover) (fresh : k ∉ rest) (c : Counter) :
    Function.update s.week k (s.week k + s.ten k) c + unadded (.adding rest rollover) s.ten c =
      s.week c + unadded s.pc s.ten c := by
  rw [at_]
  by_cases own : c = k
  · subst own
    have before : ¬Added c (.adding (c :: rest) rollover) := fun added =>
      added List.mem_cons_self
    have after : Added c (.adding rest rollover) := fresh
    rw [unadded_of_not _ before, unadded_of_added _ after, Function.update_self, UInt32.add_zero]
  · have same : Added c (.adding rest rollover) ↔ Added c (.adding (k :: rest) rollover) := by
      simp [Added, own]
    rw [Function.update_of_ne own, unadded, unadded, if_congr same rfl rfl]

private theorem unadded_cleared (ten : Counter → UInt32) (k : Counter) {rest : List Counter}
    (c : Counter) :
    unadded (.clearing rest) (Function.update ten k 0) c = unadded (.clearing (k :: rest)) ten c := by
  by_cases own : c = k
  · subst own
    have before : Added c (.clearing (c :: rest)) := List.mem_cons_self
    rw [unadded_of_added _ before, unadded, Function.update_self]
    split
    · rfl
    · rfl
  · have same : Added c (.clearing rest) ↔ Added c (.clearing (k :: rest)) := by
      simp [Added, own]
    rw [unadded, unadded, Function.update_of_ne own, if_congr same rfl rfl]

private theorem consume_consistent {s : St F} (h : Consistent s) : Consistent (consume s) := by
  have events := h.events
  have counts := h.counts
  have walks := h.walks
  have free := h.free
  rw [waiting] at events
  rw [consume]
  cases at_ : s.pc with
  | idle => exact h
  | adding rest rollover =>
    rw [at_] at events walks
    cases rest with
    | nil =>
      rw [at_] at counts
      exact ⟨⟨events, counts⟩, h.room, nofun, nofun, h.taken, trivial⟩
    | cons k rest =>
      obtain ⟨fresh, walks⟩ := List.nodup_cons.1 walks
      refine ⟨⟨events, ?_⟩, h.room, nofun, nofun, h.taken, walks⟩
      intro c
      have moved := counts_added at_ fresh c
      have here := counts c
      dsimp only [uncountedOf, consumeAt] at here ⊢
      rw [UInt32.add_assoc (s.closed c), moved, ← UInt32.add_assoc]
      exact here
  | checking rollover =>
    rw [at_] at events counts
    rw [consumeAt]
    split
    · cases rollover with
      | true => exact ⟨⟨events, counts⟩, h.room, nofun, nofun, h.taken, trivial⟩
      | false =>
        refine ⟨⟨events, ?_⟩, h.room, nofun, nofun, h.taken, nodup_counters⟩
        intro c
        have before : Added c (.checking false) := trivial
        have after : Added c (.clearing counters) := mem_counters c
        have here := counts c
        rw [unadded_of_added _ before] at here
        dsimp only [uncountedOf] at here ⊢
        rw [if_neg Bool.false_ne_true, unadded_of_added _ after]
        exact here
    · rename_i free
      have free := Bool.eq_false_of_not_eq_true free
      exact ⟨⟨events, counts⟩, h.room, fun _ => free, nofun, h.taken, trivial⟩
  | copying rollover =>
    rw [at_] at events counts free
    have pending := free trivial
    refine ⟨⟨?_, counts⟩, h.room, fun _ => pending, fun _ _ => rfl, h.taken, trivial⟩
    have unpended : (consumeAt s (.copying rollover)).pending = false := pending
    rw [pending] at events
    rw [waiting_free unpended]
    exact events
  | emptying rollover =>
    have copied := h.copied rollover at_
    rw [at_] at events counts free
    have pending := free trivial
    rw [pending, if_neg Bool.false_ne_true] at events
    dsimp only at events
    rw [List.append_nil, ← copied] at events
    cases rollover with
    | true =>
      refine ⟨⟨?_, counts⟩, Nat.le_refl 0, fun _ => pending, nofun, h.taken, trivial⟩
      have unpended : (consumeAt s (.emptying true)).pending = false := pending
      rw [waiting_free unpended]
      exact (List.append_nil _).trans events
    | false =>
      refine ⟨⟨?_, counts⟩, Nat.le_refl 0, fun _ => pending, nofun, h.taken, trivial⟩
      have unpended : (consumeAt s (.emptying false)).pending = false := pending
      rw [waiting_free unpended]
      exact (List.append_nil _).trans events
  | starting accepted =>
    rw [at_] at events counts free
    have counted : ∀ c, s.closed c + s.week c + 0 + 0 + uncountedOf s c = tally s.seen c := by
      intro c
      have before : Added c (.starting accepted) := trivial
      have here := counts c
      rw [unadded_of_added _ before] at here
      rw [UInt32.add_zero (s.closed c + s.week c)]
      exact here
    cases accepted with
    | true => exact ⟨⟨events, counted⟩, h.room, fun _ => free rfl, nofun, h.taken, trivial⟩
    | false =>
      refine ⟨⟨events, ?_⟩, h.room, nofun, nofun, h.taken, nodup_counters⟩
      intro c
      have after : Added c (.clearing counters) := mem_counters c
      have here := counted c
      dsimp only [uncountedOf, consumeAt] at here ⊢
      rw [if_neg Bool.false_ne_true, unadded_of_added _ after]
      exact here
  | committing =>
    rw [at_] at events counts free
    have pending := free trivial
    have untaken : s.taken = false := by
      by_contra taken
      exact Bool.false_ne_true (pending.symm.trans (h.taken (Bool.eq_true_of_not_eq_false taken)))
    refine ⟨⟨?_, ?_⟩, h.room, nofun, nofun, fun _ => rfl, nodup_counters⟩
    · rw [pending] at events
      dsimp only [consumeAt]
      rw [waiting, if_pos rfl, if_neg (Bool.eq_false_iff.1 untaken)]
      exact events
    · intro c
      have before : Added c .committing := trivial
      have after : Added c (.clearing counters) := mem_counters c
      have here := counts c
      rw [unadded_of_added _ before] at here
      dsimp only [uncountedOf, consumeAt] at here ⊢
      rw [unadded_of_added _ after]
      exact here
  | clearing rest =>
    rw [at_] at events counts walks
    cases rest with
    | nil =>
      refine ⟨⟨events, ?_⟩, h.room, nofun, nofun, h.taken, trivial⟩
      intro c
      have here := counts c
      have before : ¬Added c (.clearing []) := List.not_mem_nil
      have after : ¬Added c .idle := id
      rw [unadded_of_not _ before] at here
      dsimp only [uncountedOf, consumeAt] at here ⊢
      rw [unadded_of_not _ after]
      exact here
    | cons k rest =>
      refine ⟨⟨events, ?_⟩, h.room, nofun, nofun, h.taken, (List.nodup_cons.1 walks).2⟩
      intro c
      have here := counts c
      dsimp only [uncountedOf, consumeAt] at here ⊢
      rw [unadded_cleared]
      exact here

private theorem step_consistent (s : St F) (e : Event F) (h : Consistent s) (apart : Apart s e) :
    Consistent (step s e) := by
  cases e with
  | push d => exact push_consistent h d apart
  | count => exact count_consistent h apart
  | start rollover => exact start_consistent h rollover
  | consume => exact consume_consistent h
  | hand => exact hand_consistent h
  | release => exact release_consistent h

def consumed (n : Nat) (s : St F) : St F := run step s (List.replicate n .consume)

theorem run_consume (n : Nat) (s : St F) :
    run step s (List.replicate n .consume) = consumed n s :=
  rfl

private theorem consumed_keeps {I : St F → Prop} (keeps : ∀ s, I s → I (consume s)) (n : Nat)
    {s : St F} (h : I s) : I (consumed n s) := by
  induction n generalizing s with
  | zero => exact h
  | succ n ih => exact ih (keeps s h)

def remaining : Pc → Nat
  | .idle => 0
  | .clearing rest => rest.length + 1
  | .committing => 22
  | .starting _ => 23
  | .emptying _ => 24
  | .copying _ => 25
  | .checking _ => 26
  | .adding rest _ => rest.length + 27

private theorem consume_remaining (s : St F) : remaining (consume s).pc ≤ remaining s.pc - 1 := by
  rw [consume]
  cases at_ : s.pc with
  | idle =>
    rw [consumeAt, at_]
    exact Nat.zero_le 0
  | adding rest rollover =>
    cases rest with
    | nil => exact Nat.le_refl 26
    | cons c cs => exact Nat.le_refl (cs.length + 27)
  | checking rollover =>
    rw [consumeAt]
    split
    · cases rollover with
      | true => exact Nat.le_add_right 23 2
      | false => exact Nat.le_add_right 21 4
    · exact Nat.le_refl 25
  | copying rollover => exact Nat.le_refl 24
  | emptying rollover =>
    cases rollover with
    | true => exact Nat.le_refl 23
    | false => exact Nat.le_add_right 22 1
  | starting accepted =>
    cases accepted with
    | true => exact Nat.le_refl 22
    | false => exact Nat.le_add_right 21 1
  | committing => exact Nat.le_refl 21
  | clearing rest =>
    cases rest with
    | nil => exact Nat.le_refl 0
    | cons c cs => exact Nat.le_refl (cs.length + 1)

private theorem consumed_remaining (n : Nat) (s : St F) :
    remaining (consumed n s).pc ≤ remaining s.pc - n := by
  induction n generalizing s with
  | zero => exact Nat.le_refl _
  | succ n ih =>
    have first := consume_remaining s
    have rest : remaining (consumed (n + 1) s).pc ≤ remaining (consume s).pc - n := ih (consume s)
    omega

private theorem idle_of_remaining {pc : Pc} (h : remaining pc = 0) : pc = .idle := by
  cases pc with
  | idle => rfl
  | _ => exact absurd h (by simp [remaining])

private theorem remaining_le {pc : Pc} (walks : Walks pc) : remaining pc ≤ 60 := by
  have within : ∀ rest : List Counter, rest.Nodup → rest.length ≤ 20 := by
    intro rest distinct
    have sub : rest ⊆ counters := fun c _ => mem_counters c
    exact (List.subperm_of_subset distinct sub).length_le
  cases pc with
  | adding rest rollover =>
    have short := within rest walks
    simp only [remaining]
    omega
  | clearing rest =>
    have short := within rest walks
    simp only [remaining]
    omega
  | _ => simp [remaining]

private theorem consumed_idle {s : St F} (h : Consistent s) : (consumed 60 s).pc = .idle := by
  apply idle_of_remaining
  have left := consumed_remaining 60 s
  have short := remaining_le h.walks
  omega

private theorem consume_seen (s : St F) :
    (consume s).seen = s.seen ∧ (consume s).uncounted = s.uncounted := by
  rw [consume]
  cases s.pc with
  | adding rest rollover =>
    cases rest with
    | nil => exact ⟨rfl, rfl⟩
    | cons c cs => exact ⟨rfl, rfl⟩
  | clearing rest =>
    cases rest with
    | nil => exact ⟨rfl, rfl⟩
    | cons c cs => exact ⟨rfl, rfl⟩
  | _ => exact ⟨rfl, rfl⟩

private theorem consumed_seen (n : Nat) (s : St F) :
    (consumed n s).seen = s.seen ∧ (consumed n s).uncounted = s.uncounted := by
  have keeps : ∀ t : St F, t.seen = s.seen ∧ t.uncounted = s.uncounted →
      (consume t).seen = s.seen ∧ (consume t).uncounted = s.uncounted := by
    intro t same
    have next := consume_seen t
    exact ⟨next.1.trans same.1, next.2.trans same.2⟩
  exact consumed_keeps keeps n ⟨rfl, rfl⟩

/-- An update inside a week that found the job's buffer free is on its way to an empty queue and
cleared counters. -/
def Draining (s : St F) : Pc → Prop
  | .idle => s.eventQ = [] ∧ ∀ c, s.ten c = 0
  | .adding _ rollover => rollover = false ∧ s.pending = false
  | .checking rollover => rollover = false ∧ s.pending = false
  | .copying rollover => rollover = false
  | .emptying rollover => rollover = false
  | .starting _ => False
  | .committing => s.eventQ = []
  | .clearing rest => s.eventQ = [] ∧ ∀ c, c ∉ rest → s.ten c = 0

private theorem consume_draining (s : St F) (h : Draining s s.pc) :
    Draining (consume s) (consume s).pc := by
  rw [consume]
  cases at_ : s.pc with
  | idle =>
    rw [at_] at h
    rw [consumeAt, at_]
    exact h
  | adding rest rollover =>
    rw [at_] at h
    cases rest with
    | nil => exact h
    | cons c cs => exact h
  | checking rollover =>
    rw [at_] at h
    obtain ⟨inside, free⟩ := h
    rw [consumeAt, if_neg (Bool.eq_false_iff.1 free)]
    exact inside
  | copying rollover =>
    rw [at_] at h
    exact h
  | emptying rollover =>
    rw [at_] at h
    have inside : rollover = false := h
    subst inside
    rfl
  | starting accepted =>
    rw [at_] at h
    exact h.elim
  | committing =>
    rw [at_] at h
    exact ⟨h, fun c missing => absurd (mem_counters c) missing⟩
  | clearing rest =>
    rw [at_] at h
    cases rest with
    | nil => exact ⟨h.1, fun c => h.2 c List.not_mem_nil⟩
    | cons k rest =>
      refine ⟨h.1, ?_⟩
      intro c missing
      by_cases own : c = k
      · subst own
        exact Function.update_self ..
      · have before : c ∉ k :: rest := fun mem => (List.mem_cons.1 mem).elim own missing
        exact (Function.update_of_ne own ..).trans (h.2 c before)

private theorem released {s : St F} (h : Consistent s) :
    step (step s .hand) .release =
      { s with
        filed := s.filed ++ if s.pending ∧ ¬s.taken then s.ev else []
        pending := false
        taken := false } := by
  have only := h.taken
  clear h
  obtain ⟨eventQ, ten, week, ev, pending, pc, uncounted, taken, closed, filed, seen, since⟩ := s
  cases pending with
  | true =>
    cases taken with
    | true => simp [step]
    | false => simp [step]
  | false =>
    cases taken with
    | true => exact absurd (only rfl) Bool.false_ne_true
    | false => simp [step]

private theorem release_hand_consistent {s : St F} (h : Consistent s) :
    Consistent (step (step s .hand) .release) :=
  release_consistent (hand_consistent h)

private theorem count_counts (s : St F) :
    (step s .count).pc = s.pc ∧ (step s .count).seen = s.seen ∧
      (step s .count).uncounted = none := by
  rw [step]
  cases uncounted : s.uncounted with
  | none => exact ⟨rfl, rfl, uncounted⟩
  | some d => exact ⟨rfl, rfl, rfl⟩

private theorem update_empties {s : St F} (h : Consistent s) (idle : s.pc = .idle)
    (free : s.pending = false) :
    Consistent (consumed 60 (step s (.start false))) ∧
      (consumed 60 (step s (.start false))).pc = .idle ∧
      (consumed 60 (step s (.start false))).eventQ = [] ∧
      (∀ c, (consumed 60 (step s (.start false))).ten c = 0) ∧
      (consumed 60 (step s (.start false))).seen = s.seen ∧
      (consumed 60 (step s (.start false))).uncounted = s.uncounted := by
  have keeps : ∀ t : St F, Consistent t → Consistent (consume t) := fun _ => consume_consistent
  have begun := start_consistent h false
  have drains : Draining (step s (.start false)) (step s (.start false)).pc := by
    rw [step, if_pos idle]
    exact ⟨rfl, free⟩
  have same : (step s (.start false)).seen = s.seen ∧
      (step s (.start false)).uncounted = s.uncounted := by
    rw [step, if_pos idle]
    exact ⟨rfl, rfl⟩
  generalize step s (.start false) = t at begun drains same ⊢
  have ended := consumed_idle begun
  have drained : Draining (consumed 60 t) (consumed 60 t).pc :=
    consumed_keeps consume_draining 60 drains
  rw [ended] at drained
  have seen := consumed_seen 60 t
  exact ⟨consumed_keeps keeps 60 begun, ended, drained.1, drained.2, seen.1.trans same.1,
    seen.2.trans same.2⟩

private theorem job_delivers {s : St F} (h : Consistent s) (idle : s.pc = .idle)
    (empty : s.eventQ = []) (cleared : ∀ c, s.ten c = 0) (counted : s.uncounted = none) :
    (step (step s .hand) .release).filed = s.seen.map Detection.log ∧
      ∀ c, (step (step s .hand) .release).closed c + (step (step s .hand) .release).week c =
        tally s.seen c := by
  have written := release_hand_consistent h
  rw [released h] at written ⊢
  have events := written.events
  have counts := written.counts
  constructor
  · rw [waiting_free rfl] at events
    dsimp only at events
    rw [idle, empty, List.append_nil, List.append_nil] at events
    exact events
  · intro c
    have here := counts c
    have after : ¬Added c .idle := id
    rw [uncountedOf] at here
    dsimp only at here
    rw [idle, counted, unadded_of_not _ after, cleared c, UInt32.add_zero, UInt32.add_zero] at here
    exact here

/-- No further detection: the update and the file job in progress end, then an update inside the
week runs and its job is written. -/
def settle : List (Event F) :=
  List.replicate 60 .consume ++ ([.count, .hand, .release, .start false] ++
    (List.replicate 60 .consume ++ [.hand, .release]))

private theorem run_settle (s : St F) :
    run step s settle = step (step (consumed 60 (step (step (step (step (consumed 60 s)
      .count) .hand) .release) (.start false))) .hand) .release := by
  simp only [settle, run_append, run_consume, run_cons, run_nil]

private theorem settle_delivers {s : St F} (h : Consistent s) :
    (run step s settle).filed = s.seen.map Detection.log ∧
      ∀ c, (run step s settle).closed c + (run step s settle).week c = tally s.seen c := by
  have keeps : ∀ t : St F, Consistent t → Consistent (consume t) := fun _ => consume_consistent
  -- the update in progress ends
  have ended := consumed_keeps keeps 60 h
  have idle := consumed_idle h
  have seen := (consumed_seen 60 s).1
  rw [run_settle]
  generalize consumed 60 s = a at ended idle seen ⊢
  -- the detection in progress is counted
  have apart : Apart a .count := by
    intro d _ c _ added
    rw [idle] at added
    exact added
  have counted := count_consistent ended apart
  obtain ⟨still, same, closed⟩ := count_counts a
  -- the file job in progress is written
  have freed := release_hand_consistent counted
  have job := released counted
  have standing : (step (step (step a .count) .hand) .release).pc = .idle := by
    rw [job]
    exact still.trans idle
  have pending : (step (step (step a .count) .hand) .release).pending = false := by
    rw [job]
  have quiet : (step (step (step a .count) .hand) .release).uncounted = none := by
    rw [job]
    exact closed
  have all : (step (step (step a .count) .hand) .release).seen = s.seen := by
    rw [job]
    exact same.trans seen
  -- and the further update and its job
  obtain ⟨last, ends, empty, cleared, kept, silent⟩ := update_empties freed standing pending
  have delivered := job_delivers last ends empty cleared (silent.trans quiet)
  rw [kept, all] at delivered
  exact delivered

/-- Over any interleaving that keeps the detection apart, nothing is lost and nothing is counted or
handed over twice; and once an update and its job are through, every event is in the weekly files,
in the order of the detections, and in the weekly counters. -/
theorem apart_runs_account (es : List (Event F)) (apart : Along step Apart initial es) :
    Accounted (run step initial es) ∧
      (run step (run step initial es) settle).filed =
        (run step initial es).seen.map Detection.log ∧
      ∀ c, (run step (run step initial es) settle).closed c +
        (run step (run step initial es) settle).week c = tally (run step initial es).seen c := by
  have consistent : Consistent (run step initial es) :=
    invariant_run step_consistent initial_consistent apart
  exact ⟨consistent.toAccounted, settle_delivers consistent⟩

def sagEvent : Detection Unit where
  log := ⟨1000, 0, 20, 1, 1, fun _ => ()⟩
  kind := some .sag
  mask := 1

/-- An overcurrent: it is logged, but there is no counter for it. -/
def overcurrentEvent : Detection Unit where
  log := ⟨1000, 0, 20, 5, 1, fun _ => ()⟩
  kind := none
  mask := 1

private theorem apart_consumes (s : St F) (n : Nat) :
    Along step Apart s (List.replicate n .consume) := by
  induction n generalizing s with
  | zero => trivial
  | succ n ih => exact ⟨trivial, ih _⟩

/-- A sag and its update; while the file task is at the job, an overcurrent, another sag and an update
that queues no job; then a third sag. -/
def skippedJob : List (Event Unit) :=
  ([.push sagEvent, .count, .start false] ++ List.replicate 60 .consume) ++
    (([.hand, .push overcurrentEvent, .count, .push sagEvent, .count, .start false] ++
      List.replicate 60 .consume) ++ [.release, .push sagEvent, .count])

private theorem skippedJob_apart : Along step Apart initial skippedJob := by
  have idle : ∀ {s : St Unit}, s.pc = .idle → Apart s .count := by
    intro s pc d _ c _ added
    rw [pc] at added
    exact added
  refine (along_append ..).mpr ⟨(along_append ..).mpr ⟨?_, apart_consumes _ 60⟩,
    (along_append ..).mpr ⟨(along_append ..).mpr ⟨?_, apart_consumes _ 60⟩, ?_⟩⟩
  · exact ⟨fun _ => by decide +kernel, idle rfl, trivial, trivial⟩
  · exact ⟨trivial, fun _ => by decide +kernel, idle (by decide +kernel),
      fun _ => by decide +kernel, idle (by decide +kernel), trivial, trivial⟩
  · exact ⟨trivial, fun _ => by decide +kernel, idle (by decide +kernel), trivial⟩

theorem skippedJob_accounted :
    (Accounted (run step initial skippedJob) ∧
      (run step (run step initial skippedJob) settle).filed =
        (run step initial skippedJob).seen.map Detection.log ∧
      ∀ c, (run step (run step initial skippedJob) settle).closed c +
        (run step (run step initial skippedJob) settle).week c =
          tally (run step initial skippedJob).seen c) ∧
      (run step initial skippedJob).seen.length = 4 ∧
      tally (run step initial skippedJob).seen (.sag, 0) = 3 :=
  ⟨apart_runs_account skippedJob skippedJob_apart, by decide +kernel, by decide +kernel⟩

/-- A sag that ends between the copy of the queue and its clearing reaches no file; one whose count
falls between the adding of its counter and the clearing reaches no week; an overcurrent is written
but raises no counter. -/
theorem events_missed :
    ((run step (run step initial (.start false :: List.replicate 23 .consume ++ [.push sagEvent]))
          settle).filed.length = 0 ∧
        (run step initial
          (.start false :: List.replicate 23 .consume ++ [.push sagEvent])).seen.length = 1) ∧
      (run step (run step initial (.start false :: List.replicate 22 .consume ++
          [.push sagEvent, .count])) settle).week (.sag, 0) = 0 ∧
      (run step (run step initial [.push overcurrentEvent, .count]) settle).filed.length = 1 ∧
      ∀ c ∈ counters, (run step (run step initial [.push overcurrentEvent, .count])
        settle).week c = 0 := by
  decide +kernel

private theorem consumed_add (m n : Nat) (s : St F) :
    consumed (m + n) s = consumed n (consumed m s) := by
  rw [consumed, List.replicate_add, run_append]
  rfl

private theorem consumed_of_idle (n : Nat) {s : St F} (idle : s.pc = .idle) : consumed n s = s := by
  have stays : consume s = s := by
    rw [consume, idle]
    rfl
  induction n with
  | zero => rfl
  | succ n ih =>
    have next : consumed (n + 1) s = consumed n (consume s) := rfl
    rw [next, stays, ih]

private theorem consumed_adding (rest : List Counter) (rollover : Bool) (distinct : rest.Nodup)
    (s : St F) :
    consumed (rest.length + 1) { s with pc := .adding rest rollover } =
      { s with
        week := fun c => if c ∈ rest then s.week c + s.ten c else s.week c
        pc := .checking rollover } := by
  induction rest generalizing s with
  | nil => simp [consumed, step, consume, consumeAt]
  | cons k rest ih =>
    obtain ⟨fresh, distinct⟩ := List.nodup_cons.1 distinct
    have next := ih distinct { s with week := Function.update s.week k (s.week k + s.ten k) }
    have week : (fun c => if c ∈ rest then
        Function.update s.week k (s.week k + s.ten k) c + s.ten c
        else Function.update s.week k (s.week k + s.ten k) c) =
        fun c => if c ∈ k :: rest then s.week c + s.ten c else s.week c := by
      funext c
      by_cases own : c = k
      · subst own
        rw [if_neg fresh, if_pos List.mem_cons_self, Function.update_self]
      · simp [own]
    dsimp only at next
    rw [week] at next
    exact next

private theorem consumed_clearing (rest : List Counter) (s : St F) :
    consumed (rest.length + 1) { s with pc := .clearing rest } =
      { s with
        ten := fun c => if c ∈ rest then 0 else s.ten c
        pc := .idle } := by
  induction rest generalizing s with
  | nil => simp [consumed, step, consume, consumeAt]
  | cons k rest ih =>
    have next := ih { s with ten := Function.update s.ten k 0 }
    have ten : (fun c => if c ∈ rest then 0 else Function.update s.ten k 0 c) =
        fun c => if c ∈ k :: rest then 0 else s.ten c := by
      funext c
      by_cases own : c = k
      · subst own
        simp
      · simp [own]
    dsimp only at next
    rw [ten] at next
    exact next

private theorem consumed_all_added (rollover : Bool) (s : St F) :
    consumed 21 { s with pc := .adding counters rollover } =
      { s with week := fun c => s.week c + s.ten c, pc := .checking rollover } := by
  have added := consumed_adding counters rollover nodup_counters s
  simp only [mem_counters, if_true] at added
  exact added

private theorem consumed_all_cleared (s : St F) :
    consumed 21 { s with pc := .clearing counters } = { s with ten := fun _ => 0, pc := .idle } := by
  have cleared := consumed_clearing counters s
  simp only [mem_counters, if_true] at cleared
  exact cleared

private theorem consumed_to_idle (n : Nat) (s : St F) :
    consumed (21 + n) { s with pc := .clearing counters } =
      { s with ten := fun _ => 0, pc := .idle } := by
  rw [consumed_add, consumed_all_cleared, consumed_of_idle n rfl]

private theorem one_refused {s : St F} (refused : s.pending = true) :
    consumed 1 { s with pc := .checking false } = { s with pc := .clearing counters } := by
  change consumeAt _ (.checking false) = _
  rw [consumeAt, if_pos refused]
  rfl

private theorem two_refused {s : St F} (refused : s.pending = true) :
    consumed 2 { s with pc := .checking true } =
      { s with
        closed := fun c => s.closed c + s.week c
        week := fun _ => 0
        pc := .clearing counters } := by
  change consume (consumeAt _ (.checking true)) = _
  rw [consumeAt, if_pos refused]
  rfl

private theorem four_accepted {s : St F} (free : s.pending = false) :
    consumed 4 { s with pc := .checking false } =
      { s with
        eventQ := []
        since := 0
        ev := s.eventQ
        pending := true
        pc := .clearing counters } := by
  change consume (consume (consume (consumeAt _ (.checking false)))) = _
  rw [consumeAt, if_neg (Bool.eq_false_iff.1 free)]
  rfl

private theorem five_accepted {s : St F} (free : s.pending = false) :
    consumed 5 { s with pc := .checking true } =
      { s with
        eventQ := []
        since := 0
        ev := s.eventQ
        pending := true
        closed := fun c => s.closed c + s.week c
        week := fun _ => 0
        pc := .clearing counters } := by
  change consume (consume (consume (consume (consumeAt _ (.checking true))))) = _
  rw [consumeAt, if_neg (Bool.eq_false_iff.1 free)]
  rfl

/-- The part of the statistics the tasks share, between two updates. -/
def ofSys (s : Sys F) : St F where
  eventQ := s.eventQ
  ten c := s.log.q10m.var.events c.1 c.2
  week c := s.log.qw.var.events c.1 c.2
  ev := s.pqIoJob.ev
  pending := s.pqIoJob.pending
  pc := .idle
  uncounted := none
  taken := false
  closed _ := 0
  filed := []
  seen := []
  since := s.eventQ.length

section Undisturbed

variable [Measure F]

private def added (s : Sys F) : St F :=
  { ofSys s with week := fun c => (addedWeek s).var.events c.1 c.2 }

private theorem consumed_added (s : Sys F) (rollover : Bool) :
    consumed 60 (step (ofSys s) (.start rollover)) =
      consumed 39 { added s with pc := .checking rollover } := by
  have events : (fun c : Counter => (addedWeek s).var.events c.1 c.2) =
      fun c => (ofSys s).week c + (ofSys s).ten c := by
    funext c
    rw [addedWeek, updateQualWeek, judge]
    split
    · rfl
    · rfl
  have idle : (ofSys s).pc = .idle := rfl
  rw [step, if_pos idle, consumed_add 21 39, consumed_all_added, ← events]
  rfl

/-- The steps of an update in a running week come to what `continueWeek` does. -/
theorem undisturbed_continues (s : Sys F) :
    consumed 60 (step (ofSys s) (.start false)) =
      ofSys { continueWeek s with
        log := clear10m (continueWeek s).sysTick1s (continueWeek s).log } := by
  rw [consumed_added]
  cases pending : s.pqIoJob.pending with
  | true =>
    rw [consumed_add 1 38, one_refused (s := added s) pending, consumed_to_idle 17]
    simp [added, continueWeek, pqQueueJob, Sys.setQw, Sys.setRpt, pending, ofSys, clear10m,
      noVariation]
  | false =>
    rw [consumed_add 4 35, four_accepted (s := added s) pending]
    have ended := consumed_to_idle 14 { added s with
      eventQ := [], since := 0, ev := s.eventQ, pending := true }
    refine ended.trans ?_
    simp [added, continueWeek, pqQueueJob, pqCommitJob, Sys.setQw, Sys.setRpt, pending, ofSys,
      clear10m, noVariation]

/-- The steps of an update that ends a week come to what `rolloverWeek` does; the week that is over
had counted the ten minutes. -/
theorem undisturbed_rolls (s : Sys F) :
    consumed 60 (step (ofSys s) (.start true)) =
      { ofSys { rolloverWeek s with
          log := clear10m (rolloverWeek s).sysTick1s (rolloverWeek s).log } with
        closed := fun c => (addedWeek s).var.events c.1 c.2 } := by
  rw [consumed_added]
  cases pending : s.pqIoJob.pending with
  | true =>
    rw [consumed_add 2 37, two_refused (s := added s) pending]
    have ended := consumed_to_idle 16 { added s with
      closed := fun c => (added s).closed c + (added s).week c, week := fun _ => 0 }
    refine ended.trans ?_
    simp [added, rolloverWeek, pqQueueJob, Sys.setQw, Sys.setRpt, pending, ofSys, clear10m,
      noVariation, newWeek]
  | false =>
    rw [consumed_add 5 34, five_accepted (s := added s) pending]
    have ended := consumed_to_idle 13 { added s with
      eventQ := []
      since := 0
      ev := s.eventQ
      pending := true
      closed := fun c => (added s).closed c + (added s).week c
      week := fun _ => 0 }
    refine ended.trans ?_
    simp [added, rolloverWeek, pqQueueJob, pqCommitJob, Sys.setQw, Sys.setRpt, pending, ofSys,
      clear10m, noVariation, newWeek]

omit [Measure F] in
/-- The file task's steps come to `pqIoTick`. -/
theorem undisturbed_job (s : Sys F) :
    step (step (ofSys s) .hand) .release =
      { ofSys (pqIoTick s) with filed := if s.pqIoJob.pending then s.pqIoJob.ev else [] } := by
  cases pending : s.pqIoJob.pending with
  | true => simp [step, ofSys, pqIoTick, pending]
  | false => simp [step, ofSys, pqIoTick, pending]

end Undisturbed

end SV300.Quality.Handoff
