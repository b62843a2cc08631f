/- SV300/Snmp/Trap
   digest: The queue of SNMP traps refines a queue that drops its oldest entry. -/

import SV300.Library.DropOldest

set_option autoImplicit false
set_option relaxedAutoImplicit false

namespace SV300.Snmp.Trap

open SV300.Library.DropOldest (Log put put_of_room put_of_full sound_empty)
open SV300.Library.Ring SV300.Library.Runs

abbrev trapQSize : Nat := 16

/-- `TRAP_EVT`; a floating-point number by its bits, a channel name by its address. -/
structure TrapEvt where
  code : UInt8
  meter : UInt8
  slot : UInt8
  chan : UInt8
  cond : UInt8
  chanName : UInt32
  level : UInt32
  value : UInt32
  ts : UInt32
  deriving DecidableEq

def TrapEvt.zero : TrapEvt := ⟨0, 0, 0, 0, 0, 0, 0, 0, 0⟩

/-- The static variables; `trapCtx` tells whether the pointer is set. -/
structure State where
  trapQ : Nat → TrapEvt
  trapQr : Nat
  trapQw : Nat
  trapQn : Nat
  trapCtx : Bool

/-- The last line of `snmpTrapInit`. -/
def snmpTrapInit (s : State) : State := { s with trapCtx := true }

def State.next (s : State) : State :=
  { s with trapQr := (s.trapQr + 1) % trapQSize, trapQn := s.trapQn - 1 }

def State.store (s : State) (e : TrapEvt) : State :=
  { s with
    trapQ := Function.update s.trapQ s.trapQw e
    trapQw := (s.trapQw + 1) % trapQSize
    trapQn := s.trapQn + 1 }

def trapPush (s : State) (e : TrapEvt) : State :=
  if s.trapCtx then (if s.trapQn = trapQSize then s.next else s).store e else s

def trapPop (s : State) : State × Option TrapEvt :=
  if 0 < s.trapQn then (s.next, some (s.trapQ s.trapQr)) else (s, none)

/-- The queue, what has been taken from it, and the abstract queue beside it. -/
structure Sys where
  queue : State
  popped : List TrapEvt
  log : Log TrapEvt

inductive Event
  | init
  | push (e : TrapEvt)
  | pop

def record (o : Sys) : Event → Sys
  | .init => { o with queue := snmpTrapInit o.queue }
  | .push e =>
    { o with
      queue := trapPush o.queue e
      log := if o.queue.trapCtx then Library.DropOldest.record trapQSize o.log (.put e) else o.log }
  | .pop =>
    { queue := (trapPop o.queue).1
      popped := o.popped ++ (trapPop o.queue).2.toList
      log := Library.DropOldest.record trapQSize o.log .take }

def blank : Sys where
  queue := ⟨fun _ => .zero, 0, 0, 0, false⟩
  popped := []
  log := .empty

def State.contents (s : State) : List TrapEvt := window trapQSize s.trapQ s.trapQr s.trapQn

/-- The indexes and the count are within bounds and agree. -/
structure State.Bounded (s : State) : Prop where
  read_lt : s.trapQr < trapQSize
  write_lt : s.trapQw < trapQSize
  count_le : s.trapQn ≤ trapQSize
  place : s.trapQw = (s.trapQr + s.trapQn) % trapQSize

/-- The queue and what was taken from it are those of the queue that drops its oldest entry. -/
structure Law (o : Sys) : Prop where
  bounded : o.queue.Bounded
  contents : o.queue.contents = o.log.queue
  popped : o.popped = o.log.taken
  sound : o.log.Sound trapQSize

@[simp] theorem length_contents (s : State) : s.contents.length = s.trapQn := length_window ..

theorem State.Bounded.next {s : State} (bounded : s.Bounded) (some : 0 < s.trapQn) :
    s.next.Bounded where
  read_lt := Nat.mod_lt _ (by decide)
  write_lt := bounded.write_lt
  count_le := (Nat.sub_le ..).trans bounded.count_le
  place := by
    change s.trapQw = ((s.trapQr + 1) % trapQSize + (s.trapQn - 1)) % trapQSize
    rw [Nat.mod_add_mod, Nat.add_assoc, Nat.add_sub_cancel' some]
    exact bounded.place

private theorem contents_next (s : State) : s.next.contents = s.contents.tail := by
  change window trapQSize s.trapQ ((s.trapQr + 1) % trapQSize) (s.trapQn - 1) = s.contents.tail
  rw [window_mod, State.contents]
  cases s.trapQn with
  | zero => rfl
  | succ n =>
    rw [window_cons]
    rfl

private theorem State.Bounded.store {s : State} (bounded : s.Bounded) (room : s.trapQn < trapQSize)
    (e : TrapEvt) : (s.store e).Bounded where
  read_lt := bounded.read_lt
  write_lt := Nat.mod_lt _ (by decide)
  count_le := room
  place := by
    change (s.trapQw + 1) % trapQSize = (s.trapQr + (s.trapQn + 1)) % trapQSize
    rw [bounded.place, Nat.mod_add_mod, Nat.add_assoc]

private theorem contents_store {s : State} (bounded : s.Bounded) (room : s.trapQn < trapQSize)
    (e : TrapEvt) : (s.store e).contents = s.contents ++ [e] := by
  change window trapQSize (Function.update s.trapQ s.trapQw e) s.trapQr (s.trapQn + 1) = _
  rw [bounded.place, window_snoc, Function.update_self, window_update]
  · rfl
  · intro i lt
    exact slot_ne lt (room.trans_le (Nat.le_add_left ..))

private theorem trapPush_put {s : State} (bounded : s.Bounded) (ctx : s.trapCtx = true)
    (e : TrapEvt) :
    (trapPush s e).Bounded ∧ (trapPush s e).contents = put trapQSize s.contents e := by
  rw [trapPush, if_pos ctx]
  split_ifs with full
  · have some : 0 < s.trapQn := full ▸ Nat.succ_pos 15
    have room : s.next.trapQn < trapQSize := (Nat.sub_lt some Nat.one_pos).trans_le bounded.count_le
    refine ⟨(bounded.next some).store room e, ?_⟩
    rw [contents_store (bounded.next some) room, contents_next, put_of_full]
    · exact (length_contents s).trans full
    · exact Nat.succ_pos 15
  · have room : s.trapQn < trapQSize := Nat.lt_of_le_of_ne bounded.count_le full
    refine ⟨bounded.store room e, ?_⟩
    rw [contents_store bounded room, put_of_room]
    rwa [length_contents]

private theorem trapPop_take {s : State} (bounded : s.Bounded) :
    (trapPop s).1.Bounded ∧ (trapPop s).1.contents = s.contents.tail ∧
      (trapPop s).2 = s.contents.head? := by
  unfold trapPop
  split_ifs with some
  · refine ⟨bounded.next some, contents_next s, ?_⟩
    obtain ⟨n, count⟩ : ∃ n, s.trapQn = n + 1 := ⟨s.trapQn - 1, (Nat.sub_add_cancel some).symm⟩
    rw [State.contents, count, window_cons, Nat.mod_eq_of_lt bounded.read_lt]
    rfl
  · have none_ : s.contents = [] := by
      rw [← List.length_eq_zero_iff, length_contents]
      exact Nat.eq_zero_of_not_pos some
    exact ⟨bounded, by rw [none_]; rfl, by rw [none_]; rfl⟩

private theorem law_record {o : Sys} (law : Law o) (e : Event) : Law (record o e) := by
  cases e with
  | init =>
    have bounded := law.bounded
    exact ⟨⟨bounded.read_lt, bounded.write_lt, bounded.count_le, bounded.place⟩, law.contents,
      law.popped, law.sound⟩
  | push e =>
    cases ctx : o.queue.trapCtx with
    | false =>
      have same : record o (.push e) = o := by simp [record, trapPush, ctx]
      rw [same]
      exact law
    | true =>
      obtain ⟨bounded, contents⟩ := trapPush_put law.bounded ctx e
      have log : (record o (.push e)).log = Library.DropOldest.record trapQSize o.log (.put e) := by
        simp [record, ctx]
      constructor
      · exact bounded
      · rw [log]
        exact contents.trans (congrArg (put trapQSize · e) law.contents)
      · rw [log]
        exact law.popped
      · rw [log]
        exact law.sound.record (.put e)
  | pop =>
    obtain ⟨bounded, contents, head⟩ := trapPop_take law.bounded
    constructor
    · exact bounded
    · exact contents.trans (congrArg List.tail law.contents)
    · change o.popped ++ (trapPop o.queue).2.toList = o.log.taken ++ o.log.queue.head?.toList
      rw [law.popped, head, law.contents]
    · exact law.sound.record .take

private theorem law_blank : Law blank :=
  ⟨⟨by decide, by decide, by decide, rfl⟩, rfl, rfl, sound_empty _⟩

/-- After any sequence of operations the queue holds the newest traps, each once and in order. -/
theorem queue_drops_oldest (es : List Event) : Law (run record blank es) :=
  always_run (I := Law) (fun _ e law => law_record law e) law_blank es

end SV300.Snmp.Trap
