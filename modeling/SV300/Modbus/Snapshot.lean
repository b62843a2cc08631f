/- SV300/Modbus/Snapshot
   digest: The measurement snapshots: one publisher, two buffers a channel, any number of readers. -/

import SV300.Library.Runs
import SV300.Modbus.ReadPaths

set_option autoImplicit false
set_option relaxedAutoImplicit false

namespace SV300.Modbus.Snapshot

open SV300.Library.Runs SV300.Library.Sweep SV300.Modbus.Map

/-- A word of a snapshot buffer and the number of the publication that stored it. -/
structure Stamped where
  value : UInt16
  pub : Nat

/-- One channel's two buffers, the one `pMeterSnap` points to, and how far `publishMeterSnap` has
come with its copy. -/
structure Snap where
  buf : Bool → Nat → Stamped
  front : Bool
  copied : Option Nat
  pubs : Nat

/-- One step of `publishMeterSnap`: its entry, a word of the copy, or the store of the pointer. -/
def Snap.publish (p : Snap) (live : Nat → UInt16) : Snap :=
  match p.copied with
  | none => { p with copied := some 0 }
  | some k =>
    if k < mbadEnergyStart then
      { p with
        buf := Function.update p.buf (!p.front)
          (Function.update (p.buf !p.front) k ⟨live k, p.pubs + 1⟩)
        copied := some (k + 1) }
    else { p with front := !p.front, copied := none, pubs := p.pubs + 1 }

/-- Where a register of a response is read. -/
inductive Source
  | snap (id : Channel) (off : Nat)
  | live (id : Channel) (off : Nat)
  | simple (off : Nat)
  deriving DecidableEq

def register (id : Channel) (off : Nat) : Source :=
  if off < mbadEnergyStart then .snap id off else .live id off

/-- What `readMemCb` reads at an address. -/
def source (address : Nat) : Option Source :=
  match decodeMeterAddress address with
  | some (id, off) => if readMeterChOffsetBlocked id off then none else some (register id off)
  | none =>
    if addSimpleMap ≤ address ∧ address < addSimpleMap + smpMapSize then
      some (.simple (address - addSimpleMap))
    else none

inductive Request
  /-- `readMem` and `readMem2` of the first channel, `readMem3`, `readMem4` of the others. -/
  | block (id : Channel) (start count : Nat)
  /-- `readMemCb` for each register in turn. -/
  | callback (start count : Nat)

/-- The registers of the response; none if the request is refused. -/
def Request.sources : Request → Option (List Source)
  | .block id start count => some ((List.range count).map fun i => register id (start + i))
  | .callback start count =>
    if 1 ≤ count ∧ count ≤ 125 then
      collect (fun i => source (Callback.wrap (start + i))) count
    else none

/-- A word of a response; if it is a measurement, with the publication it was stored by. -/
structure Word where
  value : UInt16
  stamp : Option (Channel × Nat)

/-- A response being put together: whether the pointer is taken once for all registers, the pointer
if it has been taken, the registers to come and the words read. -/
structure Reading where
  once : Bool
  ptr : Option Bool
  todo : List Source
  got : List Word

structure Sys (ι : Type) where
  snap : Channel → Snap
  meter : Channel → Nat → UInt16
  psmpMap : Nat → UInt16
  readers : ι → Option Reading
  sent : List (List Word)

inductive Event (ι : Type)
  /-- The other tasks store into the live memory, or publish the feeders' map. -/
  | memory (meter : Channel → Nat → UInt16) (psmpMap : Nat → UInt16)
  | publish (id : Channel)
  | request (i : ι) (r : Request)
  | read (i : ι)

section Machine

variable {ι : Type} [DecidableEq ι]

def Sys.setReader (o : Sys ι) (i : ι) (r : Option Reading) : Sys ι :=
  { o with readers := Function.update o.readers i r }

def Sys.capture (o : Sys ι) : Request → Option Bool
  | .block id _ _ => some (o.snap id).front
  | .callback _ _ => none

def Request.once : Request → Bool
  | .block _ _ _ => true
  | .callback _ _ => false

def Reading.push (r : Reading) (rest : List Source) (w : Word) : Reading :=
  { r with ptr := if r.once then r.ptr else none, todo := rest, got := r.got ++ [w] }

/-- One step of a read: a load of the pointer, of a word, or the end. -/
def stepRead (o : Sys ι) (i : ι) (r : Reading) : Sys ι :=
  match r.todo with
  | [] => { o.setReader i none with sent := o.sent ++ [r.got] }
  | .snap id off :: rest =>
    match r.ptr with
    | none => o.setReader i (some { r with ptr := some (o.snap id).front })
    | some b =>
      let w := (o.snap id).buf b off
      o.setReader i (some (r.push rest ⟨w.value, some (id, w.pub)⟩))
  | .live id off :: rest => o.setReader i (some (r.push rest ⟨o.meter id off, none⟩))
  | .simple off :: rest => o.setReader i (some (r.push rest ⟨o.psmpMap off, none⟩))

def record (o : Sys ι) : Event ι → Sys ι
  | .memory meter psmpMap => { o with meter := meter, psmpMap := psmpMap }
  | .publish id =>
    { o with snap := Function.update o.snap id ((o.snap id).publish (o.meter id)) }
  | .request i r =>
    match o.readers i, r.sources with
    | none, some todo => o.setReader i (some ⟨r.once, o.capture r, todo, []⟩)
    | _, _ => o
  | .read i =>
    match o.readers i with
    | none => o
    | some r => stepRead o i r

end Machine

variable {ι : Type}

/-- The measurement words of a response come from one publication. -/
def OneSnapshot (ws : List Word) : Prop := ∃ s, ∀ w ∈ ws, ∀ t ∈ w.stamp, t = s

def Coherent (o : Sys ι) : Prop := ∀ ws ∈ o.sent, OneSnapshot ws

/-- The registers still to be read through the pointer at hand. -/
def Reading.now (r : Reading) : List Source :=
  match r.ptr with
  | none => []
  | some _ => if r.once then r.todo else r.todo.take 1

/-- The registers for which the pointer is still to be taken. -/
def Reading.later (r : Reading) : List Source :=
  match r.ptr with
  | none => r.todo
  | some _ => if r.once then [] else r.todo.drop 1

/-- It has read a measurement. -/
def Reading.Begun (r : Reading) : Prop := ∃ w ∈ r.got, w.stamp.isSome

/-- The words of a buffer that a response is about to read are of one publication and, if more are
to come through a later pointer, of the one pointed to. -/
def Settled (p : Snap) (id : Channel) (b : Bool) (r : Reading) : Prop :=
  b = p.front ∨
    (∀ off, .snap id off ∉ r.later) ∧
      ∀ k, p.copied = some k →
        (∀ off, .snap id off ∈ r.now → off < k) ∨ ∀ off, .snap id off ∈ r.now → k ≤ off

/-- The publisher stores no word that a response under way has yet to read in that buffer, does not
move the pointer while it is yet to be taken again, and is not part-way through the words when the
first of them is read. -/
def Quiet (o : Sys ι) : Event ι → Prop
  | .publish id =>
    match (o.snap id).copied with
    | none => True
    | some k =>
      ∀ i, ∀ r ∈ o.readers i, r.Begun →
        if k < mbadEnergyStart then r.ptr = some (!(o.snap id).front) → .snap id k ∉ r.now
        else ∀ off, .snap id off ∉ r.later
  | .read i =>
    ∀ r ∈ o.readers i, ¬ r.Begun → ∀ id off rest, r.todo = .snap id off :: rest →
      ∀ b, r.ptr = some b → Settled (o.snap id) id b r
  | _ => True

private theorem snap_of_register {id c : Channel} {off o : Nat}
    (same : register c o = .snap id off) :
    id = c ∧ off = o ∧ off < mbadEnergyStart := by
  unfold register at same
  split_ifs at same with small
  cases same
  exact ⟨rfl, rfl, small⟩

private theorem snap_of_source {address : Nat} {id : Channel} {off : Nat}
    (same : source address = some (.snap id off)) :
    address = base id + off ∧ off < mbadEnergyStart := by
  unfold source at same
  split at same
  · rename_i c o decoded
    split_ifs at same
    obtain ⟨rfl, rfl, small⟩ := snap_of_register (Option.some.inj same)
    exact ⟨base_of_decode decoded, small⟩
  · split_ifs at same
    cases Option.some.inj same

private theorem sources_single {q : Request} {todo : List Source}
    (sources : q.sources = some todo) :
    (∀ id off, .snap id off ∈ todo → off < mbadEnergyStart) ∧
      ∃ c, ∀ id off, .snap id off ∈ todo → id = c := by
  cases q with
  | block c start count =>
    cases sources
    have each : ∀ id off, .snap id off ∈ (List.range count).map (fun i => register c (start + i)) →
        off < mbadEnergyStart ∧ id = c := by
      intro id off member
      obtain ⟨i, -, same⟩ := List.mem_map.mp member
      obtain ⟨rfl, -, small⟩ := snap_of_register same
      exact ⟨small, rfl⟩
    exact ⟨fun id off member => (each id off member).1, c,
      fun id off member => (each id off member).2⟩
  | callback start count =>
    simp only [Request.sources] at sources
    split_ifs at sources with fits
    have place : ∀ id off, .snap id off ∈ todo → off < mbadEnergyStart ∧
        ∃ i < count, (start + i) % 65536 = base id + off := by
      intro id off member
      obtain ⟨i, at_i⟩ := List.mem_iff_getElem?.mp member
      have lt : i < count := by
        rw [← length_collect sources]
        exact (List.getElem?_eq_some_iff.mp at_i).1
      obtain ⟨address, small⟩ := snap_of_source ((collect_eq_some sources i lt).trans at_i)
      exact ⟨small, i, lt, address⟩
    refine ⟨fun id off member => (place id off member).1, ?_⟩
    by_cases some : ∃ id off, Source.snap id off ∈ todo
    · obtain ⟨c, o, first⟩ := some
      refine ⟨c, fun id off member => ?_⟩
      obtain ⟨small, i, lt, at_i⟩ := place id off member
      obtain ⟨small', j, lt', at_j⟩ := place c o first
      apply Fin.ext
      unfold base at at_i at_j
      change off < 240 at small
      change o < 240 at small'
      have near : (start + i) / 65536 = (start + j) / 65536 ∨
          (start + i) / 65536 = (start + j) / 65536 + 1 ∨
          (start + j) / 65536 = (start + i) / 65536 + 1 := by
        omega
      rcases near with near | near | near <;> omega
    · exact ⟨0, fun id off member => absurd ⟨id, off, member⟩ some⟩

/-- The buffer pointed to is whole; of the other one, the words copied so far are of the publication
to come and the rest of one before. -/
structure SnapInv (p : Snap) : Prop where
  front : ∀ off < mbadEnergyStart, (p.buf p.front off).pub = p.pubs
  back : ∃ m, ∀ off < mbadEnergyStart,
    (p.buf (!p.front) off).pub = if off < p.copied.getD 0 then p.pubs + 1 else m

/-- As things stand a response will read the words to come from publication `s`. -/
structure Ahead (snap : Channel → Snap) (r : Reading) (s : Channel × Nat) : Prop where
  now : ∀ id off b, .snap id off ∈ r.now → r.ptr = some b → (id, ((snap id).buf b off).pub) = s
  later : ∀ id off, .snap id off ∈ r.later → (id, (snap id).pubs) = s

structure ReadInv (snap : Channel → Snap) (r : Reading) : Prop where
  small : ∀ id off, .snap id off ∈ r.todo → off < mbadEnergyStart
  single : ∃ c, ∀ id off, .snap id off ∈ r.todo → id = c
  one : r.Begun → ∃ s, (∀ w ∈ r.got, ∀ t ∈ w.stamp, t = s) ∧ Ahead snap r s

structure Inv (o : Sys ι) : Prop where
  snaps : ∀ id, SnapInv (o.snap id)
  reads : ∀ i, ∀ r ∈ o.readers i, ReadInv o.snap r
  sent : Coherent o

private theorem SnapInv.publish {p : Snap} (inv : SnapInv p) (live : Nat → UInt16) :
    SnapInv (p.publish live) := by
  obtain ⟨m, back⟩ := inv.back
  cases copied : p.copied with
  | none =>
    rw [copied] at back
    simp only [Snap.publish, copied]
    exact ⟨inv.front, m, back⟩
  | some k =>
    rw [copied] at back
    simp only [Snap.publish, copied]
    split_ifs with more
    · refine ⟨fun off small => ?_, m, fun off small => ?_⟩
      · change (Function.update p.buf (!p.front) _ p.front off).pub = p.pubs
        rw [Function.update_of_ne (by cases p.front <;> nofun)]
        exact inv.front off small
      · change (Function.update p.buf (!p.front) _ (!p.front) off).pub =
          if off < k + 1 then p.pubs + 1 else m
        rw [Function.update_self, Function.update_apply]
        have before := back off small
        simp only [Option.getD_some] at before
        split_ifs with here below below
        · rfl
        · omega
        · rw [before, if_pos (by omega)]
        · rw [before, if_neg (by omega)]
    · refine ⟨fun off small => ?_, p.pubs, fun off small => ?_⟩
      · have whole := back off small
        rwa [if_pos (by simp only [Option.getD_some]; omega)] at whole
      · change (p.buf (!!p.front) off).pub = p.pubs
        rw [Bool.not_not]
        exact inv.front off small

private theorem publish_pub (p : Snap) (live : Nat → UInt16) {b : Bool} {off : Nat}
    (other : ∀ k, p.copied = some k → k < mbadEnergyStart → b = !p.front → off ≠ k) :
    ((p.publish live).buf b off).pub = (p.buf b off).pub := by
  cases copied : p.copied with
  | none => simp only [Snap.publish, copied]
  | some k =>
    simp only [Snap.publish, copied]
    split_ifs with more
    · simp only [Function.update_apply]
      split_ifs with back
      · rw [Function.update_of_ne (other k copied more back), back]
      · rfl
    · rfl

private theorem publish_pubs (p : Snap) (live : Nat → UInt16)
    (copying : ∀ k, p.copied = some k → k < mbadEnergyStart) :
    (p.publish live).pubs = p.pubs := by
  cases copied : p.copied with
  | none => simp only [Snap.publish, copied]
  | some k => simp only [Snap.publish, copied, if_pos (copying k copied)]

private theorem Ahead.publish {snap : Channel → Snap} {r : Reading} {s : Channel × Nat}
    (ahead : Ahead snap r s) (id : Channel) (live : Nat → UInt16)
    (quiet : ∀ k, (snap id).copied = some k →
      if k < mbadEnergyStart then r.ptr = some (!(snap id).front) → .snap id k ∉ r.now
      else ∀ off, .snap id off ∉ r.later) :
    Ahead (Function.update snap id ((snap id).publish live)) r s where
  now := by
    intro c off b member ptr
    rw [← ahead.now c off b member ptr]
    by_cases same : c = id
    · subst same
      rw [Function.update_self, publish_pub]
      rintro k copied more rfl rfl
      have quiet := quiet off copied
      rw [if_pos more] at quiet
      exact quiet ptr member
    · rw [Function.update_of_ne same]
  later := by
    intro c off member
    rw [← ahead.later c off member]
    by_cases same : c = id
    · subst same
      rw [Function.update_self, publish_pubs]
      intro k copied
      by_contra done
      have quiet := quiet k copied
      rw [if_neg done] at quiet
      exact quiet off member
    · rw [Function.update_of_ne same]

variable [DecidableEq ι]

private theorem inv_publish {o : Sys ι} (inv : Inv o) {id : Channel}
    (quiet : Quiet o (.publish id)) :
    Inv (record o (.publish id)) where
  snaps := by
    intro c
    change SnapInv (Function.update o.snap id ((o.snap id).publish (o.meter id)) c)
    by_cases same : c = id
    · subst same
      rw [Function.update_self]
      exact (inv.snaps c).publish _
    · rw [Function.update_of_ne same]
      exact inv.snaps c
  reads := by
    intro i r there
    have read := inv.reads i r there
    refine ⟨read.small, read.single, fun begun => ?_⟩
    obtain ⟨s, got, ahead⟩ := read.one begun
    refine ⟨s, got, ahead.publish id _ fun k copied => ?_⟩
    simp only [Quiet, copied] at quiet
    exact quiet i r there begun
  sent := inv.sent

section Steps

variable {r : Reading} {s s' : Source} {rest : List Source} {w : Word}

private theorem mem_now_push (todo : r.todo = s :: rest) (member : s' ∈ (r.push rest w).now) :
    s' ∈ r.now ∧ (r.push rest w).ptr = r.ptr := by
  rcases r with ⟨once, ptr, todo', got⟩
  cases todo
  cases once with
  | false => cases member
  | true =>
    cases ptr with
    | none => cases member
    | some b => exact ⟨List.mem_cons_of_mem s member, rfl⟩

private theorem mem_later_push (todo : r.todo = s :: rest) (member : s' ∈ (r.push rest w).later) :
    s' ∈ r.later := by
  rcases r with ⟨once, ptr, todo', got⟩
  cases todo
  cases once with
  | false =>
    cases ptr with
    | none => exact List.mem_cons_of_mem s member
    | some b => exact member
  | true =>
    cases ptr with
    | none => exact List.mem_cons_of_mem s member
    | some b => cases member

private theorem mem_todo_of_now {r : Reading} {s : Source} (member : s ∈ r.now) : s ∈ r.todo := by
  rcases r with ⟨once, ptr, todo, got⟩
  cases ptr with
  | none => cases member
  | some b =>
    cases once with
    | false => exact List.mem_of_mem_take member
    | true => exact member

private theorem mem_todo_of_later {r : Reading} {s : Source} (member : s ∈ r.later) :
    s ∈ r.todo := by
  rcases r with ⟨once, ptr, todo, got⟩
  cases ptr with
  | none => exact member
  | some b =>
    cases once with
    | false => exact List.mem_of_mem_drop member
    | true => cases member

private theorem head_mem_now {b : Bool} (todo : r.todo = s :: rest) (ptr : r.ptr = some b) :
    s ∈ r.now := by
  rcases r with ⟨once, ptr', todo', got⟩
  cases todo
  cases ptr
  cases once <;> exact List.mem_cons_self

end Steps

private theorem Ahead.push {snap : Channel → Snap} {r : Reading} {t : Channel × Nat}
    (ahead : Ahead snap r t) {s : Source} {rest : List Source} (todo : r.todo = s :: rest)
    (w : Word) : Ahead snap (r.push rest w) t where
  now := by
    intro id off b member ptr
    obtain ⟨before, same⟩ := mem_now_push todo member
    exact ahead.now id off b before (same ▸ ptr)
  later := fun id off member => ahead.later id off (mem_later_push todo member)

private theorem ReadInv.push {snap : Channel → Snap} {r : Reading} (inv : ReadInv snap r)
    {s : Source} {rest : List Source} (todo : r.todo = s :: rest) {w : Word}
    (old : ∀ t, Ahead snap r t → ∀ u ∈ w.stamp, u = t)
    (new : ¬ r.Begun → ∀ t ∈ w.stamp, Ahead snap r t) : ReadInv snap (r.push rest w) where
  small := fun id off member => inv.small id off (todo ▸ List.mem_cons_of_mem s member)
  single := by
    obtain ⟨c, single⟩ := inv.single
    exact ⟨c, fun id off member => single id off (todo ▸ List.mem_cons_of_mem s member)⟩
  one := by
    intro begun
    by_cases before : r.Begun
    · obtain ⟨t, got, ahead⟩ := inv.one before
      refine ⟨t, fun x member u stamp => ?_, ahead.push todo w⟩
      rcases List.mem_append.mp member with earlier | last
      · exact got x earlier u stamp
      · cases List.mem_singleton.mp last
        exact old t ahead u stamp
    · obtain ⟨x, member, stamped⟩ := begun
      have unstamped : ∀ y ∈ r.got, y.stamp = none := by
        intro y there
        by_contra some
        exact before ⟨y, there, Option.isSome_iff_ne_none.mpr some⟩
      have here : x = w := by
        rcases List.mem_append.mp member with earlier | last
        · rw [unstamped x earlier] at stamped
          cases stamped
        · exact List.mem_singleton.mp last
      subst here
      obtain ⟨t, stamp⟩ := Option.isSome_iff_exists.mp stamped
      refine ⟨t, fun y there u stamp_y => ?_, (new before t stamp).push todo x⟩
      rcases List.mem_append.mp there with earlier | last
      · rw [unstamped y earlier] at stamp_y
        cases stamp_y
      · cases List.mem_singleton.mp last
        rw [stamp] at stamp_y
        exact (Option.some.inj stamp_y).symm

private theorem ReadInv.push_other {snap : Channel → Snap} {r : Reading} (inv : ReadInv snap r)
    {s : Source} {rest : List Source} (todo : r.todo = s :: rest) (v : UInt16) :
    ReadInv snap (r.push rest ⟨v, none⟩) :=
  inv.push todo (fun _ _ => nofun) (fun _ => nofun)

private theorem ReadInv.load {snap : Channel → Snap} (snaps : ∀ id, SnapInv (snap id)) {r : Reading}
    (inv : ReadInv snap r) {id : Channel} {off : Nat} {rest : List Source}
    (todo : r.todo = .snap id off :: rest) (ptr : r.ptr = none) :
    ReadInv snap { r with ptr := some (snap id).front } where
  small := inv.small
  single := inv.single
  one := by
    intro begun
    obtain ⟨s, got, ahead⟩ := inv.one begun
    have all : ∀ c o, .snap c o ∈ r.todo → (c, (snap c).pubs) = s := by
      intro c o member
      apply ahead.later c o
      rw [Reading.later, ptr]
      exact member
    refine ⟨s, got, fun c o b member front => ?_, fun c o member => ?_⟩
    · have there := mem_todo_of_now member
      obtain ⟨one, single⟩ := inv.single
      have channel : c = id := by
        rw [single c o there, single id off (todo ▸ List.mem_cons_self)]
      subst channel
      cases front
      rw [(snaps c).front o (inv.small c o there)]
      exact all c o there
    · have there := mem_todo_of_later member
      exact all c o there

private theorem ahead_of_settled {snap : Channel → Snap} {r : Reading} (inv : ReadInv snap r)
    {id : Channel} (snaps : SnapInv (snap id)) {off : Nat} {rest : List Source} {b : Bool}
    (todo : r.todo = .snap id off :: rest) (ptr : r.ptr = some b)
    (settled : Settled (snap id) id b r) :
    Ahead snap r (id, ((snap id).buf b off).pub) := by
  have here : .snap id off ∈ r.todo := todo ▸ List.mem_cons_self
  have channel : ∀ c o, .snap c o ∈ r.todo → c = id := by
    obtain ⟨one, single⟩ := inv.single
    intro c o member
    rw [single c o member, single id off here]
  have small := inv.small
  have head := head_mem_now todo ptr
  rcases settled with front | ⟨none_later, side⟩
  · subst front
    have whole : ∀ o, .snap id o ∈ r.todo →
        ((snap id).buf (snap id).front o).pub = (snap id).pubs :=
      fun o member => snaps.front o (small id o member)
    rw [whole off here]
    constructor
    · intro c o b member ptr'
      have there := mem_todo_of_now member
      cases channel c o there
      cases ptr.symm.trans ptr'
      rw [whole o there]
    · intro c o member
      cases channel c o (mem_todo_of_later member)
      rfl
  · constructor
    · intro c o b' member ptr'
      have there := mem_todo_of_now member
      cases channel c o there
      cases ptr.symm.trans ptr'
      by_cases front : b = (snap id).front
      · subst front
        rw [snaps.front o (small id o there), snaps.front off (small id off here)]
      · obtain ⟨m, back⟩ := snaps.back
        have other : b = !(snap id).front := by
          cases b <;> cases at_front : (snap id).front <;> simp_all
        subst other
        rw [back o (small id o there), back off (small id off here)]
        cases copied : (snap id).copied with
        | none => rfl
        | some k =>
          simp only [Option.getD_some]
          rcases side k copied with below | above
          · rw [if_pos (below o member), if_pos (below off head)]
          · rw [if_neg (Nat.not_lt.mpr (above o member)), if_neg (Nat.not_lt.mpr (above off head))]
    · intro c o member
      cases channel c o (mem_todo_of_later member)
      exact absurd member (none_later o)

private theorem Inv.setReader {o : Sys ι} (inv : Inv o) (i : ι) {r : Reading}
    (read : ReadInv o.snap r) :
    Inv (o.setReader i (some r)) where
  snaps := inv.snaps
  reads := by
    intro j q there
    simp only [Sys.setReader, Function.update_apply] at there
    split_ifs at there
    · cases there
      exact read
    · exact inv.reads j q there
  sent := inv.sent

private theorem oneSnapshot_of_read {snap : Channel → Snap} {r : Reading} (inv : ReadInv snap r) :
    OneSnapshot r.got := by
  by_cases begun : r.Begun
  · obtain ⟨s, got, -⟩ := inv.one begun
    exact ⟨s, got⟩
  · refine ⟨(0, 0), fun w member t stamp => ?_⟩
    exact absurd ⟨w, member, Option.isSome_of_mem stamp⟩ begun

private theorem inv_stepRead {o : Sys ι} (inv : Inv o) {i : ι} {r : Reading}
    (here : o.readers i = some r) (quiet : Quiet o (.read i)) : Inv (stepRead o i r) := by
  have read := inv.reads i r here
  unfold stepRead
  split
  · rename_i todo
    refine ⟨inv.snaps, fun j q there => ?_, fun ws member => ?_⟩
    · simp only [Sys.setReader, Function.update_apply] at there
      split_ifs at there
      · cases there
      · exact inv.reads j q there
    · rcases List.mem_append.mp member with earlier | last
      · exact inv.sent ws earlier
      · cases List.mem_singleton.mp last
        exact oneSnapshot_of_read read
  · rename_i id off rest todo
    split
    · rename_i ptr
      exact inv.setReader i (read.load inv.snaps todo ptr)
    · rename_i b ptr
      apply inv.setReader i
      apply read.push todo
      · intro t ahead u stamp
        cases stamp
        exact ahead.now id off b (head_mem_now todo ptr) ptr
      · intro first t stamp
        cases stamp
        exact ahead_of_settled read (inv.snaps id) todo ptr
          (quiet r here first id off rest todo b ptr)
  · rename_i todo
    exact inv.setReader i (read.push_other todo _)
  · rename_i todo
    exact inv.setReader i (read.push_other todo _)

private theorem publish_copied (p : Snap) (live : Nat → UInt16) {n : Nat}
    (fits : n ≤ mbadEnergyStart) :
    (fun q => q.publish live)^[n] { p with copied := some 0 } = { p with
      buf := Function.update p.buf (!p.front) fun off =>
        if off < n then ⟨live off, p.pubs + 1⟩ else p.buf (!p.front) off
      copied := some n } := by
  induction n with
  | zero =>
    simp only [Function.iterate_zero_apply, Nat.not_lt_zero, if_false]
    rw [Function.update_eq_self]
  | succ n ih =>
    rw [Function.iterate_succ_apply', ih (Nat.le_of_succ_le fits)]
    simp only [Snap.publish, if_pos (Nat.lt_of_succ_le fits), Function.update_self,
      Function.update_idem]
    congr 2
    ext off
    rw [Function.update_apply]
    by_cases here : off = n
    · rw [if_pos here, if_pos (by omega), here]
    · rw [if_neg here]
      split_ifs <;> first | rfl | omega

private theorem publish_alone {p : Snap} (idle : p.copied = none) (live : Nat → UInt16) :
    (fun q => q.publish live)^[mbadEnergyStart + 2] p =
      { buf := Function.update p.buf (!p.front) fun off =>
          if off < mbadEnergyStart then ⟨live off, p.pubs + 1⟩ else p.buf (!p.front) off
        front := !p.front
        copied := none
        pubs := p.pubs + 1 } := by
  have entry : p.publish live = { p with copied := some 0 } := by simp only [Snap.publish, idle]
  rw [Function.iterate_succ_apply', Function.iterate_succ_apply, entry,
    publish_copied p live (Nat.le_refl _)]
  simp only [Snap.publish, if_neg (Nat.lt_irrefl _)]

theorem run_publish (o : Sys ι) (id : Channel) (n : Nat) :
    run record o (List.replicate n (.publish id)) = { o with
      snap := Function.update o.snap id ((fun p => p.publish (o.meter id))^[n] (o.snap id)) } := by
  induction n generalizing o with
  | zero => rw [Function.iterate_zero_apply, Function.update_eq_self]; rfl
  | succ n ih =>
    rw [List.replicate_succ, run_cons, ih, Function.iterate_succ_apply]
    simp only [record, Function.update_self, Function.update_idem]

/-- What a read through the pointers as they are gives. -/
def Sys.look (o : Sys ι) : Source → Word
  | .snap id off =>
    let w := (o.snap id).buf (o.snap id).front off
    ⟨w.value, some (id, w.pub)⟩
  | .live id off => ⟨o.meter id off, none⟩
  | .simple off => ⟨o.psmpMap off, none⟩

private theorem setReader_here (o : Sys ι) (i : ι) (r : Option Reading) :
    (o.setReader i r).readers i = r :=
  Function.update_self ..

private theorem setReader_twice (o : Sys ι) (i : ι) (r q : Option Reading) :
    (o.setReader i r).setReader i q = o.setReader i q := by
  simp only [Sys.setReader, Function.update_idem]

/-- The measurements to come will be read through the pointer as it is. -/
def Reading.Fresh (r : Reading) (o : Sys ι) : Prop :=
  ∀ id off, .snap id off ∈ r.todo →
    r.ptr = some (o.snap id).front ∨ r.once = false ∧ r.ptr = none

omit [DecidableEq ι] in
private theorem Reading.Fresh.push {o : Sys ι} {r : Reading} (fresh : r.Fresh o) {s : Source}
    {rest : List Source} (todo : r.todo = s :: rest) (w : Word) : (r.push rest w).Fresh o := by
  intro id off member
  cases once : r.once with
  | false => exact .inr ⟨once, by simp only [Reading.push, once, Bool.false_eq_true, if_false]⟩
  | true =>
    rcases fresh id off (todo ▸ List.mem_cons_of_mem s member) with front | ⟨many, -⟩
    · exact .inl (by simpa only [Reading.push, once, if_true] using front)
    · rw [once] at many
      cases many

private theorem next_alone {o : Sys ι} {i : ι} {r : Reading} (here : o.readers i = some r)
    (fresh : r.Fresh o) {s : Source} {rest : List Source} (todo : r.todo = s :: rest) :
    ∃ n, run record o (List.replicate n (.read i)) =
      o.setReader i (some (r.push rest (o.look s))) := by
  have step : record o (.read i) = stepRead o i r := by simp only [record, here]
  cases s with
  | snap id off =>
    rcases fresh id off (todo ▸ List.mem_cons_self) with front | ⟨many, none⟩
    · refine ⟨1, step.trans ?_⟩
      simp only [stepRead, todo, front]
      rfl
    · refine ⟨2, ?_⟩
      have loaded : record o (.read i) =
          o.setReader i (some { r with ptr := some (o.snap id).front }) := by
        rw [step]
        simp only [stepRead, todo, none]
      change record (record o (.read i)) (.read i) = _
      rw [loaded]
      simp only [record, setReader_here, stepRead, todo, setReader_twice, Reading.push, many]
      rfl
  | live id off =>
    refine ⟨1, step.trans ?_⟩
    simp only [stepRead, todo]
    rfl
  | simple off =>
    refine ⟨1, step.trans ?_⟩
    simp only [stepRead, todo]
    rfl

private theorem read_alone {o : Sys ι} {i : ι} {r : Reading} (here : o.readers i = some r)
    (fresh : r.Fresh o) : ∃ n, (run record o (List.replicate n (.read i))).sent =
      o.sent ++ [r.got ++ r.todo.map o.look] := by
  induction todo : r.todo generalizing o r with
  | nil =>
    refine ⟨1, ?_⟩
    simp only [run, List.replicate, List.foldl, record, here, stepRead, todo, List.map_nil,
      List.append_nil]
  | cons s rest ih =>
    obtain ⟨n, next⟩ := next_alone here fresh todo
    obtain ⟨m, last⟩ := ih (setReader_here o i (some (r.push rest (o.look s))))
      (fresh.push todo _) rfl
    refine ⟨n + m, ?_⟩
    rw [List.replicate_add, run_append, next, last]
    change o.sent ++ [(r.got ++ [o.look s]) ++ rest.map o.look] = _
    rw [List.append_assoc, List.map_cons]
    rfl

/-- The memory as one state of the register map. -/
structure Shows (o : Sys ι) (s : State) : Prop where
  snap : ∀ id, ∀ off < mbadEnergyStart, ((o.snap id).buf (o.snap id).front off).value =
    s.pMeterSnap id off
  meter : s.meter = o.meter
  psmpMap : s.psmpMap = o.psmpMap

omit [DecidableEq ι] in
private theorem look_register {o : Sys ι} {s : State} (shows_ : Shows o s) (id : Channel)
    (off : Nat) :
    (o.look (register id off)).value = word s id off := by
  unfold register word
  split_ifs with small
  · exact shows_.snap id off small
  · rw [shows_.meter]
    rfl

omit [DecidableEq ι] in
private theorem look_source {o : Sys ι} {s : State} (shows_ : Shows o s) (address : Nat) :
    (source address).map (fun t => (o.look t).value) = ReadPaths.peek s address := by
  unfold source ReadPaths.peek
  cases decodeMeterAddress address with
  | none =>
    dsimp only
    split_ifs
    · rw [shows_.psmpMap]
      rfl
    · rfl
  | some place =>
    dsimp only
    split_ifs
    · rfl
    · exact congrArg some (look_register shows_ place.1 place.2)

/-- A request that nothing interrupts is answered from the memory as it is. -/
theorem request_alone {o : Sys ι} {i : ι} (free : o.readers i = none) {q : Request}
    {todo : List Source} (sources : q.sources = some todo) :
    ∃ n, (run record o (.request i q :: List.replicate n (.read i))).sent =
      o.sent ++ [todo.map o.look] := by
  have fresh : Reading.Fresh ⟨q.once, o.capture q, todo, []⟩
      (o.setReader i (some ⟨q.once, o.capture q, todo, []⟩)) := by
    intro c off member
    cases q with
    | block id start count =>
      cases sources
      obtain ⟨j, -, same⟩ := List.mem_map.mp member
      obtain ⟨rfl, -⟩ := snap_of_register same
      exact .inl rfl
    | callback start count => exact .inr ⟨rfl, rfl⟩
  obtain ⟨n, sent⟩ := read_alone (setReader_here o i _) fresh
  refine ⟨n, ?_⟩
  simp only [run_cons, record, free, sources]
  exact sent

omit [DecidableEq ι] in
/-- The words of a block are those of the state. -/
theorem block_values {o : Sys ι} {s : State} (shows_ : Shows o s) {id : Channel}
    {start count : Nat} {todo : List Source}
    (sources : Request.sources (.block id start count) = some todo) :
    todo.map (fun t => (o.look t).value) = Frame.readBlock s id start count := by
  cases sources
  rw [List.map_map]
  apply List.map_congr_left
  intro j _
  exact look_register shows_ id (start + j)

omit [DecidableEq ι] in
/-- So are those the callbacks return. -/
theorem callback_values {o : Sys ι} {s : State} (shows_ : Shows o s) {start count : Nat}
    {todo : List Source} (sources : Request.sources (.callback start count) = some todo) :
    ∀ j < count, ReadPaths.peek s (Callback.wrap (start + j)) =
      (todo.map fun t => (o.look t).value)[j]? := by
  intro j lt
  simp only [Request.sources] at sources
  split_ifs at sources
  rw [List.getElem?_map, ← collect_eq_some sources j lt]
  exact (look_source shows_ _).symm

private theorem inv_record {o : Sys ι} (inv : Inv o) {e : Event ι} (quiet : Quiet o e) :
    Inv (record o e) := by
  cases e with
  | memory meter psmpMap => exact ⟨inv.snaps, inv.reads, inv.sent⟩
  | publish id => exact inv_publish inv quiet
  | request i q =>
    simp only [record]
    split
    · rename_i todo free sources
      obtain ⟨small, single⟩ := sources_single sources
      apply inv.setReader i
      refine ⟨small, single, ?_⟩
      rintro ⟨w, member, -⟩
      cases member
    · exact inv
  | read i =>
    simp only [record]
    split
    · exact inv
    · rename_i r here
      exact inv_stepRead inv here quiet

/-- No publication yet: both buffers are zeroed, no response is under way. -/
def blank (meter : Channel → Nat → UInt16) (psmpMap : Nat → UInt16) : Sys ι where
  snap := fun _ => ⟨fun _ _ => ⟨0, 0⟩, false, none, 0⟩
  meter := meter
  psmpMap := psmpMap
  readers := fun _ => none
  sent := []

omit [DecidableEq ι] in
private theorem inv_blank (meter : Channel → Nat → UInt16) (psmpMap : Nat → UInt16) :
    Inv (blank meter psmpMap : Sys ι) where
  snaps := fun _ => ⟨fun _ _ => rfl, 0, fun _ _ => (if_neg (Nat.not_lt_zero _)).symm⟩
  reads := nofun
  sent := nofun

/-- In a quiet run every response has its measurements from one publication. -/
theorem coherent_of_quiet (meter : Channel → Nat → UInt16) (psmpMap : Nat → UInt16)
    (es : List (Event ι)) (quiet : Along record Quiet (blank meter psmpMap) es) :
    Along record (fun o e => Coherent (record o e)) (blank meter psmpMap) es :=
  along_of_invariant (fun _ _ inv step => inv_record inv step)
    (fun _ _ inv step => (inv_record inv step).sent) (inv_blank meter psmpMap) quiet

/-- A publication that copies into the other buffer, and points to it at the end, disturbs no block
that is being read. -/
private theorem quiet_copying {o : Sys Unit} {r : Reading} (here : o.readers () = some r)
    (once : r.once = true) (front : r.ptr = some (o.snap 0).front) {k n : Nat}
    (copied : (o.snap 0).copied = some k) (fits : k + n ≤ mbadEnergyStart + 1) :
    Along record Quiet o (List.replicate n (.publish 0)) := by
  induction n generalizing o k with
  | zero => trivial
  | succ n ih =>
    refine ⟨?_, ?_⟩
    · simp only [Quiet, copied]
      intro i q there begun
      obtain rfl : r = q := Option.some.inj (here.symm.trans there)
      split_ifs with more
      · intro back
        exact ((Bool.eq_not_self _).mp (Option.some.inj (front.symm.trans back))).elim
      · intro off
        simp only [Reading.later, front, once, if_true]
        exact List.not_mem_nil
    · by_cases more : k < mbadEnergyStart
      · have next : (record o (.publish 0)).snap 0 = (o.snap 0).publish (o.meter 0) := by
          simp only [record, Function.update_self]
        refine ih (o := record o (.publish 0)) (k := k + 1) here ?_ ?_ (by omega)
        · rw [next]
          simp only [Snap.publish, copied, if_pos more, front]
        · rw [next]
          simp only [Snap.publish, copied, if_pos more]
      · obtain rfl : n = 0 := by omega
        trivial

/-- A channel with live measurements, of which nothing is published yet. -/
def started : Sys Unit := blank (fun _ _ => 7) fun _ => 0

/-- A block is read while a whole publication is made, and read again after it. -/
def undisturbed : List (Event Unit) :=
  [.request () (.block 0 0 2), .read ()] ++
    (List.replicate (mbadEnergyStart + 2) (.publish 0) ++
      [.read (), .read (), .request () (.block 0 0 2), .read (), .read (), .read ()])

private theorem quiet_undisturbed : Along record Quiet started undisturbed := by
  refine (along_append ..).mpr ⟨⟨trivial, ?_, trivial⟩, (along_append ..).mpr
    ⟨⟨trivial, quiet_copying rfl rfl rfl rfl (Nat.le_of_eq (Nat.zero_add _))⟩, ?_⟩⟩
  · intro r there _ id off rest todo b ptr
    cases there
    cases todo
    cases ptr
    exact .inl rfl
  · rw [run_publish, publish_alone rfl]
    refine ⟨?_, ?_, trivial, ?_, ?_, ?_, trivial⟩
    · intro r there first
      cases there
      exact absurd ⟨_, List.mem_cons_self, rfl⟩ first
    · intro r there first
      cases there
      exact absurd ⟨_, List.mem_cons_self, rfl⟩ first
    · intro r there _ id off rest todo b ptr
      cases there
      cases todo
      cases ptr
      exact .inl rfl
    · intro r there first
      cases there
      exact absurd ⟨_, List.mem_cons_self, rfl⟩ first
    · intro r there first
      cases there
      exact absurd ⟨_, List.mem_cons_self, rfl⟩ first

theorem undisturbed_coherent :
    Along record (fun o e => Coherent (record o e)) started undisturbed ∧
      (run record started undisturbed).sent =
        [List.replicate 2 ⟨0, some (0, 0)⟩, List.replicate 2 ⟨7, some (0, 1)⟩] := by
  refine ⟨coherent_of_quiet _ _ undisturbed quiet_undisturbed, ?_⟩
  rw [undisturbed, run_append, run_append, run_publish, publish_alone rfl]
  rfl

/-- Two registers read by callbacks, with a publication in between. -/
def split_ : List (Event Unit) :=
  [.request () (.callback 0 2), .read (), .read ()] ++
    List.replicate (mbadEnergyStart + 2) (.publish 0) ++ [.read (), .read ()]

theorem split_not_coherent :
    ¬ ∀ es : List (Event Unit),
      Along record (fun o e => Coherent (record o e)) (blank (fun _ _ => 0) fun _ => 0) es := by
  intro claim
  have last := ((along_append ..).mp (claim (split_ ++ [.read ()]))).2.1
  rw [split_, run_append, run_append, run_publish, publish_alone rfl] at last
  obtain ⟨s, one⟩ := last _ List.mem_cons_self
  have first := one _ List.mem_cons_self (0, 0) rfl
  have second := one _ (List.mem_cons_of_mem _ List.mem_cons_self) (0, 1) rfl
  cases first.trans second.symm

end SV300.Modbus.Snapshot
