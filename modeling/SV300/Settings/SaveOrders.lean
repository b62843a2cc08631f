/- SV300/Settings/SaveOrders
   digest: FS_task between save, factory-reset and reboot commands, and the settings that are edited
   while it copies them: what a save order puts on file. -/

import SV300.Modbus.Commands
import SV300.Settings.PowerCut

set_option autoImplicit false
set_option relaxedAutoImplicit false

namespace SV300.Settings.SaveOrders

open SV300.Library.ByteCodec SV300.Library.FileRewrite SV300.Library.Runs
open SV300.Modbus.Map SV300.Settings.PowerCut
open SV300.Modbus.CmdQueue (Cmd)
open SV300.Modbus.Commands (Control cmdProc reqSaveSettings)

/-- The two files that are written from the memory itself. -/
inductive Definition
  | alarmDef
  | pqeDef
  deriving DecidableEq

def Definition.file : Definition → File
  | .alarmDef => .alarmDef
  | .pqeDef => .pqeDef

def size : File → Nat
  | .settings => settingsSize
  | .alarmDef => 4 + 3 * alarmDefSize
  | .pqeDef => 4 + 3 * pqeSize

/-- The offset of `feeder_cnt`, register 7521. -/
abbrev feederAt : Nat := 822

def putFeeder (v : UInt16) (db : Bytes) : Bytes :=
  (db.set feederAt v.toUInt8).set (feederAt + 1) (v >>> 8).toUInt8

def putByte (m : Memory) (i : Nat) (b : UInt8) : Memory :=
  { m with
    setting := m.setting.set i b
    setting_length := (List.length_set ..).trans m.setting_length }

/-- A step of `initSettings`, `initExtSettings` and `build_set_db`: a byte of `db`, or something else
in the memory. -/
inductive Init
  | put (i : Nat) (b : UInt8)
  | other (f : Memory → Memory)

def Init.onDb (db : Bytes) : Init → Bytes
  | .put i b => db.set i b
  | .other _ => db

def Init.onMemory (m : Memory) : Init → Memory
  | .put _ _ => m
  | .other f => f m

/-- What `FS_task` does next: a round looks at the queue of file jobs, then at `saveSetting`, at
`factReset` and at `rebootFlag`.  A save copies the settings into `db` byte by byte, writes `db`, then
byte by byte the definitions.  A factory reset builds the settings in `db`, copies them into the memory
and back, and writes `db`. -/
inductive Next
  | queue
  | testSave
  | copySettings (k : Nat)
  | saveSettings
  | openDef (f : Definition)
  | writeDef (f : Definition) (bs : Bytes)
  | clearSave
  | testReset
  | init (rest : List Init)
  | commit (k : Nat)
  | recopy (k : Nat)
  | saveDefaults
  | clearReset
  | testReboot
  | rebooting
  | resetting

def Definition.after : Definition → Next
  | .alarmDef => .openDef .pqeDef
  | .pqeDef => .clearSave

/-- The settings in memory, their copy and the files, the control words, the file jobs waiting, the
task, and what has been: the settings in memory since the last save order, latest first; whether that
order came after its round had begun to copy; which files were read from a memory that was edited
meanwhile; and what each was last saved as. -/
structure Sys where
  live : Memory
  db : Bytes
  disk : Disk File UInt8
  control : Control
  jobs : Nat
  next : Next
  since : List Memory
  late : Bool
  torn : File → Bool
  stored : File → Option Bytes

/-- A setting is written, the metering task counts the feeders in `db`, a file job is queued, a command
comes out of its queue, or the task makes its next step. -/
inductive Event
  | write (f : Memory → Memory)
  | feeders (n : UInt16)
  | job
  | deliver (x : Cmd)
  | fs

/-- A save order that comes now is still looked at before settings are copied or the device goes
down. -/
def Next.early : Next → Bool
  | .queue | .testSave | .copySettings 0 => true
  | _ => false

/-- The file of which the task has read a part from the memory. -/
def Next.reading : Next → Option File
  | .copySettings (_ + 1) => some .settings
  | .writeDef f (_ :: _) => some f.file
  | _ => none

section Machine

variable (opens : File → Bool) (inits : List Init)

/-- The file is written, or it cannot be opened.  Nothing looks at it until it is closed. -/
def store (o : Sys) (f : File) (bs : Bytes) (next : Next) : Sys :=
  if opens f then
    { o with
      disk := Function.update o.disk f (some bs)
      stored := Function.update o.stored f (some bs)
      next := next }
  else { o with next := next }

def fs (o : Sys) : Sys :=
  match o.next with
  | .queue => if 0 < o.jobs then { o with jobs := o.jobs - 1 } else { o with next := .testSave }
  | .testSave =>
    if o.control.saveSetting = 0x1234 then
      { o with
        next := .copySettings 0
        late := false
        torn := Function.update o.torn .settings false }
    else { o with next := .testReset }
  | .copySettings k =>
    let db := o.db.set k (o.live.setting.getD k 0)
    if k + 1 < settingsSize then { o with db := db, next := .copySettings (k + 1) }
    else { o with db := fixLayoutVer db, next := .saveSettings }
  | .saveSettings => store opens o .settings o.db (.openDef .alarmDef)
  | .openDef f =>
    if opens f.file then
      { o with next := .writeDef f [], torn := Function.update o.torn f.file false }
    else { o with next := f.after }
  | .writeDef f bs =>
    let bs := bs ++ [(contents o.live f.file).getD bs.length 0]
    if bs.length < size f.file then { o with next := .writeDef f bs }
    else store opens o f.file bs f.after
  | .clearSave => { o with control := { o.control with saveSetting := 0 }, next := .queue }
  | .testReset =>
    if o.control.factReset = 0x1234 then { o with since := [], next := .init inits }
    else { o with next := .testReboot }
  | .init [] => { o with next := .commit 0 }
  | .init (i :: rest) =>
    { o with live := i.onMemory o.live, db := i.onDb o.db, since := [], next := .init rest }
  | .commit k =>
    let live := putByte o.live k (o.db.getD k 0)
    if k + 1 < settingsSize then { o with live := live, since := [], next := .commit (k + 1) }
    else
      { o with
        live := live
        since := []
        control := reqSaveSettings 0x1234 o.control
        next := .recopy 0 }
  | .recopy k =>
    let db := o.db.set k (o.live.setting.getD k 0)
    if k + 1 < settingsSize then { o with db := db, next := .recopy (k + 1) }
    else { o with db := db, next := .saveDefaults }
  | .saveDefaults =>
    if opens .settings then
      { o with disk := Function.update o.disk .settings (some o.db), next := .clearReset }
    else { o with next := .clearReset }
  | .clearReset =>
    { o with control := { o.control with factReset := 0, saveSetting := 0 }, next := .resetting }
  | .testReboot =>
    if o.control.rebootFlag = 0x1234 then
      { o with control := { o.control with rebootFlag := 0 }, next := .rebooting }
    else { o with next := .queue }
  | .rebooting => o
  | .resetting => o

/-- An order other than a save withdraws the one before it. -/
def deliver (o : Sys) (x : Cmd) : Sys :=
  let o := { o with control := cmdProc o.control x }
  if x.1 = mbadSetCmd + 1 then
    if x.2 = 0x1234 then { o with since := [o.live], late := !o.next.early }
    else { o with since := [] }
  else o

def write (o : Sys) (f : Memory → Memory) : Sys :=
  { o with
    live := f o.live
    since := if o.since = [] then [] else f o.live :: o.since
    torn := o.next.reading.elim o.torn fun g => Function.update o.torn g true }

def step (o : Sys) : Event → Sys
  | .write f => write o f
  | .feeders n => { o with db := putFeeder n o.db }
  | .job => { o with jobs := o.jobs + 1 }
  | .deliver x => deliver o x
  | .fs => fs opens inits o

end Machine

/-- A byte that a file takes from the memory: the feeder count is that of `db`. -/
def Own (f : File) (i : Nat) : Prop := f = .settings → i ≠ feederAt ∧ i ≠ feederAt + 1

private theorem length_contents (m : Memory) (f : File) : (contents m f).length = size f := by
  cases f with
  | settings => exact length_fixLayoutVer m.setting_length
  | alarmDef => exact length_defFile m.almSet_length
  | pqeDef => exact length_defFile m.pqevt_length

/-- Bytes that were in memory at some moments, all of them at one moment if the memory was not edited
while they were read. -/
structure Fresh (ms : List Memory) (torn : Bool) (f : File) (bs : Bytes) : Prop where
  length : bs.length = size f
  bytes : ∀ i < size f, Own f i → ∃ m ∈ ms, bs[i]? = (contents m f)[i]?
  whole : torn = false → ∃ m ∈ ms, ∀ i < size f, Own f i → bs[i]? = (contents m f)[i]?

/-- The first `k` bytes of a file or of its copy have been read from the memory. -/
structure Read (o : Sys) (f : File) (part : Memory → Bytes) (k : Nat) (bs : Bytes) : Prop where
  room : k < size f
  bytes : ∀ i < k, Own f i → ∃ m ∈ o.since, bs[i]? = (part m)[i]?
  whole : o.torn f = false → ∀ i < k, Own f i → bs[i]? = (part o.live)[i]?

section Law

variable (opens : File → Bool) (inits : List Init)

/-- A file that opens holds what was in memory since the last save order. -/
def Held (o : Sys) (f : File) : Prop :=
  opens f = true → ∃ bs, o.disk f = some bs ∧ Fresh o.since (o.torn f) f bs

def Definition.before : Definition → List File
  | .alarmDef => [.settings]
  | .pqeDef => [.settings, .alarmDef]

/-- How far an order that was looked at is carried out. -/
def Stage (o : Sys) : Next → Prop
  | .queue | .testSave => o.control.saveSetting = 0x1234 ∨ ∀ f, Held opens o f
  | .copySettings k => Read o .settings (·.setting) k o.db
  | .saveSettings => Fresh o.since (o.torn .settings) .settings o.db
  | .openDef f => ∀ g ∈ f.before, Held opens o g
  | .writeDef f bs =>
    (∀ g ∈ f.before, Held opens o g) ∧ Read o f.file (contents · f.file) bs.length bs
  | .clearSave | .testReset | .testReboot | .rebooting => ∀ f, Held opens o f
  | .init _ | .commit _ | .recopy _ | .saveDefaults | .clearReset | .resetting => True

structure Inv (o : Sys) : Prop where
  db : o.db.length = settingsSize
  live : o.since ≠ [] → o.live ∈ o.since
  stage : o.since ≠ [] → o.late = false → Stage opens o o.next

/-- What other tasks do to a state in which the task's next step is `n`. -/
structure Grows (n : Next) (o t : Sys) : Prop where
  since : ∀ m ∈ o.since, m ∈ t.since
  disk : t.disk = o.disk
  control : t.control.saveSetting = o.control.saveSetting
  db : t.db.length = o.db.length ∧ ∀ i, Own .settings i → t.db[i]? = o.db[i]?
  torn : ∀ f, t.torn f = false → o.torn f = false
  live : ∀ f, n.reading = some f → t.torn f = false → t.live = o.live

variable {opens} {inits}

private theorem Fresh.grow {ms ns : List Memory} {torn torn' : Bool} {f : File} {bs : Bytes}
    (more : ∀ m ∈ ms, m ∈ ns) (less : torn' = false → torn = false) (fresh : Fresh ms torn f bs) :
    Fresh ns torn' f bs := by
  refine ⟨fresh.length, fun i small own => ?_, fun one => ?_⟩
  · obtain ⟨m, member, same⟩ := fresh.bytes i small own
    exact ⟨m, more m member, same⟩
  · obtain ⟨m, member, same⟩ := fresh.whole (less one)
    exact ⟨m, more m member, same⟩

private theorem Grows.held {n : Next} {o t : Sys} (grows : Grows n o t) {f : File}
    (held : Held opens o f) :
    Held opens t f := by
  intro opened
  obtain ⟨bs, there, fresh⟩ := held opened
  exact ⟨bs, grows.disk ▸ there, fresh.grow grows.since (grows.torn f)⟩

/-- A part that has been read stays read; nothing has been read yet, or the memory is the same unless
the file counts as torn. -/
private theorem Grows.read {n : Next} {o t : Sys} (grows : Grows n o t) {f : File}
    {part : Memory → Bytes} {k : Nat} {bs cs : Bytes} (reads : k = 0 ∨ n.reading = some f)
    (same : ∀ i, Own f i → cs[i]? = bs[i]?) (read : Read o f part k bs) : Read t f part k cs := by
  refine ⟨read.room, fun i small own => ?_, fun one i small own => ?_⟩
  · obtain ⟨m, member, byte⟩ := read.bytes i small own
    exact ⟨m, grows.since m member, (same i own).trans byte⟩
  · rcases reads with none | reading
    · omega
    · rw [grows.live f reading one, same i own]
      exact read.whole (grows.torn f one) i small own

private theorem Stage.grow {o t : Sys} {n : Next} (grows : Grows n o t) (stage : Stage opens o n) :
    Stage opens t n := by
  cases n <;> dsimp only [Stage] at stage ⊢
  case queue | testSave =>
    exact stage.imp (fun flag => grows.control.trans flag) fun all f => grows.held (all f)
  case copySettings k =>
    refine grows.read ?_ grows.db.2 stage
    cases k with
    | zero => exact .inl rfl
    | succ k => exact .inr rfl
  case saveSettings =>
    refine ⟨grows.db.1.trans stage.length, fun i small own => ?_, fun one => ?_⟩
    · obtain ⟨m, member, same⟩ := stage.bytes i small own
      exact ⟨m, grows.since m member, (grows.db.2 i own).trans same⟩
    · obtain ⟨m, member, same⟩ := stage.whole (grows.torn _ one)
      exact ⟨m, grows.since m member, fun i small own =>
        (grows.db.2 i own).trans (same i small own)⟩
  case openDef f => exact fun g before => grows.held (stage g before)
  case writeDef f bs =>
    refine ⟨fun g before => grows.held (stage.1 g before), ?_⟩
    refine grows.read ?_ (fun _ _ => rfl) stage.2
    cases bs with
    | nil => exact .inl rfl
    | cons b bs => exact .inr rfl
  case clearSave | testReset | testReboot | rebooting => exact fun f => grows.held (stage f)

theorem putFeeder_spec (n : UInt16) (db : Bytes) : (putFeeder n db).length = db.length ∧
    ∀ i, Own .settings i → (putFeeder n db)[i]? = db[i]? := by
  refine ⟨by rw [putFeeder, List.length_set, List.length_set], fun i own => ?_⟩
  obtain ⟨first, second⟩ := own rfl
  rw [putFeeder, List.getElem?_set_ne (Ne.symm second), List.getElem?_set_ne (Ne.symm first)]

private theorem Read.next {o : Sys} {f : File} {part : Memory → Bytes} {k : Nat} {bs cs : Bytes}
    (live : o.live ∈ o.since) (read : Read o f part k bs) (before : ∀ i < k, cs[i]? = bs[i]?)
    (byte : cs[k]? = (part o.live)[k]?) :
    (∀ i < k + 1, Own f i → ∃ m ∈ o.since, cs[i]? = (part m)[i]?) ∧
      (o.torn f = false → ∀ i < k + 1, Own f i → cs[i]? = (part o.live)[i]?) := by
  refine ⟨fun i small own => ?_, fun one i small own => ?_⟩
  · rcases Nat.lt_succ_iff_lt_or_eq.mp small with early | rfl
    · obtain ⟨m, member, same⟩ := read.bytes i early own
      exact ⟨m, member, (before i early).trans same⟩
    · exact ⟨o.live, live, byte⟩
  · rcases Nat.lt_succ_iff_lt_or_eq.mp small with early | rfl
    · exact (before i early).trans (read.whole one i early own)
    · exact byte

private theorem getElem?_fixLayoutVer {db : Bytes} (full : db.length = settingsSize) (i : Nat) :
    (fixLayoutVer db)[i]? =
      if layoutAt ≤ i ∧ i < layoutAt + 2 then (u16.encode settingsLayoutVer)[i - layoutAt]?
      else db[i]? := by
  have two : (u16.encode settingsLayoutVer).length = 2 := u16.length_encode _
  have head : (db.take 98).length = 98 := by
    rw [List.length_take, full]
    rfl
  change (db.take 98 ++ u16.encode settingsLayoutVer ++ db.drop 100)[i]? =
    if 98 ≤ i ∧ i < 100 then (u16.encode settingsLayoutVer)[i - 98]? else db[i]?
  rw [List.append_assoc, List.getElem?_append, head, List.getElem?_append, two]
  by_cases early : i < 98
  · rw [if_pos early, if_neg (by omega), List.getElem?_take, if_pos early]
  · rw [if_neg early]
    by_cases layout : i < 100
    · rw [if_pos (by omega), if_pos (by omega)]
    · have place : 100 + (i - 98 - 2) = i := by omega
      rw [if_neg (by omega), if_neg (by omega), List.getElem?_drop, place]

private theorem get_eq_some {bs : Bytes} {i n : Nat} (full : bs.length = n) (small : i < n) :
    bs[i]? = some (bs.getD i 0) := by
  rw [List.getD_eq_getElem?_getD, List.getElem?_eq_getElem (full ▸ small), Option.getD_some]

private theorem held_store {o : Sys} {f : File} {bs : Bytes} (fresh : Fresh o.since (o.torn f) f bs)
    (next : Next) : Held opens (store opens o f bs next) f := by
  intro opened
  refine ⟨bs, ?_, ?_⟩
  · rw [store, if_pos opened]
    exact Function.update_self ..
  · rw [store, if_pos opened]
    exact fresh

private theorem held_other {o : Sys} {f g : File} (other : g ≠ f) (bs : Bytes) (next : Next)
    (held : Held opens o g) : Held opens (store opens o f bs next) g := by
  intro opened
  obtain ⟨cs, there, fresh⟩ := held opened
  unfold store
  split
  · exact ⟨cs, (Function.update_of_ne other ..).trans there, fresh⟩
  · exact ⟨cs, there, fresh⟩

variable (opens) in
private theorem store_same (o : Sys) (f : File) (bs : Bytes) (next : Next) :
    (store opens o f bs next).next = next ∧ (store opens o f bs next).since = o.since ∧
      (store opens o f bs next).late = o.late ∧ (store opens o f bs next).live = o.live ∧
      (store opens o f bs next).db = o.db := by
  unfold store
  split <;> exact ⟨rfl, rfl, rfl, rfl, rfl⟩

private theorem inv_store {o : Sys} (inv : Inv opens o) {f : File} {bs : Bytes} {next : Next}
    (reached : o.since ≠ [] → o.late = false → Stage opens (store opens o f bs next) next) :
    Inv opens (store opens o f bs next) := by
  obtain ⟨next_, since, late, live, db⟩ := store_same opens o f bs next
  refine ⟨?_, ?_, ?_⟩
  · rw [db]
    exact inv.db
  · rw [since, live]
    exact inv.live
  · rw [since, late, next_]
    exact reached

private theorem Read.fresh {o : Sys} {f : File} {part : Memory → Bytes} {k : Nat} {bs cs ds : Bytes}
    (live : o.live ∈ o.since) (read : Read o f part k bs) (last : size f = k + 1)
    (before : ∀ i < k, cs[i]? = bs[i]?) (byte : cs[k]? = (part o.live)[k]?)
    (length : ds.length = size f)
    (agree : ∀ (m : Memory) (i : Nat), cs[i]? = (part m)[i]? → ds[i]? = (contents m f)[i]?) :
    Fresh o.since (o.torn f) f ds := by
  obtain ⟨bytes, whole⟩ := read.next live before byte
  rw [← last] at bytes whole
  refine ⟨length, fun i small own => ?_, fun one => ⟨o.live, live, fun i small own => ?_⟩⟩
  · obtain ⟨m, member, same⟩ := bytes i small own
    exact ⟨m, member, agree m i same⟩
  · exact agree o.live i (whole one i small own)

private theorem inv_copy {o : Sys} (inv : Inv opens o) {k : Nat} (at_ : o.next = .copySettings k) :
    Inv opens (fs opens inits o) := by
  have stage := inv.stage
  rw [at_] at stage
  unfold fs
  rw [at_]
  dsimp only
  have length : (o.db.set k (o.live.setting.getD k 0)).length = settingsSize :=
    (List.length_set ..).trans inv.db
  have before (i : Nat) (small : i < k) : (o.db.set k (o.live.setting.getD k 0))[i]? = o.db[i]? :=
    List.getElem?_set_ne (by omega)
  have byte (room : k < settingsSize) :
      (o.db.set k (o.live.setting.getD k 0))[k]? = o.live.setting[k]? := by
    rw [List.getElem?_set_self (inv.db ▸ room), get_eq_some o.live.setting_length room]
  split_ifs with more
  · refine ⟨length, inv.live, fun some_ early => ?_⟩
    have read : Read o .settings (·.setting) k o.db := stage some_ early
    obtain ⟨bytes, whole⟩ := read.next (inv.live some_) before (byte read.room)
    exact ⟨more, bytes, whole⟩
  · refine ⟨length_fixLayoutVer length, inv.live, fun some_ early => ?_⟩
    have read : Read o .settings (·.setting) k o.db := stage some_ early
    have room : k < settingsSize := read.room
    have agree (m : Memory) (i : Nat)
        (same : (o.db.set k (o.live.setting.getD k 0))[i]? = m.setting[i]?) :
        (fixLayoutVer (o.db.set k (o.live.setting.getD k 0)))[i]? =
          (contents m .settings)[i]? := by
      rw [contents, getElem?_fixLayoutVer length, getElem?_fixLayoutVer m.setting_length, same]
    exact Read.fresh (o := o) (inv.live some_) read
      (Nat.le_antisymm (Nat.not_lt.mp more) room) before (byte room) (length_fixLayoutVer length)
      agree

private theorem inv_writeDef {o : Sys} (inv : Inv opens o) {f : Definition} {bs : Bytes}
    (at_ : o.next = .writeDef f bs) : Inv opens (fs opens inits o) := by
  have stage := inv.stage
  rw [at_] at stage
  unfold fs
  rw [at_]
  dsimp only
  have before (b : UInt8) (i : Nat) (small : i < bs.length) : (bs ++ [b])[i]? = bs[i]? :=
    List.getElem?_append_left small
  have byte (room : bs.length < size f.file) :
      (bs ++ [(contents o.live f.file).getD bs.length 0])[bs.length]? =
        (contents o.live f.file)[bs.length]? := by
    rw [List.getElem?_concat_length, get_eq_some (length_contents o.live f.file) room]
  split_ifs with more
  · refine ⟨inv.db, inv.live, fun some_ early => ?_⟩
    obtain ⟨held, read⟩ := stage some_ early
    obtain ⟨bytes, whole⟩ := read.next (inv.live some_) (before _) (byte read.room)
    have length : (bs ++ [(contents o.live f.file).getD bs.length 0]).length = bs.length + 1 :=
      List.length_append
    refine ⟨held, more, ?_, ?_⟩ <;> rw [length]
    · exact bytes
    · exact whole
  · refine inv_store inv fun some_ early => ?_
    obtain ⟨held, read⟩ := stage some_ early
    have length : (bs ++ [(contents o.live f.file).getD bs.length 0]).length = bs.length + 1 :=
      List.length_append
    have room := read.room
    have last : size f.file = bs.length + 1 := by omega
    have fresh := read.fresh (inv.live some_) last (before _) (byte read.room)
      (length.trans last.symm) fun m i same => same
    cases f with
    | alarmDef =>
      intro g member
      rcases List.mem_cons.mp member with rfl | member
      · exact held_other File.noConfusion _ _ (held _ (List.mem_singleton_self _))
      · rw [List.mem_singleton.mp member]
        exact held_store fresh _
    | pqeDef =>
      intro g
      cases g with
      | settings => exact held_other File.noConfusion _ _ (held _ List.mem_cons_self)
      | alarmDef =>
        exact held_other File.noConfusion _ _
          (held _ (List.mem_cons_of_mem _ (List.mem_singleton_self _)))
      | pqeDef => exact held_store fresh _

private theorem inv_openDef {o : Sys} (inv : Inv opens o) {f : Definition}
    (at_ : o.next = .openDef f) : Inv opens (fs opens inits o) := by
  have stage := inv.stage
  unfold fs
  rw [at_] at stage ⊢
  dsimp only
  split
  · next opened =>
    refine ⟨inv.db, inv.live, fun some_ early => ⟨fun g member opened => ?_, ?_, ?_, ?_⟩⟩
    · obtain ⟨bs, there, fresh⟩ := stage some_ early g member opened
      have other : g ≠ f.file := by
        rintro rfl
        cases f <;> simp [Definition.before, Definition.file] at member
      refine ⟨bs, there, ?_⟩
      change Fresh o.since (Function.update o.torn f.file false g) g bs
      rw [Function.update_of_ne other]
      exact fresh
    · cases f <;> decide
    · exact fun i small => absurd small (Nat.not_lt_zero i)
    · exact fun _ i small => absurd small (Nat.not_lt_zero i)
  · next closed =>
    refine ⟨inv.db, inv.live, fun some_ early => ?_⟩
    have held := stage some_ early
    cases f with
    | alarmDef =>
      intro g member
      rcases List.mem_cons.mp member with rfl | member
      · exact held _ (List.mem_singleton_self _)
      · rw [List.mem_singleton.mp member]
        exact fun opened => absurd opened closed
    | pqeDef =>
      intro g
      cases g with
      | settings => exact held _ List.mem_cons_self
      | alarmDef => exact held _ (List.mem_cons_of_mem _ (List.mem_singleton_self _))
      | pqeDef => exact fun opened => absurd opened closed

private theorem inv_fs {o : Sys} (inv : Inv opens o) : Inv opens (fs opens inits o) := by
  have stage := inv.stage
  cases at_ : o.next with
  | copySettings k => exact inv_copy inv at_
  | writeDef f bs => exact inv_writeDef inv at_
  | queue =>
    unfold fs
    rw [at_] at stage ⊢
    dsimp only
    split <;> exact ⟨inv.db, inv.live, stage⟩
  | testSave =>
    unfold fs
    rw [at_] at stage ⊢
    dsimp only
    split
    · refine ⟨inv.db, inv.live, fun _ _ => ⟨by decide, ?_, ?_⟩⟩
      · exact fun i small => absurd small (Nat.not_lt_zero i)
      · exact fun _ i small => absurd small (Nat.not_lt_zero i)
    · next flag =>
      exact ⟨inv.db, inv.live, fun some_ early => (stage some_ early).resolve_left flag⟩
  | saveSettings =>
    unfold fs
    rw [at_] at stage ⊢
    dsimp only
    refine inv_store inv fun some_ early g member => ?_
    rw [List.mem_singleton.mp member]
    exact held_store (stage some_ early) _
  | openDef f => exact inv_openDef inv at_
  | clearSave =>
    unfold fs
    rw [at_] at stage ⊢
    exact ⟨inv.db, inv.live, fun some_ early => .inr (stage some_ early)⟩
  | testReset =>
    unfold fs
    rw [at_] at stage ⊢
    dsimp only
    split
    · exact ⟨inv.db, fun some_ => absurd rfl some_, fun some_ => absurd rfl some_⟩
    · exact ⟨inv.db, inv.live, stage⟩
  | init rest =>
    unfold fs
    rw [at_]
    cases rest with
    | nil => exact ⟨inv.db, inv.live, fun _ _ => trivial⟩
    | cons i rest =>
      refine ⟨?_, fun some_ => absurd rfl some_, fun some_ => absurd rfl some_⟩
      cases i with
      | put i b => exact (List.length_set ..).trans inv.db
      | other f => exact inv.db
  | commit k =>
    unfold fs
    rw [at_]
    dsimp only
    split <;> exact ⟨inv.db, fun some_ => absurd rfl some_, fun some_ => absurd rfl some_⟩
  | recopy k =>
    unfold fs
    rw [at_]
    dsimp only
    have length : (o.db.set k (o.live.setting.getD k 0)).length = settingsSize :=
      (List.length_set ..).trans inv.db
    split <;> exact ⟨length, inv.live, fun _ _ => trivial⟩
  | saveDefaults =>
    unfold fs
    rw [at_]
    dsimp only
    split <;> exact ⟨inv.db, inv.live, fun _ _ => trivial⟩
  | clearReset =>
    unfold fs
    rw [at_]
    exact ⟨inv.db, inv.live, fun _ _ => trivial⟩
  | testReboot =>
    unfold fs
    rw [at_] at stage ⊢
    dsimp only
    split
    · exact ⟨inv.db, inv.live, stage⟩
    · exact ⟨inv.db, inv.live, fun some_ early => .inr (stage some_ early)⟩
  | rebooting | resetting =>
    unfold fs
    rw [at_]
    exact inv

private theorem inv_deliver {o : Sys} (inv : Inv opens o) (x : Cmd) : Inv opens (deliver o x) := by
  have flag := Modbus.Commands.cmdProc_saveSetting o.control x
  unfold deliver
  dsimp only
  split
  · next save =>
    rw [if_pos save] at flag
    split
    · next order =>
      refine ⟨inv.db, fun _ => List.mem_singleton_self _, fun _ early => ?_⟩
      dsimp only at early ⊢
      rw [order] at flag
      cases at_ : o.next with
      | queue | testSave => exact .inl flag
      | copySettings k =>
        cases k with
        | zero =>
          refine ⟨by decide, ?_, ?_⟩
          · exact fun i small => absurd small (Nat.not_lt_zero i)
          · exact fun _ i small => absurd small (Nat.not_lt_zero i)
        | succ k =>
          rw [at_] at early
          exact absurd early (by simp [Next.early])
      | _ =>
        rw [at_] at early
        exact absurd early (by simp [Next.early])
    · exact ⟨inv.db, fun some_ => absurd rfl some_, fun some_ => absurd rfl some_⟩
  · next other =>
    rw [if_neg other] at flag
    refine ⟨inv.db, inv.live, fun some_ early => ?_⟩
    exact Stage.grow (o := o) (t := { o with control := cmdProc o.control x })
      ⟨fun _ => id, rfl, flag, ⟨rfl, fun _ _ => rfl⟩, fun _ => id, fun _ _ _ => rfl⟩
      (inv.stage some_ early)

private theorem torn_write {o : Sys} {g : Memory → Memory} {f : File}
    (one : (write o g).torn f = false) :
    o.torn f = false ∧ o.next.reading ≠ some f := by
  change (o.next.reading.elim o.torn fun h => Function.update o.torn h true) f = false at one
  cases reading : o.next.reading with
  | none =>
    rw [reading] at one
    exact ⟨one, nofun⟩
  | some h =>
    rw [reading, Option.elim_some] at one
    by_cases same : f = h
    · rw [same, Function.update_self] at one
      cases one
    · rw [Function.update_of_ne same] at one
      exact ⟨one, fun there => same (Option.some.inj there).symm⟩

private theorem inv_write {o : Sys} (inv : Inv opens o) (g : Memory → Memory) :
    Inv opens (write o g) := by
  by_cases none : o.since = []
  · have still : (write o g).since = [] := if_pos none
    exact ⟨inv.db, fun some_ => absurd still some_, fun some_ => absurd still some_⟩
  · have grown : (write o g).since = g o.live :: o.since := if_neg none
    refine ⟨inv.db, fun _ => grown ▸ List.mem_cons_self, fun _ early => ?_⟩
    refine Stage.grow (o := o) ⟨fun m member => ?_, rfl, rfl, ⟨rfl, fun _ _ => rfl⟩,
      fun f one => (torn_write one).1, fun f reading one => ?_⟩ (inv.stage none early)
    · rw [grown]
      exact List.mem_cons_of_mem _ member
    · exact absurd reading (torn_write one).2

private theorem inv_step {o : Sys} (inv : Inv opens o) (e : Event) :
    Inv opens (step opens inits o e) := by
  cases e with
  | write g => exact inv_write inv g
  | feeders n =>
    obtain ⟨length, same⟩ := putFeeder_spec n o.db
    refine ⟨length.trans inv.db, inv.live, fun some_ early => ?_⟩
    exact Stage.grow (o := o) (t := { o with db := putFeeder n o.db })
      ⟨fun _ => id, rfl, rfl, ⟨length, same⟩, fun _ => id, fun _ _ _ => rfl⟩
      (inv.stage some_ early)
  | job =>
    refine ⟨inv.db, inv.live, fun some_ early => ?_⟩
    exact Stage.grow (o := o) (t := { o with jobs := o.jobs + 1 })
      ⟨fun _ => id, rfl, rfl, ⟨rfl, fun _ _ => rfl⟩, fun _ => id, fun _ _ _ => rfl⟩
      (inv.stage some_ early)
  | deliver x => exact inv_deliver inv x
  | fs => exact inv_fs inv

/-- A device that has just been started, with any files. -/
structure Started (o : Sys) : Prop where
  next : o.next = .queue
  since : o.since = []
  db : o.db.length = settingsSize
  stored : o.stored = fun _ => none

private theorem eq_defFile {magic : UInt32} {n : Nat} {bs : Bytes} (length : bs.length = 4 + 3 * n)
    (head : ∀ i < 4, bs[i]? = (u32.encode magic)[i]?) :
    ∃ blocks : PowerCut.Channel → Bytes, (∀ id, (blocks id).length = n) ∧ bs = defFile magic blocks := by
  have four : (u32.encode magic).length = 4 := u32.length_encode _
  have front : bs.take 4 = u32.encode magic := by
    apply List.ext_getElem?
    intro i
    rw [List.getElem?_take]
    split_ifs with small
    · exact head i small
    · rw [List.getElem?_eq_none (by omega)]
  have split (k : Nat) : bs.drop k = (bs.drop k).take n ++ bs.drop (k + n) := by
    rw [← List.drop_drop, List.take_append_drop]
  refine ⟨fun id => (bs.drop (4 + id.val * n)).take n, fun id => ?_, ?_⟩
  · have few := id.isLt
    have within : id.val * n + n ≤ 3 * n := by
      rw [← Nat.succ_mul]
      exact Nat.mul_le_mul_right n few
    rw [List.length_take, List.length_drop, length]
    omega
  · have whole : bs = bs.take 4 ++ bs.drop 4 := (List.take_append_drop 4 bs).symm
    have rest : bs.drop (4 + n + n + n) = [] := List.drop_eq_nil_of_le (by omega)
    have blocks : bs.drop 4 = (bs.drop 4).take n ++ ((bs.drop (4 + n)).take n ++
        ((bs.drop (4 + n + n)).take n ++ [])) := by
      rw [← rest, ← split, ← split, ← split]
    rw [defFile, ← front]
    refine whole.trans (congrArg _ (blocks.trans ?_))
    simp [channels, Nat.two_mul, Nat.add_assoc]

end Law

def Definition.magic : Definition → UInt32
  | .alarmDef => alarmDefMagic
  | .pqeDef => pqeDefMagic

def Definition.blockSize : Definition → Nat
  | .alarmDef => alarmDefSize
  | .pqeDef => pqeSize

private theorem size_definition (f : Definition) :
    size f.file = 4 + 3 * f.blockSize := by cases f <;> rfl

private theorem contents_head (m : Memory) (f : Definition) {i : Nat} (small : i < 4) :
    (contents m f.file)[i]? = (u32.encode f.magic)[i]? := by
  have four (magic : UInt32) : (u32.encode magic).length = 4 := u32.length_encode _
  cases f with
  | alarmDef => exact List.getElem?_append_left ((four alarmDefMagic).symm ▸ small)
  | pqeDef => exact List.getElem?_append_left ((four pqeDefMagic).symm ▸ small)

/-- A file of definitions that was written to its end. -/
def Complete (f : Definition) (bs : Bytes) : Prop :=
  ∃ blocks : PowerCut.Channel → Bytes, (∀ id, (blocks id).length = f.blockSize) ∧
    bs = defFile f.magic blocks

/-- The default settings, built in a copy of any settings. -/
def defaults (inits : List Init) (db : Bytes) : Bytes := inits.foldl Init.onDb db

/-- Settings that differ in the feeder count at most. -/
def Agrees (a b : Bytes) : Prop := ∀ i : Nat, Own .settings i → a[i]? = b[i]?

section Reset

variable {opens : File → Bool} {inits : List Init}

/-- A copy that holds the default settings, but for the feeder count. -/
def Default (inits : List Init) (bs : Bytes) : Prop :=
  ∃ db : Bytes, db.length = settingsSize ∧ Agrees bs (defaults inits db)

variable (opens inits) in
/-- How far the default settings are on their way to the file. -/
def Resetting (o : Sys) : Next → Prop
  | .init rest => ∃ done, done ++ rest = inits ∧ Default done o.db
  | .commit k => k < settingsSize ∧ ∃ db : Bytes, db.length = settingsSize ∧
      Agrees o.db (defaults inits db) ∧
      ∀ i < k, Own .settings i → o.live.setting[i]? = (defaults inits db)[i]?
  | .recopy k => k < settingsSize ∧ ∃ db : Bytes, db.length = settingsSize ∧
      Agrees o.db (defaults inits db) ∧ Agrees o.live.setting (defaults inits db)
  | .saveDefaults => Default inits o.db
  | .clearReset | .resetting => opens .settings = true →
      ∃ bs, o.disk .settings = some bs ∧ bs.length = settingsSize ∧ Default inits bs
  | _ => True

/-- The file of definitions that is being written has its magic number. -/
def Writing : Next → Prop
  | .writeDef f bs => bs.length < size f.file ∧
      ∀ i < bs.length, i < 4 → bs[i]? = (u32.encode f.magic)[i]?
  | _ => True

variable (opens inits) in
structure Survives (d : Disk File UInt8) (o : Sys) : Prop where
  db : o.db.length = settingsSize
  kept : ∀ f : Definition, o.disk f.file = (o.stored f.file).elim (d f.file) some
  complete : ∀ f : Definition, ∀ bs ∈ o.stored f.file, Complete f bs
  writing : Writing o.next
  resetting : Resetting opens inits o o.next

/-- The reset is between its first step and the end of its copy. -/
def Next.building : Next → Bool
  | .init _ | .commit _ | .recopy _ => true
  | _ => false

/-- No setting is written while a reset builds and copies the defaults. -/
def Undisturbed (o : Sys) : Event → Prop
  | .write _ => o.next.building = false
  | _ => True

private theorem Agrees.trans {a b c : Bytes} (ab : Agrees a b) (bc : Agrees b c) : Agrees a c :=
  fun i own => (ab i own).trans (bc i own)

private theorem Agrees.set {a b : Bytes} (same : Agrees a b) (i : Nat) (c : UInt8)
    (full : a.length = b.length) : Agrees (a.set i c) (b.set i c) := by
  intro j own
  rw [List.getElem?_set, List.getElem?_set, same j own, full]

private theorem length_onDb (db : Bytes) (i : Init) : (i.onDb db).length = db.length := by
  cases i with
  | put i b => exact List.length_set ..
  | other f => rfl

private theorem length_defaults (inits : List Init) (db : Bytes) :
    (defaults inits db).length = db.length := by
  induction inits generalizing db with
  | nil => rfl
  | cons i rest ih => exact (ih (i.onDb db)).trans (length_onDb db i)

private theorem agrees_of_lt {a b : Bytes} (left : a.length = settingsSize)
    (right : b.length = settingsSize)
    (same : ∀ i < settingsSize, Own .settings i → a[i]? = b[i]?) : Agrees a b := by
  intro i own
  rcases Nat.lt_or_ge i settingsSize with small | beyond
  · exact same i small own
  · rw [List.getElem?_eq_none (left ▸ beyond), List.getElem?_eq_none (right ▸ beyond)]

private theorem survives_store {o : Sys} {d : Disk File UInt8} (inv : Survives opens inits d o)
    {f : File} {bs : Bytes} {next : Next} (complete : ∀ g : Definition, g.file = f → Complete g bs)
    (written : Writing next) (going : ∀ t, Resetting opens inits t next) :
    Survives opens inits d (store opens o f bs next) := by
  have reached := (store_same opens o f bs next).1
  refine ⟨?_, fun g => ?_, fun g cs => ?_, ?_, ?_⟩
  · rw [(store_same opens o f bs next).2.2.2.2]
    exact inv.db
  · unfold store
    split
    · by_cases same : g.file = f
      · subst same
        simp
      · simp only [Function.update_of_ne same]
        exact inv.kept g
    · exact inv.kept g
  · unfold store
    split
    · by_cases same : g.file = f
      · subst same
        simp only [Function.update_self, Option.mem_some_iff]
        rintro rfl
        exact complete g rfl
      · simp only [Function.update_of_ne same]
        exact inv.complete g cs
    · exact inv.complete g cs
  · rw [reached]
    exact written
  · rw [reached]
    exact going _

private theorem survives_aside {o t : Sys} {d : Disk File UInt8} (inv : Survives opens inits d o)
    (db : t.db.length = o.db.length) (disk : t.disk = o.disk) (stored : t.stored = o.stored)
    (written : Writing t.next) (going : Resetting opens inits t t.next) :
    Survives opens inits d t :=
  ⟨db.trans inv.db, disk ▸ stored ▸ inv.kept, stored ▸ inv.complete, written, going⟩

private theorem survives_writeDef {o : Sys} {d : Disk File UInt8} (inv : Survives opens inits d o)
    {f : Definition} {bs : Bytes} (at_ : o.next = .writeDef f bs) :
    Survives opens inits d (fs opens inits o) := by
  have written := inv.writing
  rw [at_] at written
  obtain ⟨room, head⟩ := written
  unfold fs
  rw [at_]
  dsimp only
  have length : (bs ++ [(contents o.live f.file).getD bs.length 0]).length = bs.length + 1 :=
    List.length_append
  have next (i : Nat) (inside : i < bs.length + 1) (small : i < 4) :
      (bs ++ [(contents o.live f.file).getD bs.length 0])[i]? = (u32.encode f.magic)[i]? := by
    rcases Nat.lt_succ_iff_lt_or_eq.mp inside with early | rfl
    · rw [List.getElem?_append_left early]
      exact head i early small
    · rw [List.getElem?_concat_length, ← get_eq_some (length_contents o.live f.file) room,
        contents_head o.live f small]
  split_ifs with more
  · refine survives_aside inv rfl rfl rfl ⟨more, ?_⟩ trivial
    rw [length]
    exact next
  · refine survives_store inv (fun g same => ?_) ?_ ?_
    · obtain rfl : g = f := by cases g <;> cases f <;> first | rfl | cases same
      rw [size_definition] at room more
      exact eq_defFile (by omega) fun i small => next i (by omega) small
    · cases f <;> trivial
    · intro t
      cases f <;> trivial

private theorem survives_init {o : Sys} {d : Disk File UInt8} (inv : Survives opens inits d o)
    {rest : List Init} (at_ : o.next = .init rest) : Survives opens inits d (fs opens inits o) := by
  have going := inv.resetting
  rw [at_] at going
  obtain ⟨done, whole, db, full, agrees⟩ := going
  unfold fs
  rw [at_]
  cases rest with
  | nil =>
    rw [List.append_nil] at whole
    refine survives_aside inv rfl rfl rfl trivial ⟨by decide, db, full, whole ▸ agrees, ?_⟩
    exact fun i small => absurd small (Nat.not_lt_zero i)
  | cons i rest =>
    refine survives_aside inv (length_onDb o.db i) rfl rfl trivial ⟨done ++ [i], ?_, db, full, ?_⟩
    · rw [List.append_assoc, List.singleton_append, whole]
    · rw [defaults, List.foldl_append]
      cases i with
      | put i b => exact agrees.set i b (inv.db.trans (full.symm.trans (length_defaults done db).symm))
      | other f => exact agrees

private theorem survives_commit {o : Sys} {d : Disk File UInt8} (inv : Survives opens inits d o)
    {k : Nat} (at_ : o.next = .commit k) : Survives opens inits d (fs opens inits o) := by
  have going := inv.resetting
  rw [at_] at going
  obtain ⟨room, db, full, agrees, copied⟩ := going
  unfold fs
  rw [at_]
  dsimp only
  have next (i : Nat) (small : i < k + 1) (own : Own .settings i) :
      (o.live.setting.set k (o.db.getD k 0))[i]? = (defaults inits db)[i]? := by
    rcases Nat.lt_succ_iff_lt_or_eq.mp small with early | rfl
    · rw [List.getElem?_set_ne (by omega)]
      exact copied i early own
    · rw [List.getElem?_set_self (by rw [o.live.setting_length]; exact room),
        ← get_eq_some inv.db room]
      exact agrees i own
  split_ifs with more
  · exact survives_aside inv rfl rfl rfl trivial ⟨more, db, full, agrees, next⟩
  · refine survives_aside inv rfl rfl rfl trivial ⟨by decide, db, full, agrees, ?_⟩
    refine agrees_of_lt (putByte o.live k _).setting_length
      ((length_defaults inits db).trans full) fun i small => next i ?_
    omega

private theorem survives_recopy {o : Sys} {d : Disk File UInt8} (inv : Survives opens inits d o)
    {k : Nat} (at_ : o.next = .recopy k) : Survives opens inits d (fs opens inits o) := by
  have going := inv.resetting
  have copied : (o.db.set k (o.live.setting.getD k 0)).length = o.db.length :=
    List.length_set ..
  rw [at_] at going
  obtain ⟨room, db, full, agrees, held⟩ := going
  unfold fs
  rw [at_]
  dsimp only
  have still : Agrees (o.db.set k (o.live.setting.getD k 0)) (defaults inits db) := by
    intro i own
    by_cases same : k = i
    · subst same
      rw [List.getElem?_set_self (inv.db ▸ room), ← get_eq_some o.live.setting_length room]
      exact held k own
    · rw [List.getElem?_set_ne same]
      exact agrees i own
  split_ifs with more
  · exact survives_aside inv copied rfl rfl trivial ⟨more, db, full, still, held⟩
  · exact survives_aside inv copied rfl rfl trivial ⟨db, full, still⟩

private theorem survives_saveDefaults {o : Sys} {d : Disk File UInt8} (inv : Survives opens inits d o)
    (at_ : o.next = .saveDefaults) : Survives opens inits d (fs opens inits o) := by
  have going := inv.resetting
  rw [at_] at going
  unfold fs
  rw [at_]
  dsimp only
  split
  · refine ⟨inv.db, fun f => ?_, inv.complete, trivial, fun _ => ⟨o.db, ?_, inv.db, going⟩⟩
    · have other : f.file ≠ .settings := by cases f <;> nofun
      exact (Function.update_of_ne other ..).trans (inv.kept f)
    · change Function.update o.disk File.settings (some o.db) .settings = some o.db
      rw [Function.update_self]
  · next closed =>
    exact survives_aside inv rfl rfl rfl trivial fun opened => absurd opened closed

private theorem survives_fs {o : Sys} {d : Disk File UInt8} (inv : Survives opens inits d o) :
    Survives opens inits d (fs opens inits o) := by
  have going := inv.resetting
  have copied {k : Nat} : (o.db.set k (o.live.setting.getD k 0)).length = o.db.length :=
    List.length_set ..
  cases at_ : o.next with
  | writeDef f bs => exact survives_writeDef inv at_
  | queue | testSave | clearSave | testReboot =>
    unfold fs
    rw [at_]
    dsimp only
    first
    | exact survives_aside inv rfl rfl rfl trivial trivial
    | split <;> exact survives_aside inv rfl rfl rfl trivial trivial
  | copySettings k =>
    unfold fs
    rw [at_]
    dsimp only
    split
    · exact survives_aside inv copied rfl rfl trivial trivial
    · refine survives_aside inv ?_ rfl rfl trivial trivial
      exact (length_fixLayoutVer (copied.trans inv.db)).trans inv.db.symm
  | saveSettings =>
    unfold fs
    rw [at_]
    exact survives_store inv (fun g same => by cases g <;> cases same) trivial fun _ => trivial
  | openDef f =>
    unfold fs
    rw [at_]
    dsimp only
    split
    · refine survives_aside inv rfl rfl rfl ⟨?_, nofun⟩ trivial
      cases f <;> decide
    · cases f <;> exact survives_aside inv rfl rfl rfl trivial trivial
  | testReset =>
    unfold fs
    rw [at_]
    dsimp only
    split
    · exact survives_aside inv rfl rfl rfl trivial ⟨[], rfl, o.db, inv.db, fun _ _ => rfl⟩
    · exact survives_aside inv rfl rfl rfl trivial trivial
  | init rest => exact survives_init inv at_
  | commit k => exact survives_commit inv at_
  | recopy k => exact survives_recopy inv at_
  | saveDefaults => exact survives_saveDefaults inv at_
  | clearReset =>
    rw [at_] at going
    unfold fs
    rw [at_]
    exact survives_aside inv rfl rfl rfl trivial going
  | rebooting | resetting =>
    unfold fs
    rw [at_]
    exact inv

private theorem survives_step {o : Sys} {d : Disk File UInt8} {e : Event}
    (inv : Survives opens inits d o) (quiet : Undisturbed o e) :
    Survives opens inits d (step opens inits o e) := by
  have going := inv.resetting
  cases e with
  | write g =>
    refine survives_aside inv rfl rfl rfl inv.writing ?_
    have idle : o.next.building = false := quiet
    change Resetting opens inits (write o g) o.next
    cases at_ : o.next <;> rw [at_] at going idle <;> first | exact going | cases idle
  | feeders n =>
    obtain ⟨length, same⟩ := putFeeder_spec n o.db
    refine survives_aside inv length rfl rfl inv.writing ?_
    change Resetting opens inits { o with db := putFeeder n o.db } o.next
    cases at_ : o.next with
    | init rest =>
      rw [at_] at going
      obtain ⟨done, whole, db, full, agrees⟩ := going
      exact ⟨done, whole, db, full, Agrees.trans same agrees⟩
    | commit k =>
      rw [at_] at going
      obtain ⟨room, db, full, agrees, copied⟩ := going
      exact ⟨room, db, full, Agrees.trans same agrees, copied⟩
    | recopy k =>
      rw [at_] at going
      obtain ⟨room, db, full, agrees, held⟩ := going
      exact ⟨room, db, full, Agrees.trans same agrees, held⟩
    | saveDefaults =>
      rw [at_] at going
      obtain ⟨db, full, agrees⟩ := going
      exact ⟨db, full, Agrees.trans same agrees⟩
    | clearReset | resetting =>
      rw [at_] at going
      exact going
    | _ => trivial
  | job => exact ⟨inv.db, inv.kept, inv.complete, inv.writing, inv.resetting⟩
  | deliver x =>
    change Survives opens inits d (deliver o x)
    unfold deliver
    dsimp only
    split
    · split <;> exact ⟨inv.db, inv.kept, inv.complete, inv.writing, inv.resetting⟩
    · exact ⟨inv.db, inv.kept, inv.complete, inv.writing, inv.resetting⟩
  | fs => exact survives_fs inv

/-- A factory reset puts the default settings on file; the definitions of alarms and events saved
last stay there and come back with the next boot. -/
theorem factory_reset_survivors {o : Sys} (started : Started o) {es : List Event}
    (quiet : Along (step opens inits) Undisturbed o es) (b : Boot) :
    let t := run (step opens inits) o es
    t.next = .resetting →
      (opens .settings = true →
        ∃ bs, t.disk .settings = some bs ∧ bs.length = settingsSize ∧ Default inits bs) ∧
      (∀ f : Definition, t.disk f.file = (t.stored f.file).elim (o.disk f.file) some) ∧
      (∀ bs ∈ t.stored .alarmDef, ∃ blocks, bs = defFile alarmDefMagic blocks ∧
        loadAlarmDef b (t.disk .alarmDef) = (true, blocks)) ∧
      ∀ bs ∈ t.stored .pqeDef, ∃ blocks, bs = defFile pqeDefMagic blocks ∧
        loadPqeDef b (t.disk .pqeDef) = (true, blocks) := by
  intro t down
  have start : Survives opens inits o.disk o := by
    refine ⟨started.db, fun f => ?_, fun f bs last => ?_, ?_, ?_⟩
    · rw [started.stored, Option.elim_none]
    · rw [started.stored] at last
      cases last
    · rw [started.next]
      trivial
    · rw [started.next]
      trivial
  have inv : Survives opens inits o.disk (run (step opens inits) o es) :=
    invariant_run (I := Survives opens inits o.disk)
      (fun s e inv quiet => survives_step inv quiet) start quiet
  have settings := inv.resetting
  rw [down] at settings
  refine ⟨settings, inv.kept, fun bs last => ?_, fun bs last => ?_⟩
  · obtain ⟨blocks, length, rfl⟩ := inv.complete .alarmDef bs last
    have kept := inv.kept .alarmDef
    change t.disk .alarmDef = (t.stored .alarmDef).elim _ _ at kept
    rw [Option.mem_def.mp last, Option.elim_some] at kept
    exact ⟨blocks, rfl, kept ▸ loadDef_saved length b.almSet⟩
  · obtain ⟨blocks, length, rfl⟩ := inv.complete .pqeDef bs last
    have kept := inv.kept .pqeDef
    change t.disk .pqeDef = (t.stored .pqeDef).elim _ _ at kept
    rw [Option.mem_def.mp last, Option.elim_some] at kept
    exact ⟨blocks, rfl, kept ▸ loadDef_saved length b.pqevt⟩

end Reset

/-- Only the task has moved, and has met no order. -/
structure Same (o t : Sys) : Prop where
  live : t.live = o.live
  control : t.control = o.control
  jobs : t.jobs = o.jobs
  since : t.since = o.since
  late : t.late = o.late

private theorem Same.trans {o t u : Sys} (first : Same o t) (second : Same t u) : Same o u :=
  ⟨second.live.trans first.live, second.control.trans first.control, second.jobs.trans first.jobs,
    second.since.trans first.since, second.late.trans first.late⟩

def steps (n : Nat) : List Event := List.replicate n .fs

section Rounds

variable {opens : File → Bool} {inits : List Init}

private theorem same_store (o : Sys) (f : File) (bs : Bytes) (next : Next) :
    Same o (store opens o f bs next) := by
  unfold store
  split <;> exact ⟨rfl, rfl, rfl, rfl, rfl⟩

variable (opens inits) in
theorem copy_run {n k : Nat} {o : Sys} (at_ : o.next = .copySettings k)
    (left : k + n + 1 = settingsSize) :
    (run (step opens inits) o (steps (n + 1))).next = .saveSettings ∧
      Same o (run (step opens inits) o (steps (n + 1))) := by
  induction n generalizing k o with
  | zero =>
    have last : ¬ k + 1 < settingsSize := by omega
    change (fs opens inits o).next = _ ∧ Same o (fs opens inits o)
    unfold fs
    rw [at_]
    dsimp only
    rw [if_neg last]
    exact ⟨rfl, rfl, rfl, rfl, rfl, rfl⟩
  | succ n ih =>
    have more : k + 1 < settingsSize := by omega
    have first : (fs opens inits o).next = .copySettings (k + 1) ∧ Same o (fs opens inits o) := by
      unfold fs
      rw [at_]
      dsimp only
      rw [if_pos more]
      exact ⟨rfl, rfl, rfl, rfl, rfl, rfl⟩
    obtain ⟨ends, same⟩ := ih first.1 (by omega)
    exact ⟨ends, first.2.trans same⟩

private theorem stored_store {f : File} (opened : opens f = true) (o : Sys) (bs : Bytes)
    (next : Next) :
    ((store opens o f bs next).stored f).isSome := by
  rw [store, if_pos opened]
  exact congrArg Option.isSome (Function.update_self f (some bs) o.stored)

variable (opens inits) in
theorem write_run {n : Nat} {f : Definition} {bs : Bytes} {o : Sys} (at_ : o.next = .writeDef f bs)
    (opened : opens f.file = true) (left : bs.length + n + 1 = size f.file) :
    (run (step opens inits) o (steps (n + 1))).next = f.after ∧
      Same o (run (step opens inits) o (steps (n + 1))) ∧
      ((run (step opens inits) o (steps (n + 1))).stored f.file).isSome := by
  induction n generalizing bs o with
  | zero =>
    change (fs opens inits o).next = _ ∧ Same o (fs opens inits o) ∧ _
    unfold fs
    rw [at_]
    dsimp only
    rw [List.length_append, List.length_singleton, if_neg (by omega)]
    refine ⟨(store_same ..).1, same_store .., ?_⟩
    change ((fs opens inits o).stored f.file).isSome
    unfold fs
    rw [at_]
    dsimp only
    rw [List.length_append, List.length_singleton, if_neg (by omega)]
    exact stored_store opened ..
  | succ n ih =>
    have first : (fs opens inits o).next =
          .writeDef f (bs ++ [(contents o.live f.file).getD bs.length 0]) ∧
        Same o (fs opens inits o) := by
      unfold fs
      rw [at_]
      dsimp only
      rw [List.length_append, List.length_singleton, if_pos (by omega)]
      exact ⟨rfl, rfl, rfl, rfl, rfl, rfl⟩
    obtain ⟨ends, same, saved⟩ :=
      ih first.1 (by rw [List.length_append, List.length_singleton]; omega)
    exact ⟨ends, first.2.trans same, saved⟩

variable (opens inits) in
theorem def_run {f : Definition} {o : Sys} (at_ : o.next = .openDef f)
    (opened : opens f.file = true) :
    (run (step opens inits) o (steps (size f.file + 1))).next = f.after ∧
      Same o (run (step opens inits) o (steps (size f.file + 1))) ∧
      ((run (step opens inits) o (steps (size f.file + 1))).stored f.file).isSome := by
  have first : (fs opens inits o).next = .writeDef f [] ∧ Same o (fs opens inits o) := by
    unfold fs
    rw [at_]
    dsimp only
    rw [if_pos opened]
    exact ⟨rfl, rfl, rfl, rfl, rfl, rfl⟩
  obtain ⟨n, full⟩ : ∃ n, size f.file = n + 1 := by cases f <;> exact ⟨_, rfl⟩
  have rest := write_run opens inits first.1 opened (n := n) (by rw [List.length_nil]; omega)
  rw [← full] at rest
  exact ⟨rest.1, first.2.trans rest.2.1, rest.2.2⟩

private theorem stored_step {f : File} {o : Sys} (saved : (o.stored f).isSome) (e : Event) :
    ((step opens inits o e).stored f).isSome := by
  have stores (o : Sys) (saved : (o.stored f).isSome) (g : File) (bs : Bytes) (next : Next) :
      ((store opens o g bs next).stored f).isSome := by
    unfold store
    split
    · by_cases same : f = g
      · rw [same]
        exact congrArg Option.isSome (Function.update_self g (some bs) o.stored)
      · exact (congrArg Option.isSome (Function.update_of_ne same (some bs) o.stored)).trans saved
    · exact saved
  cases e with
  | fs =>
    change ((fs opens inits o).stored f).isSome
    unfold fs
    cases o.next with
    | saveSettings => exact stores o saved _ _ _
    | writeDef g bs =>
      dsimp only
      split
      · exact saved
      · exact stores o saved _ _ _
    | init rest => cases rest <;> exact saved
    | _ =>
      dsimp only
      first
      | exact saved
      | split <;> exact saved
  | deliver x =>
    change ((deliver o x).stored f).isSome
    unfold deliver
    dsimp only
    split
    · split <;> exact saved
    · exact saved
  | _ => exact saved

theorem stored_run {f : File} {o : Sys} (saved : (o.stored f).isSome) (es : List Event) :
    ((run (step opens inits) o es).stored f).isSome :=
  always_run (I := fun o : Sys => (o.stored f).isSome) (fun _ e saved => stored_step saved e) saved es

/-- The steps of a save that has copied `k` bytes. -/
def saveSteps (k : Nat) : List Event :=
  steps (settingsSize - k) ++ steps 1 ++ steps (size .alarmDef + 1) ++ steps (size .pqeDef + 1)

variable (opens inits) in
theorem save_run {k : Nat} {o : Sys} (at_ : o.next = .copySettings k) (room : k < settingsSize)
    (opened : ∀ f, opens f = true) :
    (run (step opens inits) o (saveSteps k)).next = .clearSave ∧
      Same o (run (step opens inits) o (saveSteps k)) ∧
      ((run (step opens inits) o (saveSteps k)).stored .alarmDef).isSome := by
  obtain ⟨n, left⟩ : ∃ n, settingsSize - k = n + 1 := ⟨settingsSize - k - 1, by omega⟩
  rw [saveSteps, left, run_append, run_append, run_append]
  obtain ⟨copied, one⟩ := copy_run opens inits at_ (n := n) (by omega)
  generalize run (step opens inits) o (steps (n + 1)) = t at copied one ⊢
  have single : run (step opens inits) t (steps 1) = fs opens inits t := rfl
  have saved : (fs opens inits t).next = .openDef .alarmDef ∧ Same t (fs opens inits t) := by
    unfold fs
    rw [copied]
    exact ⟨(store_same ..).1, same_store ..⟩
  rw [single]
  obtain ⟨alarm, two, first⟩ := def_run opens inits (f := .alarmDef) saved.1 (opened _)
  obtain ⟨event, three, -⟩ := def_run opens inits (f := .pqeDef) alarm (opened _)
  refine ⟨event, one.trans (saved.2.trans (two.trans three)), ?_⟩
  dsimp only [Definition.file] at first
  exact stored_run first _

theorem reset_run {o : Sys} (at_ : o.next = .clearSave) (jobs : o.jobs = 0)
    (reset : o.control.factReset = 0x1234) :
    (run (step opens inits) o (steps 4)).next = .init inits := by
  have cleared : ¬ (0 : UInt16) = 0x1234 := by decide
  obtain ⟨live, db, disk, control, queued, next, since, late, torn, stored⟩ := o
  subst at_ jobs
  change control.factReset = 0x1234 at reset
  simp [steps, List.replicate, step, fs, cleared, reset]

theorem init_run {rest : List Init} {o : Sys} (at_ : o.next = .init rest) :
    (run (step opens inits) o (steps (rest.length + 1))).next = .commit 0 := by
  induction rest generalizing o with
  | nil =>
    change (fs opens inits o).next = _
    unfold fs
    rw [at_]
  | cons i rest ih =>
    refine ih (o := fs opens inits o) ?_
    unfold fs
    rw [at_]

theorem commit_run {n k : Nat} {o : Sys} (at_ : o.next = .commit k)
    (left : k + n + 1 = settingsSize) :
    (run (step opens inits) o (steps (n + 1))).next = .recopy 0 := by
  induction n generalizing k o with
  | zero =>
    change (fs opens inits o).next = _
    unfold fs
    rw [at_]
    exact congrArg Sys.next (if_neg (by omega))
  | succ n ih =>
    refine ih (k := k + 1) (o := fs opens inits o) ?_ (by omega)
    unfold fs
    rw [at_]
    exact congrArg Sys.next (if_pos (by omega))

theorem recopy_run {n k : Nat} {o : Sys} (at_ : o.next = .recopy k)
    (left : k + n + 1 = settingsSize) :
    (run (step opens inits) o (steps (n + 1))).next = .saveDefaults := by
  induction n generalizing k o with
  | zero =>
    change (fs opens inits o).next = _
    unfold fs
    rw [at_]
    exact congrArg Sys.next (if_neg (by omega))
  | succ n ih =>
    refine ih (k := k + 1) (o := fs opens inits o) ?_ (by omega)
    unfold fs
    rw [at_]
    exact congrArg Sys.next (if_pos (by omega))

theorem saveDefaults_run {o : Sys} (at_ : o.next = .saveDefaults) :
    (run (step opens inits) o (steps 2)).next = .resetting := by
  have saved : (fs opens inits o).next = .clearReset := by
    unfold fs
    rw [at_]
    dsimp only
    split <;> rfl
  change (fs opens inits (fs opens inits o)).next = _
  generalize fs opens inits o = t at saved
  unfold fs
  rw [saved]

def resetSteps (inits : List Init) : List Event :=
  steps (inits.length + 1) ++ steps settingsSize ++ steps settingsSize ++ steps 2

theorem resetting_run {o : Sys} (at_ : o.next = .init inits) :
    (run (step opens inits) o (resetSteps inits)).next = .resetting := by
  rw [resetSteps, run_append, run_append, run_append]
  exact saveDefaults_run (recopy_run (n := 1355) (commit_run (n := 1355) (init_run at_) rfl) rfl)

end Rounds

def blank : Sys where
  live := zeroMemory
  db := zeroMemory.setting
  disk := fun _ => none
  control := Modbus.Commands.started.control
  jobs := 0
  next := .queue
  since := []
  late := false
  torn := fun _ => false
  stored := fun _ => none

private theorem started_blank : Started blank := ⟨rfl, rfl, zeroMemory.setting_length, rfl⟩

def edit (m : Memory) : Memory := putByte m 4 7

/-- Save, then reboot, in two commands of one burst; a setting is edited while the settings are
copied. -/
def burst : List Event :=
  [.deliver (7799, 0x1234), .deliver (7798, 0x1234), .fs, .fs, .fs, .write edit] ++
    saveSteps 1 ++ steps 5

/-- An edit, a save, then a reset to factory settings of which one byte is not zero. -/
def resetBurst : List Event :=
  [.write edit, .deliver (7799, 0x1234), .deliver (7814, 0x1234), .fs, .fs] ++
    saveSteps 0 ++ steps 4 ++ resetSteps [.put 4 9]

private theorem resetBurst_down :
    (run (step (fun _ => true) [.put 4 9]) blank resetBurst).next = .resetting ∧
      ((run (step (fun _ => true) [.put 4 9]) blank resetBurst).stored .alarmDef).isSome := by
  rw [resetBurst, run_append, run_append, run_append]
  obtain ⟨ends, same, saved⟩ := save_run (fun _ => true) [.put 4 9] (k := 0)
    (o := run (step (fun _ => true) [.put 4 9]) blank
      [.write edit, .deliver (7799, 0x1234), .deliver (7814, 0x1234), .fs, .fs])
    rfl (by decide) fun _ => rfl
  generalize run (step (fun _ => true) [.put 4 9]) (run (step (fun _ => true) [.put 4 9]) blank
    [.write edit, .deliver (7799, 0x1234), .deliver (7814, 0x1234), .fs, .fs]) (saveSteps 0) = t
    at ends same saved ⊢
  have reset : t.control.factReset = 0x1234 := by
    rw [same.control]
    rfl
  exact ⟨resetting_run (reset_run ends same.jobs reset), stored_run (stored_run saved _) _⟩

private theorem resetBurst_quiet :
    Along (step (fun _ => true) [.put 4 9]) Undisturbed blank resetBurst := by
  have task (n : Nat) : ∀ e ∈ steps n, e = .fs := fun e inside => (List.mem_replicate.mp inside).2
  have rest : ∀ e ∈ [Event.fs, .fs] ++ saveSteps 0 ++ steps 4 ++ resetSteps [.put 4 9],
      e = .fs := by
    intro e inside
    simp only [saveSteps, resetSteps, List.mem_append] at inside
    rcases inside with ((two | (((a | b) | c) | d)) | four) | (((e | f) | g) | h)
    · simpa using two
    all_goals exact task _ _ ‹_›
  refine ⟨rfl, trivial, trivial, ?_⟩
  exact (along_of_forall rest _).mono fun s e is => by rw [is]; trivial

/-- The edit that was saved is lost from the settings; the definitions come back. -/
theorem factory_reset_survivors_burst :
    ∃ bs blocks, (run (step (fun _ => true) [.put 4 9]) blank resetBurst).stored .alarmDef = some bs ∧
      bs = defFile alarmDefMagic blocks ∧
      loadAlarmDef zeroBoot ((run (step (fun _ => true) [.put 4 9]) blank resetBurst).disk .alarmDef) =
        (true, blocks) ∧
      ∃ cs, (run (step (fun _ => true) [.put 4 9]) blank resetBurst).disk .settings = some cs ∧
        cs.length = settingsSize ∧ Default [.put 4 9] cs := by
  obtain ⟨down, saved⟩ := resetBurst_down
  obtain ⟨bs, last⟩ := Option.isSome_iff_exists.mp saved
  obtain ⟨settings, -, alarm, -⟩ :=
    factory_reset_survivors started_blank resetBurst_quiet zeroBoot down
  obtain ⟨blocks, whole, loads⟩ := alarm bs last
  exact ⟨bs, blocks, last, whole, loads, settings rfl⟩

end SV300.Settings.SaveOrders
