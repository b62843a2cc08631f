/- SV300/Fs/Deferred
   digest: Demand and energy files that the file task writes from snapshots, and what a boot reads. -/

import SV300.Library.ByteCodec
import SV300.Library.Literals
import SV300.Library.WriteBehind

set_option autoImplicit false
set_option relaxedAutoImplicit false

namespace SV300.Fs.Deferred

open SV300.Library.ByteCodec
open SV300.Library.Runs
open SV300.Library.WriteBehind

abbrev Bytes (n : Nat) := { bs : List UInt8 // bs.length = n }

/-- `DEMAND` up to its magic, the magic, the crc, and the `DEMAND_LOG` behind it. -/
structure Demand where
  fields : Bytes 596
  magic : UInt16
  crc : UInt16
  dlog : Bytes 400

def demandFields : Demand ≃ Bytes 596 × UInt16 × UInt16 × Bytes 400 where
  toFun d := (d.fields, d.magic, d.crc, d.dlog)
  invFun p := ⟨p.1, p.2.1, p.2.2.1, p.2.2.2⟩
  left_inv _ := rfl
  right_inv _ := rfl

def demand : Codec Demand := relabel (pair (raw 596) (pair u16 (pair u16 (raw 400)))) demandFields

def Demand.cleared : Demand := ⟨zeros 596, 0x1234, 0, zeros 400⟩

/-- The day of an energy log. -/
inductive Day
  | today
  | yesterday
  deriving DecidableEq

/-- The energy logs of a channel: the hourly ones and the 15-minute ones. -/
inductive Kind
  | elog (sel : Day)
  | e15 (sel : Day)
  deriving DecidableEq

/-- A file of a channel, and the snapshot it is written from. -/
inductive File
  | demand (id : Fin 3)
  | egy (id : Fin 3) (kind : Kind)
  deriving DecidableEq

/-- What the file task does with a snapshot: it writes the file, or appends yesterday's 15-minute
log to the archive of its month. -/
inductive Job
  | file (f : File)
  | archive (id : Fin 3)
  deriving DecidableEq

/-- `sizeof(DEMAND) + sizeof(DEMAND_LOG)`, `sizeof(ENERGY_LOG)` and `sizeof(ENERGY_LOG15)`. -/
def size : File → Nat
  | .demand _ => 1000
  | .egy _ (.elog _) => 400
  | .egy _ (.e15 _) => 1552

/-- `e15Snap[id][1]` serves both yesterday's file and the archive. -/
abbrev slot : Job → File
  | .file f => f
  | .archive id => .egy id (.e15 .yesterday)

def egyJobs (id : Fin 3) : List Job :=
  [.file (.egy id (.elog .today)), .file (.egy id (.elog .yesterday)),
    .file (.egy id (.e15 .today)), .file (.egy id (.e15 .yesterday)), .archive id]

def demandJobs : List Job := [.file (.demand 0), .file (.demand 1), .file (.demand 2)]

/-- What `demandIoTick` and `egyIoTick` take at a time: all channels, and one channel each. -/
abbrev plan : Plan Job File where
  slot := slot
  size := size
  groups := [demandJobs, egyJobs 0, egyJobs 1, egyJobs 2]

private theorem plan_cover (j : Job) : ∃ g ∈ plan.groups, j ∈ g := by
  have channel : ∀ id, egyJobs id ∈ plan.groups := by decide
  cases j with
  | archive id =>
    have last : ∀ id, Job.archive id ∈ egyJobs id := by decide
    exact ⟨egyJobs id, channel id, last id⟩
  | file f =>
    cases f with
    | demand id =>
      have all : ∀ id, Job.file (.demand id) ∈ demandJobs := by decide
      exact ⟨demandJobs, List.mem_cons_self, all id⟩
    | egy id kind =>
      refine ⟨egyJobs id, channel id, ?_⟩
      cases kind with
      | elog sel => cases sel <;> simp [egyJobs]
      | e15 sel => cases sel <;> simp [egyJobs]

def readDemand (file : Option (List UInt8)) : Option Demand :=
  match file with
  | none => none
  | some bs =>
    if 1000 ≤ bs.length then
      if (demand.decode (bs.take 1000)).magic = 0x1234 then some (demand.decode (bs.take 1000))
      else none
    else none

/-- `loadDemand` for one channel: what is in memory and on file after it. -/
def loadDemand (opens : Bool) (file : Option (List UInt8)) : Demand × Option (List UInt8) :=
  match readDemand file with
  | some d => (d, file)
  | none => (.cleared, if opens then some (demand.encode .cleared) else file)

/-- `loadOrCreateFsBlob`: a file that is too short reads as zeros and stays. -/
def loadOrCreateFsBlob (nbytes : Nat) (onCreate : List UInt8) (opens : Bool)
    (file : Option (List UInt8)) : List UInt8 × Option (List UInt8) :=
  match file with
  | some bs => (if nbytes ≤ bs.length then bs.take nbytes else List.replicate nbytes 0, file)
  | none => (onCreate, if opens then some onCreate else none)

/-- What a boot has in memory of a file, and what is on file after it. -/
def load (created : File → List UInt8) (opens : Bool) (f : File) (file : Option (List UInt8)) :
    List UInt8 × Option (List UInt8) :=
  match f with
  | .demand _ => ((demand.encode (loadDemand opens file).1), (loadDemand opens file).2)
  | .egy _ _ => loadOrCreateFsBlob (size f) (created f) opens file

/-- What a boot has of a file that it does not accept: a demand that is reset, an energy log of
zeros. -/
def lost : File → List UInt8
  | .demand _ => demand.encode .cleared
  | .egy id kind => List.replicate (size (.egy id kind)) 0

/-- The bytes of a file that a boot can accept: all there, and those of a demand with its magic. -/
def Sound (f : File) (bs : List UInt8) : Prop :=
  bs.length = size f ∧ ∀ id, f = .demand id → (demand.decode bs).magic = 0x1234

private theorem load_sound (created : File → List UInt8) (opens : Bool) {f : File} {bs : List UInt8}
    (sound : Sound f bs) : load created opens f (some bs) = (bs, some bs) := by
  obtain ⟨length, magic⟩ := sound
  cases f with
  | demand id =>
    have long : 1000 ≤ bs.length := Nat.le_of_eq length.symm
    have whole : bs.take 1000 = bs := List.take_of_length_le (Nat.le_of_eq length)
    have read : readDemand (some bs) = some (demand.decode bs) := by
      rw [readDemand, if_pos long, whole, if_pos (magic id rfl)]
    simp only [load, loadDemand, read]
    rw [demand.encode_decode bs length]
  | egy id kind =>
    simp only [load, loadOrCreateFsBlob]
    rw [if_pos (Nat.le_of_eq length.symm), List.take_of_length_le (Nat.le_of_eq length)]

private theorem load_short (created : File → List UInt8) (opens : Bool) {f : File} {bs : List UInt8}
    (short : bs.length < size f) : (load created opens f (some bs)).1 = lost f := by
  cases f with
  | demand id =>
    have read : readDemand (some bs) = none := if_neg (Nat.not_le_of_lt short)
    simp only [load, loadDemand, read, lost]
  | egy id kind =>
    simp only [load, loadOrCreateFsBlob, lost]
    rw [if_neg (Nat.not_le_of_lt short)]

private theorem magic_loadDemand (opens : Bool) (file : Option (List UInt8)) :
    (loadDemand opens file).1.magic = 0x1234 := by
  cases read : readDemand file with
  | none => simp only [loadDemand, read, Demand.cleared]
  | some d =>
    have magic : d.magic = 0x1234 := by
      unfold readDemand at read
      split at read
      · cases read
      · split at read
        · split at read
          · cases read
            assumption
          · cases read
        · cases read
    simp only [loadDemand, read, magic]

/-- `meter[id].dm` and `meter[id].dlog`, `egy15[id].log[1]` and `egy15[id].pendArch`, and the files
with their snapshots. -/
structure Sys where
  demand : Fin 3 → Demand
  yesterday : (id : Fin 3) → Image plan UInt8 (.egy id (.e15 .yesterday))
  pendArch : Fin 3 → Bool
  cache : Cache plan UInt8

/-- The snapshot of an energy log is of what memory holds of it; yesterday's 15-minute log is copied
there just before its snapshot. -/
inductive Act
  | scan (id : Fin 3) (fields : Bytes 596) (crc : UInt16) (dlog : Bytes 400)
  | storeDemandDefer (id : Fin 3)
  | egyIoDefer (id : Fin 3) (kind : Kind) (log : Image plan UInt8 (.egy id kind))
  | archiveDefer (id : Fin 3)
  | tick (opens : Bool)

/-- What an act does to the files and their snapshots. -/
def event (s : Sys) : Act → Option (Event plan UInt8)
  | .scan _ _ _ _ => none
  | .storeDemandDefer id =>
    some (.store (.file (.demand id)) ⟨demand.encode (s.demand id), demand.length_encode _⟩)
  | .egyIoDefer id kind log => some (.store (.file (.egy id kind)) log)
  | .archiveDefer id => if s.pendArch id then some (.store (.archive id) (s.yesterday id)) else none
  | .tick opens => some (.write opens)

/-- The scan and a reset of the demand write every field but the magic. -/
def step (s : Sys) (a : Act) : Sys where
  demand :=
    match a with
    | .scan id fields crc dlog =>
      Function.update s.demand id { s.demand id with fields := fields, crc := crc, dlog := dlog }
    | _ => s.demand
  yesterday :=
    match a with
    | .egyIoDefer id (.e15 .yesterday) log => Function.update s.yesterday id log
    | _ => s.yesterday
  pendArch :=
    match a with
    | .egyIoDefer id (.e15 .yesterday) _ => Function.update s.pendArch id true
    | .archiveDefer id => Function.update s.pendArch id false
    | _ => s.pendArch
  cache :=
    match event s a with
    | none => s.cache
    | some e => Library.WriteBehind.step s.cache e

/-- What a boot starts from: which files open again, the files, with those of the energy logs as
their own loading and its change of day left them, and `egy15[id].log[1]`. -/
structure Start where
  opens : Fin 3 → Bool
  files : File → Option (List UInt8)
  yesterday : (id : Fin 3) → Image plan UInt8 (.egy id (.e15 .yesterday))

/-- After `loadDemand`; nothing is appended to an archive yet. -/
def boot (b : Start) : Sys where
  demand id := (loadDemand (b.opens id) (b.files (.demand id))).1
  yesterday := b.yesterday
  pendArch _ := false
  cache :=
    { snap := fun f => zeros (size f)
      pending := fun _ => false
      files := fun j =>
        match j with
        | .file (.demand id) => (loadDemand (b.opens id) (b.files (.demand id))).2
        | .file f => b.files f
        | .archive _ => none
      writer := .look plan.groups
      stored := fun _ => []
      last := fun _ => none }

private theorem fresh_boot (b : Start) : Fresh (boot b).cache :=
  ⟨rfl, fun _ => rfl, fun _ => rfl, fun _ => rfl⟩

/-- The acts of a run as the files and their snapshots see them. -/
def events (s : Sys) : List Act → List (Event plan UInt8)
  | [] => []
  | a :: as => (event s a).toList ++ events (step s a) as

theorem cache_run (s : Sys) (as : List Act) :
    (run step s as).cache = run Library.WriteBehind.step s.cache (events s as) := by
  induction as generalizing s with
  | nil => rfl
  | cons a as ih =>
    rw [run_cons, ih, events, run_append]
    cases due : event s a with
    | none => simp only [step, due, Option.toList_none, run_nil]
    | some e => simp only [step, due, Option.toList_some, run_cons, run_nil]

/-- A guard on what an act does to the files and their snapshots. -/
def Guarded (P : Cache plan UInt8 → Event plan UInt8 → Prop) (s : Sys) (a : Act) : Prop :=
  ∀ e, event s a = some e → P s.cache e

private theorem along_events {P : Cache plan UInt8 → Event plan UInt8 → Prop} {s : Sys}
    {as : List Act} (guarded : Along step (Guarded P) s as) :
    Along Library.WriteBehind.step P s.cache (events s as) := by
  induction as generalizing s with
  | nil => trivial
  | cons a as ih =>
    obtain ⟨first, others⟩ := guarded
    have rest := ih others
    rw [events]
    cases due : event s a with
    | none =>
      have here : (step s a).cache = s.cache := by simp only [step, due]
      rw [here] at rest
      exact rest
    | some e =>
      have here : (step s a).cache = Library.WriteBehind.step s.cache e := by
        simp only [step, due]
      rw [here] at rest
      exact ⟨first e due, rest⟩

/-- Every demand in memory and every snapshot taken of one has the magic. -/
structure Signed (s : Sys) : Prop where
  memory : ∀ id, (s.demand id).magic = 0x1234
  stored : ∀ f, ∀ bs ∈ s.cache.stored f, Sound f bs

private theorem sound_egy {id : Fin 3} {kind : Kind} (log : Image plan UInt8 (.egy id kind)) :
    Sound (.egy id kind) log.val := by
  refine ⟨log.property, ?_⟩
  rintro i ⟨⟩

private theorem signed_step {s : Sys} (signed : Signed s) (a : Act) : Signed (step s a) := by
  cases a with
  | scan id fields crc dlog =>
    refine ⟨fun i => ?_, signed.stored⟩
    change (Function.update s.demand id _ i).magic = _
    by_cases same : i = id
    · subst same
      rw [Function.update_self]
      exact signed.memory i
    · rw [Function.update_of_ne same]
      exact signed.memory i
  | storeDemandDefer id =>
    refine ⟨signed.memory, fun f bs held => ?_⟩
    rcases mem_stored_store held with old | ⟨rfl, rfl⟩
    · exact signed.stored f bs old
    · refine ⟨demand.length_encode _, fun i _ => ?_⟩
      rw [demand.decode_encode]
      exact signed.memory id
  | egyIoDefer id kind log =>
    refine ⟨signed.memory, fun f bs held => ?_⟩
    rcases mem_stored_store held with old | ⟨rfl, rfl⟩
    · exact signed.stored f bs old
    · exact sound_egy log
  | archiveDefer id =>
    refine ⟨signed.memory, fun f bs held => ?_⟩
    cases pend : s.pendArch id with
    | false =>
      simp only [step, event, pend] at held
      exact signed.stored f bs held
    | true =>
      simp only [step, event, pend] at held
      rcases mem_stored_store held with old | ⟨rfl, rfl⟩
      · exact signed.stored f bs old
      · exact sound_egy (s.yesterday id)
  | tick opens =>
    refine ⟨signed.memory, fun f bs held => signed.stored f bs ?_⟩
    exact (congrFun (write_frame s.cache opens).1 f) ▸ held

theorem signed_run (b : Start) (as : List Act) : Signed (run step (boot b) as) := by
  refine always_run (I := Signed) (fun s a signed => signed_step signed a) ?_ as
  exact ⟨fun id => magic_loadDemand _ _, fun f bs member => absurd member List.not_mem_nil⟩

/-- As long as a day is to be archived, its snapshot is still the one that memory has of it. -/
def Shared (s : Sys) : Prop :=
  ∀ id, s.pendArch id = true →
    (s.cache.snap (.egy id (.e15 .yesterday))).val = (s.yesterday id).val

private theorem shared_step {s : Sys} (shared : Shared s) (a : Act) : Shared (step s a) := by
  intro i pend
  cases a with
  | scan id fields crc dlog => exact shared i pend
  | storeDemandDefer id => exact shared i pend
  | egyIoDefer id kind log =>
    by_cases here : File.egy i (.e15 .yesterday) = .egy id kind
    · cases here
      change ((store s.cache (.file (.egy i (.e15 .yesterday))) log).snap _).val =
        (Function.update s.yesterday i log i).val
      rw [Function.update_self]
      exact store_snap_of_slot (p := plan) (i := .file (.egy i (.e15 .yesterday))) rfl log
    · change ((store s.cache (.file (.egy id kind)) log).snap _).val = _
      rw [store_snap_of_ne (p := plan) here]
      cases kind with
      | elog sel => exact shared i pend
      | e15 sel =>
        cases sel with
        | today => exact shared i pend
        | yesterday =>
          have other : i ≠ id := by
            rintro rfl
            exact here rfl
          change Function.update s.pendArch id true i = true at pend
          change _ = (Function.update s.yesterday id log i).val
          rw [Function.update_of_ne other] at pend ⊢
          exact shared i pend
  | archiveDefer id =>
    have other : i ≠ id := by
      rintro rfl
      change Function.update s.pendArch i false i = true at pend
      rw [Function.update_self] at pend
      cases pend
    change Function.update s.pendArch id false i = true at pend
    rw [Function.update_of_ne other] at pend
    have apart : File.egy i (.e15 .yesterday) ≠ .egy id (.e15 .yesterday) := by
      rintro ⟨⟩
      exact other rfl
    cases due : s.pendArch id with
    | false =>
      simp only [step, event, due]
      exact shared i pend
    | true =>
      simp only [step, event, due]
      change ((store s.cache (.archive id) (s.yesterday id)).snap _).val = _
      rw [store_snap_of_ne apart]
      exact shared i pend
  | tick opens =>
    change ((write s.cache opens).snap _).val = _
    rw [(write_frame s.cache opens).2.1]
    exact shared i pend

private theorem steady_file (b : Start) (as : List Act) (f : File) :
    Along step (Guarded (Steady (.file f))) (boot b) as := by
  refine along_always (I := Shared) (fun s a shared => shared_step shared a) ?_ ?_ as
  · rintro s a shared e due
    cases a with
    | scan id fields crc dlog => cases due
    | storeDemandDefer id =>
      cases due
      intro other same _
      exact absurd (congrArg Job.file same) other
    | egyIoDefer id kind log =>
      cases due
      intro other same _
      exact absurd (congrArg Job.file same) other
    | archiveDefer id =>
      cases pend : s.pendArch id with
      | false =>
        simp only [event, pend] at due
        cases due
      | true =>
        simp only [event, pend] at due
        cases due
        rintro - rfl -
        exact (shared id pend).symm
    | tick opens =>
      cases due
      trivial
  · intro id pend
    cases pend

def ticks (n : Nat) : List Act := List.replicate n (.tick true)

private theorem events_append (s : Sys) (as bs : List Act) :
    events s (as ++ bs) = events s as ++ events (run step s as) bs := by
  induction as generalizing s with
  | nil => rfl
  | cons a as ih => rw [List.cons_append, events, events, ih, run_cons, List.append_assoc]

private theorem events_ticks (s : Sys) (n : Nat) :
    events s (ticks n) = Library.WriteBehind.ticks n := by
  induction n generalizing s with
  | zero => rfl
  | succ n ih =>
    rw [ticks, List.replicate_succ, events]
    exact congrArg (Event.write true :: ·) (ih _)

private theorem roundCost_plan : plan.roundCost plan.groups = 19412 := by decide

/-- What a job was last given is on file two rounds later, where every file opens and no other job
changes its snapshot before. -/
private theorem job_on_file {b : Start} {as : List Act} {j : Job}
    (opens : Along step (Guarded Opens) (boot b) as)
    (steady : Along step (Guarded (Steady j)) (boot b) as) {n : Nat} (enough : 38825 ≤ n)
    {v : Image plan UInt8 (slot j)}
    (given : (run step (boot b) (as ++ ticks n)).cache.last j = some v) :
    (run step (boot b) (as ++ ticks n)).cache.files j = some v.val := by
  rw [cache_run, events_append, events_ticks] at given ⊢
  exact drained (fresh_boot b) plan_cover (along_events opens)
    (by rw [roundCost_plan]; exact enough) (along_events steady) given

private theorem kept_boot (b : Start) (as : List Act) :
    Kept (boot b).cache.files (run step (boot b) as).cache := by
  rw [cache_run]
  exact kept_run (fresh_boot b) (events (boot b) as)

/-- Where every file opens, each file is the last snapshot of it, or as the boot left it where there
is none, at the latest 38,825 steps of the file task after the last snapshot; the next boot has in
memory what the file was taken from. -/
theorem deferred_on_file (b : Start) (as : List Act)
    (opens : Along step (Guarded Opens) (boot b) as) (n : Nat) (enough : 38825 ≤ n) (f : File) :
    let s := run step (boot b) (as ++ ticks n)
    (s.cache.last (.file f) = none ∧
        s.cache.files (.file f) = (boot b).cache.files (.file f)) ∨
      ∃ v : Image plan UInt8 f, s.cache.last (.file f) = some v ∧
        s.cache.files (.file f) = some v.val ∧
        ∀ created again, load created again f (s.cache.files (.file f)) = (v.val, some v.val) := by
  intro s
  have kept := kept_boot b (as ++ ticks n)
  cases given : s.cache.last (.file f) with
  | none => exact .inl ⟨rfl, (kept.untouched (.file f) given).2⟩
  | some v =>
    have held : s.cache.files (.file f) = some v.val :=
      job_on_file opens (steady_file b as f) enough given
    refine .inr ⟨v, rfl, held, fun created again => ?_⟩
    rw [held]
    have stored := kept.given (.file f) v given
    exact load_sound created again ((signed_run b (as ++ ticks n)).stored f v.val stored)

section Witnesses

def blank : Start := ⟨fun _ => true, fun _ => none, fun _ => zeros 1552⟩

def aDay : Image plan UInt8 (.egy 0 (.e15 .yesterday)) :=
  ⟨List.replicate 1552 7, List.length_replicate⟩

private theorem last_ticks (s : Sys) (n : Nat) :
    (run step s (ticks n)).cache.last = s.cache.last := by
  induction n generalizing s with
  | zero => rfl
  | succ n ih =>
    rw [ticks, List.replicate_succ, run_cons]
    exact (ih _).trans (write_frame s.cache true).2.2

private theorem guarded_opens {s : Sys} {a : Act} (opens : a ≠ .tick false) :
    Guarded Opens s a := by
  intro e due
  cases a with
  | scan id fields crc dlog => cases due
  | storeDemandDefer id => cases due; trivial
  | egyIoDefer id kind log => cases due; trivial
  | archiveDefer id =>
    dsimp only [event] at due
    split at due
    · cases due; trivial
    · cases due
  | tick o =>
    cases due
    cases o with
    | false => exact absurd rfl opens
    | true => rfl

/-- A day ends, and is archived before the file task has come to its file. -/
theorem deferred_on_file_day :
    let as : List Act :=
      [.egyIoDefer 0 (.e15 .yesterday) aDay, .tick true, .tick true, .archiveDefer 0]
    let held := (run step (boot blank) (as ++ ticks 38825)).cache.files
      (.file (.egy 0 (.e15 .yesterday)))
    held = some aDay.val ∧
      ∀ created again, load created again (.egy 0 (.e15 .yesterday)) held =
        (aDay.val, some aDay.val) := by
  intro as held
  have given : (run step (boot blank) (as ++ ticks 38825)).cache.last
      (.file (.egy 0 (.e15 .yesterday))) = some aDay := by
    rw [run_append, last_ticks]
    rfl
  have opens : Along step (Guarded Opens) (boot blank) as :=
    ⟨guarded_opens (by simp), guarded_opens (by simp), guarded_opens (by simp),
      guarded_opens (by simp), trivial⟩
  rcases deferred_on_file blank as opens 38825 (Nat.le_refl 38825) (.egy 0 (.e15 .yesterday)) with
    ⟨none_, -⟩ | ⟨v, last, there, back⟩
  · rw [given] at none_
    cases none_
  · rw [given] at last
    cases last
    exact ⟨there, back⟩

end Witnesses

/-- A file that the power would leave half written. -/
def Torn (s : Sys) (f : File) : Prop :=
  ∃ k is gs, s.cache.writer = .writing (.file f) k is gs ∧ k < size f

private theorem magic_decode {bs : List UInt8} {low high : UInt8} (first : bs[596]? = some low)
    (second : bs[597]? = some high) :
    (demand.decode bs).magic = UInt16.ofNat (low.toNat + 256 * high.toNat) := by
  have magic : (demand.decode bs).magic = UInt16.ofNat (leNat ((bs.drop 596).take 2)) := rfl
  have low_ : (bs.drop 596)[0]? = some low := by rw [List.getElem?_drop]; exact first
  have high_ : (bs.drop 596)[1]? = some high := by rw [List.getElem?_drop]; exact second
  rw [magic]
  cases rest : bs.drop 596 with
  | nil => rw [rest] at low_; cases low_
  | cons b cs =>
    cases cs with
    | nil => rw [rest] at high_; cases high_
    | cons c cs =>
      rw [rest] at low_ high_
      cases low_
      cases high_
      rfl

private theorem bytes_of_magic {bs : List UInt8} (length : bs.length = 1000)
    (magic : (demand.decode bs).magic = 0x1234) :
    bs[596]? = some 0x34 ∧ bs[597]? = some 0x12 := by
  have back := demand.encode_decode bs length
  have shape : demand.encode (demand.decode bs) = (demand.decode bs).fields.val ++
      (leBytes 2 (0x1234 : UInt16).toNat ++ (u16.encode (demand.decode bs).crc ++
        (demand.decode bs).dlog.val)) := by
    rw [← magic]
    rfl
  have front := (demand.decode bs).fields.property
  rw [← back, shape]
  refine ⟨?_, ?_⟩
  · rw [List.getElem?_append_right (Nat.le_of_eq front), front]
    rfl
  · rw [List.getElem?_append_right (by omega), front]
    rfl

private theorem sound_mixed {f : File} {bs : List UInt8} {stored : List (List UInt8)}
    (length : bs.length = size f) (sound : ∀ v ∈ stored, Sound f v)
    (bytes : ∀ (k : Nat) (b : UInt8), bs[k]? = some b →
      ∃ v : List UInt8, v ∈ stored ∧ v[k]? = some b) : Sound f bs := by
  refine ⟨length, ?_⟩
  rintro id rfl
  have long : bs.length = 1000 := length
  have at_ : ∀ {k : Nat} {c : UInt8}, k < 1000 →
      (∀ v ∈ stored, v[k]? = some c) → bs[k]? = some c := by
    intro k c inside same
    have some_ := List.getElem?_eq_getElem (l := bs) (i := k) (by omega)
    obtain ⟨v, member, there⟩ := bytes k _ some_
    rw [some_, ← there]
    exact same v member
  have low : bs[596]? = some 0x34 := at_ (by omega) fun v member =>
    (bytes_of_magic (sound v member).1 ((sound v member).2 id rfl)).1
  have high : bs[597]? = some 0x12 := at_ (by omega) fun v member =>
    (bytes_of_magic (sound v member).1 ((sound v member).2 id rfl)).2
  rw [magic_decode low high]
  rfl

private theorem closed_or_full {s : Sys} {f : File} (whole : ¬ Torn s f) :
    s.cache.writer.file ≠ some (.file f) ∨
      ∃ k is gs, s.cache.writer = .writing (.file f) k is gs ∧ size f ≤ k := by
  cases at_ : s.cache.writer with
  | look gs => exact .inl (Option.some_ne_none _).symm
  | taken is gs => exact .inl (Option.some_ne_none _).symm
  | writing i k is gs =>
    by_cases same : i = .file f
    · subst same
      exact .inr ⟨k, is, gs, rfl, Nat.le_of_not_lt fun short => whole ⟨k, is, gs, at_, short⟩⟩
    · exact .inl fun open_ => same (Option.some.inj open_)

/-- Power lost at any moment of any run: the one file that is being written is lost to the next
boot, and any other is as the boot before left it or is accepted, even where its bytes are those of
several snapshots. -/
theorem cut_mixed (b : Start) (as : List Act) (f : File) :
    let s := run step (boot b) as
    (Torn s f → ∀ created again, (load created again f (s.cache.files (.file f))).1 = lost f) ∧
      (¬ Torn s f → s.cache.files (.file f) = (boot b).cache.files (.file f) ∨
        ∃ bs, s.cache.files (.file f) = some bs ∧
          (∀ created again, load created again f (s.cache.files (.file f)) = (bs, some bs)) ∧
          ∀ (k : Nat) (c : UInt8), bs[k]? = some c →
            ∃ v : List UInt8, v ∈ s.cache.stored f ∧ v[k]? = some c) := by
  intro s
  have kept : Kept (boot b).cache.files s.cache := kept_boot b as
  refine ⟨?_, fun whole => ?_⟩
  · rintro ⟨k, is, gs, now, short⟩ created again
    obtain ⟨-, bs, held, length⟩ := kept.progress (.file f) k is gs now
    rw [held]
    exact load_short created again (length ▸ short)
  · rcases kept.mixed (.file f) with ⟨-, untouched⟩ | ⟨bs, held, closed, bytes⟩
    · exact .inl untouched
    · have length : bs.length = size f := by
        rcases closed_or_full whole with shut | ⟨k, is, gs, now, full⟩
        · exact closed shut
        · obtain ⟨within, cs, written, length⟩ := kept.progress (.file f) k is gs now
          obtain rfl : bs = cs := Option.some.inj (held.symm.trans written)
          exact length.trans (Nat.le_antisymm within full)
      have sound := sound_mixed length ((signed_run b as).stored f) bytes
      refine .inr ⟨bs, held, fun created again => ?_, bytes⟩
      rw [held]
      exact load_sound created again sound

/-- Where no snapshot changes one that is being written, what a boot accepts is one snapshot. -/
theorem cut_whole (b : Start) (as : List Act) (calm : Along step (Guarded Calm) (boot b) as)
    (f : File) (whole : ¬ Torn (run step (boot b) as) f) :
    let s := run step (boot b) as
    s.cache.files (.file f) = (boot b).cache.files (.file f) ∨
      ∃ bs ∈ s.cache.stored f, s.cache.files (.file f) = some bs ∧
        ∀ created again, load created again f (s.cache.files (.file f)) = (bs, some bs) := by
  intro s
  have kept : Kept (boot b).cache.files s.cache := kept_boot b as
  have snapshots : Whole (boot b).cache.files s.cache := by
    have all := whole_run (fresh_boot b) (along_events calm)
    rw [← cache_run] at all
    exact all
  have closed : s.cache.files (.file f) = (boot b).cache.files (.file f) ∨
      ∃ bs ∈ s.cache.stored f, s.cache.files (.file f) = some bs := by
    rcases closed_or_full whole with shut | ⟨k, is, gs, now, full⟩
    · exact (snapshots (.file f)).1 shut
    · have part := (snapshots (.file f)).2 k is gs now
      rw [List.take_of_length_le ((s.cache.snap f).property.trans_le full)] at part
      exact .inr ⟨_, kept.named (.file f) (.inr (.inr (by rw [now]; rfl))), part⟩
  refine closed.imp_right ?_
  rintro ⟨bs, stored, held⟩
  refine ⟨bs, stored, held, fun created again => ?_⟩
  rw [held]
  exact load_sound created again ((signed_run b as).stored f bs stored)

section Witnesses

def scanned : Demand := ⟨zeros 596, 0x1234, 7, zeros 400⟩

def aDemand : Image plan UInt8 (.demand 0) := ⟨demand.encode scanned, demand.length_encode scanned⟩

/-- The second demand is stored while the first is being written. -/
def twoDemands : List Act :=
  [.scan 0 (zeros 596) 7 (zeros 400), .storeDemandDefer 0, .tick true, .tick true, .tick true,
    .storeDemandDefer 1]

private theorem twoDemands_opens : Along step (Guarded Opens) (boot blank) twoDemands :=
  ⟨guarded_opens (by simp), guarded_opens (by simp), guarded_opens (by simp),
    guarded_opens (by simp), guarded_opens (by simp), guarded_opens (by simp), trivial⟩

private theorem twoDemands_last :
    (run step (boot blank) twoDemands).cache.last (.file (.demand 0)) = some aDemand := by
  have memory : (step (boot blank) (.scan 0 (zeros 596) 7 (zeros 400))).demand 0 = scanned := rfl
  have second : ∀ s, (step s (.storeDemandDefer 1)).cache.last (.file (.demand 0)) =
      s.cache.last (.file (.demand 0)) := fun s => store_last_of_ne (by decide) _
  have first : ∀ s, s.demand 0 = scanned →
      (step s (.storeDemandDefer 0)).cache.last (.file (.demand 0)) = some aDemand := by
    intro s same
    refine (store_last_self _).trans (congrArg some (Subtype.ext ?_))
    exact congrArg demand.encode same
  have between := last_ticks (step (step (boot blank) (.scan 0 (zeros 596) 7 (zeros 400)))
    (.storeDemandDefer 0)) 3
  rw [twoDemands, run_cons, run_cons, ← first _ memory, ← between]
  exact second _

private theorem calm_tick (s : Sys) (opens : Bool) : Guarded Calm s (.tick opens) := by
  rintro e ⟨⟩
  trivial

private theorem twoDemands_calm : Along step (Guarded Calm) (boot blank) twoDemands := by
  refine ⟨?_, ?_, calm_tick _ true, calm_tick _ true, calm_tick _ true, ?_, trivial⟩
  · rintro e ⟨⟩
  · rintro e ⟨⟩ j open_
    cases open_
  · rintro e ⟨⟩ j open_ shared
    obtain rfl : Job.file (.demand 0) = j := Option.some.inj open_
    exact absurd shared (by decide)

private theorem calm_ticks {b : Start} {as : List Act}
    (calm : Along step (Guarded Calm) (boot b) as)
    (n : Nat) : Along step (Guarded Calm) (boot b) (as ++ ticks n) := by
  refine (along_append ..).mpr ⟨calm, ?_⟩
  refine (along_of_forall (P := fun a => a = .tick true) (fun a member => ?_) _).mono ?_
  · exact (List.mem_replicate.mp member).2
  · rintro t a rfl
    exact calm_tick t true

private theorem not_torn_ticks {b : Start} {as : List Act}
    (opens : Along step (Guarded Opens) (boot b) as)
    {n : Nat} (enough : 38825 ≤ n) (f : File) : ¬ Torn (run step (boot b) (as ++ ticks n)) f := by
  rintro ⟨k, is, gs, now, -⟩
  refine idle_after (fresh_boot b) plan_cover (along_events opens) (n := n)
    (by rw [roundCost_plan]; exact enough) (.file f) ?_
  rw [← events_ticks (run step (boot b) as), ← events_append, ← cache_run]
  exact .inr (.inr (by rw [now]; rfl))

def bothOnFile : Sys := run step (boot blank) (twoDemands ++ ticks 38825)

/-- The power is lost then. -/
theorem cut_whole_second :
    bothOnFile.cache.files (.file (.demand 0)) = some aDemand.val ∧
      ∀ created again, load created again (.demand 0) (bothOnFile.cache.files (.file (.demand 0))) =
        (aDemand.val, some aDemand.val) := by
  have cut := cut_whole blank (twoDemands ++ ticks 38825) (calm_ticks twoDemands_calm 38825)
    (.demand 0) (not_torn_ticks twoDemands_opens (Nat.le_refl 38825) (.demand 0))
  have given : (run step (boot blank) (twoDemands ++ ticks 38825)).cache.last
      (.file (.demand 0)) = some aDemand := by
    rw [run_append, last_ticks, twoDemands_last]
  have held := job_on_file twoDemands_opens (steady_file blank twoDemands (.demand 0))
    (Nat.le_refl 38825) given
  have end_ : run step (boot blank) (twoDemands ++ ticks 38825) = bothOnFile := rfl
  rw [end_] at cut held
  generalize bothOnFile = s at cut held ⊢
  rcases cut with found | ⟨bs, -, there, back⟩
  · have same : aDemand.val = demand.encode .cleared := Option.some.inj (held.symm.trans found)
    have crc := congrArg (fun bs => (demand.decode bs).crc) same
    simp only [aDemand, demand.decode_encode] at crc
    cases crc
  · obtain rfl : bs = aDemand.val := Option.some.inj (there.symm.trans held)
    exact ⟨held, back⟩

end Witnesses

end SV300.Fs.Deferred
