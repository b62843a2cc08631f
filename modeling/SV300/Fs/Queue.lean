/- SV300/Fs/Queue
   digest: The file message queue: putFsQ by any number of tasks, and the file writer of FS_task. -/

import SV300.Library.BoundedQueue
import SV300.Library.Runs

set_option autoImplicit false
set_option relaxedAutoImplicit false

namespace SV300.Fs.Queue

open SV300.Library.BoundedQueue

abbrev fsMsgCnt : Nat := 32
abbrev fsMsgDataSz : Nat := 32

/-- The buffers that messages point at, one of each for a meter channel. -/
inductive Buffer
  | wbCapLF (id : Fin 3)
  | wbCap (id : Fin 3)
  | rmsCap (id : Fin 3)
  | alog (id : Fin 3)
  | iticlog (id : Fin 3)
  deriving DecidableEq

abbrev Mem := Buffer → Nat → UInt8

inductive Mode
  | w | wb | ab | ff | af | al | rm
  deriving DecidableEq

/-- The modes of the writer's last branch, which writes the payload to the file it opens. -/
def Mode.writes : Mode → Bool
  | .w | .wb | .ab => true
  | .ff | .af | .al | .rm => false

/-- `FS_MSG`. -/
structure FsMsg where
  fname : String
  mode : Mode
  argv : Int
  pbuf : Option Buffer
  size : Nat
  data : Nat → UInt8
  useData : Bool

/-- The message as `putFsQ` copies it: small payloads move into the message. -/
def copyOf (mem : Mem) (p : FsMsg) : FsMsg :=
  match p.pbuf with
  | none => p
  | some b =>
    if p.size > 0 ∧ p.size ≤ fsMsgDataSz then
      { p with
        data := fun i => if i < p.size then mem b i else p.data i
        useData := true
        pbuf := none }
    else { p with useData := false }

/-- `fsMsgPayload`, as it reads at the moment. -/
def fsMsgPayload (mem : Mem) (m : FsMsg) : Option (Nat → UInt8) :=
  if m.useData then some m.data else m.pbuf.map mem

/-- `fsQ`. -/
structure FsQ where
  fr : Nat
  re : Nat
  mQ : Nat → FsMsg
  fr_lt : fr < fsMsgCnt
  re_lt : re < fsMsgCnt

def bump (i : Nat) : Nat := if i + 1 ≥ fsMsgCnt then 0 else i + 1

theorem bump_lt (i : Nat) : bump i < fsMsgCnt := by
  unfold bump
  split
  · decide
  · omega

theorem bump_ne {i : Nat} (lt : i < fsMsgCnt) : bump i ≠ i := by
  unfold bump
  split
  · rename_i past
    unfold fsMsgCnt at *
    omega
  · omega

theorem bump_eq_wrap {i : Nat} (lt : i < fsMsgCnt) : bump i = wrap fsMsgCnt (i + 1) := by
  unfold bump wrap
  split_ifs <;> omega

/-- A file that has been written. -/
structure File where
  fname : String
  mode : Mode
  bytes : List UInt8
  deriving DecidableEq

/-- The buffers and the queue, the calls of `putFsQ` that have not returned, each with its copy and
its tries, the bytes of the file being written, and the files written. -/
structure Sys (ι : Type) where
  mem : Mem
  fsQ : FsQ
  calls : ι → Option (FsMsg × Nat)
  writing : Option (List UInt8)
  files : List File

theorem Sys.bump_lt {ι : Type} (s : Sys ι) : bump s.fsQ.fr < fsMsgCnt := Queue.bump_lt s.fsQ.fr

/-- A task changes a buffer, calls `putFsQ` or goes once around its loop; `FS_task` takes a step,
with the outcome of `fopen` if it is one. -/
inductive Event (ι : Type)
  | fill (t : ι) (b : Buffer) (f : (Nat → UInt8) → Nat → UInt8)
  | putFsQ (t : ι) (p : FsMsg)
  | attempt (t : ι)
  | fsTask (opened : Bool)

variable {ι : Type} [DecidableEq ι]

/-- The part of the loop with the interrupts off, and the check of the tries. -/
def attempt (t : ι) (s : Sys ι) : Sys ι :=
  match s.calls t with
  | none => s
  | some (copy, tries) =>
    let next := bump s.fsQ.fr
    if next ≠ s.fsQ.re then
      { s with
        fsQ := { s.fsQ with
          fr := next
          mQ := Function.update s.fsQ.mQ s.fsQ.fr copy
          fr_lt := s.bump_lt }
        calls := Function.update s.calls t none }
    else if tries + 1 > 200 then { s with calls := Function.update s.calls t none }
    else { s with calls := Function.update s.calls t (some (copy, tries + 1)) }

def takeMsg (s : Sys ι) : Sys ι :=
  { s with
    fsQ := { s.fsQ with re := bump s.fsQ.re, re_lt := bump_lt s.fsQ.re }
    writing := none }

/-- One step of the writer: a message taken up, one byte written, or a file closed.  What the other
modes do, and the removal of old files, is not part of it. -/
def fsTask (opened : Bool) (s : Sys ι) : Sys ι :=
  let m := s.fsQ.mQ s.fsQ.re
  match s.writing with
  | none =>
    if s.fsQ.fr = s.fsQ.re then s
    else if m.mode.writes then
      if opened = true ∧ (fsMsgPayload s.mem m).isSome then { s with writing := some [] }
      else takeMsg s
    else takeMsg s
  | some bytes =>
    if bytes.length < m.size then
      { s with writing := (fsMsgPayload s.mem m).map fun d => bytes ++ [d bytes.length] }
    else takeMsg { s with files := s.files ++ [⟨m.fname, m.mode, bytes⟩] }

/-- One step of a schedule; a task inside `putFsQ` does nothing else. -/
def step (s : Sys ι) : Event ι → Sys ι
  | .fill t b f =>
    if (s.calls t).isSome then s
    else { s with mem := Function.update s.mem b (f (s.mem b)) }
  | .putFsQ t p =>
    if (s.calls t).isSome then s
    else { s with calls := Function.update s.calls t (some (copyOf s.mem p, 0)) }
  | .attempt t => attempt t s
  | .fsTask opened => fsTask opened s

/-- No message is queued, no call is open, and no file is written yet. -/
def idle (mem : Mem) (mQ : Nat → FsMsg) : Sys ι :=
  ⟨mem, ⟨0, 0, mQ, by decide, by decide⟩, fun _ => none, none, []⟩

end SV300.Fs.Queue
