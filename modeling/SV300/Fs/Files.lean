/- SV300/Fs/Files
   digest: The files that the queue is to become, and what each step does to them. -/

import Mathlib.Algebra.GroupWithZero.Nat
import SV300.Fs.Queue

set_option autoImplicit false
set_option relaxedAutoImplicit false

namespace SV300.Fs.Files

open SV300.Fs.Queue
open SV300.Library.BoundedQueue
open SV300.Library.Runs

def isFile (m : FsMsg) : Bool := m.mode.writes && (m.useData || m.pbuf.isSome)

/-- The file that a message becomes if all bytes after the first ones are written now. -/
def fileNow (mem : Mem) (m : FsMsg) (bytes : List UInt8) : File where
  fname := m.fname
  mode := m.mode
  bytes := bytes ++ (List.range (m.size - bytes.length)).map fun i =>
    ((fsMsgPayload mem m).getD fun _ => 0) (bytes.length + i)

/-- The file that a caller of `putFsQ` hands over. -/
def handed (mem : Mem) (p : FsMsg) : File where
  fname := p.fname
  mode := p.mode
  bytes := (List.range p.size).map <|
    match p.pbuf with
    | some b => mem b
    | none => p.data

/-- The files that queued messages become if they are written now. -/
def filesNow (mem : Mem) (ms : List FsMsg) : List File :=
  (ms.filter isFile).map fun m => fileNow mem m []

variable {ι : Type}

def head (s : Sys ι) : FsMsg := s.fsQ.mQ s.fsQ.re

def queued (s : Sys ι) : List FsMsg := pending fsMsgCnt s.fsQ.mQ s.fsQ.fr s.fsQ.re

/-- The messages behind the one that the writer is at. -/
def behind (s : Sys ι) : List FsMsg := pending fsMsgCnt s.fsQ.mQ s.fsQ.fr (bump s.fsQ.re)

/-- The files that the queue becomes if it is written now. -/
def pendingFiles (s : Sys ι) : List File :=
  match s.writing with
  | none => filesNow s.mem (queued s)
  | some bytes => fileNow s.mem (head s) bytes :: filesNow s.mem (behind s)

/-- A message still reads a byte of a buffer, from a position on. -/
def Reads (m : FsMsg) (start : Nat) (b : Buffer) (i : Nat) : Prop :=
  m.mode.writes = true ∧ m.useData = false ∧ m.pbuf = some b ∧ start ≤ i ∧ i < m.size

/-- The file being written or a queued message still reads a byte of a buffer. -/
def Unwritten (s : Sys ι) (b : Buffer) (i : Nat) : Prop :=
  match s.writing with
  | none => ∃ m ∈ queued s, Reads m 0 b i
  | some bytes => Reads (head s) bytes.length b i ∨ ∃ m ∈ behind s, Reads m 0 b i

/-- An open call, the file being written or a queued message still reads a byte of a buffer. -/
def Needed (s : Sys ι) (b : Buffer) (i : Nat) : Prop :=
  (∃ t m n, s.calls t = some (m, n) ∧ Reads m 0 b i) ∨ Unwritten s b i

theorem Reads.isFile {m : FsMsg} {start : Nat} {b : Buffer} {i : Nat} (reads : Reads m start b i) :
    isFile m = true := by
  obtain ⟨writes, _, pointed, _⟩ := reads
  rw [Files.isFile, writes, pointed, Option.isSome_some, Bool.or_true, Bool.and_self]

/-- A file to be changes with a buffer exactly in the bytes that its message still reads. -/
theorem fileNow_update_iff {m : FsMsg} (file : isFile m = true) (mem : Mem) (b : Buffer)
    (g : Nat → UInt8) (bytes : List UInt8) :
    fileNow (Function.update mem b g) m bytes = fileNow mem m bytes ↔
      ∀ i, Reads m bytes.length b i → g i = mem b i := by
  have writes : m.mode.writes = true := (Bool.and_eq_true_iff.mp file).1
  have same : fileNow (Function.update mem b g) m bytes = fileNow mem m bytes ↔
      ∀ j, j < m.size - bytes.length →
        ((fsMsgPayload (Function.update mem b g) m).getD fun _ => 0) (bytes.length + j) =
          ((fsMsgPayload mem m).getD fun _ => 0) (bytes.length + j) := by
    unfold fileNow
    rw [File.mk.injEq]
    simp only [true_and, List.append_cancel_left_eq, List.map_inj_left, List.mem_range]
  rw [same]
  by_cases inline : m.useData = true
  · refine iff_of_true (fun j _ => ?_) fun i reads => ?_
    · rw [fsMsgPayload, fsMsgPayload, if_pos inline, if_pos inline]
    · rw [reads.2.1] at inline
      cases inline
  · have outside : m.useData = false := Bool.eq_false_iff.mpr inline
    cases pointed : m.pbuf with
    | none =>
      refine iff_of_true (fun j _ => ?_) fun i reads => ?_
      · rw [fsMsgPayload, fsMsgPayload, pointed, Option.map_none, Option.map_none]
      · rw [reads.2.2.1] at pointed
        cases pointed
    | some c =>
      by_cases here : c = b
      · have payload : ∀ mem' : Mem, fsMsgPayload mem' m = some (mem' b) := by
          intro mem'
          rw [fsMsgPayload, if_neg inline, pointed, here]
          rfl
        simp only [payload, Option.getD_some, Function.update_self]
        constructor
        · rintro all i ⟨_, _, _, past, below⟩
          have entry := all (i - bytes.length) (by omega)
          rwa [Nat.add_sub_cancel' past] at entry
        · intro all j below
          exact all _ ⟨writes, outside, by rw [pointed, here], by omega, by omega⟩
      · refine iff_of_true (fun j _ => ?_) fun i reads => ?_
        · rw [fsMsgPayload, fsMsgPayload, pointed, Option.map_some, Option.map_some,
            Function.update_of_ne here]
        · have other := reads.2.2.1
          rw [pointed] at other
          exact absurd (Option.some.inj other) here

private theorem filesNow_update_iff (ms : List FsMsg) (mem : Mem) (b : Buffer) (g : Nat → UInt8) :
    filesNow (Function.update mem b g) ms = filesNow mem ms ↔
      ∀ i, (∃ m ∈ ms, Reads m 0 b i) → g i = mem b i := by
  unfold filesNow
  rw [List.map_inj_left]
  constructor
  · rintro same i ⟨m, member, reads⟩
    have kept := same m (List.mem_filter.mpr ⟨member, reads.isFile⟩)
    exact (fileNow_update_iff reads.isFile mem b g []).mp kept i reads
  · intro quiet m member
    obtain ⟨member, file⟩ := List.mem_filter.mp member
    exact (fileNow_update_iff file mem b g []).mpr fun i reads => quiet i ⟨m, member, reads⟩

/-- The files to be change with a buffer exactly in the bytes that the queue still reads. -/
theorem pendingFiles_update_iff {s : Sys ι}
    (file : ∀ bytes, s.writing = some bytes → isFile (head s) = true) (b : Buffer)
    (g : Nat → UInt8) :
    pendingFiles { s with mem := Function.update s.mem b g } = pendingFiles s ↔
      ∀ i, Unwritten s b i → g i = s.mem b i := by
  unfold pendingFiles Unwritten
  dsimp only
  cases writing : s.writing with
  | none => exact filesNow_update_iff (queued s) s.mem b g
  | some bytes =>
    have first := fileNow_update_iff (file bytes writing) s.mem b g bytes
    have rest := filesNow_update_iff (behind s) s.mem b g
    dsimp only
    rw [List.cons.injEq]
    constructor
    · rintro ⟨same, others⟩ i (reads | reads)
      · exact first.mp same i reads
      · exact rest.mp others i reads
    · intro quiet
      exact ⟨first.mpr fun i reads => quiet i (.inl reads),
        rest.mpr fun i reads => quiet i (.inr reads)⟩

theorem fileNow_copyOf {mem : Mem} {p : FsMsg} (file : isFile (copyOf mem p) = true) :
    fileNow mem (copyOf mem p) [] = handed mem p := by
  unfold copyOf at *
  cases pointed : p.pbuf with
  | none =>
    rw [pointed] at file
    have inline : p.useData = true := by
      have payload := (Bool.and_eq_true_iff.mp file).2
      rwa [pointed, Option.isSome_none, Bool.or_false] at payload
    simp [fileNow, handed, fsMsgPayload, inline, pointed]
  | some b =>
    dsimp only
    by_cases small : p.size > 0 ∧ p.size ≤ fsMsgDataSz
    · rw [if_pos small]
      simp only [fileNow, handed, fsMsgPayload, pointed, File.mk.injEq, true_and, if_true,
        List.nil_append, List.length_nil, Nat.sub_zero, Option.getD_some, Nat.zero_add]
      apply List.map_congr_left
      intro i inside
      rw [if_pos (List.mem_range.mp inside)]
    · rw [if_neg small]
      simp [fileNow, handed, fsMsgPayload, pointed]

private theorem isFile_iff (mem : Mem) {m : FsMsg} :
    isFile m = true ↔ m.mode.writes = true ∧ (fsMsgPayload mem m).isSome = true := by
  unfold isFile fsMsgPayload
  rw [Bool.and_eq_true]
  apply and_congr_right'
  by_cases inline : m.useData = true
  · simp [inline]
  · simp [inline]

private theorem fileNow_next {mem : Mem} {m : FsMsg} {d : Nat → UInt8}
    (payload : fsMsgPayload mem m = some d) {bytes : List UInt8} (more : bytes.length < m.size) :
    fileNow mem m (bytes ++ [d bytes.length]) = fileNow mem m bytes := by
  have left : m.size - bytes.length = m.size - (bytes.length + 1) + 1 := by omega
  unfold fileNow
  rw [File.mk.injEq, List.length_append, List.length_singleton, left, List.range_succ_eq_map]
  simp only [payload, Option.getD_some, List.map_cons, List.map_map, List.append_assoc,
    List.singleton_append, true_and, Nat.add_zero, List.append_cancel_left_eq, List.cons.injEq,
    List.map_inj_left]
  intro j _
  congr 1
  rw [Nat.succ_eq_add_one]
  omega

private theorem fileNow_whole {mem : Mem} {m : FsMsg} {bytes : List UInt8}
    (whole : m.size ≤ bytes.length) :
    fileNow mem m bytes = ⟨m.fname, m.mode, bytes⟩ := by
  unfold fileNow
  rw [Nat.sub_eq_zero_of_le whole, List.range_zero, List.map_nil, List.append_nil]

private theorem queued_eq_cons {s : Sys ι} (some : s.fsQ.fr ≠ s.fsQ.re) :
    queued s = head s :: behind s := by
  unfold queued behind head
  rw [bump_eq_wrap s.fsQ.re_lt]
  exact pending_take _ s.fsQ.fr_lt s.fsQ.re_lt some

private theorem filesNow_append (mem : Mem) (ms : List FsMsg) (m : FsMsg) :
    filesNow mem (ms ++ [m]) =
      filesNow mem ms ++ if isFile m then [fileNow mem m []] else [] := by
  unfold filesNow
  rw [List.filter_append, List.map_append]
  congr 1
  cases file : isFile m <;> simp [file]

def put (s : Sys ι) (m : FsMsg) : Sys ι :=
  { s with fsQ := { s.fsQ with
    fr := bump s.fsQ.fr
    mQ := Function.update s.fsQ.mQ s.fsQ.fr m
    fr_lt := s.bump_lt } }

private theorem queued_put {s : Sys ι} (room : bump s.fsQ.fr ≠ s.fsQ.re) (m : FsMsg) :
    queued (put s m) = queued s ++ [m] := by
  have around := bump_eq_wrap s.fsQ.fr_lt
  rw [around] at room
  unfold queued put
  dsimp only
  rw [around]
  exact pending_put _ s.fsQ.fr_lt s.fsQ.re_lt room m

private theorem head_put {s : Sys ι} (some : s.fsQ.fr ≠ s.fsQ.re) (m : FsMsg) :
    head (put s m) = head s :=
  Function.update_of_ne (Ne.symm some) _ _

private theorem behind_put {s : Sys ι} (room : bump s.fsQ.fr ≠ s.fsQ.re)
    (some : s.fsQ.fr ≠ s.fsQ.re) (m : FsMsg) : behind (put s m) = behind s ++ [m] := by
  have after := queued_put room m
  rw [queued_eq_cons (s := put s m) room, queued_eq_cons some, List.cons_append] at after
  exact (List.cons.inj after).2

theorem pendingFiles_put {s : Sys ι} (room : bump s.fsQ.fr ≠ s.fsQ.re)
    (busy : ∀ bytes, s.writing = some bytes → s.fsQ.fr ≠ s.fsQ.re) (m : FsMsg) :
    pendingFiles (put s m) =
      pendingFiles s ++ if isFile m then [fileNow s.mem m []] else [] := by
  unfold pendingFiles
  cases writing : s.writing with
  | none =>
    have kept : (put s m).writing = none := writing
    rw [kept]
    dsimp only
    rw [queued_put room m]
    exact filesNow_append s.mem (queued s) m
  | some bytes =>
    have kept : (put s m).writing = some bytes := writing
    have some := busy bytes writing
    rw [kept]
    dsimp only
    rw [behind_put room some, head_put some]
    exact congrArg _ (filesNow_append s.mem (behind s) m)

theorem unwritten_put {s : Sys ι} (room : bump s.fsQ.fr ≠ s.fsQ.re)
    (busy : ∀ bytes, s.writing = some bytes → s.fsQ.fr ≠ s.fsQ.re) {m : FsMsg} {b : Buffer} {i : Nat}
    (reads : Reads m 0 b i) : Unwritten (put s m) b i := by
  unfold Unwritten
  cases writing : s.writing with
  | none =>
    have kept : (put s m).writing = none := writing
    rw [kept]
    refine ⟨m, ?_, reads⟩
    rw [queued_put room m]
    exact List.mem_append_right _ (List.mem_singleton_self m)
  | some bytes =>
    have kept : (put s m).writing = some bytes := writing
    rw [kept]
    refine .inr ⟨m, ?_, reads⟩
    rw [behind_put room (busy bytes writing)]
    exact List.mem_append_right _ (List.mem_singleton_self m)

private theorem filesNow_cons (mem : Mem) (m : FsMsg) (ms : List FsMsg) :
    filesNow mem (m :: ms) =
      if isFile m then fileNow mem m [] :: filesNow mem ms else filesNow mem ms := by
  unfold filesNow
  cases file : isFile m <;> simp [file]

private theorem fsTask_empty {s : Sys ι} (rest : s.writing = none) (empty : s.fsQ.fr = s.fsQ.re)
    (opened : Bool) : fsTask opened s = s := by
  simp [fsTask, rest, empty]

private theorem fsTask_open {s : Sys ι} (rest : s.writing = none) (some : s.fsQ.fr ≠ s.fsQ.re)
    (file : isFile (head s) = true) : fsTask true s = { s with writing := .some [] } := by
  obtain ⟨writes, payload⟩ := (isFile_iff s.mem).mp file
  unfold head at writes payload
  simp [fsTask, rest, some, writes, payload]

private theorem fsTask_skip {s : Sys ι} (rest : s.writing = none) (some : s.fsQ.fr ≠ s.fsQ.re)
    {opened : Bool} (unopened : isFile (head s) = true → opened = false) :
    fsTask opened s = takeMsg s := by
  rw [isFile_iff s.mem] at unopened
  unfold head at unopened
  unfold fsTask
  rw [rest]
  dsimp only
  rw [if_neg some]
  split
  · rename_i writes
    rw [if_neg]
    rintro ⟨open_, payload⟩
    rw [unopened ⟨writes, payload⟩] at open_
    cases open_
  · rfl

private theorem fsTask_byte {s : Sys ι} {bytes : List UInt8} (busy : s.writing = some bytes)
    (more : bytes.length < (head s).size) {d : Nat → UInt8}
    (payload : fsMsgPayload s.mem (head s) = some d) (opened : Bool) :
    fsTask opened s = { s with writing := some (bytes ++ [d bytes.length]) } := by
  unfold head at more payload
  simp [fsTask, busy, more, payload]

private theorem fsTask_close {s : Sys ι} {bytes : List UInt8} (busy : s.writing = some bytes)
    (whole : ¬ bytes.length < (head s).size) (opened : Bool) :
    fsTask opened s =
      takeMsg { s with files := s.files ++ [⟨(head s).fname, (head s).mode, bytes⟩] } := by
  unfold head at *
  simp [fsTask, busy, whole]

/-- A file is being written only for the oldest message, and no further than its size. -/
def Busy (s : Sys ι) : Prop :=
  ∀ bytes, s.writing = some bytes →
    s.fsQ.fr ≠ s.fsQ.re ∧ isFile (head s) = true ∧ bytes.length ≤ (head s).size

/-- If the writer is to open a file, it opens. -/
def Opens (s : Sys ι) (opened : Bool) : Prop :=
  s.writing = none → s.fsQ.fr ≠ s.fsQ.re → isFile (head s) = true → opened = true

private theorem busy_takeMsg (s : Sys ι) : Busy (takeMsg s) := nofun

private theorem pendingFiles_none {s : Sys ι} (rest : s.writing = none) :
    pendingFiles s = filesNow s.mem (queued s) := by
  rw [pendingFiles, rest]

private theorem pendingFiles_some {s : Sys ι} {bytes : List UInt8} (busy : s.writing = some bytes) :
    pendingFiles s = fileNow s.mem (head s) bytes :: filesNow s.mem (behind s) := by
  rw [pendingFiles, busy]

theorem busy_fsTask {s : Sys ι} (busy : Busy s) (opened : Bool) : Busy (fsTask opened s) := by
  cases rest : s.writing with
  | none =>
    by_cases empty : s.fsQ.fr = s.fsQ.re
    · rw [fsTask_empty rest empty]
      exact busy
    by_cases skips : isFile (head s) = true → opened = false
    · rw [fsTask_skip rest empty skips]
      exact busy_takeMsg s
    · push Not at skips
      obtain ⟨file, yes⟩ := skips
      rw [eq_true_of_ne_false yes, fsTask_open rest empty file]
      intro bytes begun
      obtain rfl := Option.some.inj begun
      exact ⟨empty, file, Nat.zero_le _⟩
  | some bytes =>
    obtain ⟨some, file, _⟩ := busy bytes rest
    by_cases more : bytes.length < (head s).size
    · obtain ⟨d, payload⟩ := Option.isSome_iff_exists.mp ((isFile_iff s.mem).mp file).2
      rw [fsTask_byte rest more payload]
      intro longer written
      obtain rfl := Option.some.inj written
      refine ⟨some, file, ?_⟩
      rw [List.length_append, List.length_singleton]
      exact more
    · rw [fsTask_close rest more]
      exact busy_takeMsg _

theorem fsTask_frame (opened : Bool) (s : Sys ι) :
    (fsTask opened s).mem = s.mem ∧ (fsTask opened s).calls = s.calls := by
  unfold fsTask takeMsg
  dsimp only
  cases s.writing with
  | none => dsimp only; split_ifs <;> exact ⟨rfl, rfl⟩
  | some bytes => dsimp only; split_ifs <;> exact ⟨rfl, rfl⟩

theorem busy_put {s : Sys ι} (busy : Busy s) (room : bump s.fsQ.fr ≠ s.fsQ.re) (m : FsMsg) :
    Busy (put s m) := by
  intro bytes writing
  obtain ⟨some, file, fits⟩ := busy bytes writing
  rw [head_put some]
  exact ⟨room, file, fits⟩

theorem files_fsTask {s : Sys ι} (busy : Busy s) {opened : Bool} (opens : Opens s opened) :
    (fsTask opened s).files ++ pendingFiles (fsTask opened s) = s.files ++ pendingFiles s := by
  cases rest : s.writing with
  | none =>
    by_cases empty : s.fsQ.fr = s.fsQ.re
    · rw [fsTask_empty rest empty]
    rw [pendingFiles_none rest, queued_eq_cons empty, filesNow_cons]
    by_cases file : isFile (head s) = true
    · rw [opens rest empty file, fsTask_open rest empty file, if_pos file]
      rfl
    · rw [fsTask_skip rest empty fun yes => absurd yes file, if_neg file]
      rfl
  | some bytes =>
    obtain ⟨_, file, _⟩ := busy bytes rest
    rw [pendingFiles_some rest]
    by_cases more : bytes.length < (head s).size
    · obtain ⟨d, payload⟩ := Option.isSome_iff_exists.mp ((isFile_iff s.mem).mp file).2
      rw [fsTask_byte rest more payload, ← fileNow_next payload more]
      rfl
    · rw [fsTask_close rest more, fileNow_whole (Nat.not_lt.mp more)]
      exact List.append_assoc ..

theorem files_fsTask_lost {s : Sys ι} {opened : Bool} (closed : ¬ Opens s opened) :
    (fsTask opened s).files ++ pendingFiles (fsTask opened s) ≠ s.files ++ pendingFiles s := by
  unfold Opens at closed
  push Not at closed
  obtain ⟨rest, some, file, shut⟩ := closed
  rw [pendingFiles_none rest, queued_eq_cons some, filesNow_cons, if_pos file,
    fsTask_skip rest some fun _ => Bool.eq_false_iff.mpr shut]
  intro same
  exact List.cons_ne_self _ _ (List.append_cancel_left same).symm

/-- How many steps the writer takes at most until nothing is queued. -/
def left (s : Sys ι) : Nat :=
  match s.writing with
  | none => ((queued s).map fun m => m.size + 2).sum
  | some bytes => (head s).size - bytes.length + 1 + ((behind s).map fun m => m.size + 2).sum

/-- The queue is empty and no file is open. -/
def Drained (s : Sys ι) : Prop := s.writing = none ∧ s.fsQ.fr = s.fsQ.re

theorem left_fsTask {s : Sys ι} (busy : Busy s) (open_ : ¬ Drained s) :
    left (fsTask true s) < left s := by
  cases rest : s.writing with
  | none =>
    have some : s.fsQ.fr ≠ s.fsQ.re := fun empty => open_ ⟨rest, empty⟩
    have before : left s = (head s).size + 2 + ((behind s).map fun m => m.size + 2).sum := by
      rw [left, rest]
      dsimp only
      rw [queued_eq_cons some, List.map_cons, List.sum_cons]
    rw [before]
    by_cases file : isFile (head s) = true
    · rw [fsTask_open rest some file]
      change (head s).size - 0 + 1 + ((behind s).map fun m => m.size + 2).sum < _
      omega
    · rw [fsTask_skip rest some fun yes => absurd yes file]
      change ((behind s).map fun m => m.size + 2).sum < _
      omega
  | some bytes =>
    obtain ⟨_, file, _⟩ := busy bytes rest
    have before : left s = (head s).size - bytes.length + 1 +
        ((behind s).map fun m => m.size + 2).sum := by
      rw [left, rest]
    rw [before]
    by_cases more : bytes.length < (head s).size
    · obtain ⟨d, payload⟩ := Option.isSome_iff_exists.mp ((isFile_iff s.mem).mp file).2
      rw [fsTask_byte rest more payload]
      change (head s).size - (bytes ++ [d bytes.length]).length + 1 +
        ((behind s).map fun m => m.size + 2).sum < _
      rw [List.length_append, List.length_singleton]
      omega
    · rw [fsTask_close rest more]
      change ((behind s).map fun m => m.size + 2).sum < _
      omega

theorem pendingFiles_drained {s : Sys ι} (drained : Drained s) : pendingFiles s = [] := by
  obtain ⟨rest, empty⟩ := drained
  rw [pendingFiles_none rest, queued, empty, pending_empty]
  rfl

end SV300.Fs.Files
