/- SV300/Fs/Delivery
   digest: A schedule writes every file as it was handed over exactly if no needed byte changes. -/

import SV300.Fs.Files
import SV300.Fs.Wave

set_option autoImplicit false
set_option relaxedAutoImplicit false

namespace SV300.Fs.Delivery

open SV300.Fs.Queue
open SV300.Fs.Files
open SV300.Fs.Wave
open SV300.Library.Runs

variable {ι : Type} [DecidableEq ι]

/-- The system, the files handed over by the messages that have entered the queue, and those by the
calls that are open. -/
structure Observed (ι : Type) where
  s : Sys ι
  due : List File
  held : ι → File

def record (o : Observed ι) (e : Event ι) : Observed ι where
  s := step o.s e
  due :=
    match e with
    | .attempt t =>
      match o.s.calls t with
      | some (m, _) => if bump o.s.fsQ.fr ≠ o.s.fsQ.re ∧ isFile m = true then o.due ++ [o.held t]
        else o.due
      | none => o.due
    | _ => o.due
  held :=
    match e with
    | .putFsQ t p =>
      if (o.s.calls t).isSome then o.held else Function.update o.held t (handed o.s.mem p)
    | _ => o.held

/-- The calls that are open and the writer go on, and every file opens. -/
def GoesOn : Event ι → Prop
  | .attempt _ => True
  | .fsTask opened => opened = true
  | _ => False

/-- The writer gets to the end of the queue, and whenever it does, the files written are those handed
over, each once and in order. -/
structure Delivers (o : Observed ι) : Prop where
  ends : ∃ n, Drained (run record o (List.replicate n (.fsTask true))).s
  files : ∀ es, (∀ e ∈ es, GoesOn e) → Drained (run record o es).s →
    (run record o es).s.files = (run record o es).due

def Exact (o : Observed ι) (e : Event ι) : Prop := Delivers (record o e)

/-- No task changes a byte that is still needed, and every file opens. -/
def Quiet (o : Observed ι) : Event ι → Prop
  | .fill t b f => o.s.calls t = none → ∀ i, Needed o.s b i → f (o.s.mem b) i = o.s.mem b i
  | .fsTask opened => Opens o.s opened
  | _ => True

/-- The files written and those to be written are the ones handed over, and so is what every open
call carries. -/
structure Intact (o : Observed ι) : Prop where
  files : o.s.files ++ pendingFiles o.s = o.due
  calls : ∀ t m n, o.s.calls t = some (m, n) → isFile m = true →
    fileNow o.s.mem m [] = o.held t

structure Inv (o : Observed ι) : Prop where
  intact : Intact o
  busy : Busy o.s

private theorem record_fill {o : Observed ι} {t : ι} (free : o.s.calls t = none) (b : Buffer)
    (f : (Nat → UInt8) → Nat → UInt8) :
    record o (.fill t b f) =
      { o with s := { o.s with mem := Function.update o.s.mem b (f (o.s.mem b)) } } := by
  unfold record step
  simp [free]

private theorem record_putFsQ {o : Observed ι} {t : ι} (free : o.s.calls t = none) (p : FsMsg) :
    record o (.putFsQ t p) =
      { o with
        s := { o.s with calls := Function.update o.s.calls t (some (copyOf o.s.mem p, 0)) }
        held := Function.update o.held t (handed o.s.mem p) } := by
  unfold record step
  simp [free]

private theorem record_blocked {o : Observed ι} {t : ι} (open_ : (o.s.calls t).isSome = true)
    (b : Buffer) (f : (Nat → UInt8) → Nat → UInt8) (p : FsMsg) :
    record o (.fill t b f) = o ∧ record o (.putFsQ t p) = o := by
  unfold record step
  simp [open_]

private theorem record_attempt_none {o : Observed ι} {t : ι} (free : o.s.calls t = none) :
    record o (.attempt t) = o := by
  unfold record step attempt
  simp [free]

private theorem record_attempt_put {o : Observed ι} {t : ι} {m : FsMsg} {tries : Nat}
    (called : o.s.calls t = some (m, tries)) (room : bump o.s.fsQ.fr ≠ o.s.fsQ.re) :
    record o (.attempt t) =
      { o with
        s := { put o.s m with calls := Function.update o.s.calls t none }
        due := if isFile m = true then o.due ++ [o.held t] else o.due } := by
  unfold record step attempt put
  simp [called, room]

private theorem record_attempt_full {o : Observed ι} {t : ι} {m : FsMsg} {tries : Nat}
    (called : o.s.calls t = some (m, tries)) (full : bump o.s.fsQ.fr = o.s.fsQ.re) :
    ∃ call : Option (FsMsg × Nat), (∀ m' n, call = some (m', n) → m' = m) ∧
      record o (.attempt t) =
        { o with s := { o.s with calls := Function.update o.s.calls t call } } := by
  by_cases tired : tries + 1 > 200
  · refine ⟨none, nofun, ?_⟩
    unfold record step attempt
    simp [called, full, tired]
  · refine ⟨some (m, tries + 1), fun m' n same => ?_, ?_⟩
    · exact (Prod.mk.inj (Option.some.inj same)).1.symm
    · unfold record step attempt
      simp [called, full, tired]

private theorem record_fsTask (o : Observed ι) (opened : Bool) :
    record o (.fsTask opened) = { o with s := fsTask opened o.s } :=
  rfl

private theorem busy_record {o : Observed ι} (busy : Busy o.s) (e : Event ι) :
    Busy (record o e).s := by
  cases e with
  | fill t b f =>
    change Busy (if (o.s.calls t).isSome then o.s else _)
    split
    · exact busy
    · exact busy
  | putFsQ t p =>
    change Busy (if (o.s.calls t).isSome then o.s else _)
    split
    · exact busy
    · exact busy
  | attempt t =>
    cases called : o.s.calls t with
    | none =>
      rw [record_attempt_none called]
      exact busy
    | some call =>
      obtain ⟨m, tries⟩ := call
      by_cases full : bump o.s.fsQ.fr = o.s.fsQ.re
      · obtain ⟨call, _, stepped⟩ := record_attempt_full called full
        rw [stepped]
        exact busy
      · rw [record_attempt_put called full]
        exact busy_put busy full m
  | fsTask opened => exact busy_fsTask busy opened

private theorem intact_fill_iff {o : Observed ι} (inv : Inv o) (t : ι) (b : Buffer)
    (f : (Nat → UInt8) → Nat → UInt8) :
    Intact (record o (.fill t b f)) ↔ Quiet o (.fill t b f) := by
  cases free : o.s.calls t with
  | some call =>
    rw [(record_blocked (by rw [free]; rfl) b f (call.1)).1]
    refine iff_of_true inv.intact fun none => ?_
    rw [free] at none
    cases none
  | none =>
    have queue := pendingFiles_update_iff (fun bytes writing => (inv.busy bytes writing).2.1) b
      (f (o.s.mem b))
    rw [record_fill free]
    constructor
    · rintro ⟨files, calls⟩ _ i (⟨u, m, n, called, reads⟩ | reads)
      · have same := (calls u m n called reads.isFile).trans
          (inv.intact.calls u m n called reads.isFile).symm
        exact (fileNow_update_iff reads.isFile _ _ _ []).mp same i reads
      · have same := List.append_cancel_left (files.trans inv.intact.files.symm)
        exact queue.mp same i reads
    · intro quiet
      refine ⟨?_, fun u m n called file => ?_⟩
      · rw [← inv.intact.files]
        exact congrArg _ (queue.mpr fun i reads => quiet free i (.inr reads))
      · rw [← inv.intact.calls u m n called file]
        exact (fileNow_update_iff file _ _ _ []).mpr fun i reads =>
          quiet free i (.inl ⟨u, m, n, called, reads⟩)

private theorem intact_putFsQ {o : Observed ι} (intact : Intact o) (t : ι) (p : FsMsg) :
    Intact (record o (.putFsQ t p)) := by
  cases free : o.s.calls t with
  | some call =>
    rw [(record_blocked (by rw [free]; rfl) (.alog 0) id p).2]
    exact intact
  | none =>
    rw [record_putFsQ free]
    refine ⟨intact.files, fun u m n called file => ?_⟩
    dsimp only at called ⊢
    by_cases own : u = t
    · rw [own, Function.update_self] at called ⊢
      obtain ⟨rfl, _⟩ := Prod.mk.inj (Option.some.inj called)
      exact fileNow_copyOf file
    · rw [Function.update_of_ne own] at called ⊢
      exact intact.calls u m n called file

private theorem intact_attempt {o : Observed ι} (inv : Inv o) (t : ι) :
    Intact (record o (.attempt t)) := by
  have intact := inv.intact
  cases called : o.s.calls t with
  | none =>
    rw [record_attempt_none called]
    exact intact
  | some call =>
    obtain ⟨m, tries⟩ := call
    have others : ∀ c : Option (FsMsg × Nat), (∀ m' n, c = some (m', n) → m' = m) →
        ∀ u m' n, Function.update o.s.calls t c u = some (m', n) → isFile m' = true →
          fileNow o.s.mem m' [] = o.held u := by
      intro c own u m' n entry file
      by_cases here : u = t
      · rw [here, Function.update_self] at entry
        rw [own m' n entry] at file ⊢
        rw [here]
        exact intact.calls t m tries called file
      · rw [Function.update_of_ne here] at entry
        exact intact.calls u m' n entry file
    by_cases full : bump o.s.fsQ.fr = o.s.fsQ.re
    · obtain ⟨call, same, stepped⟩ := record_attempt_full called full
      rw [stepped]
      exact ⟨intact.files, others call same⟩
    · rw [record_attempt_put called full]
      refine ⟨?_, others none nofun⟩
      have busy : ∀ bytes, o.s.writing = some bytes → o.s.fsQ.fr ≠ o.s.fsQ.re :=
        fun bytes writing => (inv.busy bytes writing).1
      change o.s.files ++ pendingFiles (put o.s m) = _
      rw [pendingFiles_put full busy, ← List.append_assoc, intact.files]
      dsimp only
      split
      · rename_i file
        rw [intact.calls t m tries called file]
      · exact List.append_nil _

private theorem intact_fsTask_iff {o : Observed ι} (inv : Inv o) (opened : Bool) :
    Intact (record o (.fsTask opened)) ↔ Quiet o (.fsTask opened) := by
  obtain ⟨memory, calls⟩ := fsTask_frame opened o.s
  rw [record_fsTask]
  constructor
  · intro intact
    by_contra closed
    exact files_fsTask_lost closed (intact.files.trans inv.intact.files.symm)
  · intro opens
    refine ⟨(files_fsTask inv.busy opens).trans inv.intact.files, ?_⟩
    dsimp only
    rw [memory, calls]
    exact inv.intact.calls

private theorem intact_record_iff {o : Observed ι} (inv : Inv o) (e : Event ι) :
    Intact (record o e) ↔ Quiet o e := by
  cases e with
  | fill t b f => exact intact_fill_iff inv t b f
  | putFsQ t p => exact iff_of_true (intact_putFsQ inv.intact t p) trivial
  | attempt t => exact iff_of_true (intact_attempt inv t) trivial
  | fsTask opened => exact intact_fsTask_iff inv opened

private theorem inv_record {o : Observed ι} {e : Event ι} (inv : Inv o) (quiet : Quiet o e) :
    Inv (record o e) :=
  ⟨(intact_record_iff inv e).mpr quiet, busy_record inv.busy e⟩

/-- The queue has been written; nothing else has changed. -/
structure Emptied (o last : Observed ι) : Prop where
  drained : Drained last.s
  files : last.s.files = o.s.files ++ pendingFiles o.s
  mem : last.s.mem = o.s.mem
  calls : last.s.calls = o.s.calls
  due : last.due = o.due
  held : last.held = o.held

private theorem drain (o : Observed ι) (busy : Busy o.s) :
    ∃ n, Emptied o (run record o (List.replicate n (.fsTask true))) := by
  induction more : left o.s using Nat.strongRecOn generalizing o with
  | ind k ih =>
    by_cases drained : Drained o.s
    · refine ⟨0, drained, ?_, rfl, rfl, rfl, rfl⟩
      rw [pendingFiles_drained drained, List.append_nil]
      rfl
    · have fewer := left_fsTask busy drained
      rw [more] at fewer
      obtain ⟨n, rest⟩ := ih _ fewer (record o (.fsTask true)) (busy_fsTask busy true) rfl
      obtain ⟨sameMem, sameCalls⟩ := fsTask_frame true o.s
      refine ⟨n + 1, rest.drained, ?_, rest.mem.trans sameMem, rest.calls.trans sameCalls,
        rest.due, rest.held⟩
      exact rest.files.trans (files_fsTask busy fun _ _ _ => rfl)

omit [DecidableEq ι] in
private theorem goesOn_quiet (o : Observed ι) {e : Event ι} (on : GoesOn e) : Quiet o e := by
  cases e with
  | fill t b f => exact on.elim
  | putFsQ t p => exact on.elim
  | attempt t => trivial
  | fsTask opened => exact fun _ _ _ => on

private theorem delivers_of_inv {o : Observed ι} (inv : Inv o) : Delivers o := by
  obtain ⟨n, emptied⟩ := drain o inv.busy
  refine ⟨⟨n, emptied.drained⟩, fun es on drained => ?_⟩
  have guarded : Along record (fun _ e => GoesOn e) o es := along_of_forall on o
  have last := invariant_run (fun o e inv on => inv_record inv (goesOn_quiet o on)) inv guarded
  rw [← last.intact.files, pendingFiles_drained drained, List.append_nil]

private theorem intact_of_delivers {o : Observed ι} (busy : Busy o.s) (delivers : Delivers o) :
    Intact o := by
  have ahead : ∀ k, ∀ e ∈ List.replicate k (Event.fsTask true), GoesOn (ι := ι) e :=
    fun k e member => by
      rw [(List.mem_replicate.mp member).2]
      rfl
  obtain ⟨n, emptied⟩ := drain o busy
  have files : o.s.files ++ pendingFiles o.s = o.due := by
    rw [← emptied.files, ← emptied.due]
    exact delivers.files _ (ahead n) emptied.drained
  refine ⟨files, fun t m tries called file => ?_⟩
  -- the queue is empty now, so the message of the call is put and written next
  obtain ⟨mid, reached⟩ : ∃ mid, run record o (List.replicate n (.fsTask true)) = mid := ⟨_, rfl⟩
  rw [reached] at emptied
  have room : bump mid.s.fsQ.fr ≠ mid.s.fsQ.re := by
    rw [emptied.drained.2]
    exact bump_ne mid.s.fsQ.re_lt
  have quietly : Busy mid.s := fun bytes writing => by
    rw [emptied.drained.1] at writing
    cases writing
  have stepped := record_attempt_put ((congrFun emptied.calls t).trans called) room
  rw [if_pos file] at stepped
  obtain ⟨k, again⟩ := drain (record mid (.attempt t)) (busy_record quietly (.attempt t))
  have last := delivers.files
    (List.replicate n (.fsTask true) ++ .attempt t :: List.replicate k (.fsTask true)) (by
      intro e member
      rcases List.mem_append.mp member with before | later
      · exact ahead n e before
      · rcases List.mem_cons.mp later with rfl | after
        · trivial
        · exact ahead k e after)
  rw [run_append, reached, run_cons] at last
  have both := last again.drained
  rw [again.files, again.due, stepped] at both
  change mid.s.files ++ pendingFiles (put mid.s m) = mid.due ++ [mid.held t] at both
  rw [pendingFiles_put room (fun bytes writing => (quietly bytes writing).1), if_pos file,
    pendingFiles_drained emptied.drained, List.nil_append, emptied.files, files, emptied.due,
    emptied.mem, emptied.held] at both
  exact (List.cons.inj (List.append_cancel_left both)).1

private theorem delivers_iff {o : Observed ι} (busy : Busy o.s) : Delivers o ↔ Intact o :=
  ⟨intact_of_delivers busy, fun intact => delivers_of_inv ⟨intact, busy⟩⟩

private theorem exact_iff {o : Observed ι} (inv : Inv o) (e : Event ι) : Exact o e ↔ Quiet o e :=
  (delivers_iff (busy_record inv.busy e)).trans (intact_record_iff inv e)

/-- No message is queued, no call is open and no file is written yet. -/
def start (mem : Mem) (mQ : Nat → FsMsg) (held : ι → File) : Observed ι :=
  ⟨idle mem mQ, [], held⟩

omit [DecidableEq ι] in
private theorem inv_start (mem : Mem) (mQ : Nat → FsMsg) (held : ι → File) :
    Inv (start mem mQ held) := by
  have nothing : pendingFiles (start mem mQ held).s = [] := pendingFiles_drained ⟨rfl, rfl⟩
  refine ⟨⟨?_, nofun⟩, nofun⟩
  rw [nothing]
  rfl

/-- Whatever the order of the steps, the files written are those handed over, each once and in order,
at every moment exactly if no task changes a byte that is still needed and every file opens. -/
theorem files_exact_iff_quiet (mem : Mem) (mQ : Nat → FsMsg) (held : ι → File)
    (es : List (Event ι)) :
    Along record Exact (start mem mQ held) es ↔ Along record Quiet (start mem mQ held) es :=
  along_guarded_iff (fun _ _ inv quiet => inv_record inv quiet)
    (fun _ e inv => exact_iff inv e) (inv_start mem mQ held) es

private theorem put_needed {o : Observed ι} (busy : Busy o.s) {t : ι} (free : o.s.calls t = none)
    (room : bump o.s.fsQ.fr ≠ o.s.fsQ.re) (f : (Nat → UInt8) → Nat → UInt8) {p : FsMsg} {b : Buffer}
    (writes : p.mode.writes = true) (pointed : p.pbuf = some b) (large : fsMsgDataSz < p.size) :
    let last := record (record (record o (.fill t b f)) (.putFsQ t p)) (.attempt t)
    last.s.calls t = none ∧ last.s.mem b = f (o.s.mem b) ∧ ∀ i, i < p.size → Needed last.s b i := by
  have copied : ∀ mem, copyOf mem p = { p with useData := false } := by
    intro mem
    have big : ¬ (p.size > 0 ∧ p.size ≤ fsMsgDataSz) := by omega
    unfold copyOf
    rw [pointed]
    exact if_neg big
  have filled := record_fill free b f
  let mem := Function.update o.s.mem b (f (o.s.mem b))
  let call := { p with useData := false }
  have called : record (record o (.fill t b f)) (.putFsQ t p) =
      { o with
        s := { o.s with
          mem := mem
          calls := Function.update o.s.calls t (some (call, 0)) }
        held := Function.update o.held t (handed mem p) } := by
    rw [filled]
    refine (record_putFsQ (o := { o with s := { o.s with mem := mem } }) free p).trans ?_
    rw [copied]
  have open_ : (record (record o (.fill t b f)) (.putFsQ t p)).s.calls t = some (call, 0) := by
    rw [called]
    exact Function.update_self ..
  have stepped := record_attempt_put open_ (by rw [called]; exact room)
  intro last
  have reached : last = _ := stepped
  rw [reached, called]
  refine ⟨Function.update_self .., Function.update_self .., fun i inside => ?_⟩
  have reads : Reads call 0 b i := ⟨writes, rfl, pointed, Nat.zero_le i, inside⟩
  exact .inr (unwritten_put room (fun bytes writing => (busy bytes writing).1) reads)

/-- A second capture of a channel changes the data of the first one, which is still to be written,
unless both events have one time. -/
private theorem second_capture_not_exact {o : Observed ι} (inv : Inv o) {t : ι}
    (free : o.s.calls t = none) (room : bump o.s.fsQ.fr ≠ o.s.fsQ.re) {id : Fin 3} {st : Setup}
    {ww : Fin nWaveWin → WaveWindow} {unset : FsMsg} {e e' : Detect.PqEvent.CapEntry}
    {f f' : (Nat → UInt8) → Nat → UInt8} {m m' : FsMsg}
    (captured : wavePreCaptureLF id st ww unset e = some (f, m))
    (later : wavePreCaptureLF id st ww unset e' = some (f', m')) (apart : e.Ts ≠ e'.Ts)
    (es : List (Event ι)) :
    ¬ Along record Exact o
      (.fill t (.wbCapLF id) f :: .putFsQ t m :: .attempt t :: .fill t (.wbCapLF id) f' :: es) := by
  rintro ⟨filled, put_, attempted, again, _⟩
  obtain ⟨mode, pointed, large, _⟩ := capture_spec captured
  obtain ⟨i, early, differs⟩ := captures_differ captured later apart (o.s.mem (.wbCapLF id))
  obtain ⟨over_, memory, needed⟩ :=
    put_needed inv.busy free room f (by rw [mode]; rfl) pointed large
  have inv₁ := inv_record inv ((exact_iff inv _).mp filled)
  have inv₂ := inv_record inv₁ ((exact_iff inv₁ _).mp put_)
  have inv₃ := inv_record inv₂ ((exact_iff inv₂ _).mp attempted)
  have small : 8 ≤ fsMsgDataSz := by decide
  have kept := (exact_iff inv₃ _).mp again over_ i (needed i (by omega))
  rw [memory] at kept
  exact differs kept

def blank : FsMsg := ⟨"", .wb, 0, none, 0, fun _ => 0, false⟩

/-- Six windows of silence, 200 ms each, the last one at 2 s. -/
def silence (k : Fin nWaveWin) : WaveWindow where
  ts := UInt64.ofNat (1000 + 200 * k.val)
  lU _ _ := 0
  lI _ _ := 0

/-- A sag and a swell, a tenth of a second apart, wait for their capture. -/
def sagAndSwell : Detect.PqEvent.CapQ where
  fr := 2
  re := 0
  Q k := if k = 0 then ⟨1300, .E_SAG⟩ else ⟨1400, .E_SWELL⟩
  fr_lt := by decide
  re_lt := Detect.PqEvent.CapQ.empty.re_lt

private theorem both_captured : (wavePass ⟨0, 0, 0, 0, 0⟩ silence 5 .normal sagAndSwell).1 =
    [⟨1300, .E_SAG⟩, ⟨1400, .E_SWELL⟩] := by
  decide

/-- One pass of the wave task captures both events before the writer runs. -/
theorem one_pass_overwrites :
    ¬ Along record Exact (start (fun _ _ => 0) (fun _ => blank) fun _ : Unit => ⟨"", .wb, []⟩)
      (passEvents () 0 ⟨0, 0, 0, 0, 0⟩ silence 5 .normal blank sagAndSwell) := by
  obtain ⟨⟨f, m⟩, captured⟩ : ∃ c, wavePreCaptureLF 0 ⟨0, 0, 0, 0, 0⟩ silence blank
      ⟨1300, .E_SAG⟩ = some c := Option.isSome_iff_exists.mp rfl
  obtain ⟨⟨f', m'⟩, later⟩ : ∃ c, wavePreCaptureLF 0 ⟨0, 0, 0, 0, 0⟩ silence blank
      ⟨1400, .E_SWELL⟩ = some c := Option.isSome_iff_exists.mp rfl
  have events : passEvents () 0 ⟨0, 0, 0, 0, 0⟩ silence 5 .normal blank sagAndSwell =
      [.fill () (.wbCapLF 0) f, .putFsQ () m, .attempt (), .fill () (.wbCapLF 0) f',
        .putFsQ () m', .attempt ()] := by
    unfold passEvents
    rw [both_captured]
    simp only [List.flatMap_cons, List.flatMap_nil, captured, later]
    rfl
  rw [events]
  exact second_capture_not_exact (inv_start _ _ _) rfl (by decide) captured later (by decide) _

end SV300.Fs.Delivery
