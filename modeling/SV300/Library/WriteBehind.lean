/- SV300/Library/WriteBehind
   digest: Snapshots that one task takes and a slower one writes to files, in every order of steps. -/

import Mathlib.Algebra.GroupWithZero.Nat
import Mathlib.Logic.Function.Basic
import SV300.Library.Runs

set_option autoImplicit false
set_option relaxedAutoImplicit false

namespace SV300.Library.WriteBehind

open SV300.Library.Runs

variable {ι σ β : Type*}

/-- The snapshot that a job writes, which another job may write too, the length of each snapshot,
and the jobs that the writer takes at a time. -/
structure Plan (ι σ : Type*) where
  slot : ι → σ
  size : σ → Nat
  groups : List (List ι)

abbrev Image (p : Plan ι σ) (β : Type*) (a : σ) := { bs : List β // bs.length = p.size a }

/-- The writer looks at the groups of jobs left in its round, opens the files of those it has taken,
or writes the next byte of one. -/
inductive Writer (ι : Type*)
  | look (groups : List (List ι))
  | taken (jobs : List ι) (groups : List (List ι))
  | writing (i : ι) (k : Nat) (jobs : List ι) (groups : List (List ι))

def Writer.waiting : Writer ι → List ι
  | .look _ => []
  | .taken jobs _ => jobs
  | .writing _ _ jobs _ => jobs

def Writer.file : Writer ι → Option ι
  | .writing i _ _ _ => some i
  | _ => none

/-- The snapshots, the jobs not taken yet, the file of each job, the writer, all snapshots so far,
and the last one that each job was given. -/
structure Cache (p : Plan ι σ) (β : Type*) where
  snap : (a : σ) → Image p β a
  pending : ι → Bool
  files : ι → Option (List β)
  writer : Writer ι
  stored : σ → List (List β)
  last : (i : ι) → Option (Image p β (p.slot i))

/-- A snapshot for a job, or the writer's next step; a file it opens may not open. -/
inductive Event (p : Plan ι σ) (β : Type*)
  | store (i : ι) (v : Image p β (p.slot i))
  | write (opens : Bool)

section Store

variable [DecidableEq ι] [DecidableEq σ] {p : Plan ι σ} {s : Cache p β} {i : ι}

def store (s : Cache p β) (i : ι) (v : Image p β (p.slot i)) : Cache p β :=
  { s with
    snap := Function.update s.snap (p.slot i) v
    pending := Function.update s.pending i true
    stored := Function.update s.stored (p.slot i) (v.val :: s.stored (p.slot i))
    last := Function.update s.last i (some v) }

theorem store_snap_of_slot {a : σ} (here : p.slot i = a) (v : Image p β (p.slot i)) :
    ((store s i v).snap a).val = v.val := by
  subst here
  exact congrArg Subtype.val (Function.update_self ..)

theorem store_snap_of_ne {a : σ} (other : a ≠ p.slot i) (v : Image p β (p.slot i)) :
    (store s i v).snap a = s.snap a := Function.update_of_ne other ..

private theorem store_stored_of_slot {a : σ} (here : p.slot i = a) (v : Image p β (p.slot i)) :
    (store s i v).stored a = v.val :: s.stored a := by
  subst here
  exact Function.update_self ..

private theorem store_stored_of_ne {a : σ} (other : a ≠ p.slot i) (v : Image p β (p.slot i)) :
    (store s i v).stored a = s.stored a := Function.update_of_ne other ..

theorem store_last_self (v : Image p β (p.slot i)) : (store s i v).last i = some v :=
  Function.update_self ..

section Elsewhere

variable {j : ι} (other : j ≠ i) (v : Image p β (p.slot i))

include other

private theorem store_pending_of_ne : (store s i v).pending j = s.pending j :=
  Function.update_of_ne other ..

theorem store_last_of_ne : (store s i v).last j = s.last j := Function.update_of_ne other ..

end Elsewhere

private theorem stored_store (v : Image p β (p.slot i)) (a : σ) {bs : List β}
    (held : bs ∈ s.stored a) :
    bs ∈ (store s i v).stored a := by
  by_cases here : p.slot i = a
  · rw [store_stored_of_slot here]
    exact List.mem_cons_of_mem v.val held
  · rw [store_stored_of_ne (Ne.symm here)]
    exact held

theorem mem_stored_store {v : Image p β (p.slot i)} {a : σ} {bs : List β}
    (held : bs ∈ (store s i v).stored a) : bs ∈ s.stored a ∨ a = p.slot i ∧ bs = v.val := by
  by_cases here : p.slot i = a
  · rw [store_stored_of_slot here] at held
    rcases List.mem_cons.mp held with new | old
    · exact .inr ⟨here.symm, new⟩
    · exact .inl old
  · rw [store_stored_of_ne (Ne.symm here)] at held
    exact .inl held

end Store

section Write

variable [DecidableEq ι] {p : Plan ι σ} {s : Cache p β} {gs : List (List ι)} {g is : List ι} {i : ι}
  {k : Nat}

/-- A file is emptied as it is opened, then written from its start; one that does not open is
passed over. -/
def write (s : Cache p β) (opens : Bool) : Cache p β :=
  match s.writer with
  | .look [] => { s with writer := .look p.groups }
  | .look (g :: gs) =>
    { s with
      pending := fun i => if i ∈ g then false else s.pending i
      writer := .taken (g.filter s.pending) gs }
  | .taken [] gs => { s with writer := .look gs }
  | .taken (i :: is) gs =>
    if opens then { s with files := Function.update s.files i (some []), writer := .writing i 0 is gs }
    else { s with writer := .taken is gs }
  | .writing i k is gs =>
    match (s.snap (p.slot i)).val[k]? with
    | some b =>
      { s with
        files := Function.update s.files i ((s.files i).map (· ++ [b]))
        writer := .writing i (k + 1) is gs }
    | none => { s with writer := .taken is gs }

theorem write_frame (s : Cache p β) (opens : Bool) :
    (write s opens).stored = s.stored ∧ (write s opens).snap = s.snap ∧
      (write s opens).last = s.last := by
  unfold write
  split
  · exact ⟨rfl, rfl, rfl⟩
  · exact ⟨rfl, rfl, rfl⟩
  · exact ⟨rfl, rfl, rfl⟩
  · split <;> exact ⟨rfl, rfl, rfl⟩
  · split <;> exact ⟨rfl, rfl, rfl⟩

private theorem write_round (at_ : s.writer = .look []) (opens : Bool) :
    write s opens = { s with writer := .look p.groups } := by
  rw [write, at_]

private theorem write_take (at_ : s.writer = .look (g :: gs)) (opens : Bool) :
    write s opens =
      { s with
        pending := fun i => if i ∈ g then false else s.pending i
        writer := .taken (g.filter s.pending) gs } := by
  rw [write, at_]

private theorem write_turn (at_ : s.writer = .taken [] gs) (opens : Bool) :
    write s opens = { s with writer := .look gs } := by
  rw [write, at_]

private theorem write_open (at_ : s.writer = .taken (i :: is) gs) :
    write s true =
      { s with files := Function.update s.files i (some []), writer := .writing i 0 is gs } := by
  rw [write, at_]
  exact if_pos rfl

private theorem write_skip (at_ : s.writer = .taken (i :: is) gs) :
    write s false = { s with writer := .taken is gs } := by
  rw [write, at_]
  exact if_neg Bool.false_ne_true

private theorem write_put (at_ : s.writer = .writing i k is gs) {b : β}
    (byte : (s.snap (p.slot i)).val[k]? = some b) (opens : Bool) :
    write s opens =
      { s with
        files := Function.update s.files i ((s.files i).map (· ++ [b]))
        writer := .writing i (k + 1) is gs } := by
  simp only [write, at_, byte]

private theorem write_close (at_ : s.writer = .writing i k is gs)
    (last : (s.snap (p.slot i)).val[k]? = none) (opens : Bool) :
    write s opens = { s with writer := .taken is gs } := by
  simp only [write, at_, last]

/-- The job is not taken yet, waits to be opened, or is being written. -/
def Due (s : Cache p β) (i : ι) : Prop :=
  s.pending i = true ∨ i ∈ s.writer.waiting ∨ s.writer.file = some i

private theorem due_write {opens : Bool} (due : Due (write s opens) i) : Due s i := by
  cases at_ : s.writer with
  | look gs =>
    cases gs with
    | nil =>
      rw [write_round at_] at due
      exact due.imp_right (by simp [Writer.waiting, Writer.file])
    | cons g gs =>
      rw [write_take at_] at due
      rcases due with pending | taken | open_
      · by_cases inside : i ∈ g
        · simp [inside] at pending
        · exact .inl ((if_neg inside).symm.trans pending)
      · exact .inl (List.mem_filter.mp taken).2
      · cases open_
  | taken is gs =>
    have before : s.pending i = true ∨ i ∈ is → Due s i := fun due =>
      due.imp_right fun taken => .inl (by rw [at_]; exact taken)
    cases is with
    | nil =>
      rw [write_turn at_] at due
      exact before (due.imp_right (by simp [Writer.waiting, Writer.file]))
    | cons j is =>
      cases opens with
      | false =>
        rw [write_skip at_] at due
        exact before (due.imp_right (by simp +contextual [Writer.waiting, Writer.file]))
      | true =>
        rw [write_open at_] at due
        refine before (due.imp_right ?_)
        rintro (taken | open_)
        · exact List.mem_cons_of_mem j taken
        · obtain rfl : j = i := Option.some.inj open_
          exact List.mem_cons_self
  | writing j k is gs =>
    have before : s.pending i = true ∨ i ∈ is ∨ some j = some i → Due s i := fun due => by
      rw [Due, at_]
      exact due
    cases byte : (s.snap (p.slot j)).val[k]? with
    | some b => rw [write_put at_ byte] at due; exact before due
    | none =>
      rw [write_close at_ byte] at due
      exact before (due.imp_right (by simp +contextual [Writer.waiting, Writer.file]))

private theorem write_files_of_not_due (idle : ¬ Due s i) (opens : Bool) :
    (write s opens).files i = s.files i := by
  cases at_ : s.writer with
  | look gs =>
    cases gs with
    | nil => rw [write_round at_]
    | cons g gs => rw [write_take at_]
  | taken is gs =>
    cases is with
    | nil => rw [write_turn at_]
    | cons j is =>
      cases opens with
      | false => rw [write_skip at_]
      | true =>
        have other : i ≠ j := by
          rintro rfl
          exact idle (.inr (.inl (by rw [at_]; exact List.mem_cons_self)))
        rw [write_open at_]
        exact Function.update_of_ne other ..
  | writing j k is gs =>
    have other : i ≠ j := by
      rintro rfl
      exact idle (.inr (.inr (by rw [at_]; rfl)))
    cases byte : (s.snap (p.slot j)).val[k]? with
    | some b =>
      rw [write_put at_ byte]
      exact Function.update_of_ne other ..
    | none => rw [write_close at_ byte]

/-- The file being written is as long as the writer says. -/
def Progress (s : Cache p β) : Prop :=
  ∀ i k is gs, s.writer = .writing i k is gs →
    k ≤ p.size (p.slot i) ∧ ∃ bs, s.files i = some bs ∧ bs.length = k

private theorem progress_write (progress : Progress s) (opens : Bool) :
    Progress (write s opens) := by
  intro j n js hs now
  cases at_ : s.writer with
  | look gs =>
    cases gs with
    | nil => rw [write_round at_] at now; cases now
    | cons g gs => rw [write_take at_] at now; cases now
  | taken is gs =>
    cases is with
    | nil => rw [write_turn at_] at now; cases now
    | cons i is =>
      cases opens with
      | false => rw [write_skip at_] at now; cases now
      | true =>
        rw [write_open at_] at now ⊢
        cases now
        exact ⟨Nat.zero_le _, [], Function.update_self .., rfl⟩
  | writing i k is gs =>
    obtain ⟨-, bs, held, length⟩ := progress i k is gs at_
    cases byte : (s.snap (p.slot i)).val[k]? with
    | none => rw [write_close at_ byte] at now; cases now
    | some b =>
      rw [write_put at_ byte] at now ⊢
      cases now
      have inside : k < (s.snap (p.slot j)).val.length := (List.getElem?_eq_some_iff.mp byte).1
      rw [(s.snap (p.slot j)).property] at inside
      refine ⟨inside, bs ++ [b], ?_, by rw [List.length_append, length]; rfl⟩
      exact (Function.update_self ..).trans (by rw [held, Option.map_some])

end Write

variable [DecidableEq ι] [DecidableEq σ] {p : Plan ι σ} {s : Cache p β} {i : ι}

def step (s : Cache p β) : Event p β → Cache p β
  | .store i v => store s i v
  | .write opens => write s opens

/-- Files open. -/
def Opens (_ : Cache p β) : Event p β → Prop
  | .store _ _ => True
  | .write opens => opens = true

/-- No snapshot changes one that is being written. -/
def Calm (s : Cache p β) : Event p β → Prop
  | .store i v =>
    ∀ j, s.writer.file = some j → p.slot i = p.slot j → v.val = (s.snap (p.slot j)).val
  | .write _ => True

private theorem progress_step (progress : Progress s) (e : Event p β) :
    Progress (step s e) := by
  cases e with
  | store i v => exact progress
  | write opens => exact progress_write progress opens

/-- A job is on its way: not taken yet, its file not open, or as far written as the writer is. -/
def Coming (s : Cache p β) (i : ι) : Prop :=
  s.pending i = true ∨ i ∈ s.writer.waiting ∨
    ∃ k is gs, s.writer = .writing i k is gs ∧
      s.files i = some ((s.snap (p.slot i)).val.take k)

/-- The last snapshot a job was given is there as long as the job is due, and it is on its way or
on file. -/
def Settled (s : Cache p β) (i : ι) : Prop :=
  ∀ v, s.last i = some v →
    (Due s i → (s.snap (p.slot i)).val = v.val) ∧ (Coming s i ∨ s.files i = some v.val)

/-- No snapshot for another job changes the one of a job that is due. -/
def Steady (i : ι) (s : Cache p β) : Event p β → Prop
  | .store j v => j ≠ i → p.slot j = p.slot i → Due s i → v.val = (s.snap (p.slot i)).val
  | .write _ => True

private theorem settled_store {j : ι} {v : Image p β (p.slot j)} (settled : Settled s i)
    (steady : Steady i s (.store j v)) : Settled (store s j v) i := by
  intro w given
  by_cases same : j = i
  · subst same
    rw [store_last_self] at given
    cases given
    exact ⟨fun _ => store_snap_of_slot rfl v, .inl (.inl (Function.update_self ..))⟩
  · have other : i ≠ j := Ne.symm same
    rw [store_last_of_ne other] at given
    obtain ⟨value, there⟩ := settled w given
    have kept : Due s i → ((store s j v).snap (p.slot i)).val = (s.snap (p.slot i)).val := by
      intro due
      by_cases shared : p.slot j = p.slot i
      · rw [store_snap_of_slot shared]
        exact steady same shared due
      · rw [store_snap_of_ne (Ne.symm shared)]
    refine ⟨fun due => ?_, there.imp_left ?_⟩
    · have before : Due s i := by
        rw [Due, store_pending_of_ne other] at due
        exact due
      exact (kept before).trans (value before)
    · rintro (pending | waiting | ⟨k, is, gs, now, part⟩)
      · exact .inl ((store_pending_of_ne other v).trans pending)
      · exact .inr (.inl waiting)
      · have before : Due s i := .inr (.inr (by rw [now]; rfl))
        exact .inr (.inr ⟨k, is, gs, now, by rw [kept before]; exact part⟩)

omit [DecidableEq σ] in
private theorem settled_write (progress : Progress s) (settled : Settled s i) :
    Settled (write s true) i := by
  intro v given
  rw [(write_frame s true).2.2] at given
  obtain ⟨value, there⟩ := settled v given
  refine ⟨fun due => ?_, ?_⟩
  · rw [(write_frame s true).2.1]
    exact value (due_write due)
  cases at_ : s.writer with
  | look gs =>
    cases gs with
    | nil =>
      rw [write_round at_]
      simpa [Coming, Writer.waiting, at_] using there
    | cons g gs =>
      rw [write_take at_]
      rcases there with (pending | waiting | ⟨k, is, hs, now, -⟩) | done
      · by_cases inside : i ∈ g
        · exact .inl (.inr (.inl (List.mem_filter.mpr ⟨inside, pending⟩)))
        · exact .inl (.inl ((if_neg inside).trans pending))
      · rw [at_] at waiting
        cases waiting
      · rw [at_] at now
        cases now
      · exact .inr done
  | taken is gs =>
    cases is with
    | nil =>
      rw [write_turn at_]
      simpa [Coming, Writer.waiting, at_] using there
    | cons j is =>
      rw [write_open at_]
      by_cases same : i = j
      · subst same
        exact .inl (.inr (.inr ⟨0, is, gs, rfl, Function.update_self ..⟩))
      · rcases there with (pending | waiting | ⟨k, js, hs, now, -⟩) | done
        · exact .inl (.inl pending)
        · rw [at_] at waiting
          exact .inl (.inr (.inl ((List.mem_cons.mp waiting).resolve_left same)))
        · rw [at_] at now
          cases now
        · exact .inr ((Function.update_of_ne same ..).trans done)
  | writing j k is gs =>
    obtain ⟨-, bs, held, length⟩ := progress j k is gs at_
    cases byte : (s.snap (p.slot j)).val[k]? with
    | some b =>
      rw [write_put at_ byte]
      rcases there with (pending | waiting | ⟨n, js, hs, now, part⟩) | done
      · exact .inl (.inl pending)
      · rw [at_] at waiting
        exact .inl (.inr (.inl waiting))
      · rw [at_] at now
        cases now
        refine .inl (.inr (.inr ⟨k + 1, is, gs, rfl, (Function.update_self ..).trans ?_⟩))
        rw [part, Option.map_some, List.take_add_one, byte, Option.toList_some]
      · have other : i ≠ j := by
          -- a file that is whole has no byte left to write
          rintro rfl
          obtain ⟨inside, -⟩ := List.getElem?_eq_some_iff.mp byte
          obtain rfl : bs = v.val := Option.some.inj (held.symm.trans done)
          rw [(s.snap (p.slot i)).property, ← v.property] at inside
          omega
        exact .inr ((Function.update_of_ne other ..).trans done)
    | none =>
      rw [write_close at_ byte]
      rcases there with (pending | waiting | ⟨n, js, hs, now, part⟩) | done
      · exact .inl (.inl pending)
      · rw [at_] at waiting
        exact .inl (.inr (.inl waiting))
      · rw [at_] at now
        cases now
        have due : Due s i := .inr (.inr (by rw [at_]; rfl))
        rw [List.take_of_length_le (List.getElem?_eq_none_iff.mp byte), value due] at part
        exact .inr part
      · exact .inr done

/-- A cache before the first snapshot. -/
structure Fresh (s : Cache p β) : Prop where
  writer : s.writer = .look p.groups
  pending : ∀ i, s.pending i = false
  stored : ∀ a, s.stored a = []
  last : ∀ i, s.last i = none

omit [DecidableEq ι] [DecidableEq σ] in
theorem Fresh.progress (fresh : Fresh s) : Progress s := by
  intro i k is gs now
  rw [fresh.writer] at now
  cases now

omit [DecidableEq ι] [DecidableEq σ] in
private theorem Fresh.not_due (fresh : Fresh s) (i : ι) : ¬ Due s i := by
  rw [Due, fresh.pending, fresh.writer]
  simp [Writer.waiting, Writer.file]

theorem settled_run {es : List (Event p β)} (fresh : Fresh s) (opens : Along step Opens s es)
    (steady : Along step (Steady i) s es) : Settled (run step s es) i := by
  have both : Progress (run step s es) ∧ Settled (run step s es) i := by
    refine invariant_run (I := fun t => Progress t ∧ Settled t i) ?_ ?_
      (Along.and opens steady)
    · rintro t e kept ⟨open_, steady⟩
      refine ⟨progress_step kept.1 e, ?_⟩
      cases e with
      | store j v => exact settled_store kept.2 steady
      | write o =>
        obtain rfl : o = true := open_
        exact settled_write kept.1 kept.2
    · refine ⟨fresh.progress, fun v given => ?_⟩
      rw [fresh.last] at given
      cases given
  exact both.2

/-- The steps that the jobs of a group take when all of them are pending. -/
def Plan.jobsCost (p : Plan ι σ) (is : List ι) : Nat := (is.map fun i => p.size (p.slot i) + 2).sum

def Plan.roundCost (p : Plan ι σ) (groups : List (List ι)) : Nat :=
  (groups.map fun g => p.jobsCost g + 2).sum

def Writer.left (p : Plan ι σ) : Writer ι → Nat
  | .look gs => p.roundCost gs
  | .taken is gs => p.jobsCost is + 1 + p.roundCost gs
  | .writing i k is gs => (p.size (p.slot i) - k) + 1 + (p.jobsCost is + 1 + p.roundCost gs)

def Writer.rest : Writer ι → List (List ι)
  | .look gs => gs
  | .taken _ gs => gs
  | .writing _ _ _ gs => gs

omit [DecidableEq ι] [DecidableEq σ] in
private theorem jobsCost_filter (q : ι → Bool) (g : List ι) :
    p.jobsCost (g.filter q) ≤ p.jobsCost g := by
  induction g with
  | nil => exact Nat.le_refl _
  | cons i g ih =>
    rw [List.filter_cons, Plan.jobsCost, Plan.jobsCost, List.map_cons, List.sum_cons]
    split
    · rw [List.map_cons, List.sum_cons]
      exact Nat.add_le_add_left ih _
    · exact Nat.le_trans ih (Nat.le_add_left _ _)

omit [DecidableEq σ] in
private theorem left_write (going : s.writer ≠ .look []) :
    (write s true).writer.left p < s.writer.left p := by
  cases at_ : s.writer with
  | look gs =>
    cases gs with
    | nil => exact absurd at_ going
    | cons g gs =>
      rw [write_take at_]
      have fewer := jobsCost_filter (p := p) s.pending g
      simp only [Writer.left, Plan.roundCost, List.map_cons, List.sum_cons]
      omega
  | taken is gs =>
    cases is with
    | nil =>
      rw [write_turn at_]
      simp [Writer.left]
    | cons i is =>
      rw [write_open at_]
      simp only [Writer.left, Plan.jobsCost, List.map_cons, List.sum_cons]
      omega
  | writing i k is gs =>
    cases byte : (s.snap (p.slot i)).val[k]? with
    | some b =>
      have inside : k < (s.snap (p.slot i)).val.length := (List.getElem?_eq_some_iff.mp byte).1
      rw [(s.snap (p.slot i)).property] at inside
      rw [write_put at_ byte]
      simp only [Writer.left]
      omega
    | none =>
      rw [write_close at_ byte]
      simp only [Writer.left]
      omega

def ticks (n : Nat) : List (Event p β) := List.replicate n (.write true)

theorem run_ticks_add (s : Cache p β) (m n : Nat) :
    run step s (ticks (m + n)) = run step (run step s (ticks m)) (ticks n) := by
  rw [ticks, List.replicate_add, run_append, ticks, ticks]

private theorem reach_end (s : Cache p β) :
    ∃ m ≤ s.writer.left p, (run step s (ticks m)).writer = .look [] := by
  induction bound : s.writer.left p using Nat.strongRecOn generalizing s with
  | ind n ih =>
    by_cases going : s.writer = .look []
    · exact ⟨0, Nat.zero_le _, going⟩
    · have less := left_write going
      rw [bound] at less
      obtain ⟨m, few, there⟩ := ih _ less (write s true) rfl
      exact ⟨m + 1, by omega, there⟩

/-- The groups that the writer has been at in this round have nothing pending. -/
def Cleared (s : Cache p β) : Prop :=
  ∃ past, p.groups = past ++ s.writer.rest ∧ ∀ g ∈ past, ∀ i ∈ g, s.pending i = false

omit [DecidableEq σ] in
private theorem cleared_write (cleared : Cleared s) : Cleared (write s true) := by
  obtain ⟨past, split, none_⟩ := cleared
  cases at_ : s.writer with
  | look gs =>
    rw [at_] at split
    cases gs with
    | nil =>
      rw [write_round at_]
      exact ⟨[], rfl, fun g member => absurd member List.not_mem_nil⟩
    | cons g gs =>
      rw [write_take at_]
      refine ⟨past ++ [g], by rw [List.append_assoc]; exact split, fun h member i inside => ?_⟩
      by_cases here : i ∈ g
      · exact if_pos here
      · refine (if_neg here).trans ?_
        rcases List.mem_append.mp member with old | new
        · exact none_ h old i inside
        · rw [List.mem_singleton.mp new] at inside
          exact absurd inside here
  | taken is gs =>
    rw [at_] at split
    cases is with
    | nil => rw [write_turn at_]; exact ⟨past, split, none_⟩
    | cons i is => rw [write_open at_]; exact ⟨past, split, none_⟩
  | writing i k is gs =>
    rw [at_] at split
    cases byte : (s.snap (p.slot i)).val[k]? with
    | some b => rw [write_put at_ byte]; exact ⟨past, split, none_⟩
    | none => rw [write_close at_ byte]; exact ⟨past, split, none_⟩

private theorem done_ticks (cover : ∀ i, ∃ g ∈ p.groups, i ∈ g)
    (within : s.writer.left p ≤ p.roundCost p.groups) {n : Nat}
    (enough : 2 * p.roundCost p.groups + 1 ≤ n) (i : ι) : ¬ Due (run step s (ticks n)) i := by
  obtain ⟨m, few, first⟩ := reach_end s
  set t := run step s (ticks m) with t_
  have round : (write t true).writer = .look p.groups := by rw [write_round first]
  obtain ⟨l, fewer, second⟩ := reach_end (write t true)
  rw [round] at fewer
  set u := run step (write t true) (ticks l) with u_
  have kept : Cleared u := by
    refine invariant_run (P := fun _ e => e = .write true) (I := Cleared) ?_ ?_ ?_
    · rintro v e cleared rfl
      exact cleared_write cleared
    · exact ⟨[], by rw [round]; rfl, fun g member => absurd member List.not_mem_nil⟩
    · exact along_of_forall (fun e member => (List.mem_replicate.mp member).2) _
  have idle : ¬ Due u i := by
    obtain ⟨past, split, none_⟩ := kept
    rw [second, Writer.rest, List.append_nil] at split
    obtain ⟨g, member, inside⟩ := cover i
    rw [Due, none_ g (split ▸ member) i inside, second]
    simp [Writer.waiting, Writer.file]
  obtain ⟨r, rfl⟩ : ∃ r, n = m + (1 + (l + r)) := by
    have short : l ≤ p.roundCost p.groups := fewer
    exact ⟨n - m - 1 - l, by omega⟩
  rw [run_ticks_add, run_ticks_add, run_ticks_add]
  change ¬ Due (run step u (ticks r)) i
  refine invariant_run (P := fun _ e => e = .write true) (I := fun t => ¬ Due t i) ?_ idle ?_
  · rintro v e idle rfl
    exact fun due => idle (due_write due)
  · exact along_of_forall (fun e member => (List.mem_replicate.mp member).2) _

private theorem left_step (within : s.writer.left p ≤ p.roundCost p.groups) (e : Event p β)
    (opens : Opens s e) : (step s e).writer.left p ≤ p.roundCost p.groups := by
  cases e with
  | store i v => exact within
  | write o =>
    obtain rfl : o = true := opens
    by_cases going : s.writer = .look []
    · rw [step, write_round going]
      exact Nat.le_refl _
    · exact Nat.le_trans (Nat.le_of_lt (left_write going)) within

section Drained

variable {es : List (Event p β)} (fresh : Fresh s) (cover : ∀ i, ∃ g ∈ p.groups, i ∈ g)
  (opens : Along step Opens s es) {n : Nat} (enough : 2 * p.roundCost p.groups + 1 ≤ n)

include fresh cover opens enough

theorem idle_after (i : ι) : ¬ Due (run step s (es ++ ticks n)) i := by
  rw [run_append]
  refine done_ticks cover ?_ enough i
  refine invariant_run (fun t e => left_step (s := t) (e := e)) ?_ opens
  rw [fresh.writer]
  exact Nat.le_refl _

/-- Where every file opens, two rounds after the last snapshot a job's file is the last snapshot it
was given. -/
theorem drained (steady : Along step (Steady i) s es) {v : Image p β (p.slot i)}
    (given : (run step s (es ++ ticks n)).last i = some v) :
    (run step s (es ++ ticks n)).files i = some v.val := by
  have settled : Settled (run step s (es ++ ticks n)) i := by
    have only : ∀ e ∈ ticks (p := p) (β := β) n, e = .write true := fun e member =>
      (List.mem_replicate.mp member).2
    refine settled_run fresh ((along_append ..).mpr ⟨opens, ?_⟩)
      ((along_append ..).mpr ⟨steady, ?_⟩)
    · exact (along_of_forall only _).mono fun t e tick => by rw [tick]; rfl
    · exact (along_of_forall only _).mono fun t e tick => by rw [tick]; trivial
  refine ((settled v given).2).resolve_left fun coming => ?_
  refine idle_after fresh cover opens enough i ?_
  exact coming.imp_right (Or.imp_right fun ⟨k, is, gs, now, _⟩ => by rw [now]; rfl)

end Drained

/-- What is to be written has been stored. -/
def Named (s : Cache p β) : Prop :=
  ∀ i, Due s i → (s.snap (p.slot i)).val ∈ s.stored (p.slot i)

private theorem named_store (named : Named s) (j : ι) (v : Image p β (p.slot j)) :
    Named (store s j v) := by
  intro i due
  by_cases shared : p.slot j = p.slot i
  · rw [store_snap_of_slot shared, store_stored_of_slot shared]
    exact List.mem_cons_self
  · have other : i ≠ j := by
      rintro rfl
      exact shared rfl
    rw [store_snap_of_ne (Ne.symm shared), store_stored_of_ne (Ne.symm shared)]
    rw [Due, store_pending_of_ne other] at due
    exact named i due

omit [DecidableEq σ] in
private theorem named_write (named : Named s) (opens : Bool) : Named (write s opens) := by
  intro i due
  rw [(write_frame s opens).1, (write_frame s opens).2.1]
  exact named i (due_write due)

/-- What a job was last given is among the snapshots stored. -/
def Given (s : Cache p β) : Prop :=
  ∀ i v, s.last i = some v → v.val ∈ s.stored (p.slot i)

private theorem given_store (given : Given s) (j : ι) (v : Image p β (p.slot j)) :
    Given (store s j v) := by
  intro i w held
  by_cases same : i = j
  · subst same
    rw [store_last_self] at held
    cases held
    rw [store_stored_of_slot rfl]
    exact List.mem_cons_self
  · rw [store_last_of_ne same] at held
    exact stored_store v (p.slot i) (given i w held)

omit [DecidableEq σ] in
private theorem given_write (given : Given s) (opens : Bool) : Given (write s opens) := by
  intro i v held
  rw [(write_frame s opens).2.2] at held
  rw [(write_frame s opens).1]
  exact given i v held

/-- A job without a snapshot is not due, and its file is as it began. -/
def Untouched (start : ι → Option (List β)) (s : Cache p β) : Prop :=
  ∀ i, s.last i = none → ¬ Due s i ∧ s.files i = start i

variable {start : ι → Option (List β)}

private theorem untouched_store (untouched : Untouched start s) (j : ι) (v : Image p β (p.slot j)) :
    Untouched start (store s j v) := by
  intro i none_
  have other : i ≠ j := by
    rintro rfl
    rw [store_last_self] at none_
    cases none_
  rw [store_last_of_ne other] at none_
  rw [Due, store_pending_of_ne other]
  exact untouched i none_

omit [DecidableEq σ] in
private theorem untouched_write (untouched : Untouched start s) (opens : Bool) :
    Untouched start (write s opens) := by
  intro i none_
  rw [(write_frame s opens).2.2] at none_
  obtain ⟨idle, held⟩ := untouched i none_
  exact ⟨fun due => idle (due_write due), (write_files_of_not_due idle opens).trans held⟩

/-- Every byte of a file not as it began is one that a snapshot of it has there, and there are as
many of them as the snapshots have, but in the file being written. -/
def Mixed (start : ι → Option (List β)) (s : Cache p β) : Prop :=
  ∀ i, (s.writer.file ≠ some i ∧ s.files i = start i) ∨
    ∃ bs : List β, s.files i = some bs ∧
      (s.writer.file ≠ some i → bs.length = p.size (p.slot i)) ∧
      ∀ (k : Nat) (b : β), bs[k]? = some b →
        ∃ v : List β, v ∈ s.stored (p.slot i) ∧ v[k]? = some b

private theorem mixed_store (mixed : Mixed start s) (i : ι) (v : Image p β (p.slot i)) :
    Mixed start (store s i v) := by
  intro j
  rcases mixed j with untouched | ⟨bs, held, whole, bytes⟩
  · exact .inl untouched
  · refine .inr ⟨bs, held, whole, fun k b at_ => ?_⟩
    obtain ⟨w, stored, byte⟩ := bytes k b at_
    exact ⟨w, stored_store v _ stored, byte⟩

omit [DecidableEq σ] in
private theorem mixed_write (progress : Progress s) (named : Named s) (mixed : Mixed start s)
    (opens : Bool) : Mixed start (write s opens) := by
  intro j
  have before := mixed j
  cases at_ : s.writer with
  | look gs =>
    rw [at_] at before
    cases gs with
    | nil => rw [write_round at_]; exact before
    | cons g gs => rw [write_take at_]; exact before
  | taken is gs =>
    rw [at_] at before
    cases is with
    | nil => rw [write_turn at_]; exact before
    | cons i is =>
      cases opens with
      | false => rw [write_skip at_]; exact before
      | true =>
        rw [write_open at_]
        by_cases same : j = i
        · subst same
          refine .inr ⟨[], Function.update_self .., fun closed => absurd rfl closed, ?_⟩
          intro k b none_
          cases none_
        · have others : Writer.file (.writing i 0 is gs) ≠ some j := fun open_ =>
            same (Option.some.inj open_).symm
          dsimp only
          rw [Function.update_of_ne same]
          refine before.imp (fun untouched => ⟨others, untouched.2⟩) ?_
          rintro ⟨bs, held, whole, bytes⟩
          exact ⟨bs, held, fun _ => whole (Option.some_ne_none _).symm, bytes⟩
  | writing i k is gs =>
    rw [at_] at before
    obtain ⟨within, cs, written, length⟩ := progress i k is gs at_
    have stored : (s.snap (p.slot i)).val ∈ s.stored (p.slot i) :=
      named i (.inr (.inr (by rw [at_]; rfl)))
    cases byte : (s.snap (p.slot i)).val[k]? with
    | some b =>
      rw [write_put at_ byte]
      by_cases same : j = i
      · subst same
        rcases before with ⟨closed, -⟩ | ⟨bs, held, -, bytes⟩
        · exact absurd rfl closed
        · obtain rfl : bs = cs := Option.some.inj (held.symm.trans written)
          refine .inr ⟨bs ++ [b], ?_, fun closed => absurd rfl closed, ?_⟩
          · exact (Function.update_self ..).trans (by rw [held, Option.map_some])
          · intro n c there
            by_cases old : n < bs.length
            · exact bytes n c (by rwa [List.getElem?_append_left old] at there)
            · obtain rfl : n = k := by
                have inside := (List.getElem?_eq_some_iff.mp there).1
                rw [List.length_append, List.length_singleton] at inside
                omega
              rw [List.getElem?_append_right (by omega), length, Nat.sub_self] at there
              exact ⟨_, stored, byte.trans there⟩
      · dsimp only
        rw [Function.update_of_ne same]
        exact before
    | none =>
      rw [write_close at_ byte]
      rcases before with ⟨closed, untouched⟩ | ⟨bs, held, whole, bytes⟩
      · exact .inl ⟨(Option.some_ne_none _).symm, untouched⟩
      · refine .inr ⟨bs, held, fun _ => ?_, bytes⟩
        by_cases same : j = i
        · subst same
          obtain rfl : bs = cs := Option.some.inj (held.symm.trans written)
          have full := List.getElem?_eq_none_iff.mp byte
          rw [(s.snap (p.slot j)).property] at full
          omega
        · exact whole fun open_ => same (Option.some.inj open_).symm

/-- A file is as it began or holds one snapshot; the one being written holds the start of its own. -/
def Whole (start : ι → Option (List β)) (s : Cache p β) : Prop :=
  ∀ i, (s.writer.file ≠ some i →
      s.files i = start i ∨ ∃ v ∈ s.stored (p.slot i), s.files i = some v) ∧
    ∀ k is gs, s.writer = .writing i k is gs →
      s.files i = some ((s.snap (p.slot i)).val.take k)

private theorem whole_store (whole : Whole start s) {i : ι} {v : Image p β (p.slot i)}
    (calm : Calm s (.store i v)) : Whole start (store s i v) := by
  intro j
  refine ⟨fun closed => ((whole j).1 closed).imp_right ?_, fun k is gs now => ?_⟩
  · rintro ⟨w, stored, held⟩
    exact ⟨w, stored_store v _ stored, held⟩
  · have same : ((store s i v).snap (p.slot j)).val = (s.snap (p.slot j)).val := by
      have open_ : s.writer = .writing j k is gs := now
      by_cases shared : p.slot i = p.slot j
      · rw [store_snap_of_slot shared]
        exact calm j (by rw [open_]; rfl) shared
      · rw [store_snap_of_ne (Ne.symm shared)]
    rw [same]
    exact (whole j).2 k is gs now

omit [DecidableEq σ] in
private theorem whole_write (named : Named s) (whole : Whole start s) (opens : Bool) :
    Whole start (write s opens) := by
  intro j
  obtain ⟨closed_, -⟩ := whole j
  cases at_ : s.writer with
  | look gs =>
    have held := closed_ (by rw [at_]; exact (Option.some_ne_none _).symm)
    cases gs with
    | nil => rw [write_round at_]; exact ⟨fun _ => held, fun k is hs now => by cases now⟩
    | cons g gs => rw [write_take at_]; exact ⟨fun _ => held, fun k is hs now => by cases now⟩
  | taken is gs =>
    have held := closed_ (by rw [at_]; exact (Option.some_ne_none _).symm)
    cases is with
    | nil => rw [write_turn at_]; exact ⟨fun _ => held, fun k is hs now => by cases now⟩
    | cons i is =>
      cases opens with
      | false => rw [write_skip at_]; exact ⟨fun _ => held, fun k is hs now => by cases now⟩
      | true =>
        rw [write_open at_]
        refine ⟨fun closed => ?_, fun k js hs now => ?_⟩
        · have other : j ≠ i := fun same => closed (congrArg some same.symm)
          dsimp only
          rw [Function.update_of_ne other]
          exact held
        · cases now
          exact Function.update_self ..
  | writing i k is gs =>
    have part := (whole i).2 k is gs at_
    have stored : (s.snap (p.slot i)).val ∈ s.stored (p.slot i) :=
      named i (.inr (.inr (by rw [at_]; rfl)))
    have before : j ≠ i → s.files j = start j ∨ ∃ v ∈ s.stored (p.slot j), s.files j = some v :=
      fun other => closed_ (by rw [at_]; exact fun same => other (Option.some.inj same).symm)
    cases byte : (s.snap (p.slot i)).val[k]? with
    | some b =>
      rw [write_put at_ byte]
      refine ⟨fun closed => ?_, fun n js hs now => ?_⟩
      · have other : j ≠ i := fun same => closed (congrArg some same.symm)
        dsimp only
        rw [Function.update_of_ne other]
        exact before other
      · cases now
        refine (Function.update_self ..).trans ?_
        rw [part, Option.map_some, List.take_add_one, byte, Option.toList_some]
    | none =>
      rw [write_close at_ byte]
      refine ⟨fun _ => ?_, fun n js hs now => by cases now⟩
      by_cases same : j = i
      · subst same
        rw [List.take_of_length_le (List.getElem?_eq_none_iff.mp byte)] at part
        exact .inr ⟨_, stored, part⟩
      · exact before same

/-- Where no snapshot changes one that is being written, at most one file, the one being written,
is not a snapshot of its own. -/
theorem whole_run {es : List (Event p β)} (fresh : Fresh s) (calm : Along step Calm s es) :
    Whole s.files (run step s es) := by
  have both : Named (run step s es) ∧ Whole s.files (run step s es) := by
    refine invariant_run (I := fun t => Named t ∧ Whole s.files t) ?_ ?_ calm
    · rintro t e ⟨named, whole⟩ guard
      cases e with
      | store i v => exact ⟨named_store named i v, whole_store whole guard⟩
      | write opens => exact ⟨named_write named opens, whole_write named whole opens⟩
    · refine ⟨fun i due => absurd due (fresh.not_due i), fun i => ⟨fun _ => .inl rfl, ?_⟩⟩
      intro k is gs now
      rw [fresh.writer] at now
      cases now
  exact both.2

/-- What holds at every moment, no matter what opens and what is replaced while it is written. -/
structure Kept (start : ι → Option (List β)) (s : Cache p β) : Prop where
  progress : Progress s
  named : Named s
  given : Given s
  untouched : Untouched start s
  mixed : Mixed start s

theorem kept_run (fresh : Fresh s) (es : List (Event p β)) : Kept s.files (run step s es) := by
  refine always_run (I := Kept s.files) ?_ ?_ es
  · rintro t e ⟨progress, named, given, untouched, mixed⟩
    cases e with
    | store i v =>
      exact ⟨progress, named_store named i v, given_store given i v,
        untouched_store untouched i v, mixed_store mixed i v⟩
    | write opens =>
      exact ⟨progress_write progress opens, named_write named opens, given_write given opens,
        untouched_write untouched opens, mixed_write progress named mixed opens⟩
  · refine ⟨fresh.progress, fun i due => absurd due (fresh.not_due i), fun i v held => ?_,
      fun i _ => ⟨fresh.not_due i, rfl⟩, fun i => .inl ⟨?_, rfl⟩⟩
    · rw [fresh.last] at held
      cases held
    · rw [fresh.writer]
      exact (Option.some_ne_none _).symm

end SV300.Library.WriteBehind
