/- SV300/Library/Mailbox
   digest: A command cell that its consumer tests, clears and only then serves, in any order of steps. -/

import SV300.Library.Runs

set_option autoImplicit false
set_option relaxedAutoImplicit false

namespace SV300.Library.Mailbox

open SV300.Library.Runs

variable {α : Type*}

/-- Where the consumer is: it has tested nothing, it has found a command and not cleared the cell,
or it has cleared the cell and not begun the service. -/
inductive Phase (α : Type*)
  | idle
  | found (v : α)
  | taken (v : α)
  deriving DecidableEq

/-- The cell and its consumer, with the command no service has begun for since it was given, the
number of commands given and of services begun. -/
@[ext] structure Box (α : Type*) where
  cell : α
  phase : Phase α
  owed : Option α
  told : Nat
  begun : Nat

/-- Somebody stores a value, or the consumer makes its next step, a test being for one command. -/
inductive Event (α : Type*)
  | post (x : α)
  | scan (v : α)

section Machine

variable [DecidableEq α] (known : α → Bool) (down : α)

/-- A value that is no command is stored like one, and withdraws what it overwrites. -/
def post (b : Box α) (x : α) : Box α :=
  { b with
    cell := x
    owed := if known x then some x else none
    told := b.told + (known x).toNat }

def scan (b : Box α) (v : α) : Box α :=
  match b.phase with
  | .idle => if known v ∧ b.cell = v then { b with phase := .found v } else b
  | .found w => { b with cell := down, phase := .taken w }
  | .taken w =>
    { b with
      phase := .idle
      owed := if b.owed = some w then none else b.owed
      begun := b.begun + 1 }

def step (b : Box α) : Event α → Box α
  | .post x => post known b x
  | .scan v => scan known down b v

/-- Between the test and the clearing no other command is stored. -/
def Steady (b : Box α) : Event α → Prop
  | .post x => known x = true → ∀ w, b.phase = .found w → x = w
  | .scan _ => True

end Machine

/-- The command found last is the one owed; one cleared is served, or another is in the cell. -/
def Pending (b : Box α) : Phase α → Prop
  | .idle => ∀ v ∈ b.owed, b.cell = v
  | .found w => ∀ v ∈ b.owed, v = w
  | .taken w => ∀ v ∈ b.owed, b.cell = v ∨ v = w

/-- Each service under way answers a command of its own. -/
def claim (known : α → Bool) (b : Box α) : Phase α → Nat
  | .idle => (known b.cell).toNat
  | .found _ => 1
  | .taken _ => 1 + (known b.cell).toNat

variable {known : α → Bool} {down : α}

private theorem pending_post {b : Box α} (x : α) (steady : Steady known b (.post x)) :
    Pending (post known b x) (post known b x).phase := by
  have stored : ∀ v ∈ (post known b x).owed, v = x ∧ known x = true := by
    intro v member
    cases given : known x with
    | false => simp [post, given] at member
    | true => exact ⟨by simpa [post, given] using member.symm, rfl⟩
  change Pending (post known b x) b.phase
  cases at_ : b.phase with
  | idle => exact fun v member => (stored v member).1.symm
  | found w =>
    intro v member
    obtain ⟨rfl, given⟩ := stored v member
    exact steady given w at_
  | taken w => exact fun v member => .inl (stored v member).1.symm

variable [DecidableEq α]

private theorem pending_scan {b : Box α} (v : α) (holds : Pending b b.phase) :
    Pending (scan known down b v) (scan known down b v).phase := by
  unfold scan
  cases at_ : b.phase with
  | idle =>
    rw [at_] at holds
    dsimp only
    split
    · next found =>
      intro u member
      exact (holds u member).symm.trans found.2
    · rw [at_]
      exact holds
  | found w =>
    rw [at_] at holds
    exact fun u member => .inr (holds u member)
  | taken w =>
    rw [at_] at holds
    intro u member
    dsimp only at member
    split at member
    · cases member
    · next other =>
      exact (holds u member).resolve_right fun same => other (same ▸ member)

theorem pending_run {b : Box α} (start : Pending b b.phase) {es : List (Event α)}
    (steady : Along (step known down) (Steady known) b es) :
    Pending (run (step known down) b es) (run (step known down) b es).phase := by
  refine invariant_run (I := fun b => Pending b b.phase) ?_ start steady
  intro b e holds quiet
  cases e with
  | post x => exact pending_post x quiet
  | scan v => exact pending_scan v holds

theorem steady_of_one {c : α} (one : ∀ x, known x = true → x = c) {b : Box α} {es : List (Event α)}
    (start : ∀ w, b.phase = .found w → known w = true) :
    Along (step known down) (Steady known) b es := by
  refine along_always (I := fun b : Box α => ∀ w, b.phase = .found w → known w = true) ?_ ?_ start es
  · intro b e found w now
    cases e with
    | post x => exact found w now
    | scan v =>
      change (scan known down b v).phase = .found w at now
      unfold scan at now
      cases at_ : b.phase with
      | idle =>
        rw [at_] at now
        dsimp only at now
        split at now
        · next both => cases now; exact both.1
        · rw [at_] at now
          cases now
      | found u =>
        rw [at_] at now
        cases now
      | taken u =>
        rw [at_] at now
        cases now
  · intro b e found
    cases e with
    | post x =>
      intro given w now
      exact (one x given).trans (one w (found w now)).symm
    | scan v => trivial

private theorem claim_step (unknown : known down = false) {b : Box α} (e : Event α)
    (room : b.begun + claim known b b.phase ≤ b.told) :
    (step known down b e).begun + claim known (step known down b e) (step known down b e).phase ≤
      (step known down b e).told := by
  have bit : (known b.cell).toNat ≤ 1 := Bool.toNat_le (known b.cell)
  cases e with
  | post x =>
    change b.begun + claim known (post known b x) b.phase ≤ b.told + (known x).toNat
    cases at_ : b.phase <;> rw [at_] at room <;> simp only [claim, post] at room ⊢ <;> omega
  | scan v =>
    change (scan known down b v).begun + claim known (scan known down b v)
      (scan known down b v).phase ≤ (scan known down b v).told
    unfold scan
    cases at_ : b.phase with
    | idle =>
      rw [at_] at room
      dsimp only
      split
      · next found =>
        have given : known b.cell = true := found.2 ▸ found.1
        simpa [claim, given] using room
      · rw [at_]
        exact room
    | found w =>
      rw [at_] at room
      simpa [claim, unknown] using room
    | taken w =>
      rw [at_] at room
      simp only [claim] at room ⊢
      omega

theorem claim_run (unknown : known down = false) {b : Box α}
    (room : b.begun + claim known b b.phase ≤ b.told) (es : List (Event α)) :
    (run (step known down) b es).begun ≤ (run (step known down) b es).told := by
  have holds := always_run (I := fun b : Box α => b.begun + claim known b b.phase ≤ b.told)
    (fun b e room => claim_step unknown e room) room es
  exact Nat.le_trans (Nat.le_add_right _ _) holds

/-- A test for a command, with what follows if it is found. -/
def visit (v : α) : List (Event α) := List.replicate 3 (.scan v)

theorem run_visit {b : Box α} (idle : b.phase = .idle) (v : α) :
    run (step known down) b (visit v) =
      if known v ∧ b.cell = v then
        { b with
          cell := down
          owed := if b.owed = some v then none else b.owed
          begun := b.begun + 1 }
      else b := by
  by_cases found : known v ∧ b.cell = v
  · rw [if_pos found]
    ext : 1 <;> simp [visit, List.replicate, step, scan, idle, found]
  · rw [if_neg found]
    simp [visit, List.replicate, step, scan, idle, found]

variable (down) in
private theorem visit_owed {b : Box α} (idle : b.phase = .idle) (holds : Pending b .idle)
    (given : ∀ u ∈ b.owed, known u = true) (v : α) :
    let c := run (step known down) b (visit v)
    c.phase = .idle ∧ Pending c .idle ∧ ∀ u ∈ c.owed, u ≠ v ∧ u ∈ b.owed := by
  dsimp only
  rw [run_visit idle]
  split
  · next found =>
    have none : (if b.owed = some v then none else b.owed) = none := by
      split
      · rfl
      · next other =>
        exact Option.eq_none_iff_forall_ne_some.mpr fun u owed =>
          other (owed.trans (congrArg some ((holds u owed).symm.trans found.2)))
    refine ⟨idle, fun u member => ?_, fun u member => ?_⟩ <;>
    · dsimp only at member
      rw [none] at member
      cases member
  · next missed =>
    refine ⟨idle, holds, fun u member => ⟨?_, member⟩⟩
    rintro rfl
    exact missed ⟨given u member, holds u member⟩

variable (down) in
theorem round_owed {b : Box α} (idle : b.phase = .idle) (holds : Pending b .idle)
    (given : ∀ u ∈ b.owed, known u = true) (vs : List α) :
    ∀ u ∈ (run (step known down) b (vs.flatMap visit)).owed, u ∉ vs ∧ u ∈ b.owed := by
  induction vs generalizing b with
  | nil => exact fun u member => ⟨List.not_mem_nil, member⟩
  | cons v vs ih =>
    obtain ⟨rest, keeps, less⟩ := visit_owed down idle holds given v
    rw [List.flatMap_cons, run_append]
    intro u member
    obtain ⟨later, left⟩ := ih rest keeps (fun u member => given u (less u member).2) u member
    obtain ⟨other, owed⟩ := less u left
    exact ⟨fun inside => (List.mem_cons.mp inside).elim other later, owed⟩

variable (down) in
theorem known_run {b : Box α} (start : ∀ u ∈ b.owed, known u = true) (es : List (Event α)) :
    ∀ u ∈ (run (step known down) b es).owed, known u = true := by
  refine always_run (I := fun b : Box α => ∀ u ∈ b.owed, known u = true) ?_ start es
  intro b e holds u member
  cases e with
  | post x =>
    cases given : known x with
    | false => simp [step, post, given] at member
    | true =>
      have same : x = u := by simpa [step, post, given] using member
      exact same ▸ given
  | scan v =>
    refine holds u ?_
    change u ∈ (scan known down b v).owed at member
    unfold scan at member
    cases at_ : b.phase with
    | idle =>
      rw [at_] at member
      dsimp only at member
      split at member <;> exact member
    | found w =>
      rw [at_] at member
      exact member
    | taken w =>
      rw [at_] at member
      dsimp only at member
      split at member
      · cases member
      · exact member

/-- Where every step of a machine is a step of one of its boxes or leaves that box alone, the box
goes through the events that concern it. -/
theorem run_box {σ ε : Type*} {next : σ → ε → σ} (box : σ → Box α) {part : ε → Option (Event α)}
    (splits : ∀ s e, box (next s e) = (part e).elim (box s) (step known down (box s))) (s : σ)
    (es : List ε) : box (run next s es) = run (step known down) (box s) (es.filterMap part) := by
  induction es generalizing s with
  | nil => rfl
  | cons e es ih =>
    rw [run_cons, ih, splits]
    cases concerns : part e with
    | none => rw [List.filterMap_cons_none concerns, Option.elim_none]
    | some f => rw [List.filterMap_cons_some concerns, Option.elim_some, run_cons]

end SV300.Library.Mailbox
