/- SV300/Library/Runs
   digest: Runs of a deterministic machine and the invariant rule for runs whose steps are guarded. -/

import Mathlib.Data.List.Basic

set_option autoImplicit false
set_option relaxedAutoImplicit false

namespace SV300.Library.Runs

variable {σ ε : Type*}

/-- The state a machine is in after a list of events. -/
def run (step : σ → ε → σ) (s : σ) (es : List ε) : σ := es.foldl step s

/-- Every event of the run satisfies a condition in the state it meets. -/
def Along (step : σ → ε → σ) (P : σ → ε → Prop) : σ → List ε → Prop
  | _, [] => True
  | s, e :: es => P s e ∧ Along step P (step s e) es

@[simp] theorem run_nil (step : σ → ε → σ) (s : σ) : run step s [] = s := rfl

@[simp] theorem run_cons (step : σ → ε → σ) (s : σ) (e : ε) (es : List ε) :
    run step s (e :: es) = run step (step s e) es := rfl

theorem run_append (step : σ → ε → σ) (s : σ) (es fs : List ε) :
    run step s (es ++ fs) = run step (run step s es) fs :=
  List.foldl_append

@[simp] theorem along_nil (step : σ → ε → σ) (P : σ → ε → Prop) (s : σ) :
    Along step P s [] :=
  trivial

@[simp] theorem along_cons (step : σ → ε → σ) (P : σ → ε → Prop) (s : σ) (e : ε)
    (es : List ε) : Along step P s (e :: es) ↔ P s e ∧ Along step P (step s e) es :=
  Iff.rfl

/-- A guard that can be decided can be decided along a run. -/
instance alongDecidable (step : σ → ε → σ) (P : σ → ε → Prop) [∀ s e, Decidable (P s e)] :
    ∀ s es, Decidable (Along step P s es)
  | _, [] => .isTrue trivial
  | s, e :: es =>
    haveI := alongDecidable step P (step s e) es
    inferInstanceAs (Decidable (P s e ∧ Along step P (step s e) es))

theorem along_append (step : σ → ε → σ) (P : σ → ε → Prop) (s : σ) (es fs : List ε) :
    Along step P s (es ++ fs) ↔ Along step P s es ∧ Along step P (run step s es) fs := by
  induction es generalizing s with
  | nil => simp
  | cons e es ih => simp [ih, and_assoc]

theorem Along.and {step : σ → ε → σ} {P Q : σ → ε → Prop} {s : σ} {es : List ε}
    (p : Along step P s es) (q : Along step Q s es) : Along step (fun s e => P s e ∧ Q s e) s es := by
  induction es generalizing s with
  | nil => trivial
  | cons e es ih => exact ⟨⟨p.1, q.1⟩, ih p.2 q.2⟩

theorem Along.mono {step : σ → ε → σ} {P Q : σ → ε → Prop} {s : σ} {es : List ε}
    (p : Along step P s es) (weaker : ∀ s e, P s e → Q s e) : Along step Q s es := by
  induction es generalizing s with
  | nil => trivial
  | cons e es ih => exact ⟨weaker s e p.1, ih p.2⟩

theorem along_of_forall {step : σ → ε → σ} {P : ε → Prop} {es : List ε} (all : ∀ e ∈ es, P e)
    (s : σ) : Along step (fun _ e => P e) s es := by
  induction es generalizing s with
  | nil => trivial
  | cons e es ih =>
    exact ⟨all e List.mem_cons_self, ih (fun e member => all e (List.mem_cons_of_mem _ member)) _⟩

theorem invariant_run {step : σ → ε → σ} {P : σ → ε → Prop} {I : σ → Prop}
    (keeps : ∀ s e, I s → P s e → I (step s e)) {s : σ} {es : List ε}
    (start : I s) (guarded : Along step P s es) : I (run step s es) := by
  induction es generalizing s with
  | nil => exact start
  | cons e es ih => exact ih (keeps s e start guarded.1) guarded.2

theorem always_run {step : σ → ε → σ} {I : σ → Prop} (keeps : ∀ s e, I s → I (step s e)) {s : σ}
    (start : I s) (es : List ε) : I (run step s es) := by
  induction es generalizing s with
  | nil => exact start
  | cons e es ih => exact ih (keeps s e start)

theorem along_of_invariant {step : σ → ε → σ} {P Q : σ → ε → Prop} {I : σ → Prop}
    (keeps : ∀ s e, I s → P s e → I (step s e)) (gives : ∀ s e, I s → P s e → Q s e)
    {s : σ} {es : List ε} (start : I s) (guarded : Along step P s es) : Along step Q s es := by
  induction es generalizing s with
  | nil => trivial
  | cons e es ih =>
    exact ⟨gives s e start guarded.1, ih (keeps s e start guarded.1) guarded.2⟩

theorem along_always {step : σ → ε → σ} {Q : σ → ε → Prop} {I : σ → Prop}
    (keeps : ∀ s e, I s → I (step s e)) (gives : ∀ s e, I s → Q s e) {s : σ} (start : I s)
    (es : List ε) : Along step Q s es := by
  induction es generalizing s with
  | nil => trivial
  | cons e es ih => exact ⟨gives s e start, ih (keeps s e start)⟩

/-- Two conditions that agree under an invariant which they guard hold along the same runs. -/
theorem along_guarded_iff {step : σ → ε → σ} {P Q : σ → ε → Prop} {I : σ → Prop}
    (keeps : ∀ s e, I s → Q s e → I (step s e)) (same : ∀ s e, I s → (P s e ↔ Q s e)) {s : σ}
    (start : I s) (es : List ε) : Along step P s es ↔ Along step Q s es := by
  induction es generalizing s with
  | nil => exact Iff.rfl
  | cons e es ih =>
    rw [along_cons, along_cons, same s e start]
    exact and_congr_right fun guarded => ih (keeps s e start guarded)

/-- Two conditions that agree under an invariant of every step hold along the same runs. -/
theorem along_iff {step : σ → ε → σ} {P Q : σ → ε → Prop} {I : σ → Prop}
    (keeps : ∀ s e, I s → I (step s e)) (same : ∀ s e, I s → (P s e ↔ Q s e)) {s : σ}
    (start : I s) (es : List ε) : Along step P s es ↔ Along step Q s es :=
  along_guarded_iff (fun s e inv _ => keeps s e inv) same start es

theorem run_other {α : Type*} {step : σ → ε → σ} {g : σ → α} {i : ε}
    (other : ∀ s e, e ≠ i → g (step s e) = g s) {es : List ε} (absent : i ∉ es) (s : σ) :
    g (run step s es) = g s := by
  induction es generalizing s with
  | nil => rfl
  | cons e es ih =>
    have head : e ≠ i := fun same => absent (same ▸ List.mem_cons_self)
    rw [run_cons, ih (fun later => absent (List.mem_cons_of_mem e later)), other s e head]

/-- A part of the state that one event alone touches, in a run in which it occurs once. -/
theorem run_own {α : Type*} {step : σ → ε → σ} {g : σ → α} {f : α → α} {i : ε}
    (other : ∀ s e, e ≠ i → g (step s e) = g s) (own : ∀ s, g (step s i) = f (g s))
    {es : List ε} (once : es.Nodup) (member : i ∈ es) (s : σ) :
    g (run step s es) = f (g s) := by
  induction es generalizing s with
  | nil => cases member
  | cons e es ih =>
    obtain ⟨absent, rest⟩ := List.nodup_cons.mp once
    rw [run_cons]
    rcases List.mem_cons.mp member with rfl | later
    · rw [run_other other absent, own]
    · have apart : e ≠ i := fun same => absent (same ▸ later)
      rw [ih rest later, other s e apart]

/-- How many events of the run satisfy a condition in the state they meet. -/
def tally (step : σ → ε → σ) (P : σ → ε → Prop) [∀ s e, Decidable (P s e)] : σ → List ε → Nat
  | _, [] => 0
  | s, e :: es => (if P s e then 1 else 0) + tally step P (step s e) es

theorem tally_append (step : σ → ε → σ) (P : σ → ε → Prop) [∀ s e, Decidable (P s e)] (s : σ)
    (es fs : List ε) :
    tally step P s (es ++ fs) = tally step P s es + tally step P (run step s es) fs := by
  induction es generalizing s with
  | nil => exact (Nat.zero_add _).symm
  | cons e es ih => rw [List.cons_append, tally, tally, ih, run_cons, Nat.add_assoc]

/-- A relation kept by every guarded step relates the ends of a guarded run and its abstract run. -/
theorem simulation_run {τ : Type*} {step : σ → ε → σ} {astep : τ → ε → τ} {P : σ → ε → Prop}
    {R : σ → τ → Prop} (keeps : ∀ s a e, R s a → P s e → R (step s e) (astep a e))
    {s : σ} {a : τ} {es : List ε} (start : R s a) (guarded : Along step P s es) :
    R (run step s es) (run astep a es) := by
  induction es generalizing s a with
  | nil => exact start
  | cons e es ih => exact ih (keeps s a e start guarded.1) guarded.2

end SV300.Library.Runs
