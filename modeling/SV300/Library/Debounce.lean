/- SV300/Library/Debounce
   digest: A wrapping debounce counter shared by two directions: when each change is debounced, and
   when a constant input settles. -/

import Mathlib.Data.Nat.Basic
import SV300.Library.Runs

set_option autoImplicit false
set_option relaxedAutoImplicit false

namespace SV300.Library.Debounce

open SV300.Library.Runs

/-- The conditions of one evaluation: for becoming active and for becoming inactive. -/
structure Reading where
  set : Bool
  clear : Bool
  deriving DecidableEq

/-- The status that is debounced and the counter of both directions. -/
structure Timer where
  active : Bool
  count : Nat
  deriving DecidableEq

/-- The condition that would change the status holds. -/
def Timer.pending (t : Timer) (r : Reading) : Bool := if t.active then r.clear else r.set

variable (W d : Nat)

/-- One evaluation: the counter before it is compared with the delay, and wraps at `W`. -/
def step (t : Timer) (r : Reading) : Timer :=
  if t.pending r then ⟨if d ≤ t.count then !t.active else t.active, (t.count + 1) % W⟩
  else ⟨t.active, 0⟩

def Changes (t : Timer) (r : Reading) : Prop := (step W d t r).active ≠ t.active

instance (t : Timer) (r : Reading) : Decidable (Changes W d t r) :=
  inferInstanceAs (Decidable (_ ≠ _))

variable {W d}

theorem changes_iff {t : Timer} {r : Reading} :
    Changes W d t r ↔ t.pending r = true ∧ d ≤ t.count := by
  unfold Changes step
  by_cases pending : t.pending r
  · by_cases due : d ≤ t.count
    · simp [pending, due]
    · simp [pending, due]
  · simp [pending]

private theorem step_of_idle {t : Timer} {r : Reading} (idle : ¬ t.pending r = true) :
    step W d t r = ⟨t.active, 0⟩ :=
  if_neg idle

private theorem step_of_early {t : Timer} {r : Reading} (pending : t.pending r = true)
    (early : t.count < d) : step W d t r = ⟨t.active, (t.count + 1) % W⟩ := by
  rw [step, if_pos pending, if_neg (Nat.not_le.mpr early)]

private theorem step_of_due {t : Timer} {r : Reading} (pending : t.pending r = true)
    (due : d ≤ t.count) :
    step W d t r = ⟨!t.active, (t.count + 1) % W⟩ := by
  rw [step, if_pos pending, if_pos due]

/-- How many evaluations in a row the awaited condition has held since the last change, and whether
the last evaluation was that change. -/
structure Watch where
  held : Nat
  fresh : Bool
  deriving DecidableEq

variable (W d) in
def observe (t : Timer) (r : Reading) (w : Watch) : Watch :=
  if Changes W d t r then ⟨0, true⟩
  else if t.pending r then ⟨w.held + 1, false⟩ else ⟨0, false⟩

variable (W d) in
/-- The status changes in just those evaluations in which its condition holds, and has held in the
`d` evaluations before. -/
def Debounced (t : Timer) (w : Watch) (r : Reading) : Prop :=
  Changes W d t r ↔ t.pending r = true ∧ d ≤ w.held

variable (W d) in
/-- A delay that the counter cannot reach is not waited out, and a shorter one, unless it is zero
or the last below the wrap, is not met right after a change. -/
def Undisturbed (t : Timer) (w : Watch) (r : Reading) : Prop :=
  t.pending r = true → (W ≤ d → w.held < d) ∧ (0 < d → d + 1 < W → w.fresh = false)

variable (W d) in
/-- How the counter stands to what an observer counts. -/
structure Tracked (t : Timer) (w : Watch) : Prop where
  fresh : w.fresh = true → d < W ∧ w.held = 0 ∧ (0 < d → t.count = (d + 1) % W)
  steady : w.fresh = false → t.count = w.held % W ∧ (d < W → w.held ≤ d)

private theorem Tracked.held_mod {t : Timer} {w : Watch} (tracked : Tracked W d t w)
    (steady : w.fresh = false) (reaches : d < W) : t.count = w.held := by
  obtain ⟨count, bound⟩ := tracked.steady steady
  rw [count, Nat.mod_eq_of_lt (Nat.lt_of_le_of_lt (bound reaches) reaches)]

theorem debounced_iff (pos : 0 < W) {t : Timer} {w : Watch} (tracked : Tracked W d t w)
    (r : Reading) : Debounced W d t w r ↔ Undisturbed W d t w r := by
  unfold Debounced Undisturbed
  rw [changes_iff]
  by_cases pending : t.pending r = true
  · simp only [pending, true_and, true_imp_iff]
    cases recent : w.fresh with
    | false =>
      by_cases reaches : d < W
      · rw [tracked.held_mod recent reaches]
        exact iff_of_true Iff.rfl ⟨fun far => by omega, fun _ _ => rfl⟩
      · obtain ⟨count, _⟩ := tracked.steady recent
        have wrapped := Nat.mod_lt w.held pos
        constructor
        · intro law
          refine ⟨fun _ => ?_, fun _ _ => rfl⟩
          by_contra reached
          have := law.mpr (Nat.not_lt.mp reached)
          omega
        · rintro ⟨short, _⟩
          have := short (by omega)
          omega
    | true =>
      obtain ⟨reaches, held, count⟩ := tracked.fresh recent
      rw [held]
      constructor
      · intro law
        refine ⟨fun far => by omega, fun some inner => ?_⟩
        have next := count some
        rw [Nat.mod_eq_of_lt inner] at next
        have := law.mp (by omega)
        omega
      · rintro ⟨_, calm⟩
        by_cases zero : d = 0
        · omega
        · have last : d + 1 = W := by
            by_contra other
            have := calm (by omega) (by omega)
            cases this
          have next := count (by omega)
          rw [last, Nat.mod_self] at next
          omega
  · simp [pending]

theorem tracked_step (pos : 0 < W) {t : Timer} {w : Watch} (tracked : Tracked W d t w)
    {r : Reading} (calm : Undisturbed W d t w r) :
    Tracked W d (step W d t r) (observe W d t r w) := by
  by_cases pending : t.pending r = true
  swap
  · have idle : ¬ Changes W d t r := fun changes => pending (changes_iff.mp changes).1
    rw [step_of_idle pending, observe, if_neg idle, if_neg pending]
    exact ⟨nofun, fun _ => ⟨(Nat.zero_mod W).symm, fun _ => Nat.zero_le d⟩⟩
  obtain ⟨short, spaced⟩ := calm pending
  by_cases due : d ≤ t.count
  · rw [step_of_due pending due, observe, if_pos (changes_iff.mpr ⟨pending, due⟩)]
    refine ⟨fun _ => ?_, nofun⟩
    cases recent : w.fresh with
    | false =>
      by_cases reaches : d < W
      · refine ⟨reaches, rfl, fun _ => ?_⟩
        have count := tracked.held_mod recent reaches
        have bound := (tracked.steady recent).2 reaches
        have exact : t.count = d := by omega
        rw [exact]
      · have count := (tracked.steady recent).1
        have wrapped := Nat.mod_lt w.held pos
        omega
    | true =>
      obtain ⟨reaches, _, count⟩ := tracked.fresh recent
      refine ⟨reaches, rfl, fun some => ?_⟩
      -- the counter has wrapped to zero, or the evaluation would be disturbed
      have next := count some
      by_cases inner : d + 1 < W
      · rw [spaced some inner] at recent
        cases recent
      · have last : d + 1 = W := by omega
        rw [last, Nat.mod_self] at next
        omega
  · have early : ¬ Changes W d t r := fun changes => due (changes_iff.mp changes).2
    rw [step_of_early pending (Nat.not_le.mp due), observe, if_neg early, if_pos pending]
    refine ⟨nofun, fun _ => ?_⟩
    dsimp only
    cases recent : w.fresh with
    | false =>
      obtain ⟨count, bound⟩ := tracked.steady recent
      refine ⟨by rw [count, Nat.mod_add_mod], fun reaches => ?_⟩
      have same := tracked.held_mod recent reaches
      omega
    | true =>
      obtain ⟨reaches, held, count⟩ := tracked.fresh recent
      have next := count (by omega)
      have wrapped : d + 1 = W := by
        by_contra other
        rw [Nat.mod_eq_of_lt (by omega)] at next
        omega
      rw [wrapped, Nat.mod_self] at next
      rw [next, held]
      exact ⟨rfl, fun _ => by omega⟩

private theorem count_step_lt (pos : 0 < W) (t : Timer) (r : Reading) :
    (step W d t r).count < W := by
  unfold step
  split
  · exact Nat.mod_lt _ pos
  · exact pos

/-- How often a constant input changes the status in `n` evaluations. -/
abbrev changes (W d : Nat) (t : Timer) (r : Reading) (n : Nat) : Nat :=
  tally (step W d) (Changes W d) t (List.replicate n r)

theorem changes_succ (t : Timer) (r : Reading) (n : Nat) :
    changes W d t r (n + 1) =
      (if Changes W d t r then 1 else 0) + changes W d (step W d t r) r n :=
  rfl

private theorem changes_add (t : Timer) (r : Reading) (m n : Nat) : changes W d t r (m + n) =
    changes W d t r m + changes W d (run (step W d) t (List.replicate m r)) r n := by
  rw [changes, List.replicate_add, tally_append]

private theorem changes_unreached (pos : 0 < W) (far : W ≤ d) {t : Timer} (inside : t.count < W)
    (r : Reading) (n : Nat) : changes W d t r n = 0 := by
  induction n generalizing t with
  | zero => rfl
  | succ n ih =>
    have quiet : ¬ Changes W d t r := by
      rw [changes_iff]
      rintro ⟨_, due⟩
      omega
    rw [changes_succ, if_neg quiet, ih (count_step_lt pos t r)]

private theorem changes_settled {t : Timer} {r : Reading} (idle : ¬ t.pending r = true) (n : Nat) :
    changes W d t r n = 0 := by
  induction n generalizing t with
  | zero => rfl
  | succ n ih =>
    have quiet : ¬ Changes W d t r := fun changes => idle (changes_iff.mp changes).1
    have still : ¬ (Timer.mk t.active 0).pending r = true := idle
    rw [changes_succ, if_neg quiet, step_of_idle idle, ih still]

private theorem changes_exclusive {r : Reading} (exclusive : ¬ (r.set = true ∧ r.clear = true))
    (t : Timer) (n : Nat) : changes W d t r n ≤ 1 := by
  induction n generalizing t with
  | zero => exact Nat.zero_le 1
  | succ n ih =>
    rw [changes_succ]
    by_cases changed : Changes W d t r
    · obtain ⟨pending, due⟩ := changes_iff.mp changed
      have idle : ¬ (step W d t r).pending r = true := by
        rw [step_of_due pending due]
        intro again
        apply exclusive
        unfold Timer.pending at pending again
        cases active : t.active <;> simp_all
      rw [if_pos changed, changes_settled idle]
    · rw [if_neg changed, Nat.zero_add]
      exact ih _

private theorem changes_met (reaches : d < W) {r : Reading} (both : r.set = true ∧ r.clear = true)
    (t : Timer) : ∃ n, 1 ≤ changes W d t r n := by
  have pending : ∀ t : Timer, t.pending r = true := by
    intro t
    unfold Timer.pending
    split
    · exact both.2
    · exact both.1
  by_cases due : d ≤ t.count
  · refine ⟨1, ?_⟩
    rw [changes_succ, if_pos (changes_iff.mpr ⟨pending t, due⟩)]
    exact Nat.le_add_right 1 _
  · obtain ⟨n, more⟩ := changes_met reaches both (step W d t r)
    refine ⟨n + 1, ?_⟩
    rw [changes_succ]
    exact Nat.le_trans more (Nat.le_add_left _ _)
  termination_by d - t.count
  decreasing_by
    rw [step_of_early (pending t) (by omega)]
    dsimp only
    rw [Nat.mod_eq_of_lt (by omega)]
    omega

/-- A constant input changes the status at most once exactly if the delay is beyond the counter or
the two conditions exclude each other. -/
theorem settles_iff (pos : 0 < W) {t : Timer} (inside : t.count < W) (r : Reading) :
    (∀ n, changes W d t r n ≤ 1) ↔ W ≤ d ∨ ¬ (r.set = true ∧ r.clear = true) := by
  constructor
  · intro settles
    by_contra unsettled
    obtain ⟨near, conditions⟩ := not_or.mp unsettled
    have reaches := Nat.not_le.mp near
    have both := not_not.mp conditions
    obtain ⟨m, first⟩ := changes_met reaches both t
    obtain ⟨n, second⟩ := changes_met reaches both (run (step W d) t (List.replicate m r))
    have twice := settles (m + n)
    rw [changes_add] at twice
    omega
  · rintro (far | exclusive) n
    · rw [changes_unreached pos far inside]
      exact Nat.zero_le 1
    · exact changes_exclusive exclusive t n

end SV300.Library.Debounce
