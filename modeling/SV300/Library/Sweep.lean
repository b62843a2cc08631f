/- SV300/Library/Sweep
   digest: Fallible steps over consecutive positions, stopped by the first failure. -/

import Mathlib.Data.List.Range

set_option autoImplicit false
set_option relaxedAutoImplicit false

namespace SV300.Library.Sweep

variable {σ α : Type*}

/-- The first `n` results of a partial sequence, if there are that many. -/
def collect (f : Nat → Option α) : Nat → Option (List α)
  | 0 => some []
  | n + 1 => (f 0).bind fun x => (collect (fun i => f (i + 1)) n).map (x :: ·)

theorem collect_eq_some {f : Nat → Option α} {n : Nat} {xs : List α}
    (h : collect f n = some xs) : ∀ i < n, f i = xs[i]? := by
  induction n generalizing f xs with
  | zero => exact fun i lt => absurd lt (Nat.not_lt_zero i)
  | succ n ih =>
      obtain ⟨x, first, rest⟩ := Option.bind_eq_some_iff.mp h
      obtain ⟨ys, more, rfl⟩ := Option.map_eq_some_iff.mp rest
      intro i lt
      cases i with
      | zero => exact first
      | succ i => exact ih more i (Nat.lt_of_succ_lt_succ lt)

theorem length_collect {f : Nat → Option α} {n : Nat} {xs : List α}
    (h : collect f n = some xs) : xs.length = n := by
  induction n generalizing f xs with
  | zero =>
      cases h
      rfl
  | succ n ih =>
      obtain ⟨x, first, rest⟩ := Option.bind_eq_some_iff.mp h
      obtain ⟨ys, more, rfl⟩ := Option.map_eq_some_iff.mp rest
      rw [List.length_cons, ih more]

theorem collect_congr {f g : Nat → Option α} {n : Nat} (same : ∀ i < n, f i = g i) :
    collect f n = collect g n := by
  induction n generalizing f g with
  | zero => rfl
  | succ n ih =>
      rw [collect, collect, same 0 (Nat.succ_pos n),
        ih fun i lt => same (i + 1) (Nat.succ_lt_succ lt)]

theorem collect_total (f : Nat → α) (n : Nat) :
    collect (fun i => some (f i)) n = some ((List.range n).map f) := by
  induction n generalizing f with
  | zero => rfl
  | succ n ih =>
      rw [collect, ih, List.range_succ_eq_map, List.map_cons, List.map_map]
      rfl

theorem collect_none {f : Nat → Option α} {n i : Nat} (lt : i < n) (missing : f i = none) :
    collect f n = none := by
  induction n generalizing f i with
  | zero => exact absurd lt (Nat.not_lt_zero i)
  | succ n ih =>
      cases i with
      | zero => rw [collect, missing, Option.bind_none]
      | succ i =>
          rw [collect, ih (f := fun i => f (i + 1)) (Nat.lt_of_succ_lt_succ lt) missing]
          cases f 0 <;> rfl

variable (step : σ → Nat → σ × Option α)

/-- Steps at `a`, `a + 1`, … up to `n` of them, stopped by the first that fails. -/
def sweep (s : σ) (a : Nat) : Nat → σ × Option (List α)
  | 0 => (s, some [])
  | n + 1 =>
      match (step s a).2 with
      | none => ((step s a).1, none)
      | some x =>
          let rest := sweep (step s a).1 (a + 1) n
          (rest.1, rest.2.map (x :: ·))

/-- The state after `n` steps, whatever they returned. -/
def after (s : σ) (a : Nat) : Nat → σ
  | 0 => s
  | n + 1 => (step (after s a n) (a + n)).1

/-- What the step at `a + i` returns. -/
def result (s : σ) (a i : Nat) : Option α := (step (after step s a i) (a + i)).2

variable (s : σ) (a : Nat)

private theorem after_cons (n : Nat) :
    after step s a (n + 1) = after step (step s a).1 (a + 1) n := by
  induction n with
  | zero => rfl
  | succ n ih => rw [after, ih, after, Nat.succ_add_eq_add_succ]

theorem after_congr {step' : σ → Nat → σ × Option α} {n : Nat}
    (same : ∀ s, ∀ i < n, step s (a + i) = step' s (a + i)) :
    after step s a n = after step' s a n := by
  induction n with
  | zero => rfl
  | succ n ih =>
      rw [after, after, ih fun s i lt => same s i (Nat.lt_succ_of_lt lt),
        same _ n (Nat.lt_succ_self n)]

theorem result_zero : result step s a 0 = (step s a).2 := rfl

private theorem result_cons (i : Nat) :
    result step s a (i + 1) = result step (step s a).1 (a + 1) i := by
  rw [result, result, after_cons, Nat.succ_add_eq_add_succ]

theorem sweep_result (n : Nat) : (sweep step s a n).2 = collect (result step s a) n := by
  induction n generalizing s a with
  | zero => rfl
  | succ n ih =>
      rw [collect, result_zero]
      simp only [result_cons]
      rw [← ih, sweep]
      cases first : (step s a).2 with
      | none => rfl
      | some x => rfl

theorem collect_isSome {f : Nat → Option α} {n : Nat} (ok : ∀ i < n, (f i).isSome) :
    (collect f n).isSome := by
  induction n generalizing f with
  | zero => rfl
  | succ n ih =>
      obtain ⟨x, first⟩ := Option.isSome_iff_exists.mp (ok 0 (Nat.succ_pos n))
      have rest := ih (f := fun i => f (i + 1)) fun i lt => ok (i + 1) (Nat.succ_lt_succ lt)
      rwa [collect, first, Option.bind_some, Option.isSome_map]

theorem sweep_idle {n : Nat} (idle : ∀ p, (step s p).1 = s ∧ (step s p).2.isSome) :
    (sweep step s a n).1 = s ∧ (sweep step s a n).2.isSome := by
  induction n generalizing a with
  | zero => exact ⟨rfl, rfl⟩
  | succ n ih =>
      obtain ⟨x, first⟩ := Option.isSome_iff_exists.mp (idle a).2
      obtain ⟨rest, ok⟩ := ih (a + 1)
      rw [sweep, first, (idle a).1]
      exact ⟨rest, by rwa [Option.isSome_map]⟩

theorem sweep_done {n : Nat} (ok : ∀ i < n, (result step s a i).isSome) :
    (sweep step s a n).1 = after step s a n := by
  induction n generalizing s a with
  | zero => rfl
  | succ n ih =>
      obtain ⟨x, first⟩ := Option.isSome_iff_exists.mp (ok 0 (Nat.succ_pos n))
      rw [result_zero] at first
      rw [sweep, first, after_cons]
      refine ih _ _ fun i lt => ?_
      rw [← result_cons]
      exact ok (i + 1) (Nat.succ_lt_succ lt)

theorem sweep_stopped {n i : Nat} (lt : i < n) (ok : ∀ j < i, (result step s a j).isSome)
    (fails : result step s a i = none) :
    sweep step s a n = (after step s a (i + 1), none) := by
  induction n generalizing s a i with
  | zero => exact absurd lt (Nat.not_lt_zero i)
  | succ n ih =>
      cases i with
      | zero =>
          rw [result_zero] at fails
          rw [sweep, fails]
          rfl
      | succ i =>
          obtain ⟨x, first⟩ := Option.isSome_iff_exists.mp (ok 0 (Nat.succ_pos i))
          rw [result_zero] at first
          have rest := ih (step s a).1 (a + 1) (Nat.lt_of_succ_lt_succ lt)
            (fun j less => by
              rw [← result_cons]
              exact ok (j + 1) (Nat.succ_lt_succ less))
            (by rwa [← result_cons])
          rw [sweep, first, after_cons]
          simp only [rest, Option.map_none]

end SV300.Library.Sweep
