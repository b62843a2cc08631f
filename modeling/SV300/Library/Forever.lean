/- SV300/Library/Forever
   digest: Endless runs of a machine: invariants, and measures that grow without bound. -/

import Mathlib.Order.Monotone.Basic

set_option autoImplicit false
set_option relaxedAutoImplicit false

namespace SV300.Library.Forever

variable {σ ε : Type*}

/-- The states of a machine on an endless sequence of events. -/
def trail (step : σ → ε → σ) (s : σ) (es : Nat → ε) : Nat → σ
  | 0 => s
  | k + 1 => step (trail step s es k) (es k)

theorem trail_succ (step : σ → ε → σ) (s : σ) (es : Nat → ε) (k : Nat) :
    trail step s es (k + 1) = step (trail step s es k) (es k) := rfl

theorem trail_always {step : σ → ε → σ} {I : σ → Prop} (keeps : ∀ s e, I s → I (step s e)) {s : σ}
    (start : I s) (es : Nat → ε) (k : Nat) : I (trail step s es k) := by
  induction k with
  | zero => exact start
  | succ k ih => exact keeps _ _ ih

theorem from_on {P : Nat → Prop} {k : Nat} (start : P k) (keeps : ∀ m, k ≤ m → P m → P (m + 1))
    {m : Nat} (later : k ≤ m) : P m := by
  induction m, later using Nat.le_induction with
  | base => exact start
  | succ m later ih => exact keeps m later ih

private theorem unbounded {f : Nat → Nat} (never : Monotone f)
    (again : ∀ k, ∃ m ≥ k, f m < f (m + 1)) (b : Nat) : ∃ m, b ≤ f m := by
  induction b with
  | zero => exact ⟨0, Nat.zero_le _⟩
  | succ b ih =>
    obtain ⟨k, reached⟩ := ih
    obtain ⟨m, later, rises⟩ := again k
    have kept : f k ≤ f m := never later
    exact ⟨m + 1, by omega⟩

theorem exceeds {f : Nat → Nat} (never : Monotone f) (again : ∀ k, ∃ m ≥ k, f m < f (m + 1))
    (b k : Nat) : ∃ m ≥ k, b ≤ f m := by
  obtain ⟨m, reached⟩ := unbounded never again b
  exact ⟨max k m, Nat.le_max_left k m, Nat.le_trans reached (never (Nat.le_max_right k m))⟩

end SV300.Library.Forever
