/- SV300/Library/DoubleBuffer
   digest: A two-slot hand-over by toggles is a queue while no put meets an unclaimed value. -/

import Mathlib.Logic.Function.Basic
import Mathlib.Tactic.Common

set_option autoImplicit false
set_option relaxedAutoImplicit false

namespace SV300.Library.DoubleBuffer

/-- Where the reader is: waiting, past its test for a new value, or done with the value. -/
inductive Phase | idle | claimed | used
  deriving DecidableEq, Repr

/-- Two slots; the writer fills slot `w` and the reader empties slot `r`. -/
structure Buffer (α : Type) where
  slot : Bool → α
  w : Bool
  r : Bool
  phase : Phase

variable {α : Type}

def Buffer.put (b : Buffer α) (x : α) : Buffer α :=
  { b with slot := Function.update b.slot b.w x, w := !b.w }

def Buffer.claim (b : Buffer α) : Buffer α :=
  if b.phase = .idle ∧ b.w ≠ b.r then { b with phase := .claimed } else b

def Buffer.use (b : Buffer α) : Buffer α :=
  if b.phase = .claimed then { b with phase := .used } else b

def Buffer.release (b : Buffer α) : Buffer α :=
  if b.phase = .used then { b with r := !b.r, phase := .idle } else b

def Buffer.current (b : Buffer α) : α := b.slot b.r

/-- The values put and not yet used, oldest first, as the toggles tell. -/
def Buffer.queue (b : Buffer α) : List α :=
  match b.phase with
  | .idle => if b.w ≠ b.r then [b.slot b.r] else []
  | .claimed => b.slot b.r :: (if b.w = b.r then [b.slot !b.r] else [])
  | .used => if b.w = b.r then [b.slot !b.r] else []

/-- No value waits for the reader to claim it. -/
def Buffer.Claimed (b : Buffer α) : Prop := b.phase = .idle ↔ b.w = b.r

instance (b : Buffer α) : Decidable b.Claimed := inferInstanceAs (Decidable (_ ↔ _))

theorem length_queue_le (b : Buffer α) : b.queue.length ≤ 2 := by
  unfold Buffer.queue
  split <;> split <;> simp

theorem queue_put {b : Buffer α} (room : b.Claimed) (x : α) : (b.put x).queue = b.queue ++ [x] := by
  rcases b with ⟨slot, w, r, phase⟩
  simp only [Buffer.Claimed] at room
  cases phase <;> cases w <;> cases r <;>
    simp_all [Buffer.put, Buffer.queue]

@[simp] theorem queue_claim (b : Buffer α) : b.claim.queue = b.queue := by
  unfold Buffer.claim
  split
  · rename_i due
    simp [Buffer.queue, due.1, due.2]
  · rfl

theorem queue_use {b : Buffer α} (claimed : b.phase = .claimed) :
    b.queue = b.current :: b.use.queue := by
  simp [Buffer.queue, Buffer.use, Buffer.current, claimed]

@[simp] theorem queue_release (b : Buffer α) : b.release.queue = b.queue := by
  rcases b with ⟨slot, w, r, phase⟩
  cases phase <;> cases w <;> cases r <;> rfl

end SV300.Library.DoubleBuffer
