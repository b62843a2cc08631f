/- SV300/Alarm/Delay
   digest: When every change of an alarm has waited out its delay. -/

import SV300.Alarm.Proc

set_option autoImplicit false
set_option relaxedAutoImplicit false

namespace SV300.Alarm.Delay

open SV300.Alarm.Proc
open SV300.Library.Debounce
open SV300.Library.Runs

/-- A channel, and what an observer of one alarm has counted. -/
structure Watched where
  m : Meter
  w : Watch

/-- A call, and the observer's count: of evaluations in a row, since the last change of the status,
at which the condition for the next change held. -/
def watch (i : Fin 32) (s : Watched) (x : Sample) : Watched where
  m := call s.m x
  w := match reading i s.m x with
    | none => s.w
    | some r =>
      if Turns i s.m x then ⟨0, true⟩
      else if (timer i s.m).pending r then ⟨s.w.held + 1, false⟩
      else ⟨0, false⟩

/-- The status changes at an evaluation at which the condition holds and has held at the `delay`
evaluations before, and in no other call. -/
def Delayed (i : Fin 32) (s : Watched) (x : Sample) : Prop :=
  match reading i s.m x with
  | none => ¬ Turns i s.m x
  | some r =>
    Turns i s.m x ↔ (timer i s.m).pending r = true ∧ s.m.almSet.delay.toNat ≤ s.w.held

instance (i : Fin 32) (s : Watched) (x : Sample) : Decidable (Delayed i s x) := by
  unfold Delayed
  split <;> infer_instance

/-- A condition does not outlast a delay above 255, and for a delay from 1 to 254 it does not hold
at the evaluation that follows a change of the status. -/
def Calm (i : Fin 32) (s : Watched) (x : Sample) : Prop :=
  match reading i s.m x with
  | none => True
  | some r => (timer i s.m).pending r = true →
    (256 ≤ s.m.almSet.delay.toNat → s.w.held < s.m.almSet.delay.toNat) ∧
      (0 < s.m.almSet.delay.toNat → s.m.almSet.delay.toNat + 1 < 256 → s.w.fresh = false)

def Inv (i : Fin 32) (s : Watched) : Prop :=
  Tracked 256 s.m.almSet.delay.toNat (timer i s.m) s.w

private theorem delayed_iff {i : Fin 32} {s : Watched} (inv : Inv i s) (x : Sample) :
    Delayed i s x ↔ Calm i s x := by
  unfold Delayed Calm
  cases read : reading i s.m x with
  | none => exact iff_of_true (not_turns_of_skipped read) trivial
  | some r =>
    dsimp only
    rw [turns_iff read]
    exact debounced_iff (by decide) inv r

private theorem inv_watch {i : Fin 32} {s : Watched} {x : Sample} (inv : Inv i s)
    (calm : Calm i s x) :
    Inv i (watch i s x) := by
  unfold Inv watch
  rw [call_almSet, timer_call]
  unfold Calm at calm
  cases read : reading i s.m x with
  | none => exact inv
  | some r =>
    rw [read] at calm
    simp only [turns_iff read]
    exact tracked_step (by decide) inv calm

private theorem inv_boot (i : Fin 32) (almSet : AlarmDef) (palm : AlarmStatus)
    (log : Log.Reload.State) :
    Inv i ⟨boot almSet palm log, ⟨0, false⟩⟩ :=
  ⟨nofun, fun _ => ⟨rfl, fun _ => Nat.zero_le _⟩⟩

/-- In every run from the boot, with any settings, the changes of an alarm have waited out the delay
exactly as long as its conditions are calm. -/
theorem delayed_iff_calm (i : Fin 32) (almSet : AlarmDef) (palm : AlarmStatus)
    (log : Log.Reload.State) (xs : List Sample) :
    Along (watch i) (Delayed i) ⟨boot almSet palm log, ⟨0, false⟩⟩ xs ↔
      Along (watch i) (Calm i) ⟨boot almSet palm log, ⟨0, false⟩⟩ xs :=
  along_guarded_iff (I := Inv i) (fun _ _ inv calm => inv_watch inv calm)
    (fun _ x inv => delayed_iff inv x) (inv_boot i almSet palm log) xs

/-- One alarm above 100.0 on channel 1, without a dead band. -/
def above (delay : UInt16) : AlarmDef :=
  ⟨delay, fun i => if i = 0 then ⟨1, 1, 0, 0x42c80000⟩ else ⟨0, 0, 0, 0⟩⟩

/-- With a delay of 1, two evaluations at 110.0 raise the alarm and a single one at 90.0 ends it. -/
theorem return_without_delay :
    ¬ Along (watch 0) (Delayed 0) ⟨boot (above 1) clear (Log.Reload.boot 0), ⟨0, false⟩⟩
      (List.replicate 5 (inService 0) ++
        [inService 0x42dc0000, inService 0x42dc0000, inService 0x42b40000]) := by
  decide +kernel

end SV300.Alarm.Delay
