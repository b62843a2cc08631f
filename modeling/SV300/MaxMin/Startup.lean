/- SV300/MaxMin/Startup
   digest: The start-up suppression of the alarms and of the max/min records, and the runs in which
   it does not come back. -/

import SV300.Alarm.Proc
import SV300.MaxMin.Record

set_option autoImplicit false
set_option relaxedAutoImplicit false

namespace SV300.MaxMin.Startup

open SV300.Alarm.Proc (Sample Closed real)
open SV300.Library.Rounded (Value)
open SV300.Library.Runs
open SV300.MaxMin.Record (Reading Call updated)

inductive Event
  | alarmProc (x : Sample)
  | maxMin (f : Call) (r : Reading)

/-- A channel's alarms and records, how often `alarmProc` has been called since the boot, and how
often `maxMinRmsFreq`, which counts for all three max/min functions. -/
structure Sys where
  alarm : Alarm.Proc.Meter
  channel : Record.Channel
  alarmCalls : Nat
  rmsCalls : Nat

def start (m : Alarm.Proc.Meter) (c : Record.Channel) : Sys :=
  ⟨{ m with online2 := 0 }, { c with online3 := 0 }, 0, 0⟩

def step (s : Sys) : Event → Sys
  | .alarmProc x => { s with alarm := Alarm.Proc.call s.alarm x, alarmCalls := s.alarmCalls + 1 }
  | .maxMin .rmsFreq r =>
    { s with channel := Record.move s.channel (.call .rmsFreq r), rmsCalls := s.rmsCalls + 1 }
  | .maxMin .power r => { s with channel := Record.move s.channel (.call .power r) }
  | .maxMin .thd r => { s with channel := Record.move s.channel (.call .thd r) }

/-- The channel is initialised and has a voltage of a line frequency. -/
def InService (x : Sample) : Prop :=
  x.rmsInit ≠ 0 ∧ x.online ≠ 0 ∧ x.zxMonCnt ≠ 0 ∧
    (real x.freq).lt (.finite 47) = false ∧ (Value.finite 63).lt (real x.freq) = false

/-- The alarms after a call that evaluates all of them. -/
def evaluated (m : Alarm.Proc.Meter) (x : Sample) : Alarm.Proc.Meter :=
  Alarm.Proc.finish (run (Alarm.Proc.alarmStep x) ⟨{ m with online2 := m.online2 + 1 }, 0, 0⟩
    (List.finRange 32))

/-- After the first five calls the alarms are evaluated whenever the channel is in service, and the
records are updated, each field of them. -/
def Law (s : Sys) : Event → Prop
  | .alarmProc x => 5 ≤ s.alarmCalls → InService x →
    ¬ Closed s.alarm x ∧ (step s (.alarmProc x)).alarm = evaluated s.alarm x
  | .maxMin f r => 5 ≤ s.rmsCalls →
    updated s.channel (.call f r) = f.fields ∧
      (step s (.maxMin f r)).channel.maxmin = f.fields.foldl (Record.record r) s.channel.maxmin

/-- A call that counts is not one of the first five after a multiple of 65536 calls. -/
def Fresh (s : Sys) : Event → Prop
  | .alarmProc x => 5 ≤ s.alarmCalls → InService x → 5 ≤ s.alarmCalls % 65536
  | .maxMin _ _ => 5 ≤ s.rmsCalls → 5 ≤ s.rmsCalls % 65536

structure Inv (s : Sys) : Prop where
  online2 : s.alarm.online2.toNat = s.alarmCalls % 65536
  online3 : s.channel.online3.toNat = s.rmsCalls % 65536

private theorem inv_start (m : Alarm.Proc.Meter) (c : Record.Channel) : Inv (start m c) :=
  ⟨rfl, rfl⟩

private theorem succ_count {n : UInt16} {k : Nat} (counts : n.toNat = k % 65536) :
    (n + 1).toNat = (k + 1) % 65536 := by
  have one : (1 : UInt16).toNat = 1 := rfl
  rw [UInt16.toNat_add, counts, one, Nat.mod_add_mod]

private theorem call_online2 (m : Alarm.Proc.Meter) (x : Sample) :
    (Alarm.Proc.call m x).online2 = m.online2 + 1 := by
  have keeps : ∀ (p : Alarm.Proc.Pass) i, (Alarm.Proc.alarmStep x p i).m.online2 = p.m.online2 := by
    intro p i
    unfold Alarm.Proc.alarmStep
    dsimp only
    split_ifs
    · rfl
    · rfl
    cases x.src (p.m.almSet.set i).chan <;> rfl
  unfold Alarm.Proc.call Alarm.Proc.alarmProc
  by_cases closed : Closed m x
  · rw [if_pos closed]
  · rw [if_neg closed]
    have begun : (⟨{ m with online2 := m.online2 + 1 }, 0, 0⟩ : Alarm.Proc.Pass).m.online2 =
        m.online2 + 1 := rfl
    have after := always_run (I := fun p : Alarm.Proc.Pass => p.m.online2 = m.online2 + 1)
      (fun p i same => (keeps p i).trans same) begun (List.finRange 32)
    have finished : ∀ p, (Alarm.Proc.finish p).online2 = p.m.online2 := fun _ => rfl
    dsimp only
    rw [finished]
    exact after

private theorem maxMinRmsFreq_online3 (c : Record.Channel) (r : Reading) :
    (Record.maxMinRmsFreq c r).online3 = c.online3 + 1 := by
  unfold Record.maxMinRmsFreq
  split <;> rfl

private theorem inv_step {s : Sys} (inv : Inv s) (e : Event) : Inv (step s e) := by
  cases e with
  | alarmProc x =>
    refine ⟨?_, inv.online3⟩
    change (Alarm.Proc.call s.alarm x).online2.toNat = _
    rw [call_online2]
    exact succ_count inv.online2
  | maxMin f r =>
    cases f with
    | rmsFreq =>
      refine ⟨inv.online2, ?_⟩
      change (Record.maxMinRmsFreq s.channel r).online3.toNat = _
      rw [maxMinRmsFreq_online3]
      exact succ_count inv.online3
    | power =>
      refine ⟨inv.online2, ?_⟩
      change (Record.maxMinPower s.channel r).online3.toNat = _
      unfold Record.maxMinPower
      split <;> exact inv.online3
    | thd =>
      refine ⟨inv.online2, ?_⟩
      change (Record.maxMinTHD s.channel r).online3.toNat = _
      unfold Record.maxMinTHD
      split <;> exact inv.online3

private theorem closed_iff {m : Alarm.Proc.Meter} {x : Sample} (service : InService x) :
    Closed m x ↔ m.online2 < 5 := by
  obtain ⟨rmsInit, online, zxMonCnt, low, high⟩ := service
  simp [Closed, rmsInit, online, zxMonCnt, low, high]

private theorem evaluated_of_not_closed {s : Sys} {x : Sample} (through : ¬ Closed s.alarm x) :
    (step s (.alarmProc x)).alarm = evaluated s.alarm x := by
  change (Alarm.Proc.alarmProc s.alarm x).1 = _
  unfold Alarm.Proc.alarmProc
  rw [if_neg through, evaluated]

private theorem maxmin_of_old {s : Sys} (old : ¬ s.channel.online3 < 5) (f : Call) (r : Reading) :
    (step s (.maxMin f r)).channel.maxmin = f.fields.foldl (Record.record r) s.channel.maxmin := by
  cases f with
  | rmsFreq =>
    change (Record.maxMinRmsFreq s.channel r).maxmin = _
    rw [Record.maxMinRmsFreq, if_neg old]
    rfl
  | power =>
    change (Record.maxMinPower s.channel r).maxmin = _
    rw [Record.maxMinPower, if_neg old]
    rfl
  | thd =>
    change (Record.maxMinTHD s.channel r).maxmin = _
    rw [Record.maxMinTHD, if_neg old]
    rfl

private theorem law_iff {s : Sys} (inv : Inv s) (e : Event) : Law s e ↔ Fresh s e := by
  have five : ∀ n : UInt16, n < 5 ↔ n.toNat < 5 := fun n => UInt16.lt_iff_toNat_lt
  cases e with
  | alarmProc x =>
    refine imp_congr_right fun _ => imp_congr_right fun service => ?_
    have counter : ¬ Closed s.alarm x ↔ 5 ≤ s.alarmCalls % 65536 := by
      rw [closed_iff service, five, inv.online2, Nat.not_lt]
    rw [← counter]
    exact and_iff_left_of_imp evaluated_of_not_closed
  | maxMin f r =>
    refine imp_congr_right fun _ => ?_
    have some : updated s.channel (.call f r) = if s.channel.online3 < 5 then [] else f.fields :=
      rfl
    have fields : f.fields ≠ [] := by cases f <;> decide
    have counter := five s.channel.online3
    rw [inv.online3] at counter
    rw [some]
    by_cases young : s.channel.online3 < 5
    · rw [if_pos young]
      exact iff_of_false (fun both => fields both.1.symm) (Nat.not_le.mpr (counter.mp young))
    · rw [if_neg young]
      exact iff_of_true ⟨rfl, maxmin_of_old young f r⟩
        (Nat.le_of_not_lt fun small => young (counter.mpr small))

/-- The suppression happens only at start-up, in a run of any length, if and only if no call that
counts is one of the first five after a multiple of 65536. -/
theorem startup_only_iff (m : Alarm.Proc.Meter) (c : Record.Channel) (es : List Event) :
    Along step Law (start m c) es ↔ Along step Fresh (start m c) es :=
  along_iff (I := Inv) (fun _ e inv => inv_step inv e) (fun _ e inv => law_iff inv e)
    (inv_start m c) es

theorem alarmCalls_run (s : Sys) (x : Sample) (k : Nat) :
    (run step s (List.replicate k (.alarmProc x))).alarmCalls = s.alarmCalls + k := by
  induction k generalizing s with
  | zero => rfl
  | succ k ih =>
    rw [List.replicate_succ, run_cons, ih, Nat.add_comm k, ← Nat.add_assoc]
    rfl

/-- A channel without alarms and with empty records, at the boot. -/
def bare : Sys :=
  start (Alarm.Proc.boot ⟨0, fun _ => ⟨0, 0, 0, 0⟩⟩ Alarm.Proc.clear (Log.Reload.boot 0))
    ⟨Record.resetMaxMin 0, 0, 0⟩

/-- A channel in service is not evaluated in call 65537. -/
theorem suppressed_again :
    ¬ Along step Law bare (List.replicate 65537 (.alarmProc (Alarm.Proc.inService 0))) := by
  intro along
  have parts : List.replicate 65537 (Event.alarmProc (Alarm.Proc.inService 0)) =
      List.replicate 65536 (.alarmProc (Alarm.Proc.inService 0)) ++
        [.alarmProc (Alarm.Proc.inService 0)] := List.replicate_succ'
  have service : InService (Alarm.Proc.inService 0) := by
    unfold InService Alarm.Proc.inService
    decide +kernel
  rw [parts, along_append] at along
  have begun : Inv bare := inv_start _ _
  have inv := always_run (I := Inv) (fun _ e inv => inv_step inv e) begun
    (List.replicate 65536 (.alarmProc (Alarm.Proc.inService 0)))
  have fresh := (law_iff inv _).mp along.2.1
  have calls := alarmCalls_run bare (Alarm.Proc.inService 0) 65536
  unfold Fresh at fresh
  rw [calls] at fresh
  exact absurd (fresh (by decide) service) (by decide)

end SV300.MaxMin.Startup
