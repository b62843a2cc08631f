/- SV300/Alarm/Chatter
   digest: Which alarms settle while their value stays constant. -/

import SV300.Alarm.Proc

set_option autoImplicit false
set_option relaxedAutoImplicit false

namespace SV300.Alarm.Chatter

open SV300.Alarm.Proc
open SV300.Library.Binary32 (decode)
open SV300.Library.Debounce
open SV300.Library.Nearest
open SV300.Library.Nearest.Format
open SV300.Library.Rounded
open SV300.Library.Runs

/-- An alarm that `alarmProc` looks at. -/
def Monitored (i : Fin 32) (m : Meter) : Prop :=
  ¬ ((m.almSet.set i).chan = 0 ∨ (m.almSet.set i).chan ≥ maxAlarmCh)

/-- The level is negative, there is a dead band, and the value lies in it: beyond the level, and
beyond the level of return, which is on its wrong side. -/
def Inverted (i : Fin 32) (m : Meter) (src : UInt32) : Prop :=
  let s := m.almSet.set i
  let level := real (m.alarm.st i).level
  level.lt (.finite 0) = true ∧ s.dband ≠ 0 ∧ raises (s.cond &&& 1) level (real src) = true ∧
    returns (s.cond &&& 1) level s.dband (real src) = true

private theorem single_top_le : single.top ≤ double.top := by
  have digits : (2 : Rat) ^ single.precision - 1 ≤ 2 ^ double.precision - 1 := by
    norm_num [single, double]
  have power : (2 : Rat) ^ single.greatest ≤ 2 ^ double.greatest :=
    zpow_le_zpow_right₀ (by norm_num) (by decide)
  exact mul_le_mul digits power (power_pos _).le (by norm_num [double])

private theorem Holds.double {x : Rat} (holds : single.Holds x) : double.Holds x :=
  holds.wider (by decide) (by decide)

private theorem top_nonneg : 0 ≤ single.top ∧ 0 ≤ double.top := by
  norm_num [Format.top, single, double]

private theorem bandOf_atLeast {x : Rat} {dband : UInt16} (plain : 0 ≤ x ∨ dband = 0) :
    AtLeast 0 (bandOf (.finite x) dband) := by
  have product : AtLeast 0 ((Value.finite x).mul (.finite dband.toNat)) := by
    rcases plain with sign | empty
    · exact mul_nonneg sign (Nat.cast_nonneg _)
    · rw [empty]
      exact (mul_zero x).symm.le
  have rounded := product.fit (F := single) holds_zero (by rw [abs_zero]; exact top_nonneg.1)
  exact (rounded.div (by norm_num)).fit holds_zero (by rw [abs_zero]; exact top_nonneg.2)

private theorem plain_excludes {x : Rat} (holds : single.Holds x) (small : |x| ≤ single.top)
    {dband : UInt16} (plain : 0 ≤ x ∨ dband = 0) (cond : UInt16) (src : Value) :
    raises cond (.finite x) src = true → ¬ returns cond (.finite x) dband src = true := by
  have band := bandOf_atLeast plain
  have wide : |x| ≤ double.top := small.trans single_top_le
  unfold raises returns returnLevel
  by_cases less : cond = 0
  · simp only [if_pos less]
    exact (((band.add x).fit (Holds.double holds) wide).fit holds small).not_le
  · simp only [if_neg less]
    exact (((band.sub x).fit (Holds.double holds) wide).fit holds small).not_le

private theorem bandOf_infinite (s : Bool) (dband : UInt16) :
    bandOf (.infinite s) dband = .nan ∨ bandOf (.infinite s) dband = .infinite s := by
  have sign : ¬ (dband.toNat : Rat) < 0 := not_lt.mpr (Nat.cast_nonneg _)
  have hundred : ¬ (100 : Rat) < 0 := by norm_num
  unfold bandOf
  by_cases empty : (dband.toNat : Rat) = 0
  · left
    simp [Value.mul, Value.div, Format.fit, empty]
  · right
    simp [Value.mul, Value.div, Format.fit, empty, sign, hundred]

private theorem infinite_excludes (s : Bool) (dband cond : UInt16) (src : Value) :
    raises cond (.infinite s) src = true → ¬ returns cond (.infinite s) dband src = true := by
  unfold raises returns returnLevel
  by_cases less : cond = 0
  · simp only [if_pos less]
    rcases bandOf_infinite s dband with none | infinite
    · simp [none, Value.add, Format.fit, Value.le]
    · cases s <;> cases src <;> simp [infinite, Value.add, Format.fit, Value.le, Value.lt]
  · simp only [if_neg less]
    rcases bandOf_infinite s dband with none | infinite
    · cases src <;> simp [none, Value.add, Value.neg, Format.fit, Value.le]
    · cases s <;> cases src <;> simp [infinite, Value.add, Value.neg, Format.fit, Value.le, Value.lt]

private theorem excludes {level : UInt32} {dband : UInt16}
    (plain : ¬ (real level).lt (.finite 0) = true ∨ dband = 0) (cond : UInt16) (src : Value) :
    raises cond (real level) src = true → ¬ returns cond (real level) dband src = true := by
  cases shape : real level with
  | nan =>
    unfold raises
    split
    · cases src <;> simp [Value.lt]
    · simp [Value.lt]
  | infinite s => exact infinite_excludes s dband cond src
  | finite x =>
    obtain ⟨holds, small⟩ := single_value shape
    apply plain_excludes holds small
    rw [shape] at plain
    exact plain.imp_left fun sign => not_lt.mp fun minus => sign (decide_eq_true minus)

private theorem both_iff (i : Fin 32) (m : Meter) (src : UInt32) :
    ((readingOf i m src).set = true ∧ (readingOf i m src).clear = true) ↔ Inverted i m src := by
  constructor
  · rintro ⟨set, clear⟩
    refine ⟨?_, ?_, set, clear⟩
    · by_contra sign
      exact excludes (.inl sign) _ _ set clear
    · intro empty
      exact excludes (.inr empty) _ _ set clear
  · rintro ⟨_, _, both⟩
    exact both

/-- All calls find one value on the channel of the alarm. -/
def Constant (i : Fin 32) (m : Meter) (src : UInt32) (xs : List Sample) : Prop :=
  ∀ x ∈ xs, x.src (m.almSet.set i).chan = some src

private theorem readingOf_call (i : Fin 32) (m : Meter) (x : Sample) (src : UInt32) :
    readingOf i (call m x) src = readingOf i m src := by
  unfold readingOf
  rw [call_almSet, call_level]

private theorem tally_eq_changes {i : Fin 32} {m : Meter} {src : UInt32} {xs : List Sample}
    (constant : Constant i m src xs) : ∃ n, tally call (Turns i) m xs =
      changes 256 m.almSet.delay.toNat (timer i m) (readingOf i m src) n := by
  induction xs generalizing m with
  | nil => exact ⟨0, rfl⟩
  | cons x xs ih =>
    have later : Constant i (call m x) src xs := by
      intro y member
      rw [call_almSet]
      exact constant y (List.mem_cons_of_mem x member)
    obtain ⟨n, rest⟩ := ih later
    rw [call_almSet, readingOf_call] at rest
    rw [tally, rest]
    cases read : evaluated i m x with
    | none =>
      have skipped : reading i m x = none := by rw [reading, read, Option.map_none]
      refine ⟨n, ?_⟩
      rw [if_neg (not_turns_of_skipped skipped), timer_call, skipped, Nat.zero_add]
    | some found =>
      have value : found = src := by
        unfold evaluated at read
        dsimp only at read
        split at read
        · cases read
        · rw [constant x List.mem_cons_self] at read
          exact (Option.some.inj read).symm
      have conditions : reading i m x = some (readingOf i m src) := by
        rw [reading, read, Option.map_some, value]
      refine ⟨n + 1, ?_⟩
      rw [changes_succ, timer_call, conditions]
      simp only [turns_iff conditions]

private theorem Constant.cons {i : Fin 32} {m : Meter} {src : UInt32} {xs : List Sample}
    (later : Constant i (call m (inService src)) src xs) :
    Constant i m src (inService src :: xs) := by
  intro x member
  rcases List.mem_cons.mp member with rfl | member
  · rfl
  · have found := later x member
    rwa [call_almSet] at found

private theorem evaluated_inService {i : Fin 32} {m : Meter} (monitored : Monitored i m)
    (src : UInt32) :
    evaluated i m (inService src) = if m.online2 < 5 then none else some src := by
  unfold evaluated
  dsimp only
  by_cases early : m.online2 < 5
  · rw [if_pos early, if_pos (.inl ((closed_inService m src).mpr early))]
  · have through : ¬ Closed m (inService src) := fun closed =>
      early ((closed_inService m src).mp closed)
    rw [if_neg early, if_neg (not_or.mpr ⟨through, monitored⟩)]
    rfl

private theorem changes_eq_tally {i : Fin 32} {m : Meter} (monitored : Monitored i m)
    (src : UInt32) :
    ∀ n, ∃ xs, Constant i m src xs ∧ tally call (Turns i) m xs =
      changes 256 m.almSet.delay.toNat (timer i m) (readingOf i m src) n
  | 0 => ⟨[], nofun, rfl⟩
  | n + 1 => by
    have still : Monitored i (call m (inService src)) := by
      unfold Monitored
      rwa [call_almSet]
    have found := evaluated_inService monitored src
    by_cases early : m.online2 < 5
    · -- one of the first five calls, which evaluates nothing
      have skipped : reading i m (inService src) = none := by
        rw [reading, found, if_pos early, Option.map_none]
      obtain ⟨xs, later, rest⟩ := changes_eq_tally still src (n + 1)
      refine ⟨inService src :: xs, later.cons, ?_⟩
      rw [call_almSet, readingOf_call, timer_call, skipped] at rest
      rw [tally, if_neg (not_turns_of_skipped skipped), Nat.zero_add, rest]
    · have conditions : reading i m (inService src) = some (readingOf i m src) := by
        rw [reading, found, if_neg early, Option.map_some]
      obtain ⟨xs, later, rest⟩ := changes_eq_tally still src n
      refine ⟨inService src :: xs, later.cons, ?_⟩
      rw [call_almSet, readingOf_call, timer_call, conditions] at rest
      rw [tally, rest, changes_succ]
      simp only [turns_iff conditions]
  termination_by n => (n, 5 - m.online2.toNat)
  decreasing_by
    · have counted : (call m (inService src)).online2 = m.online2 + 1 := by
        rw [call, alarmProc, if_pos ((closed_inService m src).mpr early)]
      have low : m.online2.toNat < 5 := early
      have next : (m.online2 + 1).toNat = m.online2.toNat + 1 := by
        rw [UInt16.toNat_add]
        exact Nat.mod_eq_of_lt (by change m.online2.toNat + 1 < _; omega)
      apply Prod.Lex.right
      rw [counted, next]
      omega
    · apply Prod.Lex.left
      exact Nat.lt_succ_self n

private theorem tally_unmonitored {i : Fin 32} {m : Meter} (skips : ¬ Monitored i m)
    (xs : List Sample) :
    tally call (Turns i) m xs = 0 := by
  induction xs generalizing m with
  | nil => rfl
  | cons x xs ih =>
    have still : ¬ Monitored i (call m x) := by
      unfold Monitored
      rwa [call_almSet]
    have skipped : reading i m x = none := by
      have unread : evaluated i m x = none := if_pos (.inr (not_not.mp skips))
      rw [reading, unread, Option.map_none]
    rw [tally, if_neg (not_turns_of_skipped skipped), ih still]

/-- From any state, an alarm changes at most once while its value stays constant, however long,
exactly if it is not monitored, its delay is beyond the timer, or the value is not in an inverted
dead band. -/
theorem settles_iff_not_inverted (i : Fin 32) (m : Meter) (src : UInt32) :
    (∀ xs, Constant i m src xs → tally call (Turns i) m xs ≤ 1) ↔
      ¬ Monitored i m ∨ 255 < m.almSet.delay.toNat ∨ ¬ Inverted i m src := by
  by_cases monitored : Monitored i m
  · have settles := settles_iff (W := 256) (d := m.almSet.delay.toNat) (by decide)
      (timer_count_lt i m) (readingOf i m src)
    rw [both_iff] at settles
    rw [or_iff_right (not_not.mpr monitored), ← Nat.succ_le_iff]
    refine Iff.trans ⟨?_, ?_⟩ settles
    · intro all n
      obtain ⟨xs, constant, count⟩ := changes_eq_tally monitored src n
      rw [← count]
      exact all xs constant
    · intro all xs constant
      obtain ⟨n, count⟩ := tally_eq_changes constant
      rw [count]
      exact all n
  · refine iff_of_true (fun xs _ => ?_) (.inl monitored)
    rw [tally_unmonitored monitored]
    exact Nat.zero_le 1

/-- One alarm on channel 1 below -64.0, with a dead band of 50 percent, without a delay. -/
def belowNegative : AlarmDef :=
  ⟨0, fun i => if i = 0 then ⟨1, 0, 50, 0xc2800000⟩ else ⟨0, 0, 0, 0⟩⟩

/-- At a constant -80.0 the alarm comes and goes, with every evaluation. -/
theorem negative_level_chatters : ¬ ∀ xs,
    Constant 0 (boot belowNegative clear (Log.Reload.boot 0)) 0xc2a00000 xs →
      tally call (Turns 0) (boot belowNegative clear (Log.Reload.boot 0)) xs ≤ 1 := by
  intro settles
  have constant : Constant 0 (boot belowNegative clear (Log.Reload.boot 0)) 0xc2a00000
      (List.replicate 9 (inService 0xc2a00000)) := by
    intro x member
    rw [List.eq_of_mem_replicate member]
    rfl
  have repeated : ¬ tally call (Turns 0) (boot belowNegative clear (Log.Reload.boot 0))
      (List.replicate 9 (inService 0xc2a00000)) ≤ 1 := by
    decide +kernel
  exact repeated (settles _ constant)

end SV300.Alarm.Chatter
