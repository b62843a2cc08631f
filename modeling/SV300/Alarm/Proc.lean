/- SV300/Alarm/Proc
   digest: alarm.c's alarmProc, and the debounced timer that each of its alarms is. -/

import SV300.Library.Debounce
import SV300.Library.Literals
import SV300.Library.Nearest
import SV300.Log.Reload

set_option autoImplicit false
set_option relaxedAutoImplicit false

namespace SV300.Alarm.Proc

open SV300.Library.Binary32 (decode)
open SV300.Library.Debounce
open SV300.Library.Nearest
open SV300.Library.Nearest.Format (value)
open SV300.Library.Rounded
open SV300.Library.Runs
open SV300.Log.Reload (AlarmLog storeAlarmLog fetchAlarm)

abbrev maxAlarmCh : UInt16 := 124

/-- One alarm of `ALARM_DEF`; a float is its bit pattern. -/
structure Setting where
  chan : UInt16
  cond : UInt16
  dband : UInt16
  level : UInt32

/-- `ALARM_DEF`. -/
structure AlarmDef where
  delay : UInt16
  set : Fin 32 → Setting

/-- `ALARM_DATA`. -/
structure AlarmData where
  chan : UInt16
  cond : UInt16
  level : UInt32
  status : UInt16
  count : UInt16

/-- `ALARM_STATUS`. -/
structure AlarmStatus where
  st : Fin 32 → AlarmData
  almCount : UInt16

/-- One meter channel, as far as its alarms go. -/
structure Meter where
  almSet : AlarmDef
  alarm : AlarmStatus
  almCnt : Nat
  online2 : UInt16
  almTimer : Fin 32 → UInt8
  log : Log.Reload.State

/-- What a call finds in the rest of the channel: `src` is what `almTbl` points at. -/
structure Sample where
  sysTick1s : UInt32
  rmsInit : UInt16
  online : UInt16
  zxMonCnt : UInt64
  freq : UInt32
  src : UInt16 → Option UInt32

/-- The number of a `float`. -/
def real (bits : UInt32) : Value := value (decode bits)

/-- `level*dband/100.`: a product of floats, and a quotient of doubles. -/
def bandOf (level : Value) (dband : UInt16) : Value :=
  double.fit ((single.fit (level.mul (.finite dband.toNat))).div (.finite 100))

/-- The level at which an alarm returns, assigned to a float. -/
def returnLevel (cond : UInt16) (level : Value) (dband : UInt16) : Value :=
  if cond = 0 then single.fit (double.fit (level.add (bandOf level dband)))
  else single.fit (double.fit (level.add (bandOf level dband).neg))

def raises (cond : UInt16) (level src : Value) : Bool :=
  if cond = 0 then src.lt level else level.lt src

def returns (cond : UInt16) (level : Value) (dband : UInt16) (src : Value) : Bool :=
  if cond = 0 then (returnLevel cond level dband).le src
  else src.le (returnLevel cond level dband)

/-- The body of the loop for one alarm: its data and its timer, and whether its status changes. -/
def evaluate (delay : UInt16) (s : Setting) (a : AlarmData) (timer : UInt8) (src : UInt32) :
    AlarmData × UInt8 × Bool :=
  let cond := s.cond &&& 1
  let due := decide (delay.toNat ≤ timer.toNat)
  if a.status = 0 then
    if raises cond (real a.level) (real src) then
      (if due then { a with status := 1, count := a.count + 1 } else a, timer + 1, due)
    else (a, 0, false)
  else
    if returns cond (real a.level) s.dband (real src) then
      (if due then { a with status := 0 } else a, timer + 1, due)
    else (a, 0, false)

/-- The record of `storeAlarmLog`. -/
def alog (now : UInt32) (a : AlarmData) (src : UInt32) : AlarmLog :=
  ⟨now, a.status, a.chan.toUInt8, a.cond.toUInt8, a.level, src⟩

/-- The state of the loop. -/
structure Pass where
  m : Meter
  change : Nat
  almCount : Nat

def alarmStep (x : Sample) (p : Pass) (i : Fin 32) : Pass :=
  let s := p.m.almSet.set i
  if s.chan = 0 then p
  else if s.chan ≥ maxAlarmCh then p
  else match x.src s.chan with
    | none => p
    | some src =>
      let r := evaluate p.m.almSet.delay s (p.m.alarm.st i) (p.m.almTimer i) src
      let m := { p.m with
        alarm := { p.m.alarm with st := Function.update p.m.alarm.st i r.1 }
        almTimer := Function.update p.m.almTimer i r.2.1
        log := if r.2.2 then storeAlarmLog p.m.log (alog x.sysTick1s r.1 src) else p.m.log }
      ⟨m, if r.2.2 then p.change + 1 else p.change,
        if r.1.status ≠ 0 then p.almCount + 1 else p.almCount⟩

/-- The checks before the loop, after `online2++`. -/
def Closed (m : Meter) (x : Sample) : Prop :=
  m.online2 < 5 ∨ x.rmsInit = 0 ∨ (x.online = 0 ∨ x.zxMonCnt = 0) ∨
    (real x.freq).lt (.finite 47) = true ∨ (Value.finite 63).lt (real x.freq) = true

instance (m : Meter) (x : Sample) : Decidable (Closed m x) :=
  inferInstanceAs (Decidable (_ ∨ _ ∨ (_ ∨ _) ∨ _ ∨ _))

def finish (p : Pass) : Meter :=
  { p.m with
    alarm := { p.m.alarm with almCount := UInt16.ofNat p.almCount }
    almCnt := p.almCount
    log := if p.change > 0 then fetchAlarm 0 p.m.log else p.m.log }

/-- The channel after a call, and what the call returns. -/
def alarmProc (m : Meter) (x : Sample) : Meter × Nat :=
  let m' := { m with online2 := m.online2 + 1 }
  if Closed m x then (m', 0)
  else
    let p := run (alarmStep x) ⟨m', 0, 0⟩ (List.finRange 32)
    (finish p, p.change)

abbrev call (m : Meter) (x : Sample) : Meter := (alarmProc m x).1

def timer (i : Fin 32) (m : Meter) : Timer :=
  ⟨decide ((m.alarm.st i).status ≠ 0), (m.almTimer i).toNat⟩

/-- The bits of the value with which a call evaluates an alarm, if it does. -/
def evaluated (i : Fin 32) (m : Meter) (x : Sample) : Option UInt32 :=
  let s := m.almSet.set i
  if Closed m x ∨ s.chan = 0 ∨ s.chan ≥ maxAlarmCh then none else x.src s.chan

/-- Which of an alarm's two conditions a value meets. -/
def readingOf (i : Fin 32) (m : Meter) (src : UInt32) : Reading :=
  let s := m.almSet.set i
  let level := real (m.alarm.st i).level
  ⟨raises (s.cond &&& 1) level (real src), returns (s.cond &&& 1) level s.dband (real src)⟩

def reading (i : Fin 32) (m : Meter) (x : Sample) : Option Reading :=
  (evaluated i m x).map (readingOf i m)

private theorem evaluate_step (delay : UInt16) (s : Setting) (a : AlarmData) (t : UInt8)
    (src : UInt32) :
    (⟨decide ((evaluate delay s a t src).1.status ≠ 0),
        (evaluate delay s a t src).2.1.toNat⟩ : Timer) =
      step 256 delay.toNat ⟨decide (a.status ≠ 0), t.toNat⟩
        ⟨raises (s.cond &&& 1) (real a.level) (real src),
          returns (s.cond &&& 1) (real a.level) s.dband (real src)⟩ := by
  have next : (t + 1).toNat = (t.toNat + 1) % 256 := UInt8.toNat_add t 1
  unfold evaluate step Timer.pending
  by_cases normal : a.status = 0
  · by_cases above : raises (s.cond &&& 1) (real a.level) (real src) = true
    · by_cases due : delay.toNat ≤ t.toNat <;> simp [normal, above, due, next]
    · simp [normal, above]
  · by_cases back : returns (s.cond &&& 1) (real a.level) s.dband (real src) = true
    · by_cases due : delay.toNat ≤ t.toNat <;> simp [normal, back, due, next]
    · simp [normal, back]

private theorem evaluate_level (delay : UInt16) (s : Setting) (a : AlarmData) (t : UInt8)
    (src : UInt32) :
    (evaluate delay s a t src).1.level = a.level := by
  unfold evaluate
  dsimp only
  split_ifs <;> rfl

/-- What the loop reads and writes of one alarm. -/
structure Own where
  almSet : AlarmDef
  data : AlarmData
  timer : UInt8

def own (i : Fin 32) (m : Meter) : Own := ⟨m.almSet, m.alarm.st i, m.almTimer i⟩

def Own.next (x : Sample) (i : Fin 32) (o : Own) : Own :=
  let s := o.almSet.set i
  if s.chan = 0 ∨ s.chan ≥ maxAlarmCh then o
  else match x.src s.chan with
    | none => o
    | some src =>
      let r := evaluate o.almSet.delay s o.data o.timer src
      ⟨o.almSet, r.1, r.2.1⟩

private theorem Own.next_unset {x : Sample} {i : Fin 32} {o : Own}
    (unset : (o.almSet.set i).chan = 0 ∨ (o.almSet.set i).chan ≥ maxAlarmCh) : o.next x i = o :=
  if_pos unset

private theorem Own.next_none {x : Sample} {i : Fin 32} {o : Own}
    (none : x.src (o.almSet.set i).chan = none) : o.next x i = o := by
  unfold Own.next
  dsimp only
  split
  · rfl
  · rw [none]

private theorem own_alarmStep (x : Sample) (p : Pass) (i : Fin 32) :
    own i (alarmStep x p i).m = (own i p.m).next x i := by
  unfold alarmStep Own.next own
  dsimp only
  by_cases unset : (p.m.almSet.set i).chan = 0
  · rw [if_pos unset, if_pos (.inl unset)]
  by_cases wide : (p.m.almSet.set i).chan ≥ maxAlarmCh
  · rw [if_neg unset, if_pos wide, if_pos (.inr wide)]
  rw [if_neg unset, if_neg wide, if_neg (not_or.mpr ⟨unset, wide⟩)]
  cases x.src (p.m.almSet.set i).chan with
  | none => rfl
  | some src =>
    dsimp only
    rw [Function.update_self, Function.update_self]

private theorem own_alarmStep_of_ne (x : Sample) (p : Pass) {i j : Fin 32} (apart : j ≠ i) :
    own i (alarmStep x p j).m = own i p.m := by
  unfold alarmStep own
  dsimp only
  split_ifs
  · rfl
  · rfl
  cases x.src (p.m.almSet.set j).chan with
  | none => rfl
  | some src =>
    dsimp only
    rw [Function.update_of_ne (Ne.symm apart), Function.update_of_ne (Ne.symm apart)]

private theorem own_call (i : Fin 32) (m : Meter) (x : Sample) :
    own i (call m x) = if Closed m x then own i m else (own i m).next x i := by
  have finished : ∀ p, own i (finish p) = own i p.m := fun _ => rfl
  unfold call alarmProc
  by_cases closed : Closed m x
  · rw [if_pos closed, if_pos closed]
    rfl
  · rw [if_neg closed, if_neg closed]
    have turn : ∀ p, own i (run (alarmStep x) p (List.finRange 32)).m = (own i p.m).next x i :=
      run_own (g := fun p : Pass => own i p.m) (f := fun o => o.next x i)
        (fun p j apart => own_alarmStep_of_ne x p apart)
        (fun p => own_alarmStep x p i) (List.nodup_finRange 32) (List.mem_finRange i)
    dsimp only
    rw [finished, turn]
    rfl

private theorem next_of_evaluated {i : Fin 32} {m : Meter} {x : Sample} {src : UInt32}
    (read : evaluated i m x = some src) : own i (call m x) =
      ⟨m.almSet, (evaluate m.almSet.delay (m.almSet.set i) (m.alarm.st i) (m.almTimer i) src).1,
        (evaluate m.almSet.delay (m.almSet.set i) (m.alarm.st i) (m.almTimer i) src).2.1⟩ := by
  unfold evaluated at read
  dsimp only at read
  split at read
  · cases read
  · rename_i through
    obtain ⟨opened, monitored⟩ := not_or.mp through
    rw [own_call, if_neg opened, Own.next, own]
    dsimp only
    rw [if_neg monitored, read]

private theorem next_of_skipped {i : Fin 32} {m : Meter} {x : Sample}
    (skipped : evaluated i m x = none) :
    own i (call m x) = own i m := by
  unfold evaluated at skipped
  dsimp only at skipped
  rw [own_call]
  by_cases closed : Closed m x
  · rw [if_pos closed]
  · rw [if_neg closed]
    by_cases other : (m.almSet.set i).chan = 0 ∨ (m.almSet.set i).chan ≥ maxAlarmCh
    · exact Own.next_unset (o := own i m) other
    · rw [if_neg (not_or.mpr ⟨closed, other⟩)] at skipped
      exact Own.next_none (o := own i m) skipped

@[simp] theorem call_almSet (m : Meter) (x : Sample) : (call m x).almSet = m.almSet := by
  cases read : evaluated 0 m x with
  | none => exact congrArg Own.almSet (next_of_skipped read)
  | some src => exact congrArg Own.almSet (next_of_evaluated read)

theorem call_level (i : Fin 32) (m : Meter) (x : Sample) :
    ((call m x).alarm.st i).level = (m.alarm.st i).level := by
  cases read : evaluated i m x with
  | none => exact congrArg (fun o : Own => o.data.level) (next_of_skipped read)
  | some src =>
    have same := congrArg (fun o : Own => o.data.level) (next_of_evaluated read)
    exact same.trans (evaluate_level _ _ _ _ _)

/-- A call takes the timer of every alarm it evaluates one step, and leaves the others. -/
theorem timer_call (i : Fin 32) (m : Meter) (x : Sample) : timer i (call m x) =
    match reading i m x with
    | none => timer i m
    | some r => step 256 m.almSet.delay.toNat (timer i m) r := by
  have shape : ∀ m' : Meter, timer i m' =
      ⟨decide ((own i m').data.status ≠ 0), (own i m').timer.toNat⟩ := fun _ => rfl
  unfold reading
  cases read : evaluated i m x with
  | none =>
    rw [shape, next_of_skipped read]
    rfl
  | some src =>
    rw [shape, next_of_evaluated read]
    exact evaluate_step _ _ _ _ _

/-- A call changes the status of an alarm. -/
def Turns (i : Fin 32) (m : Meter) (x : Sample) : Prop :=
  (timer i (call m x)).active ≠ (timer i m).active

instance (i : Fin 32) (m : Meter) (x : Sample) : Decidable (Turns i m x) :=
  inferInstanceAs (Decidable (_ ≠ _))

theorem not_turns_of_skipped {i : Fin 32} {m : Meter} {x : Sample} (skipped : reading i m x = none) :
    ¬ Turns i m x := by
  unfold Turns
  rw [timer_call, skipped]
  exact not_not.mpr rfl

theorem turns_iff {i : Fin 32} {m : Meter} {x : Sample} {r : Reading}
    (read : reading i m x = some r) :
    Turns i m x ↔ Changes 256 m.almSet.delay.toNat (timer i m) r := by
  unfold Turns
  rw [timer_call, read]
  exact Iff.rfl

theorem timer_count_lt (i : Fin 32) (m : Meter) : (timer i m).count < 256 :=
  (m.almTimer i).toNat_lt

/-- The 8-bit timer never reaches a delay above 255: no alarm is ever reported. -/
theorem not_turns_of_far {m : Meter} (far : 255 < m.almSet.delay.toNat) (i : Fin 32) (x : Sample) :
    ¬ Turns i m x := by
  cases read : reading i m x with
  | none => exact not_turns_of_skipped read
  | some r =>
    rw [turns_iff read, changes_iff]
    rintro ⟨_, due⟩
    have inside := timer_count_lt i m
    omega

/-- What `loadAlarmStatus` makes of the status it has read from the file, or of cleared memory. -/
def loadAlarmStatus (almSet : AlarmDef) (palm : AlarmStatus) : AlarmStatus :=
  { palm with
    st i :=
      let s := almSet.set i
      { chan := s.chan
        cond := s.cond
        level := s.level
        status := 0
        count := if (palm.st i).chan ≠ s.chan then 0 else (palm.st i).count } }

def boot (almSet : AlarmDef) (palm : AlarmStatus) (log : Log.Reload.State) : Meter :=
  ⟨almSet, loadAlarmStatus almSet palm, 0, 0, fun _ => 0, log⟩

def clear : AlarmStatus := ⟨fun _ => ⟨0, 0, 0, 0, 0⟩, 0⟩

/-- A call on a channel in service at 60 Hz, with one value on every alarm channel. -/
def inService (src : UInt32) : Sample := ⟨0, 1, 1, 1, 0x42700000, fun _ => some src⟩

theorem closed_inService (m : Meter) (src : UInt32) :
    Closed m (inService src) ↔ m.online2 < 5 := by
  have line : (real 0x42700000).lt (.finite 47) = false ∧
      (Value.finite 63).lt (real 0x42700000) = false := by
    decide +kernel
  simp [Closed, inService, line]

end SV300.Alarm.Proc
