/- SV300/Ticks
   digest: The millisecond interrupt and the setting of the clock, which it can interrupt, and the
   counters they keep. -/

import SV300.Clock
import SV300.Library.Literals
import SV300.Library.Runs

set_option autoImplicit false
set_option relaxedAutoImplicit false

namespace SV300.Ticks

open SV300.Clock
open SV300.Library.Runs

abbrev Channel := Fin 3

/-- A `struct tm` of a tick, date and time. -/
structure Tod where
  date : Tm
  tmWday : Nat
  tmHour : Nat
  tmMin : Nat
  tmSec : Nat
  deriving DecidableEq

/-- `uLocalTime` as a whole. -/
def todOf (utc : UInt32) : Tod :=
  ⟨uLocalTime utc, tmWday utc, tmHour utc, tmMin utc, utc.toNat % 60⟩

structure Counters where
  /-- The milliseconds of the second. -/
  tick : Nat
  wmTick32 : UInt32
  sysTick32 : UInt32
  sysTick64 : UInt64
  sysTick1s : UInt32
  sysTick10s : UInt32
  sysTick10m : UInt32
  sysTick15m : UInt32
  sysTickDemand : UInt32
  /-- The demand interval of the first meter in seconds. -/
  dInterval : UInt16
  tod : Channel → Tod
  idleCnt : UInt32
  prevIdle : UInt32
  idlePerSec : UInt32

/-- `syncMeterTodFromM0`. -/
def syncMeterTodFromM0 (s : Counters) : Counters := { s with tod := fun _ => s.tod 0 }

/-- The whole second of `tickHandler`. -/
def second (s : Counters) : Counters :=
  let now := s.sysTick1s + 1
  syncMeterTodFromM0 { s with
    sysTick1s := now
    idlePerSec := s.idleCnt - s.prevIdle
    prevIdle := s.idleCnt
    sysTick10s := now / 10
    sysTick10m := now / 600
    sysTick15m := now / 900
    sysTickDemand := if 0 < s.dInterval then now / s.dInterval.toUInt32 else s.sysTickDemand
    tick := 0
    tod := Function.update s.tod 0 (todOf now) }

/-- `tickHandler`, the interrupt of every millisecond. -/
def tickHandler (s : Counters) : Counters :=
  let s := { s with
    wmTick32 := s.wmTick32 + 1
    sysTick32 := s.sysTick32 + 1
    sysTick64 := s.sysTick64 + 1
    tick := s.tick + 1 }
  if 1000 ≤ s.tick then second s else s

/-- The C library's `abs` of the difference of two clocks: the lowest number has none. -/
def diffExceeds (a b : UInt32) : Bool := 1 < (a - b).toInt32.abs

/-- The milliseconds of an SNTP fraction of a second. -/
def sntpMsec (fraction : UInt32) : UInt32 := ((fraction.toUInt64 * 1000) >>> 32).toUInt32

/-- The fields of a `struct tm` in their order. -/
inductive Field
  | tmSec
  | tmMin
  | tmHour
  | tmMday
  | tmMon
  | tmYear
  | tmWday

def fields : List Field := [.tmSec, .tmMin, .tmHour, .tmMday, .tmMon, .tmYear, .tmWday]

def Tod.get (t : Tod) : Field → Nat
  | .tmSec => t.tmSec
  | .tmMin => t.tmMin
  | .tmHour => t.tmHour
  | .tmMday => t.date.tmMday
  | .tmMon => t.date.tmMon
  | .tmYear => t.date.tmYear
  | .tmWday => t.tmWday

def Tod.put (t : Tod) (v : Nat) : Field → Tod
  | .tmSec => { t with tmSec := v }
  | .tmMin => { t with tmMin := v }
  | .tmHour => { t with tmHour := v }
  | .tmMday => { t with date := { t.date with tmMday := v } }
  | .tmMon => { t with date := { t.date with tmMon := v } }
  | .tmYear => { t with date := { t.date with tmYear := v } }
  | .tmWday => { t with tmWday := v }

/-- What `localtime_r` gives, before `uLocalTime` adds to the year and the month. -/
def rawTod (utc : UInt32) : Tod :=
  ⟨localtimeR utc, tmWday utc, tmHour utc, tmMin utc, utc.toNat % 60⟩

/-- What `tickSet` does to the memory, one access at a time: each statement reads before it writes, a
counter of 64 bits takes two writes, and a date is written and copied field by field. -/
inductive Access
  | putClock
  | getClock
  | put10s
  | put10m
  | put15m
  | putLow
  | putHigh
  | getLow
  | put32
  | testZero
  | convert (f : Field)
  | get (f : Field)
  | add (f : Field) (n : Nat)
  | copy (id : Channel) (f : Field)
  | timeStampChanged (id : Channel)

/-- What the task of a setting holds: the call's arguments and what it has read. -/
structure Registers where
  sec : UInt32
  msec : UInt32
  /-- The mode asks for the mark of a changed clock, and the clock jumps by more than a second. -/
  marks : Bool
  clock : UInt32
  zero : Bool
  low : UInt32
  field : Nat

def Registers.ms (r : Registers) : UInt64 := r.sec.toUInt64 * 1000 + r.msec.toUInt64

/-- A call of `tickSet` under way. -/
structure Setting where
  registers : Registers
  todo : List Access

def dateAccesses : List Access :=
  .testZero :: .getClock :: fields.map .convert ++
    [.get .tmYear, .add .tmYear 1900, .get .tmMon, .add .tmMon 1]

def copyAccesses (id : Channel) : List Access := fields.flatMap fun f => [.get f, .copy id f]

/-- The accesses of `tickSet` in their order. -/
def accesses : List Access :=
  [.putClock, .getClock, .put10s, .getClock, .put10m, .getClock, .put15m] ++
  [.putLow, .putHigh, .getLow, .put32] ++ dateAccesses ++ copyAccesses 1 ++ copyAccesses 2 ++
  [.timeStampChanged 0, .timeStampChanged 1, .timeStampChanged 2]

/-- What the tasks and the interrupt share. -/
structure Shared where
  counters : Counters
  tsChanged : Channel → Bool

/-- A counter of 64 bits with one of its words written. -/
def withLow (a ms : UInt64) : UInt64 :=
  ⟨a.toBitVec.extractLsb' 32 32 ++ ms.toBitVec.extractLsb' 0 32⟩

def withHigh (a ms : UInt64) : UInt64 :=
  ⟨ms.toBitVec.extractLsb' 32 32 ++ a.toBitVec.extractLsb' 0 32⟩

def Counters.putTod (c : Counters) (id : Channel) (t : Tod) : Counters :=
  { c with tod := Function.update c.tod id t }

/-- An access on the counters and on the registers of the setting. -/
def Access.counters (c : Counters) (r : Registers) : Access → Counters
  | .putClock => { c with sysTick1s := r.sec }
  | .put10s => { c with sysTick10s := r.clock / 10 }
  | .put10m => { c with sysTick10m := r.clock / 600 }
  | .put15m => { c with sysTick15m := r.clock / 900 }
  | .putLow => { c with sysTick64 := withLow c.sysTick64 r.ms }
  | .putHigh => { c with sysTick64 := withHigh c.sysTick64 r.ms }
  | .put32 => { c with sysTick32 := r.low }
  | .convert f => c.putTod 0 ((c.tod 0).put (if r.zero then 0 else (rawTod r.clock).get f) f)
  | .add f n => c.putTod 0 (if r.zero then c.tod 0 else (c.tod 0).put (r.field + n) f)
  | .copy id f => c.putTod id ((c.tod id).put r.field f)
  | _ => c

def Access.registers (c : Counters) (r : Registers) : Access → Registers
  | .getClock => { r with clock := c.sysTick1s }
  | .getLow => { r with low := c.sysTick64.toUInt32 }
  | .testZero => { r with zero := c.sysTick1s = 0 }
  | .get f => { r with field := (c.tod 0).get f }
  | _ => r

def Access.marks (changed : Channel → Bool) (r : Registers) : Access → Channel → Bool
  | .timeStampChanged id => if r.marks then Function.update changed id true else changed
  | _ => changed

structure State where
  shared : Shared
  /-- The settings under way, each in a task of its own. -/
  settings : List Setting

/-- The beginning of `tickSet`; the same second is not set. -/
def tickSet (s : State) (sec msec : UInt32) (mode : Bool) : State :=
  let clock := s.shared.counters.sysTick1s
  if sec ≠ clock then
    let registers : Registers := {
      sec := sec
      msec := msec
      marks := mode && diffExceeds clock sec
      clock := clock
      zero := false
      low := 0
      field := 0 }
    { s with settings := s.settings ++ [⟨registers, accesses⟩] }
  else s

/-- The next access of a setting under way, or its return. -/
def proceed (s : State) (n : Nat) : State :=
  match s.settings[n]? with
  | none => s
  | some r =>
    match r.todo with
    | [] => { s with settings := s.settings.eraseIdx n }
    | a :: rest =>
      { shared := ⟨a.counters s.shared.counters r.registers, a.marks s.shared.tsChanged r.registers⟩
        settings := s.settings.set n ⟨a.registers s.shared.counters r.registers, rest⟩ }

/-- What happens to the counters: the interrupt, a clock that a command or SNTP begins to set, the
next access of a setting under way, a new demand interval, idle counting, and a meter's quality log
that has seen the change of the clock. -/
inductive Event
  | tick
  | set (utc : UInt32)
  | sntp (unixTime fraction : UInt32)
  | proceed (n : Nat)
  | interval (d : UInt16)
  | idle
  | seen (id : Channel)

def State.withCounters (s : State) (c : Counters) : State :=
  { s with shared := { s.shared with counters := c } }

def step (s : State) : Event → State
  | .tick => s.withCounters (tickHandler s.shared.counters)
  | .set utc => tickSet s utc 0 true
  | .sntp unixTime fraction => tickSet s unixTime (sntpMsec fraction) false
  | .proceed n => proceed s n
  | .interval d => s.withCounters { s.shared.counters with dInterval := d }
  | .idle => s.withCounters { s.shared.counters with idleCnt := s.shared.counters.idleCnt + 1 }
  | .seen id =>
    { s with shared := { s.shared with tsChanged := Function.update s.shared.tsChanged id false } }

/-- Nothing that changes the clock happens while it is being set. -/
def Undisturbed (s : State) : Event → Prop
  | .tick | .set _ | .sntp _ _ => s.settings = []
  | _ => True

instance (s : State) : (e : Event) → Decidable (Undisturbed s e)
  | .tick | .set _ | .sntp _ _ => inferInstanceAs (Decidable (s.settings = []))
  | .proceed _ | .interval _ | .idle | .seen _ => .isTrue trivial

/-- A setting of the clock that nothing disturbs, as one step; the demand counter and the milliseconds
of the second stay. -/
def setClock (s : Counters) (sec msec : UInt32) : Counters :=
  if sec ≠ s.sysTick1s then
    let ms := sec.toUInt64 * 1000 + msec.toUInt64
    syncMeterTodFromM0 (Counters.putTod { s with
      sysTick1s := sec
      sysTick10s := sec / 10
      sysTick10m := sec / 600
      sysTick15m := sec / 900
      sysTick64 := ms
      sysTick32 := ms.toUInt32 } 0 (todOf sec))
  else s

/-- The step of the counters where settings take effect when they begin. -/
def stepAtOnce (s : Counters) : Event → Counters
  | .tick => tickHandler s
  | .set utc => setClock s utc 0
  | .sntp unixTime fraction => setClock s unixTime (sntpMsec fraction)
  | .interval d => { s with dInterval := d }
  | .idle => { s with idleCnt := s.idleCnt + 1 }
  | .proceed _ | .seen _ => s

/-- The counters of longer periods and the dates follow the clock. -/
structure Derived (s : Counters) : Prop where
  tenSeconds : s.sysTick10s = s.sysTick1s / 10
  tenMinutes : s.sysTick10m = s.sysTick1s / 600
  quarter : s.sysTick15m = s.sysTick1s / 900
  dates : ∀ id, s.tod id = todOf s.sysTick1s

/-- The demand counter follows the clock. -/
def DemandRight (s : Counters) : Prop :=
  0 < s.dInterval → s.sysTickDemand = s.sysTick1s / s.dInterval.toUInt32

/-- The millisecond counter is less than a second off the clock and its milliseconds. -/
def Near (s : Counters) : Prop :=
  s.sysTick1s.toNat * 1000 + s.tick ≤ s.sysTick64.toNat + 999 ∧
    s.sysTick64.toNat ≤ s.sysTick1s.toNat * 1000 + s.tick + 999

/-- The milliseconds of the second are in range and the two millisecond counters count together. -/
structure Counted (s : Counters) : Prop where
  part : s.tick < 1000
  low : s.sysTick32 = s.sysTick64.toUInt32

/-- How far the millisecond counters are ahead of each other and of the clock. -/
def apart (s : Counters) : UInt32 := s.sysTick32 - s.sysTick64.toUInt32

def ahead (s : Counters) : UInt64 :=
  s.sysTick64 - (s.sysTick1s.toUInt64 * 1000 + UInt64.ofNat s.tick)

/-- The clock has not reached the end of its 32 bits. -/
def Lasts (s : Counters) : Event → Prop
  | .tick => s.sysTick1s.toNat + 1 < 2 ^ 32
  | _ => True

/-- The clock is not set. -/
def Unset : Event → Prop
  | .set _ | .sntp _ _ => False
  | _ => True

/-- The clock is not set and the demand interval not changed. -/
def Steady : Event → Prop
  | .set _ | .sntp _ _ | .interval _ => False
  | _ => True

def Event.isTick : Event → Bool
  | .tick => true
  | _ => false

section AtOnce

private theorem derived_second (s : Counters) : Derived (second s) :=
  ⟨rfl, rfl, rfl, fun _ => Function.update_self (β := fun _ => Tod) 0 (todOf (s.sysTick1s + 1)) s.tod⟩

private theorem demandRight_second (s : Counters) : DemandRight (second s) :=
  fun given => if_pos given

private theorem tickHandler_cases (s : Counters) :
    (s.tick + 1 < 1000 ∧ tickHandler s = { s with
      wmTick32 := s.wmTick32 + 1
      sysTick32 := s.sysTick32 + 1
      sysTick64 := s.sysTick64 + 1
      tick := s.tick + 1 }) ∨
    1000 ≤ s.tick + 1 ∧ tickHandler s = second { s with
      wmTick32 := s.wmTick32 + 1
      sysTick32 := s.sysTick32 + 1
      sysTick64 := s.sysTick64 + 1
      tick := s.tick + 1 } := by
  by_cases last : 1000 ≤ s.tick + 1
  · exact .inr ⟨last, if_pos last⟩
  · exact .inl ⟨by omega, if_neg last⟩

private theorem setClock_cases (s : Counters) (sec msec : UInt32) :
    sec = s.sysTick1s ∧ setClock s sec msec = s ∨ setClock s sec msec = { s with
      sysTick1s := sec
      sysTick10s := sec / 10
      sysTick10m := sec / 600
      sysTick15m := sec / 900
      sysTick64 := sec.toUInt64 * 1000 + msec.toUInt64
      sysTick32 := (sec.toUInt64 * 1000 + msec.toUInt64).toUInt32
      tod := fun _ => todOf sec } := by
  by_cases same : sec = s.sysTick1s
  · exact .inl ⟨same, if_neg (not_not.mpr same)⟩
  · right
    rw [setClock, if_pos same]
    dsimp only [syncMeterTodFromM0, Counters.putTod]
    rw [Function.update_self]

private theorem derived_setClock {s : Counters} (derived : Derived s) (sec msec : UInt32) :
    Derived (setClock s sec msec) := by
  rcases setClock_cases s sec msec with ⟨-, result⟩ | result
  · rw [result]
    exact derived
  · rw [result]
    exact ⟨rfl, rfl, rfl, fun _ => rfl⟩

private theorem derived_step {s : Counters} (derived : Derived s) (e : Event) :
    Derived (stepAtOnce s e) := by
  cases e with
  | tick =>
    rcases tickHandler_cases s with ⟨-, result⟩ | ⟨-, result⟩
    · rw [stepAtOnce, result]
      exact ⟨derived.tenSeconds, derived.tenMinutes, derived.quarter, derived.dates⟩
    · rw [stepAtOnce, result]
      exact derived_second _
  | set utc => exact derived_setClock derived utc 0
  | sntp unixTime fraction => exact derived_setClock derived unixTime _
  | interval d => exact ⟨derived.tenSeconds, derived.tenMinutes, derived.quarter, derived.dates⟩
  | idle => exact ⟨derived.tenSeconds, derived.tenMinutes, derived.quarter, derived.dates⟩
  | proceed n => exact derived
  | seen id => exact derived

private theorem sntpMsec_lt (fraction : UInt32) : (sntpMsec fraction).toNat < 1000 := by
  have range := fraction.toNat_lt
  have product : (fraction.toUInt64 * 1000).toNat = fraction.toNat * 1000 := by
    rw [UInt64.toNat_mul, UInt32.toNat_toUInt64]
    change fraction.toNat * 1000 % 2 ^ 64 = _
    omega
  have shifted : ((fraction.toUInt64 * 1000) >>> 32).toNat = fraction.toNat * 1000 / 2 ^ 32 := by
    rw [UInt64.toNat_shiftRight, product, Nat.shiftRight_eq_div_pow]
    rfl
  have small : fraction.toNat * 1000 / 2 ^ 32 < 1000 := Nat.div_lt_of_lt_mul (by omega)
  rw [sntpMsec, UInt64.toNat_toUInt32, shifted, Nat.mod_eq_of_lt (by omega)]
  exact small

private theorem set_ms (sec msec : UInt32) :
    (sec.toUInt64 * 1000 + msec.toUInt64).toNat = sec.toNat * 1000 + msec.toNat := by
  have range := sec.toNat_lt
  have part := msec.toNat_lt
  have product : (sec.toUInt64 * 1000).toNat = sec.toNat * 1000 := by
    rw [UInt64.toNat_mul, UInt32.toNat_toUInt64]
    change sec.toNat * 1000 % 2 ^ 64 = _
    omega
  rw [UInt64.toNat_add, product, UInt32.toNat_toUInt64]
  omega

private theorem low_succ (a : UInt64) : (a + 1).toUInt32 = a.toUInt32 + 1 := UInt64.toUInt32_add a 1

private theorem counted_step {s : Counters} (counted : Counted s) (e : Event) :
    Counted (stepAtOnce s e) := by
  obtain ⟨part, low⟩ := counted
  have set (sec msec : UInt32) : Counted (setClock s sec msec) := by
    rcases setClock_cases s sec msec with ⟨-, result⟩ | result
    · rw [result]
      exact ⟨part, low⟩
    · rw [result]
      exact ⟨part, rfl⟩
  cases e with
  | tick =>
    have counts : s.sysTick32 + 1 = (s.sysTick64 + 1).toUInt32 := by rw [low, low_succ]
    rcases tickHandler_cases s with ⟨within, result⟩ | ⟨-, result⟩
    · rw [stepAtOnce, result]
      exact ⟨within, counts⟩
    · rw [stepAtOnce, result]
      exact ⟨Nat.succ_pos 999, counts⟩
  | set utc => exact set utc 0
  | sntp unixTime fraction => exact set unixTime _
  | interval d => exact ⟨part, low⟩
  | idle => exact ⟨part, low⟩
  | proceed n => exact ⟨part, low⟩
  | seen id => exact ⟨part, low⟩

private theorem clock_succ {s : Counters} (lasts : Lasts s .tick) :
    (s.sysTick1s + 1).toNat = s.sysTick1s.toNat + 1 := by
  have room : s.sysTick1s.toNat + 1 < 2 ^ 32 := lasts
  rw [UInt32.toNat_add]
  change (s.sysTick1s.toNat + 1) % 2 ^ 32 = _
  omega

private theorem near_step {s : Counters} (counted : Counted s) (near : Near s) {e : Event}
    (lasts : Lasts s e) : Near (stepAtOnce s e) := by
  have part := counted.part
  have set {sec : UInt32} (msec : UInt32) (small : msec.toNat < 1000) :
      Near (setClock s sec msec) := by
    rcases setClock_cases s sec msec with ⟨-, result⟩ | result
    · rw [result]
      exact near
    · rw [result, Near]
      dsimp only
      rw [set_ms]
      omega
  obtain ⟨least, most⟩ := near
  cases e with
  | tick =>
    have seconds := clock_succ lasts
    have room : s.sysTick1s.toNat + 1 < 2 ^ 32 := lasts
    have counts : (s.sysTick64 + 1).toNat = s.sysTick64.toNat + 1 := by
      rw [UInt64.toNat_add]
      change (s.sysTick64.toNat + 1) % 2 ^ 64 = _
      omega
    rcases tickHandler_cases s with ⟨within, result⟩ | ⟨last, result⟩
    · rw [stepAtOnce, result, Near]
      dsimp only
      omega
    · rw [stepAtOnce, result, Near]
      dsimp only [second, syncMeterTodFromM0]
      omega
  | set utc => exact set 0 (Nat.succ_pos 999)
  | sntp unixTime fraction => exact set _ (sntpMsec_lt fraction)
  | interval d => exact ⟨least, most⟩
  | idle => exact ⟨least, most⟩
  | proceed n => exact ⟨least, most⟩
  | seen id => exact ⟨least, most⟩

private theorem demandRight_step {s : Counters} (right : DemandRight s) {e : Event}
    (steady : Steady e) :
    DemandRight (stepAtOnce s e) := by
  cases e with
  | tick =>
    rcases tickHandler_cases s with ⟨-, result⟩ | ⟨-, result⟩
    · rw [stepAtOnce, result]
      exact right
    · rw [stepAtOnce, result]
      exact demandRight_second _
  | set utc => exact absurd steady id
  | sntp unixTime fraction => exact absurd steady id
  | interval d => exact absurd steady id
  | idle => exact right
  | proceed n => exact right
  | seen id => exact right

private theorem apart_step (s : Counters) {e : Event} (unset : Unset e) :
    apart (stepAtOnce s e) = apart s := by
  cases e with
  | tick =>
    have both : s.sysTick32 + 1 - (s.sysTick64 + 1).toUInt32 = apart s := by
      rw [low_succ, apart]
      grind
    rcases tickHandler_cases s with ⟨-, result⟩ | ⟨-, result⟩ <;> rw [stepAtOnce, result] <;>
      exact both
  | set utc => exact absurd unset id
  | sntp unixTime fraction => exact absurd unset id
  | interval d => rfl
  | idle => rfl
  | proceed n => rfl
  | seen id => rfl

private theorem ahead_step {s : Counters} (part : s.tick < 1000) {e : Event} (unset : Unset e)
    (lasts : Lasts s e) : ahead (stepAtOnce s e) = ahead s ∧ (stepAtOnce s e).tick < 1000 := by
  cases e with
  | tick =>
    rcases tickHandler_cases s with ⟨within, result⟩ | ⟨last, result⟩
    · have next : UInt64.ofNat (s.tick + 1) = UInt64.ofNat s.tick + 1 := UInt64.ofNat_add s.tick 1
      rw [stepAtOnce, result, ahead, ahead]
      refine ⟨?_, within⟩
      dsimp only
      rw [next]
      grind
    · have full : s.tick = 999 := by omega
      have seconds : (s.sysTick1s + 1).toUInt64 = s.sysTick1s.toUInt64 + 1 := by
        have room : s.sysTick1s.toNat + 1 < 2 ^ 32 := lasts
        apply UInt64.toNat_inj.mp
        rw [UInt32.toNat_toUInt64, clock_succ lasts, UInt64.toNat_add, UInt32.toNat_toUInt64]
        change _ = (s.sysTick1s.toNat + 1) % 2 ^ 64
        omega
      rw [stepAtOnce, result, ahead, ahead]
      dsimp only [second, syncMeterTodFromM0]
      rw [seconds, full]
      refine ⟨?_, Nat.succ_pos 999⟩
      change s.sysTick64 + 1 - ((s.sysTick1s.toUInt64 + 1) * 1000 + 0) =
        s.sysTick64 - (s.sysTick1s.toUInt64 * 1000 + 999)
      grind
  | set utc => exact absurd unset id
  | sntp unixTime fraction => exact absurd unset id
  | interval d => exact ⟨rfl, part⟩
  | idle => exact ⟨rfl, part⟩
  | proceed n => exact ⟨rfl, part⟩
  | seen id => exact ⟨rfl, part⟩

/-- Only the interrupt changes the milliseconds of the second: it counts one, or it begins a new
second. -/
private theorem step_cases (s : Counters) (e : Event) :
    (stepAtOnce s e).tick = s.tick + (if e.isTick = true then 1 else 0) ∨
      e = .tick ∧ 1000 ≤ s.tick + 1 := by
  have set (sec msec : UInt32) : (setClock s sec msec).tick = s.tick := by
    rcases setClock_cases s sec msec with ⟨-, result⟩ | result <;> rw [result]
  cases e with
  | tick =>
    rcases tickHandler_cases s with ⟨-, result⟩ | ⟨last, result⟩
    · rw [stepAtOnce, result]
      exact .inl rfl
    · exact .inr ⟨rfl, last⟩
  | set utc => exact .inl (set utc 0)
  | sntp unixTime fraction => exact .inl (set unixTime _)
  | interval d => exact .inl rfl
  | idle => exact .inl rfl
  | proceed n => exact .inl rfl
  | seen id => exact .inl rfl

private theorem tick_completes {s : Counters} (last : 1000 ≤ s.tick + 1) :
    Derived (stepAtOnce s .tick) ∧ DemandRight (stepAtOnce s .tick) := by
  rcases tickHandler_cases s with ⟨within, -⟩ | ⟨-, result⟩
  · omega
  · rw [stepAtOnce, result]
    exact ⟨derived_second _, demandRight_second _⟩

theorem settle_run (s : Counters) (es : List Event) (some : 0 < es.countP Event.isTick)
    (second : 1000 ≤ s.tick + es.countP Event.isTick) :
    Derived (run stepAtOnce s es) ∧
      ((∀ e ∈ es, Steady e) → DemandRight (run stepAtOnce s es)) := by
  have kept (t : Counters) (es : List Event) (right : Derived t ∧ DemandRight t) :
      Derived (run stepAtOnce t es) ∧
        ((∀ e ∈ es, Steady e) → DemandRight (run stepAtOnce t es)) :=
    ⟨always_run (I := Derived) (fun s e held => derived_step held e) right.1 es,
      fun steady => invariant_run (I := DemandRight)
        (fun s e held steady => demandRight_step held steady) right.2 (along_of_forall steady t)⟩
  induction es generalizing s with
  | nil => cases some
  | cons e es ih =>
    have tail (all : ∀ f ∈ e :: es, Steady f) : ∀ f ∈ es, Steady f :=
      fun f inside => all f (List.mem_cons_of_mem e inside)
    rcases step_cases s e with counted | ⟨rfl, last⟩
    · by_cases one : e.isTick = true
      · obtain rfl : e = .tick := by cases e <;> first | rfl | cases one
        rw [if_pos one] at counted
        rw [List.countP_cons_of_pos rfl] at second
        by_cases last : 1000 ≤ s.tick + 1
        · obtain ⟨derived, demand⟩ := kept _ es (tick_completes last)
          exact ⟨derived, fun all => demand (tail all)⟩
        · obtain ⟨derived, demand⟩ := ih (stepAtOnce s .tick) (by omega) (by omega)
          exact ⟨derived, fun all => demand (tail all)⟩
      · rw [List.countP_cons_of_neg one] at some second
        rw [if_neg one] at counted
        obtain ⟨derived, demand⟩ := ih (stepAtOnce s e) some (by omega)
        exact ⟨derived, fun all => demand (tail all)⟩
    · obtain ⟨derived, demand⟩ := kept _ es (tick_completes last)
      exact ⟨derived, fun all => demand (tail all)⟩

end AtOnce

def perform (as : List Access) (x : Counters × Registers) : Counters × Registers :=
  run (fun x a => (a.counters x.1 x.2, a.registers x.1 x.2)) x as

private theorem perform_append (as bs : List Access) (x : Counters × Registers) :
    perform (as ++ bs) x = perform bs (perform as x) := run_append ..

section Accesses

variable (c : Counters) (r : Registers)

private theorem putTod_putTod (id : Channel) (t u : Tod) :
    (c.putTod id t).putTod id u = c.putTod id u := by
  rw [Counters.putTod, Counters.putTod, Counters.putTod, Function.update_idem]

private theorem putTod_self (id : Channel) (t : Tod) : (c.putTod id t).tod id = t :=
  Function.update_self ..

private theorem putTod_other {id other : Channel} (apart : other ≠ id) (t : Tod) :
    (c.putTod id t).tod other = c.tod other := Function.update_of_ne apart ..

private theorem put_fields (t u : Tod) : fields.foldl (fun t f => t.put (u.get f) f) t = u := by
  cases u
  rfl

private theorem perform_convert (fs : List Field) :
    perform (fs.map .convert) (c, r) = (c.putTod 0 (fs.foldl
      (fun t f => t.put (if r.zero then 0 else (rawTod r.clock).get f) f) (c.tod 0)), r) := by
  induction fs generalizing c with
  | nil => rw [List.map_nil, List.foldl_nil, Counters.putTod, Function.update_eq_self]; rfl
  | cons f fs ih =>
    have first : perform ((f :: fs).map .convert) (c, r) = perform (fs.map .convert)
        (c.putTod 0 ((c.tod 0).put (if r.zero then 0 else (rawTod r.clock).get f) f), r) := rfl
    rw [first, ih, putTod_putTod, putTod_self, List.foldl_cons]

def Tod.added (t : Tod) (n m : Nat) : Tod :=
  { t with date := { t.date with tmYear := t.date.tmYear + n, tmMon := t.date.tmMon + m } }

private theorem perform_add (t : Tod) (n m : Nat) :
    ∃ r', perform [.get .tmYear, .add .tmYear n, .get .tmMon, .add .tmMon m] (c.putTod 0 t, r) =
      (c.putTod 0 (if r.zero then t else t.added n m), r') := by
  simp only [perform, run_cons, run_nil, Access.counters, Access.registers, putTod_self,
    putTod_putTod]
  refine ⟨_, congrArg (fun u => (c.putTod 0 u, _)) ?_⟩
  split_ifs <;> rfl

private theorem put_zeros (t : Tod) : fields.foldl (fun t f => t.put 0 f) t = todOf 0 := by
  have zero : todOf 0 = ⟨⟨0, 0, 0⟩, 0, 0, 0, 0⟩ := by decide
  rw [zero]
  rfl

private theorem added_rawTod {utc : UInt32} (set : utc ≠ 0) :
    (rawTod utc).added 1900 1 = todOf utc := by
  have date : uLocalTime utc = { localtimeR utc with
      tmYear := (localtimeR utc).tmYear + 1900
      tmMon := (localtimeR utc).tmMon + 1 } := by rw [uLocalTime, if_neg set]
  rw [todOf, date, rawTod]
  generalize localtimeR utc = t
  rfl

private theorem perform_date :
    ∃ r', perform dateAccesses (c, r) = (c.putTod 0 (todOf c.sysTick1s), r') := by
  have parts : dateAccesses = [.testZero, .getClock] ++ fields.map .convert ++
    [.get .tmYear, .add .tmYear 1900, .get .tmMon, .add .tmMon 1] := rfl
  obtain ⟨r₀, read, zero, clock⟩ : ∃ r₀, perform [.testZero, .getClock] (c, r) = (c, r₀) ∧
    r₀.zero = decide (c.sysTick1s = 0) ∧ r₀.clock = c.sysTick1s := ⟨_, rfl, rfl, rfl⟩
  rw [parts, perform_append, perform_append, read, perform_convert]
  obtain ⟨r', dated⟩ := perform_add c r₀ (fields.foldl
    (fun t f => t.put (if r₀.zero then 0 else (rawTod r₀.clock).get f) f) (c.tod 0)) 1900 1
  rw [dated]
  refine ⟨r', congrArg (fun t => (c.putTod 0 t, r')) ?_⟩
  rw [zero, clock]
  by_cases none : c.sysTick1s = 0
  · simp only [none, decide_true, if_true, put_zeros]
  · rw [decide_eq_false none]
    simp only [Bool.false_eq_true, if_false, put_fields]
    exact added_rawTod none

private theorem perform_copy {id : Channel} (other : id ≠ 0) :
    ∃ r', perform (copyAccesses id) (c, r) = (c.putTod id (c.tod 0), r') := by
  have copied (fs : List Field) (c : Counters) (r : Registers) :
      ∃ r', perform (fs.flatMap fun f => [.get f, .copy id f]) (c, r) =
        (c.putTod id (fs.foldl (fun t f => t.put ((c.tod 0).get f) f) (c.tod id)), r') := by
    induction fs generalizing c r with
    | nil => exact ⟨r, by rw [List.foldl_nil, Counters.putTod, Function.update_eq_self]; rfl⟩
    | cons f fs ih =>
      obtain ⟨r', rest⟩ := ih (c.putTod id ((c.tod id).put ((c.tod 0).get f) f))
        { r with field := (c.tod 0).get f }
      rw [putTod_putTod, putTod_self, putTod_other c other.symm] at rest
      exact ⟨r', rest⟩
  obtain ⟨r', whole⟩ := copied fields c r
  rw [put_fields] at whole
  exact ⟨r', whole⟩

private theorem perform_dates :
    (perform (copyAccesses 2) (perform (copyAccesses 1) (perform dateAccesses (c, r)))).1 =
      syncMeterTodFromM0 (c.putTod 0 (todOf c.sysTick1s)) := by
  obtain ⟨r₀, own⟩ := perform_date c r
  generalize c.putTod 0 (todOf c.sysTick1s) = c at own ⊢
  obtain ⟨r₁, one⟩ := perform_copy c r₀ (by decide : (1 : Channel) ≠ 0)
  obtain ⟨r₂, two⟩ := perform_copy (c.putTod 1 (c.tod 0)) r₁ (by decide : (2 : Channel) ≠ 0)
  rw [own, one, two, putTod_other c (by decide)]
  have dates : Function.update (Function.update c.tod 1 (c.tod 0)) 2 (c.tod 0) =
      fun _ => c.tod 0 := by
    funext id
    match id with
    | 0 | 1 | 2 => rfl
  rw [Counters.putTod, Counters.putTod, syncMeterTodFromM0, dates]

private theorem withHigh_withLow (a ms : UInt64) : withHigh (withLow a ms) ms = ms := by
  rw [withHigh, withLow, ← UInt64.toBitVec_inj]
  refine BitVec.eq_of_getLsbD_eq fun i small => ?_
  simp only [BitVec.getLsbD_append, BitVec.getLsbD_extractLsb']
  by_cases low : i < 32
  · simp [low]
  · have high : i - 32 < 32 := by omega
    have place : 32 + (i - 32) = i := by omega
    simp [low, high, place]

private theorem ms_clock (clock : UInt32) : ({ r with clock := clock } : Registers).ms = r.ms := by
  cases r
  rfl

private theorem perform_seconds :
    perform [.putClock, .getClock, .put10s, .getClock, .put10m, .getClock, .put15m] (c, r) =
      ({ c with
        sysTick1s := r.sec
        sysTick10s := r.sec / 10
        sysTick10m := r.sec / 600
        sysTick15m := r.sec / 900 }, { r with clock := r.sec }) := rfl

private theorem perform_words : perform [.putLow, .putHigh, .getLow, .put32] (c, r) =
    ({ c with sysTick64 := r.ms, sysTick32 := r.ms.toUInt32 },
      { r with low := r.ms.toUInt32 }) := by
  have parts : [Access.putLow, .putHigh, .getLow, .put32] =
    [.putLow] ++ [.putHigh] ++ [.getLow, .put32] := rfl
  have low : perform [.putLow] (c, r) =
    ({ c with sysTick64 := withLow c.sysTick64 r.ms }, r) := rfl
  have high (a : UInt64) : perform [.putHigh] ({ c with sysTick64 := a }, r) =
    ({ c with sysTick64 := withHigh a r.ms }, r) := rfl
  have copied (a : UInt64) : perform [.getLow, .put32] ({ c with sysTick64 := a }, r) =
    ({ c with sysTick64 := a, sysTick32 := a.toUInt32 }, { r with low := a.toUInt32 }) := rfl
  rw [parts, perform_append, perform_append, low, high, copied, withHigh_withLow]

private theorem perform_accesses :
    (perform accesses (c, r)).1 = syncMeterTodFromM0 (Counters.putTod { c with
      sysTick1s := r.sec
      sysTick10s := r.sec / 10
      sysTick10m := r.sec / 600
      sysTick15m := r.sec / 900
      sysTick64 := r.ms
      sysTick32 := r.ms.toUInt32 } 0 (todOf r.sec)) := by
  have marks (x : Counters × Registers) :
      perform [.timeStampChanged 0, .timeStampChanged 1, .timeStampChanged 2] x = x := rfl
  rw [accesses, perform_append, perform_append, perform_append, perform_append, perform_append,
    perform_seconds, perform_words, ms_clock, marks, perform_dates]

end Accesses

/-- The counters once the setting under way has run to its end. -/
def finish (s : State) : Counters :=
  match s.settings with
  | [] => s.shared.counters
  | r :: _ => (perform r.todo (s.shared.counters, r.registers)).1

private theorem perform_frame {f : Counters → Counters}
    (frame : ∀ (a : Access) c r, a.counters (f c) r = f (a.counters c r) ∧
      a.registers (f c) r = a.registers c r) (as : List Access) (c : Counters) (r : Registers) :
    (perform as (f c, r)).1 = f (perform as (c, r)).1 := by
  induction as generalizing c r with
  | nil => rfl
  | cons a as ih =>
    obtain ⟨counters, registers⟩ := frame a c r
    have first : perform (a :: as) (f c, r) =
      perform as (a.counters (f c) r, a.registers (f c) r) := rfl
    rw [first, counters, registers, ih]
    rfl

private theorem perform_interval (d : UInt16) (as : List Access) (c : Counters) (r : Registers) :
    (perform as ({ c with dInterval := d }, r)).1 =
      { (perform as (c, r)).1 with dInterval := d } :=
  perform_frame (f := fun c => { c with dInterval := d }) (fun a c r => by cases a <;> exact ⟨rfl, rfl⟩)
    as c r

private theorem perform_idle (as : List Access) (c : Counters) (r : Registers) :
    (perform as ({ c with idleCnt := c.idleCnt + 1 }, r)).1 =
      { (perform as (c, r)).1 with idleCnt := (perform as (c, r)).1.idleCnt + 1 } :=
  perform_frame (f := fun c => { c with idleCnt := c.idleCnt + 1 })
    (fun a c r => by cases a <;> exact ⟨rfl, rfl⟩) as c r

/-- No two settings are under way. -/
def Single (s : State) : Prop := s.settings.length ≤ 1

private theorem finish_none {s : State} (none : s.settings = []) :
    finish s = s.shared.counters := by
  rw [finish, none]

private theorem single_none {s : State} (none : s.settings = []) : Single s := by
  rw [Single, none]
  exact Nat.zero_le 1

private theorem finish_tickSet {s : State} (none : s.settings = []) (sec msec : UInt32)
    (mode : Bool) :
    finish (tickSet s sec msec mode) = setClock (finish s) sec msec ∧
      Single (tickSet s sec msec mode) := by
  obtain ⟨shared, settings⟩ := s
  obtain rfl : settings = [] := none
  have now : finish ⟨shared, []⟩ = shared.counters := rfl
  rw [now, setClock, tickSet]
  by_cases other : sec ≠ shared.counters.sysTick1s
  · rw [if_pos other, if_pos other]
    exact ⟨perform_accesses _ _, Nat.le_refl 1⟩
  · rw [if_neg other, if_neg other]
    exact ⟨rfl, Nat.zero_le 1⟩

private theorem finish_proceed {s : State} (single : Single s) (n : Nat) :
    finish (proceed s n) = finish s ∧ Single (proceed s n) := by
  obtain ⟨shared, settings⟩ := s
  match settings, n with
  | [], _ => exact ⟨rfl, Nat.zero_le 1⟩
  | [r], n + 1 => exact ⟨rfl, Nat.le_refl 1⟩
  | [⟨r, []⟩], 0 => exact ⟨rfl, Nat.zero_le 1⟩
  | [⟨r, a :: todo⟩], 0 => exact ⟨rfl, Nat.le_refl 1⟩
  | _ :: _ :: _, _ => exact absurd single (by rw [Single, List.length_cons, List.length_cons]; omega)

private theorem finish_step {s : State} (single : Single s) {e : Event}
    (undisturbed : Undisturbed s e) :
    finish (step s e) = stepAtOnce (finish s) e ∧ Single (step s e) := by
  cases e with
  | tick =>
    refine ⟨?_, single⟩
    rw [finish_none undisturbed]
    exact finish_none undisturbed
  | set utc => exact finish_tickSet undisturbed utc 0 true
  | sntp unixTime fraction => exact finish_tickSet undisturbed unixTime _ false
  | proceed n => exact finish_proceed single n
  | interval d =>
    refine ⟨?_, single⟩
    obtain ⟨shared, settings⟩ := s
    cases settings with
    | nil => rfl
    | cons r rest => exact perform_interval d _ _ _
  | idle =>
    refine ⟨?_, single⟩
    obtain ⟨shared, settings⟩ := s
    cases settings with
    | nil => rfl
    | cons r rest => exact perform_idle _ _ _
  | seen id => exact ⟨rfl, single⟩

/-- Access by access, a run in which no setting is disturbed comes to what it does at once. -/
theorem finish_run {s : State} (none : s.settings = []) {es : List Event}
    (undisturbed : Along step Undisturbed s es) :
    finish (run step s es) = run stepAtOnce s.shared.counters es ∧
      (Along step (fun s e => Lasts s.shared.counters e) s es →
        Along stepAtOnce Lasts s.shared.counters es) := by
  have single := single_none none
  rw [← finish_none none]
  clear none
  induction es generalizing s with
  | nil => exact ⟨rfl, fun _ => trivial⟩
  | cons e es ih =>
    obtain ⟨same, next⟩ := finish_step single undisturbed.1
    obtain ⟨ends, lasting⟩ := ih undisturbed.2 next
    rw [same] at ends lasting
    refine ⟨ends, fun lasts => ⟨?_, lasting lasts.2⟩⟩
    cases e with
    | tick =>
      rw [finish_none undisturbed.1]
      exact lasts.1
    | _ => trivial

def reset : State where
  shared := {
    counters := {
      tick := 0
      wmTick32 := 0
      sysTick32 := 0
      sysTick64 := 0
      sysTick1s := 0
      sysTick10s := 0
      sysTick10m := 0
      sysTick15m := 0
      sysTickDemand := 0
      dInterval := 0
      tod := fun _ => todOf 0
      idleCnt := 0
      prevIdle := 0
      idlePerSec := 0 }
    tsChanged := fun _ => false }
  settings := []

/-- In every run of interrupts and settings of the clock that nothing disturbs, the counters of longer
periods and the three meters' dates follow the clock, and the millisecond counters count together;
while the clock lasts, the millisecond counter is less than a second off it. -/
theorem counters_agree {es : List Event} (undisturbed : Along step Undisturbed reset es)
    (done : (run step reset es).settings = []) :
    Derived (run step reset es).shared.counters ∧ Counted (run step reset es).shared.counters ∧
      (Along step (fun s e => Lasts s.shared.counters e) reset es →
        Near (run step reset es).shared.counters) := by
  have derived : Derived reset.shared.counters := ⟨rfl, rfl, rfl, fun _ => rfl⟩
  have counted : Counted reset.shared.counters := ⟨Nat.succ_pos 999, rfl⟩
  have near : Near reset.shared.counters := ⟨Nat.zero_le _, Nat.zero_le _⟩
  obtain ⟨ends, lasting⟩ := finish_run rfl undisturbed
  rw [finish_none done] at ends
  rw [ends]
  refine ⟨always_run (I := Derived) (fun s e held => derived_step held e) derived es,
    always_run (I := Counted) (fun s e held => counted_step held e) counted es, fun lasts => ?_⟩
  have both := invariant_run (I := fun s => Counted s ∧ Near s)
    (fun s e held lasts => ⟨counted_step held.1 e, near_step held.1 held.2 lasts⟩)
    ⟨counted, near⟩ (lasting lasts)
  exact both.2

instance (s : Counters) : (e : Event) → Decidable (Lasts s e)
  | .tick => inferInstanceAs (Decidable (s.sysTick1s.toNat + 1 < 2 ^ 32))
  | .set _ | .sntp _ _ | .proceed _ | .interval _ | .idle | .seen _ => .isTrue trivial

private theorem clock_tick_le (c : Counters) :
    (tickHandler c).sysTick1s.toNat ≤ c.sysTick1s.toNat + 1 := by
  unfold tickHandler
  dsimp only
  split
  · change (c.sysTick1s + 1).toNat ≤ _
    rw [UInt32.toNat_add]
    exact Nat.mod_le _ _
  · exact Nat.le_succ _

private theorem ticks_last (n : Nat) {s : State}
    (far : s.shared.counters.sysTick1s.toNat + n < 2 ^ 32) :
    Along step (fun s e => Lasts s.shared.counters e) s (List.replicate n .tick) := by
  induction n generalizing s with
  | zero => trivial
  | succ n ih =>
    have next : (step s .tick).shared.counters.sysTick1s.toNat ≤
        s.shared.counters.sysTick1s.toNat + 1 := clock_tick_le s.shared.counters
    exact ⟨(by omega : s.shared.counters.sysTick1s.toNat + 1 < 2 ^ 32), ih (by omega)⟩

private theorem ticks_undisturbed (n : Nat) {s : State} (none : s.settings = []) :
    Along step Undisturbed s (List.replicate n .tick) ∧
      (run step s (List.replicate n .tick)).settings = [] := by
  induction n generalizing s with
  | zero => exact ⟨trivial, none⟩
  | succ n ih =>
    obtain ⟨rest, done⟩ := ih (s := step s .tick) none
    exact ⟨⟨none, rest⟩, done⟩

/-- A second set by SNTP with its milliseconds, up to the end of the setting. -/
def setOnce : List Event :=
  .interval 900 :: .sntp 1000000 0x80000000 :: List.replicate (accesses.length + 1) (.proceed 0)

private theorem setOnce_done : Along step Undisturbed reset setOnce ∧
    (run step reset setOnce).settings = [] := by
  decide +kernel

/-- A clock that is set and a second of interrupts after it. -/
def setAndTicks : List Event := setOnce ++ List.replicate 1000 .tick

private theorem setAndTicks_done : Along step Undisturbed reset setAndTicks ∧
    (run step reset setAndTicks).settings = [] := by
  obtain ⟨undisturbed, done⟩ := setOnce_done
  obtain ⟨later, still⟩ := ticks_undisturbed 1000 done
  rw [setAndTicks, along_append, run_append]
  exact ⟨⟨undisturbed, later⟩, still⟩

private theorem setAndTicks_last :
    Along step (fun s e => Lasts s.shared.counters e) reset setAndTicks := by
  rw [setAndTicks, along_append]
  exact ⟨by decide +kernel, ticks_last 1000 (by decide +kernel)⟩

theorem counters_agree_set :
    Derived (run step reset setAndTicks).shared.counters ∧
      Counted (run step reset setAndTicks).shared.counters ∧
      Near (run step reset setAndTicks).shared.counters := by
  obtain ⟨derived, counted, near⟩ := counters_agree setAndTicks_done.1 setAndTicks_done.2
  exact ⟨derived, counted, near setAndTicks_last⟩

def lastMs : State :=
  reset.withCounters { reset.shared.counters with tick := 999, dInterval := 900 }

/-- A setting with an interrupt behind the first of its accesses and one behind the tenth. -/
def setInterrupted : List Event :=
  .set 1000000 :: .proceed 0 :: .tick :: List.replicate 9 (.proceed 0) ++
    .tick :: List.replicate accesses.length (.proceed 0)

def interrupted : State := run step lastMs setInterrupted

private theorem interrupted_off : interrupted.settings = [] ∧
    apart interrupted.shared.counters = -1 ∧ ¬ Near interrupted.shared.counters ∧
    interrupted.shared.counters.tick < 1000 ∧
    interrupted.shared.counters.sysTick1s.toNat + 1000 < 2 ^ 32 := by
  unfold Near
  decide +kernel

/-- From any state whatever, also one that interrupts within settings have left: after a thousand
interrupts that disturb no setting the counters of longer periods and the dates follow the clock, and
so does the demand counter, if the clock and the interval are left alone meanwhile.  The millisecond
counters stay as far apart, and while the clock lasts as far ahead of it, until it is set again. -/
theorem counters_settle {s : State} (none : s.settings = []) {es : List Event}
    (undisturbed : Along step Undisturbed s es) (done : (run step s es).settings = [])
    (second : 1000 ≤ es.countP Event.isTick) :
    Derived (run step s es).shared.counters ∧
      ((∀ e ∈ es, Steady e) → DemandRight (run step s es).shared.counters) ∧
      ((∀ e ∈ es, Unset e) →
        apart (run step s es).shared.counters = apart s.shared.counters ∧
          (s.shared.counters.tick < 1000 →
            Along step (fun s e => Lasts s.shared.counters e) s es →
            ahead (run step s es).shared.counters = ahead s.shared.counters)) := by
  obtain ⟨ends, lasting⟩ := finish_run none undisturbed
  rw [finish_none done] at ends
  rw [ends]
  obtain ⟨derived, demand⟩ := settle_run s.shared.counters es (by omega) (by omega)
  refine ⟨derived, demand, fun unset => ⟨?_, fun part lasts => ?_⟩⟩
  · exact invariant_run (I := fun c => apart c = apart s.shared.counters)
      (fun c e held unset => (apart_step c unset).trans held) rfl
      (along_of_forall unset s.shared.counters)
  · have both := (along_of_forall unset s.shared.counters).and (lasting lasts)
    have kept := invariant_run
      (I := fun c => ahead c = ahead s.shared.counters ∧ c.tick < 1000)
      (fun c e held given =>
        have next := ahead_step held.2 given.1 given.2
        ⟨next.1.trans held.1, next.2⟩) ⟨rfl, part⟩ both
    exact kept.1

/-- After a second of interrupts the other counters follow a clock whose setting was interrupted,
and the millisecond counters are as far off as the setting left them. -/
theorem counters_settle_interrupted :
    ¬ Near interrupted.shared.counters ∧
      Derived (run step interrupted (List.replicate 1000 .tick)).shared.counters ∧
      DemandRight (run step interrupted (List.replicate 1000 .tick)).shared.counters ∧
      apart (run step interrupted (List.replicate 1000 .tick)).shared.counters = -1 ∧
      ahead (run step interrupted (List.replicate 1000 .tick)).shared.counters =
        ahead interrupted.shared.counters := by
  obtain ⟨done, off, far, part, clock⟩ := interrupted_off
  obtain ⟨undisturbed, still⟩ := ticks_undisturbed 1000 done
  have second : 1000 ≤ (List.replicate 1000 Event.tick).countP Event.isTick := by
    rw [List.countP_replicate]
    exact Nat.le_refl 1000
  have ticks : ∀ e ∈ List.replicate 1000 Event.tick, e = .tick :=
    fun e inside => (List.mem_replicate.mp inside).2
  obtain ⟨derived, demand, kept⟩ := counters_settle done undisturbed still second
  obtain ⟨together, before⟩ := kept fun e inside => ticks e inside ▸ trivial
  exact ⟨far, derived, demand fun e inside => ticks e inside ▸ trivial, together.trans off,
    before part (ticks_last 1000 clock)⟩

end SV300.Ticks
