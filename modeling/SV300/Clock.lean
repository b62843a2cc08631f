/- SV300/Clock
   digest: Calendar dates of the one-second tick, as the firmware's uLocalTime reports them. -/

import Mathlib.Tactic.Common

set_option autoImplicit false
set_option relaxedAutoImplicit false

namespace SV300.Clock

/-- The date part of a `struct tm`. -/
structure Tm where
  tmYear : Nat
  tmMon : Nat
  tmMday : Nat
  deriving DecidableEq, Repr

/-- The C library's `localtime_r` with no zone offset: years since 1900, months from zero.

Days are counted from 1 March of year 0, so that a leap day ends its year. -/
def localtimeR (utc : UInt32) : Tm :=
  let z := utc.toNat / 86400 + 719468
  let era := z / 146097
  let doe := z % 146097
  let yoe := (doe - doe / 1460 + doe / 36524 - doe / 146096) / 365
  let doy := doe - (365 * yoe + yoe / 4 - yoe / 100)
  let mp := (5 * doy + 2) / 153
  let mon := if mp < 10 then mp + 2 else mp - 10
  let year := yoe + era * 400 + (if mon < 2 then 1 else 0)
  { tmYear := year - 1900, tmMon := mon, tmMday := doy - (153 * mp + 2) / 5 + 1 }

/-- `uLocalTime`: full years and months from one; tick zero gives an all-zero date. -/
def uLocalTime (utc : UInt32) : Tm :=
  if utc = 0 then { tmYear := 0, tmMon := 0, tmMday := 0 }
  else
    let t := localtimeR utc
    { t with tmYear := t.tmYear + 1900, tmMon := t.tmMon + 1 }

theorem uLocalTime_bounds (utc : UInt32) :
    (uLocalTime utc).tmYear < 10000 ∧ (uLocalTime utc).tmMon < 100 ∧
      (uLocalTime utc).tmMday < 100 := by
  unfold uLocalTime
  split_ifs
  · decide
  · have range := utc.toNat_lt
    unfold localtimeR
    dsimp only
    refine ⟨?_, ?_, ?_⟩
    · split_ifs <;> omega
    · split_ifs <;> omega
    · omega

theorem uLocalTime_of_day {a b : UInt32} (seta : a ≠ 0) (setb : b ≠ 0)
    (same : a.toNat / 86400 = b.toNat / 86400) : uLocalTime a = uLocalTime b := by
  rw [uLocalTime, uLocalTime, if_neg seta, if_neg setb]
  unfold localtimeR
  rw [same]

/-- The day of the week in a tick's `struct tm`, from Sunday. -/
def tmWday (utc : UInt32) : Nat := if utc = 0 then 0 else (utc.toNat / 86400 + 4) % 7

/-- The hour and the minute in a tick's `struct tm`. -/
def tmHour (utc : UInt32) : Nat := utc.toNat % 86400 / 3600
def tmMin (utc : UInt32) : Nat := utc.toNat % 3600 / 60

theorem tmHour_lt (utc : UInt32) : tmHour utc < 24 := by
  unfold tmHour
  omega

theorem tmMin_lt (utc : UInt32) : tmMin utc < 60 := by
  unfold tmMin
  omega

/-- The C library's `mktime` of a tick's date at 0:00:00, months and years taken back to its own
counting.  The all-zero date has no tick. -/
def mktimeMidnight (utc : UInt32) : UInt32 :=
  if utc = 0 then 0xffffffff else UInt32.ofNat (utc.toNat / 86400 * 86400)

def yearMonth (utc : UInt32) : Nat × Nat := ((uLocalTime utc).tmYear, (uLocalTime utc).tmMon)

example : uLocalTime 951782400 = { tmYear := 2000, tmMon := 2, tmMday := 29 } := by
  decide +kernel

end SV300.Clock
