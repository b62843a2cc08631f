/- SV300/Calendar
   digest: The dates of uLocalTime are in the order of their days. -/

import Mathlib.Order.Monotone.Basic
import Mathlib.Order.Nat
import SV300.Clock

set_option autoImplicit false
set_option relaxedAutoImplicit false

namespace SV300.Calendar

open SV300.Clock

/-- The days before 1 March of a year, from 1 March of year 0 on. -/
def daysBefore (y : Nat) : Nat := 365 * y + y / 4 - y / 100 + y / 400

private theorem daysBefore_succ (y : Nat) :
    daysBefore y ≤ daysBefore (y + 1) ∧ daysBefore (y + 1) ≤ daysBefore y + 367 := by
  unfold daysBefore
  omega

private theorem daysBefore_mono : Monotone daysBefore :=
  monotone_nat_of_le_succ fun y => (daysBefore_succ y).1

private theorem daysBefore_era (y n : Nat) :
    daysBefore (y + n * 400) = daysBefore y + n * 146097 := by
  have fourth : (y + n * 400) / 4 = y / 4 + n * 100 := by omega
  have hundredth : (y + n * 400) / 100 = y / 100 + n * 4 := by omega
  have leap : (y + n * 400) / 400 = y / 400 + n := by omega
  unfold daysBefore
  omega

private theorem yearOfEra_holds {doe y : Nat} (inside : doe < 146097)
    (year : y = (doe - doe / 1460 + doe / 36524 - doe / 146096) / 365) :
    y < 400 ∧ 365 * y + y / 4 - y / 100 ≤ doe ∧ doe < daysBefore (y + 1) := by
  unfold daysBefore
  have centuries : doe / 36524 = 0 ∨ doe / 36524 = 1 ∨ doe / 36524 = 2 ∨ doe / 36524 = 3 ∨
      doe / 36524 = 4 := by omega
  have century : doe / 36524 = y / 100 ∨ doe / 36524 = 4 := by
    rcases centuries with h | h | h | h | h <;> omega
  have leap : y / 4 ≤ doe / 1460 ∧ doe / 1460 ≤ (y + 1) / 4 := by
    rcases centuries with h | h | h | h | h <;> omega
  by_cases last : y % 100 = 99
  · rcases centuries with h | h | h | h | h <;> omega
  · have same : (y + 1) / 100 = y / 100 := by omega
    rcases centuries with h | h | h | h | h <;> omega

private theorem uLocalTime_march {utc : UInt32} (set : utc ≠ 0) :
    ∃ y doy, utc.toNat / 86400 + 719468 = daysBefore y + doy ∧
      daysBefore y + doy < daysBefore (y + 1) ∧
      (uLocalTime utc).tmYear * 12 + (uLocalTime utc).tmMon = 12 * y + (5 * doy + 2) / 153 + 3 ∧
      1 ≤ (uLocalTime utc).tmMon ∧ (uLocalTime utc).tmMon ≤ 12 ∧
      (uLocalTime utc).tmMday = doy - (153 * ((5 * doy + 2) / 153) + 2) / 5 + 1 := by
  rw [uLocalTime, if_neg set]
  unfold localtimeR
  dsimp only
  generalize late : utc.toNat / 86400 + 719468 = z
  generalize year : (z % 146097 - z % 146097 / 1460 + z % 146097 / 36524 -
    z % 146097 / 146096) / 365 = y
  obtain ⟨short, begun, ends⟩ := yearOfEra_holds (Nat.mod_lt z (by decide)) year.symm
  generalize rest : z % 146097 - (365 * y + y / 4 - y / 100) = doy
  have now := daysBefore_era y (z / 146097)
  have next : daysBefore (y + z / 146097 * 400 + 1) = daysBefore (y + 1) + z / 146097 * 146097 :=
    (congrArg daysBefore (Nat.add_right_comm _ _ _)).trans (daysBefore_era (y + 1) _)
  have flat : daysBefore y = 365 * y + y / 4 - y / 100 := by
    unfold daysBefore
    omega
  have days := daysBefore_succ y
  refine ⟨y + z / 146097 * 400, doy, by omega, by omega, ?_, ?_, ?_, rfl⟩
  · split_ifs <;> omega
  · omega
  · split_ifs <;> omega

theorem uLocalTime_zero_lt {b : UInt32} (set : b ≠ 0) :
    (uLocalTime 0).tmYear < (uLocalTime b).tmYear := by
  rw [uLocalTime, uLocalTime, if_pos rfl, if_neg set]
  exact Nat.succ_pos _

theorem uLocalTime_lt {a b : UInt32} (later : a.toNat / 86400 < b.toNat / 86400) :
    (uLocalTime a).tmYear < (uLocalTime b).tmYear ∨
      (uLocalTime a).tmYear = (uLocalTime b).tmYear ∧
        ((uLocalTime a).tmMon < (uLocalTime b).tmMon ∨
          (uLocalTime a).tmMon = (uLocalTime b).tmMon ∧
            (uLocalTime a).tmMday < (uLocalTime b).tmMday) := by
  have setb : b ≠ 0 := by
    rintro rfl
    exact absurd later (Nat.not_lt_zero _)
  by_cases seta : a = 0
  · exact .inl (seta ▸ uLocalTime_zero_lt setb)
  obtain ⟨x, doyx, daya, enda, monthsa, firsta, lasta, mdaya⟩ := uLocalTime_march seta
  obtain ⟨y, doyy, dayb, endb, monthsb, firstb, lastb, mdayb⟩ := uLocalTime_march setb
  have years : x ≤ y := by
    by_contra less
    have past : daysBefore (y + 1) ≤ daysBefore x := daysBefore_mono (Nat.lt_of_not_le less)
    omega
  rcases Nat.lt_or_eq_of_le years with less | rfl
  · have whole := (daysBefore_succ x).2
    have months : (5 * doyx + 2) / 153 < 12 := by omega
    omega
  · omega

end SV300.Calendar
