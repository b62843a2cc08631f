/- SV300/Demand/Predict
   digest: When the predicted demand is the extrapolation of the open interval. -/

import SV300.Demand.Average

set_option autoImplicit false
set_option relaxedAutoImplicit false

namespace SV300.Demand.Predict

open SV300.Demand.Scan
open SV300.Demand.Average
open SV300.Library.Runs

/-- The energy of the interval if the present power continued to its end. -/
def extrapolated (w : Watched) (x : Sample) : Rat :=
  energy Sample.dtP 0 (w.interval ++ [x]) + flow 0 x.dtP *
    ((w.sys.cntl.dInterval.toNat : Rat) - (w.interval.length + 1 : Nat))

/-- The prediction divides by a nonzero number and is the extrapolated average power. -/
structure Predicts (w : Watched) (x : Sample) : Prop where
  divides : predictDivisor (collect w.sys x).cntl ≠ 0
  pdP : (intervals w.sys x).dm.pdP =
    extrapolated w x * 3600 / (w.sys.cntl.dInterval.toNat : Rat)

def minutes (w : Watched) : Nat := (w.interval.length + 1) / 60

/-- How many of the configured intervals make an hour. -/
def perHour (w : Watched) : Nat := 3600 / w.sys.cntl.dInterval.toNat

/-- A minute is over, and as many times as the collected minutes fit into an hour, the configured
interval does; or nothing is to be predicted. -/
def Fits (w : Watched) (x : Sample) : Prop :=
  0 < minutes w ∧
    (extrapolated w x = 0 ∨ perHour w * minutes w ≤ 60 ∧ 60 < (perHour w + 1) * minutes w)

instance (w : Watched) (x : Sample) : Decidable (Fits w x) := inferInstanceAs (Decidable (_ ∧ _))

private theorem flow_import (dt : Rat) : (if dt < 0 then 0 else dt) = flow 0 dt := by
  unfold flow
  split
  · rename_i loss
    exact (max_eq_right loss.le).symm
  · rename_i gain
    exact (max_eq_left (not_lt.mp gain)).symm

private theorem intervals_pdP (s : Sys) (x : Sample) :
    (intervals s x).dm.pdP = (collect s x).dm.pdP := by
  obtain ⟨ts, bins, dm⟩ := intervals_dm s x
  rw [dm]
  unfold closeInterval
  split <;> rfl

variable {w : Watched}

private theorem divisor_eq (law : Collected w.sys.cntl w.interval w.quarter)
    (short : w.interval.length + 1 < 65536) (x : Sample) :
    predictDivisor (collect w.sys x).cntl = minutes w := by
  have counted := (collect_collected law x).seconds
  rw [List.length_append, List.length_singleton] at counted
  rw [predictDivisor, counted, UInt16.toNat_ofNat', Nat.mod_eq_of_lt short, minutes]

private theorem pdP_eq (law : Collected w.sys.cntl w.interval w.quarter)
    (short : w.interval.length + 1 < 65536) (x : Sample) :
    (intervals w.sys x).dm.pdP = extrapolated w x * (60 / minutes w : Nat) := by
  have counted := (collect_collected law x).seconds
  rw [List.length_append, List.length_singleton] at counted
  have seconds : (collect w.sys x).cntl.mInterval.toNat = w.interval.length + 1 := by
    rw [counted, UInt16.toNat_ofNat', Nat.mod_eq_of_lt short]
  have predicted : (collect w.sys x).dm.pdP =
      (w.sys.cntl.dmdP 0 + (if x.dtP < 0 then 0 else x.dtP) *
        (((w.sys.cntl.dInterval.toNat : Int) - (collect w.sys x).cntl.mInterval.toNat + 1 : Int) :
          Rat)) * ((60 / predictDivisor (collect w.sys x).cntl : Nat) : Rat) := rfl
  rw [intervals_pdP, predicted, divisor_eq law short, flow_import, seconds, law.dmdP, extrapolated,
    energy_append]
  push_cast
  ring

private theorem scale_eq {dInterval : UInt16} (configured : Configured dInterval) (e : Rat) :
    e * 3600 / (dInterval.toNat : Rat) = e * (3600 / dInterval.toNat : Nat) := by
  rcases configured with h | h | h | h | h <;> subst h <;> norm_num [UInt16.toNat] <;> ring

private theorem div_eq_iff_bounds {q : Nat} (positive : 0 < q) (n k : Nat) :
    n / q = k ↔ k * q ≤ n ∧ n < (k + 1) * q := by
  rw [← Nat.le_div_iff_mul_le positive, ← Nat.div_lt_iff_lt_mul positive]
  omega

private theorem predicts_iff (law : Collected w.sys.cntl w.interval w.quarter)
    (short : w.interval.length + 1 < 65536) (x : Sample) : Predicts w x ↔ Fits w x := by
  have same : (intervals w.sys x).dm.pdP =
      extrapolated w x * 3600 / (w.sys.cntl.dInterval.toNat : Rat) ↔
      extrapolated w x = 0 ∨ 60 / minutes w = perHour w := by
    rw [pdP_eq law short, scale_eq law.configured, mul_eq_mul_left_iff, Nat.cast_inj, perHour]
    exact or_comm
  constructor
  · intro predicts
    have whole : 0 < minutes w := by
      rw [← divisor_eq law short x]
      exact Nat.pos_of_ne_zero predicts.divides
    rw [Fits, ← div_eq_iff_bounds whole]
    exact ⟨whole, same.mp predicts.pdP⟩
  · rintro ⟨whole, fits⟩
    rw [← div_eq_iff_bounds whole] at fits
    refine ⟨?_, same.mpr fits⟩
    rw [divisor_eq law short x]
    exact whole.ne'

/-- After every boot and run, the next scan predicts rightly exactly in the minutes that fit. -/
theorem prediction_right_iff (interval : UInt16) (file : Option (DemandData × DemandLog))
    (now : UInt32) (ticks : Nat) (es : List Event) (x : Sample)
    (short : (run watch (booted interval file now ticks) es).interval.length + 1 < 65536) :
    Predicts (run watch (booted interval file now ticks) es) x ↔
      Fits (run watch (booted interval file now ticks) es) x :=
  predicts_iff (run_collected es interval file now ticks) short x

/-- A scan each second, up to the last second of a minute. -/
def minuteFull : Watched :=
  run watch (booted 0 none 899 1)
    (.scan oneKwh :: (List.replicate 59 [.tick, .scan oneKwh]).flatten)

theorem minuteFull_predicts : minutes minuteFull = 1 ∧ Predicts minuteFull oneKwh := by
  have one : minutes minuteFull = 1 := by decide +kernel
  have each : perHour minuteFull = 60 := by decide +kernel
  refine ⟨one, (prediction_right_iff 0 none 899 1 _ oneKwh (by decide +kernel)).mpr ?_⟩
  change Fits minuteFull oneKwh
  rw [Fits, one, each]
  exact ⟨by decide, .inr (by decide)⟩

/-- The first second after a boot. -/
theorem first_prediction_divides_by_zero :
    ¬ Predicts (run watch (booted 0 none 899 1) [.scan oneKwh]) oneKwh := by
  intro predicts
  exact predicts.divides (by decide)

end SV300.Demand.Predict
