/- SV300/Quality/Statistics
   digest: When the weekly statistics keep their errors within their counts. -/

import SV300.Library.Rounded
import SV300.Library.Runs
import SV300.Quality.Update

set_option autoImplicit false
set_option relaxedAutoImplicit false

namespace SV300.Quality.Statistics

open SV300.Library.Rounded
open SV300.Library.Runs
open SV300.Quality.Week
open SV300.Quality.QwFile (WeekFile)
open SV300.Quality.Update

/-- The two formats of the firmware's arithmetic. -/
structure Formats where
  single : Rounding 24
  double : Rounding 53

/-- The values of a `float`. -/
def Formats.Float (_ : Formats) : Type := Value

instance (A : Formats) : Measure A.Float where
  zero := Value.finite 0
  add x y := (Value.add x y).round A.single
  sub x y := (Value.add x (Value.neg y)).round A.single
  mul x y := (Value.mul x y).round A.single
  div x y := (Value.div x y).round A.single
  intCast n := Value.finite (A.single.round n)
  lt x y := Value.lt x y = true
  decLt x y := inferInstanceAs (Decidable (Value.lt x y = true))
  complement x := (((Value.finite 1).add (Value.neg x)).round A.double).round A.single
  literal x := ((Value.finite x).round A.double).round A.single
  toInt := Value.toInt (-2 ^ 31) (2 ^ 31 - 1)

variable {F : Type} [Measure F]

/-- A share shown in hundredths of a percent is one. -/
def Share (v : QualVariation F) : Prop := 0 ≤ getVarPercent v ∧ getVarPercent v ≤ 10000

/-- Every statistic of a week has no more errors than samples, and its share is one. -/
structure Sound (w : QualWeek F) : Prop where
  single : ∀ q : Single, (w.var.single q).err ≤ q.count w.count10s w.count10m
  phase : ∀ q i, (w.var.phase q i).err ≤ w.count10m
  singleShare : ∀ q, Share (w.var.single q)
  phaseShare : ∀ q i, Share (w.var.phase q i)

/-- The record an update adds its ten minutes to, if it does. -/
def recorded (smp : Sample F) (s : Sys F) : Option (QualWeek F) :=
  if Due10m s.sysTick1s (sampled smp s).log ∧ smp.active then some (addedWeek (checked smp s))
  else none

/-- What an event writes to the week is sound, and no statistic was divided by zero. -/
def WeekSafe (s : Sys F) : Event F → Prop
  | .update smp => ∀ w, recorded smp s = some w →
      Sound w ∧ 0 < w.count10s.toInt32.toInt ∧ 0 < w.count10m.toInt32.toInt
  | _ => True

/-- A mean frequency outside the band of a statistic. -/
def OutOfBand (smp : Sample F) (freq : F) : Single → Prop
  | .freq1 => OutOf (smp.freqLo 0) (smp.freqHi 0) freq
  | .freq2 => OutOf (smp.freqLo 1) (smp.freqHi 1) freq
  | .voltbal => False

/-- A ten-second check past the sixtieth finds no sixty-first error, and the week's counts stay
within an `int`. -/
def Fits (s : Sys F) : Event F → Prop
  | .update smp =>
    let l := collect smp s.log
    (Due10s s.sysTick1s l → nFreq ≤ l.q10m.avg.count10s →
      ∀ q, OutOfBand smp (meanFreq l) q → (l.q10m.var.single q).err < nFreq) ∧
    (Due10m s.sysTick1s l → smp.active →
      s.log.qw.count10s.toNat + min nFreq.toNat (s.log.q10m.avg.count10s.toNat + 1) < 2 ^ 31 ∧
      s.log.qw.count10m.toNat + 1 < 2 ^ 31)
  | _ => True

/-- The invariant: the week is sound, the ten minutes have counted every error, and the two
ten-minute timers agree. -/
structure Ready (s : Sys F) : Prop where
  week : Sound s.log.qw
  freq : ∀ q, (s.log.q10m.var.single q).err ≤ s.log.q10m.avg.count10s
  voltbal : (s.log.q10m.var.single .voltbal).err = 0
  phase : ∀ q i, (s.log.q10m.var.phase q i).err = 0
  counted : s.log.q10m.avg.count10s ≤ nFreq
  aligned : s.log.q10m.ts10s / 60 = s.log.q10m.ts10m

private theorem tenMinutes_of_tenSeconds (now : UInt32) : sysTick10s now / 60 = sysTick10m now := by
  have ten : (10 : UInt32).toNat = 10 := rfl
  have sixty : (60 : UInt32).toNat = 60 := rfl
  have sixHundred : (600 : UInt32).toNat = 600 := rfl
  rw [← UInt32.toNat_inj, sysTick10s, sysTick10m, UInt32.toNat_div, UInt32.toNat_div,
    UInt32.toNat_div, ten, sixty, sixHundred]
  omega

private theorem qualVarUpdate_err (v : QualVariation F) (val lo hi : F) (count : UInt32) :
    (qualVarUpdate v val lo hi count).err = if OutOf lo hi val then v.err + 1 else v.err := by
  rw [qualVarUpdate]
  split
  all_goals rfl

private theorem one_error {v : QualVariation F} (none : v.err = 0) (val lo hi : F)
    (count : UInt32) : (qualVarUpdate v val lo hi count).err ≤ 1 := by
  rw [qualVarUpdate_err, none]
  split
  all_goals decide

omit [Measure F] in
private theorem no_error {v : QualVariation F} (none : v.err = 0) : v.err ≤ 1 := by
  rw [none]
  decide

private theorem one_harmonic {v : QualVariation F} (none : v.err = 0) (uhd : Fin 24 → F)
    (count : UInt32) (js : List (Fin 24)) : (checkHarmonics v uhd count js).err ≤ 1 := by
  induction js with
  | nil =>
    rw [checkHarmonics, none]
    decide
  | cons j js ih =>
    rw [checkHarmonics]
    split
    · exact one_error none _ _ _ count
    · exact ih

private theorem count_next {n : UInt32} (le : n ≤ nFreq) :
    (if n < nFreq then n + 1 else n).toNat = min nFreq.toNat (n.toNat + 1) := by
  have sixty : nFreq.toNat = 60 := rfl
  have one : (1 : UInt32).toNat = 1 := rfl
  rw [UInt32.le_iff_toNat_le, sixty] at le
  split
  · rename_i below
    rw [UInt32.lt_iff_toNat_lt, sixty] at below
    rw [UInt32.toNat_add, one, sixty]
    omega
  · rename_i full
    rw [UInt32.lt_iff_toNat_lt, sixty] at full
    omega

/-- What the invariant says of the log after the ten-second check. -/
structure Checked10s (l l' : QualLogData F) (now : UInt32) : Prop where
  qw : l'.qw = l.qw
  tsChanged : l'.tsChanged = l.tsChanged
  ts10m : l'.q10m.ts10m = l.q10m.ts10m
  freq : ∀ q, (l'.q10m.var.single q).err ≤ l'.q10m.avg.count10s
  voltbal : (l'.q10m.var.single .voltbal).err = 0
  phase : ∀ q i, (l'.q10m.var.phase q i).err = 0
  counted : l'.q10m.avg.count10s ≤ nFreq
  idle : ¬Due10s now l → l'.q10m.ts10s = l.q10m.ts10s
  due : Due10s now l → l'.q10m.ts10s = sysTick10s now ∧
    l'.q10m.avg.count10s.toNat = min nFreq.toNat (l.q10m.avg.count10s.toNat + 1)

private theorem freq_counted {v : QualVariation F} {n : UInt32} (within : v.err ≤ n)
    (le : n ≤ nFreq) (freq lo hi : F) (count : UInt32)
    (fits : nFreq ≤ n → OutOf lo hi freq → v.err < nFreq) :
    (qualVarUpdate v freq lo hi count).err ≤ if n < nFreq then n + 1 else n := by
  have sixty : nFreq.toNat = 60 := rfl
  have one : (1 : UInt32).toNat = 1 := rfl
  rw [qualVarUpdate_err, UInt32.le_iff_toNat_le, count_next le]
  rw [UInt32.le_iff_toNat_le] at within le fits
  split
  · rename_i out
    have full := fun reached => UInt32.lt_iff_toNat_lt.mp (fits reached out)
    rw [UInt32.toNat_add, one]
    rw [sixty] at full le ⊢
    omega
  · omega

private theorem check10s_checked {s : Sys F} (ready : Ready s) (smp : Sample F)
    (fits : Fits s (.update smp)) :
    Checked10s s.log (sampled smp s).log s.sysTick1s := by
  have room := fits.1
  have sampled_eq : (sampled smp s).log =
      average smp (check10s s.sysTick1s smp (collect smp s.log)) := rfl
  rw [sampled_eq, check10s]
  split
  · rename_i due
    have counted := count_next ready.counted
    refine ⟨rfl, rfl, rfl, ?_, ready.voltbal, ready.phase, ?_, fun idle => absurd due idle,
      fun _ => ⟨rfl, counted⟩⟩
    · intro q
      have within := ready.freq q
      have band := fun full => room due full q
      cases q with
      | freq1 => exact freq_counted within ready.counted _ _ _ _ band
      | freq2 => exact freq_counted within ready.counted _ _ _ _ band
      | voltbal =>
        change (s.log.q10m.var.single .voltbal).err ≤ _
        rw [ready.voltbal]
        exact UInt32.zero_le
    · rw [UInt32.le_iff_toNat_le]
      change (if s.log.q10m.avg.count10s < nFreq then s.log.q10m.avg.count10s + 1
        else s.log.q10m.avg.count10s).toNat ≤ nFreq.toNat
      rw [counted]
      exact min_le_left _ _
  · rename_i idle
    exact ⟨rfl, rfl, rfl, ready.freq, ready.voltbal, ready.phase, ready.counted, fun _ => rfl,
      fun due => absurd due idle⟩

private theorem due10s_of_due10m {s : Sys F} (ready : Ready s) {smp : Sample F}
    (l : Checked10s s.log (sampled smp s).log s.sysTick1s)
    (due : Due10m s.sysTick1s (sampled smp s).log) : Due10s s.sysTick1s s.log := by
  rcases due with moved | changed
  · by_contra idle
    have stays : s.log.q10m.ts10s = sysTick10s s.sysTick1s := by
      by_contra apart
      exact idle (Or.inl apart)
    apply moved
    rw [l.ts10m, ← ready.aligned, stays, tenMinutes_of_tenSeconds]
  · rw [l.tsChanged] at changed
    exact Or.inr changed

/-- Arithmetic in which the share of errors in a count is a share. -/
def Fair (F : Type) [Measure F] : Prop :=
  Share (⟨0, 0⟩ : QualVariation F) ∧
  ∀ (err count : UInt32), err ≤ count → 0 < count.toInt32.toInt →
    Share (⟨err, ((err.toNat : Int) : F) / ((count.toInt32.toInt : Int) : F)⟩ : QualVariation F)

private theorem toInt_of_small {n : UInt32} (small : n.toNat < 2 ^ 31) :
    n.toInt32.toInt = n.toNat := by
  have wide : n.toInt32.toInt = n.toBitVec.toInt := rfl
  rw [wide, BitVec.toInt_eq_toNat_of_lt]
  · rfl
  · have same : n.toBitVec.toNat = n.toNat := rfl
    omega

private theorem toNat_add_of_small {m n : UInt32} (small : m.toNat + n.toNat < 2 ^ 31) :
    (m + n).toNat = m.toNat + n.toNat := by
  rw [UInt32.toNat_add]
  omega

private theorem weekUpdate_sound (fair : Fair F) {v : QualVariation F} {err count more : UInt32}
    (within : v.err ≤ count) (counted : err ≤ more) (pos : 0 < more)
    (small : count.toNat + more.toNat < 2 ^ 31) :
    (qualVarWeekUpdate v err (count + more)).err ≤ count + more ∧
      Share (qualVarWeekUpdate v err (count + more)) := by
  have zero : (0 : UInt32).toNat = 0 := rfl
  rw [UInt32.le_iff_toNat_le] at within counted
  rw [UInt32.lt_iff_toNat_lt, zero] at pos
  have errors : v.err + err ≤ count + more := by
    rw [UInt32.le_iff_toNat_le, toNat_add_of_small (by omega), toNat_add_of_small small]
    omega
  have divisor : 0 < (count + more).toInt32.toInt := by
    have sum := toNat_add_of_small small
    rw [toInt_of_small (by omega), sum]
    omega
  exact ⟨errors, fair.2 _ _ errors divisor⟩

private theorem Sound.counted {w : QualWeek F} (sound : Sound w) (n : UInt32) :
    Sound { w with evtCount := n } :=
  ⟨sound.single, sound.phase, sound.singleShare, sound.phaseShare⟩

private theorem newWeek_sound (fair : Fair F) (startDay : UInt16) (now : UInt32) :
    Sound (newWeek startDay now : QualWeek F) := by
  refine ⟨?_, ?_, fun _ => fair.1, fun _ _ => fair.1⟩
  · intro q
    cases q
    all_goals exact UInt32.zero_le
  · intro q i
    exact UInt32.zero_le

private theorem updateQualWeek_sound (fair : Fair F) {w : QualWeek F} {q10m : QualData10m F}
    (now : UInt32) (sound : Sound w)
    (freq : ∀ q, (q10m.var.single q).err ≤ q10m.avg.count10s) (pos : 0 < q10m.avg.count10s)
    (voltbal : (q10m.var.single .voltbal).err ≤ 1) (phase : ∀ q i, (q10m.var.phase q i).err ≤ 1)
    (small10s : w.count10s.toNat + q10m.avg.count10s.toNat < 2 ^ 31)
    (small10m : w.count10m.toNat + 1 < 2 ^ 31) :
    Sound (updateQualWeek now q10m w) ∧
      0 < (updateQualWeek now q10m w).count10s.toInt32.toInt ∧
      0 < (updateQualWeek now q10m w).count10m.toInt32.toInt := by
  have zero : (0 : UInt32).toNat = 0 := rfl
  have one : (1 : UInt32).toNat = 1 := rfl
  have divisor10s : 0 < (w.count10s + q10m.avg.count10s).toInt32.toInt := by
    have sum := toNat_add_of_small small10s
    rw [UInt32.lt_iff_toNat_lt, zero] at pos
    rw [toInt_of_small (by omega), sum]
    omega
  have divisor10m : 0 < (w.count10m + 1).toInt32.toInt := by
    have sum : (w.count10m + 1).toNat = w.count10m.toNat + 1 := toNat_add_of_small small10m
    rw [toInt_of_small (by omega), sum]
    omega
  have added : Sound (addTenMinutes now q10m w) := by
    have single : ∀ q : Single,
        ((addTenMinutes now q10m w).var.single q).err ≤
            q.count (w.count10s + q10m.avg.count10s) (w.count10m + 1) ∧
          Share ((addTenMinutes now q10m w).var.single q) := by
      intro q
      have within := sound.single q
      cases q with
      | freq1 => exact weekUpdate_sound fair within (freq .freq1) pos small10s
      | freq2 => exact weekUpdate_sound fair within (freq .freq2) pos small10s
      | voltbal => exact weekUpdate_sound fair within voltbal (by decide) small10m
    have three : ∀ q i, ((addTenMinutes now q10m w).var.phase q i).err ≤ w.count10m + 1 ∧
        Share ((addTenMinutes now q10m w).var.phase q i) := fun q i =>
      weekUpdate_sound fair (sound.phase q i) (phase q i) (by decide) small10m
    exact ⟨fun q => (single q).1, fun q i => (three q i).1, fun q => (single q).2,
      fun q i => (three q i).2⟩
  rw [updateQualWeek, judge]
  split
  all_goals
    exact ⟨⟨added.single, added.phase, added.singleShare, added.phaseShare⟩, divisor10s,
      divisor10m⟩

omit [Measure F] in
private theorem pqQueueJob_frame (s : Sys F) :
    (pqQueueJob s).2.sysTick1s = s.sysTick1s ∧ (pqQueueJob s).2.log.q10m = s.log.q10m ∧
      ∃ n, (pqQueueJob s).2.log.qw = { s.log.qw with evtCount := n } := by
  rw [pqQueueJob]
  split
  · exact ⟨rfl, rfl, s.log.qw.evtCount, rfl⟩
  · exact ⟨rfl, rfl, _, rfl⟩

private theorem updateWeek_cases (active : Bool) (s : Sys F) :
    (updateWeek active s).sysTick1s = s.sysTick1s ∧
      (updateWeek active s).log.q10m = s.log.q10m ∧
      ((updateWeek active s).log.qw = s.log.qw ∨
        (active = true ∧ ∃ n, (updateWeek active s).log.qw = { addedWeek s with evtCount := n }) ∨
        (updateWeek active s).log.qw = newWeek s.startDay s.sysTick1s) := by
  rw [updateWeek]
  split
  · rename_i on
    split
    · obtain ⟨clock, q10m, n, qw⟩ := pqQueueJob_frame (s.setQw (addedWeek s))
      rw [continueWeek]
      dsimp only
      split
      all_goals exact ⟨clock, q10m, Or.inr (Or.inl ⟨on, n, qw⟩)⟩
    · obtain ⟨clock, q10m, -⟩ :=
        pqQueueJob_frame ((s.setQw (addedWeek s)).setRpt 1 (updateQualReport (addedWeek s)))
      rw [rolloverWeek]
      dsimp only
      split
      all_goals exact ⟨clock, q10m, Or.inr (Or.inr rfl)⟩
  · exact ⟨rfl, rfl, Or.inl rfl⟩

private theorem checked_added (fair : Fair F) {s : Sys F} (ready : Ready s) {smp : Sample F}
    (fits : Fits s (.update smp)) (due : Due10m s.sysTick1s (sampled smp s).log)
    (active : smp.active = true) :
    Sound (addedWeek (checked smp s)) ∧
      0 < (addedWeek (checked smp s)).count10s.toInt32.toInt ∧
      0 < (addedWeek (checked smp s)).count10m.toInt32.toInt := by
  have l := check10s_checked ready smp fits
  have counted := (l.due (due10s_of_due10m ready l due)).2
  have due' : Due10m s.sysTick1s (collect smp s.log) := by
    rcases due with moved | changed
    · rw [l.ts10m] at moved
      exact Or.inl moved
    · rw [l.tsChanged] at changed
      exact Or.inr changed
  obtain ⟨small10s, small10m⟩ := fits.2 due' active
  rw [← counted] at small10s
  have sixty : nFreq.toNat = 60 := rfl
  have zero : (0 : UInt32).toNat = 0 := rfl
  have pos : 0 < (sampled smp s).log.q10m.avg.count10s := by
    rw [UInt32.lt_iff_toNat_lt, counted, sixty, zero]
    omega
  have week : Sound (checked smp s).log.qw := by
    change Sound (sampled smp s).log.qw
    rw [l.qw]
    exact ready.week
  have small10s' : (checked smp s).log.qw.count10s.toNat +
      (checked smp s).log.q10m.avg.count10s.toNat < 2 ^ 31 := by
    change (sampled smp s).log.qw.count10s.toNat + _ < _
    rw [l.qw]
    exact small10s
  have small10m' : (checked smp s).log.qw.count10m.toNat + 1 < 2 ^ 31 := by
    change (sampled smp s).log.qw.count10m.toNat + _ < _
    rw [l.qw]
    exact small10m
  refine updateQualWeek_sound fair _ week ?_ pos ?_ ?_ small10s' small10m'
  · intro q
    cases q with
    | freq1 => exact l.freq .freq1
    | freq2 => exact l.freq .freq2
    | voltbal =>
      have first := one_error l.voltbal ((sampled smp s).log.q10m.avg.ubal 0) 0
        (Measure.literal 2) (sampled smp s).log.q10m.count10m
      exact UInt32.le_trans first (by
        rw [UInt32.le_iff_toNat_le]
        rw [UInt32.lt_iff_toNat_lt, zero] at pos
        exact pos)
  · exact one_error l.voltbal _ _ _ _
  · intro q i
    have none := l.phase q i
    cases q with
    | volt1 => exact one_error none _ _ _ _
    | volt2 => exact one_error none _ _ _ _
    | voltThd => exact one_error none _ _ _ _
    | voltHd => exact one_harmonic none _ _ _
    | pst => exact no_error none
    | plt => exact no_error none
    | svolt => exact no_error none

private theorem update_ready (fair : Fair F) {s : Sys F} (ready : Ready s) {smp : Sample F}
    (fits : Fits s (.update smp)) :
    Ready (updateQualData smp s) ∧ WeekSafe s (.update smp) := by
  have l := check10s_checked ready smp fits
  rw [updateQualData]
  by_cases due : Due10m s.sysTick1s (sampled smp s).log
  · have added := checked_added fair ready fits due
    have judged : Due10s s.sysTick1s s.log := due10s_of_due10m ready l due
    have safe : WeekSafe s (.update smp) := by
      intro w recorded_
      rw [recorded] at recorded_
      split at recorded_
      · rename_i active
        rw [← Option.some.inj recorded_]
        exact added active.2
      · cases recorded_
    obtain ⟨clock, q10m, week⟩ := updateWeek_cases smp.active (checked smp s)
    rw [if_pos due]
    refine ⟨⟨?_, fun _ => UInt32.zero_le, rfl, fun _ _ => rfl, UInt32.zero_le, ?_⟩, safe⟩
    · change Sound (updateWeek smp.active (checked smp s)).log.qw
      rcases week with same | ⟨active, n, grown⟩ | started
      · rw [same]
        change Sound (sampled smp s).log.qw
        rw [l.qw]
        exact ready.week
      · rw [grown]
        exact (added active).1.counted n
      · rw [started]
        exact newWeek_sound fair _ _
    · change (updateWeek smp.active (checked smp s)).log.q10m.ts10s / 60 =
        sysTick10m (updateWeek smp.active (checked smp s)).sysTick1s
      rw [q10m, clock]
      change (sampled smp s).log.q10m.ts10s / 60 = sysTick10m s.sysTick1s
      rw [(l.due judged).1, tenMinutes_of_tenSeconds]
  · rw [if_neg due]
    refine ⟨⟨?_, l.freq, l.voltbal, l.phase, l.counted, ?_⟩, ?_⟩
    · rw [l.qw]
      exact ready.week
    · by_cases judged : Due10s s.sysTick1s s.log
      · have same : (sampled smp s).log.q10m.ts10m = sysTick10m s.sysTick1s := by
          by_contra moved
          exact due (Or.inl moved)
        rw [(l.due judged).1, tenMinutes_of_tenSeconds, same]
      · rw [l.idle judged, l.ts10m]
        exact ready.aligned
    · intro w recorded_
      rw [recorded, if_neg fun both => due both.1] at recorded_
      cases recorded_

private theorem step_ready (fair : Fair F) {s : Sys F} (ready : Ready s) {e : Event F}
    (fits : Fits s e) :
    Ready (step s e) ∧ WeekSafe s e := by
  cases e with
  | tick =>
    exact ⟨⟨ready.week, ready.freq, ready.voltbal, ready.phase, ready.counted, ready.aligned⟩,
      trivial⟩
  | tickSet sec mode =>
    refine ⟨?_, trivial⟩
    rw [step, tickSet]
    split
    · exact ready
    · dsimp only
      split
      all_goals
        exact ⟨ready.week, ready.freq, ready.voltbal, ready.phase, ready.counted, ready.aligned⟩
  | pushEvent e =>
    refine ⟨?_, trivial⟩
    rw [step, pushEvent]
    split
    · exact ⟨ready.week, ready.freq, ready.voltbal, ready.phase, ready.counted, ready.aligned⟩
    · exact ready
  | update smp => exact update_ready fair ready fits
  | pqIoTick =>
    refine ⟨?_, trivial⟩
    rw [step, pqIoTick]
    dsimp only
    split
    · exact ⟨ready.week, ready.freq, ready.voltbal, ready.phase, ready.counted, ready.aligned⟩
    · exact ready

private theorem boot_ready (fair : Fair F) (now : UInt32) (startDay : UInt16)
    {files : FileName → Option (WeekFile F)}
    (sound : ∀ name f, files name = some f → Sound f.header) :
    Ready (initPQHeader now startDay files) := by
  refine ⟨?_, fun _ => UInt32.zero_le, rfl, fun _ _ => rfl, UInt32.zero_le,
    tenMinutes_of_tenSeconds now⟩
  rw [initPQHeader]
  dsimp only
  cases found : files (getQualWeekFN startDay now) with
  | none => exact newWeek_sound fair startDay now
  | some f => exact sound _ f found

private theorem float_fair (A : Formats) : Fair A.Float := by
  have shares : ∀ x : Rat, 0 ≤ x → x ≤ 1 → ∀ err : UInt32,
      Share (⟨err, Value.finite x⟩ : QualVariation A.Float) := by
    intro x low high err
    exact scaled_rest_between A.single 10000 low high (by norm_num) (by norm_num) (by norm_num)
  refine ⟨shares 0 le_rfl zero_le_one 0, ?_⟩
  intro err count within pos
  obtain ⟨n, divisor⟩ := Int.eq_ofNat_of_zero_le pos.le
  have small : count.toInt32.toInt = count.toNat := by
    have wide : count.toInt32.toInt = count.toBitVec.toInt := rfl
    have same : count.toBitVec.toNat = count.toNat := rfl
    have size := count.toNat_lt
    rw [wide, BitVec.toInt_eq_toNat_cond, same] at pos ⊢
    split
    · rfl
    · rename_i large
      rw [if_neg large] at pos
      omega
  rw [small] at pos ⊢
  obtain ⟨x, share, low, high⟩ := share_between A.single (by exact_mod_cast pos)
    (UInt32.le_iff_toNat_le.mp within)
  have quotient : ((((err.toNat : Int) : A.Float)) / (((count.toNat : Int) : A.Float)) : A.Float) =
      Value.finite x := share
  rw [quotient]
  exact shares x low high err

/-- In every run whose events fit, from any state a boot on sound files leaves, everything written to
the week is sound, no statistic is divided by zero, and the week's record stays sound. -/
theorem fitting_runs_sound (A : Formats) (s : Sys A.Float) (es : List (Event A.Float))
    (start : Ready s) (fits : Along step Fits s es) :
    Along step WeekSafe s es ∧ Sound (run step s es).log.qw := by
  have keeps : ∀ (s : Sys A.Float) (e : Event A.Float), Ready s → Fits s e → Ready (step s e) :=
    fun _ _ ready fits => (step_ready (float_fair A) ready fits).1
  have gives : ∀ (s : Sys A.Float) (e : Event A.Float), Ready s → Fits s e → WeekSafe s e :=
    fun _ _ ready fits => (step_ready (float_fair A) ready fits).2
  constructor
  · exact along_of_invariant keeps gives start fits
  · exact (invariant_run keeps start fits).week

def exactly : Formats := ⟨exact 24, exact 53⟩

/-- A meter that starts with no files, at a full ten minutes. -/
def started : Sys exactly.Float := initPQHeader 600000 0 fun _ => none

/-- A second on a network of 55 Hz where 50 Hz are expected. -/
def fast : Sample exactly.Float where
  freq := .finite 55
  u1012 _ := .finite 220
  ubal _ := .finite 0
  uthd _ := .finite 0
  uhd _ _ := .finite 0
  freqLo i := .finite (if i = 0 then 99 / 2 else 47)
  freqHi i := .finite (if i = 0 then 101 / 2 else 52)
  uLo _ := .finite 187
  uHi _ := .finite 242
  active := true

def oneUpdate : List (Event exactly.Float) := [.tickSet 600600 false, .update fast]

theorem one_update_sound : Along step WeekSafe started oneUpdate ∧
    Sound (run step started oneUpdate).log.qw := by
  have start : Ready started := by
    refine boot_ready (float_fair exactly) 600000 0 ?_
    intro name f found
    cases found
  have fits : Along step Fits started oneUpdate :=
    ⟨trivial, ⟨fun _ full => absurd full (by decide +kernel), fun _ _ => by decide +kernel⟩,
      trivial⟩
  exact fitting_runs_sound exactly started oneUpdate start fits

/-- Updates in the first ten minutes while the clock is set back and forth, one more than are
counted, and the update that ends them. -/
def corrections : List (Event exactly.Float) :=
  .tickSet 600010 false :: .update fast ::
    (List.replicate 30 [.tickSet 600020 false, .update fast, .tickSet 600010 false,
      .update fast]).flatten ++ oneUpdate

set_option maxRecDepth 20000 in
/-- With the clock corrected within the ten minutes, there are more errors than samples. -/
theorem corrections_overcount :
    let w := (run step started corrections).log.qw
    (w.var.single .freq1).err = 62 ∧ w.count10s = 60 ∧
      getVarPercent (w.var.single .freq1) = -333 ∧ ¬Sound w := by
  intro w
  have errors : (w.var.single .freq1).err = 62 := by decide +kernel
  have samples : w.count10s = 60 := by decide +kernel
  refine ⟨errors, samples, by decide +kernel, ?_⟩
  intro sound
  have within : (w.var.single .freq1).err ≤ w.count10s := sound.single .freq1
  rw [errors, samples] at within
  exact absurd within (by decide)

end SV300.Quality.Statistics
