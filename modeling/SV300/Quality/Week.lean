/- SV300/Quality/Week
   digest: The weekly voltage-quality record: its statistics, its compliance word and its report. -/

import Mathlib.Data.Rat.Floor
import SV300.Library.FlagWord
import SV300.Library.Literals

set_option autoImplicit false
set_option relaxedAutoImplicit false

namespace SV300.Quality.Week

open SV300.Library.FlagWord

/-- The floating-point operations of the quality statistics.  `complement` is `1. - x`, computed in
double precision and kept as a `float`; `literal` is a decimal constant; `toInt` is the conversion
to `int`. -/
class Measure (F : Type) extends Zero F, Add F, Sub F, Mul F, Div F, IntCast F, LT F where
  decLt : DecidableLT F
  complement : F → F
  literal : Rat → F
  toInt : F → Int

instance Measure.decidableLT {F : Type} [Measure F] : DecidableLT F := Measure.decLt

/-- Exact arithmetic; the conversion truncates. -/
instance : Measure Rat where
  zero := 0
  decLt := inferInstance
  complement x := 1 - x
  literal x := x
  toInt x := if 0 ≤ x then ⌊x⌋ else ⌈x⌉

/-- One variation statistic: the samples out of limits and their share. -/
structure QualVariation (F : Type) where
  err : UInt32
  var : F

inductive EventKind | sag | swell | shortIntr | longIntr | rvc
  deriving DecidableEq, Repr

/-- The quantities with one statistic. -/
inductive Single | freq1 | freq2 | voltbal
  deriving DecidableEq, Repr

/-- The quantities with a statistic for each phase. -/
inductive ThreePhase | volt1 | volt2 | voltThd | voltHd | pst | plt | svolt
  deriving DecidableEq, Repr

/-- The event counts (a phase each, and the events on several phases) and the statistics. -/
structure QualVarData (F : Type) where
  events : EventKind → Fin 4 → UInt32
  single : Single → QualVariation F
  phase : ThreePhase → Fin 3 → QualVariation F

/-- The averages of ten minutes; `count10s` counts the frequency samples. -/
structure QualAvgData (F : Type) where
  count10s : UInt32
  u : Fin 3 → F
  uthd : Fin 3 → F
  ubal : Fin 2 → F
  uhd : Fin 3 → Fin 24 → F

/-- The data of ten minutes. -/
structure QualData10m (F : Type) where
  ts10m : UInt32
  ts10s : UInt32
  count10m : UInt32
  count10s : UInt32
  avg : QualAvgData F
  var : QualVarData F

/-- The record of a week; `compliance` is a word of flags. -/
structure QualWeek (F : Type) where
  startTs : UInt32
  endTs : UInt32
  complete : UInt32
  compliance : UInt32
  count10s : UInt32
  count10m : UInt32
  var : QualVarData F
  evtCount : UInt32

/-- The report of a week as the registers and the web show it, shares in hundredths of a percent. -/
structure EN50160 where
  sTime : UInt32
  eTime : UInt32
  compliance : UInt32
  single : Single → UInt16
  phase : ThreePhase → Fin 3 → UInt16
  events : EventKind → Fin 4 → UInt16

variable {F : Type} [Measure F]

/-- `QualVarWeekUpdate`; the count is passed as an `int`. -/
def qualVarWeekUpdate (pqvar : QualVariation F) (errcnt count : UInt32) : QualVariation F :=
  let err := pqvar.err + errcnt
  { err := err, var := ((err.toNat : Int) : F) / ((count.toInt32.toInt : Int) : F) }

def maxLogCnt10m : UInt32 := 6 * 24 * 7

/-- The count a quantity with one statistic is measured against. -/
def Single.count (q : Single) (count10s count10m : UInt32) : UInt32 :=
  match q with
  | .freq1 | .freq2 => count10s
  | .voltbal => count10m

/-- The first half of `updateQualWeek`: add the data of ten minutes to the week. -/
def addTenMinutes (now : UInt32) (pq10m : QualData10m F) (pqw : QualWeek F) : QualWeek F :=
  let count10m := pqw.count10m + 1
  let count10s := pqw.count10s + pq10m.avg.count10s
  { pqw with
    startTs := if pqw.startTs = 0 then now else pqw.startTs
    count10m := count10m
    count10s := count10s
    complete := if maxLogCnt10m ≤ count10m then 1 else pqw.complete
    var := {
      events := fun k i => pqw.var.events k i + pq10m.var.events k i
      single := fun q => qualVarWeekUpdate (pqw.var.single q) (pq10m.var.single q).err
        (q.count count10s count10m)
      phase := fun q i => qualVarWeekUpdate (pqw.var.phase q i) (pq10m.var.phase q i).err
        count10m } }

/-- A statistic's share of good samples is below a limit. -/
def Below (limit : F) (pqvar : QualVariation F) : Prop := Measure.complement pqvar.var < limit

instance (limit : F) (pqvar : QualVariation F) : Decidable (Below limit pqvar) :=
  inferInstanceAs (Decidable (_ < _))

/-- `QualVarCompliance1`: set the flag at the running position if the share is below the limit. -/
def qualVarCompliance1 (pqvar : QualVariation F) (limit : F) (s : Nat × Nat) : Nat × Nat :=
  pack s (Below limit pqvar)

/-- `QualVarCompliance3`: three flags; the pointer to the statistic is not advanced. -/
def qualVarCompliance3 (pqvar : Fin 3 → QualVariation F) (limit : F) (s : Nat × Nat) : Nat × Nat :=
  [0, 1, 2].foldl (fun s (_ : Nat) => qualVarCompliance1 (pqvar 0) limit s) s

def Single.limit : Single → F
  | .freq1 => Measure.literal (995 / 1000)
  | .freq2 => Measure.literal 1
  | .voltbal => Measure.literal 1

def ThreePhase.limit : ThreePhase → F
  | .volt1 => Measure.literal (95 / 100)
  | .volt2 => Measure.literal 1
  | .voltThd => Measure.literal (95 / 100)
  | .voltHd => Measure.literal (95 / 100)
  | .pst => Measure.literal (95 / 100)
  | .plt => Measure.literal (95 / 100)
  | .svolt => Measure.literal (95 / 100)

/-- The flags of all quantities, in the order the record is walked. -/
def compliance (v : QualVarData F) : UInt32 :=
  let s := qualVarCompliance1 (v.single .freq1) Single.freq1.limit (0, 0)
  let s := qualVarCompliance1 (v.single .freq2) Single.freq2.limit s
  let s := qualVarCompliance3 (v.phase .volt1) ThreePhase.volt1.limit s
  let s := qualVarCompliance3 (v.phase .volt2) ThreePhase.volt2.limit s
  let s := qualVarCompliance1 (v.single .voltbal) Single.voltbal.limit s
  let s := qualVarCompliance3 (v.phase .voltThd) ThreePhase.voltThd.limit s
  let s := qualVarCompliance3 (v.phase .voltHd) ThreePhase.voltHd.limit s
  let s := qualVarCompliance3 (v.phase .pst) ThreePhase.pst.limit s
  let s := qualVarCompliance3 (v.phase .plt) ThreePhase.plt.limit s
  let s := qualVarCompliance3 (v.phase .svolt) ThreePhase.svolt.limit s
  UInt32.ofNat s.2

/-- The second half of `updateQualWeek`: judge the statistics, and flag a whole week of data. -/
def judge (pqw : QualWeek F) : QualWeek F :=
  if 1008 ≤ pqw.count10m then
    { pqw with complete := 1, compliance := compliance pqw.var ||| ((1 : UInt32) <<< 31) }
  else { pqw with compliance := compliance pqw.var }

def updateQualWeek (now : UInt32) (pq10m : QualData10m F) (pqw : QualWeek F) : QualWeek F :=
  judge (addTenMinutes now pq10m pqw)

/-- `getVarPercent`, in hundredths of a percent. -/
def getVarPercent (pqv : QualVariation F) : Int :=
  Measure.toInt ((((1 : Int) : F) - pqv.var) * ((10000 : Int) : F))

def percent (pqv : QualVariation F) : UInt16 := UInt16.ofInt (getVarPercent pqv)

/-- `updateQualReport`: every phase of a quantity is reported from the array's first statistic. -/
def updateQualReport (pqw : QualWeek F) : EN50160 where
  sTime := pqw.startTs
  eTime := pqw.endTs
  compliance := pqw.compliance
  single q := percent (pqw.var.single q)
  phase q _ := percent (pqw.var.phase q 0)
  events k i := (pqw.var.events k i).toUInt16

def flag (word : UInt32) (k : Nat) : Bool := word.toNat.testBit k

def Single.position : Single → Nat
  | .freq1 => 0
  | .freq2 => 1
  | .voltbal => 8

/-- The position of the first of a quantity's three flags. -/
def ThreePhase.position : ThreePhase → Nat
  | .volt1 => 2
  | .volt2 => 5
  | .voltThd => 9
  | .voltHd => 12
  | .pst => 15
  | .plt => 18
  | .svolt => 21

theorem Single.position_lt (q : Single) : q.position < 31 := by
  cases q
  all_goals decide

theorem ThreePhase.position_lt (q : ThreePhase) (i : Fin 3) : q.position + i < 31 := by
  have phase := i.isLt
  cases q
  all_goals
    dsimp only [position]
    omega

private def flags (v : QualVarData F) : List Bool :=
  let one (q : Single) : List Bool := [decide (Below q.limit (v.single q))]
  let three (q : ThreePhase) : List Bool := List.replicate 3 (decide (Below q.limit (v.phase q 0)))
  one .freq1 ++ one .freq2 ++ three .volt1 ++ three .volt2 ++ one .voltbal ++ three .voltThd ++
    three .voltHd ++ three .pst ++ three .plt ++ three .svolt

private theorem flag_compliance (v : QualVarData F) {k : Nat} (low : k < 31) :
    flag (compliance v) k = (flags v).getD k false := by
  have walked : compliance v = UInt32.ofNat ((flags v).foldl pack (0, 0)).2 := rfl
  have wide : k < 32 := by omega
  rw [flag, walked, UInt32.toNat_ofNat', Nat.testBit_mod_two_pow, testBit_packed,
    decide_eq_true wide, Bool.true_and]

theorem single_flag (v : QualVarData F) (q : Single) :
    flag (compliance v) q.position = true ↔ Below q.limit (v.single q) := by
  rw [flag_compliance v q.position_lt]
  cases q
  all_goals exact decide_eq_true_iff

theorem phase_flag (v : QualVarData F) (q : ThreePhase) (i : Fin 3) :
    flag (compliance v) (q.position + i) = true ↔ Below q.limit (v.phase q 0) := by
  rw [flag_compliance v (q.position_lt i)]
  cases q
  all_goals
    match i with
    | 0 => exact decide_eq_true_iff
    | 1 => exact decide_eq_true_iff
    | 2 => exact decide_eq_true_iff

theorem flag_judge (pqw : QualWeek F) {k : Nat} (low : k < 31) :
    flag (judge pqw).compliance k = flag (compliance pqw.var) k := by
  rw [judge]
  split
  · have top : ((1 : UInt32) <<< 31).toNat = 2 ^ 31 := rfl
    have other : ¬ 31 = k := by omega
    rw [flag, UInt32.toNat_or, top, Nat.testBit_or, Nat.testBit_two_pow, decide_eq_false other,
      Bool.or_false, flag]
  · rfl

end SV300.Quality.Week
