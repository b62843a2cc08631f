/- SV300/Detect/Levels
   digest: The thresholds of the power quality events and the transients over exact rationals, and
   the CT settings whose current thresholds are what they should be. -/

import Mathlib.Algebra.Order.Field.Basic
import Mathlib.Data.Rat.Floor
import Mathlib.Tactic.FieldSimp
import Mathlib.Tactic.Linarith
import Mathlib.Tactic.NormNum
import Mathlib.Tactic.Positivity
import Mathlib.Tactic.Ring

set_option autoImplicit false
set_option relaxedAutoImplicit false

namespace SV300.Detect.Levels

def quot (x y : ℚ) : Option ℚ := if y = 0 then none else some (x / y)

/-- The conversion to an integer type: it truncates, and is defined if the result fits. -/
def convert (least largest : Int) (x : ℚ) : Option Int :=
  if (least : ℚ) - 1 < x ∧ x < largest + 1 then some (if x < 0 then ⌈x⌉ else ⌊x⌋) else none

def toUint32 (x : ℚ) : Option Int := convert 0 4294967295 x

def toInt32 (x : ℚ) : Option Int := convert (-2147483648) 2147483647 x

abbrev RMS_MAX : ℚ := 52702092
abbrev WAVE_MAX : Int := 67107786
abbrev V_FULL : ℚ := 848.88 * 2
abbrev I_FULL_5AN : ℚ := 35.355
abbrev I_FULL_100mA : ℚ := 220.971
abbrev SQRT_2 : ℚ := 1.414213562

/-- `CT_TYPE` -/
inductive CtType
  | CT_5A | CT_100mA | CT_333mV | CT_RCT
  deriving DecidableEq

/-- `PT_DEF`, as far as the levels go. -/
structure PtDef where
  vnorm : UInt32
  PT1 : UInt32
  PT2 : UInt16

/-- `CT_DEF`, as far as the levels go. -/
structure CtDef where
  inorm : UInt16
  CT1 : UInt16
  CT2 : CtType

structure Gains where
  pga_vgain : Nat
  pga_igain : Nat

/-- `buildSettings`, for one channel's voltage. -/
def buildPt (pt : PtDef) : PtDef where
  vnorm := if pt.vnorm = 0 then 220 else pt.vnorm
  PT1 := if pt.PT1 = 0 then 220 else pt.PT1
  PT2 := if pt.PT2 = 0 then 220 else pt.PT2

/-- `buildSettings`, for one channel's current. -/
def buildCt (ct : CtDef) : CtDef where
  inorm := if ct.inorm = 0 then 50 else ct.inorm
  CT1 := if ct.CT1 = 0 then 100 else ct.CT1
  CT2 := ct.CT2

/-- `buildSettings`, for the gains. -/
def buildGains (ct : CtDef) : Gains where
  pga_vgain := 1
  pga_igain :=
    match ct.CT2 with
    | .CT_5A | .CT_100mA | .CT_333mV => 0
    | .CT_RCT =>
      if ct.CT1 > 500 ∧ ct.CT1 ≤ 1000 then 2
      else if ct.CT1 > 1000 ∧ ct.CT1 ≤ 3000 then 1 else 3

def CT_INORM_A (ct : CtDef) : ℚ := ct.CT1.toNat * ct.inorm.toNat / 100

/-- The levels in per cent that are set. -/
structure PqEvents where
  sag : UInt16
  swell : UInt16
  intr : UInt16
  oc : UInt16

/-- The thresholds; a conversion that is not defined gives none. -/
structure PqLevels where
  sagLevel : Option Int
  sagRetLevel : Option Int
  swellLevel : Option Int
  swellRetLevel : Option Int
  intrLevel : Option Int
  ocLevel : Option Int
  ocRetLevel : Option Int

/-- `scale * level/100.`, assigned to an unsigned field. -/
def threshold (scale : Option ℚ) (level : Int) : Option Int :=
  scale.bind fun scale => toUint32 (scale * level / 100)

def currentScale (ct : CtDef) : Option ℚ :=
  if ct.CT2 = .CT_5A then
    let ratio := ct.CT1.toNat / 5
    quot (RMS_MAX / I_FULL_5AN * CT_INORM_A ct) ratio
  else
    let ratio := ct.CT1.toNat / 100
    quot (RMS_MAX / I_FULL_100mA * CT_INORM_A ct) ratio

def setPqEventLevel (pt : PtDef) (ct : CtDef) (g : Gains) (evt : PqEvents) : PqLevels :=
  let scale := some (RMS_MAX / V_FULL * (1 <<< g.pga_vgain : Nat) * pt.vnorm.toNat)
  let cscale := currentScale ct
  { sagLevel := threshold scale evt.sag.toNat
    sagRetLevel := threshold scale (evt.sag.toNat + 5)
    swellLevel := threshold scale evt.swell.toNat
    swellRetLevel := threshold scale (evt.swell.toNat - 5)
    intrLevel := threshold scale evt.intr.toNat
    ocLevel := threshold cscale evt.oc.toNat
    ocRetLevel := threshold cscale (evt.oc.toNat - 5) }

/-- `TRANSIENT_DEF` -/
structure TransientDef where
  level : UInt16
  fastChange : UInt16
  holdOff : UInt16
  action : UInt16

/-- `TS_CNTL`, as far as it is initialised. -/
structure TsCntl where
  peakLevel : Option Int
  rocLevel : Option Int
  rscale : ℚ
  holdT : Nat
  mode : Nat
  action : Nat

def peakOf (normraw : Option Int) (level : UInt16) : Option Int :=
  if level < 120 then some 0
  else normraw.bind fun normraw => toInt32 (normraw * (level.toNat / 100 : ℚ))

def rocOf (normraw : Option Int) (fastChange : UInt16) : Option Int :=
  if fastChange = 0 then some WAVE_MAX
  else normraw.bind fun normraw => toInt32 (normraw * (fastChange.toNat / 100 * 31.25 : ℚ))

def voltageRaw (pt : PtDef) (g : Gains) : Option Int :=
  let rev_ptratio : ℚ := pt.PT2.toNat / pt.PT1.toNat
  toInt32 (WAVE_MAX / V_FULL * (1 <<< g.pga_vgain : Nat) * (pt.vnorm.toNat * rev_ptratio))

/-- The raw value of the nominal current, and the scale; `CT_RCT` has no case of its own. -/
def currentRaw (ct : CtDef) (g : Gains) (normraw : Option Int) (rscale : ℚ) : Option Int × ℚ :=
  match ct.CT2 with
  | .CT_5A =>
    (toInt32 (WAVE_MAX / I_FULL_5AN * (1 <<< g.pga_igain : Nat) * CT_INORM_A ct *
        (5 / ct.CT1.toNat : Nat)),
      I_FULL_5AN / WAVE_MAX * SQRT_2 * ct.CT1.toNat / 5)
  | .CT_100mA | .CT_333mV =>
    (toInt32 (WAVE_MAX / I_FULL_100mA * (1 <<< g.pga_igain : Nat) * CT_INORM_A ct *
        (100 / ct.CT1.toNat : Nat)),
      I_FULL_100mA / WAVE_MAX * SQRT_2 * ct.CT1.toNat / 100)
  | .CT_RCT => (normraw, rscale)

/-- The triggers of the voltages and of the currents; `rscale` is what the latter held before. -/
def initTransientTrigger (pt : PtDef) (ct : CtDef) (g : Gains) (voltage current : TransientDef)
    (rscale : ℚ) : TsCntl × TsCntl :=
  let normraw := voltageRaw pt g
  let ptvc : TsCntl :=
    { peakLevel := peakOf normraw voltage.level
      rocLevel := rocOf normraw voltage.fastChange
      rscale := V_FULL / WAVE_MAX * SQRT_2 * (pt.PT1.toNat / pt.PT2.toNat)
      holdT := voltage.holdOff.toNat
      mode := 0
      action := voltage.action.toNat }
  let (normraw, rscale) := currentRaw ct g normraw rscale
  let peakLevel := peakOf normraw current.level
  let ptcc : TsCntl :=
    { peakLevel := peakLevel.map fun peak => if peak > WAVE_MAX then WAVE_MAX else peak
      rocLevel := rocOf normraw current.fastChange
      rscale
      holdT := current.holdOff.toNat
      mode := 1
      action := current.action.toNat }
  (ptvc, ptcc)

/-- The secondary rating of a CT type, and what its full scale is. -/
def rated (t : CtType) : Nat := if t = .CT_5A then 5 else 100

def full (t : CtType) : ℚ := if t = .CT_5A then I_FULL_5AN else I_FULL_100mA

def secondary (ct : CtDef) : ℚ := CT_INORM_A ct * rated ct.CT2 / ct.CT1.toNat

/-- The over-current thresholds of a level in per cent are the RMS values of that share of the
nominal current and of the share 5 points below. -/
def OcAt (ct : CtDef) (level : UInt16) (l : PqLevels) : Prop :=
  l.ocLevel = some ⌊RMS_MAX / full ct.CT2 * secondary ct * level.toNat / 100⌋ ∧
    l.ocRetLevel = some ⌊RMS_MAX / full ct.CT2 * secondary ct * ((level.toNat : ℚ) - 5) / 100⌋

/-- The transient level is that share of the nominal current's raw value, or the largest one. -/
def TransientAt (ct : CtDef) (level : UInt16) (c : TsCntl) : Prop :=
  c.peakLevel =
    some (min ⌊(⌊WAVE_MAX / full ct.CT2 * secondary ct⌋ : ℚ) * level.toNat / 100⌋ WAVE_MAX)

/-- The over-current thresholds are right from a lowest level on to 200. -/
def OcRight (ct : CtDef) (lowest : Fin 201) : Prop :=
  ∀ (pt : PtDef) (evt : PqEvents), lowest.val ≤ evt.oc.toNat → evt.oc.toNat ≤ 200 →
    OcAt (buildCt ct) evt.oc
      (setPqEventLevel (buildPt pt) (buildCt ct) (buildGains (buildCt ct)) evt)

/-- The transient level of the current is right from 120 to 300. -/
def TransientRight (ct : CtDef) : Prop :=
  ∀ (pt : PtDef) (voltage current : TransientDef) (rscale : ℚ), 120 ≤ current.level.toNat →
    current.level.toNat ≤ 300 → TransientAt (buildCt ct) current.level
      (initTransientTrigger (buildPt pt) (buildCt ct) (buildGains (buildCt ct)) voltage current
        rscale).2

/-- The nominal currents, in per cent of the CT's, whose over-current thresholds fit. -/
def ocLargest (t : CtType) : Nat := if t = .CT_5A then 28812 else 9004

/-- The rating is a multiple of the secondary one, and all thresholds fit. -/
def OcExact (ct : CtDef) (lowest : Fin 201) : Prop :=
  rated ct.CT2 ∣ ct.CT1.toNat ∧ ct.inorm.toNat ≤ ocLargest ct.CT2 ∧ 5 ≤ lowest.val

/-- The nominal currents, in per cent of the CT's, whose transient levels fit. -/
def peakLargest (t : CtType) : Nat := if t = .CT_5A then 7542 else 2357

/-- The rating is the secondary one, the type is no Rogowski coil, and all thresholds fit. -/
def Exact (ct : CtDef) (lowest : Fin 201) : Prop :=
  ct.CT2 ≠ .CT_RCT ∧ ct.CT1.toNat = rated ct.CT2 ∧ ct.inorm.toNat ≤ peakLargest ct.CT2 ∧
    5 ≤ lowest.val

private theorem toUint32_of_fits {x : ℚ} (nonneg : 0 ≤ x) (fits : x < 4294967296) :
    toUint32 x = some ⌊x⌋ := by
  have within : ((0 : Int) : ℚ) - 1 < x ∧ x < ((4294967295 : Int) : ℚ) + 1 := by
    push_cast
    constructor <;> linarith
  rw [toUint32, convert, if_pos within, if_neg (not_lt.mpr nonneg)]

private theorem fits_of_toUint32 {x : ℚ} {k : Int} (h : toUint32 x = some k) :
    -1 < x ∧ x < 4294967296 := by
  rw [toUint32, convert] at h
  by_cases within : ((0 : Int) : ℚ) - 1 < x ∧ x < ((4294967295 : Int) : ℚ) + 1
  · push_cast at within
    constructor <;> linarith [within.1, within.2]
  · rw [if_neg within] at h
    cases h

private theorem toInt32_of_fits {x : ℚ} (nonneg : 0 ≤ x) (fits : x < 2147483648) :
    toInt32 x = some ⌊x⌋ := by
  have within : ((-2147483648 : Int) : ℚ) - 1 < x ∧ x < ((2147483647 : Int) : ℚ) + 1 := by
    push_cast
    constructor <;> linarith
  rw [toInt32, convert, if_pos within, if_neg (not_lt.mpr nonneg)]

private theorem fits_of_toInt32 {x : ℚ} {k : Int} (h : toInt32 x = some k) : x < 2147483648 := by
  rw [toInt32, convert] at h
  by_cases within : ((-2147483648 : Int) : ℚ) - 1 < x ∧ x < ((2147483647 : Int) : ℚ) + 1
  · push_cast at within
    linarith [within.2]
  · rw [if_neg within] at h
    cases h

private theorem floor_ne_of_gap {x y : ℚ} (gap : x + 1 ≤ y) : ⌊y⌋ ≠ ⌊x⌋ := by
  intro same
  have below := Int.floor_le x
  have above := Int.lt_floor_add_one y
  rw [same] at above
  linarith

/-- The threshold of the whole nominal current, for each of its per cents. -/
def unit (t : CtType) : ℚ := RMS_MAX / full t * rated t / 100

private theorem unit_large (t : CtType) : 65535 ≤ unit t := by
  by_cases five : t = .CT_5A
  · norm_num [unit, full, rated, if_pos five]
  · norm_num [unit, full, rated, if_neg five]

private theorem unit_fits (t : CtType) : unit t * ocLargest t * 2 < 4294967296 := by
  by_cases five : t = .CT_5A
  · norm_num [unit, full, rated, ocLargest, if_pos five]
  · norm_num [unit, full, rated, ocLargest, if_neg five]

private theorem unit_exceeds (t : CtType) : 4294967296 ≤ unit t * (ocLargest t + 1) * 2 := by
  by_cases five : t = .CT_5A
  · norm_num [unit, full, rated, ocLargest, if_pos five]
  · norm_num [unit, full, rated, ocLargest, if_neg five]

private theorem rated_pos (t : CtType) : 0 < rated t := by cases t <;> decide

private theorem buildCt_pos (ct : CtDef) :
    0 < (buildCt ct).CT1.toNat ∧ 0 < (buildCt ct).inorm.toNat := by
  have pos : ∀ (n m : UInt16), 0 < m.toNat → 0 < (if n = 0 then m else n).toNat := by
    intro n m some
    split
    · exact some
    · rename_i other
      rw [Nat.pos_iff_ne_zero]
      exact fun zero => other (UInt16.toNat_inj.mp zero)
  exact ⟨pos _ _ (by decide), pos _ _ (by decide)⟩

private theorem currentScale_eq (ct : CtDef) : currentScale ct =
    quot (RMS_MAX / full ct.CT2 * CT_INORM_A ct) (ct.CT1.toNat / rated ct.CT2 : Nat) := by
  unfold currentScale full rated
  split <;> rfl

section
variable {ct : CtDef} (primary : 0 < ct.CT1.toNat)
include primary

private theorem secondary_eq : secondary ct = ct.inorm.toNat * rated ct.CT2 / 100 := by
  have pos : (ct.CT1.toNat : ℚ) ≠ 0 := by exact_mod_cast primary.ne'
  unfold secondary CT_INORM_A
  field_simp

private theorem exact_eq : RMS_MAX / full ct.CT2 * secondary ct = unit ct.CT2 * ct.inorm.toNat := by
  rw [secondary_eq primary, unit]
  ring

private theorem currentScale_of_dvd (whole : rated ct.CT2 ∣ ct.CT1.toNat) :
    currentScale ct = some (unit ct.CT2 * ct.inorm.toNat) := by
  obtain ⟨q, parts⟩ := whole
  have times : 0 < q := by
    apply Nat.pos_of_ne_zero
    rintro rfl
    rw [parts, Nat.mul_zero] at primary
    exact absurd primary (lt_irrefl 0)
  have ratio : ct.CT1.toNat / rated ct.CT2 = q := by
    rw [parts, Nat.mul_div_cancel_left _ (rated_pos _)]
  have pos : (q : ℚ) ≠ 0 := by exact_mod_cast times.ne'
  rw [currentScale_eq, ratio, quot, if_neg pos, unit, CT_INORM_A, parts]
  congr 1
  push_cast
  field_simp

private theorem currentScale_of_remainder {q : Nat} (ratio : ct.CT1.toNat / rated ct.CT2 = q)
    (times : 0 < q) : currentScale ct =
      some (unit ct.CT2 * ct.inorm.toNat * ct.CT1.toNat / (rated ct.CT2 * q : Nat)) := by
  have pos : (q : ℚ) ≠ 0 := by exact_mod_cast times.ne'
  have first : (rated ct.CT2 : ℚ) ≠ 0 := by exact_mod_cast (rated_pos ct.CT2).ne'
  rw [currentScale_eq, ratio, quot, if_neg pos, unit, CT_INORM_A]
  congr 1
  push_cast
  field_simp

private theorem dvd_of_threshold (nominal : 0 < ct.inorm.toNat)
    (right : threshold (currentScale ct) 200 =
      some ⌊unit ct.CT2 * ct.inorm.toNat * 200 / 100⌋) : rated ct.CT2 ∣ ct.CT1.toNat := by
  by_contra odd
  obtain ⟨q, ratio⟩ : ∃ q, ct.CT1.toNat / rated ct.CT2 = q := ⟨_, rfl⟩
  have parts := Nat.div_add_mod ct.CT1.toNat (rated ct.CT2)
  have rest : 0 < ct.CT1.toNat % rated ct.CT2 :=
    Nat.pos_of_ne_zero fun none => odd (Nat.dvd_of_mod_eq_zero none)
  rw [ratio] at parts
  rcases Nat.eq_zero_or_pos q with zero | times
  · rw [currentScale_eq, ratio, zero, quot, if_pos Nat.cast_zero] at right
    cases right
  · rw [currentScale_of_remainder primary ratio times] at right
    have positive : 0 < rated ct.CT2 * q := Nat.mul_pos (rated_pos _) times
    have d : (0 : ℚ) < (rated ct.CT2 * q : Nat) := by exact_mod_cast positive
    have less : ((rated ct.CT2 * q : Nat) : ℚ) + 1 ≤ ct.CT1.toNat := by exact_mod_cast (by omega)
    have top : ((rated ct.CT2 * q : Nat) : ℚ) ≤ 65535 := by
      have bound := ct.CT1.toNat_lt
      exact_mod_cast (by omega)
    have large := unit_large ct.CT2
    have one : (1 : ℚ) ≤ ct.inorm.toNat := by exact_mod_cast nominal
    generalize ((rated ct.CT2 * q : Nat) : ℚ) = d' at *
    generalize unit ct.CT2 = k at *
    have u : 65535 ≤ k * ct.inorm.toNat := by nlinarith
    generalize k * ct.inorm.toNat = u' at *
    have gap : u' * 200 / 100 + 1 ≤ u' * ct.CT1.toNat / d' * 200 / 100 := by
      have more : u' + 1 / 2 ≤ u' * ct.CT1.toNat / d' := by
        rw [le_div_iff₀ d]
        nlinarith
      linarith
    have nonneg : (0 : ℚ) ≤ u' * ct.CT1.toNat / d' * 200 / 100 := by linarith
    have fits := fits_of_toUint32 right
    refine floor_ne_of_gap gap (Option.some_injective _ ?_)
    rw [← right]
    exact (toUint32_of_fits nonneg fits.2).symm

end

private theorem threshold_of_fits {scale : ℚ} {level : Int} (nonneg : 0 ≤ scale * level)
    (fits : scale * level / 100 < 4294967296) :
    threshold (some scale) level = some ⌊scale * level / 100⌋ :=
  toUint32_of_fits (by positivity) fits

private theorem unit_total (ct : CtDef) :
    65535 ≤ unit (buildCt ct).CT2 * (buildCt ct).inorm.toNat := by
  have large := unit_large (buildCt ct).CT2
  have one : (1 : ℚ) ≤ (buildCt ct).inorm.toNat := by exact_mod_cast (buildCt_pos ct).2
  nlinarith

private theorem ocExact_of_right {ct : CtDef} {lowest : Fin 201} (right : OcRight ct lowest) :
    OcExact (buildCt ct) lowest := by
  obtain ⟨primary, nominal⟩ := buildCt_pos ct
  have total := unit_total ct
  have two := (right ⟨1, 1, 1⟩ ⟨0, 0, 0, 200⟩ (Nat.le_of_lt_succ lowest.isLt) le_rfl).1
  rw [exact_eq primary] at two
  have whole := dvd_of_threshold primary nominal two
  have scale := currentScale_of_dvd primary whole
  refine ⟨whole, ?_, ?_⟩
  · by_contra more
    have fits := (fits_of_toUint32 ((congrArg (threshold · 200) scale).symm.trans two)).2
    have exceeds := unit_exceeds (buildCt ct).CT2
    have large := unit_large (buildCt ct).CT2
    have least : (ocLargest (buildCt ct).CT2 + 1 : ℚ) ≤ (buildCt ct).inorm.toNat := by
      exact_mod_cast Nat.lt_of_not_le more
    push_cast at fits
    nlinarith
  · by_contra small
    have level : (UInt16.ofNat lowest.val).toNat = lowest.val :=
      UInt16.toNat_ofNat_of_lt' (Nat.lt_of_lt_of_le lowest.isLt (by decide))
    have low := (right ⟨1, 1, 1⟩ ⟨0, 0, 0, UInt16.ofNat lowest.val⟩ (by rw [level])
      (by rw [level]; exact Nat.le_of_lt_succ lowest.isLt)).2
    have fits := (fits_of_toUint32
      ((congrArg (threshold · ((UInt16.ofNat lowest.val).toNat - 5)) scale).symm.trans low)).1
    have below : (lowest.val : ℚ) ≤ 4 := by exact_mod_cast (by omega)
    rw [level] at fits
    push_cast at fits
    generalize unit (buildCt ct).CT2 * (buildCt ct).inorm.toNat = u at fits total
    nlinarith

private theorem ocRight_of_exact {ct : CtDef} {lowest : Fin 201}
    (exact' : OcExact (buildCt ct) lowest) :
    OcRight ct lowest := by
  obtain ⟨whole, bound, five⟩ := exact'
  intro pt evt low high
  obtain ⟨primary, nominal⟩ := buildCt_pos ct
  have large := unit_large (buildCt ct).CT2
  have total := unit_total ct
  have scale := currentScale_of_dvd primary whole
  have fits := unit_fits (buildCt ct).CT2
  have most : ((buildCt ct).inorm.toNat : ℚ) ≤ ocLargest (buildCt ct).CT2 := by
    exact_mod_cast bound
  have top : unit (buildCt ct).CT2 * (buildCt ct).inorm.toNat * 2 < 4294967296 := by nlinarith
  have lower : (5 : ℚ) ≤ evt.oc.toNat := by exact_mod_cast five.trans low
  have upper : (evt.oc.toNat : ℚ) ≤ 200 := by exact_mod_cast high
  unfold OcAt
  rw [exact_eq primary]
  generalize unit (buildCt ct).CT2 * (buildCt ct).inorm.toNat = u at *
  constructor
  · refine (congrArg (threshold · evt.oc.toNat) scale).trans ?_
    rw [threshold_of_fits, Int.cast_natCast]
    · rw [Int.cast_natCast]
      positivity
    · rw [Int.cast_natCast]
      nlinarith
  · refine (congrArg (threshold · (evt.oc.toNat - 5)) scale).trans ?_
    rw [threshold_of_fits, Int.cast_sub, Int.cast_natCast, Int.cast_ofNat]
    · push_cast
      nlinarith
    · push_cast
      nlinarith

private theorem ocRight_iff (ct : CtDef) (lowest : Fin 201) :
    OcRight ct lowest ↔ OcExact (buildCt ct) lowest :=
  ⟨ocExact_of_right, ocRight_of_exact⟩

/-- The raw value of the nominal current, for each of its per cents. -/
def rawUnit (t : CtType) : ℚ := WAVE_MAX / full t * rated t / 100

private theorem rawUnit_large (t : CtType) : 79055 ≤ rawUnit t := by
  by_cases five : t = .CT_5A
  · norm_num [rawUnit, full, rated, if_pos five]
  · norm_num [rawUnit, full, rated, if_neg five]

private theorem rawUnit_fits (t : CtType) : rawUnit t * peakLargest t * 3 < 2147483648 := by
  by_cases five : t = .CT_5A
  · norm_num [rawUnit, full, rated, peakLargest, if_pos five]
  · norm_num [rawUnit, full, rated, peakLargest, if_neg five]

private theorem rawUnit_exceeds (t : CtType) :
    2147483651 ≤ rawUnit t * (peakLargest t + 1) * 3 := by
  by_cases five : t = .CT_5A
  · norm_num [rawUnit, full, rated, peakLargest, if_pos five]
  · norm_num [rawUnit, full, rated, peakLargest, if_neg five]

private theorem raw_exact_eq {ct : CtDef} (primary : 0 < ct.CT1.toNat) :
    WAVE_MAX / full ct.CT2 * secondary ct = rawUnit ct.CT2 * ct.inorm.toNat := by
  rw [secondary_eq primary, rawUnit]
  ring

private theorem peakLevel_eq (pt : PtDef) (ct : CtDef) (voltage current : TransientDef) (rscale : ℚ)
    (enabled : 120 ≤ current.level.toNat) :
    (initTransientTrigger pt ct (buildGains ct) voltage current rscale).2.peakLevel =
      ((currentRaw ct (buildGains ct) (voltageRaw pt (buildGains ct)) rscale).1.bind fun normraw =>
        toInt32 (normraw * (current.level.toNat / 100 : ℚ))).map (min · WAVE_MAX) := by
  have above : ¬ current.level < 120 := fun small => by
    have below := UInt16.lt_iff_toNat_lt.mp small
    exact absurd enabled (Nat.not_le.mpr below)
  have cap : (fun peak : Int => if peak > WAVE_MAX then WAVE_MAX else peak) = (min · WAVE_MAX) := by
    funext peak
    rw [min_def]
    split <;> split <;> omega
  rw [← cap]
  unfold initTransientTrigger peakOf
  dsimp only
  rw [if_neg above]

private theorem currentRaw_eq {ct : CtDef} (coil : ct.CT2 ≠ .CT_RCT) (normraw : Option Int)
    (rscale : ℚ) :
    (currentRaw ct (buildGains ct) normraw rscale).1 =
      toInt32 (WAVE_MAX / full ct.CT2 * CT_INORM_A ct * (rated ct.CT2 / ct.CT1.toNat : Nat)) := by
  unfold currentRaw buildGains full rated
  cases type : ct.CT2 with
  | CT_RCT => exact absurd type coil
  | CT_5A => simp
  | CT_100mA => simp
  | CT_333mV => simp

private theorem currentRaw_of_rated {ct : CtDef} (coil : ct.CT2 ≠ .CT_RCT)
    (same : ct.CT1.toNat = rated ct.CT2) (normraw : Option Int) (rscale : ℚ) :
    (currentRaw ct (buildGains ct) normraw rscale).1 =
      toInt32 (rawUnit ct.CT2 * ct.inorm.toNat) := by
  rw [currentRaw_eq coil, same, Nat.div_self (rated_pos _), Nat.cast_one, mul_one, CT_INORM_A,
    same, rawUnit]
  congr 1
  ring

private theorem currentRaw_of_larger {ct : CtDef} (coil : ct.CT2 ≠ .CT_RCT)
    (larger : rated ct.CT2 < ct.CT1.toNat) (normraw : Option Int) (rscale : ℚ) :
    (currentRaw ct (buildGains ct) normraw rscale).1 = some 0 := by
  rw [currentRaw_eq coil, Nat.div_eq_of_lt larger, Nat.cast_zero, mul_zero,
    toInt32_of_fits le_rfl (by norm_num), Int.floor_zero]

private theorem voltageRaw_one (ct : CtDef) :
    voltageRaw (buildPt ⟨1, 1, 1⟩) (buildGains ct) = some 79054 := by
  have value : voltageRaw (buildPt ⟨1, 1, 1⟩) (buildGains ct) =
      toInt32 (WAVE_MAX / V_FULL * 2) := by
    simp [voltageRaw, buildPt, buildGains]
  have floor : ⌊(WAVE_MAX / V_FULL * 2 : ℚ)⌋ = 79054 := by
    rw [Int.floor_eq_iff]
    norm_num
  rw [value, toInt32_of_fits (by norm_num) (by norm_num), floor]

/-- The current thresholds are right. -/
def Right (ct : CtDef) (lowest : Fin 201) : Prop := OcRight ct lowest ∧ TransientRight ct

private theorem right_peak_large {u : ℚ} (large : 79055 ≤ u) :
    94865 < min ⌊(⌊u⌋ : ℚ) * ((120 : Nat) : ℚ) / 100⌋ WAVE_MAX := by
  have floor : (79055 : Int) ≤ ⌊u⌋ := Int.le_floor.mpr (by exact_mod_cast large)
  have cast : (79055 : ℚ) ≤ ⌊u⌋ := by exact_mod_cast floor
  refine lt_min (Int.lt_iff_add_one_le.mpr (Int.le_floor.mpr ?_)) (by decide)
  push_cast
  linarith

section
variable {ct : CtDef} (transient : TransientRight ct) (coil : (buildCt ct).CT2 ≠ .CT_RCT)
include transient

private theorem peak_right {p : Nat} (low : 120 ≤ p) (high : p ≤ 300) :
    ((currentRaw (buildCt ct) (buildGains (buildCt ct)) (some 79054) 0).1.bind fun normraw =>
        toInt32 (normraw * (p / 100 : ℚ))).map (min · WAVE_MAX) =
      some (min ⌊(⌊rawUnit (buildCt ct).CT2 * (buildCt ct).inorm.toNat⌋ : ℚ) * p / 100⌋
        WAVE_MAX) := by
  have level : (UInt16.ofNat p).toNat = p :=
    UInt16.toNat_ofNat_of_lt' (Nat.lt_of_le_of_lt high (by decide))
  have right := transient ⟨1, 1, 1⟩ ⟨0, 0, 0, 0⟩ ⟨UInt16.ofNat p, 0, 0, 0⟩ 0
    (by rw [level]; exact low) (by rw [level]; exact high)
  unfold TransientAt at right
  rw [peakLevel_eq _ _ _ _ _ (by rw [level]; exact low), raw_exact_eq (buildCt_pos ct).1,
    voltageRaw_one] at right
  dsimp only at right
  rw [level] at right
  exact right

private theorem coil_of_right
    (total : 79055 ≤ rawUnit (buildCt ct).CT2 * (buildCt ct).inorm.toNat) :
    (buildCt ct).CT2 ≠ .CT_RCT := by
  intro coil
  have right := peak_right transient (p := 120) le_rfl (by decide)
  have raw : (currentRaw (buildCt ct) (buildGains (buildCt ct)) (some 79054) 0).1 =
      some 79054 := by
    rw [currentRaw, coil]
  have floor : ⌊((79054 : Int) : ℚ) * (((120 : Nat) : ℚ) / 100)⌋ = 94864 := by
    rw [Int.floor_eq_iff]
    norm_num
  rw [raw, Option.bind_some, toInt32_of_fits (by norm_num) (by norm_num), floor] at right
  have large := right_peak_large total
  rw [← Option.some_injective _ right] at large
  exact absurd large (by decide)

include coil

private theorem le_rated_of_right
    (total : 79055 ≤ rawUnit (buildCt ct).CT2 * (buildCt ct).inorm.toNat) :
    (buildCt ct).CT1.toNat ≤ rated (buildCt ct).CT2 := by
  by_contra larger
  have right := peak_right transient (p := 120) le_rfl (by decide)
  rw [currentRaw_of_larger coil (Nat.lt_of_not_le larger), Option.bind_some, Int.cast_zero, zero_mul,
    toInt32_of_fits le_rfl (by norm_num), Int.floor_zero] at right
  have large := right_peak_large total
  rw [← Option.some_injective _ right] at large
  exact absurd large (by decide)

private theorem fits_of_right (same : (buildCt ct).CT1.toNat = rated (buildCt ct).CT2) :
    (buildCt ct).inorm.toNat ≤ peakLargest (buildCt ct).CT2 := by
  by_contra more
  have right := peak_right transient (p := 300) (by decide) le_rfl
  have exceeds := rawUnit_exceeds (buildCt ct).CT2
  have least : (peakLargest (buildCt ct).CT2 + 1 : ℚ) ≤ (buildCt ct).inorm.toNat := by
    exact_mod_cast Nat.lt_of_not_le more
  have unit := rawUnit_large (buildCt ct).CT2
  rw [currentRaw_of_rated coil same] at right
  generalize product : rawUnit (buildCt ct).CT2 * (buildCt ct).inorm.toNat = x at right
  have beyond : 2147483651 ≤ x * 3 := by nlinarith
  cases raw : toInt32 x with
  | none =>
    rw [raw] at right
    cases right
  | some k =>
    have value := (toInt32_of_fits (by linarith) (fits_of_toInt32 raw)).symm.trans raw
    have below := Int.lt_floor_add_one x
    rw [Option.some_injective _ value] at below
    rw [raw, Option.bind_some] at right
    obtain ⟨peak, fits, _⟩ := Option.map_eq_some_iff.mp right
    have bound := fits_of_toInt32 fits
    have three : ((300 : Nat) : ℚ) / 100 = 3 := by norm_num
    rw [three] at bound
    linarith

end

private theorem transientRight_of_exact {ct : CtDef} (coil : (buildCt ct).CT2 ≠ .CT_RCT)
    (same : (buildCt ct).CT1.toNat = rated (buildCt ct).CT2)
    (bound : (buildCt ct).inorm.toNat ≤ peakLargest (buildCt ct).CT2) : TransientRight ct := by
  intro pt voltage current rscale low high
  have fits := rawUnit_fits (buildCt ct).CT2
  have unit := rawUnit_large (buildCt ct).CT2
  have most : ((buildCt ct).inorm.toNat : ℚ) ≤ peakLargest (buildCt ct).CT2 := by
    exact_mod_cast bound
  have nonneg : (0 : ℚ) ≤ (buildCt ct).inorm.toNat := Nat.cast_nonneg _
  have upper : (current.level.toNat : ℚ) ≤ 300 := by exact_mod_cast high
  unfold TransientAt
  rw [peakLevel_eq _ _ _ _ _ low, raw_exact_eq (buildCt_pos ct).1, currentRaw_of_rated coil same]
  have top : rawUnit (buildCt ct).CT2 * (buildCt ct).inorm.toNat * 3 < 2147483648 := by nlinarith
  have pos : 0 ≤ rawUnit (buildCt ct).CT2 * (buildCt ct).inorm.toNat := by positivity
  generalize rawUnit (buildCt ct).CT2 * (buildCt ct).inorm.toNat = x at *
  have below := Int.floor_le x
  have floor : (0 : ℚ) ≤ ⌊x⌋ := by exact_mod_cast Int.floor_nonneg.mpr pos
  have level : (0 : ℚ) ≤ current.level.toNat := Nat.cast_nonneg _
  rw [toInt32_of_fits pos (by linarith), Option.bind_some, ← mul_div_assoc, toInt32_of_fits]
  · rfl
  · positivity
  · nlinarith

/-- All current thresholds are right, from a lowest level on, for just those ratings that are the
secondary one, for types with a case of their own and nominal currents that fit. -/
theorem levels_right_iff (ct : CtDef) (lowest : Fin 201) :
    Right ct lowest ↔ Exact (buildCt ct) lowest := by
  obtain ⟨primary, nominal⟩ := buildCt_pos ct
  have one : (1 : ℚ) ≤ (buildCt ct).inorm.toNat := by exact_mod_cast nominal
  have total : 79055 ≤ rawUnit (buildCt ct).CT2 * (buildCt ct).inorm.toNat := by
    nlinarith [rawUnit_large (buildCt ct).CT2]
  rw [Right, ocRight_iff]
  constructor
  · rintro ⟨⟨whole, _, five⟩, transient⟩
    have coil := coil_of_right transient total
    have same := Nat.le_antisymm (le_rated_of_right transient coil total)
      (Nat.le_of_dvd primary whole)
    exact ⟨coil, same, fits_of_right transient coil same, five⟩
  · rintro ⟨coil, same, bound, five⟩
    have fits : peakLargest (buildCt ct).CT2 ≤ ocLargest (buildCt ct).CT2 := by
      unfold peakLargest ocLargest
      split <;> decide
    exact ⟨⟨Dvd.intro 1 (same ▸ Nat.mul_one _), bound.trans fits, five⟩,
      transientRight_of_exact coil same bound⟩

/-- The ratings 250, the default of the first channel, and 50, which gives no threshold at all. -/
theorem levels_wrong : ¬ Right ⟨50, 250, .CT_100mA⟩ 5 ∧ ¬ Right ⟨50, 50, .CT_100mA⟩ 5 := by
  constructor
  · intro right
    exact absurd ((ocRight_iff _ _).mp right.1).1 (by decide)
  · intro right
    exact absurd ((ocRight_iff _ _).mp right.1).1 (by decide)

end SV300.Detect.Levels
