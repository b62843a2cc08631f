/- SV300/Feeder/Power
   digest: calcPower and energy_scan read the wiring under the chip's number, not the feeder's. -/

import SV300.Energy.Scan
import SV300.Feeder.Map

set_option autoImplicit false
set_option relaxedAutoImplicit false

namespace SV300.Feeder

open SV300.Energy.Registers SV300.Energy.Scan

/-- The chip's accumulated power registers. -/
structure PowerRegs where
  watt : Fin 3 → Int32
  var : Fin 3 → Int32
  va : Fin 3 → Int32
  fwatt : Fin 3 → Int32
  fvar : Fin 3 → Int32
  fva : Fin 3 → Int32

/-- What calcPower reads besides: currents that are zero, CT directions, scale and the two modes. -/
structure PowerEnv (F : Type) where
  noCurrent : Fin 3 → Bool
  ctDir : Fin 3 → Bool
  wscale : F
  vaType : Nat
  pfSign : Nat

/-- Position 3 is the sum of the phases, or the value computed from the sums. -/
structure Power (F : Type) where
  P : Fin 4 → F
  Q : Fin 4 → F
  S : Fin 4 → F
  fP : Fin 4 → F
  fQ : Fin 4 → F
  fS : Fin 4 → F
  PF : Fin 4 → F
  dPF : Fin 4 → F
  D : Fin 4 → F

def clearsSecond (w : WiringMode) : Bool :=
  decide (w = wm3LL3CT ∨ w = wm3LL2CT ∨ w = wm1LL2CT)

variable {F : Type} [Single F]

def scalePowerAcc (env : PowerEnv F) (raw : Int32) : F :=
  (raw.toInt : F) * env.wscale / (pwrMax : F)

/-- A phase before the direction of its CT is applied. -/
def measured (w : WiringMode) (env : PowerEnv F) (raw : Fin 3 → Int32) (i : Fin 3) : F :=
  let x := if env.noCurrent i then 0 else scalePowerAcc env (raw i)
  if i = 1 ∧ clearsSecond w = true then 0 else x

def directed (env : PowerEnv F) (x : Fin 3 → F) (i : Fin 3) : F :=
  if env.ctDir i then -x i else x i

/-- The apparent power: measured or from active and reactive power, reduced for 3P3W. -/
def apparent (root : F → F) (w : WiringMode) (env : PowerEnv F) (P Q S : Fin 3 → F) (i : Fin 3) :
    F :=
  let s := if env.vaType = 0 then S i else root (P i * P i + Q i * Q i)
  if is3P3W w then s * root ((3 : Int) : F) / ((2 : Int) : F) else s

def withTotal (x : Fin 3 → F) (i : Fin 4) : F :=
  if lt : i.val < 3 then x ⟨i, lt⟩ else 0 + x 0 + x 1 + x 2

def fabs (x : F) : F := if x < 0 then -x else x

/-- Power factor in percent, signed by the IEC or the IEEE convention. -/
def calcPF (pfSign : Nat) (P Q S : Fin 4 → F) (i : Fin 4) : F :=
  let zero (x : F) : Prop := ¬ x < 0 ∧ ¬ 0 < x
  let pf := if zero (P i) ∨ zero (S i) then 0 else fabs (P i / S i * ((100 : Int) : F))
  let pf := if ((100 : Int) : F) < pf then ((100 : Int) : F) else pf
  if pfSign = 0 then if P i < 0 then -pf else pf
  else if P i * Q i < 0 then pf else -pf

def calcD (root : F → F) (P fQ S : Fin 4 → F) (i : Fin 4) : F :=
  let sq := S i * S i - P i * P i - fQ i * fQ i
  if sq < 0 then 0 else root sq

/-- calcPower with a wiring mode; `root` is the C library's square root. -/
def calcPower (root : F → F) (w : WiringMode) (env : PowerEnv F) (r : PowerRegs) : Power F :=
  let P := directed env (measured w env r.watt)
  let Q := directed env (measured w env r.var)
  let fP := directed env (measured w env r.fwatt)
  let fQ := directed env (measured w env r.fvar)
  let S := apparent root w env P Q (measured w env r.va)
  let fS := apparent root w env fP fQ (measured w env r.fva)
  { P := withTotal P
    Q := withTotal Q
    S := withTotal S
    fP := withTotal fP
    fQ := withTotal fQ
    fS := withTotal fS
    PF := calcPF env.pfSign (withTotal P) (withTotal Q) (withTotal S)
    dPF := calcPF env.pfSign (withTotal fP) (withTotal fQ) (withTotal fS)
    D := calcD root (withTotal P) (withTotal fQ) (withTotal S) }

/-- The wiring mode as the energy scan distinguishes it. -/
def scanWiring (w : WiringMode) : Wiring :=
  if w = wm3LL2CT then .wm3LL2CT
  else if w = wm3LL3CT then .wm3LL3CT
  else if w = wm1LN1CT_L1 then .wm1LN1CT_L1
  else if w = wm1LN1CT_L2 then .wm1LN1CT_L2
  else if w = wm1LN1CT_L3 then .wm1LN1CT_L3
  else if w = wm1LL2CT then .wm1LL2CT
  else .wm3LN3CT

/-- What calcPower computes for a chip: it looks up the wiring by the chip's number. -/
def chipPower (pt : Nat → PtDef) (id : Nat) (root : F → F) (env : PowerEnv F) (r : PowerRegs) :
    Power F :=
  calcPower root (pt id).wiring env r

/-- What energy_scan accumulates for a chip: it looks up the wiring by the chip's number. -/
def chipEnergy (pt : Nat → PtDef) (id : Nat) (env : ScanEnv F) (ereg : Fin 3 → MeterEhRegs) :=
  energyDeltas { env with wiring := scanWiring (pt id).wiring } ereg

/-- The map assigns the chip, or a slot of it, to the feeder. -/
def Assigned (pt : Nat → PtDef) (id f : Nat) : Prop :=
  (feederMap pt f).valid = true ∧ (feederMap pt f).meter = id

omit [Single F] in
/-- The chip's power and energy are those of the wiring of each feeder assigned to it, in every
arithmetic and for all readings. -/
structure OwnWiring (pt : Nat → PtDef) (id : Nat) : Prop where
  power : ∀ f, Assigned pt id f → ∀ (F : Type) [Single F] (root : F → F) (env : PowerEnv F)
    (r : PowerRegs), chipPower pt id root env r = calcPower root (pt f).wiring env r
  energy : ∀ f, Assigned pt id f → ∀ (F : Type) [Single F] (env : ScanEnv F)
    (ereg : Fin 3 → MeterEhRegs), chipEnergy pt id env ereg =
      energyDeltas { env with wiring := scanWiring (pt f).wiring } ereg

/-- Both wirings have a second element or neither, and both are 3P3W or neither. -/
def SameClass (w w' : WiringMode) : Prop :=
  clearsSecond w = clearsSecond w' ∧ is3P3W w = is3P3W w'

private theorem calcPower_congr {w w' : WiringMode} (same : SameClass w w') (root : F → F)
    (env : PowerEnv F) (r : PowerRegs) : calcPower root w env r = calcPower root w' env r := by
  have phases : ∀ raw, measured w env raw = measured w' env raw := by
    intro raw
    ext i
    simp only [measured, same.1]
  have powers : ∀ P Q S, apparent root w env P Q S = apparent root w' env P Q S := by
    intro P Q S
    ext i
    simp only [apparent, same.2]
  simp only [calcPower, phases, powers]

private theorem scanWiring_clears (w : WiringMode) :
    scanWiring w = .wm3LL3CT ∨ scanWiring w = .wm3LL2CT ∨ scanWiring w = .wm1LL2CT ↔
      clearsSecond w = true := by
  unfold scanWiring clearsSecond
  split_ifs <;> simp_all [wm3LL2CT, wm3LL3CT, wm1LL2CT, wm1LN1CT_L1, wm1LN1CT_L2, wm1LN1CT_L3]

private theorem scanWiring_3P3W (w : WiringMode) :
    scanWiring w = .wm3LL3CT ∨ scanWiring w = .wm3LL2CT ↔ is3P3W w = true := by
  unfold scanWiring is3P3W
  split_ifs <;> simp_all [wm3LL2CT, wm3LL3CT, wm1LL2CT, wm1LN1CT_L1, wm1LN1CT_L2, wm1LN1CT_L3]

private theorem energyDeltas_congr {w w' : WiringMode} (same : SameClass w w') (env : ScanEnv F)
    (ereg : Fin 3 → MeterEhRegs) :
    energyDeltas { env with wiring := scanWiring w } ereg =
      energyDeltas { env with wiring := scanWiring w' } ereg := by
  have phases : correct { env with wiring := scanWiring w } ereg =
      correct { env with wiring := scanWiring w' } ereg := by
    ext i
    all_goals simp only [correct, scanWiring_clears, same.1]
  have apparents : ∀ raw, scaleApparent { env with wiring := scanWiring w } raw =
      scaleApparent { env with wiring := scanWiring w' } raw := by
    intro raw
    simp only [scaleApparent, scanWiring_3P3W, same.2]
    rfl
  simp only [energyDeltas, phases, apparents]
  rfl

def unitRegs : PowerRegs :=
  ⟨fun _ => 1, fun _ => 1, fun _ => 1, fun _ => 1, fun _ => 1, fun _ => 1⟩

def unitEnv : PowerEnv Rat := ⟨fun _ => false, fun _ => false, (pwrMax : Rat), 0, 0⟩

private theorem scalePowerAcc_unit : scalePowerAcc unitEnv 1 = 1 := by
  have one : Int32.toInt 1 = 1 := by decide
  simp [scalePowerAcc, unitEnv, pwrMax, one]

private theorem unit_P (w : WiringMode) : (calcPower (fun _ : Rat => 1) w unitEnv unitRegs).P 1 =
    if clearsSecond w = true then 0 else 1 := by
  change directed unitEnv (measured w unitEnv unitRegs.watt) 1 = _
  change (if (1 : Fin 3) = 1 ∧ clearsSecond w = true then 0 else scalePowerAcc unitEnv 1) = _
  simp only [true_and, scalePowerAcc_unit]

private theorem unit_S (w : WiringMode) : (calcPower (fun _ : Rat => 1) w unitEnv unitRegs).S 0 =
    if is3P3W w = true then 1 / 2 else 1 := by
  have phase : measured w unitEnv unitRegs.va 0 = 1 := by
    change (if (0 : Fin 3) = 1 ∧ clearsSecond w = true then 0 else scalePowerAcc unitEnv 1) = 1
    simp [scalePowerAcc_unit]
  change (if is3P3W w = true then measured w unitEnv unitRegs.va 0 * 1 / 2
    else measured w unitEnv unitRegs.va 0) = _
  rw [phase, mul_one]

private theorem sameClass_of_calcPower {w w' : WiringMode}
    (same : calcPower (fun _ : Rat => 1) w unitEnv unitRegs =
      calcPower (fun _ => 1) w' unitEnv unitRegs) : SameClass w w' := by
  have second : (if clearsSecond w = true then (0 : Rat) else 1) =
      if clearsSecond w' = true then 0 else 1 := by
    rw [← unit_P, ← unit_P, same]
  have first : (if is3P3W w = true then (1 / 2 : Rat) else 1) =
      if is3P3W w' = true then 1 / 2 else 1 := by
    rw [← unit_S, ← unit_S, same]
  constructor
  · cases clears : clearsSecond w <;> cases clears' : clearsSecond w' <;>
      simp [clears, clears'] at second ⊢
  · have half : (2 : Rat)⁻¹ ≠ 1 := by norm_num
    cases line : is3P3W w <;> cases line' : is3P3W w' <;>
      simp [line, line', half, half.symm] at first ⊢

/-- Every chip's power and energy are computed with the wiring of the feeders assigned to it exactly
if the wiring stored under the chip's number is of the class of each of theirs. -/
theorem ownWiring_iff (pt : Nat → PtDef) :
    (∀ id, id < meterChCount → OwnWiring pt id) ↔
      ∀ id f, id < meterChCount → Assigned pt id f →
        SameClass (pt id).wiring (pt f).wiring := by
  constructor
  · intro own id f lt assigned
    exact sameClass_of_calcPower ((own id lt).power f assigned Rat _ unitEnv unitRegs)
  · intro same id lt
    constructor
    · intro f assigned F _ root env r
      exact calcPower_congr (same id f lt assigned) root env r
    · intro f assigned F _ env ereg
      exact energyDeltas_congr (same id f lt assigned) env ereg

/-- Three single-phase feeders on the first chip and a 3P3W feeder on the second. -/
def sharedPt (f : Nat) : PtDef :=
  ⟨[wm1LN1CT_L1, wm1LN1CT_L2, wm1LN1CT_L3, wm3LL3CT].getD f notUsed, 220⟩

/-- The second chip is computed with the wiring of a feeder of the first. -/
theorem second_chip_not_own : ¬ OwnWiring sharedPt 1 := by
  intro own
  have assigned : Assigned sharedPt 1 3 := by
    unfold Assigned
    decide
  have same := sameClass_of_calcPower (own.power 3 assigned Rat _ unitEnv unitRegs)
  have differs : clearsSecond (sharedPt 1).wiring ≠ clearsSecond (sharedPt 3).wiring := by decide
  exact differs same.1

end SV300.Feeder
