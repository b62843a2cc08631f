/- SV300/Rms/Angle
   digest: Which measured quantity stands at which phase position, for each wiring mode. -/

import SV300.Energy.Registers
import SV300.Feeder.Map

set_option autoImplicit false
set_option relaxedAutoImplicit false

namespace SV300.Rms

open SV300.Energy.Registers SV300.Feeder

/-- The functions of the C library that the vector calculations use. -/
structure Libm (F : Type) where
  sqrt : F → F
  cos : F → F
  fmod : F → F → F
  pi : F

/-- The scaled averages and angles that the wiring part of calcRmsAngle starts from. -/
structure Cntl (F : Type) where
  U : Nat → F
  I : Nat → F
  fU : Nat → F
  fI : Nat → F
  Uangle : Nat → F
  Iangle : Nat → F

/-- The voltages and currents it leaves in METERING; position 3 is the average. -/
structure Readings (F : Type) where
  U : Nat → F
  I : Nat → F
  fU : Nat → F
  fI : Nat → F
  Upp : Nat → F

variable {F : Type} [Single F]

def average3 (a b c : F) : F := (0 + a + b + c) / ((3 : Int) : F)

def phases (a b c avg : F) : Nat → F
  | 0 => a
  | 1 => b
  | 2 => c
  | _ => avg

def phasesAvg (a b c : F) : Nat → F := phases a b c (average3 a b c)

/-- The current of the phase without a CT, from the two others. -/
def calcPhaseCurrent (fn : Libm F) (i1 i3 : F) (Iangle : Nat → F) : F :=
  let half : F := ((180 : Int) : F)
  let angle := if half < Iangle 0 then ((360 : Int) : F) - Iangle 0 else Iangle 0
  fn.sqrt (i1 * i1 + i3 * i3 + ((2 : Int) : F) * i1 * i3 * fn.cos (angle * fn.pi / half))

def calcLineVolt (fn : Libm F) (pickupVolt : F) (U Uangle : Nat → F) (ph : Nat) : F :=
  let half : F := ((180 : Int) : F)
  let turned (i : Nat) : F := fn.fmod (Uangle i + half) ((360 : Int) : F)
  let (v1, v2, angle) :=
    if ph = 0 then (U 0, U 1, turned 1)
    else if ph = 1 then (U 1, U 2, turned 0)
    else (U 2, U 0, turned 1)
  let ret := fn.sqrt (v1 * v1 + v2 * v2 +
    ((2 : Int) : F) * v1 * v2 * fn.cos (angle * fn.pi / half))
  if ret < pickupVolt then 0 else ret

/-- The currents: a two-element single-phase wiring has none at position 1, and the two-CT wiring
calculates it, the first time from the third current of the previous call. -/
def currents (fn : Libm F) (w : WiringMode) (c : Cntl F) (prevI : Nat → F) :
    (Nat → F) × (Nat → F) :=
  let two : F := ((2 : Int) : F)
  if is1LN1CT w then (phasesAvg (c.I 0) (c.I 1) (c.I 2), phasesAvg (c.fI 0) (c.fI 1) (c.fI 2))
  else if w = wm1LL2CT then
    (phases (c.I 0) 0 (c.I 2) ((c.I 0 + c.I 2) / two),
      phases (c.fI 0) 0 (c.fI 2) ((c.fI 0 + c.fI 2) / two))
  else
    let second := if w = wm3LL2CT then calcPhaseCurrent fn (c.I 0) (prevI 2) c.Iangle else c.I 1
    let fsecond := if w = wm3LL2CT then calcPhaseCurrent fn (c.I 0) (c.I 2) c.Iangle else c.fI 1
    (phasesAvg (c.I 0) second (c.I 2), phasesAvg (c.fI 0) fsecond (c.fI 2))

def voltages (w : WiringMode) (U : Nat → F) : Nat → F :=
  if is3P3W w then phasesAvg (U 0) (U 2) (U 1)
  else if w = wm1LL2CT then phases (U 0) 0 (U 2) ((U 0 + U 2) / ((2 : Int) : F))
  else phasesAvg (U 0) (U 1) (U 2)

/-- The line voltages; a wiring mode that is none of the known ones leaves them as they were. -/
def lineVoltages (fn : Libm F) (pickupVolt : F) (w : WiringMode) (c : Cntl F)
    (U prevUpp : Nat → F) : Nat → F :=
  if w = wm3LN3CT then
    let line := calcLineVolt fn pickupVolt U c.Uangle
    phasesAvg (line 0) (line 1) (line 2)
  else if is3P3W w then phasesAvg (U 0) (U 1) (U 2)
  else if w = wm1LL2CT then
    phases (U 0) (U 2) (U 0 + U 2) ((U 0 + U 2) / ((2 : Int) : F))
  else if is1LN1CT w then phases (U 0) 0 0 (U 0)
  else prevUpp

/-- The part of calcRmsAngle that depends on the wiring mode. -/
def distribute (fn : Libm F) (pickupVolt : F) (w : WiringMode) (c : Cntl F)
    (prevI prevUpp : Nat → F) : Readings F :=
  let I := currents fn w c prevI
  let U := voltages w c.U
  { U := U
    I := I.1
    fU := voltages w c.fU
    fI := I.2
    Upp := lineVoltages fn pickupVolt w c U prevUpp }

/-- Position `s` of the arrays holds the quantities of channel `s`. -/
def Plain (w : WiringMode) (s : Nat) : Prop := (is3P3W w = true → s = 0) ∧ (w = wm1LL2CT → s ≠ 1)

theorem voltages_plain {w : WiringMode} {s : Nat} (plain : Plain w s) (lt : s < 3) (U : Nat → F) :
    voltages w U s = U s := by
  have place : s = 0 ∨ s = 1 ∨ s = 2 := by omega
  unfold voltages
  split_ifs with line two
  · rw [plain.1 line]
    rfl
  · rcases place with rfl | rfl | rfl
    · rfl
    · exact absurd rfl (plain.2 two)
    · rfl
  · rcases place with rfl | rfl | rfl <;> rfl

theorem currents_plain {w : WiringMode} {s : Nat} (plain : Plain w s) (lt : s < 3) (fn : Libm F)
    (c : Cntl F) (prevI : Nat → F) : (currents fn w c prevI).1 s = c.I s := by
  have place : s = 0 ∨ s = 1 ∨ s = 2 := by omega
  unfold currents
  split_ifs with single two calculated
  · rcases place with rfl | rfl | rfl <;> rfl
  · rcases place with rfl | rfl | rfl
    · rfl
    · exact absurd rfl (plain.2 two)
    · rfl
  · have line : is3P3W w = true := by
      rw [calculated]
      rfl
    rw [plain.1 line]
    rfl
  · rcases place with rfl | rfl | rfl <;> rfl

end SV300.Rms
