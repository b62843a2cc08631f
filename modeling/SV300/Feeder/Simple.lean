/- SV300/Feeder/Simple
   digest: copySimpleMap publishes each placed feeder's readings at its phase positions. -/

import SV300.Energy.Record
import SV300.Feeder.Map

set_option autoImplicit false
set_option relaxedAutoImplicit false

namespace SV300.Feeder

open SV300.Energy.Record

/-- The settings that the users of the feeder map read. -/
structure Settings where
  feederCnt : Nat
  pt : Nat → PtDef

/-- What copySimpleMap reads of one meter; position 3 of U, Upp, I, P, Q, S and PF is the total. -/
structure MeterData (F : Type) where
  Freq : F
  U : Nat → F
  Upp : Nat → F
  Uangle : Nat → F
  I : Nat → F
  Iangle : Nat → F
  In : F
  P : Nat → F
  Q : Nat → F
  S : Nat → F
  PF : Nat → F
  Ubal : Nat → F
  Ibal : Nat → F
  THD_U : Nat → F
  THD_I : Nat → F
  TDD_I : Nat → F
  Ereg32 : Period → Regs UInt32
  hdU : Nat → Nat → Int
  hdI : Nat → Nat → Int
  I_start : F

/-- SMP_CHANNEL with the SMP_HARMONICS of the same feeder. -/
structure SmpChannel (F : Type) where
  cbType : WiringMode
  cbStatus : Bool
  Freq : F
  U : Nat → F
  Upp : Nat → F
  Uangle : Nat → F
  I : Nat → F
  In : F
  Iangle : Nat → F
  P : Nat → F
  Ptot : F
  Qtot : F
  Stot : F
  PFtot : F
  kWh_imp : UInt32
  kWh_imp_thisM : UInt32
  kWh_imp_lastM : UInt32
  kVARh_imp : UInt32
  kVAh : UInt32
  Uunb : F
  Iunb : F
  THD_U : Nat → F
  THD_I : Nat → F
  TDD_I : Nat → F
  harmU : Nat → Nat → Int
  harmI : Nat → Nat → Int

variable {F : Type} [Zero F]

def SmpChannel.zero : SmpChannel F where
  cbType := notUsed
  cbStatus := false
  Freq := 0
  U _ := 0
  Upp _ := 0
  Uangle _ := 0
  I _ := 0
  In := 0
  Iangle _ := 0
  P _ := 0
  Ptot := 0
  Qtot := 0
  Stot := 0
  PFtot := 0
  kWh_imp := 0
  kWh_imp_thisM := 0
  kWh_imp_lastM := 0
  kVARh_imp := 0
  kVAh := 0
  Uunb := 0
  Iunb := 0
  THD_U _ := 0
  THD_I _ := 0
  TDD_I _ := 0
  harmU _ _ := 0
  harmI _ _ := 0

def smpHarmOrder : Nat := 41

/-- The first `n` positions of an array copied over a zeroed one. -/
def copied (n : Nat) (a : Nat → F) (j : Nat) : F := if j < n then a j else 0

def placed (p : Nat) (x : F) : Nat → F := Function.update (fun _ => 0) p x

/-- The orders of one harmonic row, each stored as `int16_t`. -/
def orders (a : Nat → Int) (o : Nat) : Int := if o < smpHarmOrder then (a o).bmod (2 ^ 16) else 0

/-- `EGY_GRP_PH_A + slot`. -/
def slotGroup : Nat → Group
  | 0 => .phA
  | 1 => .phB
  | _ => .phC

def smpFill3ph (pm : MeterData F) : SmpChannel F :=
  { (SmpChannel.zero : SmpChannel F) with
    Freq := pm.Freq
    U := copied 4 pm.U
    Upp := copied 4 pm.Upp
    Uangle := copied 3 pm.Uangle
    I := copied 4 pm.I
    Iangle := copied 3 pm.Iangle
    P := copied 3 pm.P
    THD_U := copied 3 pm.THD_U
    THD_I := copied 3 pm.THD_I
    TDD_I := copied 3 pm.TDD_I
    In := pm.In
    Ptot := pm.P 3
    Qtot := pm.Q 3
    Stot := pm.S 3
    PFtot := pm.PF 3
    Uunb := pm.Ubal 0
    Iunb := pm.Ibal 0
    kWh_imp := pm.Ereg32 .total ⟨.total, .kwh, .imported⟩
    kWh_imp_thisM := pm.Ereg32 .thisMonth ⟨.total, .kwh, .imported⟩
    kWh_imp_lastM := pm.Ereg32 .lastMonth ⟨.total, .kwh, .imported⟩
    kVARh_imp := pm.Ereg32 .total ⟨.total, .kvarh, .imported⟩
    kVAh := pm.Ereg32 .total ⟨.total, .kvah, .imported⟩
    harmU := fun j o => if j < 3 then orders (pm.hdU j) o else 0
    harmI := fun j o => if j < 3 then orders (pm.hdI j) o else 0 }

/-- The readings come from the CT slot and go to the position of the voltage phase. -/
def smpFill1ph (pm : MeterData F) (slot vphase : Nat) : SmpChannel F :=
  { (SmpChannel.zero : SmpChannel F) with
    Freq := pm.Freq
    U := Function.update (placed vphase (pm.U slot)) 3 (pm.U slot)
    Uangle := placed vphase (pm.Uangle slot)
    I := Function.update (placed vphase (pm.I slot)) 3 (pm.I slot)
    Iangle := placed vphase (pm.Iangle slot)
    P := placed vphase (pm.P slot)
    Ptot := pm.P slot
    Qtot := pm.Q slot
    Stot := pm.S slot
    PFtot := pm.PF slot
    THD_U := placed vphase (pm.THD_U slot)
    THD_I := placed vphase (pm.THD_I slot)
    TDD_I := placed vphase (pm.TDD_I slot)
    kWh_imp := pm.Ereg32 .total ⟨slotGroup slot, .kwh, .imported⟩
    kWh_imp_thisM := pm.Ereg32 .thisMonth ⟨slotGroup slot, .kwh, .imported⟩
    kWh_imp_lastM := pm.Ereg32 .lastMonth ⟨slotGroup slot, .kwh, .imported⟩
    kVARh_imp := pm.Ereg32 .total ⟨slotGroup slot, .kvarh, .imported⟩
    kVAh := pm.Ereg32 .total ⟨slotGroup slot, .kvah, .imported⟩
    harmU := fun j o => if j = vphase then orders (pm.hdU slot) o else 0
    harmI := fun j o => if j = vphase then orders (pm.hdI slot) o else 0 }

section
variable [LE F] [DecidableLE F]

def smpChannel (e : FeederMap) (wiring : WiringMode) (meters : Nat → MeterData F) : SmpChannel F :=
  if e.valid then
    let d := if e.is3ph then smpFill3ph (meters e.meter)
      else smpFill1ph (meters e.meter) e.slot e.vphase.toNat
    { d with
      cbType := wiring
      cbStatus := decide ((meters e.meter).I_start ≤ d.I 3) }
  else .zero

/-- The settings with the feeders counted anew, and the published channels. -/
def copySimpleMap (s : Settings) (meters : Nat → MeterData F) :
    Settings × (Nat → SmpChannel F) :=
  let s := { s with feederCnt := countFeeders s.pt }
  (s, fun f => smpChannel ((buildFeederMap s.feederCnt s.pt).1 f) (s.pt f).wiring meters)

theorem copySimpleMap_channel (s : Settings) (meters : Nat → MeterData F) (f : Nat) :
    (copySimpleMap s meters).2 f = smpChannel (feederMap s.pt f) (s.pt f).wiring meters := rfl

end

omit [Zero F] in
/-- Two meters have the same readings at one slot. -/
structure SameSlot (a b : MeterData F) (k : Nat) : Prop where
  U : a.U k = b.U k
  Uangle : a.Uangle k = b.Uangle k
  I : a.I k = b.I k
  Iangle : a.Iangle k = b.Iangle k
  P : a.P k = b.P k
  Q : a.Q k = b.Q k
  S : a.S k = b.S k
  PF : a.PF k = b.PF k
  THD_U : a.THD_U k = b.THD_U k
  THD_I : a.THD_I k = b.THD_I k
  TDD_I : a.TDD_I k = b.TDD_I k
  energy : ∀ p mode, a.Ereg32 p ⟨slotGroup k, mode, .imported⟩ =
    b.Ereg32 p ⟨slotGroup k, mode, .imported⟩
  hdU : a.hdU k = b.hdU k
  hdI : a.hdI k = b.hdI k

/-- Only the readings of one slot of one meter, and that meter's totals, differ. -/
structure SameBut (id j : Nat) (a b : Nat → MeterData F) : Prop where
  meter : ∀ m, m ≠ id → a m = b m
  Freq : (a id).Freq = (b id).Freq
  I_start : (a id).I_start = (b id).I_start
  slot : ∀ k, k < 3 → k ≠ j → SameSlot (a id) (b id) k

theorem smpFill1ph_congr {a b : MeterData F} {slot : Nat} (same : SameSlot a b slot)
    (freq : a.Freq = b.Freq) (vphase : Nat) :
    smpFill1ph a slot vphase = smpFill1ph b slot vphase := by
  simp only [smpFill1ph, freq, same.U, same.Uangle, same.I, same.Iangle, same.P, same.Q, same.S,
    same.PF, same.THD_U, same.THD_I, same.TDD_I, same.energy, same.hdU, same.hdI]

theorem placed_same (p : Nat) (x : F) : placed p x p = x :=
  Function.update_self ..

theorem placed_other {p q : Nat} (differ : q ≠ p) (x : F) : placed p x q = 0 :=
  Function.update_of_ne differ ..

end SV300.Feeder
