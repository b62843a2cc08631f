/- SV300/Energy/Registers
   digest: Energy accumulation, the display mirror, saving and the boot of the energy subsystem. -/

import Mathlib.Algebra.Order.Floor.Defs
import Mathlib.Data.Rat.Floor
import SV300.Clock
import SV300.Energy.Fram

set_option autoImplicit false
set_option relaxedAutoImplicit false

namespace SV300.Energy.Registers

open SV300.Clock (Tm uLocalTime)
open SV300.Energy.Record
open SV300.Energy.Fram

/-- The single-precision arithmetic of the accumulators, with the conversion of a nonnegative
amount to a signed 32-bit integer.  Results about the firmware hold for any such arithmetic. -/
class Single (F : Type) extends Zero F, Add F, Sub F, Neg F, Mul F, Div F, IntCast F, LT F where
  decLt : DecidableLT F
  trunc : F → Nat
  trunc_lt : ∀ x, trunc x < 2 ^ 31

instance Single.decidableLT {F : Type} [Single F] : DecidableLT F := Single.decLt

/-- Exact arithmetic; the conversion saturates as the processor's does. -/
instance : Single Rat where
  decLt := inferInstance
  trunc x := min ⌊x⌋.toNat (2 ^ 31 - 1)
  trunc_lt x := by omega

/-- What one channel holds in RAM: the displayed registers and the control words of the scan. -/
structure Meter (F : Type) where
  ereg32 : Period → Regs UInt32
  ereg64 : Regs UInt64
  ereg : Regs F
  rstEgy : UInt16
  energyInit : Bool

structure Sys (F : Type) where
  sysTick1s : UInt32
  egyNvr : EnergyNvram
  meter : Channel → Meter F
  fram : Device
  egyDirty : Bool
  egyLastSave : UInt32

variable {F : Type}

/-- `meter[0].cntl.tod`, refreshed with every tick. -/
def Sys.tod (s : Sys F) : Tm := uLocalTime s.sysTick1s

def Sys.setMeter (s : Sys F) (id : Channel) (f : Meter F → Meter F) : Sys F :=
  { s with meter := Function.update s.meter id (f (s.meter id)) }

def setCell {α : Type} (regs : Channel → Regs α) (id : Channel) (c : Cell) (v : α) :
    Channel → Regs α :=
  Function.update regs id (Function.update (regs id) c v)

section Fields

variable (s : Sys F) (id : Channel) (f : Meter F → Meter F)

@[simp] theorem setMeter_egyNvr : (s.setMeter id f).egyNvr = s.egyNvr := rfl
@[simp] theorem setMeter_fram : (s.setMeter id f).fram = s.fram := rfl
@[simp] theorem setMeter_sysTick1s : (s.setMeter id f).sysTick1s = s.sysTick1s := rfl
@[simp] theorem setMeter_egyDirty : (s.setMeter id f).egyDirty = s.egyDirty := rfl
@[simp] theorem setMeter_egyLastSave : (s.setMeter id f).egyLastSave = s.egyLastSave := rfl

theorem setMeter_meter (j : Channel) :
    (s.setMeter id f).meter j = if j = id then f (s.meter id) else s.meter j := by
  simp only [Sys.setMeter, Function.update_apply]

end Fields

/-- The registers a record stands for on the display. -/
def displayed (r : EnergyNvram) (id : Channel) : Period → Regs UInt32
  | .total => fun c => (r.ereg64 id c / 100).toUInt32
  | .thisMonth => fun c => r.monthWh id c / 100
  | .lastMonth => fun c => r.ereg32Last id c

private theorem displayed_lastMonth (r : EnergyNvram) (id : Channel) :
    displayed r id .lastMonth = r.ereg32Last id := rfl

/-- `copyEreg32`: recompute a channel's displayed registers from the record. -/
def copyEreg32 (s : Sys F) (id : Channel) : Sys F :=
  s.setMeter id fun m => { m with ereg32 := displayed s.egyNvr id }

def copyEreg64 (s : Sys F) (id : Channel) : Sys F :=
  s.setMeter id fun m => { m with ereg64 := s.egyNvr.ereg64 id }

/-- `applyEregEdit`: the displayed registers, as edited, back into the record. -/
def applyEregEdit [Single F] (s : Sys F) (id : Channel) : Sys F :=
  let mirror := (s.meter id).ereg32
  let edited := { s with egyNvr := { s.egyNvr with
    ereg64 := Function.update s.egyNvr.ereg64 id fun c => (mirror .total c).toUInt64 * 100
    monthWh := Function.update s.egyNvr.monthWh id fun c => mirror .thisMonth c * 100
    ereg32Last := Function.update s.egyNvr.ereg32Last id fun c => mirror .lastMonth c } }
  edited.setMeter id fun m => { m with ereg := fun _ => 0 }

/-- A counter after `dt` more units, wrapped at the top of its range. -/
def addEreg64 (cell : UInt64) (dt : Nat) : UInt64 :=
  let sum := cell + UInt64.ofNat dt
  if maxEreg64 ≤ sum then sum - maxEreg64 else sum

theorem toNat_add_units {cell : UInt64} {dt : Nat} (fits : cell.toNat + dt < 2 ^ 64) :
    (cell + UInt64.ofNat dt).toNat = cell.toNat + dt := by
  rw [UInt64.toNat_add, UInt64.toNat_ofNat']
  omega

theorem toNat_add_month {month : UInt32} {dt : Nat} (fits : month.toNat + dt < 2 ^ 32) :
    (month + UInt32.ofNat dt).toNat = month.toNat + dt := by
  rw [UInt32.toNat_add, UInt32.toNat_ofNat']
  omega

/-- The flag `updateEhGrp` returns: the display no longer shows the new counters. -/
def changeFlag (s : Sys F) (id : Channel) (c : Cell) (cell : UInt64) (month : UInt32) : Nat :=
  if (s.meter id).ereg32 .total c ≠ (cell / 100).toUInt32 ∨
    (s.meter id).ereg32 .thisMonth c ≠ month / 100 then 1 <<< c.mode.index.val else 0

/-- Set a cell's 64-bit counter, month counter and residue. -/
def setCounters (s : Sys F) (id : Channel) (c : Cell) (cell : UInt64) (month : UInt32) (rest : F) :
    Sys F :=
  let booked := { s with egyNvr := { s.egyNvr with
    ereg64 := setCell s.egyNvr.ereg64 id c cell
    monthWh := setCell s.egyNvr.monthWh id c month } }
  booked.setMeter id fun m => { m with
    ereg := Function.update m.ereg c rest
    ereg64 := Function.update m.ereg64 c cell }

/-- The part of `updateEhGrp` after the direction is known. -/
def accumulate [Single F] (s : Sys F) (id : Channel) (c : Cell) (diff : F) : Nat × Sys F :=
  let accum := (s.meter id).ereg c + diff
  let dt := Single.trunc accum
  if dt = 0 then
    (0, s.setMeter id fun m => { m with ereg := Function.update m.ereg c accum })
  else
    let cell := addEreg64 (s.egyNvr.ereg64 id c) dt
    let month := s.egyNvr.monthWh id c + UInt32.ofNat dt
    (changeFlag s id c cell month, setCounters s id c cell month (accum - ((dt : Int) : F)))

/-- `updateEhGrp`: positive amounts are imports, negative ones exports. -/
def updateEhGrp [Single F] (s : Sys F) (id : Channel) (mode : Mode) (group : Group) (diff : F) :
    Nat × Sys F :=
  if 0 < diff then accumulate s id ⟨group, mode, .imported⟩ diff
  else if diff < 0 then accumulate s id ⟨group, mode, .exported⟩ (-diff)
  else (0, s)

/-- `storeEnergy`: stamp the record and write both copies. -/
def storeEnergy (s : Sys F) : Sys F :=
  let r := stamp s.sysTick1s s.egyNvr
  { s with egyNvr := r, fram := s.fram.write (storeEnergyNVR r) }

@[simp] theorem storeEnergy_egyNvr (s : Sys F) :
    (storeEnergy s).egyNvr = stamp s.sysTick1s s.egyNvr := rfl

theorem storeEnergy_fram (s : Sys F) :
    (storeEnergy s).fram = s.fram.write (storeEnergyNVR (storeEnergy s).egyNvr) := rfl

theorem storeEnergy_crcOk (s : Sys F) : CrcOk (storeEnergy s).egyNvr := by
  rw [storeEnergy_egyNvr]
  exact stamp_crcOk _ _

theorem firstCopy_storeEnergy (s : Sys F) :
    firstCopy (storeEnergy s).fram.cells = image (storeEnergy s).egyNvr := by
  rw [storeEnergy_fram, Device.cells_write, firstCopy_store]

/-- The month of the record's timestamp is not the present one. -/
def MonthChanged (s : Sys F) : Prop := (uLocalTime s.egyNvr.ts).tmMon ≠ s.tod.tmMon

instance (s : Sys F) : Decidable (MonthChanged s) := inferInstanceAs (Decidable (_ ≠ _))

/-- The month rollover of all channels: the displayed month becomes the last month. -/
def rollover (s : Sys F) : Sys F :=
  { s with
    egyNvr := { s.egyNvr with
      ereg32Last := fun id => (s.meter id).ereg32 .thisMonth
      monthWh := fun _ _ => 0 }
    meter := fun id => { s.meter id with
      ereg32 := Function.update (s.meter id).ereg32 .thisMonth fun _ => 0 } }

def channels : List Channel := [0, 1, 2]

/-- The boot's rollover, when the month passed while the power was off. -/
def rolled (s : Sys F) : Sys F := if MonthChanged s then rollover s else s

/-- `checkEnergy`: rollover if due, refresh the mirror of every channel, save. -/
def checkEnergy (s : Sys F) : Sys F :=
  storeEnergy (channels.foldl (fun s id => copyEreg64 (copyEreg32 s id) id) (rolled s))

def zeroRecord : EnergyNvram where
  magic := energyNvramMagic
  ts := 0
  ereg64 _ _ := 0
  monthWh _ _ := 0
  ereg32Last _ _ := 0
  r _ := 0
  crc := 0

/-- `loadEnergy`: the stored record, or a zeroed one saved at once; then `checkEnergy`. -/
def loadEnergy (s : Sys F) : Sys F :=
  let s := match loadEnergyNVR s.fram.cells with
    | some r => { s with egyNvr := r }
    | none => storeEnergy { s with egyNvr := zeroRecord }
  let s := if s.egyNvr.magic ≠ energyNvramMagic then
      storeEnergy { s with egyNvr := { zeroRecord with ts := s.sysTick1s } }
    else s
  checkEnergy s

def Meter.zero [Single F] : Meter F where
  ereg32 _ _ := 0
  ereg64 _ := 0
  ereg _ := 0
  rstEgy := 0
  energyInit := false

/-- RAM cleared, clock set from the external RTC, FRAM as it was left. -/
def powerOn [Single F] (now : UInt32) (fram : Device) : Sys F where
  sysTick1s := now
  egyNvr := { zeroRecord with magic := 0 }
  meter _ := .zero
  fram := fram
  egyDirty := false
  egyLastSave := 0

def boot [Single F] (now : UInt32) (fram : Device) : Sys F := loadEnergy (powerOn now fram)

/-- Refreshing every channel shows the record on the display and changes nothing else. -/
theorem refresh_all (s : Sys F) : channels.foldl copyEreg32 s =
    { s with meter := fun id => { s.meter id with ereg32 := displayed s.egyNvr id } } := by
  simp only [channels, List.foldl_cons, List.foldl_nil, copyEreg32, setMeter_egyNvr]
  simp only [Sys.setMeter, Sys.mk.injEq, true_and, and_true]
  funext id
  match id with
  | 0 | 1 | 2 => rfl

private theorem refresh_all64 (s : Sys F) :
    channels.foldl (fun s id => copyEreg64 (copyEreg32 s id) id) s =
      { s with meter := fun id => { s.meter id with
        ereg32 := displayed s.egyNvr id
        ereg64 := s.egyNvr.ereg64 id } } := by
  simp only [channels, List.foldl_cons, List.foldl_nil, copyEreg32, copyEreg64, setMeter_egyNvr]
  simp only [Sys.setMeter, Sys.mk.injEq, true_and, and_true]
  funext id
  match id with
  | 0 | 1 | 2 => rfl

theorem checkEnergy_eq (s : Sys F) :
    checkEnergy s = storeEnergy { rolled s with meter := fun id => { (rolled s).meter id with
      ereg32 := displayed (rolled s).egyNvr id
      ereg64 := (rolled s).egyNvr.ereg64 id } } := by
  rw [checkEnergy, refresh_all64]

@[simp] theorem rolled_ereg64 (s : Sys F) : (rolled s).egyNvr.ereg64 = s.egyNvr.ereg64 := by
  unfold rolled
  split <;> rfl

@[simp] theorem rolled_magic (s : Sys F) : (rolled s).egyNvr.magic = s.egyNvr.magic := by
  unfold rolled
  split <;> rfl

@[simp] theorem rolled_fram (s : Sys F) : (rolled s).fram = s.fram := by
  unfold rolled
  split <;> rfl

@[simp] theorem rolled_sysTick1s (s : Sys F) : (rolled s).sysTick1s = s.sysTick1s := by
  unfold rolled
  split <;> rfl

private theorem checkEnergy_egyNvr (s : Sys F) :
    (checkEnergy s).egyNvr = stamp s.sysTick1s (rolled s).egyNvr := by
  simp only [checkEnergy_eq, storeEnergy, rolled_sysTick1s]

private theorem checkEnergy_fram (s : Sys F) :
    (checkEnergy s).fram = s.fram.write (storeEnergyNVR (checkEnergy s).egyNvr) := by
  simp only [checkEnergy_eq, storeEnergy, rolled_fram, rolled_sysTick1s]

theorem boot_saved [Single F] (now : UInt32) (fram : Device) :
    ∃ t, boot (F := F) now fram = storeEnergy t :=
  ⟨_, checkEnergy_eq _⟩

theorem boot_loaded [Single F] {now : UInt32} {fram : Device} {r : EnergyNvram}
    (found : loadEnergyNVR fram.cells = some r) :
    boot (F := F) now fram = checkEnergy { powerOn now fram with egyNvr := r } := by
  have magic : r.magic = energyNvramMagic := (loadable_of_loadEnergyNVR found).1
  have found' : loadEnergyNVR (powerOn (F := F) now fram).fram.cells = some r := found
  simp only [boot, loadEnergy, found', magic, ne_eq, not_true_eq_false, if_false]

theorem boot_rejected [Single F] {now : UInt32} {fram : Device}
    (rejected : loadEnergyNVR fram.cells = none) :
    (boot (F := F) now fram).egyNvr.ereg64 = fun _ _ => 0 := by
  have rejected' : loadEnergyNVR (powerOn (F := F) now fram).fram.cells = none := rejected
  simp only [boot, loadEnergy, rejected', checkEnergy_egyNvr, stamp_ereg64, rolled_ereg64]
  split <;> rfl

theorem boot_rejected_magic [Single F] {now : UInt32} {fram : Device}
    (rejected : loadEnergyNVR fram.cells = none) :
    (boot (F := F) now fram).egyNvr.magic = energyNvramMagic := by
  have rejected' : loadEnergyNVR (powerOn (F := F) now fram).fram.cells = none := rejected
  simp only [boot, loadEnergy, rejected', checkEnergy_egyNvr, stamp_magic, rolled_magic]
  split <;> rfl

theorem boot_ereg64 [Single F] {now : UInt32} {fram : Device} {r : EnergyNvram}
    (found : loadEnergyNVR fram.cells = some r) :
    (boot (F := F) now fram).egyNvr.ereg64 = r.ereg64 := by
  rw [boot_loaded found, checkEnergy_egyNvr, stamp_ereg64, rolled_ereg64]

theorem boot_magic [Single F] {now : UInt32} {fram : Device} {r : EnergyNvram}
    (found : loadEnergyNVR fram.cells = some r) :
    (boot (F := F) now fram).egyNvr.magic = r.magic := by
  rw [boot_loaded found, checkEnergy_egyNvr, stamp_magic, rolled_magic]

theorem boot_crcOk [Single F] {now : UInt32} {fram : Device} {r : EnergyNvram}
    (found : loadEnergyNVR fram.cells = some r) : CrcOk (boot (F := F) now fram).egyNvr := by
  rw [boot_loaded found, checkEnergy_egyNvr]
  exact stamp_crcOk _ _

/-- A boot in the month of the record restores it; only the timestamp and the CRC are new. -/
theorem boot_sameMonth [Single F] {now : UInt32} {fram : Device} {r : EnergyNvram}
    (found : loadEnergyNVR fram.cells = some r)
    (same : (uLocalTime r.ts).tmMon = (uLocalTime now).tmMon) :
    (boot (F := F) now fram).egyNvr = stamp now r := by
  have unchanged : ¬ MonthChanged { powerOn (F := F) now fram with egyNvr := r } :=
    not_not_intro same
  rw [boot_loaded found, checkEnergy_egyNvr, rolled, if_neg unchanged]
  rfl

theorem boot_otherMonth [Single F] {now : UInt32} {fram : Device} {r : EnergyNvram}
    (found : loadEnergyNVR fram.cells = some r)
    (other : (uLocalTime r.ts).tmMon ≠ (uLocalTime now).tmMon) :
    (boot (F := F) now fram).egyNvr =
      stamp now { r with ereg32Last := fun _ _ => 0, monthWh := fun _ _ => 0 } := by
  have changed : MonthChanged { powerOn (F := F) now fram with egyNvr := r } := other
  rw [boot_loaded found, checkEnergy_egyNvr, rolled, if_pos changed]
  rfl

theorem boot_fram [Single F] {now : UInt32} {fram : Device} {r : EnergyNvram}
    (found : loadEnergyNVR fram.cells = some r) :
    (boot (F := F) now fram).fram =
      fram.write (storeEnergyNVR (boot (F := F) now fram).egyNvr) := by
  rw [boot_loaded found]
  exact checkEnergy_fram _

private theorem checkEnergy_control (s : Sys F) (id : Channel) :
    ((checkEnergy s).meter id).energyInit = (s.meter id).energyInit ∧
      ((checkEnergy s).meter id).rstEgy = (s.meter id).rstEgy := by
  rw [checkEnergy_eq, rolled]
  split <;> exact ⟨rfl, rfl⟩

private theorem checkEnergy_displayed (s : Sys F) (id : Channel) :
    ((checkEnergy s).meter id).ereg32 = displayed (checkEnergy s).egyNvr id := by
  rw [checkEnergy_egyNvr, checkEnergy_eq]
  rfl

theorem boot_displayed [Single F] (now : UInt32) (fram : Device) (id : Channel) :
    ((boot (F := F) now fram).meter id).ereg32 = displayed (boot (F := F) now fram).egyNvr id :=
  checkEnergy_displayed _ id

theorem boot_lastMonth [Single F] (now : UInt32) (fram : Device) (id : Channel) :
    ((boot (F := F) now fram).meter id).ereg32 .lastMonth =
      (boot (F := F) now fram).egyNvr.ereg32Last id := by
  rw [boot_displayed, displayed_lastMonth]

theorem boot_control [Single F] (now : UInt32) (fram : Device) (id : Channel) :
    ((boot (F := F) now fram).meter id).energyInit = false ∧
      ((boot (F := F) now fram).meter id).rstEgy = 0 := by
  dsimp only [boot, loadEnergy]
  obtain ⟨init, command⟩ := checkEnergy_control (F := F) _ id
  rw [init, command]
  constructor <;> split <;> split <;> rfl

theorem boot_energyInit [Single F] (now : UInt32) (fram : Device) (id : Channel) :
    ((boot (F := F) now fram).meter id).energyInit = false :=
  (boot_control now fram id).1

end SV300.Energy.Registers
