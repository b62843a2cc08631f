/- SV300/Energy/Record
   digest: The energy record kept in FRAM, its byte image and the CRC that seals it. -/

import Mathlib.Logic.Equiv.Fin.Basic
import Mathlib.Tactic.FinCases
import SV300.Library.ByteCodec
import SV300.Library.Literals
import SV300.Crc

set_option autoImplicit false
set_option relaxedAutoImplicit false

namespace SV300.Energy.Record

open SV300.Library.ByteCodec (Codec u16 u32 u64 pair relabel array size_array)
open SV300.Library.TableCrc (lowByte highByte)
open SV300.Crc (gencrcModbus gencrc_sealed)

inductive Mode | kwh | kvarh | kvah
  deriving DecidableEq, Repr

inductive Sign | imported | exported
  deriving DecidableEq, Repr

inductive Group | total | phA | phB | phC
  deriving DecidableEq, Repr

/-- The periods a displayed 32-bit register block exists for. -/
inductive Period | total | thisMonth | lastMonth
  deriving DecidableEq, Repr

/-- One counter of a block, `cell[grp][mode][sign]` in the source. -/
structure Cell where
  grp : Group
  mode : Mode
  sign : Sign
  deriving DecidableEq, Repr

def importTotal : Cell := ⟨.total, .kwh, .imported⟩

abbrev Regs (α : Type) := Cell → α

abbrev Channel := Fin 3

def Mode.index : Mode → Fin 3
  | kwh => 0
  | kvarh => 1
  | kvah => 2

def Mode.all : List Mode := [kwh, kvarh, kvah]

def Sign.all : List Sign := [imported, exported]

def Group.all : List Group := [total, phA, phB, phC]

def Sign.index : Sign → Fin 2
  | imported => 0
  | exported => 1

def Group.index : Group → Fin 4
  | total => 0
  | phA => 1
  | phB => 2
  | phC => 3

/-- All cells in memory order, which is also the order of the source's loops. -/
def Cell.all : List Cell :=
  Group.all.flatMap fun g => Mode.all.flatMap fun m => Sign.all.map fun s => ⟨g, m, s⟩

theorem Cell.mem_all (c : Cell) : c ∈ Cell.all := by
  rcases c with ⟨g, m, s⟩
  cases g <;> cases m <;> cases s <;> decide

def Cell.index (c : Cell) : Fin 24 :=
  ⟨c.grp.index * 6 + c.mode.index * 2 + c.sign.index, by omega⟩

def Cell.ofIndex (i : Fin 24) : Cell := Cell.all.get (i.cast (by decide))

private theorem Cell.ofIndex_index (c : Cell) : Cell.ofIndex c.index = c := by
  rcases c with ⟨g, m, s⟩
  cases g <;> cases m <;> cases s <;> rfl

private theorem Cell.index_ofIndex (i : Fin 24) : (Cell.ofIndex i).index = i := by
  revert i
  decide

def cellEquiv : Cell ≃ Fin 24 where
  toFun := Cell.index
  invFun := Cell.ofIndex
  left_inv := Cell.ofIndex_index
  right_inv := Cell.index_ofIndex

def regs {α : Type} (c : Codec α) : Codec (Regs α) :=
  relabel (array c 24) (cellEquiv.arrowCongr (Equiv.refl α))

/-- The contents of an `ENERGY_NVRAM` before its CRC field. -/
structure Body where
  magic : UInt32
  ts : UInt32
  ereg64 : Channel → Regs UInt64
  monthWh : Channel → Regs UInt32
  ereg32Last : Channel → Regs UInt32
  r : Fin 3 → UInt16

structure EnergyNvram extends Body where
  crc : UInt16

def energyNvramMagic : UInt32 := 0x1234abd0

def bodyEquiv : Body ≃ UInt32 × UInt32 × (Channel → Regs UInt64) × (Channel → Regs UInt32) ×
    (Channel → Regs UInt32) × (Fin 3 → UInt16) where
  toFun b := (b.magic, b.ts, b.ereg64, b.monthWh, b.ereg32Last, b.r)
  invFun t := ⟨t.1, t.2.1, t.2.2.1, t.2.2.2.1, t.2.2.2.2.1, t.2.2.2.2.2⟩
  left_inv _ := rfl
  right_inv _ := rfl

def energyNvramEquiv : EnergyNvram ≃ Body × UInt16 where
  toFun r := (r.toBody, r.crc)
  invFun t := ⟨t.1, t.2⟩
  left_inv _ := rfl
  right_inv _ := rfl

def bodyCodec : Codec Body :=
  relabel (pair u32 (pair u32 (pair (array (regs u64) 3) (pair (array (regs u32) 3)
    (pair (array (regs u32) 3) (array u16 3)))))) bodyEquiv

def codec : Codec EnergyNvram := relabel (pair bodyCodec u16) energyNvramEquiv

/-- `sizeof(ENERGY_NVRAM)`. -/
abbrev recordSize : Nat := 1168

private theorem size_regs {α : Type} (c : Codec α) : (regs c).size = 24 * c.size :=
  size_array c 24

theorem size_bodyCodec : bodyCodec.size = 1166 := by
  simp only [bodyCodec, relabel, pair, size_array, size_regs]
  rfl

theorem size_codec : codec.size = recordSize := by
  change bodyCodec.size + u16.size = recordSize
  rw [size_bodyCodec]
  rfl

/-- The bytes of a record as they are written to FRAM. -/
def image (r : EnergyNvram) : List UInt8 := codec.encode r

def ofImage (bs : List UInt8) : EnergyNvram := codec.decode bs

@[simp] theorem length_image (r : EnergyNvram) : (image r).length = recordSize := by
  rw [image, codec.length_encode, size_codec]

@[simp] theorem ofImage_image (r : EnergyNvram) : ofImage (image r) = r :=
  codec.decode_encode r

theorem image_injective : Function.Injective image := codec.encode_injective

theorem encode_u16 (c : UInt16) : u16.encode c = [lowByte c, highByte c] := by
  have low : UInt8.ofNat c.toNat = lowByte c := rfl
  have high : UInt8.ofNat (c.toNat / 256) = highByte c := by
    apply UInt8.toNat_inj.mp
    simp [highByte, Nat.shiftRight_eq_div_pow]
  change [UInt8.ofNat c.toNat, UInt8.ofNat (c.toNat / 256)] = _
  rw [low, high]

theorem image_eq (r : EnergyNvram) :
    image r = bodyCodec.encode r.toBody ++ [lowByte r.crc, highByte r.crc] := by
  rw [← encode_u16]
  rfl

/-- The CRC `storeEnergy` computes: over the record without its last two bytes. -/
def recordCrc (r : EnergyNvram) : UInt16 := gencrcModbus ((image r).take (recordSize - 2))

/-- The record with its timestamp set and its CRC field computed, as `storeEnergy` leaves it. -/
def stamp (now : UInt32) (r : EnergyNvram) : EnergyNvram :=
  let r := { r with ts := now }
  { r with crc := recordCrc r }

private theorem take_image (r : EnergyNvram) :
    (image r).take (recordSize - 2) = bodyCodec.encode r.toBody := by
  rw [image_eq]
  exact List.take_left' ((bodyCodec.length_encode _).trans size_bodyCodec)

theorem recordCrc_eq (r : EnergyNvram) : recordCrc r = gencrcModbus (bodyCodec.encode r.toBody) := by
  rw [recordCrc, take_image]

/-- A record passes the CRC test of the loader. -/
def CrcOk (r : EnergyNvram) : Prop := gencrcModbus (image r) = 0

instance (r : EnergyNvram) : Decidable (CrcOk r) :=
  inferInstanceAs (Decidable (_ = _))

private theorem crcOk_of_crc_eq {r : EnergyNvram} (crc : r.crc = recordCrc r) : CrcOk r := by
  rw [CrcOk, image_eq, crc, recordCrc_eq]
  exact gencrc_sealed _

theorem setCrc_crcOk (r : EnergyNvram) : CrcOk { r with crc := recordCrc r } := by
  apply crcOk_of_crc_eq
  dsimp only
  rw [recordCrc_eq, recordCrc_eq]

theorem stamp_crcOk (now : UInt32) (r : EnergyNvram) : CrcOk (stamp now r) :=
  setCrc_crcOk { r with ts := now }

@[simp] theorem stamp_ts (now : UInt32) (r : EnergyNvram) : (stamp now r).ts = now := rfl

@[simp] theorem stamp_magic (now : UInt32) (r : EnergyNvram) :
    (stamp now r).magic = r.magic := rfl

@[simp] theorem stamp_ereg64 (now : UInt32) (r : EnergyNvram) :
    (stamp now r).ereg64 = r.ereg64 := rfl

@[simp] theorem stamp_monthWh (now : UInt32) (r : EnergyNvram) :
    (stamp now r).monthWh = r.monthWh := rfl

@[simp] theorem stamp_ereg32Last (now : UInt32) (r : EnergyNvram) :
    (stamp now r).ereg32Last = r.ereg32Last := rfl

end SV300.Energy.Record
