/- SV300/Settings/HwSettings
   digest: The calibration record in the EEPROM, and what its Modbus CRC lets through. -/

import SV300.Energy.Fram
import SV300.Library.BitCrc

set_option autoImplicit false
set_option relaxedAutoImplicit false

namespace SV300.Settings.HwSettings

open SV300.Crc
open SV300.Library.BitCrc
open SV300.Library.ByteCodec (Codec u16 u32 pair relabel array size_array)
open SV300.Library.TableCrc (lowByte highByte)

/-- `METER_CAL` before its CRC field; `cal` are the gains and offsets from `vgain` to `idcos`. -/
structure Body where
  cal : Fin 203 → UInt32
  hwModel : UInt16
  hwVer : UInt16
  fwVer : UInt16
  rsv : UInt16
  mac : UInt32
  sn : Fin 2 → UInt32
  magic : UInt16

structure MeterCal extends Body where
  crc : UInt16

def bodyEquiv : Body ≃ (Fin 203 → UInt32) × UInt16 × UInt16 × UInt16 × UInt16 × UInt32 ×
    (Fin 2 → UInt32) × UInt16 where
  toFun b := (b.cal, b.hwModel, b.hwVer, b.fwVer, b.rsv, b.mac, b.sn, b.magic)
  invFun t := ⟨t.1, t.2.1, t.2.2.1, t.2.2.2.1, t.2.2.2.2.1, t.2.2.2.2.2.1, t.2.2.2.2.2.2.1,
    t.2.2.2.2.2.2.2⟩
  left_inv _ := rfl
  right_inv _ := rfl

def meterCalEquiv : MeterCal ≃ Body × UInt16 where
  toFun r := (r.toBody, r.crc)
  invFun t := ⟨t.1, t.2⟩
  left_inv _ := rfl
  right_inv _ := rfl

def bodyCodec : Codec Body :=
  relabel (pair (array u32 203) (pair u16 (pair u16 (pair u16 (pair u16 (pair u32
    (pair (array u32 2) u16))))))) bodyEquiv

def codec : Codec MeterCal := relabel (pair bodyCodec u16) meterCalEquiv

/-- `sizeof(METER_CAL)`. -/
abbrev meterCalSize : Nat := 836

private theorem size_bodyCodec : bodyCodec.size = 834 := by
  have short : u16.size = 2 := rfl
  have word : u32.size = 4 := rfl
  simp only [bodyCodec, relabel, pair, size_array, short, word]

private theorem size_codec : codec.size = meterCalSize := by
  have short : u16.size = 2 := rfl
  simp only [codec, relabel, pair, size_bodyCodec, short]

def image (pcal : MeterCal) : List UInt8 := codec.encode pcal

private theorem image_eq (pcal : MeterCal) :
    image pcal = bodyCodec.encode pcal.toBody ++ [lowByte pcal.crc, highByte pcal.crc] := by
  have equiv : meterCalEquiv pcal = (pcal.toBody, pcal.crc) := rfl
  rw [← Energy.Record.encode_u16]
  simp only [image, codec, relabel, pair, equiv]

private theorem take_image (pcal : MeterCal) :
    (image pcal).take (meterCalSize - 2) = bodyCodec.encode pcal.toBody := by
  rw [image_eq]
  exact List.take_left' ((bodyCodec.length_encode _).trans size_bodyCodec)

def zero : MeterCal := ⟨⟨fun _ => 0, 0, 0, 0, 0, 0, fun _ => 0, 0⟩, 0⟩

def storeHwSettings (pcal : MeterCal) : MeterCal :=
  let pcal := { pcal with magic := 0x1234 }
  { pcal with crc := gencrcModbus ((image pcal).take (meterCalSize - 2)) }

/-- What a load returns, the record in memory after it and the bytes in the EEPROM. -/
def loadHwSettings (meterChCount : Nat) (eep : List UInt8) : Int × MeterCal × List UInt8 :=
  let pcal := codec.decode eep
  if gencrcModbus (image pcal) = 0 then (0, pcal, eep)
  else
    let pcal := storeHwSettings { zero with hwModel := if meterChCount = 2 then 1 else 0 }
    (-1, pcal, image pcal)

private theorem image_storeHwSettings (pcal : MeterCal) :
    ∃ body, image (storeHwSettings pcal) =
      body ++ [lowByte (gencrcModbus body), highByte (gencrcModbus body)] := by
  have taken : (storeHwSettings pcal).crc =
      gencrcModbus (bodyCodec.encode (storeHwSettings pcal).toBody) := by
    unfold storeHwSettings
    dsimp only
    rw [take_image]
  exact ⟨_, by rw [image_eq, taken]⟩

def poly : BitVec 16 := 0xA001#16

private theorem crcTable_entries (i : UInt8) :
    (crcTable i).toBitVec = shifts poly 8 (i.toBitVec.setWidth 16) :=
  crcTable_shifts i

private theorem gencrcModbus_eq (s : List UInt8) :
    (gencrcModbus s).toBitVec = crcBytes poly 0xFFFF#16 s :=
  crc_eq crcTable_entries 0xffff s

private theorem gencrcModbus_burst {s t : List UInt8} (burst : Burst 16 (bits s) (bits t)) :
    gencrcModbus s ≠ gencrcModbus t := by
  intro same
  have high : poly.getLsbD (16 - 1) = true := by decide
  apply crcBits_burst high le_rfl burst 0xFFFF#16
  rw [← crcBytes_bits (by decide), ← crcBytes_bits (by decide), ← gencrcModbus_eq,
    ← gencrcModbus_eq, same]

private theorem codec_full {eep : List UInt8} (full : eep.length = meterCalSize) :
    image (codec.decode eep) = eep :=
  codec.encode_decode eep (full.trans size_codec.symm)

/-- The table computes the bitwise CRC, a block with its own CRC checks to zero, and a burst of at
most 16 bits in such a block is seen; so the loaders of the energy record and of the calibration
record refuse what a burst has made of a stored record. -/
theorem modbus_crc :
    (∀ s, (gencrcModbus s).toBitVec = crcBytes poly 0xFFFF#16 s) ∧
      (∀ s, gencrcModbus (s ++ [lowByte (gencrcModbus s), highByte (gencrcModbus s)]) = 0) ∧
      (∀ s t, Burst 16
          (bits (s ++ [lowByte (gencrcModbus s), highByte (gencrcModbus s)])) (bits t) →
        gencrcModbus t ≠ 0) ∧
      (∀ now r t, Burst 16 (bits (Energy.Record.image (Energy.Record.stamp now r))) (bits t) →
        Energy.Fram.accept t = none) ∧
      ∀ meterChCount pcal eep, Burst 16 (bits (image (storeHwSettings pcal))) (bits eep) →
        (loadHwSettings meterChCount eep).1 = -1 := by
  have seen : ∀ s t, gencrcModbus s = 0 → Burst 16 (bits s) (bits t) → gencrcModbus t ≠ 0 :=
    fun s t zero burst same => gencrcModbus_burst burst (zero.trans same.symm)
  refine ⟨gencrcModbus_eq, gencrc_sealed, fun s t => seen _ t (gencrc_sealed s), ?_, ?_⟩
  · intro now r t burst
    exact if_neg (seen _ t (Energy.Record.stamp_crcOk now r) burst)
  · intro meterChCount pcal eep burst
    obtain ⟨body, stored⟩ := image_storeHwSettings pcal
    have intact : gencrcModbus (image (storeHwSettings pcal)) = 0 := by
      rw [stored]
      exact gencrc_sealed body
    have full : eep.length = meterCalSize := by
      have lengths := burst.length
      rw [length_bits, length_bits, image, codec.length_encode, size_codec] at lengths
      omega
    rw [loadHwSettings, codec_full full]
    exact congrArg Prod.fst (if_neg (seen _ eep intact burst))

/-- A stored record with its first two bytes changed. -/
def damaged : List UInt8 := [0xff, 0x01] ++ (image (storeHwSettings zero)).drop 2

private theorem burst_damaged : Burst 16 (bits (image (storeHwSettings zero))) (bits damaged) := by
  have head : (image (storeHwSettings zero)).take 2 = [0, 0] := rfl
  have parts : image (storeHwSettings zero) =
      [] ++ ([0, 0] ++ (image (storeHwSettings zero)).drop 2) := by
    rw [← head, List.nil_append, List.take_append_drop]
  have burst := burst_bytes [] [0, 0] [0xff, 0x01] ((image (storeHwSettings zero)).drop 2)
    (by decide) rfl
  rw [← parts] at burst
  exact burst

theorem damaged_refused : (loadHwSettings 3 damaged).1 = -1 :=
  modbus_crc.2.2.2.2 3 zero damaged burst_damaged

end SV300.Settings.HwSettings
