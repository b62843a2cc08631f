/- SV300/Library/TableCrc
   digest: A reflected table CRC appended low byte first leaves residue zero. -/

import Mathlib.Data.List.Basic

set_option autoImplicit false
set_option relaxedAutoImplicit false

namespace SV300.Library.TableCrc

/-- One byte of a reflected 16-bit CRC driven by a table of 256 entries. -/
def step (table : UInt8 → UInt16) (crc : UInt16) (b : UInt8) : UInt16 :=
  (crc >>> 8) ^^^ table (crc.toUInt8 ^^^ b)

def crc (table : UInt8 → UInt16) (init : UInt16) (bs : List UInt8) : UInt16 :=
  bs.foldl (step table) init

def lowByte (c : UInt16) : UInt8 := c.toUInt8

def highByte (c : UInt16) : UInt8 := (c >>> 8).toUInt8

theorem crc_append (table : UInt8 → UInt16) (init : UInt16) (as bs : List UInt8) :
    crc table init (as ++ bs) = crc table (crc table init as) bs :=
  List.foldl_append

private theorem shifted_twice (c : UInt16) : c >>> 8 >>> 8 = 0 := by
  apply UInt16.toNat_inj.mp
  have bounded : c.toNat < 65536 := c.toNat_lt
  simp only [UInt16.toNat_shiftRight, Nat.shiftRight_eq_div_pow]
  change c.toNat / 256 / 256 = 0
  omega

private theorem crc_residue (table : UInt8 → UInt16) (zero : table 0 = 0) (c : UInt16) :
    crc table c [lowByte c, highByte c] = 0 := by
  have low : step table c (lowByte c) = c >>> 8 := by
    simp [step, lowByte, zero]
  have high : step table (c >>> 8) (highByte c) = 0 := by
    simp [step, highByte, zero, shifted_twice]
  simp only [crc, List.foldl_cons, List.foldl_nil, low, high]

theorem crc_append_own (table : UInt8 → UInt16) (zero : table 0 = 0) (init : UInt16)
    (bs : List UInt8) :
    crc table init (bs ++ [lowByte (crc table init bs), highByte (crc table init bs)]) = 0 := by
  rw [crc_append, crc_residue table zero]

end SV300.Library.TableCrc
