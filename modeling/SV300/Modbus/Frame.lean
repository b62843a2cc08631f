/- SV300/Modbus/Frame
   digest: The frame processor of the serial Modbus port, its block reads and its writes. -/

import Mathlib.Data.List.Range
import SV300.Modbus.Map

set_option autoImplicit false
set_option relaxedAutoImplicit false

namespace SV300.Modbus.Frame

open SV300.Modbus.Map

/-- What the processor takes from a received frame; `count` is the value of a single write. -/
structure Request where
  fc : UInt8
  start : UInt16
  count : UInt16
  data : Nat → UInt16

/-- What it answers: nothing, an exception, register values, or an echo. -/
inductive Reply
  | silent
  | except (code : UInt8)
  | words (ws : List UInt16)
  | echo (start count : UInt16)
  deriving DecidableEq

def smbSize : Nat := 65000

/-- `modbusSlvChkFrame`: the exception code of a frame that is refused. -/
def modbusSlvChkFrame (fc : UInt8) (start count : Nat) (longFrame : Bool) : Option UInt8 :=
  if fc = 3 ∨ fc = 4 then
    if (if longFrame then 1024 else 125) < count then some 3
    else if smbSize < start + count then some 2
    else none
  else if fc = 6 then
    if smbSize ≤ start then some 3 else none
  else if fc = 16 then
    if count < 1 ∨ 123 < count then some 3
    else if smbSize < start + count then some 2
    else none
  else some 1

/-- The loop shared by the block reads of the meters' memory. -/
def readBlock (s : State) (id : Channel) (start count : Nat) : List UInt16 :=
  (List.range count).map fun i => word s id (start + i)

/-- `readMem`: a short frame from the first channel; it refreshes the waves at their start. -/
def readMem (s : State) (start count : Nat) : State × List UInt16 :=
  let s := if start = mbadWvReg then copyModbusWaveData s 0 else s
  (s, readBlock s 0 start count)

def readMem2 (s : State) (start count : Nat) : List UInt16 := readBlock s 0 start count
def readMem3 (s : State) (start count : Nat) : List UInt16 := readBlock s 1 start count
def readMem4 (s : State) (start count : Nat) : List UInt16 := readBlock s 1 start count
def readMem3M3 (s : State) (start count : Nat) : List UInt16 := readBlock s 2 start count
def readMem4M3 (s : State) (start count : Nat) : List UInt16 := readBlock s 2 start count

def readMemSmp (s : State) (offset count : Nat) : List UInt16 :=
  (List.range count).map fun i => s.psmpMap (offset + i)

def readFrame (s : State) (start count : Nat) (longFrame : Bool) : State × Reply :=
  if start < addAde9000M2 then
    if longFrame then (s, .words (readMem2 s start count))
    else
      let r := readMem s start count
      (r.1, .words r.2)
  else if start < addAde9000M3 then
    if readRangeBlocked start count then (s, .except 2)
    else if longFrame then (s, .words (readMem4 s (start - addAde9000M2) count))
    else (s, .words (readMem3 s (start - addAde9000M2) count))
  else if start < addAde9000End then
    if readRangeBlocked start count then (s, .except 2)
    else if longFrame then (s, .words (readMem4M3 s (start - addAde9000M3) count))
    else (s, .words (readMem3M3 s (start - addAde9000M3) count))
  else if addSimpleMap ≤ start ∧ start + count ≤ addSimpleMap + smpMapSize then
    (s, .words (readMemSmp s (start - addSimpleMap) count))
  else (s, .except 2)

def writeSingleMem (fetch : Fetcher) (s : State) (start : Nat) (cmd : UInt16) : State :=
  if mbadSetCmd ≤ start ∧ start < mbadSetEnd then command fetch s start cmd else s

/-- The clock, the two blocks of settings; elsewhere nothing is stored. -/
def writeMultiMem (s : State) (start : Nat) (ws : List UInt16) : State :=
  if mbadSetTs ≤ start ∧ ws.length = 2 ∧ start < mbadSetCmd then
    tickSet s ((ws[0]?).getD 0) ((ws[1]?).getD 0)
  else if mbadSetting ≤ start ∧ start < mbadSettingEnd then putSettings s (start - mbadSetting) ws
  else if mbadP1Setting ≤ start ∧ start < mbadP1SettingEnd then
    putSettings s (start - mbadSetting) ws
  else s

def answer (s : State) (written : Option State) (reply : Reply) : State × Reply :=
  match written with
  | some t => (t, reply)
  | none => (s, .except 2)

/-- Function code 6: commands of the first channel or a pocket of the others. -/
def writeSingleFrame (fetch : Fetcher) (s : State) (start value : UInt16) : State × Reply :=
  let reply := Reply.echo start value
  let start := start.toNat
  if start < addAde9000M2 then (writeSingleMem fetch s start value, reply)
  else if mbadM1RwStart ≤ start ∧ start < mbadM1RwEnd then
    answer s (writeMeterHoldReg s 1 (start - addAde9000M2) value) reply
  else if mbadM2RwStart ≤ start ∧ start < mbadM2RwEnd then
    answer s (writeMeterHoldReg s 2 (start - addAde9000M3) value) reply
  else (s, .except 2)

/-- Function code 16: settings and clock of the first channel or a pocket.  The first test shuts
out the pocket of the third channel, whose branch is never reached. -/
def writeMultipleFrame (s : State) (start count : UInt16) (ws : List UInt16) : State × Reply :=
  let reply := Reply.echo start count
  let start := start.toNat
  if mbadSettingM2 ≤ start then (s, .except 2)
  else if mbadSetting ≤ start ∧ start + ws.length ≤ mbadSetCmd then
    (writeMultiMem s start ws, reply)
  else if mbadM1RwStart ≤ start ∧ start + ws.length ≤ mbadM1RwEnd then
    answer s (writeMeterHoldRegs s 1 (start - addAde9000M2) ws) reply
  else if mbadM2RwStart ≤ start ∧ start + ws.length ≤ mbadM2RwEnd then
    answer s (writeMeterHoldRegs s 2 (start - addAde9000M3) ws) reply
  else (s, .except 2)

/-- `modbusSlvProcFrame`. -/
def modbusSlvProcFrame (fetch : Fetcher) (s : State) (q : Request) (longFrame : Bool) :
    State × Reply :=
  let s := countRx s
  if s.gMeterReady then
    match modbusSlvChkFrame q.fc q.start.toNat q.count.toNat longFrame with
    | some code => (s, .except code)
    | none =>
        if q.fc = 3 ∨ q.fc = 4 then readFrame s q.start.toNat q.count.toNat longFrame
        else if q.fc = 6 then writeSingleFrame fetch s q.start q.count
        else writeMultipleFrame s q.start q.count ((List.range q.count.toNat).map q.data)
  else (s, .silent)

end SV300.Modbus.Frame
