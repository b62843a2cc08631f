/- SV300/Modbus/Callback
   digest: The register callbacks of the Modbus/TCP server, its loops over them, and the web's. -/

import SV300.Library.Sweep
import SV300.Modbus.Map

set_option autoImplicit false
set_option relaxedAutoImplicit false

namespace SV300.Modbus.Callback

open SV300.Library.Sweep (sweep)
open SV300.Modbus.Map

/-- `readMemCb`: count, refresh the waves at their start, read. -/
def readMemCb (s : State) (address : Nat) : State × Option UInt16 :=
  let s := countRx s
  match decodeMeterAddress address with
  | some (id, offset) =>
      let s := if offset = mbadWvReg then copyModbusWaveData s id else s
      if readMeterChOffsetBlocked id offset then (s, none)
      else (s, some (word s id offset))
  | none =>
      if addSimpleMap ≤ address ∧ address < addSimpleMap + smpMapSize then
        (s, some (s.psmpMap (address - addSimpleMap)))
      else (s, none)

/-- `readMemCbMb`: the entry of the TCP server, closed until the meters are ready. -/
def readMemCbMb (s : State) (address : Nat) : State × Option UInt16 :=
  if s.gMeterReady then readMemCb s address else (countRx s, none)

/-- `writeMemCb`; without a state the write is refused and changes nothing. -/
def writeMemCb (fetch : Fetcher) (s : State) (address : Nat) (value : UInt16) : Option State :=
  if s.gMeterReady then
    (decodeMeterAddress address).bind fun (id, offset) =>
      if mbadEnergyStart ≤ offset ∧ offset < mbadEnergyU64Start then
        writeMeterHoldReg s id offset value
      else if id = 1 ∧ mbadRwOffStart ≤ offset ∧ offset < mbadRwOffEnd then
        writeMeterHoldReg s 1 offset value
      else if id = 2 ∧ mbadRwOffStart ≤ offset ∧ offset < mbadRwOffEnd then
        writeMeterHoldReg s 2 offset value
      else if id = 0 ∧ offset = mbadSetTs then some { s with utc := (value, s.utc.2) }
      else if id = 0 ∧ offset = mbadSetTs + 1 then
        some (tickSet { s with utc := (s.utc.1, value) } s.utc.1 value)
      else if id = 0 ∧ mbadSetting ≤ offset ∧ offset < mbadSettingEnd then
        some (s.setWord 0 offset value)
      else if id = 0 ∧ mbadP1Setting ≤ offset ∧ offset < mbadP1SettingEnd then
        some (s.setWord 0 offset value)
      else if id = 0 ∧ mbadSetCmd ≤ offset ∧ offset < mbadSetEnd then
        some (command fetch s offset value)
      else none
  else none

/-- `modbusServerWriteRegCallback`: the validation pass accepts every register. -/
def modbusServerWriteRegCallback (fetch : Fetcher) (s : State) (address : Nat) (value : UInt16)
    (commit : Bool) : State × Option Unit :=
  if commit then
    match writeMemCb fetch s address value with
    | some t => (t, some ())
    | none => (s, none)
  else (s, some ())

inductive Status
  | noError
  | invalidValue
  | invalidAddress
  deriving DecidableEq

def wrap (address : Nat) : Nat := address % 65536

/-- Read holding or input registers, one after the other. -/
def readRegs (s : State) (address quantity : Nat) : State × Option (List UInt16) :=
  sweep (fun s a => readMemCbMb s (wrap a)) s address quantity

def writePhase (fetch : Fetcher) (commit : Bool) (s : State) (address : Nat) (ws : List UInt16) :
    State × Option (List Unit) :=
  sweep (fun s a => modbusServerWriteRegCallback fetch s (wrap a) ((ws[a - address]?).getD 0)
    commit) s address ws.length

/-- `modbusServerProcessWriteMultipleRegsReq`: a validation pass, then a commit pass. -/
def processWriteMultipleRegs (fetch : Fetcher) (s : State) (address : UInt16) (ws : List UInt16) :
    State × Status :=
  if ws.length < 1 ∨ 123 < ws.length then (s, .invalidValue)
  else
    let checked := writePhase fetch false s address.toNat ws
    match checked.2 with
    | none => (checked.1, .invalidAddress)
    | some _ =>
        let written := writePhase fetch true checked.1 address.toNat ws
        (written.1, if written.2.isSome then .noError else .invalidAddress)

inductive WebReply
  | forbidden
  | badAddress
  | ok
  | rejected
  deriving DecidableEq

/-- `apiSetReg`: the reply is that of the first word; the second one of a `u32` is not looked at. -/
def apiSetReg (fetch : Fetcher) (s : State) (admin : Bool) (addr : Int) (u32 : Bool)
    (val : UInt32) : State × WebReply :=
  if admin then
    if addr ≤ 0 then (s, .badAddress)
    else
      let first := writeMemCb fetch s (addr.toNat % 65536) val.toUInt16
      let s := first.getD s
      let s := if u32 then
          (writeMemCb fetch s ((addr.toNat + 1) % 65536) (val >>> 16).toUInt16).getD s
        else s
      (s, if first.isSome then .ok else .rejected)
  else (s, .forbidden)

/-- The registers the callback writes: a word it holds, a half of the clock, a command. -/
inductive Register
  | held (id : Channel) (offset : Nat)
  | clockLow
  | clockHigh
  | command (offset : Nat)
  | closed
  deriving DecidableEq

abbrev Energy (offset : Nat) : Prop := mbadEnergyStart ≤ offset ∧ offset < mbadEnergyU64Start

/-- The settings of the first channel and the pockets of the others. -/
abbrev Pocket (offset : Nat) : Prop := mbadRwOffStart ≤ offset ∧ offset < mbadRwOffEnd

abbrev P1Setting (offset : Nat) : Prop := mbadP1Setting ≤ offset ∧ offset < mbadP1SettingEnd

abbrev Command (offset : Nat) : Prop := mbadSetCmd ≤ offset ∧ offset < mbadSetEnd

def register (address : Nat) : Register :=
  match decodeMeterAddress address with
  | none => .closed
  | some (id, offset) =>
      if Energy offset ∨ Pocket offset ∨ id = 0 ∧ P1Setting offset then .held id offset
      else if id = 0 ∧ offset = mbadSetTs then .clockLow
      else if id = 0 ∧ offset = mbadSetTs + 1 then .clockHigh
      else if id = 0 ∧ Command offset then .command offset
      else .closed

def store (fetch : Fetcher) (s : State) (value : UInt16) : Register → Option State
  | .held id offset => some (s.setWord id offset value)
  | .clockLow => some { s with utc := (value, s.utc.2) }
  | .clockHigh => some (tickSet { s with utc := (s.utc.1, value) } s.utc.1 value)
  | .command offset => some (Map.command fetch s offset value)
  | .closed => none

theorem hold_valid {s : State} {id : Channel} {offset : Nat} {value : UInt16}
    (valid : Energy offset ∨ Pocket offset) :
    writeMeterHoldReg s id offset value = some (s.setWord id offset value) := by
  have range : meterRwRangeValid offset 1 = true := by
    unfold meterRwRangeValid
    simp only [Bool.or_eq_true, Bool.and_eq_true, decide_eq_true_eq]
    omega
  rw [writeMeterHoldReg, if_pos range]

theorem writeMemCb_eq (fetch : Fetcher) {s : State} (ready : s.gMeterReady = true) (address : Nat)
    (value : UInt16) : writeMemCb fetch s address value = store fetch s value (register address) := by
  rw [writeMemCb, if_pos ready, register]
  cases decodeMeterAddress address with
  | none => rfl
  | some at_ =>
      obtain ⟨id, offset⟩ := at_
      have map := addresses
      dsimp only [Option.bind_some]
      by_cases energy : Energy offset
      · have served : Energy offset ∨ Pocket offset ∨ id = 0 ∧ P1Setting offset := .inl energy
        rw [if_pos energy, if_pos served, hold_valid (.inl energy), store]
      rw [if_neg energy]
      by_cases pocket : Pocket offset
      · have served : Energy offset ∨ Pocket offset ∨ id = 0 ∧ P1Setting offset :=
          .inr (.inl pocket)
        rw [if_pos served, store]
        match id with
        | 0 =>
            rw [if_neg (by simp), if_neg (by simp), if_neg (by omega), if_neg (by omega),
              if_pos ⟨rfl, pocket⟩]
        | 1 => rw [if_pos ⟨rfl, pocket⟩, hold_valid (.inr pocket)]
        | 2 => rw [if_neg (by simp), if_pos ⟨rfl, pocket⟩, hold_valid (.inr pocket)]
      have outside : ¬ (mbadSetting ≤ offset ∧ offset < mbadSettingEnd) := pocket
      rw [if_neg fun both => pocket both.2, if_neg fun both => pocket both.2]
      by_cases first : id = 0
      · by_cases p1 : P1Setting offset
        · have served : Energy offset ∨ Pocket offset ∨ id = 0 ∧ P1Setting offset :=
            .inr (.inr ⟨first, p1⟩)
          rw [if_pos served, if_neg (by omega), if_neg (by omega),
            if_neg fun both => outside both.2, if_pos ⟨first, p1⟩, first, store]
        · have unserved : ¬ (Energy offset ∨ Pocket offset ∨ id = 0 ∧ P1Setting offset) :=
            fun served => served.elim energy fun h => h.elim pocket fun both => p1 both.2
          rw [if_neg unserved]
          by_cases low : id = 0 ∧ offset = mbadSetTs
          · rw [if_pos low, if_pos low, store]
          rw [if_neg low, if_neg low]
          by_cases high : id = 0 ∧ offset = mbadSetTs + 1
          · rw [if_pos high, if_pos high, store]
          rw [if_neg high, if_neg high, if_neg fun both => outside both.2,
            if_neg fun both => p1 both.2]
          split <;> rfl
      · have unserved : ¬ (Energy offset ∨ Pocket offset ∨ id = 0 ∧ P1Setting offset) :=
          fun served => served.elim energy fun h => h.elim pocket fun both => first both.1
        rw [if_neg unserved]
        simp only [first, false_and, if_false, store]

/-- The address and range of each kind of register. -/
def Located (address : Nat) : Register → Prop
  | .held id offset => address = base id + offset ∧
      (Energy offset ∨ Pocket offset ∨ id = 0 ∧ P1Setting offset)
  | .clockLow => address = mbadSetTs
  | .clockHigh => address = mbadSetTs + 1
  | .command offset => address = offset ∧ Command offset
  | .closed => True

private theorem located_register (address : Nat) : Located address (register address) := by
  unfold register
  split
  · trivial
  rename_i id offset decoded
  have place := base_of_decode decoded
  have zero : base 0 = 0 := rfl
  split
  · rename_i served
    exact ⟨place, served⟩
  split
  · rename_i served
    obtain ⟨rfl, rfl⟩ := served
    exact place.trans (Nat.zero_add _)
  split
  · rename_i served
    obtain ⟨rfl, rfl⟩ := served
    exact place.trans (Nat.zero_add _)
  split
  · rename_i served
    obtain ⟨rfl, command⟩ := served
    exact ⟨place.trans (Nat.zero_add _), command⟩
  · trivial

section Kinds

variable {address : Nat}

theorem register_held {id : Channel} {offset : Nat} (kind : register address = .held id offset) :
    address = base id + offset ∧ (Energy offset ∨ Pocket offset ∨ id = 0 ∧ P1Setting offset) := by
  have located := located_register address
  rwa [kind] at located

theorem register_command {offset : Nat} (kind : register address = .command offset) :
    address = offset ∧ Command offset := by
  have located := located_register address
  rwa [kind] at located

theorem register_clockLow (kind : register address = .clockLow) : address = mbadSetTs := by
  have located := located_register address
  rwa [kind] at located

end Kinds

theorem register_injective {a b : Nat} (same : register a = register b)
    (served : register a ≠ .closed) : a = b := by
  have first := located_register a
  have second := located_register b
  rw [← same] at second
  cases kind : register a with
  | closed => exact absurd kind served
  | held id offset =>
      rw [kind] at first second
      exact first.1.trans second.1.symm
  | command offset =>
      rw [kind] at first second
      exact first.1.trans second.1.symm
  | clockLow | clockHigh =>
      rw [kind] at first second
      exact Eq.trans first second.symm

end SV300.Modbus.Callback
