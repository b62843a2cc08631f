/- SV300/Modbus/Map
   digest: The Modbus address map over the meters' memory and the register accesses behind it. -/

import Mathlib.Logic.Function.Basic
import SV300.Library.Literals

set_option autoImplicit false
set_option relaxedAutoImplicit false

namespace SV300.Modbus.Map

abbrev Channel := Fin 3

abbrev addAde9000M2 : Nat := 10000
abbrev addAde9000M3 : Nat := 20000
/-- End of the third channel's addresses, a literal in the source. -/
abbrev addAde9000End : Nat := 30000
abbrev addSimpleMap : Nat := 50000
/-- Words of `SMP_MAP`. -/
abbrev smpMapSize : Nat := 3134

/-- Offsets in words from `meter[id].meter`. -/
abbrev mbadEnergyStart : Nat := 240
abbrev mbadEnergyU64Start : Nat := 384
abbrev mbadWvReg : Nat := 3430
/-- Words of `WAVEFORM_L16` that a refresh writes. -/
abbrev waveSize : Nat := 1440
abbrev mbadRwOffStart : Nat := 6700
abbrev mbadRwOffEnd : Nat := 7050
abbrev mbadSetting : Nat := 6700
abbrev mbadSettingEnd : Nat := 7050
/-- `pInfo->mBusRxCnt`. -/
abbrev mBusRxCnt : Nat := 7093
abbrev mbadP1Setting : Nat := 7110
abbrev mbadP1SettingEnd : Nat := 7788
abbrev mbadSetTs : Nat := 7788
abbrev mbadSetCmd : Nat := 7798
abbrev mbadSetEnd : Nat := 7915
abbrev mbadCmdFetchEvent : Nat := 7836
abbrev mbadCmdFetchAlarm : Nat := 7840
abbrev mbadCmdFetchItic : Nat := 7852
abbrev mbadCmdFetchItic2 : Nat := 7853

abbrev mbadM1RwStart : Nat := addAde9000M2 + mbadRwOffStart
abbrev mbadM1RwEnd : Nat := addAde9000M2 + mbadRwOffEnd
abbrev mbadM2RwStart : Nat := addAde9000M3 + mbadRwOffStart
abbrev mbadM2RwEnd : Nat := addAde9000M3 + mbadRwOffEnd
abbrev mbadSettingM2 : Nat := mbadM1RwEnd

theorem addresses : addAde9000M2 = 10000 ∧ addAde9000M3 = 20000 ∧ addAde9000End = 30000 ∧
    addSimpleMap = 50000 ∧ smpMapSize = 3134 ∧ mbadEnergyStart = 240 ∧ mbadEnergyU64Start = 384 ∧
    mbadWvReg = 3430 ∧ waveSize = 1440 ∧ mbadRwOffStart = 6700 ∧ mbadRwOffEnd = 7050 ∧
    mbadSetting = 6700 ∧ mbadSettingEnd = 7050 ∧ mBusRxCnt = 7093 ∧ mbadP1Setting = 7110 ∧
    mbadP1SettingEnd = 7788 ∧ mbadSetTs = 7788 ∧ mbadSetCmd = 7798 ∧ mbadSetEnd = 7915 ∧
    mbadM1RwStart = 16700 ∧ mbadM1RwEnd = 17050 ∧ mbadM2RwStart = 26700 ∧ mbadM2RwEnd = 27050 ∧
    mbadSettingM2 = 17050 := by
  decide

abbrev nCmdQ : Nat := 8

/-- The command queue; it is empty when `fr = re`, and `putCmdQ` does not look at `re`. -/
structure CmdQ where
  fr : Nat
  re : Nat
  item : Nat → Nat × UInt16
  fr_lt : fr < nCmdQ
  re_lt : re < nCmdQ

def CmdQ.empty : CmdQ := ⟨0, 0, fun _ => (0, 0), by decide, by decide⟩

/-- What the Modbus tasks share with the rest of the firmware. -/
structure State where
  gMeterReady : Bool
  meter : Channel → Nat → UInt16
  pMeterSnap : Channel → Nat → UInt16
  /-- What a refresh would copy into each channel's wave area now. -/
  wvblk : Channel → Nat → UInt16
  psmpMap : Nat → UInt16
  /-- The static `_utc` of `writeMemCb`, low word first. -/
  utc : UInt16 × UInt16
  sysTick1s : UInt32
  cmdQ : CmdQ

def State.setWord (s : State) (id : Channel) (offset : Nat) (v : UInt16) : State :=
  { s with meter := Function.update s.meter id (Function.update (s.meter id) offset v) }

theorem setWord_meter (s : State) (id j : Channel) (offset off : Nat) (v : UInt16) :
    (s.setWord id offset v).meter j off =
      if j = id ∧ off = offset then v else s.meter j off := by
  by_cases channel : j = id
  · dsimp only [State.setWord]
    rw [channel, Function.update_self, Function.update_apply]
    simp
  · dsimp only [State.setWord]
    rw [Function.update_of_ne channel, if_neg fun both => channel both.1]

/-- Count a received request, or a register of one over TCP. -/
def countRx (s : State) : State := s.setWord 0 mBusRxCnt (s.meter 0 mBusRxCnt + 1)

/-- `copyModbusWaveData`: refresh the wave area of a channel. -/
def copyModbusWaveData (s : State) (id : Channel) : State :=
  { s with meter := Function.update s.meter id fun off =>
      if mbadWvReg ≤ off ∧ off < mbadWvReg + waveSize then s.wvblk id (off - mbadWvReg)
      else s.meter id off }

theorem wave_meter (s : State) (id j : Channel) (off : Nat) :
    (copyModbusWaveData s id).meter j off =
      if j = id ∧ mbadWvReg ≤ off ∧ off < mbadWvReg + waveSize then
        s.wvblk id (off - mbadWvReg)
      else s.meter j off := by
  by_cases channel : j = id
  · dsimp only [copyModbusWaveData]
    rw [channel, Function.update_self]
    simp
  · dsimp only [copyModbusWaveData]
    rw [Function.update_of_ne channel, if_neg fun both => channel both.1]

/-- A register of a channel: the published snapshot below the energy block, the memory above. -/
def word (s : State) (id : Channel) (offset : Nat) : UInt16 :=
  if offset < mbadEnergyStart then s.pMeterSnap id offset else s.meter id offset

def decodeMeterAddress (address : Nat) : Option (Channel × Nat) :=
  if address < addAde9000M2 then some (0, address)
  else if address < addAde9000M3 then some (1, address - addAde9000M2)
  else if address < addAde9000End then some (2, address - addAde9000M3)
  else none

def base (id : Channel) : Nat := id.val * 10000

theorem base_le (id : Channel) : base id ≤ 20000 := by
  unfold base
  omega

theorem decode_base (id : Channel) {offset : Nat} (small : offset < 10000) :
    decodeMeterAddress (base id + offset) = some (id, offset) := by
  have map := addresses
  unfold decodeMeterAddress base
  match id with
  | 0 =>
      rw [if_pos (by simp; omega)]
      simp
  | 1 =>
      simp only [Fin.val_one, Nat.one_mul]
      rw [if_neg (by omega), if_pos (by omega), Nat.add_sub_cancel_left]
  | 2 =>
      simp only [Fin.val_two]
      rw [if_neg (by omega), if_neg (by omega), if_pos (by omega), Nat.add_sub_cancel_left]

theorem decode_beyond {address : Nat} (beyond : addAde9000End ≤ address) :
    decodeMeterAddress address = none := by
  have map := addresses
  unfold decodeMeterAddress
  rw [if_neg (by omega), if_neg (by omega), if_neg (by omega)]

theorem one_or_two {id : Channel} (other : id ≠ 0) : id = 1 ∨ id = 2 := by
  revert id
  decide

theorem pocket_address {start : Nat} (lo : addAde9000M2 ≤ start)
    (hi : start < addAde9000End) :
    ∃ id offset, id ≠ 0 ∧ offset < 10000 ∧ start = base id + offset := by
  have map := addresses
  have first : base 1 = 10000 := rfl
  have second : base 2 = 20000 := rfl
  rcases Nat.lt_or_ge start addAde9000M3 with low | high
  · exact ⟨1, start - 10000, by decide, by omega, by omega⟩
  · exact ⟨2, start - 20000, by decide, by omega, by omega⟩

theorem base_of_decode {address : Nat} {id : Channel} {offset : Nat}
    (decoded : decodeMeterAddress address = some (id, offset)) : address = base id + offset := by
  have map := addresses
  have first : base 1 = 10000 := rfl
  have second : base 2 = 20000 := rfl
  unfold decodeMeterAddress at decoded
  split at decoded
  · obtain ⟨rfl, rfl⟩ := Prod.mk.inj (Option.some.inj decoded)
    exact (Nat.zero_add address).symm
  split at decoded
  · obtain ⟨rfl, rfl⟩ := Prod.mk.inj (Option.some.inj decoded)
    omega
  split at decoded
  · obtain ⟨rfl, rfl⟩ := Prod.mk.inj (Option.some.inj decoded)
    omega
  · cases decoded

def readRangeBlocked (start count : Nat) : Bool :=
  (addAde9000M2 ≤ start && start < addAde9000M3 &&
    (mbadM1RwEnd ≤ start || mbadM1RwEnd < start + count)) ||
  (addAde9000M3 ≤ start && start < addAde9000End &&
    (mbadM2RwEnd ≤ start || mbadM2RwEnd < start + count))

def readMeterChOffsetBlocked (id : Channel) (offset : Nat) : Bool :=
  (id = 1 || id = 2) && mbadRwOffEnd ≤ offset

def meterRwRangeValid (offset count : Nat) : Bool :=
  (mbadEnergyStart ≤ offset && offset + count ≤ mbadEnergyU64Start) ||
  (mbadRwOffStart ≤ offset && offset + count ≤ mbadRwOffEnd)

def storeWords (s : State) (id : Channel) (offset : Nat) (ws : List UInt16) : State :=
  { s with meter := Function.update s.meter id fun off =>
      if offset ≤ off then (ws[off - offset]?).getD (s.meter id off) else s.meter id off }

theorem storeWords_meter (s : State) (id j : Channel) (offset off : Nat) (ws : List UInt16) :
    (storeWords s id offset ws).meter j off =
      if j = id ∧ offset ≤ off then (ws[off - offset]?).getD (s.meter j off)
      else s.meter j off := by
  by_cases channel : j = id
  · dsimp only [storeWords]
    rw [channel, Function.update_self]
    simp
  · dsimp only [storeWords]
    rw [Function.update_of_ne channel, if_neg fun both => channel both.1]

def writeMeterHoldReg (s : State) (id : Channel) (offset : Nat) (value : UInt16) : Option State :=
  if meterRwRangeValid offset 1 then some (s.setWord id offset value) else none

def writeMeterHoldRegs (s : State) (id : Channel) (offset : Nat) (ws : List UInt16) :
    Option State :=
  if meterRwRangeValid offset ws.length then some (storeWords s id offset ws) else none

/-- `putSettings` into `pmset`, which is the first channel's memory from `mbadSetting` on. -/
def putSettings (s : State) (addr : Nat) (ws : List UInt16) : State :=
  storeWords s 0 (mbadSetting + addr) ws

/-- The clock is set to a UTC time given as two words, low word first. -/
def tickSet (s : State) (lo hi : UInt16) : State :=
  { s with sysTick1s := hi.toUInt32 <<< 16 ||| lo.toUInt32 }

def putCmdQ (s : State) (address : Nat) (value : UInt16) : State :=
  { s with cmdQ := { s.cmdQ with
      item := Function.update s.cmdQ.item s.cmdQ.fr (address, value)
      fr := (s.cmdQ.fr + 1) % nCmdQ
      fr_lt := Nat.mod_lt _ (by decide) } }

/-- The page requests of the fetch commands. -/
inductive Fetch
  | event (ch : Channel)
  | alarm (ch : Channel)
  | itic
  | itic2
  deriving DecidableEq

/-- What a page request does to the meters' memory, where the pages are. -/
abbrev Fetcher := Fetch → UInt16 → (Channel → Nat → UInt16) → Channel → Nat → UInt16

def noFetch : Fetcher := fun _ _ m => m

/-- The channels of a page request: all of them at the base address, then one each. -/
def fetchChannels (base address : Nat) : Option (List Channel) :=
  if address = base then some [0, 1, 2]
  else if address = base + 1 then some [0]
  else if address = base + 2 then some [1]
  else if address = base + 3 then some [2]
  else none

def fetches (address : Nat) : Option (List Fetch) :=
  (((fetchChannels mbadCmdFetchEvent address).map fun chs => chs.map Fetch.event).or
    ((fetchChannels mbadCmdFetchAlarm address).map fun chs => chs.map Fetch.alarm)).or
    (if address = mbadCmdFetchItic then some [.itic]
      else if address = mbadCmdFetchItic2 then some [.itic2] else none)

def handleFetchCmd (fetch : Fetcher) (s : State) (address : Nat) (value : UInt16) : Option State :=
  (fetches address).map fun fs =>
    { s with meter := fs.foldl (fun m f => fetch f value m) s.meter }

/-- A command register: a page request is carried out, any other command queued. -/
def command (fetch : Fetcher) (s : State) (address : Nat) (value : UInt16) : State :=
  (handleFetchCmd fetch s address value).getD (putCmdQ s address value)

end SV300.Modbus.Map
