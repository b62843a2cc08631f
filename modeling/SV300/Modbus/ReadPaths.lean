/- SV300/Modbus/ReadPaths
   digest: When a block read of the frame processor and the register-wise read over TCP agree. -/

import SV300.Modbus.Callback
import SV300.Modbus.Frame

set_option autoImplicit false
set_option relaxedAutoImplicit false

namespace SV300.Modbus.ReadPaths

open SV300.Library.Sweep
open SV300.Modbus.Map
open SV300.Modbus.Frame
open SV300.Modbus.Callback

/-- A read of holding registers, or of input registers. -/
def readRequest (input : Bool) (start count : UInt16) : Request :=
  ⟨if input then 4 else 3, start, count, fun _ => 0⟩

def values : Reply → Option (List UInt16)
  | .words ws => some ws
  | _ => none

/-- Both paths refuse the request, or both return the same values. -/
def Agree (fetch : Fetcher) (s : State) (input : Bool) (start count : UInt16) : Prop :=
  values (modbusSlvProcFrame fetch s (readRequest input start count) false).2 =
    (readRegs s start.toNat count.toNat).2

def waveAddress (id : Channel) : Nat := base id + mbadWvReg

/-- The request stays on one side of the second channel's first address, contains the start of a
wave area only as its own first address and in the first channel, and has the receive counter at
most as its first address. -/
def ReadsAlike (start count : Nat) : Prop :=
  (start + count ≤ addAde9000M2 ∨ addAde9000M2 ≤ start) ∧
  (∀ id, start ≤ waveAddress id → waveAddress id < start + count →
    id = 0 ∧ start = waveAddress id) ∧
  (start < mBusRxCnt → start + count ≤ mBusRxCnt)

instance (start count : Nat) : Decidable (ReadsAlike start count) :=
  inferInstanceAs (Decidable (_ ∧ _ ∧ _))

/-- What a register read returns once the state is as the read leaves it. -/
def peek (s : State) (address : Nat) : Option UInt16 :=
  match decodeMeterAddress address with
  | some (id, offset) =>
      if readMeterChOffsetBlocked id offset then none else some (word s id offset)
  | none =>
      if addSimpleMap ≤ address ∧ address < addSimpleMap + smpMapSize then
        some (s.psmpMap (address - addSimpleMap))
      else none

def touch (s : State) (address : Nat) : State :=
  match decodeMeterAddress address with
  | some (id, offset) =>
      if offset = mbadWvReg then copyModbusWaveData (countRx s) id else countRx s
  | none => countRx s

theorem readMemCb_eq (s : State) (address : Nat) :
    readMemCb s address = (touch s address, peek (touch s address) address) := by
  unfold readMemCb touch peek
  cases decodeMeterAddress address with
  | none =>
      dsimp only
      split <;> rfl
  | some at_ =>
      dsimp only
      split <;> rfl

/-- The offsets of a channel that can be read. -/
def Open (id : Channel) (offset : Nat) : Prop :=
  offset < 10000 ∧ (id = 0 ∨ offset < mbadRwOffEnd)

theorem peek_open (s : State) {id : Channel} {offset : Nat} (isOpen : Open id offset) :
    peek s (base id + offset) = some (word s id offset) := by
  have unblocked : readMeterChOffsetBlocked id offset = false := by
    rcases isOpen.2 with first | low
    · rw [first]; rfl
    · simp [readMeterChOffsetBlocked, Nat.not_le_of_lt low]
  rw [peek, decode_base id isOpen.1]
  simp [unblocked]

private theorem peek_blocked (s : State) {id : Channel} {offset : Nat} (other : id ≠ 0)
    (small : offset < 10000) (high : mbadRwOffEnd ≤ offset) :
    peek s (base id + offset) = none := by
  have blocked : readMeterChOffsetBlocked id offset = true := by
    rcases one_or_two other with rfl | rfl <;> simpa [readMeterChOffsetBlocked] using high
  rw [peek, decode_base id small]
  simp [blocked]

private theorem peek_beyond (s : State) {address : Nat} (beyond : addAde9000End ≤ address) :
    peek s address =
      if addSimpleMap ≤ address ∧ address < addSimpleMap + smpMapSize then
        some (s.psmpMap (address - addSimpleMap))
      else none := by
  rw [peek, decode_beyond beyond]

/-- What reading leaves alone. -/
structure Fixed (s t : State) : Prop where
  gMeterReady : t.gMeterReady = s.gMeterReady
  pMeterSnap : t.pMeterSnap = s.pMeterSnap
  wvblk : t.wvblk = s.wvblk
  psmpMap : t.psmpMap = s.psmpMap

theorem Fixed.trans {s t u : State} (h : Fixed s t) (k : Fixed t u) : Fixed s u :=
  ⟨k.gMeterReady.trans h.gMeterReady, k.pMeterSnap.trans h.pMeterSnap, k.wvblk.trans h.wvblk,
    k.psmpMap.trans h.psmpMap⟩

private theorem fixed_touch (s : State) (address : Nat) : Fixed s (touch s address) := by
  unfold touch
  split
  · split <;> exact ⟨rfl, rfl, rfl, rfl⟩
  · exact ⟨rfl, rfl, rfl, rfl⟩

private theorem touch_count (s : State) (address : Nat) :
    (touch s address).meter 0 mBusRxCnt = s.meter 0 mBusRxCnt + 1 := by
  have counted : (countRx s).meter 0 mBusRxCnt = s.meter 0 mBusRxCnt + 1 := by
    rw [countRx, setWord_meter, if_pos ⟨rfl, rfl⟩]
  unfold touch
  split
  · split
    · rw [wave_meter, if_neg fun inside => absurd inside.2.2 (by decide), counted]
    · exact counted
  · exact counted

private theorem touch_plain (s : State) {address : Nat} {id : Channel} {offset : Nat}
    (plain : ∀ j, decodeMeterAddress address ≠ some (j, mbadWvReg))
    (other : ¬ (id = 0 ∧ offset = mBusRxCnt)) :
    (touch s address).meter id offset = s.meter id offset := by
  have kept : (countRx s).meter id offset = s.meter id offset := by
    rw [countRx, setWord_meter, if_neg other]
  unfold touch
  split
  · rename_i j off decoded
    rw [if_neg fun begins : off = mbadWvReg => plain j (begins ▸ decoded), kept]
  · exact kept

/-- The reads of the TCP server, as steps of a sweep. -/
def readStep (s : State) (a : Nat) : State × Option UInt16 := readMemCbMb s (wrap a)

section Ready

variable {s : State} (ready : s.gMeterReady = true) (start : Nat)

include ready

private theorem after_fixed (n : Nat) : Fixed s (after readStep s start n) := by
  induction n with
  | zero => exact ⟨rfl, rfl, rfl, rfl⟩
  | succ n ih =>
      have still : (after readStep s start n).gMeterReady = true := ih.gMeterReady.trans ready
      rw [after, readStep, readMemCbMb, if_pos still, readMemCb_eq]
      exact ih.trans (fixed_touch _ _)

private theorem after_succ (n : Nat) : after readStep s start (n + 1) =
    touch (after readStep s start n) (wrap (start + n)) := by
  have still := (after_fixed ready start n).gMeterReady.trans ready
  rw [after, readStep, readMemCbMb, if_pos still, readMemCb_eq]

private theorem result_peek (i : Nat) : result readStep s start i =
    peek (after readStep s start (i + 1)) (wrap (start + i)) := by
  have still := (after_fixed ready start i).gMeterReady.trans ready
  rw [after_succ ready, result, readStep, readMemCbMb, if_pos still, readMemCb_eq]

private theorem after_count (n : Nat) : (after readStep s start n).meter 0 mBusRxCnt =
    s.meter 0 mBusRxCnt + UInt16.ofNat n := by
  induction n with
  | zero => simp [after]
  | succ n ih =>
      rw [after_succ ready, touch_count, ih, UInt16.ofNat_add, UInt16.add_assoc]
      rfl

private theorem after_plain {n : Nat}
    (plain : ∀ i, 0 < i → i < n → ∀ j, decodeMeterAddress (wrap (start + i)) ≠ some (j, mbadWvReg))
    (pos : 0 < n) {id : Channel} {offset : Nat} (other : ¬ (id = 0 ∧ offset = mBusRxCnt)) :
    (after readStep s start n).meter id offset = (touch s (wrap start)).meter id offset := by
  induction n with
  | zero => exact absurd pos (Nat.lt_irrefl 0)
  | succ n ih =>
      rw [after_succ ready]
      rcases Nat.eq_zero_or_pos n with first | later
      · rw [first]
        rfl
      · rw [touch_plain _ (plain n later (Nat.lt_succ_self n)) other]
        exact ih (fun i low high => plain i low (Nat.lt_succ_of_lt high)) later

end Ready

def entry (s : State) (start : Nat) : State :=
  if start = mbadWvReg then copyModbusWaveData (countRx s) 0 else countRx s

def blockRead (fetch : Fetcher) (s : State) (input : Bool) (start count : UInt16) :
    Option (List UInt16) :=
  values (modbusSlvProcFrame fetch s (readRequest input start count) false).2

private theorem blockRead_eq (fetch : Fetcher) {s : State} (ready : s.gMeterReady = true)
    (input : Bool) (start : UInt16) {count : UInt16} (most : count.toNat ≤ 125) :
    blockRead fetch s input start count =
      if smbSize < start.toNat + count.toNat then none
      else values (readFrame (countRx s) start.toNat count.toNat false).2 := by
  have still : (countRx s).gMeterReady = true := ready
  have read : (if input = true then 4 else 3 : UInt8) = 3 ∨
      (if input = true then 4 else 3 : UInt8) = 4 := by
    cases input <;> decide
  have fits : ¬ 125 < count.toNat := Nat.not_lt.mpr most
  unfold blockRead modbusSlvProcFrame readRequest modbusSlvChkFrame
  by_cases past : smbSize < start.toNat + count.toNat
  · simp only [still, read, fits, past, if_true, if_false, Bool.false_eq_true]
    rfl
  · simp only [still, read, fits, past, if_true, if_false, Bool.false_eq_true]

private theorem readFrame_low (t : State) {start count : Nat} (low : start < addAde9000M2) :
    values (readFrame t start count false).2 =
      some (readBlock (if start = mbadWvReg then copyModbusWaveData t 0 else t) 0 start count) := by
  rw [readFrame, if_pos low]
  rfl

private theorem blocked_pocket {id : Channel} {offset : Nat} (count : Nat) (other : id ≠ 0)
    (small : offset < 10000) : readRangeBlocked (base id + offset) count =
      decide (mbadRwOffEnd ≤ offset ∨ mbadRwOffEnd < offset + count) := by
  have map := addresses
  rw [Bool.eq_iff_iff]
  unfold readRangeBlocked base
  simp only [Bool.or_eq_true, Bool.and_eq_true, decide_eq_true_eq]
  rcases one_or_two other with rfl | rfl
  · simp only [Fin.val_one]
    omega
  · simp only [Fin.val_two]
    omega

private theorem readFrame_pocket (t : State) {id : Channel} {offset count : Nat} (other : id ≠ 0)
    (small : offset < 10000) : values (readFrame t (base id + offset) count false).2 =
      if mbadRwOffEnd ≤ offset ∨ mbadRwOffEnd < offset + count then none
      else some (readBlock t id offset count) := by
  have map := addresses
  have blocked := blocked_pocket count other small
  rw [readFrame, blocked]
  simp only [decide_eq_true_eq, Bool.false_eq_true, if_false]
  rcases one_or_two other with rfl | rfl
  · have first : base 1 = 10000 := rfl
    have low : base 1 + offset - addAde9000M2 = offset := by omega
    rw [if_neg (by omega), if_pos (by omega), low]
    split <;> rfl
  · have first : base 2 = 20000 := rfl
    have low : base 2 + offset - addAde9000M3 = offset := by omega
    rw [if_neg (by omega), if_neg (by omega), if_pos (by omega), low]
    split <;> rfl

private theorem readFrame_high (t : State) {start count : Nat} (high : addAde9000End ≤ start) :
    values (readFrame t start count false).2 =
      if addSimpleMap ≤ start ∧ start + count ≤ addSimpleMap + smpMapSize then
        some (readMemSmp t (start - addSimpleMap) count)
      else none := by
  have map := addresses
  rw [readFrame, if_neg (by omega), if_neg (by omega), if_neg (by omega)]
  split <;> rfl

private theorem collect_open (t : State) {id : Channel} {offset n : Nat}
    (isOpen : ∀ i < n, Open id (offset + i)) :
    collect (fun i => peek t (base id + offset + i)) n = some (readBlock t id offset n) := by
  rw [readBlock, ← collect_total]
  refine collect_congr fun i lt => ?_
  rw [Nat.add_assoc, peek_open t (isOpen i lt)]

theorem wrap_small {address : Nat} (small : address < 65536) : wrap address = address :=
  Nat.mod_eq_of_lt small

private theorem collect_wrap (t : State) {start count : Nat} (small : start + count ≤ 65536) :
    collect (fun i => peek t (wrap (start + i))) count =
      collect (fun i => peek t (start + i)) count :=
  collect_congr fun i lt => by rw [wrap_small (by omega)]

/-- On one side of the second channel's first address a block read is the collection of the
registers in one state. -/
theorem blockRead_collect (fetch : Fetcher) {s : State} (ready : s.gMeterReady = true)
    (input : Bool) {start count : UInt16} (least : 1 ≤ count.toNat) (most : count.toNat ≤ 125)
    (side : start.toNat + count.toNat ≤ addAde9000M2 ∨ addAde9000M2 ≤ start.toNat) :
    blockRead fetch s input start count =
      collect (fun i => peek (entry s start.toNat) (wrap (start.toNat + i))) count.toNat := by
  have map := addresses
  have size : smbSize = 65000 := rfl
  rw [blockRead_eq fetch ready input start most]
  have range := start.toNat_lt
  generalize start.toNat = a at side range ⊢
  generalize count.toNat = n at least most side ⊢
  rcases Nat.lt_or_ge a addAde9000M2 with low | high
  · have zero : base 0 + 0 = 0 := rfl
    have isOpen : ∀ i < n, Open 0 (a + i) := fun i lt => ⟨by omega, .inl rfl⟩
    have collected := collect_open (entry s a) isOpen
    rw [collect_wrap _ (by omega), if_neg (by omega), readFrame_low _ low]
    rw [show base 0 = 0 from rfl, Nat.zero_add] at collected
    exact collected.symm
  · have unentered : entry s a = countRx s := by rw [entry, if_neg (by omega)]
    rw [unentered]
    rcases Nat.lt_or_ge a addAde9000End with pocket | beyond
    · obtain ⟨id, offset, other, small, rfl⟩ := pocket_address high pocket
      rw [collect_wrap _ (by omega), if_neg (by omega), readFrame_pocket _ other small]
      split
      · rename_i blocked
        have missing : peek (countRx s) (base id + offset + (mbadRwOffEnd - offset)) = none := by
          rw [Nat.add_assoc]
          exact peek_blocked _ other (by omega) (by omega)
        exact (collect_none (i := mbadRwOffEnd - offset) (by omega) missing).symm
      · rename_i inside
        have isOpen : ∀ i < n, Open id (offset + i) := fun i lt =>
          ⟨by omega, .inr (by omega)⟩
        exact (collect_open _ isOpen).symm
    · rw [readFrame_high _ beyond]
      by_cases simple : addSimpleMap ≤ a ∧ a + n ≤ addSimpleMap + smpMapSize
      · rw [if_neg (by omega), if_pos simple, collect_wrap _ (by omega), readMemSmp,
          ← collect_total]
        refine collect_congr fun i lt => ?_
        rw [peek_beyond _ (by omega), if_pos (by omega),
          show a + i - addSimpleMap = a - addSimpleMap + i by omega]
      · -- the first address outside the simple map that the request reaches
        have outside : ∃ i < n, a + i < 65536 ∧
            ¬ (addSimpleMap ≤ a + i ∧ a + i < addSimpleMap + smpMapSize) := by
          by_cases first : addSimpleMap ≤ a ∧ a < addSimpleMap + smpMapSize
          · exact ⟨addSimpleMap + smpMapSize - a, by omega, by omega, by omega⟩
          · exact ⟨0, by omega, by omega, first⟩
        obtain ⟨i, lt, small, out⟩ := outside
        have missing : peek (countRx s) (wrap (a + i)) = none := by
          rw [wrap_small small, peek_beyond _ (by omega), if_neg out]
        rw [collect_none lt missing, if_neg simple, ite_self]

private theorem peek_congr {t u : State} (fixed : Fixed t u) {address : Nat}
    (same : ∀ id offset, decodeMeterAddress address = some (id, offset) →
      u.meter id offset = t.meter id offset) : peek u address = peek t address := by
  unfold peek word
  rw [fixed.pMeterSnap, fixed.psmpMap]
  split
  · rename_i decoded
    rw [same _ _ decoded]
  · rfl

private theorem touch_entry (s : State) {start : Nat}
    (waves : ∀ id, start = waveAddress id → id = 0) : touch s start = entry s start := by
  have zero : base 0 = 0 := rfl
  unfold touch entry
  split
  · rename_i id offset decoded
    have place := base_of_decode decoded
    by_cases begins : offset = mbadWvReg
    · have first : id = 0 := waves id (by rw [place, begins, waveAddress])
      rw [if_pos begins, if_pos (by rw [place, first, begins, zero, Nat.zero_add]), first]
    · have elsewhere : start ≠ mbadWvReg := by
        intro here
        have decoded' := decode_base 0 (by decide : mbadWvReg < 10000)
        rw [zero, Nat.zero_add, ← here, decoded] at decoded'
        exact begins ((Prod.mk.inj (Option.some.inj decoded')).2.trans here)
      rw [if_neg begins, if_neg elsewhere]
  · rename_i undecoded
    have elsewhere : start ≠ mbadWvReg := by
      rintro rfl
      cases undecoded
    rw [if_neg elsewhere]

private theorem later_address {a n i : Nat} {id : Channel} {offset : Nat} (range : a < 65536)
    (most : n ≤ 125) (lt : i < n) (high : 125 ≤ offset)
    (decoded : decodeMeterAddress (wrap (a + i)) = some (id, offset)) :
    a + i = base id + offset := by
  have place := base_of_decode decoded
  unfold wrap at place
  omega

private theorem agree_of_readsAlike (fetch : Fetcher) {s : State} (ready : s.gMeterReady = true)
    (input : Bool) {start count : UInt16} (least : 1 ≤ count.toNat) (most : count.toNat ≤ 125)
    (alike : ReadsAlike start.toNat count.toNat) : Agree fetch s input start count := by
  have map := addresses
  obtain ⟨side, waves, counter⟩ := alike
  have range := start.toNat_lt
  have collected := blockRead_collect fetch ready input least most side
  rw [blockRead] at collected
  rw [Agree, collected, readRegs]
  change _ = (sweep readStep s start.toNat count.toNat).2
  rw [sweep_result]
  generalize start.toNat = a at side waves counter range ⊢
  generalize count.toNat = n at least most side waves counter ⊢
  have entered : touch s (wrap a) = entry s a := by
    rw [wrap_small range]
    exact touch_entry s fun id here => (waves id here.le (by omega)).1
  have plain : ∀ i, 0 < i → i < n → ∀ j, decodeMeterAddress (wrap (a + i)) ≠
      some (j, mbadWvReg) := by
    intro i pos lt j decoded
    have place := later_address range most lt (by omega) decoded
    have here := waves j (by rw [waveAddress, ← place]; omega) (by rw [waveAddress, ← place]; omega)
    rw [waveAddress, ← place] at here
    omega
  refine collect_congr fun i lt => ?_
  rw [result_peek ready]
  have fixed : Fixed (entry s a) (after readStep s a (i + 1)) := by
    have whole := after_fixed ready a (i + 1)
    have first := after_fixed ready a 1
    rw [after_succ ready, after, Nat.add_zero, entered] at first
    exact ⟨whole.gMeterReady.trans first.gMeterReady.symm,
      whole.pMeterSnap.trans first.pMeterSnap.symm, whole.wvblk.trans first.wvblk.symm,
      whole.psmpMap.trans first.psmpMap.symm⟩
  refine (peek_congr fixed fun id offset decoded => ?_).symm
  rw [← entered]
  rcases Nat.eq_zero_or_pos i with first | later
  · rw [first, after_succ ready]
    rfl
  · refine after_plain ready a (fun k pos le => plain k pos (by omega)) (Nat.succ_pos i) ?_
    rintro ⟨rfl, rfl⟩
    have place := later_address range most lt (by decide) decoded
    have zero : base 0 = 0 := rfl
    omega

/-- A meter that is ready, with zero memory, and a snapshot and waves of one value each. -/
def blank (snap wave : UInt16) : State where
  gMeterReady := true
  meter _ _ := 0
  pMeterSnap _ _ := snap
  wvblk _ _ := wave
  psmpMap _ := 0
  utc := (0, 0)
  sysTick1s := 0
  cmdQ := .empty

private theorem entry_meter (s : State) (start : Nat) (id : Channel) {offset : Nat}
    (plain : ¬ (mbadWvReg ≤ offset ∧ offset < mbadWvReg + waveSize)) :
    (entry s start).meter id offset = (countRx s).meter id offset := by
  unfold entry
  split
  · rw [wave_meter, if_neg fun inside => plain inside.2]
  · rfl

private theorem block_meter (fetch : Fetcher) {s : State} (ready : s.gMeterReady = true)
    (input : Bool) {start count : UInt16} (most : count.toNat ≤ 125) {id : Channel} {offset : Nat}
    (place : start.toNat = base id + offset) (small : offset < 10000)
    (inside : id = 0 ∨ offset < mbadRwOffEnd ∧ offset + count.toNat ≤ mbadRwOffEnd) :
    blockRead fetch s input start count =
      some (readBlock (entry s start.toNat) id offset count.toNat) := by
  have map := addresses
  have size : smbSize = 65000 := rfl
  have bound := base_le id
  rw [blockRead_eq fetch ready input start most, if_neg (by omega)]
  by_cases first : id = 0
  · have zero : base 0 = 0 := rfl
    rw [first, zero, Nat.zero_add] at place
    rw [readFrame_low _ (by omega), place, first]
    rfl
  · have above : 10000 ≤ base id := by
      rcases one_or_two first with rfl | rfl <;> decide
    have room := inside.resolve_left first
    rw [place, readFrame_pocket _ first small, if_neg (by omega), entry, if_neg (by omega)]

private theorem agree_at (fetch : Fetcher) {s : State} (ready : s.gMeterReady = true)
    {input : Bool} {start count : UInt16} (agree : Agree fetch s input start count)
    {t : State} {id : Channel} {offset : Nat}
    (block : blockRead fetch s input start count = some (readBlock t id offset count.toNat))
    {i : Nat} (lt : i < count.toNat) :
    peek (after readStep s start.toNat (i + 1)) (wrap (start.toNat + i)) =
      some (word t id (offset + i)) := by
  change blockRead fetch s input start count = (sweep readStep s start.toNat count.toNat).2 at agree
  rw [block, sweep_result] at agree
  rw [← result_peek ready, collect_eq_some agree.symm i lt, readBlock, List.getElem?_map,
    List.getElem?_range lt, Option.map_some]

private theorem crossing_differs (fetch : Fetcher) (input : Bool) {start count : UInt16}
    (most : count.toNat ≤ 125) (low : start.toNat < addAde9000M2)
    (crossing : addAde9000M2 < start.toNat + count.toNat) :
    ¬ Agree fetch (blank 1 0) input start count := by
  have map := addresses
  have zero : base 0 = 0 := rfl
  have ready : (blank 1 0).gMeterReady = true := rfl
  intro agree
  have block := block_meter fetch ready input most
    (by omega : start.toNat = base 0 + start.toNat) (by omega) (.inl rfl)
  have here := agree_at fetch ready agree block (i := 10000 - start.toNat) (by omega)
  have address : start.toNat + (10000 - start.toNat) = base 1 + 0 := by
    have first : base 1 = 10000 := rfl
    omega
  have isOpen : Open 1 0 := ⟨by decide, .inr (by decide)⟩
  have read : peek (after readStep (blank 1 0) start.toNat (10000 - start.toNat + 1))
      (wrap (start.toNat + (10000 - start.toNat))) = some 1 := by
    rw [address, wrap_small (by decide), peek_open _ isOpen, word, if_pos (by decide),
      (after_fixed ready _ _).pMeterSnap]
    rfl
  have blocked : word (entry (blank 1 0) start.toNat) 0 (start.toNat + (10000 - start.toNat)) =
      0 := by
    rw [address, word, if_neg (by decide), entry_meter _ _ _ (by decide), countRx, setWord_meter,
      if_neg (by decide)]
    rfl
  rw [read, blocked] at here
  exact absurd here (by decide)

private theorem peek_refreshed (t : State) (id : Channel) :
    peek (touch t (base id + mbadWvReg)) (base id + mbadWvReg) = some (t.wvblk id 0) := by
  have isOpen : Open id mbadWvReg := ⟨by decide, .inr (by decide)⟩
  rw [peek_open _ isOpen, word, if_neg (by decide), touch, decode_base id (by decide)]
  dsimp only
  rw [if_pos rfl, wave_meter, if_pos ⟨rfl, by decide, by decide⟩]
  rfl

private theorem wave_differs (fetch : Fetcher) (input : Bool) {start count : UInt16}
    (most : count.toNat ≤ 125) (id : Channel) (lo : start.toNat ≤ waveAddress id)
    (hi : waveAddress id < start.toNat + count.toNat)
    (late : ¬ (id = 0 ∧ start.toNat = waveAddress id)) :
    ¬ Agree fetch (blank 0 1) input start count := by
  have map := addresses
  have ready : (blank 0 1).gMeterReady = true := rfl
  intro agree
  unfold waveAddress at lo hi late
  have block := block_meter fetch ready input most
    (by omega : start.toNat = base id + (start.toNat - base id)) (by omega) (.inr (by omega))
  have here := agree_at fetch ready agree block
    (i := mbadWvReg - (start.toNat - base id)) (by omega)
  have address : start.toNat + (mbadWvReg - (start.toNat - base id)) = base id + mbadWvReg := by
    omega
  have offset : start.toNat - base id + (mbadWvReg - (start.toNat - base id)) = mbadWvReg := by
    omega
  have small : base id + mbadWvReg < 65536 := by
    have bound := base_le id
    omega
  have unrefreshed : word (entry (blank 0 1) start.toNat) id mbadWvReg = 0 := by
    have elsewhere : start.toNat ≠ mbadWvReg := by
      intro begins
      rcases eq_or_ne id 0 with first | other
      · exact late ⟨first, by rw [begins, first]; rfl⟩
      · have above : 10000 ≤ base id := by
          rcases one_or_two other with rfl | rfl <;> decide
        omega
    rw [word, if_neg (by decide), entry, if_neg elsewhere, countRx, setWord_meter,
      if_neg fun both => absurd both.2 (by decide)]
    rfl
  rw [after_succ ready, address, wrap_small small, offset, peek_refreshed,
    (after_fixed ready _ _).wvblk, unrefreshed] at here
  have same : (1 : UInt16) = 0 := Option.some.inj here
  exact absurd same (by decide)

private theorem counter_differs (fetch : Fetcher) (input : Bool) {start count : UInt16}
    (most : count.toNat ≤ 125) (lo : start.toNat < mBusRxCnt)
    (hi : mBusRxCnt < start.toNat + count.toNat) :
    ¬ Agree fetch (blank 0 0) input start count := by
  have map := addresses
  have zero : base 0 = 0 := rfl
  have ready : (blank 0 0).gMeterReady = true := rfl
  intro agree
  have block := block_meter fetch ready input most
    (by omega : start.toNat = base 0 + start.toNat) (by omega) (.inl rfl)
  have here := agree_at fetch ready agree block (i := mBusRxCnt - start.toNat) (by omega)
  have address : start.toNat + (mBusRxCnt - start.toNat) = base 0 + mBusRxCnt := by
    omega
  have isOpen : Open 0 mBusRxCnt := ⟨by decide, .inl rfl⟩
  have once : word (entry (blank 0 0) start.toNat) 0 (start.toNat + (mBusRxCnt - start.toNat)) =
      1 := by
    rw [address, zero, Nat.zero_add, word, if_neg (by decide), entry_meter _ _ _ (by decide),
      countRx, setWord_meter, if_pos ⟨rfl, rfl⟩]
    rfl
  rw [address, wrap_small (by decide), peek_open _ isOpen, word, if_neg (by decide),
    after_count ready] at here
  rw [address] at once
  rw [once] at here
  have counted := congrArg UInt16.toNat (Option.some.inj here)
  rw [UInt16.toNat_add, UInt16.toNat_ofNat'] at counted
  change (0 + (mBusRxCnt - start.toNat + 1) % 2 ^ 16) % 2 ^ 16 = 1 at counted
  omega

private theorem agree_of_closed (fetch : Fetcher) {s : State} (closed : s.gMeterReady = false)
    (input : Bool) {start count : UInt16} (least : 1 ≤ count.toNat) :
    Agree fetch s input start count := by
  have still : (countRx s).gMeterReady = false := closed
  have refused : result readStep s start.toNat 0 = none := by
    rw [result_zero, readStep, readMemCbMb, closed]
    rfl
  rw [Agree, readRegs]
  change _ = (sweep readStep s start.toNat count.toNat).2
  rw [sweep_result, collect_none least refused, modbusSlvProcFrame]
  simp only [still, Bool.false_eq_true, if_false]
  rfl

/-- A short block read of 1 to 125 registers and the register-wise read over TCP agree in every
state exactly when the request satisfies `ReadsAlike`. -/
theorem reads_agree_iff (fetch : Fetcher) (input : Bool) (start count : UInt16)
    (least : 1 ≤ count.toNat) (most : count.toNat ≤ 125) :
    (∀ s, Agree fetch s input start count) ↔ ReadsAlike start.toNat count.toNat := by
  constructor
  · intro agree
    refine ⟨?_, fun id lo hi => ?_, fun lo => ?_⟩
    · by_contra crossing
      exact crossing_differs fetch input most (by omega) (by omega) (agree _)
    · by_contra late
      exact wave_differs fetch input most _ lo hi late (agree _)
    · by_contra hi
      exact counter_differs fetch input most lo (by omega) (agree _)
  · intro alike s
    cases ready : s.gMeterReady with
    | true => exact agree_of_readsAlike fetch ready input least most alike
    | false => exact agree_of_closed fetch ready input least

/-- The settings of the first channel, read in one block. -/
theorem settings_read_alike :
    ReadsAlike 6700 100 ∧ Agree noFetch (blank 0 0) false 6700 100 :=
  ⟨by decide, (reads_agree_iff noFetch false 6700 100 (by decide) (by decide)).mpr (by decide) _⟩

/-- A request that reaches the wave area from below: the block read returns the waves of the last
refresh, the register-wise read refreshes them on its way. -/
theorem wave_read_differs : ¬ Agree noFetch (blank 0 1) false 3400 60 :=
  wave_differs noFetch false (by decide) 0 (by decide) (by decide) (by decide)

end SV300.Modbus.ReadPaths
