/- SV300/Modbus/WritePaths
   digest: Which registers each write path serves, their agreement there, and reading back. -/

import SV300.Modbus.ReadPaths

set_option autoImplicit false
set_option relaxedAutoImplicit false

namespace SV300.Modbus.WritePaths

open SV300.Library.Sweep
open SV300.Modbus.Map
open SV300.Modbus.Frame
open SV300.Modbus.Callback
open SV300.Modbus.ReadPaths

/-- The answer is an echo, not an exception and not silence. -/
def accepted : Reply → Bool
  | .echo _ _ => true
  | _ => false

def single (fetch : Fetcher) (s : State) (a v : UInt16) : State × Bool :=
  let r := modbusSlvProcFrame fetch s ⟨6, a, v, fun _ => 0⟩ false
  (r.1, accepted r.2)

def multi (fetch : Fetcher) (s : State) (a : UInt16) (ws : List UInt16) : State × Bool :=
  let r := modbusSlvProcFrame fetch s
    ⟨16, a, UInt16.ofNat ws.length, fun i => (ws[i]?).getD 0⟩ false
  (r.1, accepted r.2)

def tcp (fetch : Fetcher) (s : State) (a v : UInt16) : State × Bool :=
  let r := writeMemCb fetch s a.toNat v
  (r.getD s, r.isSome)

/-- Both ways of reading return the value. -/
def ReadsBack (fetch : Fetcher) (s : State) (a v : UInt16) : Prop :=
  blockRead fetch s false a 1 = some [v] ∧ (readMemCbMb s a.toNat).2 = some v

def refused (s : State) : State × Bool := (countRx s, false)

/-- What holds of one register and value.  The frame paths count the frame, so they are compared
with a TCP write to the state after the count. -/
def Served (fetch : Fetcher) (s : State) (a v : UInt16) : Prop :=
  let bySingle := single fetch s a v
  let byMulti := multi fetch s a [v]
  let byTcp := tcp fetch (countRx s) a v
  match register a.toNat with
  | .held id offset =>
      (byTcp.2 = true → ReadsBack fetch byTcp.1 a v) ∧
      if Energy offset then byMulti = refused s ∧ (id ≠ 0 → bySingle = refused s)
      else (id ≠ 0 → bySingle = byTcp) ∧ (id ≠ 2 → byMulti = byTcp)
  | .clockLow => ∀ w, (multi fetch s a [v, w]).2 = byTcp.2 ∧
      (multi fetch s a [v, w]).1.sysTick1s = (tcp fetch byTcp.1 (a + 1) w).1.sysTick1s
  | .clockHigh => True
  | .command _ => bySingle = byTcp ∧ byMulti = refused s
  | .closed => byTcp = refused s ∧
      (addAde9000M2 ≤ a.toNat → bySingle = refused s ∧ byMulti = refused s)

/-- The request stays inside one block of settings or the second channel's pocket. -/
def InBlock (start count : Nat) : Prop :=
  mbadSetting ≤ start ∧ start + count ≤ mbadSettingEnd ∨
  mbadP1Setting ≤ start ∧ start + count ≤ mbadP1SettingEnd ∨
  mbadM1RwStart ≤ start ∧ start + count ≤ mbadM1RwEnd

section Paths

variable (fetch : Fetcher) {s : State}

private theorem single_closed (closed : s.gMeterReady = false) (a v : UInt16) :
    single fetch s a v = (countRx s, false) := by
  have still : (countRx s).gMeterReady = false := closed
  simp only [single, modbusSlvProcFrame, still, Bool.false_eq_true, if_false, accepted]

private theorem multi_closed (closed : s.gMeterReady = false) (a : UInt16) (ws : List UInt16) :
    multi fetch s a ws = (countRx s, false) := by
  have still : (countRx s).gMeterReady = false := closed
  simp only [multi, modbusSlvProcFrame, still, Bool.false_eq_true, if_false, accepted]

private theorem tcp_closed (closed : s.gMeterReady = false) (a v : UInt16) :
    tcp fetch (countRx s) a v = (countRx s, false) := by
  have still : (countRx s).gMeterReady = false := closed
  simp only [tcp, writeMemCb, still, Bool.false_eq_true, if_false, Option.getD_none,
    Option.isSome_none]

private theorem tcp_eq (ready : s.gMeterReady = true) (a v : UInt16) : tcp fetch s a v =
    ((store fetch s v (register a.toNat)).getD s,
      (store fetch s v (register a.toNat)).isSome) := by
  rw [tcp, writeMemCb_eq fetch ready]

private theorem single_eq (ready : s.gMeterReady = true) {a : UInt16} (v : UInt16)
    (small : a.toNat < smbSize) : single fetch s a v =
      ((writeSingleFrame fetch (countRx s) a v).1,
        accepted (writeSingleFrame fetch (countRx s) a v).2) := by
  have still : (countRx s).gMeterReady = true := ready
  have within : ¬ smbSize ≤ a.toNat := Nat.not_le.mpr small
  simp [single, modbusSlvProcFrame, still, modbusSlvChkFrame, within]

private theorem chk_multi {a n : Nat} (least : 1 ≤ n) (most : n ≤ 123) :
    modbusSlvChkFrame 16 a n false = if smbSize < a + n then some 2 else none := by
  have range : ¬ (n < 1 ∨ 123 < n) := by omega
  rw [modbusSlvChkFrame, if_neg (by decide), if_neg (by decide), if_pos rfl, if_neg range]

private theorem count_words {ws : List UInt16} (most : ws.length ≤ 123) :
    (UInt16.ofNat ws.length).toNat = ws.length := by
  rw [UInt16.toNat_ofNat']
  exact Nat.mod_eq_of_lt (by omega)

private theorem data_words (ws : List UInt16) :
    (List.range ws.length).map (fun i => (ws[i]?).getD 0) = ws := by
  apply List.ext_getElem?
  intro i
  rw [List.getElem?_map]
  rcases Nat.lt_or_ge i ws.length with lt | ge
  · rw [List.getElem?_range lt, Option.map_some, List.getElem?_eq_getElem lt, Option.getD_some]
  · rw [List.getElem?_eq_none (by rwa [List.length_range]), List.getElem?_eq_none ge]
    rfl

private theorem multi_eq (ready : s.gMeterReady = true) {a : UInt16} {ws : List UInt16}
    (least : 1 ≤ ws.length) (most : ws.length ≤ 123) (small : a.toNat + ws.length ≤ smbSize) :
    multi fetch s a ws =
      ((writeMultipleFrame (countRx s) a (UInt16.ofNat ws.length) ws).1,
        accepted (writeMultipleFrame (countRx s) a (UInt16.ofNat ws.length) ws).2) := by
  have still : (countRx s).gMeterReady = true := ready
  have checked := chk_multi (a := a.toNat) least most
  rw [if_neg (by omega)] at checked
  have other : ¬ ((16 : UInt8) = 3 ∨ (16 : UInt8) = 4) := by decide
  have other' : ¬ (16 : UInt8) = 6 := by decide
  simp only [multi, modbusSlvProcFrame, still, if_true, count_words most, checked, other, other',
    if_false, data_words]

private theorem multi_past (ready : s.gMeterReady = true) {a : UInt16} {ws : List UInt16}
    (least : 1 ≤ ws.length) (most : ws.length ≤ 123) (past : smbSize < a.toNat + ws.length) :
    multi fetch s a ws = refused s := by
  have still : (countRx s).gMeterReady = true := ready
  have checked := chk_multi (a := a.toNat) least most
  rw [if_pos past] at checked
  simp only [multi, modbusSlvProcFrame, still, if_true, count_words most, checked, refused,
    accepted]

private theorem single_past (ready : s.gMeterReady = true) {a : UInt16} (v : UInt16)
    (past : smbSize ≤ a.toNat) : single fetch s a v = refused s := by
  have still : (countRx s).gMeterReady = true := ready
  simp [single, modbusSlvProcFrame, still, modbusSlvChkFrame, past, refused, accepted]

end Paths

private theorem register_closed {address : Nat} (kind : register address = .closed)
    (high : addAde9000M2 ≤ address) :
    ¬ (mbadM1RwStart ≤ address ∧ address < mbadM1RwEnd) ∧
      ¬ (mbadM2RwStart ≤ address ∧ address < mbadM2RwEnd) := by
  have map := addresses
  rcases Nat.lt_or_ge address addAde9000End with low | beyond
  · obtain ⟨id, offset, other, small, rfl⟩ := pocket_address high low
    have outside : ¬ Pocket offset := by
      intro pocket
      rw [register, decode_base id small] at kind
      dsimp only at kind
      rw [if_pos (.inr (.inl pocket))] at kind
      cases kind
    have first : base 1 = 10000 := rfl
    have second : base 2 = 20000 := rfl
    rcases one_or_two other with rfl | rfl <;> omega
  · omega

section Refused

variable (fetch : Fetcher) (s : State)

private theorem single_refused {a : UInt16} (v : UInt16) (high : addAde9000M2 ≤ a.toNat)
    (second : ¬ (mbadM1RwStart ≤ a.toNat ∧ a.toNat < mbadM1RwEnd))
    (third : ¬ (mbadM2RwStart ≤ a.toNat ∧ a.toNat < mbadM2RwEnd)) :
    single fetch s a v = refused s := by
  cases ready : s.gMeterReady with
  | false => exact single_closed fetch ready a v
  | true =>
      rcases Nat.lt_or_ge a.toNat smbSize with small | past
      · have dispatched : writeSingleFrame fetch (countRx s) a v = (countRx s, .except 2) := by
          dsimp only [writeSingleFrame]
          rw [if_neg (by omega), if_neg second, if_neg third]
        rw [single_eq fetch ready v small, dispatched]
        rfl
      · exact single_past fetch ready v past

private theorem multi_refused {a : UInt16} {ws : List UInt16} (least : 1 ≤ ws.length)
    (most : ws.length ≤ 123)
    (settings : ¬ (mbadSetting ≤ a.toNat ∧ a.toNat + ws.length ≤ mbadSetCmd))
    (second : ¬ (mbadM1RwStart ≤ a.toNat ∧ a.toNat + ws.length ≤ mbadM1RwEnd)) :
    multi fetch s a ws = refused s := by
  have map := addresses
  cases ready : s.gMeterReady with
  | false => exact multi_closed fetch ready a ws
  | true =>
      rcases Nat.lt_or_ge smbSize (a.toNat + ws.length) with past | small
      · exact multi_past fetch ready least most past
      · have dispatched : writeMultipleFrame (countRx s) a (UInt16.ofNat ws.length) ws =
            (countRx s, .except 2) := by
          dsimp only [writeMultipleFrame]
          by_cases top : mbadSettingM2 ≤ a.toNat
          · rw [if_pos top]
          · rw [if_neg top, if_neg settings, if_neg second, if_neg (by omega)]
        rw [multi_eq fetch ready least most small, dispatched]
        rfl

private theorem tcp_refused {a : UInt16} (v : UInt16) (kind : register a.toNat = .closed) :
    tcp fetch (countRx s) a v = refused s := by
  cases ready : s.gMeterReady with
  | false => exact tcp_closed fetch ready a v
  | true =>
      have still : (countRx s).gMeterReady = true := ready
      rw [tcp_eq fetch still, kind]
      rfl

end Refused

section Served

variable (fetch : Fetcher) (s : State) {a : UInt16} (v : UInt16)

private theorem single_command {offset : Nat} (kind : register a.toNat = .command offset) :
    single fetch s a v = tcp fetch (countRx s) a v := by
  have map := addresses
  have size : smbSize = 65000 := rfl
  obtain ⟨place, command⟩ := register_command kind
  cases ready : s.gMeterReady with
  | false => rw [single_closed fetch ready, tcp_closed fetch ready]
  | true =>
      have still : (countRx s).gMeterReady = true := ready
      have dispatched : writeSingleFrame fetch (countRx s) a v =
          (Map.command fetch (countRx s) offset v, .echo a v) := by
        dsimp only [writeSingleFrame]
        rw [place, if_pos (by omega), writeSingleMem, if_pos command]
      rw [single_eq fetch ready v (by omega), dispatched, tcp_eq fetch still, kind]
      rfl

private theorem single_pocket {id : Channel} {offset : Nat} (other : id ≠ 0)
    (kind : register a.toNat = .held id offset) (pocket : Pocket offset) :
    single fetch s a v = tcp fetch (countRx s) a v := by
  have map := addresses
  have size : smbSize = 65000 := rfl
  have place := (register_held kind).1
  have held : writeMeterHoldReg (countRx s) id offset v = some ((countRx s).setWord id offset v) :=
    hold_valid (.inr pocket)
  cases ready : s.gMeterReady with
  | false => rw [single_closed fetch ready, tcp_closed fetch ready]
  | true =>
      have still : (countRx s).gMeterReady = true := ready
      have dispatched : writeSingleFrame fetch (countRx s) a v =
          ((countRx s).setWord id offset v, .echo a v) := by
        dsimp only [writeSingleFrame]
        rcases one_or_two other with rfl | rfl
        · have first : base 1 = 10000 := rfl
          rw [if_neg (by omega), if_pos (by omega),
            show a.toNat - addAde9000M2 = offset by omega, held, answer]
        · have second : base 2 = 20000 := rfl
          rw [if_neg (by omega), if_neg (by omega), if_pos (by omega),
            show a.toNat - addAde9000M3 = offset by omega, held, answer]
      have bound := base_le id
      rw [single_eq fetch ready v (by omega), dispatched, tcp_eq fetch still, kind]
      rfl

private theorem settings_stored {t : State} {start : Nat} {ws : List UInt16}
    (inside : mbadSetting ≤ start ∧ start + ws.length ≤ mbadSettingEnd ∨
      mbadP1Setting ≤ start ∧ start + ws.length ≤ mbadP1SettingEnd) (least : 1 ≤ ws.length) :
    writeMultiMem t start ws = storeWords t 0 start ws := by
  have map := addresses
  have place : mbadSetting + (start - mbadSetting) = start := by omega
  rw [writeMultiMem, if_neg (by omega), putSettings, place]
  rcases inside with low | high
  · rw [if_pos (by omega)]
  · rw [if_neg (by omega), if_pos (by omega)]

private theorem zero_or_one {id : Channel} (third : id ≠ 2) : id = 0 ∨ id = 1 := by
  revert id
  decide

private theorem multi_stored {ws : List UInt16} (least : 1 ≤ ws.length) (most : ws.length ≤ 123)
    (ready : s.gMeterReady = true) {id : Channel} {offset : Nat}
    (place : a.toNat = base id + offset) (small : offset < 10000) (third : id ≠ 2)
    (inBlock : InBlock a.toNat ws.length) :
    multi fetch s a ws = (storeWords (countRx s) id offset ws, true) := by
  have map := addresses
  have size : smbSize = 65000 := rfl
  have zero : base 0 = 0 := rfl
  have first : base 1 = 10000 := rfl
  unfold InBlock at inBlock
  have dispatched : writeMultipleFrame (countRx s) a (UInt16.ofNat ws.length) ws =
      (storeWords (countRx s) id offset ws, .echo a (UInt16.ofNat ws.length)) := by
    dsimp only [writeMultipleFrame]
    rw [if_neg (by omega)]
    rcases zero_or_one third with rfl | rfl
    · rw [if_pos (by omega), settings_stored (by omega) least, place, zero, Nat.zero_add]
    · have valid : meterRwRangeValid offset ws.length = true := by
        unfold meterRwRangeValid
        simp only [Bool.or_eq_true, Bool.and_eq_true, decide_eq_true_eq]
        omega
      rw [if_neg (by omega), if_pos (by omega), show a.toNat - addAde9000M2 = offset by omega,
        writeMeterHoldRegs, if_pos valid, answer]
  rw [multi_eq fetch ready least most (by omega), dispatched]
  rfl

private theorem storeWords_single (t : State) (id : Channel) (offset : Nat) (v : UInt16) :
    storeWords t id offset [v] = t.setWord id offset v := by
  have same : (fun off => if offset ≤ off then (([v] : List UInt16)[off - offset]?).getD
      (t.meter id off) else t.meter id off) = Function.update (t.meter id) offset v := by
    funext off
    rcases Nat.lt_trichotomy off offset with before | here | behind
    · rw [if_neg (by omega), Function.update_of_ne (by omega)]
    · rw [here, if_pos (Nat.le_refl _), Nat.sub_self, Function.update_self]
      rfl
    · rw [if_pos (by omega), Function.update_of_ne (by omega),
        List.getElem?_eq_none (by simp; omega), Option.getD_none]
  dsimp only [storeWords, State.setWord]
  rw [same]

private theorem multi_held {id : Channel} {offset : Nat} (third : id ≠ 2)
    (kind : register a.toNat = .held id offset) (settled : ¬ Energy offset) :
    multi fetch s a [v] = tcp fetch (countRx s) a v := by
  have map := addresses
  have zero : base 0 = 0 := rfl
  have first : base 1 = 10000 := rfl
  obtain ⟨place, served⟩ := register_held kind
  have small : offset < 10000 := by omega
  have inBlock : InBlock a.toNat [v].length := by
    rw [InBlock, List.length_singleton]
    rcases zero_or_one third with rfl | rfl
    · omega
    · have pocket : Pocket offset :=
        (served.resolve_left settled).resolve_right fun both => absurd both.1 (by decide)
      omega
  cases ready : s.gMeterReady with
  | false => rw [multi_closed fetch ready, tcp_closed fetch ready]
  | true =>
      have still : (countRx s).gMeterReady = true := ready
      rw [multi_stored fetch s (Nat.le_refl [v].length) (by simp) ready place small third inBlock,
        storeWords_single, tcp_eq fetch still, kind]
      rfl

end Served

private theorem reads_back (fetch : Fetcher) {t : State} (ready : t.gMeterReady = true)
    {a v : UInt16}
    {id : Channel} {offset : Nat} (place : a.toNat = base id + offset) (isOpen : Open id offset)
    (live : mbadEnergyStart ≤ offset) (wave : offset ≠ mbadWvReg) (count : offset ≠ mBusRxCnt)
    (held : t.meter id offset = v) : ReadsBack fetch t a v := by
  have map := addresses
  have range := a.toNat_lt
  have value : word (countRx t) id offset = v := by
    rw [word, if_neg (by omega), countRx, setWord_meter, if_neg fun both => count both.2, held]
  have one : (1 : UInt16).toNat = 1 := rfl
  have start : a.toNat ≠ mbadWvReg := by
    unfold base at place
    omega
  refine ⟨?_, ?_⟩
  · rw [blockRead_collect fetch ready false (by decide) (by decide) (by omega)]
    have entered : entry t a.toNat = countRx t := by rw [entry, if_neg start]
    rw [entered, one, collect, collect, Nat.add_zero,
      wrap_small range, place, peek_open _ isOpen, value]
    rfl
  · have touched : touch t a.toNat = countRx t := by
      rw [touch, place, decode_base id isOpen.1]
      dsimp only
      rw [if_neg wave]
    rw [readMemCbMb, if_pos ready, readMemCb_eq, touched, place, peek_open _ isOpen, value]

private theorem tcp_reads_back (fetch : Fetcher) (s : State) {a v : UInt16} {id : Channel}
    {offset : Nat} (kind : register a.toNat = .held id offset) (ok : (tcp fetch s a v).2 = true) :
    ReadsBack fetch (tcp fetch s a v).1 a v := by
  have map := addresses
  obtain ⟨place, served⟩ := register_held kind
  cases ready : s.gMeterReady with
  | false =>
      rw [tcp, writeMemCb, ready] at ok
      cases ok
  | true =>
      rw [tcp_eq fetch ready, kind]
      dsimp only [store, Option.getD_some]
      have isOpen : Open id offset := by
        refine ⟨by omega, ?_⟩
        by_cases first : id = 0
        · exact .inl first
        · refine .inr ?_
          rcases served with energy | pocket | ⟨first', -⟩
          · omega
          · omega
          · exact absurd first' first
      exact reads_back fetch (t := s.setWord id offset v) ready place isOpen (by omega) (by omega)
        (by omega) (by rw [setWord_meter, if_pos ⟨rfl, rfl⟩])

private theorem multi_reads_back (fetch : Fetcher) (s : State) {a : UInt16} {ws : List UInt16}
    (most : ws.length ≤ 123) (inBlock : InBlock a.toNat ws.length)
    (ok : (multi fetch s a ws).2 = true) {i : Nat} {w : UInt16} (word : ws[i]? = some w) :
    ReadsBack fetch (multi fetch s a ws).1 (a + UInt16.ofNat i) w := by
  have map := addresses
  have zero : base 0 = 0 := rfl
  have first : base 1 = 10000 := rfl
  obtain ⟨lt, -⟩ := List.getElem?_eq_some_iff.mp word
  cases ready : s.gMeterReady with
  | false =>
      rw [multi_closed fetch ready] at ok
      cases ok
  | true =>
      have located : ∃ id offset, id ≠ 2 ∧ a.toNat = base id + offset ∧ mbadSetting ≤ offset ∧
          offset + ws.length ≤ mbadP1SettingEnd ∧
          (id = 0 ∨ offset + ws.length ≤ mbadRwOffEnd) ∧
          (offset + ws.length ≤ mbadSettingEnd ∨ mbadP1Setting ≤ offset) := by
        unfold InBlock at inBlock
        rcases Nat.lt_or_ge a.toNat addAde9000M2 with low | high
        · exact ⟨0, a.toNat, by decide, by omega, by omega, by omega, .inl rfl, by omega⟩
        · exact ⟨1, a.toNat - 10000, by decide, by omega, by omega, by omega, .inr (by omega),
            .inl (by omega)⟩
      obtain ⟨id, offset, third, place, low, high, room, block⟩ := located
      have address : (a + UInt16.ofNat i).toNat = base id + (offset + i) := by
        have index : (UInt16.ofNat i).toNat = i := by
          rw [UInt16.toNat_ofNat']
          exact Nat.mod_eq_of_lt (by omega)
        have bound := base_le id
        rw [UInt16.toNat_add, index, place, Nat.add_assoc]
        exact Nat.mod_eq_of_lt (by omega)
      rw [multi_stored fetch s (by omega) most ready place (by omega) third inBlock]
      refine reads_back fetch (t := storeWords (countRx s) id offset ws) ready address
        ⟨by omega, ?_⟩ (by omega) (by omega) (by omega) ?_
      · exact room.imp_right fun r => by omega
      · rw [storeWords_meter, if_pos ⟨rfl, by omega⟩, Nat.add_sub_cancel_left, word,
          Option.getD_some]

private theorem clock_set (fetch : Fetcher) (s : State) {a : UInt16}
    (kind : register a.toNat = .clockLow)
    (v w : UInt16) : (multi fetch s a [v, w]).2 = (tcp fetch (countRx s) a v).2 ∧
      (multi fetch s a [v, w]).1.sysTick1s =
        (tcp fetch (tcp fetch (countRx s) a v).1 (a + 1) w).1.sysTick1s := by
  obtain rfl : a = 7788 := UInt16.toNat_inj.mp (register_clockLow kind)
  cases ready : s.gMeterReady with
  | false =>
      have still : (countRx s).gMeterReady = false := ready
      rw [multi_closed fetch ready, tcp_closed fetch ready]
      refine ⟨rfl, ?_⟩
      rw [tcp, writeMemCb, still]
      rfl
  | true =>
      have still : (countRx s).gMeterReady = true := ready
      have next : register (7788 + 1 : UInt16).toNat = .clockHigh := rfl
      have inside : (7788 : UInt16).toNat + [v, w].length ≤ smbSize := by
        change 7788 + 2 ≤ smbSize
        decide
      have dispatched : writeMultipleFrame (countRx s) 7788 (UInt16.ofNat [v, w].length) [v, w] =
          (tickSet (countRx s) v w, .echo 7788 (UInt16.ofNat [v, w].length)) := rfl
      rw [multi_eq fetch ready (by simp) (by simp) inside, dispatched, tcp_eq fetch still, kind]
      refine ⟨rfl, ?_⟩
      dsimp only [store, Option.getD_some]
      rw [tcp_eq fetch (s := { countRx s with utc := (v, (countRx s).utc.2) }) still, next]
      rfl

/-- Every write path serves its registers as the others do, and what is stored reads back. -/
theorem writes_served (fetch : Fetcher) (s : State) :
    (∀ a v, Served fetch s a v) ∧
    ∀ a ws, ws.length ≤ 123 → InBlock a.toNat ws.length → (multi fetch s a ws).2 = true →
      ∀ i w, ws[i]? = some w → ReadsBack fetch (multi fetch s a ws).1 (a + UInt16.ofNat i) w := by
  have map := addresses
  refine ⟨fun a v => ?_, fun a ws most inBlock ok i w word =>
    multi_reads_back fetch s most inBlock ok word⟩
  unfold Served
  dsimp only
  cases kind : register a.toNat with
  | held id offset =>
      refine ⟨fun ok => tcp_reads_back fetch _ kind ok, ?_⟩
      obtain ⟨place, served⟩ := register_held kind
      split
      · rename_i energy
        unfold base at place
        refine ⟨multi_refused fetch s (Nat.le_refl 1) (by simp) ?_ ?_, fun other => ?_⟩
        · rw [List.length_singleton]
          omega
        · rw [List.length_singleton]
          omega
        · refine single_refused fetch s v ?_ ?_ ?_
          all_goals
            rcases one_or_two other with rfl | rfl
            all_goals
              simp only [Fin.val_one, Fin.val_two] at place
              omega
      · rename_i settled
        refine ⟨fun other => ?_, fun third => multi_held fetch s v third kind settled⟩
        exact single_pocket fetch s v other kind
          ((served.resolve_left settled).resolve_right fun both => other both.1)
  | clockLow => exact fun w => clock_set fetch s kind v w
  | clockHigh => trivial
  | command offset =>
      obtain ⟨place, command⟩ := register_command kind
      refine ⟨single_command fetch s v kind, multi_refused fetch s (Nat.le_refl 1) (by simp) ?_ ?_⟩
      all_goals
        rw [List.length_singleton]
        omega
  | closed =>
      refine ⟨tcp_refused fetch s v kind, fun high => ?_⟩
      obtain ⟨second, third⟩ := register_closed kind high
      refine ⟨single_refused fetch s v high second third,
        multi_refused fetch s (Nat.le_refl 1) (by simp) ?_ ?_⟩
      all_goals
        rw [List.length_singleton]
        omega

/-- Commands are no registers of function code 16: the save-settings command is taken as a single
write and over TCP, and refused as a multiple write of one register. -/
theorem command_refused : (single noFetch (blank 0 0) 7799 0x1234).2 = true ∧
    (tcp noFetch (blank 0 0) 7799 0x1234).2 = true ∧
    (multi noFetch (blank 0 0) 7799 [0x1234]).2 = false :=
  ⟨rfl, rfl, rfl⟩

end SV300.Modbus.WritePaths
