/- SV300/Modbus/Serial
   digest: Which bytes the multiple writes of the serial port store. -/

import SV300.Modbus.Frame
import SV300.Modbus.Rtu

set_option autoImplicit false
set_option relaxedAutoImplicit false

namespace SV300.Modbus.Serial

open SV300.Library.Runs SV300.Modbus.Map SV300.Modbus.Frame SV300.Modbus.Rtu

def register (hi lo : UInt8) : UInt16 := hi.toUInt16 <<< 8 + lo.toUInt16

/-- What `modbusSlvProcFrame` reads out of the buffer; the data is read as far as `count` tells. -/
def request (f : Rtu.Frame) : Request where
  fc := f.rxbuf 1
  start := register (f.rxbuf 2) (f.rxbuf 3)
  count := register (f.rxbuf 4) (f.rxbuf 5)
  data i := register (f.rxbuf (7 + 2 * i)) (f.rxbuf (8 + 2 * i))

def byteCount (f : Rtu.Frame) : Nat := (f.rxbuf 6).toNat

/-- The data bytes of a multiple write, as its byte count tells. -/
def dataBytes (f : Rtu.Frame) : List UInt8 := (f.bytes.drop 7).take (byteCount f)

def ownRequest (f : Rtu.Frame) : Request :=
  { request f with
    data := fun i => register ((dataBytes f).getD (2 * i) 0) ((dataBytes f).getD (2 * i + 1) 0) }

structure Port where
  line : Line
  state : State

/-- A character or the end of a call at the port, or a step of another task. -/
inductive Op
  | port (e : Rtu.Event)
  | other (f : State → State)

def completed (devId : Int) (p : Port) : Op → Option Rtu.Frame
  | .port (.byte inchar) => (take devId p.line.framer inchar).2
  | _ => none

def serve (fetch : Fetcher) (s : State) : Option Rtu.Frame → State
  | none => s
  | some f => (modbusSlvProcFrame fetch s (request f) false).1

def portStep (devId : Int) (fetch : Fetcher) (p : Port) (o : Op) : Port :=
  match o with
  | .port e => ⟨step devId p.line e, serve fetch p.state (completed devId p o)⟩
  | .other f => { p with state := f p.state }

/-- A multiple write is answered as done. -/
def Accepted (fetch : Fetcher) (s : State) (f : Rtu.Frame) : Prop :=
  (modbusSlvProcFrame fetch s (request f) false).2 = .echo (request f).start (request f).count

/-- A multiple write is accepted only with two data bytes for each register and a length that holds
them, and what it does comes from its own data bytes. -/
structure Faithful (fetch : Fetcher) (s : State) (f : Rtu.Frame) : Prop where
  matching : Accepted fetch s f →
    byteCount f = 2 * (request f).count.toNat ∧ f.len = 2 * (request f).count.toNat + 9
  own : modbusSlvProcFrame fetch s (request f) false =
    modbusSlvProcFrame fetch s (ownRequest f) false

/-- The registers that a multiple write may name. -/
def Writable (start count : Nat) : Prop :=
  1 ≤ count ∧ count ≤ 123 ∧ start < mbadSettingM2 ∧
    (mbadSetting ≤ start ∧ start + count ≤ mbadSetCmd ∨
      mbadM1RwStart ≤ start ∧ start + count ≤ mbadM1RwEnd)

instance (start count : Nat) : Decidable (Writable start count) :=
  inferInstanceAs (Decidable (_ ∧ _ ∧ _ ∧ (_ ∧ _ ∨ _ ∧ _)))

private theorem meterRwRangeValid_pocket {start count : Nat} (low : mbadM1RwStart ≤ start)
    (high : start + count ≤ mbadM1RwEnd) :
    meterRwRangeValid (start - addAde9000M2) count = true := by
  have map := addresses
  rw [meterRwRangeValid, Bool.or_eq_true]
  right
  simp only [Bool.and_eq_true, decide_eq_true_eq]
  omega

private theorem writeMultipleFrame_accepted (s : State) {start count : UInt16} {ws : List UInt16}
    (length : ws.length = count.toNat) (writable : Writable start.toNat count.toNat) :
    (writeMultipleFrame s start count ws).2 = .echo start count := by
  have map := addresses
  obtain ⟨-, -, inside, place⟩ := writable
  dsimp only [writeMultipleFrame]
  rw [length, if_neg (Nat.not_le.mpr inside)]
  by_cases setting : mbadSetting ≤ start.toNat ∧ start.toNat + count.toNat ≤ mbadSetCmd
  · rw [if_pos setting]
  · have pocket := place.resolve_left setting
    rw [if_neg setting, if_pos pocket, writeMeterHoldRegs, length,
      if_pos (meterRwRangeValid_pocket pocket.1 pocket.2)]
    rfl

private theorem writeMultipleFrame_refused (s : State) {start count : UInt16} {ws : List UInt16}
    (length : ws.length = count.toNat) (few : 1 ≤ count.toNat) (most : count.toNat ≤ 123)
    (refused : ¬ Writable start.toNat count.toNat) :
    writeMultipleFrame s start count ws = (s, .except 2) := by
  have map := addresses
  unfold Writable at refused
  dsimp only [writeMultipleFrame]
  rw [length]
  by_cases past : mbadSettingM2 ≤ start.toNat
  · rw [if_pos past]
  · have setting : ¬ (mbadSetting ≤ start.toNat ∧ start.toNat + count.toNat ≤ mbadSetCmd) := by
      omega
    have pocket : ¬ (mbadM1RwStart ≤ start.toNat ∧ start.toNat + count.toNat ≤ mbadM1RwEnd) := by
      omega
    have third : ¬ (mbadM2RwStart ≤ start.toNat ∧ start.toNat + count.toNat ≤ mbadM2RwEnd) := by
      omega
    rw [if_neg past, if_neg setting, if_neg pocket, if_neg third]

/-- A request that the port takes: the meters are ready and the registers writable. -/
def Takes (s : State) (q : Request) : Prop :=
  s.gMeterReady = true ∧ Writable q.start.toNat q.count.toNat

def words (q : Request) : List UInt16 := (List.range q.count.toNat).map q.data

private theorem words_length (q : Request) : (words q).length = q.count.toNat := by
  rw [words, List.length_map, List.length_range]

private theorem chkFrame_write (start count : Nat) :
    modbusSlvChkFrame 16 start count false = none ↔
      1 ≤ count ∧ count ≤ 123 ∧ start + count ≤ smbSize := by
  rw [modbusSlvChkFrame, if_neg (by decide), if_neg (by decide), if_pos rfl]
  split_ifs with range past
  · exact iff_of_false nofun (by omega)
  · exact iff_of_false nofun (by omega)
  · exact iff_of_true rfl (by omega)

private theorem procFrame_write (fetch : Fetcher) {s : State} {q : Request} (multiple : q.fc = 16)
    (ready : s.gMeterReady = true) :
    modbusSlvProcFrame fetch s q false =
      match modbusSlvChkFrame 16 q.start.toNat q.count.toNat false with
      | some code => (countRx s, .except code)
      | none => writeMultipleFrame (countRx s) q.start q.count (words q) := by
  obtain ⟨fc, start, count, data⟩ := q
  subst multiple
  have still : (countRx s).gMeterReady = true := ready
  have read : ¬ ((16 : UInt8) = 3 ∨ (16 : UInt8) = 4) := by decide
  have single : ¬ (16 : UInt8) = 6 := by decide
  dsimp only [modbusSlvProcFrame]
  rw [if_pos still]
  cases modbusSlvChkFrame 16 start.toNat count.toNat false with
  | some code => rfl
  | none =>
    dsimp only
    rw [if_neg read, if_neg single]
    rfl

private theorem procFrame_taken (fetch : Fetcher) {s : State} {q : Request} (multiple : q.fc = 16)
    (takes : Takes s q) :
    modbusSlvProcFrame fetch s q false =
      writeMultipleFrame (countRx s) q.start q.count (words q) := by
  have map := addresses
  have size : smbSize = 65000 := rfl
  obtain ⟨ready, few, most, inside, place⟩ := takes
  have checked := (chkFrame_write q.start.toNat q.count.toNat).mpr ⟨few, most, by omega⟩
  rw [procFrame_write fetch multiple ready, checked]

private theorem procFrame_refused (fetch : Fetcher) {s : State} {q : Request} (multiple : q.fc = 16)
    (refused : ¬ Takes s q) :
    ∃ reply, reply ≠ .echo q.start q.count ∧ ∀ data,
      modbusSlvProcFrame fetch s { q with data := data } false = (countRx s, reply) := by
  by_cases ready : s.gMeterReady = true
  · cases checked : modbusSlvChkFrame 16 q.start.toNat q.count.toNat false with
    | some code =>
      refine ⟨.except code, nofun, fun data => ?_⟩
      rw [procFrame_write fetch (q := { q with data := data }) multiple ready, checked]
    | none =>
      obtain ⟨few, most, -⟩ := (chkFrame_write _ _).mp checked
      have unwritable : ¬ Writable q.start.toNat q.count.toNat := fun w => refused ⟨ready, w⟩
      refine ⟨.except 2, nofun, fun data => ?_⟩
      rw [procFrame_write fetch (q := { q with data := data }) multiple ready, checked]
      exact writeMultipleFrame_refused _ (words_length _) few most unwritable
  · refine ⟨.silent, nofun, fun data => ?_⟩
    have still : ¬ (countRx s).gMeterReady = true := ready
    dsimp only [modbusSlvProcFrame]
    rw [if_neg still]

private theorem dataBytes_getD {f : Rtu.Frame} (size : f.len = byteCount f + 9) {k : Nat}
    (inside : k < byteCount f) : (dataBytes f).getD k 0 = f.rxbuf (7 + k) := by
  have here : 7 + k < f.len := by omega
  rw [dataBytes, List.getD_eq_getElem?_getD, List.getElem?_take_of_lt inside, List.getElem?_drop,
    Frame.bytes, List.getElem?_map, List.getElem?_range here]
  rfl

private theorem words_own {f : Rtu.Frame} (size : f.len = byteCount f + 9)
    (matching : byteCount f = 2 * (request f).count.toNat) :
    words (ownRequest f) = words (request f) := by
  refine List.map_congr_left fun i inside => ?_
  have below : i < (request f).count.toNat := List.mem_range.mp inside
  have hi := dataBytes_getD size (k := 2 * i) (by omega)
  have lo := dataBytes_getD size (k := 2 * i + 1) (by omega)
  have place : 7 + (2 * i + 1) = 8 + 2 * i := by omega
  simp only [ownRequest, request, hi, lo, place]

/-- A multiple write is as it is to be exactly if it is not taken or has two data bytes for each
register. -/
private theorem faithful_iff (fetch : Fetcher) (s : State) {f : Rtu.Frame}
    (multiple : f.rxbuf 1 = 16) (size : f.len = byteCount f + 9) :
    Faithful fetch s f ↔
      (Takes s (request f) → byteCount f = 2 * (request f).count.toNat) := by
  constructor
  · intro faithful takes
    have accepted : Accepted fetch s f := by
      rw [Accepted, procFrame_taken fetch multiple takes]
      exact writeMultipleFrame_accepted _ (words_length _) takes.2
    exact (faithful.matching accepted).1
  · intro matching
    by_cases takes : Takes s (request f)
    · have double := matching takes
      have length : f.len = 2 * (request f).count.toNat + 9 := by rw [size, double]
      have own : Takes s (ownRequest f) := takes
      constructor
      · exact fun _ => ⟨double, length⟩
      · rw [procFrame_taken fetch multiple takes, procFrame_taken fetch multiple own,
          words_own size double]
        rfl
    · obtain ⟨reply, refusal, same⟩ := procFrame_refused fetch multiple takes
      have stale : modbusSlvProcFrame fetch s (request f) false = (countRx s, reply) :=
        same (request f).data
      have own : modbusSlvProcFrame fetch s (ownRequest f) false = (countRx s, reply) :=
        same (ownRequest f).data
      constructor
      · intro accepted
        rw [Accepted, stale] at accepted
        exact absurd accepted refusal
      · rw [stale, own]

/-- Each multiple write that a character completes is as it is to be. -/
def FaithfulAt (devId : Int) (fetch : Fetcher) (p : Port) (o : Op) : Prop :=
  ∀ f ∈ completed devId p o, f.rxbuf 1 = 16 → Faithful fetch p.state f

/-- Each multiple write that is taken has two data bytes for each register. -/
def MatchingAt (devId : Int) (p : Port) (o : Op) : Prop :=
  ∀ f ∈ completed devId p o, f.rxbuf 1 = 16 → Takes p.state (request f) →
    byteCount f = 2 * (request f).count.toNat

private theorem portStep_law {devId : Int} {fetch : Fetcher} (p : Port) (o : Op)
    (law : Law devId p.line) : Law devId (portStep devId fetch p o).line := by
  cases o with
  | port e => exact law_step devId p.line e law
  | other f => exact law

private theorem completed_size {devId : Int} {p : Port} {o : Op} {f : Rtu.Frame}
    (law : Law devId p.line) (now : completed devId p o = some f) (multiple : f.rxbuf 1 = 16) :
    f.len = byteCount f + 9 := by
  obtain ⟨inchar, rfl⟩ : ∃ inchar, o = .port (.byte inchar) := by
    cases o with
    | port e =>
      cases e with
      | byte inchar => exact ⟨inchar, rfl⟩
      | tick => cases now
    | other g => cases now
  have whole := (law.byte inchar).done f (List.mem_append_right _ (Option.mem_toList.mpr now))
  rcases whole.size with ⟨-, -, small⟩ | ⟨len, -⟩
  · rw [multiple] at small
    exact absurd small (by decide)
  · exact len

private theorem faithfulAt_iff {devId : Int} (fetch : Fetcher) (p : Port) (o : Op)
    (law : Law devId p.line) : FaithfulAt devId fetch p o ↔ MatchingAt devId p o := by
  exact forall₂_congr fun f now => forall_congr' fun multiple =>
    faithful_iff fetch p.state multiple (completed_size law now multiple)

/-- Along every stream of characters, whatever other tasks do in between, every multiple write stores
its own data bytes and is refused without two of them for each register, exactly if no write that is
taken lacks them or has more. -/
theorem faithful_along_iff (devId : Int) (fetch : Fetcher) (s : State) (os : List Op) :
    Along (portStep devId fetch) (FaithfulAt devId fetch) ⟨boot, s⟩ os ↔
      Along (portStep devId fetch) (MatchingAt devId) ⟨boot, s⟩ os :=
  along_iff (I := fun p : Port => Law devId p.line) (fun p o law => portStep_law p o law)
    (fun p o law => faithfulAt_iff fetch p o law) (law_boot devId) os

instance (s : State) (q : Request) : Decidable (Takes s q) := inferInstanceAs (Decidable (_ ∧ _))

instance (devId : Int) (p : Port) (o : Op) : Decidable (MatchingAt devId p o) :=
  inferInstanceAs (Decidable (∀ f ∈ completed devId p o, f.rxbuf 1 = 16 →
    Takes p.state (request f) → byteCount f = 2 * (request f).count.toNat))

def readyState : State where
  gMeterReady := true
  meter _ _ := 0
  pMeterSnap _ _ := 0
  wvblk _ _ := 0
  psmpMap _ := 0
  utc := (0, 0)
  sysTick1s := 0
  cmdQ := .empty

/-- A write of two registers at 6700, then one of two at 6710 with no data bytes; both carry their
CRC. -/
def shortWrite : List Op :=
  ([1, 16, 0x1a, 0x2c, 0, 2, 4, 0x11, 0x22, 0x33, 0x44, 0xf3, 0x77,
    1, 16, 0x1a, 0x36, 0, 2, 0, 0x5e, 0x7a] : List UInt8).map fun c => .port (.byte c)

/-- The second write is taken: it stores its CRC and the last data of the first. -/
theorem stale_bytes_stored :
    ¬ Along (portStep 1 noFetch) (FaithfulAt 1 noFetch) ⟨boot, readyState⟩ shortWrite ∧
      (run (portStep 1 noFetch) ⟨boot, readyState⟩ shortWrite).state.meter 0 6711 = 0x3344 := by
  refine ⟨fun faithful => ?_, by decide +kernel⟩
  have matching : Along (portStep 1 noFetch) (MatchingAt 1) ⟨boot, readyState⟩ shortWrite :=
    along_of_invariant (P := FaithfulAt 1 noFetch) (I := fun p : Port => Law 1 p.line)
      (fun p o law _ => portStep_law p o law) (fun p o law => (faithfulAt_iff noFetch p o law).mp)
      (law_boot 1) faithful
  revert matching
  decide +kernel

end SV300.Modbus.Serial
