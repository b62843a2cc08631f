/- SV300/Modbus/Whole
   digest: When multi-register writes over TCP and 32-bit writes of the web are all or nothing. -/

import Mathlib.Data.Nat.Find
import SV300.Library.Ring
import SV300.Modbus.ReadPaths

set_option autoImplicit false
set_option relaxedAutoImplicit false

namespace SV300.Modbus.Whole

open SV300.Library.Ring
open SV300.Library.Sweep
open SV300.Modbus.Map
open SV300.Modbus.Callback
open SV300.Modbus.ReadPaths (blank)

/-- The commands waiting in the queue, the next one first. -/
def pending (q : CmdQ) : List (Nat × UInt16) :=
  window nCmdQ q.item q.re ((q.fr + nCmdQ - q.re) % nCmdQ)

/-- `t` is the queue `q` after the commands of a history beginning with those waiting in `q`. -/
structure Fed (q t : CmdQ) (h : List (Nat × UInt16)) : Prop where
  re : t.re = q.re
  fr : t.fr = (q.re + h.length) % nCmdQ
  holds : Holds nCmdQ q.re t.item h

private theorem length_pending (q : CmdQ) : (pending q).length = (q.fr + nCmdQ - q.re) % nCmdQ :=
  length_window _ _ _ _

private theorem length_pending_lt (q : CmdQ) : (pending q).length < nCmdQ := by
  rw [length_pending]
  exact Nat.mod_lt _ (by decide)

private theorem fed_start (q : CmdQ) : Fed q q (pending q) where
  re := rfl
  fr := by
    have fr : q.fr < 8 := q.fr_lt
    have re : q.re < 8 := q.re_lt
    rw [length_pending]
    change q.fr = (q.re + (q.fr + 8 - q.re) % 8) % 8
    omega
  holds := holds_window _ _ _ _

private theorem Fed.put {q : CmdQ} {s : State} {h : List (Nat × UInt16)} (fed : Fed q s.cmdQ h)
    (address : Nat) (value : UInt16) :
    Fed q (putCmdQ s address value).cmdQ (h ++ [(address, value)]) where
  re := fed.re
  fr := by
    rw [List.length_append, List.length_singleton]
    change (s.cmdQ.fr + 1) % nCmdQ = _
    rw [fed.fr, Nat.mod_add_mod, Nat.add_assoc]
  holds := by
    have pushed := fed.holds.push (address, value)
    rw [← fed.fr] at pushed
    exact pushed

private theorem Fed.pending {q t : CmdQ} {h : List (Nat × UInt16)} (fed : Fed q t h) :
    Whole.pending t = latest (h.length % nCmdQ) h := by
  have shown : (t.fr + nCmdQ - t.re) % nCmdQ = h.length % nCmdQ := by
    have re : q.re < 8 := q.re_lt
    rw [fed.re, fed.fr]
    change ((q.re + h.length) % 8 + 8 - q.re) % 8 = h.length % 8
    omega
  have turns : h.length - h.length % nCmdQ = nCmdQ * (h.length / nCmdQ) := by
    have whole := Nat.div_add_mod h.length nCmdQ
    omega
  have seen := fed.holds.window (n := h.length % nCmdQ) (Nat.mod_lt _ (by decide)).le
    (Nat.mod_le _ _)
  rw [turns, window_turns] at seen
  rw [Whole.pending, shown, fed.re, seen]

private theorem Fed.pending_fits {q t : CmdQ} {h : List (Nat × UInt16)} (fed : Fed q t h)
    (fits : h.length < nCmdQ) : Whole.pending t = h := by
  rw [fed.pending, Nat.mod_eq_of_lt fits, latest_of_short (Nat.le_refl _)]

private theorem Fed.first_lost {q t : CmdQ} {x : Nat × UInt16} {rest : List (Nat × UInt16)}
    (fed : Fed q t (Whole.pending q ++ x :: rest))
    (past : nCmdQ ≤ (Whole.pending q).length + (rest.length + 1)) (fresh : x ∉ rest) :
    x ∉ Whole.pending t := by
  intro waits
  have few := length_pending_lt q
  rw [fed.pending, latest, List.length_append, List.length_cons] at waits
  generalize (Whole.pending q).length + (rest.length + 1) = n at past waits
  have eight : nCmdQ = 8 := rfl
  obtain ⟨k, beyond⟩ : ∃ k, n - n % nCmdQ = (Whole.pending q).length + (k + 1) := by
    have gap : (Whole.pending q).length + 1 ≤ n - n % nCmdQ := by
      rw [eight] at past few ⊢
      omega
    exact ⟨n - n % nCmdQ - ((Whole.pending q).length + 1), by omega⟩
  rw [beyond, List.drop_length_add_append, List.drop_succ_cons] at waits
  exact fresh (List.mem_of_mem_drop waits)

/-- A command that is queued, not carried out at once. -/
def queued : Register → Bool
  | .command offset => (fetches offset).isNone
  | _ => false

/-- A word has been stored: it is held, it is its half of the clock, or its command waits.  A page
request is carried out at once and leaves nothing to store. -/
def Stored (t : State) (v : UInt16) : Register → Prop
  | .held id offset => t.meter id offset = v
  | .clockLow => t.utc.1 = v
  | .clockHigh => t.utc.2 = v
  | .command offset => fetches offset = none → (offset, v) ∈ pending t.cmdQ
  | .closed => False

/-- The command queue takes `k` more commands. -/
def Room (q : CmdQ) (k : Nat) : Prop := k = 0 ∨ (pending q).length + k < nCmdQ

instance (q : CmdQ) (k : Nat) : Decidable (Room q k) := inferInstanceAs (Decidable (_ ∨ _))

def kindAt (address i : Nat) : Register := register (wrap (address + i))

def value (ws : List UInt16) (i : Nat) : UInt16 := (ws[i]?).getD 0

def queuedCommand (v : UInt16) : Register → List (Nat × UInt16)
  | .command offset => if fetches offset = none then [(offset, v)] else []
  | _ => []

/-- The commands queued by the first `n` words of a request. -/
def commands (address : Nat) (ws : List UInt16) (n : Nat) : List (Nat × UInt16) :=
  (List.range n).flatMap fun i => queuedCommand (value ws i) (kindAt address i)

def commandCount (address n : Nat) : Nat :=
  (List.range n).countP fun i => queued (kindAt address i)

/-- A request answered with success has stored every word, any other has changed nothing. -/
def AllOrNothing (fetch : Fetcher) (s : State) (address : UInt16) (ws : List UInt16) : Prop :=
  let r := processWriteMultipleRegs fetch s address ws
  if r.2 = .noError then
    ∀ i v, ws[i]? = some v → Stored r.1 v (kindAt address.toNat i)
  else r.1 = s

/-- A 32-bit value answered with success has both words stored, any other answer none. -/
def WebAllOrNothing (fetch : Fetcher) (s : State) (admin : Bool) (addr : Int) (val : UInt32) : Prop :=
  let r := apiSetReg fetch s admin addr true val
  if r.2 = .ok then
    Stored r.1 val.toUInt16 (kindAt addr.toNat 0) ∧
      Stored r.1 (val >>> 16).toUInt16 (kindAt addr.toNat 1)
  else r.1 = s

/-- All registers of the request are written, and its commands fit, or the first is not written. -/
def WholeWhen (q : CmdQ) (address n : Nat) : Prop :=
  n < 1 ∨ 123 < n ∨ kindAt address 0 = .closed ∨
    (∀ i < n, kindAt address i ≠ .closed) ∧ Room q (commandCount address n)

def WebWhen (q : CmdQ) (addr : Int) : Prop :=
  addr ≤ 0 ∨ kindAt addr.toNat 0 = .closed ∧ kindAt addr.toNat 1 = .closed ∨
    (∀ i < 2, kindAt addr.toNat i ≠ .closed) ∧ Room q (commandCount addr.toNat 2)

private theorem store_isSome (fetch : Fetcher) (s : State) (v : UInt16) (kind : Register) :
    (store fetch s v kind).isSome ↔ kind ≠ .closed := by
  cases kind <;> simp [store]

private theorem store_ready (fetch : Fetcher) {s t : State} {v : UInt16} {kind : Register}
    (stored : store fetch s v kind = some t) : t.gMeterReady = s.gMeterReady := by
  cases kind with
  | closed => cases stored
  | command offset =>
      obtain rfl := Option.some.inj stored
      unfold command handleFetchCmd
      cases fetches offset <;> rfl
  | held | clockLow | clockHigh =>
      obtain rfl := Option.some.inj stored
      rfl

private theorem store_keeps (fetch : Fetcher) {s t : State} {v w : UInt16} {kind other : Register}
    (stored : store fetch s v kind = some t) (apart : other ≠ kind)
    (memory : ∀ offset, other ≠ .command offset)
    (before : ∀ offset, kind = .command offset → ∀ id off, other ≠ .held id off)
    (kept : Stored s w other) : Stored t w other := by
  cases other with
  | closed => exact kept
  | command offset => exact absurd rfl (memory offset)
  | held id off =>
      cases kind with
      | closed => cases stored
      | command offset => exact absurd rfl (before offset rfl id off)
      | clockLow | clockHigh =>
          obtain rfl := Option.some.inj stored
          exact kept
      | held id' off' =>
          obtain rfl := Option.some.inj stored
          have elsewhere : ¬ (id = id' ∧ off = off') := by
            rintro ⟨rfl, rfl⟩
            exact apart rfl
          rwa [Stored, setWord_meter, if_neg elsewhere]
  | clockLow | clockHigh =>
      cases kind with
      | closed => cases stored
      | command offset =>
          obtain rfl := Option.some.inj stored
          unfold Map.command handleFetchCmd
          cases fetches offset <;> exact kept
      | held id' off' =>
          obtain rfl := Option.some.inj stored
          exact kept
      | clockLow | clockHigh =>
          first
          | exact absurd rfl apart
          | (obtain rfl := Option.some.inj stored
             exact kept)

private theorem store_stored (fetch : Fetcher) {s t : State} {v : UInt16} {kind : Register}
    (stored : store fetch s v kind = some t) (memory : ∀ offset, kind ≠ .command offset) :
    Stored t v kind := by
  cases kind with
  | closed => cases stored
  | command offset => exact absurd rfl (memory offset)
  | held id offset =>
      obtain rfl := Option.some.inj stored
      rw [Stored, setWord_meter, if_pos ⟨rfl, rfl⟩]
  | clockLow | clockHigh =>
      obtain rfl := Option.some.inj stored
      rfl

private theorem store_injective (fetch : Fetcher) {s t : State} {v w : UInt16} {kind : Register}
    (first : store fetch s v kind = some t) (second : store fetch s w kind = some t)
    (plain : ∀ offset, kind = .command offset → fetches offset = none) : v = w := by
  by_cases isCommand : ∃ offset, kind = .command offset
  · obtain ⟨offset, rfl⟩ := isCommand
    have none := plain offset rfl
    have same := (Option.some.inj first).trans (Option.some.inj second).symm
    have item := congrArg (fun u => (u.cmdQ.item s.cmdQ.fr).2) same
    simpa [Map.command, handleFetchCmd, none, putCmdQ] using item
  · have memory : ∀ offset, kind ≠ .command offset := fun offset here => isCommand ⟨offset, here⟩
    have one := store_stored fetch first memory
    have two := store_stored fetch second memory
    cases kind with
    | closed => cases first
    | command offset => exact absurd rfl (memory offset)
    | held | clockLow | clockHigh => exact Eq.trans (Eq.symm one) two

section Commit

variable (fetch : Fetcher) (address : Nat) (ws : List UInt16)

def commitStep (s : State) (x : Nat) : State × Option Unit :=
  modbusServerWriteRegCallback fetch s (wrap x) (value ws (x - address)) true

private theorem commitStep_eq {s : State} (ready : s.gMeterReady = true) (i : Nat) :
    commitStep fetch address ws s (address + i) =
      match store fetch s (value ws i) (kindAt address i) with
      | some t => (t, some ())
      | none => (s, none) := by
  rw [commitStep, modbusServerWriteRegCallback, if_pos rfl, writeMemCb_eq fetch ready,
    Nat.add_sub_cancel_left]
  rfl

variable {s : State} (ready : s.gMeterReady = true)

include ready

private theorem after_ready (n : Nat) :
    (after (commitStep fetch address ws) s address n).gMeterReady = true := by
  induction n with
  | zero => exact ready
  | succ n ih =>
      rw [after, commitStep_eq fetch address ws ih]
      cases stored : store fetch (after (commitStep fetch address ws) s address n) (value ws n)
          (kindAt address n) with
      | none => exact ih
      | some t => exact (store_ready fetch stored).trans ih

private theorem after_store (n : Nat) : after (commitStep fetch address ws) s address (n + 1) =
    (store fetch (after (commitStep fetch address ws) s address n) (value ws n)
      (kindAt address n)).getD (after (commitStep fetch address ws) s address n) := by
  rw [after, commitStep_eq fetch address ws (after_ready fetch address ws ready n)]
  cases store fetch (after (commitStep fetch address ws) s address n) (value ws n)
    (kindAt address n) <;> rfl

private theorem result_isSome (i : Nat) :
    (result (commitStep fetch address ws) s address i).isSome ↔ kindAt address i ≠ .closed := by
  rw [result, commitStep_eq fetch address ws (after_ready fetch address ws ready i),
    ← store_isSome fetch (after (commitStep fetch address ws) s address i) (value ws i)]
  cases store fetch (after (commitStep fetch address ws) s address i) (value ws i)
    (kindAt address i) <;> simp

end Commit

section Process

variable (fetch : Fetcher) {s : State} {address : UInt16} {ws : List UInt16}

private theorem process_eq (least : 1 ≤ ws.length) (most : ws.length ≤ 123) :
    processWriteMultipleRegs fetch s address ws =
      let written := sweep (commitStep fetch address.toNat ws) s address.toNat ws.length
      (written.1, if written.2.isSome then .noError else .invalidAddress) := by
  have valid : ¬ (ws.length < 1 ∨ 123 < ws.length) := by omega
  have checked := sweep_idle (fun s a => modbusServerWriteRegCallback fetch s (wrap a)
    ((ws[a - address.toNat]?).getD 0) false) s address.toNat (n := ws.length)
    fun p => ⟨rfl, rfl⟩
  obtain ⟨xs, passed⟩ := Option.isSome_iff_exists.mp checked.2
  rw [processWriteMultipleRegs, if_neg valid]
  simp only [writePhase, passed, checked.1]
  rfl

private theorem process_done (least : 1 ≤ ws.length) (most : ws.length ≤ 123)
    (ready : s.gMeterReady = true)
    (written : ∀ i < ws.length, kindAt address.toNat i ≠ .closed) :
    processWriteMultipleRegs fetch s address ws =
      (after (commitStep fetch address.toNat ws) s address.toNat ws.length, .noError) := by
  have ok : ∀ i < ws.length,
      (result (commitStep fetch address.toNat ws) s address.toNat i).isSome :=
    fun i lt => (result_isSome fetch _ _ ready i).mpr (written i lt)
  rw [process_eq fetch least most]
  dsimp only
  rw [sweep_done _ _ _ ok, sweep_result, if_pos (collect_isSome ok)]

private theorem process_stopped (least : 1 ≤ ws.length) (most : ws.length ≤ 123)
    (ready : s.gMeterReady = true) {k : Nat} (lt : k < ws.length)
    (written : ∀ j < k, kindAt address.toNat j ≠ .closed)
    (closed : kindAt address.toNat k = .closed) :
    processWriteMultipleRegs fetch s address ws =
      (after (commitStep fetch address.toNat ws) s address.toNat k, .invalidAddress) := by
  have stopped := sweep_stopped (commitStep fetch address.toNat ws) s address.toNat lt
    (fun j less => (result_isSome fetch _ _ ready j).mpr (written j less))
    (by
      have fails := (result_isSome fetch address.toNat ws ready k).not.mpr (not_not.mpr closed)
      simpa using fails)
  rw [process_eq fetch least most]
  dsimp only
  rw [stopped, after_store fetch _ _ ready, closed]
  rfl

private theorem process_closed (least : 1 ≤ ws.length) (most : ws.length ≤ 123)
    (unready : s.gMeterReady = false) :
    processWriteMultipleRegs fetch s address ws = (s, .invalidAddress) := by
  have refused : commitStep fetch address.toNat ws s address.toNat = (s, none) := by
    rw [commitStep, modbusServerWriteRegCallback, if_pos rfl, writeMemCb, unready]
    rfl
  have stopped := sweep_stopped (commitStep fetch address.toNat ws) s address.toNat least
    (fun j less => absurd less (Nat.not_lt_zero j))
    (by rw [result_zero, refused])
  rw [process_eq fetch least most]
  dsimp only
  rw [stopped, after, after, Nat.add_zero, refused]
  rfl

end Process

private theorem fetch_inside {offset : Nat} (fetched : fetches offset ≠ none) :
    mbadSetCmd < offset ∧ offset + 1 < mbadSetEnd := by
  by_contra outside
  apply fetched
  have map := addresses
  have event : mbadCmdFetchEvent = 7836 := rfl
  have alarm : mbadCmdFetchAlarm = 7840 := rfl
  have itic : mbadCmdFetchItic = 7852 := rfl
  have itic2 : mbadCmdFetchItic2 = 7853 := rfl
  unfold fetches fetchChannels
  rw [if_neg (by omega), if_neg (by omega), if_neg (by omega), if_neg (by omega),
    if_neg (by omega), if_neg (by omega), if_neg (by omega), if_neg (by omega),
    if_neg (by omega), if_neg (by omega)]
  rfl

private theorem register_of_command {offset : Nat} (command : Command offset) :
    register offset = .command offset := by
  have map := addresses
  have decoded : decodeMeterAddress offset = some (0, offset) := by
    rw [decodeMeterAddress, if_pos (by omega)]
  rw [register, decoded]
  dsimp only
  rw [if_neg (by omega), if_neg (by omega), if_neg (by omega), if_pos ⟨rfl, command⟩]

private theorem fetch_neighbours {address i offset : Nat}
    (kind : kindAt address i = .command offset) (fetched : fetches offset ≠ none) :
    kindAt address (i + 1) ≠ .closed ∧ (∀ j, i = j + 1 → kindAt address j ≠ .closed) := by
  have map := addresses
  obtain ⟨place, -⟩ := register_command kind
  obtain ⟨low, high⟩ := fetch_inside fetched
  unfold wrap at place
  refine ⟨?_, ?_⟩
  · have next : wrap (address + (i + 1)) = offset + 1 := by
      unfold wrap
      omega
    rw [kindAt, next, register_of_command ⟨by omega, high⟩]
    exact Register.noConfusion
  · rintro j rfl
    have previous : wrap (address + j) = offset - 1 := by
      unfold wrap
      omega
    rw [kindAt, previous, register_of_command ⟨by omega, by omega⟩]
    exact Register.noConfusion

private theorem kindAt_injective {address i j n : Nat} (most : n ≤ 123) (lt : i < n) (lt' : j < n)
    (same : kindAt address i = kindAt address j) (served : kindAt address i ≠ .closed) : i = j := by
  have place := register_injective same served
  unfold wrap at place
  omega

private theorem no_command_behind {address i j n : Nat} (most : n ≤ 123) (less : i < j) (lt : j < n)
    (written : ∀ k < n, kindAt address k ≠ .closed) {id : Channel} {offset command : Nat}
    (held : kindAt address i = .held id offset) : kindAt address j ≠ .command command := by
  intro behind
  have map := addresses
  obtain ⟨place, served⟩ := register_held held
  obtain ⟨place', range⟩ := register_command behind
  have closed : register 7797 = .closed := rfl
  have first : id.val = 0 := by
    unfold base wrap at *
    omega
  have gap : wrap (address + (i + (7797 - wrap (address + i)))) = 7797 ∧
      i + (7797 - wrap (address + i)) < n := by
    rw [base, first] at place
    unfold wrap at *
    omega
  have unwritten := written (i + (7797 - wrap (address + i))) gap.2
  rw [kindAt, gap.1] at unwritten
  exact unwritten closed

private theorem Fed.store {fetch : Fetcher} {q : CmdQ} {s t : State} {h : List (Nat × UInt16)}
    (fed : Fed q s.cmdQ h) {v : UInt16} {kind : Register}
    (stored : store fetch s v kind = some t) : Fed q t.cmdQ (h ++ queuedCommand v kind) := by
  cases kind with
  | closed => cases stored
  | held | clockLow | clockHigh =>
      obtain rfl := Option.some.inj stored
      change Fed q _ (h ++ [])
      rwa [List.append_nil]
  | command offset =>
      obtain rfl := Option.some.inj stored
      rw [queuedCommand, Map.command, handleFetchCmd]
      cases fetched : fetches offset with
      | none =>
          rw [if_pos rfl]
          exact fed.put offset v
      | some fs =>
          rw [if_neg (Option.some_ne_none fs), List.append_nil]
          exact fed

private theorem commands_succ (address : Nat) (ws : List UInt16) (n : Nat) :
    commands address ws (n + 1) =
      commands address ws n ++ queuedCommand (value ws n) (kindAt address n) := by
  rw [commands, List.range_succ, List.flatMap_append, List.flatMap_singleton]
  rfl

private theorem length_commands (address : Nat) (ws : List UInt16) (n : Nat) :
    (commands address ws n).length = commandCount address n := by
  induction n with
  | zero => rfl
  | succ n ih =>
      have one : (queuedCommand (value ws n) (kindAt address n)).length =
          if queued (kindAt address n) then 1 else 0 := by
        cases kindAt address n with
        | command offset =>
            rw [queuedCommand, queued]
            cases fetches offset <;> rfl
        | held | clockLow | clockHigh | closed => rfl
      rw [commands_succ, List.length_append, ih, one, commandCount, commandCount, List.range_succ,
        List.countP_append, List.countP_singleton]

private theorem mem_queuedCommand {v : UInt16} {kind : Register} {x : Nat × UInt16} :
    x ∈ queuedCommand v kind ↔ kind = .command x.1 ∧ fetches x.1 = none ∧ v = x.2 := by
  constructor
  · intro mem
    cases kind with
    | command offset =>
        rw [queuedCommand] at mem
        split at mem
        · rename_i none
          obtain rfl := List.mem_singleton.mp mem
          exact ⟨rfl, none, rfl⟩
        · cases mem
    | held | clockLow | clockHigh | closed => cases mem
  · rintro ⟨rfl, none, rfl⟩
    rw [queuedCommand, if_pos none]
    exact List.mem_singleton.mpr rfl

private theorem mem_commands {address n : Nat} {ws : List UInt16} {x : Nat × UInt16} :
    x ∈ commands address ws n ↔ ∃ i < n, kindAt address i = .command x.1 ∧ fetches x.1 = none ∧
      value ws i = x.2 := by
  simp only [commands, List.mem_flatMap, List.mem_range, mem_queuedCommand]

private theorem commands_distinct (address : Nat) (ws : List UInt16) {n : Nat} (most : n ≤ 123) :
    (commands address ws n).Pairwise fun x y => x.1 ≠ y.1 := by
  induction n with
  | zero => exact List.Pairwise.nil
  | succ n ih =>
      rw [commands_succ]
      refine List.pairwise_append.mpr ⟨ih (Nat.le_of_succ_le most), ?_, ?_⟩
      · cases kindAt address n with
        | command offset =>
            rw [queuedCommand]
            split
            · exact List.pairwise_singleton _ _
            · exact List.Pairwise.nil
        | held | clockLow | clockHigh | closed => exact List.Pairwise.nil
      · intro x early y late same
        obtain ⟨i, lt, kind, -, -⟩ := mem_commands.mp early
        obtain ⟨kind', -, -⟩ := mem_queuedCommand.mp late
        have place := kindAt_injective most (Nat.lt_succ_of_lt lt) (Nat.lt_succ_self n)
          (kind.trans (by rw [kind', same])) (by rw [kind]; exact Register.noConfusion)
        exact absurd place (Nat.ne_of_lt lt)

section Run

variable (fetch : Fetcher) {s : State} {address : Nat} {ws : List UInt16}
  (ready : s.gMeterReady = true)

include ready

private theorem after_some (ws : List UInt16) {n : Nat} (written : kindAt address n ≠ .closed) :
    store fetch (after (commitStep fetch address ws) s address n) (value ws n)
      (kindAt address n) = some (after (commitStep fetch address ws) s address (n + 1)) := by
  obtain ⟨t, stored⟩ := Option.isSome_iff_exists.mp ((store_isSome fetch
    (after (commitStep fetch address ws) s address n) (value ws n) _).mpr written)
  rw [after_store fetch address ws ready, stored, Option.getD_some]

private theorem after_stored {n : Nat} (most : n ≤ 123)
    (written : ∀ k < n, kindAt address k ≠ .closed)
    {i : Nat} (lt : i < n) (memory : ∀ offset, kindAt address i ≠ .command offset) :
    Stored (after (commitStep fetch address ws) s address n) (value ws i) (kindAt address i) := by
  induction n with
  | zero => exact absurd lt (Nat.not_lt_zero i)
  | succ n ih =>
      have stored := after_some fetch ready ws (written n (Nat.lt_succ_self n))
      rcases Nat.lt_succ_iff_lt_or_eq.mp lt with old | rfl
      · have kept := ih (Nat.le_of_succ_le most) (fun k le => written k (Nat.lt_succ_of_lt le)) old
        refine store_keeps fetch stored (fun same => ?_) memory (fun offset behind id off held => ?_)
          kept
        · exact Nat.ne_of_lt old (kindAt_injective most lt (Nat.lt_succ_self n) same (written i lt))
        · exact no_command_behind most old (Nat.lt_succ_self n) written held behind
      · exact store_stored fetch stored memory

private theorem after_fed (ws : List UInt16) {n : Nat}
    (written : ∀ k < n, kindAt address k ≠ .closed) :
    Fed s.cmdQ (after (commitStep fetch address ws) s address n).cmdQ
      (pending s.cmdQ ++ commands address ws n) := by
  induction n with
  | zero =>
      rw [commands, List.range_zero, List.flatMap_nil, List.append_nil]
      exact fed_start s.cmdQ
  | succ n ih =>
      rw [commands_succ, ← List.append_assoc]
      exact (ih fun k lt => written k (Nat.lt_succ_of_lt lt)).store
        (after_some fetch ready ws (written n (Nat.lt_succ_self n)))

end Run

section Words

variable (fetch : Fetcher) {s : State} {address : Nat} {ws : List UInt16}
  (ready : s.gMeterReady = true) {n : Nat} (most : n ≤ 123)
  (written : ∀ k < n, kindAt address k ≠ .closed)

include ready most written

private theorem all_stored (room : Room s.cmdQ (commandCount address n)) {i : Nat} (lt : i < n) :
    Stored (after (commitStep fetch address ws) s address n) (value ws i) (kindAt address i) := by
  by_cases isCommand : ∃ offset, kindAt address i = .command offset
  · obtain ⟨offset, kind⟩ := isCommand
    rw [kind]
    intro none
    have mem : (offset, value ws i) ∈ commands address ws n :=
      mem_commands.mpr ⟨i, lt, kind, none, rfl⟩
    have fits : (pending s.cmdQ ++ commands address ws n).length < nCmdQ := by
      rw [List.length_append, length_commands]
      rcases room with empty | fits
      · rw [← length_commands address ws, List.length_eq_zero_iff] at empty
        rw [empty] at mem
        cases mem
      · exact fits
    rw [(after_fed fetch ready ws written).pending_fits fits]
    exact List.mem_append_right _ mem
  · exact after_stored fetch ready most written lt fun offset kind => isCommand ⟨offset, kind⟩

private theorem command_lost (ws : List UInt16)
    (full : ¬ Room s.cmdQ (commandCount address n)) :
    ∃ i < n, ¬ Stored (after (commitStep fetch address ws) s address n) (value ws i)
      (kindAt address i) := by
  have fed := after_fed fetch ready ws written
  have count := length_commands address ws n
  have distinct := commands_distinct address ws most
  cases queue : commands address ws n with
  | nil =>
      rw [queue] at count
      exact absurd (.inl count.symm) full
  | cons x rest =>
      obtain ⟨i, lt, kind, none, word⟩ := mem_commands.mp (queue ▸ List.mem_cons_self)
      rw [queue] at fed count distinct
      have fresh : x ∉ rest := fun again => (List.pairwise_cons.mp distinct).1 x again rfl
      have past : nCmdQ ≤ (pending s.cmdQ).length + (rest.length + 1) := by
        rw [← List.length_cons (a := x), count]
        exact Nat.le_of_not_lt fun fits => full (.inr fits)
      refine ⟨i, lt, fun stored => fed.first_lost past fresh ?_⟩
      rw [kind, word] at stored
      exact stored none

end Words

private theorem value_set {n k : Nat} (lt : k < n) (v : UInt16) (i : Nat) :
    value ((List.replicate n 0).set k v) i = if i = k then v else 0 := by
  rw [value, List.getElem?_set]
  by_cases here : k = i
  · rw [if_pos here, if_pos (by rwa [List.length_replicate]), if_pos here.symm, Option.getD_some]
  · rw [if_neg here, if_neg fun same => here same.symm, List.getElem?_replicate]
    split <;> rfl

/-- A stopped request has changed the state for some words: those that differ only in the last word
stored leave different states. -/
private theorem stopped_changes (fetch : Fetcher) {s : State} (ready : s.gMeterReady = true)
    {address k n : Nat} (lt : k + 1 < n) (served : kindAt address k ≠ .closed)
    (closed : kindAt address (k + 1) = .closed) :
    ∃ ws : List UInt16, ws.length = n ∧
      after (commitStep fetch address ws) s address (k + 1) ≠ s := by
  by_contra none
  push Not at none
  have same : ∀ v : UInt16, store fetch
      (after (commitStep fetch address ((List.replicate n 0).set k 1)) s address k) v
      (kindAt address k) = some s := by
    intro v
    have unchanged := none ((List.replicate n 0).set k v) (by simp)
    have stored := after_some fetch ready ((List.replicate n 0).set k v) served
    have word : value ((List.replicate n 0).set k v) k = v := by
      rw [value_set (Nat.lt_of_succ_lt lt), if_pos rfl]
    have before : after (commitStep fetch address ((List.replicate n 0).set k v)) s address k =
        after (commitStep fetch address ((List.replicate n 0).set k 1)) s address k := by
      refine after_congr _ _ _ fun t i less => ?_
      have other : i ≠ k := Nat.ne_of_lt less
      rw [commitStep, commitStep, Nat.add_sub_cancel_left, value_set (Nat.lt_of_succ_lt lt),
        value_set (Nat.lt_of_succ_lt lt), if_neg other, if_neg other]
    rw [unchanged, word, before] at stored
    exact stored
  have plain : ∀ offset, kindAt address k = .command offset → fetches offset = Option.none :=
    fun offset kind => by_contra fun fetched => (fetch_neighbours kind fetched).1 closed
  exact absurd (store_injective fetch (same 1) (same 2) plain) (by decide)

/-- A ready meter whose command queue is the given one. -/
def waiting (q : CmdQ) : State := { blank 0 0 with cmdQ := q }

private theorem value_of_word {ws : List UInt16} {i : Nat} {v : UInt16} (word : ws[i]? = some v) :
    i < ws.length ∧ value ws i = v :=
  ⟨(List.getElem?_eq_some_iff.mp word).1, by rw [value, word, Option.getD_some]⟩

private theorem request_whole (fetch : Fetcher) {s : State} {address : UInt16} {ws : List UInt16}
    (fits : WholeWhen s.cmdQ address.toNat ws.length) : AllOrNothing fetch s address ws := by
  unfold AllOrNothing
  by_cases invalid : ws.length < 1 ∨ 123 < ws.length
  · rw [processWriteMultipleRegs, if_pos invalid]
    rfl
  have least : 1 ≤ ws.length := by omega
  have most : ws.length ≤ 123 := by omega
  cases ready : s.gMeterReady with
  | false =>
      rw [process_closed fetch least most ready]
      rfl
  | true =>
      rcases fits with short | long | closed | ⟨written, room⟩
      · omega
      · omega
      · rw [process_stopped fetch least most ready least
          (fun j less => absurd less (Nat.not_lt_zero j)) closed]
        rfl
      · rw [process_done fetch least most ready written]
        dsimp only
        rw [if_pos rfl]
        intro i v word
        obtain ⟨lt, rfl⟩ := value_of_word word
        exact all_stored fetch ready most written room lt

private theorem first_closed {address n : Nat} (served : kindAt address 0 ≠ .closed)
    (some_closed : ¬ ∀ i < n, kindAt address i ≠ .closed) :
    ∃ k, k + 1 < n ∧ (∀ j < k + 1, kindAt address j ≠ .closed) ∧
      kindAt address (k + 1) = .closed := by
  have found : ∃ i, i < n ∧ kindAt address i = .closed := by
    push Not at some_closed
    exact some_closed
  obtain ⟨lt, closed⟩ := Nat.find_spec found
  have least : ∀ j < Nat.find found, kindAt address j ≠ .closed := fun j less here =>
    Nat.find_min found less ⟨Nat.lt_trans less lt, here⟩
  cases k : Nat.find found with
  | zero => exact absurd (k ▸ closed) served
  | succ k' => exact ⟨k', k ▸ lt, fun j less => least j (k ▸ less), k ▸ closed⟩

private theorem whole_request (fetch : Fetcher) {q : CmdQ} {address : UInt16} {n : Nat}
    (whole : ∀ s ws, s.cmdQ = q → ws.length = n → AllOrNothing fetch s address ws) :
    WholeWhen q address.toNat n := by
  by_contra unfit
  have ready : (waiting q).gMeterReady = true := rfl
  simp only [WholeWhen, not_or] at unfit
  obtain ⟨least, most, served, broken⟩ := unfit
  have least' : 1 ≤ n := by omega
  have most' : n ≤ 123 := by omega
  by_cases written : ∀ i < n, kindAt address.toNat i ≠ .closed
  · have full : ¬ Room q (commandCount address.toNat n) := fun room => broken ⟨written, room⟩
    obtain ⟨i, lt, lost⟩ := command_lost fetch ready most' written (List.replicate n 0) full
    have done := whole (waiting q) (List.replicate n 0) rfl List.length_replicate
    unfold AllOrNothing at done
    rw [process_done fetch (by rwa [List.length_replicate]) (by rwa [List.length_replicate]) ready
      (by rwa [List.length_replicate]), List.length_replicate] at done
    have stored := done i (value (List.replicate n 0) i)
      (by rw [value, List.getElem?_replicate, if_pos lt, Option.getD_some])
    exact lost stored
  · obtain ⟨k, lt, before, closed⟩ := first_closed served written
    obtain ⟨ws, rfl, changed⟩ := stopped_changes fetch ready lt (before k (Nat.lt_succ_self k)) closed
    have stopped := whole (waiting q) ws rfl rfl
    unfold AllOrNothing at stopped
    rw [process_stopped fetch least' most' ready lt before closed] at stopped
    exact changed stopped

private theorem apiSetReg_eq (fetch : Fetcher) {s : State} (ready : s.gMeterReady = true)
    {addr : Int} (positive : ¬ addr ≤ 0) (val : UInt32) : apiSetReg fetch s true addr true val =
      (after (commitStep fetch addr.toNat [val.toUInt16, (val >>> 16).toUInt16]) s addr.toNat 2,
        if kindAt addr.toNat 0 ≠ .closed then .ok else .rejected) := by
  have both := after_store fetch addr.toNat [val.toUInt16, (val >>> 16).toUInt16] ready 1
  have one := after_store fetch addr.toNat [val.toUInt16, (val >>> 16).toUInt16] ready 0
  have still := after_ready fetch addr.toNat [val.toUInt16, (val >>> 16).toUInt16] ready 1
  rw [apiSetReg, if_pos rfl, if_neg positive, writeMemCb_eq fetch ready]
  dsimp only
  rw [if_pos rfl]
  rw [show value [val.toUInt16, (val >>> 16).toUInt16] 0 = val.toUInt16 from rfl] at one
  change _ = (store fetch s val.toUInt16 (register (addr.toNat % 65536))).getD s at one
  rw [← one, writeMemCb_eq fetch still, both]
  refine Prod.ext rfl ?_
  have served := store_isSome fetch s val.toUInt16 (register (addr.toNat % 65536))
  dsimp only
  exact if_congr served rfl rfl

private theorem apiSetReg_closed (fetch : Fetcher) {s : State} (unready : s.gMeterReady = false)
    {addr : Int} (positive : ¬ addr ≤ 0) (val : UInt32) :
    apiSetReg fetch s true addr true val = (s, .rejected) := by
  have refused : ∀ address value, writeMemCb fetch s address value = none := by
    intro address value
    rw [writeMemCb, unready]
    rfl
  rw [apiSetReg, if_pos rfl, if_neg positive]
  simp only [refused, Option.getD_none, Option.isSome_none, ite_self]
  rfl

private theorem web_whole (fetch : Fetcher) {s : State} {addr : Int} (admin : Bool) (val : UInt32)
    (fits : WebWhen s.cmdQ addr) : WebAllOrNothing fetch s admin addr val := by
  unfold WebAllOrNothing
  cases admin with
  | false => rfl
  | true =>
      by_cases positive : addr ≤ 0
      · rw [apiSetReg, if_pos rfl, if_pos positive]
        rfl
      cases ready : s.gMeterReady with
      | false =>
          rw [apiSetReg_closed fetch ready positive]
          rfl
      | true =>
          rw [apiSetReg_eq fetch ready positive]
          rcases fits with bad | ⟨first, second⟩ | ⟨written, room⟩
          · exact absurd bad positive
          · rw [if_neg (not_not_intro first), after_store fetch _ _ ready, after_store fetch _ _ ready,
              first, second]
            rfl
          · rw [if_pos (written 0 (by decide))]
            dsimp only
            rw [if_pos rfl]
            exact ⟨all_stored fetch ready (by decide) written room (by decide : 0 < 2),
              all_stored fetch ready (by decide) written room (by decide : 1 < 2)⟩

private theorem second_changes (fetch : Fetcher) {s : State} (ready : s.gMeterReady = true)
    {address : Nat} (closed : kindAt address 0 = .closed) (served : kindAt address 1 ≠ .closed)
    (unchanged : ∀ val : UInt32, after (commitStep fetch address
      [val.toUInt16, (val >>> 16).toUInt16]) s address 2 = s) : False := by
  have same : ∀ val : UInt32, store fetch s (val >>> 16).toUInt16 (kindAt address 1) = some s := by
    intro val
    have stored := after_some fetch ready [val.toUInt16, (val >>> 16).toUInt16] served
    rw [unchanged, after_store fetch _ _ ready, closed] at stored
    exact stored
  have plain : ∀ offset, kindAt address 1 = .command offset → fetches offset = none :=
    fun offset kind => by_contra fun fetched => (fetch_neighbours kind fetched).2 0 rfl closed
  exact absurd (store_injective fetch (same 0x10000) (same 0x20000) plain) (by decide)

private theorem whole_web (fetch : Fetcher) {q : CmdQ} {addr : Int}
    (whole : ∀ s admin val, s.cmdQ = q → WebAllOrNothing fetch s admin addr val) :
    WebWhen q addr := by
  by_contra unfit
  have ready : (waiting q).gMeterReady = true := rfl
  simp only [WebWhen, not_or] at unfit
  obtain ⟨positive, notBoth, broken⟩ := unfit
  have answered := fun val => whole (waiting q) true val rfl
  unfold WebAllOrNothing at answered
  simp only [apiSetReg_eq fetch ready positive] at answered
  by_cases first : kindAt addr.toNat 0 = .closed
  · simp only [first, ne_eq, not_true_eq_false, if_false, reduceCtorEq] at answered
    exact second_changes fetch ready first (fun second => notBoth ⟨first, second⟩) answered
  simp only [ne_eq, first, not_false_eq_true, if_true] at answered
  by_cases second : kindAt addr.toNat 1 = .closed
  · have stored := (answered 0).2
    rw [second] at stored
    exact stored
  have written : ∀ i < 2, kindAt addr.toNat i ≠ .closed := by
    intro i lt
    match i with
    | 0 => exact first
    | 1 => exact second
  obtain ⟨i, lt, lost⟩ := command_lost fetch ready (by decide) written
    [(0 : UInt32).toUInt16, ((0 : UInt32) >>> 16).toUInt16] fun room => broken ⟨written, room⟩
  match i with
  | 0 => exact lost (answered 0).1
  | 1 => exact lost (answered 0).2

/-- A request over TCP is all or nothing, in every state with a given command queue and for all
data, exactly when it satisfies `WholeWhen`, and a 32-bit value of the web when it satisfies
`WebWhen`. -/
theorem writes_whole_iff (fetch : Fetcher) (q : CmdQ) :
    (∀ (address : UInt16) (n : Nat), (∀ s ws, s.cmdQ = q → ws.length = n →
      AllOrNothing fetch s address ws) ↔ WholeWhen q address.toNat n) ∧
    ∀ addr, (∀ s admin val, s.cmdQ = q → WebAllOrNothing fetch s admin addr val) ↔
      WebWhen q addr := by
  refine ⟨fun address n => ⟨whole_request fetch, ?_⟩, fun addr => ⟨whole_web fetch, ?_⟩⟩
  · rintro fits s ws rfl rfl
    exact request_whole fetch fits
  · rintro fits s admin val rfl
    exact web_whole fetch admin val fits

/-- Two words at the end of the first channel's settings: the first one is stored, the exception
comes for the second one, and the web even answers with success. -/
theorem half_stored : ¬ AllOrNothing noFetch (blank 0 0) 7049 [1, 1] ∧
    ¬ WebAllOrNothing noFetch (blank 0 0) true 7049 0x10001 := by
  refine ⟨fun whole => ?_, fun whole => whole.2⟩
  have unchanged : (processWriteMultipleRegs noFetch (blank 0 0) 7049 [1, 1]).1 = blank 0 0 := whole
  have word := congrArg (fun s => s.meter 0 7049) unchanged
  exact absurd word (by decide)

end SV300.Modbus.Whole
