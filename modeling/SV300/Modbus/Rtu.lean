/- SV300/Modbus/Rtu
   digest: The framer of the serial Modbus port cuts frames out of a byte stream, under a timer. -/

import SV300.Crc
import SV300.Library.Runs

set_option autoImplicit false
set_option relaxedAutoImplicit false

namespace SV300.Modbus.Rtu

open SV300.Crc SV300.Library.Runs

/-- The states 0 to 3 of `smb`. -/
inductive St | idle | fc | head | body
  deriving DecidableEq

def rxbufSize : Nat := 300

/-- The static variables of `smb` and the receive buffer, which no frame clears. -/
structure Framer where
  st : St
  ix : Nat
  len : Nat
  timer : Int
  rxbuf : Nat → UInt8

/-- What the frame processor is called with: the buffer and the length of the frame. -/
structure Frame where
  rxbuf : Nat → UInt8
  len : Nat

def Frame.bytes (f : Frame) : List UInt8 := (List.range f.len).map f.rxbuf

def put (rxbuf : Nat → UInt8) (ix : Nat) (c : UInt8) : Nat → UInt8 := fun i =>
  if i = ix then c else rxbuf i

/-- `rxbuf[ix++] = c`. -/
def Framer.store (s : Framer) (c : UInt8) : Framer :=
  { s with rxbuf := put s.rxbuf s.ix c, ix := s.ix + 1 }

/-- One received character, and the frame that it completes. -/
def take (devId : Int) (s : Framer) (inchar : UInt8) : Framer × Option Frame :=
  match s.st with
  | .idle =>
    if inchar.toNat = devId then
      ({ ({ s with ix := 0 } : Framer).store inchar with timer := 5, st := .fc }, none)
    else (s, none)
  | .fc =>
    if 1 ≤ inchar ∧ inchar ≤ 6 then ({ s.store inchar with len := 8, st := .body }, none)
    else if inchar = 15 ∨ inchar = 16 then ({ s.store inchar with st := .head }, none)
    else ({ s with st := .idle, timer := 0 }, none)
  | .head =>
    let s := s.store inchar
    if s.ix = 7 then ({ s with len := inchar.toNat + 9, timer := 20, st := .body }, none)
    else (s, none)
  | .body =>
    let s := s.store inchar
    if s.len ≤ s.ix then
      ({ s with timer := 0, st := .idle },
        if gencrcModbus (Frame.bytes ⟨s.rxbuf, s.len⟩) = 0 then some ⟨s.rxbuf, s.len⟩ else none)
    else (s, none)

def expire (s : Framer) : Framer :=
  if s.st = .idle then s
  else if s.timer - 1 = 0 then { s with timer := s.timer - 1, st := .idle }
  else { s with timer := s.timer - 1 }

/-- The framer with the frames processed so far. -/
structure Line where
  framer : Framer
  done : List Frame

/-- A call of `smb` takes its characters one by one and ends. -/
inductive Event
  | byte (inchar : UInt8)
  | tick
  deriving DecidableEq

def step (devId : Int) (l : Line) : Event → Line
  | .byte inchar =>
    { framer := (take devId l.framer inchar).1
      done := l.done ++ (take devId l.framer inchar).2.toList }
  | .tick => { l with framer := expire l.framer }

/-- The calls of `smb`, each with the characters that `UARTReceive` has for it. -/
def events (calls : List (List UInt8)) : List Event :=
  calls.flatMap fun buf => buf.map .byte ++ [.tick]

def boot : Line := ⟨⟨.idle, 0, 0, 0, fun _ => 0⟩, []⟩

def smb (devId : Int) (calls : List (List UInt8)) : Line := run (step devId) boot (events calls)

/-- How far a frame has come. -/
def Place (s : Framer) : Prop :=
  match s.st with
  | .idle => True
  | .fc => s.ix = 1
  | .head => 2 ≤ s.ix ∧ s.ix < 7 ∧ (s.rxbuf 1 = 15 ∨ s.rxbuf 1 = 16)
  | .body => 2 ≤ s.ix ∧ s.ix < s.len ∧
      (s.len = 8 ∧ 1 ≤ s.rxbuf 1 ∧ s.rxbuf 1 ≤ 6 ∨
        7 ≤ s.ix ∧ s.len = (s.rxbuf 6).toNat + 9 ∧ (s.rxbuf 1 = 15 ∨ s.rxbuf 1 = 16))

/-- What holds of an open frame: its address, its timer and its place. -/
structure Open (devId : Int) (s : Framer) : Prop where
  addressed : (s.rxbuf 0).toNat = devId
  alive : 1 ≤ s.timer
  short : s.timer ≤ 20
  place : Place s

/-- What holds of a frame that is processed. -/
structure Whole (devId : Int) (f : Frame) : Prop where
  addressed : (f.rxbuf 0).toNat = devId
  checked : gencrcModbus f.bytes = 0
  size : f.len = 8 ∧ 1 ≤ f.rxbuf 1 ∧ f.rxbuf 1 ≤ 6 ∨
    f.len = (f.rxbuf 6).toNat + 9 ∧ (f.rxbuf 1 = 15 ∨ f.rxbuf 1 = 16)

structure Law (devId : Int) (l : Line) : Prop where
  opened : l.framer.st ≠ .idle → Open devId l.framer
  done : ∀ f ∈ l.done, Whole devId f

private theorem store_other {s : Framer} {c : UInt8} {i : Nat} (below : i < s.ix) :
    (s.store c).rxbuf i = s.rxbuf i :=
  if_neg (Nat.ne_of_lt below)

private theorem store_here (s : Framer) (c : UInt8) : (s.store c).rxbuf s.ix = c := if_pos rfl

/-- What a character makes of an open frame: none, an open one, or a whole one that is handed on. -/
def Fine (devId : Int) (r : Framer × Option Frame) : Prop :=
  (r.1.st ≠ .idle → Open devId r.1) ∧ ∀ f, r.2 = some f → Whole devId f

private theorem Fine.of_idle {devId : Int} {s : Framer} (idle : s.st = .idle) :
    Fine devId (s, none) :=
  ⟨fun busy => absurd idle busy, nofun⟩

private theorem Fine.of_open {devId : Int} {s : Framer} (opened : Open devId s) :
    Fine devId (s, none) :=
  ⟨fun _ => opened, nofun⟩

private theorem take_idle {devId : Int} {s : Framer} (idle : s.st = .idle) (inchar : UInt8) :
    Fine devId (take devId s inchar) := by
  simp only [take, idle]
  split_ifs with mine
  · refine .of_open ⟨?_, Int.le_of_lt (by decide : (1 : Int) < 5), (by decide : (5 : Int) ≤ 20), rfl⟩
    exact mine
  · exact .of_idle idle

private theorem take_fc {devId : Int} {s : Framer} (at_fc : s.st = .fc) (opened : Open devId s)
    (inchar : UInt8) : Fine devId (take devId s inchar) := by
  obtain ⟨addressed, alive, short, place⟩ := opened
  rw [Place, at_fc] at place
  have first : (s.store inchar).rxbuf 0 = s.rxbuf 0 := store_other (place ▸ Nat.one_pos)
  have second : (s.store inchar).rxbuf 1 = inchar := place ▸ store_here s inchar
  have address : (((s.store inchar).rxbuf 0).toNat : Int) = devId := first ▸ addressed
  have next : (s.store inchar).ix = 2 := congrArg (· + 1) place
  simp only [take, at_fc]
  split_ifs with single multi
  · exact .of_open ⟨address, alive, short, Nat.le_of_eq next.symm,
      lt_of_eq_of_lt next (by decide : 2 < 8), .inl ⟨rfl, second.symm ▸ single⟩⟩
  · exact .of_open ⟨address, alive, short, Nat.le_of_eq next.symm,
      lt_of_eq_of_lt next (by decide : 2 < 7), second.symm ▸ multi⟩
  · exact .of_idle rfl

private theorem take_head {devId : Int} {s : Framer} (at_head : s.st = .head)
    (opened : Open devId s) (inchar : UInt8) : Fine devId (take devId s inchar) := by
  obtain ⟨addressed, alive, short, place⟩ := opened
  rw [Place, at_head] at place
  obtain ⟨low, high, multi⟩ := place
  have first : (s.store inchar).rxbuf 0 = s.rxbuf 0 := store_other (by omega)
  have second : (s.store inchar).rxbuf 1 = s.rxbuf 1 := store_other (by omega)
  have address : (((s.store inchar).rxbuf 0).toNat : Int) = devId := first ▸ addressed
  simp only [take, at_head]
  split_ifs with seventh
  · have sixth : s.ix = 6 := Nat.succ.inj seventh
    have count : (s.store inchar).rxbuf 6 = inchar := sixth ▸ store_here s inchar
    refine .of_open ⟨address, (by decide : (1 : Int) ≤ 20), (by decide : (20 : Int) ≤ 20), ?_, ?_,
      .inr ⟨?_, ?_, second.symm ▸ multi⟩⟩
    · exact le_of_le_of_eq (by decide) seventh.symm
    · exact lt_of_eq_of_lt seventh (Nat.lt_of_lt_of_le (by decide) (Nat.le_add_left 9 _))
    · exact Nat.le_of_eq seventh.symm
    · exact congrArg (fun c : UInt8 => c.toNat + 9) count.symm
  · refine .of_open ⟨address, alive, short, ?_⟩
    have stays : (s.store inchar).st = .head := at_head
    rw [Place, stays]
    exact ⟨Nat.le_succ_of_le low, Nat.lt_of_le_of_ne high seventh, second.symm ▸ multi⟩

private theorem take_body {devId : Int} {s : Framer} (at_body : s.st = .body)
    (opened : Open devId s) (inchar : UInt8) : Fine devId (take devId s inchar) := by
  obtain ⟨addressed, alive, short, place⟩ := opened
  rw [Place, at_body] at place
  obtain ⟨low, high, size⟩ := place
  have first : (s.store inchar).rxbuf 0 = s.rxbuf 0 := store_other (by omega)
  have second : (s.store inchar).rxbuf 1 = s.rxbuf 1 := store_other (by omega)
  have address : (((s.store inchar).rxbuf 0).toNat : Int) = devId := first ▸ addressed
  have count : 7 ≤ s.ix → (s.store inchar).rxbuf 6 = s.rxbuf 6 := fun _ => store_other (by omega)
  have sizes : s.len = 8 ∧ 1 ≤ (s.store inchar).rxbuf 1 ∧ (s.store inchar).rxbuf 1 ≤ 6 ∨
      7 ≤ s.ix ∧ s.len = ((s.store inchar).rxbuf 6).toNat + 9 ∧
        ((s.store inchar).rxbuf 1 = 15 ∨ (s.store inchar).rxbuf 1 = 16) := by
    rw [second]
    exact size.imp id fun ⟨past, len, multi⟩ => ⟨past, (count past).symm ▸ len, multi⟩
  simp only [take, at_body]
  split_ifs with full sound
  · refine ⟨fun busy => absurd rfl busy, fun f same => ?_⟩
    obtain rfl := Option.some.inj same
    exact ⟨address, sound, sizes.imp id fun ⟨_, len, multi⟩ => ⟨len, multi⟩⟩
  · exact .of_idle rfl
  · refine .of_open ⟨address, alive, short, ?_⟩
    have stays : (s.store inchar).st = .body := at_body
    rw [Place, stays]
    exact ⟨Nat.le_succ_of_le low, Nat.lt_of_not_le full,
      sizes.imp id fun ⟨past, len, multi⟩ => ⟨Nat.le_succ_of_le past, len, multi⟩⟩

theorem Law.byte {devId : Int} {l : Line} (law : Law devId l) (inchar : UInt8) :
    Law devId (step devId l (.byte inchar)) := by
  have fine : Fine devId (take devId l.framer inchar) := by
    cases place : l.framer.st with
    | idle => exact take_idle place inchar
    | fc => exact take_fc place (law.opened (by simp [place])) inchar
    | head => exact take_head place (law.opened (by simp [place])) inchar
    | body => exact take_body place (law.opened (by simp [place])) inchar
  refine ⟨fine.1, fun f inside => ?_⟩
  rcases List.mem_append.mp inside with old | new
  · exact law.done f old
  · exact fine.2 f (Option.mem_toList.mp new)

theorem Law.tick {devId : Int} {l : Line} (law : Law devId l) : Law devId (step devId l .tick) := by
  refine ⟨fun busy => ?_, law.done⟩
  simp only [step, expire] at busy ⊢
  split_ifs at busy ⊢ with idle out
  · exact absurd idle busy
  · exact absurd rfl busy
  · obtain ⟨addressed, alive, short, place⟩ := law.opened idle
    exact ⟨addressed, by dsimp only; omega, by dsimp only; omega, place⟩

theorem law_step (devId : Int) (l : Line) (e : Event) (law : Law devId l) :
    Law devId (step devId l e) := by
  cases e with
  | byte inchar => exact law.byte inchar
  | tick => exact law.tick

theorem law_boot (devId : Int) : Law devId boot := ⟨fun busy => absurd rfl busy, nofun⟩

theorem law_run (devId : Int) (es : List Event) : Law devId (run (step devId) boot es) :=
  always_run (I := Law devId) (law_step devId) (law_boot devId) es

def writeIndex (s : Framer) : Nat := if s.st = .idle then 0 else s.ix

theorem Law.inside {devId : Int} {l : Line} (law : Law devId l) :
    writeIndex l.framer < rxbufSize := by
  rw [writeIndex, rxbufSize]
  split_ifs with idle
  · decide
  · have place := (law.opened idle).place
    have byte := (l.framer.rxbuf 6).toNat_lt
    rw [Place] at place
    cases at_st : l.framer.st with
    | idle => exact absurd at_st idle
    | fc => simp only [at_st] at place; omega
    | head => simp only [at_st] at place; omega
    | body => simp only [at_st] at place; omega

private theorem expire_open {s : Framer} (busy : s.st ≠ .idle) (last : s.timer = 1) :
    (expire s).st = .idle := by
  rw [expire, if_neg busy, if_pos (by omega)]

private theorem idle_of_ticks {devId : Int} (n : Nat) {l : Line} (law : Law devId l)
    (short : l.framer.st ≠ .idle → l.framer.timer ≤ n) :
    (run (step devId) l (List.replicate n .tick)).framer.st = .idle := by
  induction n generalizing l with
  | zero =>
    by_contra busy
    have alive := (law.opened busy).alive
    have out := short busy
    omega
  | succ n ih =>
    rw [List.replicate_succ, run_cons]
    refine ih law.tick fun busy => ?_
    simp only [step, expire] at busy ⊢
    split_ifs at busy ⊢ with idle out
    · exact absurd idle busy
    · exact absurd rfl busy
    · have left := short idle
      dsimp only
      omega

def still (l : Line) : Line := { l with framer := { l.framer with timer := 0 } }

private theorem step_byte_still (devId : Int) (l : Line) (inchar : UInt8) :
    still (step devId (still l) (.byte inchar)) = still (step devId l (.byte inchar)) := by
  obtain ⟨⟨st, ix, len, timer, rxbuf⟩, done⟩ := l
  cases st with
  | idle =>
    simp only [step, take, still, Framer.store]
    split_ifs <;> rfl
  | fc =>
    simp only [step, take, still, Framer.store]
    split_ifs <;> rfl
  | head =>
    simp only [step, take, still, Framer.store]
    split_ifs with seventh <;> simp only [seventh, if_true, if_false]
  | body =>
    simp only [step, take, still, Framer.store]
    split_ifs with full
    · simp only [full, if_true]
      rfl
    · simp only [full, if_false]

/-- No call ends with the timer of an open frame run down. -/
def Steady (devId : Int) (calls : List (List UInt8)) : Prop :=
  Along (step devId) (fun l e => e = .tick → l.framer.st = .idle ∨ l.framer.timer ≠ 1) boot
    (events calls)

instance (devId : Int) (calls : List (List UInt8)) : Decidable (Steady devId calls) :=
  alongDecidable _ _ _ _

private theorem step_tick_still (devId : Int) {l : Line}
    (steady : l.framer.st = .idle ∨ l.framer.timer ≠ 1) :
    still (step devId l .tick) = still l := by
  simp only [step, expire]
  split_ifs with idle out
  · rfl
  · rcases steady with idle' | more
    · exact absurd idle' idle
    · omega
  · rfl

theorem still_run (devId : Int) {l m : Line} (same : still l = still m) (es : List Event)
    (steady : Along (step devId)
      (fun l e => e = .tick → l.framer.st = .idle ∨ l.framer.timer ≠ 1) l es) :
    still (run (step devId) l es) =
      still (run (step devId) m (es.filter fun e => decide (e ≠ .tick))) := by
  induction es generalizing l m with
  | nil => exact same
  | cons e es ih =>
    cases e with
    | byte inchar =>
      rw [List.filter_cons_of_pos (by simp), run_cons, run_cons]
      refine ih ?_ steady.2
      rw [← step_byte_still, same, step_byte_still]
    | tick =>
      rw [List.filter_cons_of_neg (by simp), run_cons]
      refine ih ?_ steady.2
      rw [step_tick_still devId (steady.1 rfl), same]

private theorem filter_events (calls : List (List UInt8)) :
    ((events calls).filter fun e => decide (e ≠ .tick)) = calls.flatten.map .byte := by
  induction calls with
  | nil => rfl
  | cons buf calls ih =>
    have bytes : ((buf.map Event.byte).filter fun e => decide (e ≠ .tick)) = buf.map .byte :=
      List.filter_eq_self.mpr fun e inside => by
        obtain ⟨c, -, rfl⟩ := List.mem_map.mp inside
        rfl
    have call : events (buf :: calls) = buf.map .byte ++ [.tick] ++ events calls := rfl
    rw [call, List.filter_append, List.filter_append, bytes, ih, List.flatten_cons, List.map_append]
    simp

def framesOf (devId : Int) (stream : List UInt8) : List Frame :=
  (run (step devId) boot (stream.map .byte)).done

private theorem done_of_steady {devId : Int} {calls : List (List UInt8)}
    (steady : Steady devId calls) :
    (smb devId calls).done = framesOf devId calls.flatten := by
  have same := still_run devId rfl (events calls) steady
  rw [filter_events] at same
  have lines := congrArg Line.done same
  exact lines

/-- What every stream and every chunking of it meets. -/
structure Sound (devId : Int) (calls : List (List UInt8)) : Prop where
  inside : Along (step devId) (fun l _ => writeIndex l.framer < rxbufSize) boot (events calls)
  whole : ∀ f ∈ (smb devId calls).done, Whole devId f
  timeout : ∀ s, s.st ≠ .idle → s.timer = 1 → (expire s).st = .idle
  silence : (run (step devId) (smb devId calls) (List.replicate 20 .tick)).framer.st = .idle

private theorem sound_calls (devId : Int) (calls : List (List UInt8)) : Sound devId calls where
  inside := along_always (I := Law devId) (law_step devId) (fun _ _ law => law.inside)
    (law_boot devId) (events calls)
  whole := (law_run devId (events calls)).done
  timeout _ busy last := expire_open busy last
  silence := by
    have law := law_run devId (events calls)
    exact idle_of_ticks 20 law fun busy => (law.opened busy).short

/-- Every chunking is sound, and those of one stream in which no timer runs out process the same
frames, in the same order. -/
theorem frames_of_stream (devId : Int) (calls calls' : List (List UInt8))
    (same : calls.flatten = calls'.flatten) (steady : Steady devId calls)
    (steady' : Steady devId calls') :
    Sound devId calls ∧ Sound devId calls' ∧ (smb devId calls).done = (smb devId calls').done := by
  refine ⟨sound_calls devId calls, sound_calls devId calls', ?_⟩
  rw [done_of_steady steady, done_of_steady steady', same]

def readOne : List UInt8 := [1, 3, 0, 0, 0, 1, 0x84, 0x0a]

/-- In one call or with two calls in the middle that bring nothing. -/
theorem readOne_steady :
    Sound 1 [readOne] ∧ Sound 1 [readOne.take 4, [], [], readOne.drop 4] ∧
      (smb 1 [readOne]).done = (smb 1 [readOne.take 4, [], [], readOne.drop 4]).done :=
  frames_of_stream 1 _ _ rfl (by decide +kernel) (by decide +kernel)

/-- One character a call, the request is lost: the timer runs from its first character on. -/
theorem spread_frame_lost :
    ∃ calls calls' : List (List UInt8), calls.flatten = calls'.flatten ∧
      (∀ buf ∈ calls, buf ≠ []) ∧ (∀ buf ∈ calls', buf ≠ []) ∧
      (smb 1 calls).done.map Frame.bytes ≠ (smb 1 calls').done.map Frame.bytes :=
  ⟨[readOne], readOne.map fun c => [c], rfl, by decide, by decide, by decide +kernel⟩

end SV300.Modbus.Rtu
