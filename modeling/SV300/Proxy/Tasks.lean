/- SV300/Proxy/Tasks
   digest: The two proxy tasks with their queues, and what each side has received and sent. -/

import SV300.Library.BoundedQueue

set_option autoImplicit false
set_option relaxedAutoImplicit false

namespace SV300.Proxy

def nProxyQ : Nat := 16

def nProxyBuf : Nat := 2048

/-- The commands; a cleared slot has none of them. -/
inductive Cmd | zero | accept | close | sToC | cToS
  deriving DecidableEq

/-- A slot of a queue, with the session of the socket that it comes from. -/
structure Entry where
  cmd : Cmd
  session : Nat
  data : List UInt8
  deriving DecidableEq

/-- PROXY_RING -/
structure Ring where
  fr : Nat
  re : Nat
  que : Nat → Entry

def Ring.clear : Ring := ⟨0, 0, fun _ => ⟨.zero, 0, []⟩⟩

def Ring.push (q : Ring) (e : Entry) : Ring :=
  { q with que := Function.update q.que q.fr e, fr := (q.fr + 1) % nProxyQ }

def Ring.pop (q : Ring) : Option (Entry × Ring) :=
  if q.fr ≠ q.re then some (q.que q.re, { q with re := (q.re + 1) % nProxyQ }) else none

def Ring.isFull (q : Ring) : Bool := decide ((q.fr + 1) % nProxyQ = q.re)

/-- Where ProxyTask is. -/
inductive Task
  | accept
  | announce
  | top
  | receive
  | pushing (buf : List UInt8)
  | popCli
  | sending (origin : Nat) (rest : List UInt8)
  | closing

/-- Where the W5500 task is in W5500_ProxyClient. -/
inductive Client
  | look
  | popClosed
  | popOpen
  | sending (origin : Nat) (rest : List UInt8)
  | stuck (rest : List UInt8)
  | receive
  | pushing (e : Entry)

/-- The socket of the W5500, with the session whose PROXY_ACCEPT it was opened for. -/
inductive Chip
  | closed
  | opening (c : Nat)
  | established (c : Nat)
  | closeWait (c : Nat)
  | ending

/-- For each session the bytes received and sent by ProxyTask (`S`) and by the W5500 task (`C`), and
for each delivery the session it comes from and the one it went to. -/
structure Seen where
  rxS : Nat → List UInt8
  txS : Nat → List UInt8
  rxC : Nat → List UInt8
  txC : Nat → List UInt8
  delivered : List (Nat × Nat)

structure State where
  rQ : Ring
  tQ : Ring
  task : Task
  session : Nat
  client : Client
  chip : Chip
  seen : Seen

def boot : State where
  rQ := .clear
  tQ := .clear
  task := .accept
  session := 0
  client := .look
  chip := .closed
  seen := ⟨fun _ => [], fun _ => [], fun _ => [], fun _ => [], []⟩

def extend (f : Nat → List UInt8) (k : Nat) (bs : List UInt8) : Nat → List UInt8 :=
  Function.update f k (f k ++ bs)

def pushSvrCmd (s : State) (cmd : Cmd) : State :=
  { s with rQ := s.rQ.push ⟨cmd, s.session, []⟩ }

def pushSvrData (s : State) (buf : List UInt8) : State :=
  { s with rQ := s.rQ.push ⟨.sToC, s.session, buf⟩ }

def popSvrData (s : State) : Option (Entry × State) :=
  s.rQ.pop.map fun r => (r.1, { s with rQ := r.2 })

def isSvrQFull (s : State) : Bool := s.rQ.isFull

def pushCliData (s : State) (e : Entry) : State := { s with tQ := s.tQ.push e }

def popCliData (s : State) : Option (Entry × State) :=
  s.tQ.pop.map fun r => (r.1, { s with tQ := r.2 })

def isCliQFull (s : State) : Bool := s.tQ.isFull

/-- What a socket answers in a step: the bytes of a receive, none for an error, and how much a send
takes and whether it reports an error. -/
structure Io where
  received : Option (List UInt8)
  sent : Nat
  fails : Bool

/-- One step of ProxyTask, up to its next access to a queue or a socket. -/
def proxyTask (s : State) (io : Io) : State :=
  match s.task with
  | .accept => { s with task := .announce, session := s.session + 1 }
  | .announce => { pushSvrCmd s .accept with task := .top }
  | .top => { s with task := if isSvrQFull s then .popCli else .receive }
  | .receive =>
    match io.received with
    | none => { s with task := .closing }
    | some bs =>
      let buf := bs.take nProxyBuf
      if buf = [] then { s with task := .popCli }
      else
        { s with
          task := .pushing buf
          seen := { s.seen with rxS := extend s.seen.rxS s.session buf } }
  | .pushing buf => { pushSvrData s buf with task := .popCli }
  | .popCli =>
    match popCliData s with
    | none => { s with task := .top }
    | some (e, s) =>
      match e.cmd with
      | .cToS => { s with task := .sending e.session e.data }
      | .close =>
        { s with
          task := .closing
          seen := { s.seen with delivered := s.seen.delivered ++ [(e.session, s.session)] } }
      | _ => { s with task := .top }
  | .sending origin rest =>
    -- n_send: an error ends the session, less than all is tried again
    if rest = [] then { s with task := .top }
    else
      { s with
        task := if io.fails then .closing else .sending origin (rest.drop io.sent)
        seen := { s.seen with
          txS := extend s.seen.txS s.session (rest.take io.sent)
          delivered := s.seen.delivered ++ [(origin, s.session)] } }
  | .closing => { pushSvrCmd s .close with task := .accept }

/-- The connection bytes go over, in the two states in which the W5500 sends and receives. -/
def Chip.online : Chip → Option Nat
  | .established c | .closeWait c => some c
  | _ => none

/-- One step of W5500_ProxyClient; a call of it goes from `look` to `look`. -/
def proxyClient (s : State) (io : Io) : State :=
  match s.client with
  | .look =>
    match s.chip with
    | .closed => { s with client := .popClosed }
    | .opening _ => s
    | .established _ => { s with client := .popOpen }
    | .closeWait _ => { s with chip := .ending }
    | .ending => { s with chip := .closed }
  | .popClosed =>
    match popSvrData s with
    | none => { s with client := .look }
    | some (e, s) =>
      if e.cmd = .accept then { s with client := .look, chip := .opening e.session }
      else { s with client := .look }
  | .popOpen =>
    match popSvrData s with
    | none => { s with client := .receive }
    | some (e, s) =>
      match e.cmd with
      | .sToC => { s with client := .sending e.session e.data }
      | .close =>
        { s with
          client := .receive
          chip := .closed
          seen := { s.seen with
            delivered := s.seen.delivered ++ (s.chip.online.map fun c => (e.session, c)).toList } }
      | _ => { s with client := .receive }
  | .sending origin rest =>
    if rest = [] then { s with client := .receive }
    else
      match s.chip.online, io.fails with
      | some c, false =>
        { s with
          client := .sending origin (rest.drop io.sent)
          seen := { s.seen with
            txC := extend s.seen.txC c (rest.take io.sent)
            delivered := s.seen.delivered ++ [(origin, c)] } }
      -- wiznet_nsend subtracts the negative result, so that what is left only grows
      | some _, true => { s with client := .stuck rest, chip := .closed }
      | none, _ => { s with client := .stuck rest }
  | .stuck _ => s
  | .receive =>
    match s.chip.online, io.received with
    | some c, some bs =>
      let buf := bs.take nProxyBuf
      if isCliQFull s = false ∧ buf ≠ [] then
        { s with
          client := .pushing ⟨.cToS, c, buf⟩
          seen := { s.seen with rxC := extend s.seen.rxC c buf } }
      else { s with client := .look }
    | _, _ => { s with client := .look }
  | .pushing e => { pushCliData s e with client := .look }

/-- What the W5500 does by itself: it connects, it learns of the peer's end, it gives up. -/
inductive Change | up | fin | down

def chipStep : Chip → Change → Chip
  | .opening c, .up => .established c
  | .established c, .fin => .closeWait c
  | .closed, .down | .opening _, .down | .established _, .down | .closeWait _, .down
  | .ending, .down => .closed
  | chip, _ => chip

inductive Event
  | server (io : Io)
  | client (io : Io)
  | chip (c : Change)

def step (s : State) : Event → State
  | .server io => proxyTask s io
  | .client io => proxyClient s io
  | .chip c => { s with chip := chipStep s.chip c }

end SV300.Proxy
