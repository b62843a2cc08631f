/- SV300/Proxy/Sessions
   digest: When the proxy carries the bytes of a session whole and keeps sessions apart. -/

import SV300.Library.Runs
import SV300.Proxy.Tasks

set_option autoImplicit false
set_option relaxedAutoImplicit false

namespace SV300.Proxy

open Library.BoundedQueue Library.Runs

def Ring.contents (q : Ring) : List Entry := pending nProxyQ q.que q.fr q.re

def waiting (k : Nat) (es : List Entry) : List UInt8 :=
  (es.filter fun e => e.session = k).flatMap Entry.data

def Task.isOpen : Task → Bool
  | .accept | .closing => false
  | _ => true

def Task.hand (n : Nat) : Task → List Entry
  | .pushing buf => [⟨.sToC, n, buf⟩]
  | _ => []

def Task.unsent : Task → List UInt8
  | .sending _ rest => rest
  | _ => []

def Client.hand : Client → List Entry
  | .pushing e => [e]
  | _ => []

def Client.unsent : Client → List UInt8
  | .sending _ rest | .stuck rest => rest
  | _ => []

/-- The session of the W5500's connection, from the moment it is asked for. -/
def Chip.link : Chip → Option Nat
  | .opening c | .established c | .closeWait c => some c
  | .closed | .ending => none

/-- What is on its way from the server's side, and from the client's. -/
def State.upward (s : State) : List Entry := s.rQ.contents ++ s.task.hand s.session

def State.downward (s : State) : List Entry := s.tQ.contents ++ s.client.hand

/-- A session is open on both sides. -/
def State.isOpen (s : State) : Prop := s.task.isOpen = true ∧ s.chip.link = some s.session

/-- What is sent in a session has been received in it, in this order; while the session is open, all
that is received is sent or waits for it; nothing goes from one session to another. -/
structure Right (s : State) : Prop where
  own : ∀ d ∈ s.seen.delivered, d.1 = d.2
  upOrder : ∀ k, s.seen.txC k <+: s.seen.rxS k
  downOrder : ∀ k, s.seen.txS k <+: s.seen.rxC k
  upWhole : s.isOpen → s.seen.txC s.session ++ s.client.unsent ++
    waiting s.session s.upward = s.seen.rxS s.session
  downWhole : s.isOpen → s.seen.txS s.session ++ s.task.unsent ++
    waiting s.session s.downward = s.seen.rxC s.session

/-- A command of the task finds room, and a session begins with nothing left for its client. -/
def Task.Quiet (s : State) : Task → Prop
  | .accept => s.tQ.fr = s.tQ.re
  | .announce | .closing => s.rQ.isFull = false
  | .top | .receive | .pushing _ | .popCli | .sending _ _ => True

/-- What the W5500 task puts in the queue comes from the last session. -/
def Client.Quiet (s : State) : Client → Prop
  | .pushing e => e.session = s.session
  | .look | .popClosed | .popOpen | .sending _ _ | .stuck _ | .receive => True

def Quiet (s : State) : Event → Prop
  | .server _ => s.task.Quiet s
  | .client _ => s.client.Quiet s
  | .chip _ => True

private theorem next_eq_wrap {i : Nat} (inside : i < nProxyQ) :
    (i + 1) % nProxyQ = wrap nProxyQ (i + 1) := by
  unfold nProxyQ at inside ⊢
  unfold wrap
  split_ifs <;> omega

/-- The positions are in the ring. -/
structure Ring.Valid (q : Ring) : Prop where
  fr_lt : q.fr < nProxyQ
  re_lt : q.re < nProxyQ

private theorem Ring.Valid.push {q : Ring} (valid : q.Valid) (e : Entry) : (q.push e).Valid :=
  ⟨Nat.mod_lt _ (by decide), valid.re_lt⟩

private theorem contents_push {q : Ring} (valid : q.Valid) (room : q.isFull = false) (e : Entry) :
    (q.push e).contents = q.contents ++ [e] := by
  have free := of_decide_eq_false room
  rw [next_eq_wrap valid.fr_lt] at free
  unfold Ring.contents Ring.push
  rw [next_eq_wrap valid.fr_lt]
  exact pending_put q.que valid.fr_lt valid.re_lt free e

private theorem pop_cases (q : Ring) (valid : q.Valid) :
    q.pop = none ∧ q.contents = [] ∨
      ∃ e rest, q.pop = some (e, rest) ∧ rest.Valid ∧ q.contents = e :: rest.contents ∧
        rest.isFull = false := by
  by_cases empty : q.fr = q.re
  · left
    constructor
    · exact if_neg (not_not_intro empty)
    · rw [Ring.contents, empty, pending_empty]
  · right
    refine ⟨_, _, if_pos empty, ⟨valid.fr_lt, Nat.mod_lt _ (by decide)⟩, ?_, ?_⟩
    · unfold Ring.contents
      rw [next_eq_wrap valid.re_lt]
      exact pending_take q.que valid.fr_lt valid.re_lt empty
    · have inside := valid.fr_lt
      have inside' := valid.re_lt
      refine decide_eq_false ?_
      unfold nProxyQ at inside inside' ⊢
      dsimp only
      omega

/-- An entry pushed into a full queue is lost with all that waits there. -/
theorem contents_push_full {q : Ring} (full : q.isFull = true) (e : Entry) :
    (q.push e).contents = [] := by
  have same : (q.push e).fr = (q.push e).re := of_decide_eq_true full
  rw [Ring.contents, same, pending_empty]

private theorem contents_nil {q : Ring} (empty : q.fr = q.re) : q.contents = [] := by
  rw [Ring.contents, empty, pending_empty]

private theorem waiting_cons (k : Nat) (e : Entry) (es : List Entry) :
    waiting k (e :: es) = (if e.session = k then e.data else []) ++ waiting k es := by
  unfold waiting
  by_cases own : e.session = k <;> simp [own]

private theorem waiting_append (k : Nat) (es fs : List Entry) :
    waiting k (es ++ fs) = waiting k es ++ waiting k fs := by
  rw [waiting, List.filter_append, List.flatMap_append]
  rfl

@[simp] theorem waiting_nil (k : Nat) : waiting k [] = [] := rfl

theorem extend_apply (f : Nat → List UInt8) (k : Nat) (bs : List UInt8) (j : Nat) :
    extend f k bs j = f j ++ if k = j then bs else [] := by
  unfold extend
  by_cases own : k = j
  · rw [own, Function.update_self, if_pos rfl]
  · rw [Function.update_of_ne (Ne.symm own), if_neg own, List.append_nil]

private theorem extend_nil (f : Nat → List UInt8) (k : Nat) : extend f k [] = f := by
  funext j
  rw [extend_apply, ite_self, List.append_nil]

private theorem prefix_extend {tx rx : Nat → List UInt8} (order : ∀ k, tx k <+: rx k) (j : Nat)
    (bs : List UInt8) (k : Nat) : tx k <+: extend rx j bs k := by
  rw [extend_apply]
  exact (order k).trans (List.prefix_append _ _)

/-- Before the sessions from `k` on, or within session `k`. -/
inductive Place
  | before (k : Nat)
  | within (k : Nat)

def Place.floor : Place → Nat
  | .before k => k
  | .within k => k + 1

inductive Follows : Place → Entry → Place → Prop
  | accept (k : Nat) : Follows (.before k) ⟨.accept, k, []⟩ (.within k)
  | data (k : Nat) (buf : List UInt8) : Follows (.within k) ⟨.sToC, k, buf⟩ (.within k)
  | close (k : Nat) : Follows (.within k) ⟨.close, k, []⟩ (.before (k + 1))

/-- The entries lead from one place to another. -/
def Chain : Place → List Entry → Place → Prop
  | p, [], q => p = q
  | p, e :: es, q => ∃ r, Follows p e r ∧ Chain r es q

private theorem Chain.snoc {p q r : Place} {es : List Entry} {e : Entry} (chain : Chain p es q)
    (next : Follows q e r) : Chain p (es ++ [e]) r := by
  induction es generalizing p with
  | nil =>
    obtain rfl := chain
    exact ⟨r, next, rfl⟩
  | cons x es ih =>
    obtain ⟨m, first, rest⟩ := chain
    exact ⟨m, first, ih rest⟩

private theorem Follows.floor_le {p q : Place} {e : Entry} (follows : Follows p e q) :
    p.floor ≤ q.floor := by
  cases follows <;> simp [Place.floor]

private theorem Chain.floor_le {p q : Place} {es : List Entry} (chain : Chain p es q) :
    p.floor ≤ q.floor := by
  induction es generalizing p with
  | nil =>
    obtain rfl := chain
    exact Nat.le_refl _
  | cons e es ih =>
    obtain ⟨r, first, rest⟩ := chain
    exact Nat.le_trans first.floor_le (ih rest)

/-- Of the sessions up to `n` the entries on the way end at a place.  A connection is within its
session and gets all of it; of a session not begun all is still on the way. -/
structure Up (n : Nat) (last : Place) (unsent : List UInt8) (link : Option Nat) (es : List Entry)
    (rx tx : Nat → List UInt8) : Prop where
  bound : last.floor ≤ n + 1
  stream : ∃ p, Chain p es last ∧
    (∀ c, link = some c → p = .within c ∧ tx c ++ unsent ++ waiting c es = rx c) ∧
    ∀ k, p.floor ≤ k → tx k = [] ∧ waiting k es = rx k
  order : ∀ k, tx k <+: rx k

section

variable {n : Nat} {last : Place} {unsent : List UInt8} {link : Option Nat} {es : List Entry}
  {rx tx : Nat → List UInt8}

private theorem Up.link_le (up : Up n last unsent link es rx tx) {c : Nat}
    (linked : link = some c) :
    c ≤ n := by
  obtain ⟨p, chain, open', -⟩ := up.stream
  have below := Nat.le_trans chain.floor_le up.bound
  rw [(open' c linked).1] at below
  exact Nat.le_of_succ_le_succ below

private theorem Up.whole (up : Up n last unsent link es rx tx) {c : Nat} (linked : link = some c) :
    tx c ++ unsent ++ waiting c es = rx c := by
  obtain ⟨p, -, open', -⟩ := up.stream
  exact (open' c linked).2

private theorem Up.accept (up : Up n last unsent link es rx tx) :
    Up (n + 1) last unsent link es rx tx :=
  { up with bound := Nat.le_succ_of_le up.bound }

private theorem Up.append (up : Up n last unsent link es rx tx) {e : Entry} {q : Place}
    (next : Follows last e q) (bound : q.floor ≤ n + 1) :
    Up n q unsent link (es ++ [e]) (extend rx e.session e.data) tx := by
  obtain ⟨p, chain, linked, future⟩ := up.stream
  have one (k : Nat) : waiting k [e] = if e.session = k then e.data else [] := by
    rw [waiting_cons, waiting_nil, List.append_nil]
  refine ⟨bound, ⟨p, chain.snoc next, ?_, ?_⟩, prefix_extend up.order _ _⟩
  · intro c here
    obtain ⟨place, whole⟩ := linked c here
    exact ⟨place, by rw [waiting_append, ← List.append_assoc, whole, extend_apply, one]⟩
  · intro k later
    obtain ⟨nothing, whole⟩ := future k later
    exact ⟨nothing, by rw [waiting_append, whole, extend_apply, one]⟩

private theorem Up.drop (up : Up n last unsent link es rx tx) (unsent' : List UInt8) :
    Up n last unsent' none es rx tx := by
  obtain ⟨p, chain, -, future⟩ := up.stream
  exact ⟨up.bound, ⟨p, chain, nofun, future⟩, up.order⟩

private theorem Up.take_later {p : Place} {e : Entry} (up : Up n last unsent link (e :: es) rx tx)
    (future : ∀ k, p.floor ≤ k → tx k = [] ∧ waiting k (e :: es) = rx k) {r : Place}
    (follows : Follows p e r) : ∀ k, r.floor ≤ k → tx k = [] ∧ waiting k es = rx k := by
  intro k later
  obtain ⟨nothing, whole⟩ := future k (Nat.le_trans follows.floor_le later)
  have other : e.session ≠ k := by
    cases follows <;> simp only [Place.floor] at later ⊢ <;> omega
  rw [waiting_cons, if_neg other, List.nil_append] at whole
  exact ⟨nothing, whole⟩

private theorem Up.take_idle {e : Entry} (up : Up n last unsent none (e :: es) rx tx)
    (unsent' : List UInt8) : Up n last unsent' none es rx tx := by
  obtain ⟨p, ⟨r, follows, rest⟩, -, future⟩ := up.stream
  exact ⟨up.bound, ⟨r, rest, nofun, up.take_later future follows⟩, up.order⟩

private theorem Up.take_accept {e : Entry} (up : Up n last unsent none (e :: es) rx tx)
    (accept : e.cmd = .accept) : Up n last [] (some e.session) es rx tx := by
  obtain ⟨p, ⟨r, follows, rest⟩, -, future⟩ := up.stream
  have later := up.take_later future follows
  cases follows with
  | accept k =>
    refine ⟨up.bound, ⟨.within k, rest, ?_, later⟩, up.order⟩
    rintro c ⟨⟩
    obtain ⟨nothing, whole⟩ := future k (Nat.le_refl k)
    rw [waiting_cons, if_pos rfl, List.nil_append] at whole
    exact ⟨rfl, by rw [nothing, List.nil_append, List.nil_append, whole]⟩
  | data k buf => cases accept
  | close k => cases accept

private theorem Up.take_data {e : Entry} (up : Up n last [] link (e :: es) rx tx)
    (data : e.cmd = .sToC) :
    Up n last e.data link es rx tx ∧ ∀ c, link = some c → e.session = c := by
  obtain ⟨p, ⟨r, follows, rest⟩, linked, future⟩ := up.stream
  have later := up.take_later future follows
  cases follows with
  | data k buf =>
    have own : ∀ c, link = some c → k = c := by
      intro c here
      cases (linked c here).1
      rfl
    refine ⟨⟨up.bound, ⟨.within k, rest, ?_, later⟩, up.order⟩, own⟩
    intro c here
    obtain ⟨place, whole⟩ := linked c here
    rw [waiting_cons, if_pos (own c here), List.append_nil, ← List.append_assoc] at whole
    exact ⟨place, whole⟩
  | accept k => cases data
  | close k => cases data

private theorem Up.take_close {e : Entry} (up : Up n last unsent link (e :: es) rx tx)
    (close : e.cmd = .close) (unsent' : List UInt8) :
    Up n last unsent' none es rx tx ∧ ∀ c, link = some c → e.session = c := by
  refine ⟨(up.drop unsent).take_idle unsent', fun c here => ?_⟩
  obtain ⟨p, ⟨r, follows, rest⟩, linked, -⟩ := up.stream
  cases follows with
  | close k =>
    cases (linked c here).1
    rfl
  | accept k => cases close
  | data k buf => cases close

private theorem Up.take_other {e : Entry} (up : Up n last unsent link (e :: es) rx tx)
    (data : e.cmd ≠ .sToC) (close : e.cmd ≠ .close) : Up n last unsent link es rx tx := by
  cases link with
  | none => exact up.take_idle unsent
  | some c =>
    obtain ⟨p, ⟨r, follows, rest⟩, linked, -⟩ := up.stream
    obtain ⟨rfl, -⟩ := linked c rfl
    cases follows with
    | data => exact absurd rfl data
    | close => exact absurd rfl close

private theorem Up.send {c : Nat} (up : Up n last unsent link es rx tx) (here : link = some c)
    (k : Nat) :
    Up n last (unsent.drop k) link es rx (extend tx c (unsent.take k)) := by
  obtain ⟨p, chain, linked, future⟩ := up.stream
  obtain ⟨place, whole⟩ := linked c here
  have sent : extend tx c (unsent.take k) c ++ unsent.drop k ++ waiting c es = rx c := by
    rw [extend_apply, if_pos rfl, List.append_assoc (tx c), List.take_append_drop, whole]
  refine ⟨up.bound, ⟨p, chain, ?_, ?_⟩, fun j => ?_⟩
  · intro d other
    cases here.symm.trans other
    exact ⟨place, sent⟩
  · intro j later
    have apart : c ≠ j := by
      rw [place] at later
      exact Nat.ne_of_lt later
    rw [extend_apply, if_neg apart, List.append_nil]
    exact future j later
  · by_cases own : c = j
    · subst own
      rw [← sent, List.append_assoc]
      exact List.prefix_append _ _
    · rw [extend_apply, if_neg own, List.append_nil]
      exact up.order j

end

/-- All that waits is of the last session, and while ProxyTask is in it, nothing else is missing of
what has been received in it. -/
structure Down (n : Nat) (opened : Bool) (unsent : List UInt8) (es hand : List Entry)
    (rx tx : Nat → List UInt8) : Prop where
  stamped : ∀ e ∈ es, e.cmd = .cToS ∧ e.session = n
  known : ∀ e ∈ hand, e.cmd = .cToS ∧ e.session ≤ n
  whole : opened = true → tx n ++ unsent ++ waiting n (es ++ hand) = rx n
  future : ∀ k, n < k → tx k = [] ∧ rx k = []
  order : ∀ k, tx k <+: rx k

private theorem waiting_later {n : Nat} {es : List Entry} (known : ∀ e ∈ es, e.session ≤ n) :
    waiting (n + 1) es = [] := by
  have none : (es.filter fun e => decide (e.session = n + 1)) = [] := by
    rw [List.filter_eq_nil_iff]
    intro e inside
    have below := known e inside
    simp only [decide_eq_true_eq]
    omega
  rw [waiting, none, List.flatMap_nil]

section

variable {n : Nat} {opened : Bool} {unsent : List UInt8} {es hand : List Entry}
  {rx tx : Nat → List UInt8}

private theorem Down.accept (down : Down n opened unsent [] hand rx tx) :
    Down (n + 1) true [] [] hand rx tx := by
  obtain ⟨nothing, unread⟩ := down.future (n + 1) (Nat.lt_succ_self n)
  refine ⟨nofun, ?_, ?_, fun k later => down.future k (Nat.lt_of_succ_lt later), down.order⟩
  · exact fun e inside => ⟨(down.known e inside).1, Nat.le_succ_of_le (down.known e inside).2⟩
  · intro _
    rw [nothing, unread, List.nil_append, List.nil_append, List.nil_append,
      waiting_later fun e inside => (down.known e inside).2]

private theorem Down.close (down : Down n opened unsent es hand rx tx) (unsent' : List UInt8) :
    Down n false unsent' es hand rx tx :=
  { down with whole := nofun }

private theorem Down.take {e : Entry} (down : Down n opened [] (e :: es) hand rx tx) :
    e.cmd = .cToS ∧ e.session = n ∧ Down n opened e.data es hand rx tx := by
  obtain ⟨cmd, own⟩ := down.stamped e List.mem_cons_self
  refine ⟨cmd, own, { down with stamped := ?_, whole := ?_ }⟩
  · exact fun x inside => down.stamped x (List.mem_cons_of_mem e inside)
  · intro here
    have whole := down.whole here
    rw [List.cons_append, waiting_cons, if_pos own, List.append_nil, ← List.append_assoc] at whole
    exact whole

private theorem Down.send (down : Down n true unsent es hand rx tx) (k : Nat) :
    Down n true (unsent.drop k) es hand rx (extend tx n (unsent.take k)) := by
  have sent : extend tx n (unsent.take k) n ++ unsent.drop k ++ waiting n (es ++ hand) = rx n := by
    rw [extend_apply, if_pos rfl, List.append_assoc (tx n), List.take_append_drop, down.whole rfl]
  refine { down with whole := fun _ => sent, future := fun j later => ?_, order := fun j => ?_ }
  · rw [extend_apply, if_neg (Nat.ne_of_lt later), List.append_nil]
    exact down.future j later
  · by_cases own : n = j
    · subst own
      rw [← sent, List.append_assoc]
      exact List.prefix_append _ _
    · rw [extend_apply, if_neg own, List.append_nil]
      exact down.order j

private theorem Down.receive {c : Nat} (down : Down n opened unsent es [] rx tx) (known : c ≤ n)
    (buf : List UInt8) : Down n opened unsent es [⟨.cToS, c, buf⟩] (extend rx c buf) tx := by
  refine ⟨down.stamped, ?_, ?_, ?_, prefix_extend down.order c buf⟩
  · simp only [List.mem_singleton, forall_eq]
    exact ⟨trivial, known⟩
  · intro here
    have whole := down.whole here
    rw [List.append_nil] at whole
    rw [waiting_append, ← List.append_assoc, whole, waiting_cons, waiting_nil, List.append_nil,
      extend_apply]
  · intro k later
    rw [extend_apply, if_neg (by omega), List.append_nil]
    exact down.future k later

private theorem Down.push {e : Entry} (down : Down n opened unsent es [e] rx tx)
    (own : e.session = n) :
    Down n opened unsent (es ++ [e]) [] rx tx := by
  refine ⟨?_, nofun, ?_, down.future, down.order⟩
  · intro x inside
    rcases List.mem_append.mp inside with old | new
    · exact down.stamped x old
    · obtain rfl := List.mem_singleton.mp new
      exact ⟨(down.known x new).1, own⟩
  · rw [List.append_nil]
    exact down.whole

end

def State.place (s : State) : Place :=
  match s.task with
  | .accept => .before (s.session + 1)
  | .announce => .before s.session
  | _ => .within s.session

def Task.reserves : Task → Bool
  | .receive | .pushing _ => true
  | _ => false

def Client.reserves : Client → Bool
  | .pushing _ => true
  | _ => false

def Task.origin : Task → Option Nat
  | .sending origin _ => some origin
  | _ => none

def Client.origin : Client → Option Nat
  | .sending origin _ => some origin
  | _ => none

structure Law (s : State) : Prop where
  rValid : s.rQ.Valid
  tValid : s.tQ.Valid
  upRoom : s.task.reserves = true → s.rQ.isFull = false
  downRoom : s.client.reserves = true → s.tQ.isFull = false
  up : Up s.session s.place s.client.unsent s.chip.link s.upward s.seen.rxS s.seen.txC
  down : Down s.session s.task.isOpen s.task.unsent s.tQ.contents s.client.hand s.seen.rxC
    s.seen.txS
  delivered : ∀ d ∈ s.seen.delivered, d.1 = d.2
  taskOrigin : ∀ o, s.task.origin = some o → o = s.session
  clientOrigin : ∀ o c, s.client.origin = some o → s.chip.link = some c → o = c
  closedPass : s.client = .popClosed → s.chip = .closed

private theorem law_boot : Law boot where
  rValid := ⟨by decide, by decide⟩
  tValid := ⟨by decide, by decide⟩
  upRoom := nofun
  downRoom := nofun
  up := ⟨Nat.le_refl 1, ⟨.before 1, rfl, nofun, fun _ _ => ⟨rfl, rfl⟩⟩, fun _ => List.prefix_refl _⟩
  down := ⟨nofun, nofun, nofun, fun _ _ => ⟨rfl, rfl⟩, fun _ => List.prefix_refl _⟩
  delivered := nofun
  taskOrigin := nofun
  clientOrigin := nofun
  closedPass := nofun

private theorem delivered_append {ds es : List (Nat × Nat)} (old : ∀ d ∈ ds, d.1 = d.2)
    (new : ∀ d ∈ es, d.1 = d.2) : ∀ d ∈ ds ++ es, d.1 = d.2 :=
  fun d inside => (List.mem_append.mp inside).elim (old d) (new d)

private theorem Up.push_cmd {n : Nat} {last place : Place} {unsent : List UInt8} {link : Option Nat}
    {rx tx : Nat → List UInt8} {q : Ring} (up : Up n last unsent link (q.contents ++ []) rx tx)
    (valid : q.Valid) (room : q.isFull = false) {cmd : Cmd} {k : Nat}
    (next : Follows last ⟨cmd, k, []⟩ place) (bound : place.floor ≤ n + 1) :
    Up n place unsent link ((q.push ⟨cmd, k, []⟩).contents ++ []) rx tx := by
  have pushed := up.append next bound
  rw [extend_nil, List.append_nil] at pushed
  rw [List.append_nil, contents_push valid room]
  exact pushed

/-- ProxyTask keeps the law, as long as its commands find room and a session begins with an empty
queue. -/
private theorem law_server {s : State} (law : Law s) (io : Io) (quiet : Quiet s (.server io)) :
    Law (proxyTask s io) := by
  obtain ⟨rQ, tQ, task, n, client, chip, seen⟩ := s
  have up := law.up
  have down := law.down
  cases task with
  | accept =>
    have empty : tQ.contents = [] := contents_nil quiet
    have fresh : Down (n + 1) true [] tQ.contents client.hand seen.rxC seen.txS := by
      dsimp only at down
      rw [empty] at down ⊢
      exact down.accept
    exact { law with up := up.accept, down := fresh, upRoom := nofun, taskOrigin := nofun }
  | announce =>
    have pushed := up.push_cmd law.rValid quiet (.accept n) (Nat.le_refl (n + 1))
    exact { law with
      rValid := law.rValid.push _, up := pushed, down := down, upRoom := nofun,
      taskOrigin := nofun }
  | top =>
    unfold proxyTask isSvrQFull
    dsimp only
    split_ifs with full
    · exact { law with up := up, down := down, upRoom := nofun, taskOrigin := nofun }
    · exact { law with
        up := up, down := down, upRoom := fun _ => Bool.eq_false_iff.mpr full, taskOrigin := nofun }
  | receive =>
    unfold proxyTask
    dsimp only
    cases io.received with
    | none =>
      exact { law with up := up, down := down.close _, upRoom := nofun, taskOrigin := nofun }
    | some bs =>
      dsimp only
      split_ifs with nothing
      · exact { law with up := up, down := down, upRoom := nofun, taskOrigin := nofun }
      · have next := up.append (.data n (bs.take nProxyBuf)) (Nat.le_refl (n + 1))
        simp only [State.upward, Task.hand, List.append_nil] at next
        exact { law with
          up := next, down := down, upRoom := fun _ => law.upRoom rfl, taskOrigin := nofun }
  | pushing buf =>
    have pushed : Up n (.within n) client.unsent chip.link
        ((rQ.push ⟨.sToC, n, buf⟩).contents ++ []) seen.rxS seen.txC := by
      rw [List.append_nil, contents_push law.rValid (law.upRoom rfl)]
      exact up
    exact { law with
      rValid := law.rValid.push _, up := pushed, down := down, upRoom := nofun,
      taskOrigin := nofun }
  | popCli =>
    unfold proxyTask popCliData
    dsimp only
    rcases pop_cases tQ law.tValid with ⟨pop, -⟩ | ⟨e, rest, pop, valid, contents, room⟩
    · rw [pop]
      exact { law with up := up, down := down, upRoom := nofun, taskOrigin := nofun }
    · rw [pop]
      dsimp only at down
      rw [contents] at down
      obtain ⟨cmd, own, next⟩ := down.take
      simp only [Option.map_some, cmd]
      refine { law with
        tValid := valid, downRoom := fun _ => room, up := up, down := next, upRoom := nofun,
        taskOrigin := ?_ }
      rintro o ⟨⟩
      exact own
  | sending origin rest =>
    unfold proxyTask
    dsimp only
    have own : origin = n := law.taskOrigin origin rfl
    have one : ∀ d ∈ [(origin, n)], d.1 = d.2 := List.forall_mem_singleton.mpr own
    have mine := delivered_append law.delivered one
    have next := down.send io.sent
    split_ifs with done fails
    · have sent : Down n true [] tQ.contents client.hand seen.rxC seen.txS := by
        rw [← done]
        exact down
      exact { law with up := up, down := sent, upRoom := nofun, taskOrigin := nofun }
    · exact { law with
        up := up, down := next.close _, delivered := mine, upRoom := nofun, taskOrigin := nofun }
    · refine { law with
        up := up, down := next, delivered := mine, upRoom := nofun, taskOrigin := ?_ }
      rintro o ⟨⟩
      exact own
  | closing =>
    have pushed := up.push_cmd law.rValid quiet (.close n) (Nat.le_refl (n + 1))
    exact { law with
      rValid := law.rValid.push _, up := pushed, down := down, upRoom := nofun,
      taskOrigin := nofun }

private theorem link_of_online {chip : Chip} {c : Nat} (online : chip.online = some c) :
    chip.link = some c := by
  cases chip with
  | established d => exact online
  | closeWait d => exact online
  | closed => cases online
  | opening d => cases online
  | ending => cases online

private theorem law_client {s : State} (law : Law s) (io : Io) (quiet : Quiet s (.client io)) :
    Law (proxyClient s io) := by
  obtain ⟨rQ, tQ, task, n, client, chip, seen⟩ := s
  have up := law.up
  have down := law.down
  cases client with
  | look =>
    cases chip with
    | closed =>
      exact { law with downRoom := nofun, clientOrigin := nofun, closedPass := fun _ => rfl }
    | opening c => exact law
    | established c =>
      exact { law with downRoom := nofun, clientOrigin := nofun, closedPass := nofun }
    | closeWait c =>
      exact { law with
        up := up.drop _, downRoom := nofun, clientOrigin := nofun, closedPass := nofun }
    | ending => exact { law with downRoom := nofun, clientOrigin := nofun, closedPass := nofun }
  | popClosed =>
    obtain rfl : chip = .closed := law.closedPass rfl
    unfold proxyClient popSvrData
    dsimp only
    rcases pop_cases rQ law.rValid with ⟨pop, -⟩ | ⟨e, rest, pop, valid, contents, room⟩
    · rw [pop]
      exact { law with downRoom := nofun, clientOrigin := nofun, closedPass := nofun }
    · rw [pop]
      simp only [State.upward] at up
      rw [contents] at up
      simp only [Option.map_some]
      split_ifs with accept
      · exact { law with
          rValid := valid, up := up.take_accept accept, upRoom := fun _ => room, downRoom := nofun,
          clientOrigin := nofun, closedPass := nofun }
      · exact { law with
          rValid := valid, up := up.take_idle _, upRoom := fun _ => room, downRoom := nofun,
          clientOrigin := nofun, closedPass := nofun }
  | popOpen =>
    unfold proxyClient popSvrData
    dsimp only
    rcases pop_cases rQ law.rValid with ⟨pop, -⟩ | ⟨e, rest, pop, valid, contents, room⟩
    · rw [pop]
      exact { law with downRoom := nofun, clientOrigin := nofun, closedPass := nofun }
    · rw [pop]
      simp only [State.upward] at up
      rw [contents] at up
      simp only [Option.map_some]
      cases cmd : e.cmd with
      | sToC =>
        obtain ⟨next, own⟩ := up.take_data cmd
        refine { law with
          rValid := valid, up := next, upRoom := fun _ => room, downRoom := nofun,
          clientOrigin := ?_, closedPass := nofun }
        rintro o c ⟨⟩ linked
        exact own c linked
      | close =>
        obtain ⟨next, own⟩ := up.take_close cmd []
        have mine : ∀ d ∈ (chip.online.map fun c => (e.session, c)).toList, d.1 = d.2 := by
          intro d inside
          obtain ⟨c, online, rfl⟩ := Option.map_eq_some_iff.mp (Option.mem_toList.mp inside)
          exact own c (link_of_online online)
        exact { law with
          rValid := valid, up := next, upRoom := fun _ => room, downRoom := nofun,
          delivered := delivered_append law.delivered mine, clientOrigin := nofun,
          closedPass := nofun }
      | zero | accept | cToS =>
        have next := up.take_other (by simp [cmd]) (by simp [cmd])
        exact { law with
          rValid := valid, up := next, upRoom := fun _ => room, downRoom := nofun,
          clientOrigin := nofun, closedPass := nofun }
  | sending origin rest =>
    unfold proxyClient
    dsimp only
    split_ifs with done
    · have sent : Up n (State.place ⟨rQ, tQ, task, n, .receive, chip, seen⟩) [] chip.link
          (rQ.contents ++ task.hand n) seen.rxS seen.txC := by
        rw [← done]
        exact up
      exact { law with up := sent, downRoom := nofun, clientOrigin := nofun, closedPass := nofun }
    · cases online : chip.online with
      | none =>
        exact { law with downRoom := nofun, clientOrigin := nofun, closedPass := nofun }
      | some c =>
        have linked := link_of_online online
        have own : origin = c := law.clientOrigin origin c rfl linked
        have one : ∀ d ∈ [(origin, c)], d.1 = d.2 := List.forall_mem_singleton.mpr own
        cases io.fails with
        | true =>
          exact { law with
            up := up.drop _, downRoom := nofun, clientOrigin := nofun, closedPass := nofun }
        | false =>
          refine { law with
            up := up.send linked io.sent, delivered := delivered_append law.delivered one,
            downRoom := nofun, clientOrigin := ?_, closedPass := nofun }
          rintro o d ⟨⟩ other
          exact law.clientOrigin origin d rfl other
  | stuck rest => exact law
  | receive =>
    unfold proxyClient isCliQFull
    dsimp only
    cases online : chip.online with
    | none => exact { law with downRoom := nofun, clientOrigin := nofun, closedPass := nofun }
    | some c =>
      cases io.received with
      | none => exact { law with downRoom := nofun, clientOrigin := nofun, closedPass := nofun }
      | some bs =>
        dsimp only
        split_ifs with room
        · have known : c ≤ n := up.link_le (link_of_online online)
          exact { law with
            down := down.receive known _, downRoom := fun _ => room.1, clientOrigin := nofun,
            closedPass := nofun }
        · exact { law with downRoom := nofun, clientOrigin := nofun, closedPass := nofun }
  | pushing e =>
    have pushed : Down n task.isOpen task.unsent (tQ.push e).contents [] seen.rxC seen.txS := by
      rw [contents_push law.tValid (law.downRoom rfl)]
      exact down.push quiet
    exact { law with
      tValid := law.tValid.push e, down := pushed, downRoom := nofun, clientOrigin := nofun,
      closedPass := nofun }

private theorem law_chip {s : State} (law : Law s) (c : Change) :
    Law { s with chip := chipStep s.chip c } := by
  have kept : chipStep s.chip c = .closed ∨ (chipStep s.chip c).link = s.chip.link ∧
      (s.chip = .closed → chipStep s.chip c = .closed) := by
    cases s.chip <;> cases c <;> simp [chipStep, Chip.link]
  rcases kept with gone | ⟨link, closed⟩
  · rw [gone]
    exact { law with up := law.up.drop _, clientOrigin := nofun, closedPass := fun _ => rfl }
  · have up := law.up
    rw [← link] at up
    refine { law with up := up, clientOrigin := ?_, closedPass := closed ∘ law.closedPass }
    intro o d here linked
    exact law.clientOrigin o d here (link ▸ linked)

private theorem law_step (s : State) (e : Event) (law : Law s) (quiet : Quiet s e) :
    Law (step s e) := by
  cases e with
  | server io => exact law_server law io quiet
  | client io => exact law_client law io quiet
  | chip c => exact law_chip law c

private theorem Law.right {s : State} (law : Law s) : Right s where
  own := law.delivered
  upOrder := law.up.order
  downOrder := law.down.order
  upWhole opened := law.up.whole opened.2
  downWhole opened := law.down.whole opened.1

/-- In every run whose steps are quiet, whatever the sockets do and however the tasks take turns. -/
theorem right_run_of_quiet (es : List Event) (quiet : Along step Quiet boot es) :
    Right (run step boot es) :=
  (invariant_run law_step law_boot quiet).right

instance (s : State) : ∀ t, Decidable (Task.Quiet s t)
  | .accept | .announce | .closing => inferInstanceAs (Decidable (_ = _))
  | .top | .receive | .pushing _ | .popCli | .sending _ _ => .isTrue trivial

instance (s : State) : ∀ c, Decidable (Client.Quiet s c)
  | .pushing _ => inferInstanceAs (Decidable (_ = _))
  | .look | .popClosed | .popOpen | .sending _ _ | .stuck _ | .receive => .isTrue trivial

instance (s : State) : ∀ e, Decidable (Quiet s e)
  | .server _ => inferInstanceAs (Decidable (s.task.Quiet s))
  | .client _ => inferInstanceAs (Decidable (s.client.Quiet s))
  | .chip _ => .isTrue trivial

instance (s : State) : Decidable s.isOpen := inferInstanceAs (Decidable (_ ∧ _))

def still : Io := ⟨some [], 0, false⟩

def gets (bs : List UInt8) : Io := ⟨some bs, 0, false⟩

def sends (n : Nat) : Io := ⟨some [], n, false⟩

/-- A client is accepted and the W5500 is connected for it. -/
def connect : List Event :=
  [.server still, .server still, .client still, .client still, .chip .up]

/-- Two bytes go up, the second after the first, and one comes down. -/
def exchange : List Event :=
  connect ++ [.server still, .server (gets [1, 2]), .server still, .client still, .client still,
    .client (sends 1), .client (sends 1), .client still, .client (gets [3]), .client still,
    .server still, .server (sends 1)]

/-- The client leaves with a byte waiting for it, and another one comes. -/
def leftover : List Event :=
  connect ++ [.client still, .client still, .client (gets [65]), .client still, .server still,
    .server ⟨none, 0, false⟩, .server still, .server still, .server still, .server still,
    .server still, .server still, .server (sends 1)]

theorem exchange_right : Right (run step boot exchange) ∧ (run step boot exchange).isOpen ∧
    (run step boot exchange).seen.txC 1 = [1, 2] ∧ (run step boot exchange).seen.txS 1 = [3] :=
  ⟨right_run_of_quiet exchange (by decide), by decide, by decide, by decide⟩

theorem leftover_not_right : ¬ Right (run step boot leftover) := by
  intro right
  have crossed : (1, 2) ∈ (run step boot leftover).seen.delivered := by decide
  exact absurd (right.own _ crossed) (by decide)

end SV300.Proxy
