/- SV300/Modbus/CmdQueue
   digest: The command queue step by step, with any number of producers and one consumer. -/

import SV300.Library.BoundedQueue
import SV300.Library.Runs
import SV300.Modbus.Map

set_option autoImplicit false
set_option relaxedAutoImplicit false

namespace SV300.Modbus.CmdQueue

open SV300.Library.BoundedQueue SV300.Library.Runs SV300.Modbus.Map

abbrev Cmd := Nat × UInt16

/-- A call of putCmdQ: each of its three statements loads `fr` before it stores. -/
inductive Put
  | begin (x : Cmd)
  | storeS (x : Cmd) (ix : Nat)
  | mid (x : Cmd)
  | storeC (x : Cmd) (ix : Nat)
  | last (x : Cmd)
  | advance (x : Cmd) (ix : Nat)
  | notify
  deriving DecidableEq

/-- CmdProc_Task: it waits for the event, then runs cmdProc until the queue is empty. -/
inductive Get
  | wait
  | test
  | checked
  | gotS (s : Nat)
  | gotC (x : Cmd)
  | again
  deriving DecidableEq

/-- The queue, the calls in progress, the consumer and its event, and what has been accepted and
delivered so far. -/
structure Sys (ι : Type) where
  item : Nat → Cmd
  fr : Nat
  re : Nat
  calls : ι → Option Put
  get : Get
  flag : Bool
  accepted : List Cmd
  delivered : List Cmd

inductive Event (ι : Type)
  | put (i : ι) (x : Cmd)
  | step (i : ι)
  | get

variable {ι : Type}

section Machine

variable [DecidableEq ι]

def Sys.setCall (o : Sys ι) (i : ι) (p : Option Put) : Sys ι :=
  { o with calls := Function.update o.calls i p }

def stepPut (o : Sys ι) (i : ι) : Sys ι :=
  match o.calls i with
  | none => o
  | some (.begin x) => o.setCall i (some (.storeS x o.fr))
  | some (.storeS x ix) =>
    { o.setCall i (some (.mid x)) with
      item := Function.update o.item ix (x.1, (o.item ix).2) }
  | some (.mid x) => o.setCall i (some (.storeC x o.fr))
  | some (.storeC x ix) =>
    { o.setCall i (some (.last x)) with
      item := Function.update o.item ix ((o.item ix).1, x.2) }
  | some (.last x) => o.setCall i (some (.advance x o.fr))
  | some (.advance x ix) =>
    { o.setCall i (some .notify) with
      fr := (ix + 1) % nCmdQ
      accepted := o.accepted ++ [x] }
  | some .notify => { o.setCall i none with flag := true }

def stepGet (o : Sys ι) : Sys ι :=
  match o.get with
  | .wait => if o.flag then { o with flag := false, get := .test } else o
  | .test => { o with get := if o.fr = o.re then .again else .checked }
  | .checked => { o with get := .gotS (o.item o.re).1 }
  | .gotS s => { o with get := .gotC (s, (o.item o.re).2) }
  | .gotC x =>
    { o with
      re := (o.re + 1) % nCmdQ
      delivered := o.delivered ++ [x]
      get := .again }
  | .again => { o with get := if o.fr = o.re then .wait else .test }

def record (o : Sys ι) : Event ι → Sys ι
  | .put i x => if o.calls i = none then o.setCall i (some (.begin x)) else o
  | .step i => stepPut o i
  | .get => stepGet o

/-- `n` steps of the consumer alone. -/
def gets (o : Sys ι) (n : Nat) : Sys ι := run record o (List.replicate n .get)

/-- The consumer delivers what was accepted, in order and each once, and all of it unless a call has
yet to set the event. -/
structure Exact (o : Sys ι) : Prop where
  ordered : ∀ n, (gets o n).delivered <+: o.accepted
  complete : (∀ i, o.calls i ≠ some .notify) → ∃ n, (gets o n).delivered = o.accepted

end Machine

/-- Between the first load of the index and the store of the new one. -/
def Put.inside : Put → Bool
  | .begin _ | .notify => false
  | _ => true

/-- The consumer has found the queue non-empty and not moved on. -/
def Get.fetching : Get → Bool
  | .checked | .gotS _ | .gotC _ => true
  | _ => false

/-- Where the consumer reads the next command it has not begun to fetch. -/
def Sys.next (o : Sys ι) : Nat := if o.get.fetching then wrap nCmdQ (o.re + 1) else o.re

/-- One call at a time between its load and its store of the index, never onto a slot being
fetched, and never past the last free slot. -/
def Quiet (o : Sys ι) : Event ι → Prop
  | .step i =>
    match o.calls i with
    | some (.begin _) => ∀ j, ∀ p ∈ o.calls j, p.inside = false
    | some (.storeS _ _) => o.get = .checked → o.fr ≠ o.re
    | some (.storeC _ _) => (o.get = .checked ∨ ∃ s, o.get = .gotS s) → o.fr ≠ o.re
    | some (.advance _ _) => wrap nCmdQ (o.fr + 1) ≠ o.next
    | _ => True
  | _ => True

/-- What a call has stored so far is in the slot at `fr`. -/
def Held (o : Sys ι) : Put → Prop
  | .storeS _ ix => ix = o.fr
  | .mid x => (o.item o.fr).1 = x.1
  | .storeC x ix => ix = o.fr ∧ (o.item o.fr).1 = x.1
  | .last x => o.item o.fr = x
  | .advance x ix => ix = o.fr ∧ o.item o.fr = x
  | _ => True

/-- The command being fetched, of which the consumer holds what it has read. -/
def Sys.fetched (o : Sys ι) : List Cmd :=
  match o.get with
  | .checked => [o.item o.re]
  | .gotS s => [(s, (o.item o.re).2)]
  | .gotC x => [x]
  | _ => []

def Sys.undelivered (o : Sys ι) : List Cmd := o.fetched ++ pending nCmdQ o.item o.fr o.next

structure Inv (o : Sys ι) : Prop where
  fr_lt : o.fr < nCmdQ
  re_lt : o.re < nCmdQ
  alone : ∀ i j, ∀ p ∈ o.calls i, ∀ q ∈ o.calls j, p.inside = true → q.inside = true → i = j
  held : ∀ i, ∀ p ∈ o.calls i, Held o p
  seen : o.accepted = o.delivered ++ o.undelivered
  woken : o.get = .wait → o.fr = o.re ∨ o.flag = true ∨ ∃ i, o.calls i = some .notify

private theorem next_lt {o : Sys ι} (inv : Inv o) : o.next < nCmdQ := by
  have lt := inv.re_lt
  unfold Sys.next wrap
  split_ifs <;> omega

private theorem mod_eq_wrap {i : Nat} (lt : i < nCmdQ) : (i + 1) % nCmdQ = wrap nCmdQ (i + 1) := by
  change i < 8 at lt
  change (i + 1) % 8 = if i + 1 < 8 then i + 1 else i + 1 - 8
  split_ifs <;> omega

private theorem held_of_outside (o : Sys ι) {p : Put} (outside : p.inside = false) : Held o p := by
  cases p <;> trivial

private theorem Inv.others {o : Sys ι} (inv : Inv o) {i : ι} {p : Put} (here : o.calls i = some p)
    (inside : p.inside = true) : ∀ j, j ≠ i → ∀ q ∈ o.calls j, q.inside = false := by
  intro j differ q there
  by_contra other
  exact differ (inv.alone j i q there p here (by simpa using other) inside)

theorem Inv.store {o : Sys ι} (inv : Inv o) {i : ι} {p : Put} (here : o.calls i = some p)
    (inside : p.inside = true) {y : Cmd}
    (same : Sys.fetched { o with item := Function.update o.item o.fr y } = o.fetched)
    (holds : Held { o with item := Function.update o.item o.fr y } p) :
    Inv { o with item := Function.update o.item o.fr y } where
  fr_lt := inv.fr_lt
  re_lt := inv.re_lt
  alone := inv.alone
  held := by
    intro j q there
    by_cases differ : j = i
    · subst differ
      obtain rfl : p = q := Option.some.inj (here.symm.trans there)
      exact holds
    · exact held_of_outside _ (inv.others here inside j differ q there)
  seen := by
    rw [Sys.undelivered, same]
    change o.accepted = o.delivered ++ (o.fetched ++
      pending nCmdQ (Function.update o.item o.fr y) o.fr o.next)
    rw [pending_free o.item (next_lt inv)]
    exact inv.seen
  woken := inv.woken

section Producers

variable [DecidableEq ι]

private theorem Inv.setCall {o : Sys ι} (inv : Inv o) {i : ι} {p : Put}
    (single : p.inside = true → ∀ j, j ≠ i → ∀ q ∈ o.calls j, q.inside = false)
    (holds : Held o p) (still : o.calls i ≠ some .notify) : Inv (o.setCall i (some p)) where
  fr_lt := inv.fr_lt
  re_lt := inv.re_lt
  alone := by
    intro a b q at_a r at_b inside_q inside_r
    simp only [Sys.setCall, Function.update_apply] at at_a at_b
    split_ifs at at_a at_b with here_a here_b here_b
    · exact here_a.trans here_b.symm
    · cases at_a
      rw [single inside_q b here_b r at_b] at inside_r
      cases inside_r
    · cases at_b
      rw [single inside_r a here_a q at_a] at inside_q
      cases inside_q
    · exact inv.alone a b q at_a r at_b inside_q inside_r
  held := by
    intro j q there
    simp only [Sys.setCall, Function.update_apply] at there
    split_ifs at there
    · cases there
      exact holds
    · exact inv.held j q there
  seen := inv.seen
  woken := by
    intro waiting
    rcases inv.woken waiting with empty | flag | ⟨j, there⟩
    · exact .inl empty
    · exact .inr (.inl flag)
    · refine .inr (.inr ⟨j, ?_⟩)
      have differ : j ≠ i := fun same => still (same ▸ there)
      exact (Function.update_of_ne differ ..).trans there

private theorem inv_storeS {o : Sys ι} (inv : Inv o) {i : ι} {x : Cmd} {ix : Nat}
    (here : o.calls i = some (.storeS x ix)) (quiet : o.get = .checked → o.fr ≠ o.re) :
    Inv (stepPut o i) := by
  have slot : ix = o.fr := inv.held i _ here
  subst slot
  have stepped : stepPut o i =
      Sys.setCall { o with item := Function.update o.item o.fr (x.1, (o.item o.fr).2) } i
        (some (.mid x)) := by
    simp only [stepPut, here]
    rfl
  rw [stepped]
  have stored : Inv { o with item := Function.update o.item o.fr (x.1, (o.item o.fr).2) } := by
    apply inv.store here rfl _ rfl
    cases get : o.get <;> simp only [Sys.fetched, get]
    case checked => rw [Function.update_of_ne (quiet get).symm]
    case gotS s =>
      by_cases full : o.re = o.fr
      · rw [full, Function.update_self]
      · rw [Function.update_of_ne full]
  apply stored.setCall
  · exact fun _ => inv.others here rfl
  · change (Function.update o.item o.fr (x.1, (o.item o.fr).2) o.fr).1 = x.1
    rw [Function.update_self]
  · rw [here]
    nofun

private theorem inv_storeC {o : Sys ι} (inv : Inv o) {i : ι} {x : Cmd} {ix : Nat}
    (here : o.calls i = some (.storeC x ix))
    (quiet : (o.get = .checked ∨ ∃ s, o.get = .gotS s) → o.fr ≠ o.re) : Inv (stepPut o i) := by
  obtain ⟨slot, first⟩ : ix = o.fr ∧ (o.item o.fr).1 = x.1 := inv.held i _ here
  subst slot
  have stepped : stepPut o i =
      Sys.setCall { o with item := Function.update o.item o.fr ((o.item o.fr).1, x.2) } i
        (some (.last x)) := by
    simp only [stepPut, here]
    rfl
  rw [stepped]
  have stored : Inv { o with item := Function.update o.item o.fr ((o.item o.fr).1, x.2) } := by
    apply inv.store here rfl
    · cases get : o.get <;> simp only [Sys.fetched, get]
      case checked => rw [Function.update_of_ne (quiet (.inl get)).symm]
      case gotS s => rw [Function.update_of_ne (quiet (.inr ⟨s, get⟩)).symm]
    · refine ⟨rfl, ?_⟩
      change (Function.update o.item o.fr ((o.item o.fr).1, x.2) o.fr).1 = x.1
      rw [Function.update_self]
      exact first
  apply stored.setCall
  · exact fun _ => inv.others here rfl
  · change Function.update o.item o.fr ((o.item o.fr).1, x.2) o.fr = x
    rw [Function.update_self, first]
  · rw [here]
    nofun

private theorem inv_advance {o : Sys ι} (inv : Inv o) {i : ι} {x : Cmd} {ix : Nat}
    (here : o.calls i = some (.advance x ix)) (room : wrap nCmdQ (o.fr + 1) ≠ o.next) :
    Inv (stepPut o i) := by
  obtain ⟨slot, entry⟩ : ix = o.fr ∧ o.item o.fr = x := inv.held i _ here
  subst slot
  have outside := inv.others here rfl
  have grown : pending nCmdQ o.item (wrap nCmdQ (o.fr + 1)) o.next =
      pending nCmdQ o.item o.fr o.next ++ [x] := by
    have put := pending_put o.item inv.fr_lt (next_lt inv) room (o.item o.fr)
    rwa [Function.update_eq_self, entry] at put
  have stepped : stepPut o i = { o.setCall i (some .notify) with
      fr := (o.fr + 1) % nCmdQ
      accepted := o.accepted ++ [x] } := by
    simp only [stepPut, here]
  rw [stepped]
  constructor
  · exact Nat.mod_lt _ (by decide)
  · exact inv.re_lt
  · intro a b q at_a r at_b inside_q inside_r
    simp only [Sys.setCall, Function.update_apply] at at_a at_b
    split_ifs at at_a with here_a
    · cases at_a
      cases inside_q
    · rw [outside a here_a q at_a] at inside_q
      cases inside_q
  · intro j q there
    simp only [Sys.setCall, Function.update_apply] at there
    split_ifs at there with same
    · cases there
      trivial
    · exact held_of_outside _ (outside j same q there)
  · change o.accepted ++ [x] = o.delivered ++ (o.fetched ++
      pending nCmdQ o.item ((o.fr + 1) % nCmdQ) o.next)
    rw [mod_eq_wrap inv.fr_lt, grown, inv.seen, Sys.undelivered]
    simp only [List.append_assoc]
  · intro _
    refine .inr (.inr ⟨i, ?_⟩)
    change Function.update o.calls i (some .notify) i = some .notify
    rw [Function.update_self]

private theorem inv_notify {o : Sys ι} (inv : Inv o) {i : ι} (here : o.calls i = some .notify) :
    Inv (stepPut o i) := by
  have stepped : stepPut o i = { o.setCall i none with flag := true } := by
    simp only [stepPut, here]
  rw [stepped]
  constructor
  · exact inv.fr_lt
  · exact inv.re_lt
  · intro a b q at_a r at_b
    simp only [Sys.setCall, Function.update_apply] at at_a at_b
    split_ifs at at_a at_b
    · cases at_a
    · cases at_a
    · cases at_b
    · exact inv.alone a b q at_a r at_b
  · intro j q there
    simp only [Sys.setCall, Function.update_apply] at there
    split_ifs at there
    · cases there
    · exact inv.held j q there
  · exact inv.seen
  · exact fun _ => .inr (.inl rfl)

private theorem inv_stepPut {o : Sys ι} (inv : Inv o) {i : ι} (quiet : Quiet o (.step i)) :
    Inv (stepPut o i) := by
  cases here : o.calls i with
  | none =>
    have stepped : stepPut o i = o := by simp only [stepPut, here]
    rwa [stepped]
  | some p =>
    simp only [Quiet, here] at quiet
    cases p with
    | begin x =>
      simp only [stepPut, here]
      refine inv.setCall ?_ ?_ (by rw [here]; nofun)
      · exact fun _ j _ => quiet j
      · rfl
    | storeS x ix => exact inv_storeS inv here quiet
    | mid x =>
      simp only [stepPut, here]
      refine inv.setCall ?_ ?_ (by rw [here]; nofun)
      · exact fun _ => inv.others here rfl
      · exact ⟨rfl, inv.held i _ here⟩
    | storeC x ix => exact inv_storeC inv here quiet
    | last x =>
      simp only [stepPut, here]
      refine inv.setCall ?_ ?_ (by rw [here]; nofun)
      · exact fun _ => inv.others here rfl
      · exact ⟨rfl, inv.held i _ here⟩
    | advance x ix => exact inv_advance inv here quiet
    | notify => exact inv_notify inv here

end Producers

private theorem stepGet_seen {o : Sys ι} (inv : Inv o) :
    (stepGet o).delivered ++ (stepGet o).undelivered = o.delivered ++ o.undelivered := by
  cases get : o.get with
  | wait =>
    simp only [stepGet, get]
    split_ifs
    · simp only [Sys.undelivered, Sys.fetched, Sys.next, get]
      rfl
    · rfl
  | test =>
    simp only [stepGet, get]
    split_ifs with empty
    · simp only [Sys.undelivered, Sys.fetched, Sys.next, get]
      rfl
    · have taken : o.delivered ++ o.undelivered = o.delivered ++
          o.item o.re :: pending nCmdQ o.item o.fr (wrap nCmdQ (o.re + 1)) := by
        rw [← pending_take o.item inv.fr_lt inv.re_lt empty]
        simp only [Sys.undelivered, Sys.fetched, Sys.next, get]
        rfl
      exact taken.symm
  | checked => simp only [stepGet, get, Sys.undelivered, Sys.fetched, Sys.next, Get.fetching]
  | gotS s => simp only [stepGet, get, Sys.undelivered, Sys.fetched, Sys.next, Get.fetching]
  | gotC x =>
    simp only [stepGet, get, Sys.undelivered, Sys.fetched, Sys.next, Get.fetching, if_pos,
      mod_eq_wrap inv.re_lt, List.append_assoc]
    rfl
  | again =>
    simp only [stepGet, get]
    split_ifs
    all_goals
      simp only [Sys.undelivered, Sys.fetched, Sys.next, get]
      rfl

@[simp] theorem stepGet_calls (o : Sys ι) : (stepGet o).calls = o.calls := by
  unfold stepGet
  split
  · split_ifs <;> rfl
  all_goals rfl

@[simp] theorem stepGet_item (o : Sys ι) : (stepGet o).item = o.item := by
  unfold stepGet
  split
  · split_ifs <;> rfl
  all_goals rfl

@[simp] theorem stepGet_fr (o : Sys ι) : (stepGet o).fr = o.fr := by
  unfold stepGet
  split
  · split_ifs <;> rfl
  all_goals rfl

@[simp] theorem stepGet_accepted (o : Sys ι) : (stepGet o).accepted = o.accepted := by
  unfold stepGet
  split
  · split_ifs <;> rfl
  all_goals rfl

private theorem held_stepGet {o : Sys ι} {p : Put} (holds : Held o p) : Held (stepGet o) p := by
  cases p <;> simp only [Held, stepGet_item, stepGet_fr] <;> exact holds

private theorem stepGet_re_lt {o : Sys ι} (inv : Inv o) : (stepGet o).re < nCmdQ := by
  have lt := inv.re_lt
  unfold stepGet
  split
  · split_ifs <;> exact lt
  case _ => exact lt
  case _ => exact lt
  case _ => exact lt
  case _ => exact Nat.mod_lt _ (by decide)
  case _ => exact lt

private theorem stepGet_woken {o : Sys ι} (inv : Inv o) (waiting : (stepGet o).get = .wait) :
    (stepGet o).fr = (stepGet o).re ∨ (stepGet o).flag = true ∨
      ∃ i, (stepGet o).calls i = some .notify := by
  cases get : o.get with
  | wait =>
    have woken := inv.woken get
    simp only [stepGet, get] at waiting ⊢
    split_ifs at waiting ⊢
    exact woken
  | again =>
    simp only [stepGet, get] at waiting ⊢
    split_ifs at waiting with empty
    exact .inl empty
  | test =>
    simp only [stepGet, get] at waiting
    split_ifs at waiting
  | checked => simp only [stepGet, get, reduceCtorEq] at waiting
  | gotS s => simp only [stepGet, get, reduceCtorEq] at waiting
  | gotC x => simp only [stepGet, get, reduceCtorEq] at waiting

private theorem inv_stepGet {o : Sys ι} (inv : Inv o) : Inv (stepGet o) where
  fr_lt := by simpa using inv.fr_lt
  re_lt := stepGet_re_lt inv
  alone := by simpa using inv.alone
  held := by
    intro i p there
    rw [stepGet_calls] at there
    exact held_stepGet (inv.held i p there)
  seen := by
    rw [stepGet_seen inv, stepGet_accepted]
    exact inv.seen
  woken := stepGet_woken inv

/-- The steps of the consumer up to the delivery of the command it is at. -/
def Get.rank : Get → Nat
  | .wait | .again => 5
  | .test => 4
  | .checked => 3
  | .gotS _ => 2
  | .gotC _ => 1

/-- A bound on the steps of the consumer until all is delivered. -/
def Sys.togo (o : Sys ι) : Nat := 6 * o.undelivered.length + o.get.rank

private theorem undelivered_eq_nil {o : Sys ι} (idle : o.get.fetching = false)
    (empty : o.fr = o.re) :
    o.undelivered = [] := by
  have next : o.next = o.re := by
    rw [Sys.next, idle]
    rfl
  have fetched : o.fetched = [] := by
    unfold Sys.fetched
    split <;> simp_all [Get.fetching]
  rw [Sys.undelivered, next, fetched, empty, pending_empty]
  rfl

private theorem togo_decreases {o : Sys ι} (inv : Inv o) (set : ∀ i, o.calls i ≠ some .notify)
    (left : o.undelivered ≠ []) : (stepGet o).togo < o.togo := by
  have lengths := congrArg List.length (stepGet_seen inv)
  rw [List.length_append, List.length_append] at lengths
  have busy : o.get.fetching = false → o.fr ≠ o.re :=
    fun idle empty => left (undelivered_eq_nil idle empty)
  unfold Sys.togo
  cases get : o.get with
  | wait =>
    have flag : o.flag = true := by
      rcases inv.woken get with empty | flag | ⟨i, there⟩
      · exact absurd empty (busy (by rw [get]; rfl))
      · exact flag
      · exact absurd there (set i)
    have stepped : stepGet o = { o with flag := false, get := .test } := by
      simp only [stepGet, get, flag, if_true]
    rw [stepped] at lengths ⊢
    simp only [Get.rank] at lengths ⊢
    omega
  | test =>
    have stepped : stepGet o = { o with get := .checked } := by
      simp only [stepGet, get, if_neg (busy (by rw [get]; rfl))]
    rw [stepped] at lengths ⊢
    simp only [Get.rank] at lengths ⊢
    omega
  | checked =>
    simp only [stepGet, get, Get.rank] at lengths ⊢
    omega
  | gotS s =>
    simp only [stepGet, get, Get.rank] at lengths ⊢
    omega
  | gotC x =>
    simp only [stepGet, get, Get.rank, List.length_append, List.length_singleton] at lengths ⊢
    omega
  | again =>
    have stepped : stepGet o = { o with get := .test } := by
      simp only [stepGet, get, if_neg (busy (by rw [get]; rfl))]
    rw [stepped] at lengths ⊢
    simp only [Get.rank] at lengths ⊢
    omega

/-- The queue empty at slot `k`, its slots holding anything, no call begun. -/
def blank (item : Nat → Cmd) (k : Fin nCmdQ) : Sys ι where
  item := item
  fr := k
  re := k
  calls := fun _ => none
  get := .wait
  flag := false
  accepted := []
  delivered := []

private theorem inv_blank (item : Nat → Cmd) (k : Fin nCmdQ) : Inv (blank item k : Sys ι) where
  fr_lt := k.isLt
  re_lt := k.isLt
  alone := nofun
  held := nofun
  seen := (@pending_empty _ nCmdQ k item).symm
  woken := fun _ => .inl rfl

variable [DecidableEq ι]

private theorem inv_put {o : Sys ι} (inv : Inv o) (i : ι) (x : Cmd) :
    Inv (record o (.put i x)) := by
  simp only [record]
  split_ifs with free
  · refine inv.setCall ?_ trivial (by rw [free]; nofun)
    intro inside
    cases inside
  · exact inv

private theorem inv_record {o : Sys ι} (inv : Inv o) {e : Event ι} (quiet : Quiet o e) :
    Inv (record o e) := by
  cases e with
  | put i x => exact inv_put inv i x
  | step i => exact inv_stepPut inv quiet
  | get => exact inv_stepGet inv

private theorem inv_gets {o : Sys ι} (inv : Inv o) (n : Nat) : Inv (gets o n) := by
  induction n generalizing o with
  | zero => exact inv
  | succ n ih => exact ih (inv_stepGet inv)

private theorem gets_accepted (o : Sys ι) (n : Nat) : (gets o n).accepted = o.accepted := by
  induction n generalizing o with
  | zero => rfl
  | succ n ih => exact (ih (stepGet o)).trans (stepGet_accepted o)

private theorem gets_complete {o : Sys ι} (inv : Inv o) (set : ∀ i, o.calls i ≠ some .notify) :
    ∃ n, (gets o n).delivered = o.accepted := by
  induction size : o.togo using Nat.strongRecOn generalizing o with
  | _ size ih =>
    by_cases left : o.undelivered = []
    · refine ⟨0, ?_⟩
      change o.delivered = o.accepted
      rw [inv.seen, left, List.append_nil]
    · have less := togo_decreases inv set left
      obtain ⟨n, all⟩ := ih _ (size ▸ less) (inv_stepGet inv) (by simpa using set) rfl
      exact ⟨n + 1, all.trans (stepGet_accepted o)⟩

private theorem exact_of_inv {o : Sys ι} (inv : Inv o) : Exact o where
  ordered := by
    intro n
    have seen := (inv_gets inv n).seen
    rw [gets_accepted] at seen
    exact ⟨_, seen.symm⟩
  complete := gets_complete inv

/-- A call that nothing interrupts does what putCmdQ does in one step. -/
theorem put_alone {o : Sys ι} {i : ι} (free : o.calls i = none) (x : Cmd) {s : State}
    (items : s.cmdQ.item = o.item) (at_fr : s.cmdQ.fr = o.fr) :
    let t := run record o (.put i x :: List.replicate 7 (.step i))
    t.item = (putCmdQ s x.1 x.2).cmdQ.item ∧ t.fr = (putCmdQ s x.1 x.2).cmdQ.fr ∧
      t.accepted = o.accepted ++ [x] ∧ t.calls = o.calls := by
  have idle : Function.update o.calls i none = o.calls := by rw [← free, Function.update_eq_self]
  simp [run, record, stepPut, Sys.setCall, putCmdQ, free, items, at_fr, idle]

/-- In a quiet run every accepted command is delivered once and in order. -/
theorem exact_of_quiet (item : Nat → Cmd) (k : Fin nCmdQ) (es : List (Event ι))
    (quiet : Along record Quiet (blank item k) es) :
    Along record (fun o e => Exact (record o e)) (blank item k) es :=
  along_of_invariant (fun _ _ inv step => inv_record inv step)
    (fun _ _ inv step => exact_of_inv (inv_record inv step)) (inv_blank item k) quiet

/-- Two producers call at once; the consumer fetches the first command while the second is stored,
and is woken again for it. -/
def deliveries : List (Event Bool) :=
  .put false (7800, 1) :: .put true (7801, 2) :: List.replicate 7 (.step false) ++
    (List.replicate 7 [.get, .step true]).flatten ++ List.replicate 6 .get

private theorem quiet_deliveries :
    Along record Quiet (blank (fun _ => (0, 0)) 0 : Sys Bool) deliveries := by
  have outside : ∀ {calls : Bool → Option Put} {p q : Put}, p.inside = false → q.inside = false →
      (calls false = some p ∨ calls false = none) → calls true = some q →
      ∀ j, ∀ r ∈ calls j, r.inside = false := by
    intro calls p q first second at_false at_true j r there
    cases j with
    | false =>
      rcases at_false with here | here
      · obtain rfl : p = r := Option.some.inj (here.symm.trans there)
        exact first
      · cases here.symm.trans there
    | true =>
      obtain rfl : q = r := Option.some.inj (at_true.symm.trans there)
      exact second
  refine ⟨trivial, trivial, ?_, nofun, trivial, ?_, trivial, ?_, trivial, trivial, ?_, trivial, ?_,
    trivial, trivial, trivial, ?_, trivial, trivial, trivial, ?_, trivial, trivial, trivial,
    trivial, trivial, trivial, trivial, trivial, trivial⟩
  · exact outside (p := .begin (7800, 1)) rfl rfl (.inl rfl) rfl
  · rintro (waiting | ⟨s, waiting⟩) <;> cases waiting
  · exact Nat.one_ne_zero
  · exact outside (p := .notify) (q := .begin (7801, 2)) rfl rfl (.inr rfl) rfl
  · exact fun _ => Nat.one_ne_zero
  · exact fun _ => Nat.one_ne_zero
  · exact (by decide : (2 : Nat) ≠ 1)

theorem deliveries_exact :
    Along record (fun o e => Exact (record o e)) (blank (fun _ => (0, 0)) 0 : Sys Bool)
        deliveries ∧
      (run record (blank (fun _ => (0, 0)) 0 : Sys Bool) deliveries).delivered =
        [(7800, 1), (7801, 2)] :=
  ⟨exact_of_quiet _ 0 deliveries quiet_deliveries, rfl⟩

private theorem gets_idle {o : Sys ι} (idle : o.get.fetching = false) (empty : o.fr = o.re)
    (n : Nat) :
    (gets o n).delivered = o.delivered := by
  induction n generalizing o with
  | zero => rfl
  | succ n ih =>
    have still : (stepGet o).get.fetching = false ∧ (stepGet o).fr = (stepGet o).re ∧
        (stepGet o).delivered = o.delivered := by
      cases get : o.get <;> rw [get] at idle <;> try cases idle
      case wait =>
        simp only [stepGet, get]
        split_ifs <;> simp [get, empty, Get.fetching]
      case test => simp [stepGet, get, empty, Get.fetching]
      case again => simp [stepGet, get, empty, Get.fetching]
    exact (ih still.1 still.2.1).trans still.2.2

/-- Eight calls while the consumer waits, but for the last step. -/
def burst : List (Event Unit) :=
  (List.replicate 8 (.put () (7800, 1) :: List.replicate 7 (.step ()))).flatten.dropLast

/-- The eighth leaves the queue looking empty. -/
theorem burst_lost :
    ¬ ∀ es : List (Event Unit),
      Along record (fun o e => Exact (record o e)) (blank (fun _ => (0, 0)) 0) es := by
  intro claim
  have last := ((along_append ..).mp (claim (burst ++ [.step ()]))).2.1
  obtain ⟨n, all⟩ := last.complete nofun
  rw [gets_idle rfl rfl] at all
  cases all

end SV300.Modbus.CmdQueue
