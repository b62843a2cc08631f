/- SV300/Detect/Capture
   digest: The capture entry of a sag that turns into an interruption, in both queues. -/

import SV300.Library.BoundedQueue
import SV300.Library.Runs
import SV300.Detect.Tracks

set_option autoImplicit false
set_option relaxedAutoImplicit false

namespace SV300.Detect.Capture

open SV300.Library.BoundedQueue (wrap count)
open SV300.Library.Runs
open SV300.Detect.PqEvent
open SV300.Detect.Tracks

def pending (q : CapQ) : List CapEntry := SV300.Library.BoundedQueue.pending 8 q.Q q.fr q.re

/-- Seven entries are pending: the next one is dropped. -/
def Full (q : CapQ) : Prop := (q.fr + 1) % 8 = q.re

instance (q : CapQ) : Decidable (Full q) := inferInstanceAs (Decidable (_ = _))

private theorem mod_wrap {i : Nat} (lt : i < 16) : i % 8 = wrap 8 i := by
  unfold wrap
  split <;> omega

private theorem pending_putEventCap (q : CapQ) (e : CapEntry) :
    pending (putEventCap q e) = if Full q then pending q else pending q ++ [e] := by
  have fr_lt := q.fr_lt
  have around : (q.fr + 1) % 8 = wrap 8 (q.fr + 1) := mod_wrap (by omega)
  by_cases full : Full q
  · have same : putEventCap q e = q := by
      rw [putEventCap]
      exact if_neg (not_not_intro full)
    rw [same, if_pos full]
  · have room : wrap 8 (q.fr + 1) ≠ q.re := by
      rw [← around]
      exact full
    have free : (q.fr + 1) % 8 ≠ q.re := full
    rw [if_neg full, putEventCap, if_pos free]
    change SV300.Library.BoundedQueue.pending 8 (Function.update q.Q q.fr e) ((q.fr + 1) % 8)
      q.re = _
    rw [around]
    exact SV300.Library.BoundedQueue.pending_put q.Q fr_lt q.re_lt room e

/-- The newest entry, if it has the old type, gets the new one. -/
def relabelLast (oldType newType : EventType) (l : List CapEntry) : List CapEntry :=
  match l.getLast? with
  | some e => if e.eType = oldType then l.dropLast ++ [{ e with eType := newType }] else l
  | none => l

private theorem pending_updateLastCapType (q : CapQ) (oldType newType : EventType) :
    pending (updateLastCapType q oldType newType) = relabelLast oldType newType (pending q) := by
  have fr_lt := q.fr_lt
  by_cases empty : q.fr = q.re
  · have none : pending q = [] := by
      rw [pending, ← empty]
      exact SV300.Library.BoundedQueue.pending_empty q.Q
    rw [updateLastCapType, if_neg (not_not_intro empty), none]
    rfl
  · have last_lt : (q.fr + 8 - 1) % 8 < 8 := Nat.mod_lt _ (by decide)
    have before : wrap 8 ((q.fr + 8 - 1) % 8 + 1) = q.fr := by
      unfold wrap
      split <;> omega
    have last := SV300.Library.BoundedQueue.pending_last q.Q last_lt q.re_lt before empty
    have set := SV300.Library.BoundedQueue.pending_setLast q.Q last_lt q.re_lt before empty
      { q.Q ((q.fr + 8 - 1) % 8) with eType := newType }
    rw [updateLastCapType, if_pos empty, relabelLast]
    dsimp only
    have shown : (pending q).getLast? = some (q.Q ((q.fr + 8 - 1) % 8)) := by
      rw [pending, last, List.getLast?_concat]
    rw [shown]
    dsimp only
    split
    · rw [pending, pending, set, last, List.dropLast_concat]
    · rfl

/-- A consumer is done with the oldest entry, captured or discarded. -/
def take (q : CapQ) : CapQ :=
  if q.fr ≠ q.re then { q with re := (q.re + 1) % 8, re_lt := Nat.mod_lt _ (by decide) } else q

theorem pending_take (q : CapQ) : pending (take q) = (pending q).tail := by
  have re_lt := q.re_lt
  have around : (q.re + 1) % 8 = wrap 8 (q.re + 1) := mod_wrap (by omega)
  by_cases empty : q.fr = q.re
  · have none : pending q = [] := by
      rw [pending, ← empty]
      exact SV300.Library.BoundedQueue.pending_empty q.Q
    rw [take, if_neg (not_not_intro empty), none]
    rfl
  · have first := SV300.Library.BoundedQueue.pending_take q.Q q.fr_lt re_lt empty
    rw [take, if_pos empty]
    change SV300.Library.BoundedQueue.pending 8 q.Q q.fr ((q.re + 1) % 8) = _
    rw [around, pending, first, List.tail_cons]

private theorem relabelLast_concat (oldType newType : EventType) (l : List CapEntry)
    (e : CapEntry) :
    relabelLast oldType newType (l ++ [e]) =
      l ++ [if e.eType = oldType then { e with eType := newType } else e] := by
  rw [relabelLast, List.getLast?_concat]
  dsimp only
  split
  · rw [List.dropLast_concat]
  · rfl

private theorem length_relabelLast (oldType newType : EventType) (l : List CapEntry) :
    (relabelLast oldType newType l).length = l.length := by
  rcases List.eq_nil_or_concat l with rfl | ⟨init, e, rfl⟩
  · rfl
  · rw [List.concat_eq_append, relabelLast_concat, List.length_append, List.length_append]
    rfl

/-- A half cycle, or one of the two consumers taking an entry. -/
inductive Event
  | halfCycle (x : Sample)
  | waveTask
  | rmsCapture

/-- The detectors, with the position in each queue of the entry of the present sag, as long as it is
pending. -/
structure State where
  cntl : Cntl
  ownW : Option Nat
  ownR : Option Nat

/-- The sag's own entry after its start: the newest one, unless it was dropped. -/
def enqueued (action : UInt16) (q : CapQ) : Option Nat :=
  if action = 2 ∧ ¬ Full q then some (pending q).length else none

def taken : Option Nat → Option Nat
  | some (k + 1) => some k
  | _ => none

/-- A sag starts in this call. -/
def Starts (s : Cntl) (x : Sample) : Prop :=
  s.sagSt = .normal ∧ (checkPqEvent s x).sagSt = .sag

/-- A sag turns into an interruption in this call. -/
def Turns (s : Cntl) (x : Sample) : Prop := s.sagSt = .sag ∧ IsIntr x (prepare s x)

instance (s : Cntl) (x : Sample) : Decidable (Starts s x) := inferInstanceAs (Decidable (_ ∧ _))
instance (s : Cntl) (x : Sample) : Decidable (Turns s x) := inferInstanceAs (Decidable (_ ∧ _))

def step (st : State) : Event → State
  | .halfCycle x =>
    { cntl := checkPqEvent st.cntl x
      ownW := if Starts st.cntl x then enqueued x.cfg.sag.action st.cntl.wQ else st.ownW
      ownR := if Starts st.cntl x then enqueued x.cfg.sag.action st.cntl.rQ else st.ownR }
  | .waveTask =>
    { st with cntl := { st.cntl with wQ := take st.cntl.wQ }, ownW := taken st.ownW }
  | .rmsCapture =>
    { st with cntl := { st.cntl with rQ := take st.cntl.rQ }, ownR := taken st.ownR }

/-- The sag's own entry gets the interruption type; the others stay. -/
def relabelOwn (own : Option Nat) (l : List CapEntry) : List CapEntry :=
  match own with
  | some k => l.modify k fun e => { e with eType := .E_sINTR }
  | none => l

/-- When a sag turns into an interruption, its own pending entry in each queue is relabelled and the
others stay; entries may be added behind them. -/
def Relabels (st : State) : Event → Prop
  | .halfCycle x => Turns st.cntl x →
      relabelOwn st.ownW (pending st.cntl.wQ) <+: pending (checkPqEvent st.cntl x).wQ ∧
        relabelOwn st.ownR (pending st.cntl.rQ) <+: pending (checkPqEvent st.cntl x).rQ
  | _ => True

/-- The sag's own entry is the newest one if it is pending, and else the newest one is of no sag. -/
def OwnIsLast (own : Option Nat) (l : List CapEntry) : Prop :=
  match own with
  | some k => k + 1 = l.length
  | none => ∀ e ∈ l.getLast?, e.eType ≠ .E_SAG

/-- When a sag turns into an interruption: sags are captured and each queue has the sag's own entry
last, or sags are not captured and neither queue has one. -/
def OwnEntryLast (st : State) : Event → Prop
  | .halfCycle x => Turns st.cntl x →
      if x.cfg.sag.action = 2 then
        OwnIsLast st.ownW (pending st.cntl.wQ) ∧ OwnIsLast st.ownR (pending st.cntl.rQ)
      else st.ownW = none ∧ st.ownR = none
  | _ => True

/-- The own entry is pending where it is said to be, and still of a sag. -/
def Typed (own : Option Nat) (l : List CapEntry) : Prop :=
  ∀ k ∈ own, ∃ e, l[k]? = some e ∧ e.eType = .E_SAG

private theorem typed_none (l : List CapEntry) : Typed none l :=
  fun k mem => absurd mem (Option.not_mem_none k)

private theorem length_relabelOwn (own : Option Nat) (l : List CapEntry) :
    (relabelOwn own l).length = l.length := by
  cases own with
  | none => rfl
  | some k => exact List.length_modify ..

private theorem modify_concat (l : List CapEntry) (e : CapEntry) (f : CapEntry → CapEntry) :
    (l ++ [e]).modify l.length f = l ++ [f e] := by
  induction l with
  | nil => rfl
  | cons a l ih =>
      rw [List.cons_append, List.length_cons, List.modify_succ_cons, ih, List.cons_append]

private theorem modify_eq_relabelLast_iff {l : List CapEntry} {k : Nat} {e : CapEntry}
    (own : l[k]? = some e) (sag : e.eType = .E_SAG) :
    l.modify k (fun e => { e with eType := .E_sINTR }) = relabelLast .E_SAG .E_sINTR l ↔
      k + 1 = l.length := by
  rcases List.eq_nil_or_concat l with rfl | ⟨init, last, rfl⟩
  · cases own
  rw [List.concat_eq_append] at own ⊢
  rw [relabelLast_concat, List.length_append, List.length_singleton]
  rcases Nat.lt_trichotomy k init.length with before | here | beyond
  · -- an older entry: the handler leaves it as it was
    rw [List.getElem?_append_left before] at own
    constructor
    · intro same
      have entry := congrArg (fun l => l[k]?) same
      simp only [List.getElem?_modify, List.getElem?_append_left before, own, if_true,
        Option.map_eq_map, Option.map_some, Option.some.injEq] at entry
      have type := congrArg CapEntry.eType entry
      rw [sag] at type
      cases type
    · intro last
      omega
  · rw [here, List.getElem?_append_right (Nat.le_refl _), Nat.sub_self] at own
    have newest : last = e := Option.some.inj own
    rw [here, newest, if_pos sag]
    exact iff_of_true (modify_concat init e _) rfl
  · rw [List.getElem?_eq_none (by rw [List.length_append, List.length_singleton]; omega)] at own
    cases own

/-- The handler relabels the own entry and no other exactly when that entry is last, or is not
pending and the last one is of no sag. -/
private theorem relabelOwn_eq_iff {own : Option Nat} {l : List CapEntry} (typed : Typed own l) :
    relabelOwn own l = relabelLast .E_SAG .E_sINTR l ↔ OwnIsLast own l := by
  cases own with
  | some k =>
      obtain ⟨e, entry, sag⟩ := typed k rfl
      exact modify_eq_relabelLast_iff entry sag
  | none =>
      rcases List.eq_nil_or_concat l with rfl | ⟨init, last, rfl⟩
      · exact iff_of_true rfl nofun
      rw [List.concat_eq_append, relabelLast_concat]
      simp only [relabelOwn, OwnIsLast, List.append_cancel_left_eq, List.cons.injEq, and_true,
        List.getLast?_concat, Option.mem_some_iff, forall_eq']
      by_cases sag : last.eType = .E_SAG
      · rw [if_pos sag]
        refine iff_of_false (fun same => ?_) (not_not_intro sag)
        have type := congrArg CapEntry.eType same
        rw [sag] at type
        cases type
      · rw [if_neg sag]
        exact iff_of_true rfl sag

private theorem prefix_iff_eq {l base ext : List CapEntry} (same : l.length = base.length)
    (begins : base <+: ext) : l <+: ext ↔ l = base := by
  constructor
  · intro also
    exact (List.prefix_of_prefix_length_le also begins same.le).eq_of_length same
  · rintro rfl
    exact begins

private theorem relabelOwn_kept_iff {own : Option Nat} {l : List CapEntry} (typed : Typed own l) :
    relabelOwn own l = l ↔ own = none := by
  cases own with
  | none => exact iff_of_true rfl rfl
  | some k =>
      obtain ⟨e, entry, sag⟩ := typed k rfl
      refine iff_of_false (fun same => ?_) nofun
      have changed := congrArg (fun l => l[k]?) same
      simp only [relabelOwn, List.getElem?_modify, entry, if_true, Option.map_eq_map,
        Option.map_some, Option.some.injEq] at changed
      have type := congrArg CapEntry.eType changed
      rw [sag] at type
      cases type

/-- Entries were added behind those that were pending. -/
def Extends (s t : Cntl) : Prop := pending s.wQ <+: pending t.wQ ∧ pending s.rQ <+: pending t.rQ

theorem Extends.trans {s t u : Cntl} (h : Extends s t) (k : Extends t u) : Extends s u :=
  ⟨h.1.trans k.1, h.2.trans k.2⟩

private theorem prefix_put (q : CapQ) (e : CapEntry) : pending q <+: pending (putEventCap q e) := by
  rw [pending_putEventCap]
  split
  · exact List.prefix_rfl
  · exact List.prefix_append _ _

private theorem swellHandler_extends (x : Sample) (s : Cntl) : Extends s (swellHandler x s) := by
  unfold swellHandler
  generalize swellStep x s = r
  obtain ⟨⟨st, inf⟩, outcome⟩ := r
  cases outcome with
  | quiet | ended => exact ⟨List.prefix_rfl, List.prefix_rfl⟩
  | started =>
      dsimp only
      split
      · exact ⟨prefix_put s.wQ _, prefix_put s.rQ _⟩
      · exact ⟨List.prefix_rfl, List.prefix_rfl⟩

private theorem ocHandler_extends (x : Sample) (s : Cntl) : Extends s (ocHandler x s) := by
  unfold ocHandler
  generalize ocStep x s = r
  obtain ⟨⟨st, inf⟩, outcome⟩ := r
  cases outcome with
  | quiet | ended => exact ⟨List.prefix_rfl, List.prefix_rfl⟩
  | started =>
      dsimp only
      split
      · exact ⟨prefix_put s.wQ _, prefix_put s.rQ _⟩
      · exact ⟨List.prefix_rfl, List.prefix_rfl⟩

private theorem checkPqEvent_extends (s : Cntl) (x : Sample) :
    Extends (sagHandler x (prepare s x)) (checkPqEvent s x) :=
  (swellHandler_extends x _).trans (ocHandler_extends x _)

private theorem sagSt_checkPqEvent (s : Cntl) (x : Sample) :
    (checkPqEvent s x).sagSt = (sagHandler x (prepare s x)).sagSt :=
  congrArg SagTrack.st (sagTrack_checkPqEvent s x)

/-- What the sag handler does to the queues: it enqueues at the start of a sag, and at the turn it
relabels the newest entries or enqueues under the interruption's own setting. -/
inductive QueueMove (s : Cntl) (x : Sample) (t : Cntl) : Prop
  | start (normal : s.sagSt = .normal) (sag : t.sagSt = .sag)
      (wQ : t.wQ = if x.cfg.sag.action = 2 then putEventCap s.wQ ⟨x.sysTick64, .E_SAG⟩ else s.wQ)
      (rQ : t.rQ = if x.cfg.sag.action = 2 then putEventCap s.rQ ⟨x.sysTick64, .E_SAG⟩ else s.rQ)
  | relabel (turns : Turns s x) (action : x.cfg.sag.action = 2) (ended : t.sagSt = .interruption)
      (wQ : t.wQ = updateLastCapType s.wQ .E_SAG .E_sINTR)
      (rQ : t.rQ = updateLastCapType s.rQ .E_SAG .E_sINTR)
  | turn (turns : Turns s x) (action : x.cfg.sag.action ≠ 2) (ended : t.sagSt = .interruption)
      (more : Extends s t)
  | keep (other : ¬ Turns s x) (same : t.sagSt = .sag → s.sagSt = .sag) (wQ : t.wQ = s.wQ)
      (rQ : t.rQ = s.rQ)

private theorem queueMove (s : Cntl) (x : Sample) : QueueMove s x (sagHandler x (prepare s x)) := by
  have st : (prepare s x).sagSt = s.sagSt := rfl
  unfold sagHandler
  rw [st]
  cases here : s.sagSt with
  | init =>
      have other : ¬ Turns s x := fun turns => by cases here.symm.trans turns.1
      dsimp only
      split
      · exact .keep other nofun rfl rfl
      · exact .keep other (fun sag => sag) rfl rfl
  | normal =>
      dsimp only [startSag]
      split
      · split
        · rename_i action
          exact .start here rfl (if_pos action).symm (if_pos action).symm
        · rename_i action
          exact .start here rfl (if_neg action).symm (if_neg action).symm
      · refine .keep (fun turns => ?_) (fun sag => sag) rfl rfl
        cases here.symm.trans turns.1
  | sag =>
      dsimp only
      split
      · rename_i intr
        have turns : Turns s x := ⟨here, intr⟩
        by_cases action : x.cfg.sag.action = 2
        · rw [startIntr, if_pos action]
          exact .relabel turns action rfl rfl rfl
        · rw [startIntr, if_neg action]
          refine .turn turns action rfl ?_
          split
          · exact ⟨prefix_put s.wQ _, prefix_put s.rQ _⟩
          · exact ⟨List.prefix_rfl, List.prefix_rfl⟩
      · rename_i sag
        have other : ¬ Turns s x := fun turns => sag turns.2
        split
        · exact .keep other (fun _ => here) rfl rfl
        split
        · exact .keep other nofun rfl rfl
        · exact .keep other (fun _ => here) rfl rfl
  | interruption =>
      have other : ¬ Turns s x := fun turns => by cases here.symm.trans turns.1
      dsimp only
      split
      · exact .keep other nofun rfl rfl
      · exact .keep other (fun sag => sag) rfl rfl
  | holdOff =>
      have other : ¬ Turns s x := fun turns => by cases here.symm.trans turns.1
      dsimp only
      split
      · exact .keep other nofun rfl rfl
      · exact .keep other (fun sag => sag) rfl rfl

/-- During a sag its own entries are pending where they are said to be. -/
def Inv (st : State) : Prop :=
  st.cntl.sagSt = .sag → Typed st.ownW (pending st.cntl.wQ) ∧ Typed st.ownR (pending st.cntl.rQ)

private theorem Typed.mono {own : Option Nat} {l ext : List CapEntry} (typed : Typed own l)
    (begins : l <+: ext) : Typed own ext := by
  intro k mem
  obtain ⟨e, entry, sag⟩ := typed k mem
  obtain ⟨rest, rfl⟩ := begins
  have lt := (List.getElem?_eq_some_iff.mp entry).1
  exact ⟨e, (List.getElem?_append_left lt).trans entry, sag⟩

theorem Typed.taken {own : Option Nat} {l : List CapEntry} (typed : Typed own l) :
    Typed (taken own) l.tail := by
  intro k mem
  match own, mem with
  | some (j + 1), mem =>
    cases mem
    obtain ⟨e, entry, sag⟩ := typed (k + 1) rfl
    exact ⟨e, by rw [List.getElem?_tail, entry], sag⟩

private theorem typed_enqueued {action : UInt16} {q : CapQ} {now : UInt64} :
    Typed (enqueued action q)
      (pending (if action = 2 then putEventCap q ⟨now, .E_SAG⟩ else q)) := by
  intro k mem
  rw [enqueued] at mem
  split at mem
  · rename_i accepted
    cases mem
    rw [if_pos accepted.1, pending_putEventCap, if_neg accepted.2]
    refine ⟨⟨now, .E_SAG⟩, ?_, rfl⟩
    rw [List.getElem?_append_right (Nat.le_refl _), Nat.sub_self]
    rfl
  · cases mem

theorem inv_step (st : State) (e : Event) (inv : Inv st) : Inv (step st e) := by
  cases e with
  | waveTask =>
      intro sag
      obtain ⟨w, r⟩ := inv sag
      refine ⟨?_, r⟩
      dsimp only [step]
      rw [pending_take]
      exact w.taken
  | rmsCapture =>
      intro sag
      obtain ⟨w, r⟩ := inv sag
      refine ⟨w, ?_⟩
      dsimp only [step]
      rw [pending_take]
      exact r.taken
  | halfCycle x =>
      intro sag
      have more := checkPqEvent_extends st.cntl x
      have after : (sagHandler x (prepare st.cntl x)).sagSt = .sag :=
        (sagSt_checkPqEvent st.cntl x).symm.trans sag
      dsimp only [step]
      cases queueMove st.cntl x with
      | start normal now wQ rQ =>
          have starts : Starts st.cntl x := ⟨normal, sag⟩
          rw [Extends, wQ, rQ] at more
          rw [if_pos starts, if_pos starts]
          exact ⟨typed_enqueued.mono more.1, typed_enqueued.mono more.2⟩
      | relabel turns action ended wQ rQ => cases ended.symm.trans after
      | turn turns action ended _ => cases ended.symm.trans after
      | keep other same wQ rQ =>
          have before := same after
          have starts : ¬ Starts st.cntl x := fun h => by cases before.symm.trans h.1
          obtain ⟨w, r⟩ := inv before
          rw [Extends, wQ, rQ] at more
          rw [if_neg starts, if_neg starts]
          exact ⟨w.mono more.1, r.mono more.2⟩

private theorem relabels_iff {st : State} (inv : Inv st) (e : Event) :
    Relabels st e ↔ OwnEntryLast st e := by
  cases e with
  | waveTask | rmsCapture => exact Iff.rfl
  | halfCycle x =>
      refine imp_congr_right fun turns => ?_
      obtain ⟨w, r⟩ := inv turns.1
      have more := checkPqEvent_extends st.cntl x
      cases queueMove st.cntl x with
      | start normal _ _ _ => cases normal.symm.trans turns.1
      | keep other _ _ _ => exact absurd turns other
      | relabel _ action _ wQ rQ =>
          have begins : ∀ q, (relabelLast .E_SAG .E_sINTR (pending q)).length =
              (pending q).length := fun q => length_relabelLast _ _ _
          rw [Extends, wQ, rQ, pending_updateLastCapType, pending_updateLastCapType] at more
          rw [if_pos action,
            prefix_iff_eq ((length_relabelOwn _ _).trans (begins _).symm) more.1,
            prefix_iff_eq ((length_relabelOwn _ _).trans (begins _).symm) more.2,
            relabelOwn_eq_iff w, relabelOwn_eq_iff r]
      | turn _ action _ added =>
          have kept := added.trans more
          rw [if_neg action, prefix_iff_eq (length_relabelOwn _ _) kept.1,
            prefix_iff_eq (length_relabelOwn _ _) kept.2, relabelOwn_kept_iff w,
            relabelOwn_kept_iff r]

/-- Over every run of half cycles and consumers, from any content of the queues, each sag that turns
into an interruption has its own pending entries relabelled and no others exactly when they are the
newest ones. -/
theorem relabelling_iff_own_entry_last (s : Cntl) (es : List Event) :
    Along step Relabels ⟨s, none, none⟩ es ↔ Along step OwnEntryLast ⟨s, none, none⟩ es :=
  along_iff (I := Inv) inv_step (fun _ e inv => relabels_iff inv e)
    (fun _ => ⟨typed_none _, typed_none _⟩) es

def captured : Config where
  sag := ⟨2, 500⟩
  swell := ⟨2, 500⟩
  oc := ⟨0, 500⟩
  intr := ⟨0, 500⟩
  sagLevel := 80
  sagRetLevel := 85
  swellLevel := 120
  swellRetLevel := 115
  ocLevel := 0
  ocRetLevel := 0
  intrLevel := 5

def voltages (first second : UInt32) : Fin 3 → UInt32
  | 0 => first
  | 1 => second
  | 2 => 100

def halfCycle (now zxMonCnt : UInt64) (first second : UInt32) : Event :=
  .halfCycle ⟨now, zxMonCnt, voltages first second, fun _ => 0, captured⟩

/-- The first phase sags, the second swells, then the zero crossings are lost. -/
def swellBehindSag : List Event :=
  [halfCycle 0 20 100 100, halfCycle 8 20 50 100, halfCycle 16 20 50 130, halfCycle 24 0 50 100]

/-- The newest entry is the swell's, so the interruption keeps the entry of a sag. -/
theorem swell_hides_sag_entry : ¬ Along step Relabels ⟨powerOn, none, none⟩ swellBehindSag ∧
    (run step ⟨powerOn, none, none⟩ swellBehindSag).cntl.sagSt = .interruption ∧
    pending (run step ⟨powerOn, none, none⟩ swellBehindSag).cntl.wQ =
      [⟨8, .E_SAG⟩, ⟨16, .E_SWELL⟩] := by
  have queue : pending (run step ⟨powerOn, none, none⟩ swellBehindSag).cntl.wQ =
      [⟨8, .E_SAG⟩, ⟨16, .E_SWELL⟩] := by
    decide +kernel
  refine ⟨?_, by decide +kernel, queue⟩
  rintro ⟨_, _, _, last, _⟩
  have own := (last (by decide +kernel)).1
  exact absurd own (by decide +kernel)

end SV300.Detect.Capture
