/- SV300/Detect/Sequence
   digest: The events of a run: pushed once, in order, a hold-off apart, and counted. -/

import SV300.Library.Episodes
import SV300.Library.Runs
import SV300.Detect.Tracks

set_option autoImplicit false
set_option relaxedAutoImplicit false

namespace SV300.Detect.Sequence

open SV300.Library.Episodes
open SV300.Library.Runs
open SV300.Detect.PqEvent
open SV300.Detect.Tracks

/-- The detectors; the tick of the last call; the hold-off under which each detector was last
released; and the episodes in which each was seen to be in an event. -/
structure State where
  cntl : Cntl
  now : UInt64
  sagHold : UInt16
  swellHold : UInt16
  ocHold : UInt16
  sag : History
  swell : History
  oc : History

def opening : State := ⟨powerOn, 0, 0, 0, 0, .none, .none, .none⟩

def step (st : State) (x : Sample) : State :=
  let next := checkPqEvent st.cntl x
  let now := x.sysTick64.toNat
  { cntl := next
    now := x.sysTick64
    sagHold := if st.cntl.sagSt = .normal then st.sagHold else x.cfg.sag.holdOffCyc
    swellHold := if st.cntl.swellSt = .normal then st.swellHold else x.cfg.swell.holdOffCyc
    ocHold := if st.cntl.ocSt = .normal then st.ocHold else x.cfg.oc.holdOffCyc
    sag := st.sag.observe (SagOpen st.cntl.sagSt) (SagOpen next.sagSt) now
      x.cfg.sag.holdOffCyc.toNat
    swell := st.swell.observe (st.cntl.swellSt = .event) (next.swellSt = .event) now
      x.cfg.swell.holdOffCyc.toNat
    oc := st.oc.observe (st.cntl.ocSt = .event) (next.ocSt = .event) now
      x.cfg.oc.holdOffCyc.toNat }

def times (is : List Info) : List (Nat × Nat) := is.map fun i => (i.startTs.toNat, i.endTs.toNat)

/-- The start and end times of the finished episodes, oldest first. -/
def spans (h : History) : List (Nat × Nat) := (h.closed.map fun e => (e.start, e.stop)).reverse

/-- Each finished episode is pushed once and nothing else is; they end no earlier than they start
and keep the hold-off. -/
structure Emits (pushed : List Info) (h : History) : Prop where
  agrees : times pushed = spans h
  wellFormed : h.WellFormed

/-- The law of the events.  A swell or an over-current is counted from its start; a sag or an
interruption, whose type is only known then, from its end. -/
structure Law (st : State) : Prop where
  sag : Emits (sagTrack st.cntl).pushed st.sag
  swell : Emits (ofType .E_SWELL st.cntl.pushed) st.swell
  oc : Emits (ofType .E_OC st.cntl.pushed) st.oc
  sagCount : st.cntl.pqEvtCnt.sag.toNat = (ofType .E_SAG st.cntl.pushed).length
  intrCount : st.cntl.pqEvtCnt.intr.toNat =
    (ofType .E_sINTR st.cntl.pushed).length + (ofType .E_lINTR st.cntl.pushed).length
  swellCount : st.cntl.pqEvtCnt.swell.toNat =
    (ofType .E_SWELL st.cntl.pushed).length + if st.cntl.swellSt = .event then 1 else 0
  ocCount : st.cntl.pqEvtCnt.oc.toNat =
    (ofType .E_OC st.cntl.pushed).length + if st.cntl.ocSt = .event then 1 else 0

/-- The calls under which the law holds: the tick does not go back, no event starts under a
hold-off raised since the release, no sag within the hold-off of an interruption, and a counter
that may count has room. -/
structure Clean (st : State) (x : Sample) : Prop where
  ticks : st.now ≤ x.sysTick64
  sagHold : st.cntl.sagSt = .normal → (sagMask x).Some → x.cfg.sag.holdOffCyc ≤ st.sagHold
  swellHold : st.cntl.swellSt = .normal → (swellMask x).Some →
    x.cfg.swell.holdOffCyc ≤ st.swellHold
  ocHold : st.cntl.ocSt = .normal → (ocMask x).Some → x.cfg.oc.holdOffCyc ≤ st.ocHold
  afterIntr : st.cntl.sagSt = .normal → (sagMask x).Some → st.cntl.sagInf.type ≠ .E_SAG →
    x.cfg.sag.holdOffCyc.toUInt64 < x.sysTick64 - st.cntl.sagInf.endTs
  sagRoom : st.cntl.sagSt = .sag → st.cntl.pqEvtCnt.sag < 65535
  intrRoom : st.cntl.sagSt = .interruption → st.cntl.pqEvtCnt.intr < 65535
  swellRoom : st.cntl.swellSt = .normal → (swellMask x).Some → st.cntl.pqEvtCnt.swell < 65535
  ocRoom : st.cntl.ocSt = .normal → (ocMask x).Some → st.cntl.pqEvtCnt.oc < 65535

instance (st : State) (x : Sample) : Decidable (Clean st x) :=
  decidable_of_iff (st.now ≤ x.sysTick64 ∧
      (st.cntl.sagSt = .normal → (sagMask x).Some → x.cfg.sag.holdOffCyc ≤ st.sagHold) ∧
      (st.cntl.swellSt = .normal → (swellMask x).Some → x.cfg.swell.holdOffCyc ≤ st.swellHold) ∧
      (st.cntl.ocSt = .normal → (ocMask x).Some → x.cfg.oc.holdOffCyc ≤ st.ocHold) ∧
      (st.cntl.sagSt = .normal → (sagMask x).Some → st.cntl.sagInf.type ≠ .E_SAG →
        x.cfg.sag.holdOffCyc.toUInt64 < x.sysTick64 - st.cntl.sagInf.endTs) ∧
      (st.cntl.sagSt = .sag → st.cntl.pqEvtCnt.sag < 65535) ∧
      (st.cntl.sagSt = .interruption → st.cntl.pqEvtCnt.intr < 65535) ∧
      (st.cntl.swellSt = .normal → (swellMask x).Some → st.cntl.pqEvtCnt.swell < 65535) ∧
      (st.cntl.ocSt = .normal → (ocMask x).Some → st.cntl.pqEvtCnt.oc < 65535))
    ⟨fun ⟨a, b, c, d, e, f, g, h, i⟩ => ⟨a, b, c, d, e, f, g, h, i⟩,
      fun ⟨a, b, c, d, e, f, g, h, i⟩ => ⟨a, b, c, d, e, f, g, h, i⟩⟩

private theorem times_append (is : List Info) (i : Info) :
    times (is ++ [i]) = times is ++ [(i.startTs.toNat, i.endTs.toNat)] := by
  rw [times, times, List.map_append, List.map_singleton]

private theorem spans_stop (closed : List Episode) (e : Episode) :
    spans ⟨.none, e :: closed⟩ = (closed.map fun e => (e.start, e.stop)).reverse ++
      [(e.start, e.stop)] := by
  rw [spans, List.map_cons, List.reverse_cons]

private theorem toNat_count {n : UInt16} (room : n < 65535) : (n + 1).toNat = n.toNat + 1 := by
  have small : n.toNat < 65535 := UInt16.lt_iff_toNat_lt.mp room
  have one : (1 : UInt16).toNat = 1 := rfl
  rw [UInt16.toNat_add, one]
  omega

private theorem clear_of_passed {hold : UInt16} {now stop : UInt64}
    (passed : hold.toUInt64 < now - stop) (later : stop ≤ now) :
    stop.toNat + hold.toNat < now.toNat := by
  rw [UInt64.lt_iff_toNat_lt, UInt64.toNat_sub_of_le _ _ later, UInt16.toNat_toUInt64] at passed
  rw [UInt64.le_iff_toNat_le] at later
  omega

private theorem Emits.finish {pushed : List Info} {h : History} {inf : Info} {gap : Nat}
    (shown : Emits pushed h) (isOpen : h.opened = some (inf.startTs.toNat, gap))
    (later : inf.startTs ≤ inf.endTs) :
    Emits (pushed ++ [inf]) ⟨.none, ⟨inf.startTs.toNat, inf.endTs.toNat, gap⟩ :: h.closed⟩ where
  agrees := by
    rw [times_append, spans_stop, shown.agrees]
    rfl
  wellFormed := shown.wellFormed.stop isOpen (UInt64.le_iff_toNat_le.mp later)

private theorem stop_head (e : Episode) (closed : List Episode) :
    ∀ e' ∈ (e :: closed).head?, e'.stop = e.stop := by
  intro e' mem
  rw [List.head?_cons, Option.mem_some] at mem
  rw [← mem]

/-- The detector's state against the episodes seen. -/
def RisePhase (now : UInt64) (hold : UInt16) (t : RiseTrack) (h : History) : Prop :=
  match t.st with
  | .init => h.opened = none ∧ h.closed = []
  | .normal => h.opened = none ∧ Clear h.closed hold.toNat now.toNat
  | .event => (∃ gap, h.opened = some (t.inf.startTs.toNat, gap)) ∧ t.inf.startTs ≤ now
  | .holdOff => h.opened = none ∧ (∀ e ∈ h.closed.head?, e.stop = t.inf.endTs.toNat) ∧
      t.inf.endTs ≤ now

structure RiseInv (now : UInt64) (hold : UInt16) (t : RiseTrack) (h : History) : Prop where
  emits : Emits t.pushed h
  count : t.count.toNat = t.pushed.length + if t.st = .event then 1 else 0
  phase : RisePhase now hold t h

private theorem RisePhase.later {now now' : UInt64} {hold : UInt16} {t : RiseTrack} {h : History}
    (phase : RisePhase now hold t h) (le : now ≤ now') : RisePhase now' hold t h := by
  unfold RisePhase at phase ⊢
  cases here : t.st with
  | init => rwa [here] at phase
  | normal =>
      rw [here] at phase
      exact ⟨phase.1, phase.2.mono le_rfl (UInt64.le_iff_toNat_le.mp le)⟩
  | event =>
      rw [here] at phase
      exact ⟨phase.1, UInt64.le_trans phase.2 le⟩
  | holdOff =>
      rw [here] at phase
      exact ⟨phase.1, phase.2.1, UInt64.le_trans phase.2.2 le⟩

/-- The hold-off that counts for the next start: of the release, or of the call. -/
def nextHold (t : RiseTrack) (hold : UInt16) (r : RiseInput) : UInt16 :=
  if t.st = .normal then hold else r.holdOff

private theorem RisePhase.hold {now : UInt64} {hold : UInt16} {t : RiseTrack} {h : History}
    (phase : RisePhase now hold t h) (r : RiseInput) : RisePhase now (nextHold t hold r) t h := by
  by_cases normal : t.st = .normal
  · rwa [nextHold, if_pos normal]
  · unfold RisePhase at phase ⊢
    cases here : t.st with
    | normal => exact absurd here normal
    | init | event | holdOff => rwa [here] at phase

private theorem riseInv_move {now : UInt64} {hold : UInt16} {t u : RiseTrack} {h : History}
    {r : RiseInput} (inv : RiseInv now hold t h) (move : RiseMove r t u) (ticks : now ≤ r.now)
    (raised : t.st = .normal → r.mask.Some → r.holdOff ≤ hold)
    (room : t.st = .normal → r.mask.Some → t.count < 65535) :
    RiseInv r.now (nextHold t hold r) u
      (h.observe (t.st = .event) (u.st = .event) r.now.toNat r.holdOff.toNat) := by
  have phase := inv.phase.later ticks
  have count := inv.count
  have shown := inv.emits
  cases move with
  | still =>
      rw [observe_same Iff.rfl]
      exact ⟨shown, count, phase.hold r⟩
  | arm init =>
      rw [RisePhase, init] at phase
      rw [init, if_neg (by decide)] at count
      rw [observe_same (iff_of_false (by rw [init]; nofun) nofun)]
      refine ⟨shown, count, phase.1, ?_⟩
      rw [phase.2]
      exact nofun
  | start normal above =>
      rw [RisePhase, normal] at phase
      rw [normal, if_neg (by decide)] at count
      have clear := phase.2.mono (UInt16.le_iff_toNat_le.mp (raised normal above)) le_rfl
      rw [observe_start (by rw [normal]; decide) rfl]
      refine ⟨⟨shown.agrees, shown.wellFormed.start clear⟩, ?_, ⟨_, rfl⟩, UInt64.le_refl _⟩
      rw [if_pos rfl, toNat_count (room normal above), count]
  | widen event =>
      rw [RisePhase, event] at phase
      rw [observe_same Iff.rfl]
      refine ⟨shown, count, ?_⟩
      rw [RisePhase, event]
      exact phase
  | finish event =>
      rw [RisePhase, event] at phase
      obtain ⟨⟨gap, isOpen⟩, later⟩ := phase
      rw [event, if_pos rfl] at count
      rw [observe_stop event nofun isOpen]
      refine ⟨shown.finish isOpen later, ?_, rfl, stop_head _ _, UInt64.le_refl _⟩
      rw [if_neg nofun, List.length_append, List.length_singleton, count]
  | release hold passed =>
      rw [RisePhase, hold] at phase
      rw [hold, if_neg (by decide)] at count
      rw [observe_same (iff_of_false (by rw [hold]; nofun) nofun)]
      refine ⟨shown, count, phase.1, ?_⟩
      intro e mem
      rw [phase.2.1 e mem, nextHold, if_neg (by rw [hold]; decide)]
      exact clear_of_passed passed phase.2.2

/-- The detector's state against the episodes seen; armed, it remembers whether it was released or
comes straight from an interruption. -/
def SagPhase (now : UInt64) (hold : UInt16) (t : SagTrack) (h : History) : Prop :=
  match t.st with
  | .init => h.opened = none ∧ h.closed = [] ∧ t.inf.type = .E_SAG
  | .normal => h.opened = none ∧
      (t.inf.type = .E_SAG → Clear h.closed hold.toNat now.toNat) ∧
      (t.inf.type ≠ .E_SAG → (∀ e ∈ h.closed.head?, e.stop = t.inf.endTs.toNat) ∧
        t.inf.endTs ≤ now)
  | .sag | .interruption => (∃ gap, h.opened = some (t.inf.startTs.toNat, gap)) ∧
      t.inf.startTs ≤ now
  | .holdOff => h.opened = none ∧ (∀ e ∈ h.closed.head?, e.stop = t.inf.endTs.toNat) ∧
      t.inf.endTs ≤ now ∧ t.inf.type = .E_SAG

structure SagInv (now : UInt64) (hold : UInt16) (t : SagTrack) (h : History) : Prop where
  emits : Emits t.pushed h
  sag : t.sag.toNat = (ofType .E_SAG t.pushed).length
  intr : t.intr.toNat = (ofType .E_sINTR t.pushed).length + (ofType .E_lINTR t.pushed).length
  phase : SagPhase now hold t h

private theorem SagPhase.later {now now' : UInt64} {hold : UInt16} {t : SagTrack} {h : History}
    (phase : SagPhase now hold t h) (le : now ≤ now') : SagPhase now' hold t h := by
  unfold SagPhase at phase ⊢
  cases here : t.st with
  | init => rwa [here] at phase
  | normal =>
      rw [here] at phase
      obtain ⟨shut, released, broken⟩ := phase
      refine ⟨shut, fun sag => ?_, fun intr => ?_⟩
      · exact (released sag).mono le_rfl (UInt64.le_iff_toNat_le.mp le)
      · exact ⟨(broken intr).1, UInt64.le_trans (broken intr).2 le⟩
  | sag | interruption =>
      rw [here] at phase
      exact ⟨phase.1, UInt64.le_trans phase.2 le⟩
  | holdOff =>
      rw [here] at phase
      exact ⟨phase.1, phase.2.1, UInt64.le_trans phase.2.2.1 le, phase.2.2.2⟩

def nextSagHold (t : SagTrack) (hold : UInt16) (x : Sample) : UInt16 :=
  if t.st = .normal then hold else x.cfg.sag.holdOffCyc

private theorem SagPhase.hold {now : UInt64} {hold : UInt16} {t : SagTrack} {h : History}
    (phase : SagPhase now hold t h) (x : Sample) :
    SagPhase now (nextSagHold t hold x) t h := by
  by_cases normal : t.st = .normal
  · rwa [nextSagHold, if_pos normal]
  · unfold SagPhase at phase ⊢
    cases here : t.st with
    | normal => exact absurd here normal
    | init | sag | interruption | holdOff => rwa [here] at phase

private theorem sagInv_move {now : UInt64} {hold : UInt16} {t u : SagTrack} {h : History}
    {x : Sample} (inv : SagInv now hold t h) (move : SagMove x t u) (ticks : now ≤ x.sysTick64)
    (raised : t.st = .normal → (sagMask x).Some → x.cfg.sag.holdOffCyc ≤ hold)
    (afterIntr : t.st = .normal → (sagMask x).Some → t.inf.type ≠ .E_SAG →
      x.cfg.sag.holdOffCyc.toUInt64 < x.sysTick64 - t.inf.endTs)
    (sagRoom : t.st = .sag → t.sag < 65535)
    (intrRoom : t.st = .interruption → t.intr < 65535) :
    SagInv x.sysTick64 (nextSagHold t hold x) u
      (h.observe (SagOpen t.st) (SagOpen u.st) x.sysTick64.toNat x.cfg.sag.holdOffCyc.toNat) := by
  have phase := inv.phase.later ticks
  have shown := inv.emits
  cases move with
  | still quiet =>
      rw [observe_same Iff.rfl]
      exact ⟨shown, inv.sag, inv.intr, phase.hold x⟩
  | arm init =>
      rw [SagPhase, init] at phase
      rw [observe_same (iff_of_false (by rw [init]; decide) (by simp [SagOpen]))]
      refine ⟨shown, inv.sag, inv.intr, phase.1, fun _ => ?_, fun intr => absurd phase.2.2 intr⟩
      rw [phase.2.1]
      exact nofun
  | start normal below =>
      rw [SagPhase, normal] at phase
      obtain ⟨shut, released, broken⟩ := phase
      have clear : Clear h.closed x.cfg.sag.holdOffCyc.toNat x.sysTick64.toNat := by
        by_cases sag : t.inf.type = .E_SAG
        · exact (released sag).mono (UInt16.le_iff_toNat_le.mp (raised normal below)) le_rfl
        · intro e mem
          rw [(broken sag).1 e mem]
          exact clear_of_passed (afterIntr normal below sag) (broken sag).2
      rw [observe_start (by rw [normal]; decide) (.inl rfl)]
      exact ⟨⟨shown.agrees, shown.wellFormed.start clear⟩, inv.sag, inv.intr, ⟨_, rfl⟩,
        UInt64.le_refl _⟩
  | widen sag below =>
      rw [SagPhase, sag] at phase
      rw [observe_same Iff.rfl]
      refine ⟨shown, inv.sag, inv.intr, ?_⟩
      rw [SagPhase, sag]
      exact phase
  | worsen sag =>
      rw [SagPhase, sag] at phase
      rw [observe_same (iff_of_true (.inl sag) (.inr rfl))]
      exact ⟨shown, inv.sag, inv.intr, phase⟩
  | endSag sag full =>
      rw [SagPhase, sag] at phase
      obtain ⟨⟨gap, isOpen⟩, later⟩ := phase
      rw [observe_stop (.inl sag) not_sagOpen_holdOff isOpen]
      refine ⟨shown.finish isOpen later, ?_, ?_, rfl, stop_head _ _, UInt64.le_refl _, rfl⟩
      · dsimp only
        rw [length_ofType_append, toNat_count (sagRoom sag), inv.sag]
        rfl
      · dsimp only
        rw [length_ofType_append, length_ofType_append, inv.intr]
        rfl
  | endIntr interruption full type kind =>
      rw [SagPhase, interruption] at phase
      obtain ⟨⟨gap, isOpen⟩, later⟩ := phase
      have other : type ≠ .E_SAG := by
        rcases kind with rfl | rfl <;> decide
      rw [observe_stop (.inr interruption) not_sagOpen_normal isOpen]
      refine ⟨shown.finish isOpen later, ?_, ?_, rfl, fun sag => absurd sag other,
        fun _ => ⟨stop_head _ _, UInt64.le_refl _⟩⟩
      · dsimp only
        rw [length_ofType_append, if_neg other, inv.sag]
        rfl
      · dsimp only
        rw [length_ofType_append, length_ofType_append, toNat_count (intrRoom interruption),
          inv.intr]
        rcases kind with rfl | rfl
        · exact Nat.add_right_comm ..
        · rfl
  | release hold passed =>
      rw [SagPhase, hold] at phase
      obtain ⟨shut, last, later, sag⟩ := phase
      rw [observe_same (iff_of_false (by rw [hold]; decide) (by simp [SagOpen]))]
      refine ⟨shown, inv.sag, inv.intr, shut, fun _ => ?_, fun intr => absurd sag intr⟩
      intro e mem
      rw [last e mem, nextSagHold, if_neg (by rw [hold]; decide)]
      exact clear_of_passed passed later

/-- The detectors of a state against its episodes. -/
structure Inv (st : State) : Prop where
  sag : SagInv st.now st.sagHold (sagTrack st.cntl) st.sag
  swell : RiseInv st.now st.swellHold (swellTrack st.cntl) st.swell
  oc : RiseInv st.now st.ocHold (ocTrack st.cntl) st.oc

private theorem inv_opening : Inv opening where
  sag := ⟨⟨rfl, wellFormed_none⟩, rfl, rfl, rfl, rfl, rfl⟩
  swell := ⟨⟨rfl, wellFormed_none⟩, rfl, rfl, rfl⟩
  oc := ⟨⟨rfl, wellFormed_none⟩, rfl, rfl, rfl⟩

private theorem inv_step (st : State) (x : Sample) (inv : Inv st) (clean : Clean st x) :
    Inv (step st x) where
  sag := sagInv_move inv.sag (sagMove st.cntl x) clean.ticks clean.sagHold clean.afterIntr
    clean.sagRoom clean.intrRoom
  swell := by
    have move := riseMove (swellInput st.cntl x) (swellTrack st.cntl)
    rw [← swellTrack_checkPqEvent] at move
    exact riseInv_move inv.swell move clean.ticks clean.swellHold clean.swellRoom
  oc := by
    have move := riseMove (ocInput st.cntl x) (ocTrack st.cntl)
    rw [← ocTrack_checkPqEvent] at move
    exact riseInv_move inv.oc move clean.ticks clean.ocHold clean.ocRoom

private theorem ofType_sagTrack {type : EventType} (kind : SagType type) (s : Cntl) :
    ofType type (sagTrack s).pushed = ofType type s.pushed := by
  rw [ofType, ofType, sagTrack, List.filter_filter]
  congr 1
  funext i
  by_cases same : i.type = type
  · simp [same, kind]
  · simp [same]

private theorem Inv.law {st : State} (inv : Inv st) : Law st where
  sag := inv.sag.emits
  swell := inv.swell.emits
  oc := inv.oc.emits
  sagCount := by
    rw [← ofType_sagTrack (.inl rfl)]
    exact inv.sag.sag
  intrCount := by
    rw [← ofType_sagTrack (.inr (.inl rfl)), ← ofType_sagTrack (.inr (.inr rfl))]
    exact inv.sag.intr
  swellCount := inv.swell.count
  ocCount := inv.oc.count

/-- From power-on, a run of clean calls emits well-formed events. -/
theorem clean_run_emits_events (xs : List Sample) (clean : Along step Clean opening xs) :
    Law (run step opening xs) :=
  (invariant_run inv_step inv_opening clean).law

/-- Sag detection below 80 with return above 85, interruptions below 5, half a second of hold-off. -/
def sagOnly : Config where
  sag := ⟨1, 500⟩
  swell := ⟨0, 500⟩
  oc := ⟨0, 500⟩
  intr := ⟨0, 500⟩
  sagLevel := 80
  sagRetLevel := 85
  swellLevel := 120
  swellRetLevel := 115
  ocLevel := 0
  ocRetLevel := 0
  intrLevel := 5

/-- A half cycle with one voltage on all phases, online. -/
def halfCycle (now : UInt64) (voltage : UInt32) : Sample :=
  ⟨now, 20, fun _ => voltage, fun _ => 0, sagOnly⟩

/-- A sag, and another one after the hold-off. -/
theorem two_sags_kept : Law (run step opening [halfCycle 0 100, halfCycle 8 50, halfCycle 16 100,
    halfCycle 520 100, halfCycle 528 50, halfCycle 536 100]) :=
  clean_run_emits_events _ (by decide)

/-- A sag, an interruption, and eight milliseconds after its end the next sag. -/
def sagAfterIntr : List Sample :=
  [halfCycle 0 100, halfCycle 8 50, halfCycle 16 2, halfCycle 24 100, halfCycle 32 50]

/-- The sag after an interruption does not wait for the hold-off. -/
theorem sag_after_interruption_unheld : ¬ Law (run step opening sagAfterIntr) ∧
    (run step opening sagAfterIntr).sag = ⟨some (32, 500), [⟨8, 24, 500⟩]⟩ := by
  have seen : (run step opening sagAfterIntr).sag = ⟨some (32, 500), [⟨8, 24, 500⟩]⟩ := by
    decide
  refine ⟨fun law => ?_, seen⟩
  have ok := law.sag.wellFormed
  rw [seen] at ok
  have late := ok.opened (32, 500) rfl ⟨8, 24, 500⟩ rfl
  dsimp only at late
  omega

end SV300.Detect.Sequence
