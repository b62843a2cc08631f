/- SV300/Detect/PqEvent
   digest: The sag, swell and over-current detectors of one half-cycle, with their capture queues. -/

import Mathlib.Data.Fintype.Basic
import Mathlib.Data.Fin.Basic
import Mathlib.Data.List.Basic
import SV300.Library.Literals

set_option autoImplicit false
set_option relaxedAutoImplicit false

namespace SV300.Detect.PqEvent

inductive EventType
  | E_SAG | E_SWELL | E_sINTR | E_lINTR | E_OC
  deriving DecidableEq, Repr

abbrev Mask := Fin 3 → Bool

def Mask.empty : Mask := fun _ => false

def Mask.Some (m : Mask) : Prop := ∃ i, m i = true

/-- All three bits, 7 in the source. -/
def Mask.Full (m : Mask) : Prop := ∀ i, m i = true

def Mask.union (m n : Mask) : Mask := fun i => m i || n i

instance (m : Mask) : Decidable m.Some := inferInstanceAs (Decidable (∃ _, _))
instance (m : Mask) : Decidable m.Full := inferInstanceAs (Decidable (∀ _, _))

/-- `PQ_EVENT_INFO`. -/
structure Info where
  startTs : UInt64
  endTs : UInt64
  mask : Mask
  type : EventType
  Val : Fin 3 → UInt32

/-- `PQ_EVT_Q`; its mask is never written. -/
structure CapEntry where
  Ts : UInt64
  eType : EventType
  deriving DecidableEq, Repr

/-- `PQ_EVT_CAP_Q`, a ring of eight: written at `fr`, read at `re`. -/
structure CapQ where
  fr : Nat
  re : Nat
  Q : Nat → CapEntry
  fr_lt : fr < 8
  re_lt : re < 8

def CapQ.empty : CapQ := ⟨0, 0, fun _ => ⟨0, .E_SAG⟩, by decide, by decide⟩

/-- The settings of one event type. -/
structure Pqevt where
  action : UInt16
  holdOffCyc : UInt16

structure Config where
  sag : Pqevt
  swell : Pqevt
  oc : Pqevt
  intr : Pqevt
  sagLevel : UInt32
  sagRetLevel : UInt32
  swellLevel : UInt32
  swellRetLevel : UInt32
  ocLevel : UInt32
  ocRetLevel : UInt32
  intrLevel : UInt32

/-- What one call reads: the tick in milliseconds, the count of zero crossings since the last
timeout, the half-cycle values of the phases and the settings as they stand. -/
structure Sample where
  sysTick64 : UInt64
  zxMonCnt : UInt64
  urmsFast : Fin 3 → UInt32
  irmsFast : Fin 3 → UInt32
  cfg : Config

/-- `sagSt`, 0 to 4. -/
inductive SagSt | init | normal | sag | interruption | holdOff
  deriving DecidableEq, Repr

/-- `swellSt` and `ocSt`, 0 to 3. -/
inductive RiseSt | init | normal | event | holdOff
  deriving DecidableEq, Repr

structure EventCount where
  oc : UInt16
  sag : UInt16
  swell : UInt16
  intr : UInt16

/-- The event counts of the ten-minute quality log: the three phases and polyphase. -/
structure QualCount where
  sag : Fin 4 → UInt32
  swell : Fin 4 → UInt32
  shortIntr : Fin 4 → UInt32
  longIntr : Fin 4 → UInt32

/-- What the detectors keep, with the events handed to `pushEvent` so far. -/
structure Cntl where
  online : Bool
  sagMask : Mask
  sagRetMask : Mask
  swellMask : Mask
  swellRetMask : Mask
  ocMask : Mask
  ocRetMask : Mask
  sagSt : SagSt
  swellSt : RiseSt
  ocSt : RiseSt
  sagInf : Info
  swellInf : Info
  ocInf : Info
  wQ : CapQ
  rQ : CapQ
  pqEvtCnt : EventCount
  q10m : QualCount
  pushed : List Info

def powerOn : Cntl where
  online := false
  sagMask := .empty
  sagRetMask := .empty
  swellMask := .empty
  swellRetMask := .empty
  ocMask := .empty
  ocRetMask := .empty
  sagSt := .init
  swellSt := .init
  ocSt := .init
  sagInf := ⟨0, 0, .empty, .E_SAG, fun _ => 0⟩
  swellInf := ⟨0, 0, .empty, .E_SAG, fun _ => 0⟩
  ocInf := ⟨0, 0, .empty, .E_SAG, fun _ => 0⟩
  wQ := .empty
  rQ := .empty
  pqEvtCnt := ⟨0, 0, 0, 0⟩
  q10m := ⟨fun _ => 0, fun _ => 0, fun _ => 0, fun _ => 0⟩
  pushed := []

/-- `putEventCap`: an entry that finds the queue full is dropped. -/
def putEventCap (q : CapQ) (e : CapEntry) : CapQ :=
  let fr := (q.fr + 1) % 8
  if fr ≠ q.re then
    { q with Q := Function.update q.Q q.fr e, fr := fr, fr_lt := Nat.mod_lt _ (by decide) }
  else q

/-- `updateLastCapType`: the type of the entry written last, while it is pending. -/
def updateLastCapType (q : CapQ) (oldType newType : EventType) : CapQ :=
  if q.fr ≠ q.re then
    let last := (q.fr + 8 - 1) % 8
    if (q.Q last).eType = oldType then
      { q with Q := Function.update q.Q last { q.Q last with eType := newType } }
    else q
  else q

/-- The entry is offered to the waveform and to the rms capture. -/
def capture (s : Cntl) (e : CapEntry) : Cntl :=
  { s with wQ := putEventCap s.wQ e, rQ := putEventCap s.rQ e }

/-- The input counts as online after 12 zero crossings, and as offline without one. -/
def checkOnline (x : Sample) (s : Cntl) : Cntl :=
  { s with online := if s.online then decide (x.zxMonCnt ≠ 0) else decide (12 < x.zxMonCnt) }

/-- The phases below the sag level, while sag detection is enabled. -/
def sagMask (x : Sample) : Mask := fun i =>
  decide (x.cfg.sag.action ≠ 0 ∧ x.urmsFast i < x.cfg.sagLevel)

def sagRetMask (x : Sample) : Mask := fun i =>
  decide (x.cfg.sag.action ≠ 0 ∧ ¬ x.urmsFast i < x.cfg.sagLevel ∧
    x.cfg.sagRetLevel < x.urmsFast i)

def swellMask (x : Sample) : Mask := fun i =>
  decide (x.cfg.swell.action ≠ 0 ∧ x.cfg.swellLevel < x.urmsFast i)

def swellRetMask (x : Sample) : Mask := fun i =>
  decide (x.cfg.swell.action ≠ 0 ∧ ¬ x.cfg.swellLevel < x.urmsFast i ∧
    x.urmsFast i < x.cfg.swellRetLevel)

def ocMask (x : Sample) : Mask := fun i =>
  decide (x.cfg.oc.action ≠ 0 ∧ x.cfg.ocLevel ≠ 0 ∧ x.cfg.ocLevel < x.irmsFast i)

def ocRetMask (x : Sample) : Mask := fun i =>
  decide (x.cfg.oc.action ≠ 0 ∧ x.cfg.ocLevel ≠ 0 ∧ ¬ x.cfg.ocLevel < x.irmsFast i ∧
    x.irmsFast i < x.cfg.ocRetLevel)

/-- All masks but `ocRetMask` are cleared before they are built. -/
def makeMasks (x : Sample) (s : Cntl) : Cntl :=
  { s with
    sagMask := sagMask x
    sagRetMask := sagRetMask x
    swellMask := swellMask x
    swellRetMask := swellRetMask x
    ocMask := ocMask x
    ocRetMask := s.ocRetMask.union (ocRetMask x) }

/-- `updateEventCount`: one count for each phase, the fourth for more than one. -/
def updateEventCount (mask : Mask) (ec : Fin 4 → UInt32) : Fin 4 → UInt32 := fun i =>
  if h : i.val < 3 then
    if mask ⟨i, h⟩ = true then ec i + 1 else ec i
  else if 1 < ((List.finRange 3).countP fun j => mask j) then ec i + 1 else ec i

/-- A sag turns into an interruption: the voltage is lost, or a phase falls below the level. -/
def IsIntr (x : Sample) (s : Cntl) : Prop :=
  s.online = false ∨ ∃ i, s.sagMask i = true ∧ x.urmsFast i < x.cfg.intrLevel

instance (x : Sample) (s : Cntl) : Decidable (IsIntr x s) := inferInstanceAs (Decidable (_ ∨ _))

def startSag (x : Sample) (s : Cntl) : Cntl :=
  let s := if x.cfg.sag.action = 2 then capture s ⟨x.sysTick64, .E_SAG⟩ else s
  { s with
    sagInf := { s.sagInf with startTs := x.sysTick64, mask := s.sagMask, Val := x.urmsFast }
    sagSt := .sag }

def startIntr (x : Sample) (s : Cntl) : Cntl :=
  let s :=
    if x.cfg.sag.action = 2 then
      { s with
        wQ := updateLastCapType s.wQ .E_SAG .E_sINTR
        rQ := updateLastCapType s.rQ .E_SAG .E_sINTR }
    else if x.cfg.intr.action = 2 then capture s ⟨s.sagInf.startTs, .E_sINTR⟩
    else s
  { s with sagSt := .interruption }

/-- The mask and the smallest values of a sag that goes on. -/
def updateSag (x : Sample) (s : Cntl) : Cntl :=
  { s with sagInf := { s.sagInf with
      mask := s.sagInf.mask.union s.sagMask
      Val := fun i => min (s.sagInf.Val i) (x.urmsFast i) } }

def endSag (x : Sample) (s : Cntl) : Cntl :=
  let inf := { s.sagInf with endTs := x.sysTick64, type := .E_SAG }
  { s with
    sagInf := inf
    pushed := s.pushed ++ [inf]
    q10m := { s.q10m with sag := updateEventCount inf.mask s.q10m.sag }
    sagSt := .holdOff
    pqEvtCnt := { s.pqEvtCnt with sag := s.pqEvtCnt.sag + 1 } }

/-- An interruption of less than a minute is a short one. -/
def endIntr (x : Sample) (s : Cntl) : Cntl :=
  let short := x.sysTick64 - s.sagInf.startTs < 60000
  let inf := { s.sagInf with
    endTs := x.sysTick64
    type := if short then .E_sINTR else .E_lINTR }
  { s with
    sagInf := inf
    pushed := s.pushed ++ [inf]
    q10m := if short then
        { s.q10m with shortIntr := updateEventCount inf.mask s.q10m.shortIntr }
      else { s.q10m with longIntr := updateEventCount inf.mask s.q10m.longIntr }
    pqEvtCnt := { s.pqEvtCnt with intr := s.pqEvtCnt.intr + 1 }
    sagSt := .normal }

def sagHandler (x : Sample) (s : Cntl) : Cntl :=
  match s.sagSt with
  | .init => if ¬ s.sagMask.Some ∧ s.online = true then { s with sagSt := .normal } else s
  | .normal => if s.sagMask.Some then startSag x s else s
  | .sag =>
    if IsIntr x s then startIntr x s
    else if s.sagMask.Some then updateSag x s
    else if s.sagRetMask.Full then endSag x s
    else s
  | .interruption => if s.sagRetMask.Full then endIntr x s else s
  | .holdOff =>
    if x.cfg.sag.holdOffCyc.toUInt64 < x.sysTick64 - s.sagInf.endTs then
      { s with sagSt := .normal }
    else s

/-- What a step of a rising detector amounts to. -/
inductive Outcome | quiet | started | ended
  deriving DecidableEq, Repr

/-- The detector of a rising quantity, as the source has it twice: for the voltage and for the
current. -/
def riseStep (type : EventType) (now : UInt64) (holdOff : UInt16) (online : Bool)
    (val : Fin 3 → UInt32) (mask ret : Mask) : RiseSt × Info → (RiseSt × Info) × Outcome
  | (.init, inf) =>
    if ¬ mask.Some ∧ online = true then ((.normal, inf), .quiet) else ((.init, inf), .quiet)
  | (.normal, inf) =>
    if mask.Some then
      ((.event, { inf with startTs := now, mask := mask, Val := val }), .started)
    else ((.normal, inf), .quiet)
  | (.event, inf) =>
    if mask.Some then
      ((.event, { inf with
        mask := inf.mask.union mask
        Val := fun i => max (inf.Val i) (val i) }), .quiet)
    else if ret.Full then ((.holdOff, { inf with endTs := now, type := type }), .ended)
    else ((.event, inf), .quiet)
  | (.holdOff, inf) =>
    if holdOff.toUInt64 < now - inf.endTs then ((.normal, inf), .quiet)
    else ((.holdOff, inf), .quiet)

def swellStep (x : Sample) (s : Cntl) : (RiseSt × Info) × Outcome :=
  riseStep .E_SWELL x.sysTick64 x.cfg.swell.holdOffCyc s.online x.urmsFast s.swellMask
    s.swellRetMask (s.swellSt, s.swellInf)

def swellHandler (x : Sample) (s : Cntl) : Cntl :=
  let r := swellStep x s
  let t := { s with swellSt := r.1.1, swellInf := r.1.2 }
  match r.2 with
  | .quiet => t
  | .started =>
    let t := if x.cfg.swell.action = 2 then capture t ⟨x.sysTick64, .E_SWELL⟩ else t
    { t with pqEvtCnt := { t.pqEvtCnt with swell := t.pqEvtCnt.swell + 1 } }
  | .ended =>
    { t with
      pushed := t.pushed ++ [r.1.2]
      q10m := { t.q10m with swell := updateEventCount r.1.2.mask t.q10m.swell } }

def ocStep (x : Sample) (s : Cntl) : (RiseSt × Info) × Outcome :=
  riseStep .E_OC x.sysTick64 x.cfg.oc.holdOffCyc s.online x.irmsFast s.ocMask s.ocRetMask
    (s.ocSt, s.ocInf)

/-- An over-current is not counted in the quality log. -/
def ocHandler (x : Sample) (s : Cntl) : Cntl :=
  let r := ocStep x s
  let t := { s with ocSt := r.1.1, ocInf := r.1.2 }
  match r.2 with
  | .quiet => t
  | .started =>
    let t := if x.cfg.oc.action = 2 then capture t ⟨x.sysTick64, .E_OC⟩ else t
    { t with pqEvtCnt := { t.pqEvtCnt with oc := t.pqEvtCnt.oc + 1 } }
  | .ended => { t with pushed := t.pushed ++ [r.1.2] }

/-- The state the detectors see: online and the masks are of this call. -/
def prepare (s : Cntl) (x : Sample) : Cntl := makeMasks x (checkOnline x s)

/-- `checkPqEvent`. -/
def checkPqEvent (s : Cntl) (x : Sample) : Cntl :=
  ocHandler x (swellHandler x (sagHandler x (prepare s x)))

end SV300.Detect.PqEvent
