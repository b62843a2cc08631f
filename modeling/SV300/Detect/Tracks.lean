/- SV300/Detect/Tracks
   digest: What one call of checkPqEvent does to each of its three detectors, one at a time. -/

import SV300.Detect.PqEvent

set_option autoImplicit false
set_option relaxedAutoImplicit false

namespace SV300.Detect.Tracks

open SV300.Detect.PqEvent

/-- One rising detector: its state and event, its counter and its pushed events. -/
structure RiseTrack where
  st : RiseSt
  inf : Info
  count : UInt16
  pushed : List Info

/-- What a rising detector reads in a call. -/
structure RiseInput where
  type : EventType
  now : UInt64
  holdOff : UInt16
  online : Bool
  val : Fin 3 → UInt32
  mask : Mask
  ret : Mask

def riseTrack (r : RiseInput) (t : RiseTrack) : RiseTrack :=
  let u := riseStep r.type r.now r.holdOff r.online r.val r.mask r.ret (t.st, t.inf)
  { st := u.1.1
    inf := u.1.2
    count := if u.2 = .started then t.count + 1 else t.count
    pushed := if u.2 = .ended then t.pushed ++ [u.1.2] else t.pushed }

def ofType (type : EventType) (is : List Info) : List Info := is.filter fun i => i.type = type

def swellTrack (s : Cntl) : RiseTrack :=
  ⟨s.swellSt, s.swellInf, s.pqEvtCnt.swell, ofType .E_SWELL s.pushed⟩

def ocTrack (s : Cntl) : RiseTrack := ⟨s.ocSt, s.ocInf, s.pqEvtCnt.oc, ofType .E_OC s.pushed⟩

def swellInput (s : Cntl) (x : Sample) : RiseInput where
  type := .E_SWELL
  now := x.sysTick64
  holdOff := x.cfg.swell.holdOffCyc
  online := (checkOnline x s).online
  val := x.urmsFast
  mask := swellMask x
  ret := swellRetMask x

/-- The recovered phases of the over-current detector are those of every call so far. -/
def ocInput (s : Cntl) (x : Sample) : RiseInput where
  type := .E_OC
  now := x.sysTick64
  holdOff := x.cfg.oc.holdOffCyc
  online := (checkOnline x s).online
  val := x.irmsFast
  mask := ocMask x
  ret := s.ocRetMask.union (ocRetMask x)

/-- The detector of sags and interruptions. -/
structure SagTrack where
  st : SagSt
  inf : Info
  sag : UInt16
  intr : UInt16
  pushed : List Info

/-- A sag or an interruption is going on. -/
def SagOpen (st : SagSt) : Prop := st = .sag ∨ st = .interruption

instance (st : SagSt) : Decidable (SagOpen st) := inferInstanceAs (Decidable (_ ∨ _))

theorem not_sagOpen_normal : ¬ SagOpen .normal := by decide

theorem not_sagOpen_holdOff : ¬ SagOpen .holdOff := by decide

/-- The event types of the sag detector. -/
def SagType (type : EventType) : Prop := type = .E_SAG ∨ type = .E_sINTR ∨ type = .E_lINTR

instance (type : EventType) : Decidable (SagType type) := inferInstanceAs (Decidable (_ ∨ _ ∨ _))

def sagTrack (s : Cntl) : SagTrack :=
  ⟨s.sagSt, s.sagInf, s.pqEvtCnt.sag, s.pqEvtCnt.intr, s.pushed.filter fun i => SagType i.type⟩

theorem length_ofType_append (type : EventType) (is : List Info) (i : Info) :
    (ofType type (is ++ [i])).length =
      (ofType type is).length + if i.type = type then 1 else 0 := by
  by_cases same : i.type = type
  · simp [ofType, same]
  · simp [ofType, same]

private theorem riseStep_ended_type {type : EventType} {now : UInt64} {holdOff : UInt16}
    {online : Bool} {val : Fin 3 → UInt32} {mask ret : Mask} {d : RiseSt × Info}
    (ended : (riseStep type now holdOff online val mask ret d).2 = .ended) :
    (riseStep type now holdOff online val mask ret d).1.2.type = type := by
  obtain ⟨st, inf⟩ := d
  cases st with
  | init | normal | holdOff =>
      simp only [riseStep] at ended
      split at ended <;> cases ended
  | event =>
      simp only [riseStep] at ended ⊢
      split at ended
      · cases ended
      rename_i quiet
      split at ended
      · rename_i full
        rw [if_neg quiet, if_pos full]
      · cases ended

/-- What the three handlers read of the call. -/
structure SameView (s t : Cntl) : Prop where
  online : t.online = s.online
  sagMask : t.sagMask = s.sagMask
  sagRetMask : t.sagRetMask = s.sagRetMask
  swellMask : t.swellMask = s.swellMask
  swellRetMask : t.swellRetMask = s.swellRetMask
  ocMask : t.ocMask = s.ocMask
  ocRetMask : t.ocRetMask = s.ocRetMask

theorem SameView.trans {s t u : Cntl} (h : SameView s t) (k : SameView t u) : SameView s u where
  online := k.online.trans h.online
  sagMask := k.sagMask.trans h.sagMask
  sagRetMask := k.sagRetMask.trans h.sagRetMask
  swellMask := k.swellMask.trans h.swellMask
  swellRetMask := k.swellRetMask.trans h.swellRetMask
  ocMask := k.ocMask.trans h.ocMask
  ocRetMask := k.ocRetMask.trans h.ocRetMask

private theorem sagHandler_frame (x : Sample) (s : Cntl) :
    SameView s (sagHandler x s) ∧ swellTrack (sagHandler x s) = swellTrack s ∧
      ocTrack (sagHandler x s) = ocTrack s := by
  have none : SameView s s := ⟨rfl, rfl, rfl, rfl, rfl, rfl, rfl⟩
  unfold sagHandler
  cases s.sagSt with
  | init | holdOff =>
      dsimp only
      split
      · exact ⟨⟨rfl, rfl, rfl, rfl, rfl, rfl, rfl⟩, rfl, rfl⟩
      · exact ⟨none, rfl, rfl⟩
  | normal =>
      dsimp only [startSag]
      split
      · split
        · exact ⟨⟨rfl, rfl, rfl, rfl, rfl, rfl, rfl⟩, rfl, rfl⟩
        · exact ⟨⟨rfl, rfl, rfl, rfl, rfl, rfl, rfl⟩, rfl, rfl⟩
      · exact ⟨none, rfl, rfl⟩
  | sag =>
      dsimp only [startIntr, updateSag]
      split
      · split
        · exact ⟨⟨rfl, rfl, rfl, rfl, rfl, rfl, rfl⟩, rfl, rfl⟩
        split
        · exact ⟨⟨rfl, rfl, rfl, rfl, rfl, rfl, rfl⟩, rfl, rfl⟩
        · exact ⟨⟨rfl, rfl, rfl, rfl, rfl, rfl, rfl⟩, rfl, rfl⟩
      split
      · exact ⟨⟨rfl, rfl, rfl, rfl, rfl, rfl, rfl⟩, rfl, rfl⟩
      split
      · refine ⟨⟨rfl, rfl, rfl, rfl, rfl, rfl, rfl⟩, ?_, ?_⟩
        all_goals simp [endSag, swellTrack, ocTrack, ofType]
      · exact ⟨none, rfl, rfl⟩
  | interruption =>
      dsimp only
      split
      · refine ⟨⟨rfl, rfl, rfl, rfl, rfl, rfl, rfl⟩, ?_, ?_⟩
        all_goals
          dsimp only [endIntr]
          split <;> simp [swellTrack, ocTrack, ofType]
      · exact ⟨none, rfl, rfl⟩

private theorem swellHandler_frame (x : Sample) (s : Cntl) :
    SameView s (swellHandler x s) ∧ ocTrack (swellHandler x s) = ocTrack s ∧
      sagTrack (swellHandler x s) = sagTrack s ∧
      swellTrack (swellHandler x s) = riseTrack ⟨.E_SWELL, x.sysTick64, x.cfg.swell.holdOffCyc,
        s.online, x.urmsFast, s.swellMask, s.swellRetMask⟩ (swellTrack s) := by
  have type : (swellStep x s).2 = .ended → (swellStep x s).1.2.type = .E_SWELL :=
    riseStep_ended_type
  have track : riseTrack ⟨.E_SWELL, x.sysTick64, x.cfg.swell.holdOffCyc, s.online, x.urmsFast,
      s.swellMask, s.swellRetMask⟩ (swellTrack s) =
      { st := (swellStep x s).1.1
        inf := (swellStep x s).1.2
        count := if (swellStep x s).2 = .started then s.pqEvtCnt.swell + 1
          else s.pqEvtCnt.swell
        pushed := if (swellStep x s).2 = .ended then
            ofType .E_SWELL s.pushed ++ [(swellStep x s).1.2]
          else ofType .E_SWELL s.pushed } := rfl
  rw [track]
  unfold swellHandler
  generalize swellStep x s = r at type
  obtain ⟨⟨st, inf⟩, outcome⟩ := r
  cases outcome with
  | quiet => exact ⟨⟨rfl, rfl, rfl, rfl, rfl, rfl, rfl⟩, rfl, rfl, rfl⟩
  | started =>
      dsimp only
      split
      · exact ⟨⟨rfl, rfl, rfl, rfl, rfl, rfl, rfl⟩, rfl, rfl, rfl⟩
      · exact ⟨⟨rfl, rfl, rfl, rfl, rfl, rfl, rfl⟩, rfl, rfl, rfl⟩
  | ended =>
      have swell : inf.type = .E_SWELL := type rfl
      refine ⟨⟨rfl, rfl, rfl, rfl, rfl, rfl, rfl⟩, ?_, ?_, ?_⟩
      · simp [ocTrack, ofType, swell]
      · simp [sagTrack, SagType, swell]
      · simp [swellTrack, ofType, swell]

private theorem ocHandler_frame (x : Sample) (s : Cntl) :
    swellTrack (ocHandler x s) = swellTrack s ∧ sagTrack (ocHandler x s) = sagTrack s ∧
      ocTrack (ocHandler x s) = riseTrack ⟨.E_OC, x.sysTick64, x.cfg.oc.holdOffCyc, s.online,
        x.irmsFast, s.ocMask, s.ocRetMask⟩ (ocTrack s) := by
  have type : (ocStep x s).2 = .ended → (ocStep x s).1.2.type = .E_OC := riseStep_ended_type
  have track : riseTrack ⟨.E_OC, x.sysTick64, x.cfg.oc.holdOffCyc, s.online, x.irmsFast, s.ocMask,
      s.ocRetMask⟩ (ocTrack s) =
      { st := (ocStep x s).1.1
        inf := (ocStep x s).1.2
        count := if (ocStep x s).2 = .started then s.pqEvtCnt.oc + 1 else s.pqEvtCnt.oc
        pushed := if (ocStep x s).2 = .ended then ofType .E_OC s.pushed ++ [(ocStep x s).1.2]
          else ofType .E_OC s.pushed } := rfl
  rw [track]
  unfold ocHandler
  generalize ocStep x s = r at type
  obtain ⟨⟨st, inf⟩, outcome⟩ := r
  cases outcome with
  | quiet => exact ⟨rfl, rfl, rfl⟩
  | started =>
      dsimp only
      split
      · exact ⟨rfl, rfl, rfl⟩
      · exact ⟨rfl, rfl, rfl⟩
  | ended =>
      have oc : inf.type = .E_OC := type rfl
      refine ⟨?_, ?_, ?_⟩
      · simp [swellTrack, ofType, oc]
      · simp [sagTrack, SagType, oc]
      · simp [ocTrack, ofType, oc]

theorem swellTrack_checkPqEvent (s : Cntl) (x : Sample) :
    swellTrack (checkPqEvent s x) = riseTrack (swellInput s x) (swellTrack s) := by
  obtain ⟨view, sag, _⟩ := sagHandler_frame x (prepare s x)
  have swell := (swellHandler_frame x (sagHandler x (prepare s x))).2.2.2
  rw [checkPqEvent, (ocHandler_frame x _).1, swell, sag, view.online, view.swellMask,
    view.swellRetMask]
  rfl

theorem ocTrack_checkPqEvent (s : Cntl) (x : Sample) :
    ocTrack (checkPqEvent s x) = riseTrack (ocInput s x) (ocTrack s) := by
  obtain ⟨view, _, oc⟩ := sagHandler_frame x (prepare s x)
  obtain ⟨view', same, _, _⟩ := swellHandler_frame x (sagHandler x (prepare s x))
  have both := view.trans view'
  rw [checkPqEvent, (ocHandler_frame x _).2.2, same, oc, both.online, both.ocMask, both.ocRetMask]
  rfl

theorem sagTrack_checkPqEvent (s : Cntl) (x : Sample) :
    sagTrack (checkPqEvent s x) = sagTrack (sagHandler x (prepare s x)) := by
  rw [checkPqEvent, (ocHandler_frame x _).2.1, (swellHandler_frame x _).2.2.1]

/-- What a call can do to a rising detector. -/
inductive RiseMove (r : RiseInput) (t : RiseTrack) : RiseTrack → Prop
  | still : RiseMove r t t
  | arm (init : t.st = .init) : RiseMove r t { t with st := .normal }
  | start (normal : t.st = .normal) (above : r.mask.Some) : RiseMove r t { t with
      st := .event
      inf := { t.inf with startTs := r.now, mask := r.mask, Val := r.val }
      count := t.count + 1 }
  | widen (event : t.st = .event) (mask : Mask) (val : Fin 3 → UInt32) :
      RiseMove r t { t with inf := { t.inf with mask := mask, Val := val } }
  | finish (event : t.st = .event) : RiseMove r t { t with
      st := .holdOff
      inf := { t.inf with endTs := r.now, type := r.type }
      pushed := t.pushed ++ [{ t.inf with endTs := r.now, type := r.type }] }
  | release (hold : t.st = .holdOff) (passed : r.holdOff.toUInt64 < r.now - t.inf.endTs) :
      RiseMove r t { t with st := .normal }

theorem riseMove (r : RiseInput) (t : RiseTrack) : RiseMove r t (riseTrack r t) := by
  obtain ⟨st, inf, count, pushed⟩ := t
  unfold riseTrack
  cases st with
  | init =>
      simp only [riseStep]
      split
      · exact .arm rfl
      · exact .still
  | normal =>
      simp only [riseStep]
      split
      · rename_i above
        exact .start rfl above
      · exact .still
  | event =>
      simp only [riseStep]
      split
      · exact .widen rfl _ _
      split
      · exact .finish rfl
      · exact .still
  | holdOff =>
      simp only [riseStep]
      split
      · rename_i passed
        exact .release rfl passed
      · exact .still

/-- What a call can do to the sag detector. -/
inductive SagMove (x : Sample) (t : SagTrack) : SagTrack → Prop
  | still (quiet : t.st = .sag → ¬ (sagMask x).Some) : SagMove x t t
  | arm (init : t.st = .init) : SagMove x t { t with st := .normal }
  | start (normal : t.st = .normal) (below : (sagMask x).Some) : SagMove x t { t with
      st := .sag
      inf := { t.inf with startTs := x.sysTick64, mask := sagMask x, Val := x.urmsFast } }
  | widen (sag : t.st = .sag) (below : (sagMask x).Some) : SagMove x t { t with
      inf := { t.inf with
        mask := t.inf.mask.union (sagMask x)
        Val := fun i => min (t.inf.Val i) (x.urmsFast i) } }
  | worsen (sag : t.st = .sag) : SagMove x t { t with st := .interruption }
  | endSag (sag : t.st = .sag) (full : (sagRetMask x).Full) : SagMove x t { t with
      st := .holdOff
      inf := { t.inf with endTs := x.sysTick64, type := .E_SAG }
      sag := t.sag + 1
      pushed := t.pushed ++ [{ t.inf with endTs := x.sysTick64, type := .E_SAG }] }
  | endIntr (interruption : t.st = .interruption) (full : (sagRetMask x).Full)
      (type : EventType) (kind : type = .E_sINTR ∨ type = .E_lINTR) : SagMove x t { t with
      st := .normal
      inf := { t.inf with endTs := x.sysTick64, type := type }
      intr := t.intr + 1
      pushed := t.pushed ++ [{ t.inf with endTs := x.sysTick64, type := type }] }
  | release (hold : t.st = .holdOff)
      (passed : x.cfg.sag.holdOffCyc.toUInt64 < x.sysTick64 - t.inf.endTs) :
      SagMove x t { t with st := .normal }

private theorem sagTrack_pushed {is : List Info} {i : Info} (kind : SagType i.type) :
    ((is ++ [i]).filter fun i => SagType i.type) = (is.filter fun i => SagType i.type) ++ [i] := by
  simp [kind]

private theorem sagMove_handler (x : Sample) {s : Cntl} (mask : s.sagMask = sagMask x)
    (ret : s.sagRetMask = sagRetMask x) :
    SagMove x (sagTrack s) (sagTrack (sagHandler x s)) := by
  unfold sagHandler
  cases here : s.sagSt with
  | init =>
      dsimp only
      split
      · exact .arm here
      · exact .still fun sag => by cases here.symm.trans sag
  | normal =>
      dsimp only
      split
      · rename_i below
        rw [mask] at below
        have started : sagTrack (startSag x s) = { sagTrack s with
            st := .sag
            inf := { s.sagInf with startTs := x.sysTick64, mask := sagMask x, Val := x.urmsFast } } := by
          rw [← mask]
          dsimp only [startSag]
          split <;> rfl
        rw [started]
        exact .start here below
      · exact .still fun sag => by cases here.symm.trans sag
  | sag =>
      dsimp only
      split
      · have worse : sagTrack (startIntr x s) = { sagTrack s with st := .interruption } := by
          dsimp only [startIntr]
          split
          · rfl
          split <;> rfl
        rw [worse]
        exact .worsen here
      split
      · rename_i below
        rw [mask] at below
        have wider : sagTrack (updateSag x s) = { sagTrack s with
            inf := { s.sagInf with
              mask := s.sagInf.mask.union (sagMask x)
              Val := fun i => min (s.sagInf.Val i) (x.urmsFast i) } } := by
          rw [← mask]
          rfl
        rw [wider]
        exact .widen here below
      split
      · rename_i full
        rw [ret] at full
        have ended : sagTrack (endSag x s) = { sagTrack s with
            st := .holdOff
            inf := { s.sagInf with endTs := x.sysTick64, type := .E_SAG }
            sag := s.pqEvtCnt.sag + 1
            pushed := (sagTrack s).pushed ++
              [{ s.sagInf with endTs := x.sysTick64, type := .E_SAG }] } := by
          simp only [sagTrack, endSag]
          rw [sagTrack_pushed (.inl rfl)]
        rw [ended]
        exact .endSag here full
      · rename_i quiet _
        rw [mask] at quiet
        exact .still fun _ => quiet
  | interruption =>
      dsimp only
      split
      · rename_i full
        rw [ret] at full
        have ended : ∃ type, (type = .E_sINTR ∨ type = .E_lINTR) ∧
            sagTrack (endIntr x s) = { sagTrack s with
              st := .normal
              inf := { s.sagInf with endTs := x.sysTick64, type := type }
              intr := s.pqEvtCnt.intr + 1
              pushed := (sagTrack s).pushed ++
                [{ s.sagInf with endTs := x.sysTick64, type := type }] } := by
          by_cases short : x.sysTick64 - s.sagInf.startTs < 60000
          · refine ⟨.E_sINTR, .inl rfl, ?_⟩
            simp only [sagTrack, endIntr, short, if_true]
            rw [sagTrack_pushed (.inr (.inl rfl))]
          · refine ⟨.E_lINTR, .inr rfl, ?_⟩
            simp only [sagTrack, endIntr, short, if_false]
            rw [sagTrack_pushed (.inr (.inr rfl))]
        obtain ⟨type, kind, same⟩ := ended
        rw [same]
        exact .endIntr here full type kind
      · exact .still fun sag => by cases here.symm.trans sag
  | holdOff =>
      dsimp only
      split
      · rename_i passed
        exact .release here passed
      · exact .still fun sag => by cases here.symm.trans sag

theorem sagMove (s : Cntl) (x : Sample) :
    SagMove x (sagTrack s) (sagTrack (checkPqEvent s x)) := by
  rw [sagTrack_checkPqEvent]
  exact sagMove_handler x (s := prepare s x) rfl rfl

end SV300.Detect.Tracks
