/- SV300/Detect/Recovery
   digest: Which calls end an event, and whether all three phases have recovered in that call. -/

import SV300.Library.Runs
import SV300.Detect.Tracks

set_option autoImplicit false
set_option relaxedAutoImplicit false

namespace SV300.Detect.Recovery

open SV300.Library.Runs
open SV300.Detect.PqEvent
open SV300.Detect.Tracks

/-- An event that ends in this call finds all three phases of this call beyond the return level:
above it for sags and interruptions, below it for swells and over-currents. -/
structure Recovers (s : Cntl) (x : Sample) : Prop where
  sag : SagOpen s.sagSt → ¬ SagOpen (checkPqEvent s x).sagSt →
    ∀ i, x.cfg.sagRetLevel < x.urmsFast i
  swell : s.swellSt = .event → (checkPqEvent s x).swellSt ≠ .event →
    ∀ i, x.urmsFast i < x.cfg.swellRetLevel
  oc : s.ocSt = .event → (checkPqEvent s x).ocSt ≠ .event →
    ∀ i, x.irmsFast i < x.cfg.ocRetLevel

/-- A phase whose bit stands in the over-current recovery mask from an earlier call has fallen
back: its current is not below the return level now. -/
def Stale (s : Cntl) (x : Sample) (i : Fin 3) : Prop :=
  s.ocRetMask i = true ∧ ¬ x.irmsFast i < x.cfg.ocRetLevel

/-- In an over-current event without a phase above the level, a stale bit is not met while every
other phase is recovered, in this call or in an earlier one. -/
def NoStaleBit (s : Cntl) (x : Sample) : Prop :=
  s.ocSt = .event → ¬ (ocMask x).Some → (∀ i, s.ocRetMask i = true ∨ ocRetMask x i = true) →
    ∀ i, ¬ Stale s x i

private theorem riseTrack_ends (r : RiseInput) {t : RiseTrack} (event : t.st = .event) :
    (riseTrack r t).st ≠ .event ↔ ¬ r.mask.Some ∧ r.ret.Full := by
  obtain ⟨st, inf, count, pushed⟩ := t
  cases event
  simp only [riseTrack, riseStep]
  by_cases above : r.mask.Some
  · simp [above]
  · by_cases full : r.ret.Full
    · simp [above, full]
    · simp [above, full]

private theorem sagHandler_ends {x : Sample} {s : Cntl} (isOpen : SagOpen s.sagSt)
    (ended : ¬ SagOpen (sagHandler x s).sagSt) : s.sagRetMask.Full := by
  unfold sagHandler at ended
  rcases isOpen with sag | intr
  · rw [sag] at ended
    dsimp only at ended
    split at ended
    · exact absurd (.inr rfl) ended
    split at ended
    · exact absurd (.inl sag) ended
    split at ended
    · rename_i full
      exact full
    · exact absurd (.inl sag) ended
  · rw [intr] at ended
    dsimp only at ended
    split at ended
    · rename_i full
      exact full
    · exact absurd (.inr intr) ended

private theorem sagRetMask_full {x : Sample} (full : (sagRetMask x).Full) (i : Fin 3) :
    x.cfg.sagRetLevel < x.urmsFast i :=
  (of_decide_eq_true (full i)).2.2

private theorem swellRetMask_full {x : Sample} (full : (swellRetMask x).Full) (i : Fin 3) :
    x.urmsFast i < x.cfg.swellRetLevel :=
  (of_decide_eq_true (full i)).2.2

private theorem ocRetMask_below {x : Sample} {i : Fin 3} (bit : ocRetMask x i = true) :
    x.irmsFast i < x.cfg.ocRetLevel :=
  (of_decide_eq_true bit).2.2.2

private theorem recovers_sag {s : Cntl} {x : Sample} (isOpen : SagOpen s.sagSt)
    (ended : ¬ SagOpen (checkPqEvent s x).sagSt) (i : Fin 3) :
    x.cfg.sagRetLevel < x.urmsFast i := by
  have same : (checkPqEvent s x).sagSt = (sagHandler x (prepare s x)).sagSt :=
    congrArg SagTrack.st (sagTrack_checkPqEvent s x)
  rw [same] at ended
  exact sagRetMask_full (sagHandler_ends (s := prepare s x) isOpen ended) i

private theorem recovers_swell {s : Cntl} {x : Sample} (event : s.swellSt = .event)
    (ended : (checkPqEvent s x).swellSt ≠ .event) (i : Fin 3) :
    x.urmsFast i < x.cfg.swellRetLevel := by
  have same : (checkPqEvent s x).swellSt = (riseTrack (swellInput s x) (swellTrack s)).st :=
    congrArg RiseTrack.st (swellTrack_checkPqEvent s x)
  rw [same] at ended
  exact swellRetMask_full ((riseTrack_ends (swellInput s x) event).mp ended).2 i

private theorem ocSt_ends {s : Cntl} {x : Sample} (event : s.ocSt = .event) :
    (checkPqEvent s x).ocSt ≠ .event ↔
      ¬ (ocMask x).Some ∧ ∀ i, s.ocRetMask i = true ∨ ocRetMask x i = true := by
  have same : (checkPqEvent s x).ocSt = (riseTrack (ocInput s x) (ocTrack s)).st :=
    congrArg RiseTrack.st (ocTrack_checkPqEvent s x)
  rw [same, riseTrack_ends (ocInput s x) event]
  simp only [ocInput, Mask.Full, Mask.union, Bool.or_eq_true]

private theorem recovers_iff (s : Cntl) (x : Sample) : Recovers s x ↔ NoStaleBit s x := by
  constructor
  · rintro recovers event quiet recovered i ⟨_, back⟩
    have ended := (ocSt_ends event).mpr ⟨quiet, recovered⟩
    exact back (recovers.oc event ended i)
  · intro fresh
    refine ⟨recovers_sag, recovers_swell, fun event ended i => ?_⟩
    obtain ⟨quiet, recovered⟩ := (ocSt_ends event).mp ended
    rcases recovered i with kept | now
    · by_contra back
      exact fresh event quiet recovered i ⟨kept, back⟩
    · exact ocRetMask_below now

/-- Over every run, from any state of the detectors and their masks, every event ends on three
recovered phases exactly when no over-current event meets a stale bit at its end. -/
theorem recovery_iff_no_stale_bit (s : Cntl) (xs : List Sample) :
    Along checkPqEvent Recovers s xs ↔ Along checkPqEvent NoStaleBit s xs :=
  along_iff (I := fun _ => True) (fun _ _ _ => trivial) (fun s x _ => recovers_iff s x) trivial xs

/-- Over-current detection at 100 with recovery below 95; the hold-off is half a second. -/
def ocOnly : Config where
  sag := ⟨0, 500⟩
  swell := ⟨0, 500⟩
  oc := ⟨1, 500⟩
  intr := ⟨0, 500⟩
  sagLevel := 80
  sagRetLevel := 85
  swellLevel := 120
  swellRetLevel := 115
  ocLevel := 100
  ocRetLevel := 95
  intrLevel := 5

/-- A half cycle of an input that is online, with one current on all phases. -/
def halfCycle (now : UInt64) (current : UInt32) : Sample :=
  ⟨now, 20, fun _ => 100, fun _ => current, ocOnly⟩

/-- The current rises above the level and falls into the dead band: the event ends at 98, because
the recovery bits were set before it began. -/
theorem overcurrent_ends_in_dead_band :
    ¬ Along checkPqEvent Recovers powerOn [halfCycle 0 50, halfCycle 8 150, halfCycle 16 98] ∧
      (run checkPqEvent powerOn [halfCycle 0 50, halfCycle 8 150]).ocSt = .event ∧
      (run checkPqEvent powerOn [halfCycle 0 50, halfCycle 8 150, halfCycle 16 98]).ocSt =
        .holdOff := by
  have opened : (run checkPqEvent powerOn [halfCycle 0 50, halfCycle 8 150]).ocSt = .event := by
    decide
  have ended : (run checkPqEvent powerOn
      [halfCycle 0 50, halfCycle 8 150, halfCycle 16 98]).ocSt = .holdOff := by
    decide
  refine ⟨fun ⟨_, _, last, _⟩ => ?_, opened, ended⟩
  have below := last.oc opened (fun still => by
    have same := ended.symm.trans still
    cases same) 0
  exact absurd below (by decide)

end SV300.Detect.Recovery
