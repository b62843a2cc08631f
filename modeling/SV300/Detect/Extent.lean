/- SV300/Detect/Extent
   digest: Which phases and which values a pushed sag or interruption carries. -/

import SV300.Library.Runs
import SV300.Detect.Tracks

set_option autoImplicit false
set_option relaxedAutoImplicit false

namespace SV300.Detect.Extent

open SV300.Library.Runs
open SV300.Detect.PqEvent
open SV300.Detect.Tracks

/-- The calls of the present sag event: all of them, and those with a phase below the sag level,
before the interruption and from it on. -/
structure Calls where
  all : List Sample
  sagDips : List Sample
  intrDips : List Sample

/-- A call begins an event, or belongs to the one that is open. -/
def Calls.observe (c : Calls) (x : Sample) (was is : SagSt) : Calls :=
  if SagOpen was then
    { all := x :: c.all
      sagDips := if (sagMask x).Some ∧ was = .sag ∧ is = .sag then x :: c.sagDips else c.sagDips
      intrDips := if (sagMask x).Some ∧ is = .interruption then x :: c.intrDips else c.intrDips }
  else if is = .sag then ⟨[x], [x], []⟩
  else c

structure State where
  cntl : Cntl
  calls : Calls

def opening : State := ⟨powerOn, [], [], []⟩

def step (st : State) (x : Sample) : State where
  cntl := checkPqEvent st.cntl x
  calls := st.calls.observe x st.cntl.sagSt (checkPqEvent st.cntl x).sagSt

/-- The mask is the union of the phases below the level and each value the smallest, over some
calls. -/
structure Sums (calls : List Sample) (inf : Info) : Prop where
  mask : ∀ i, inf.mask i = true ↔ ∃ y ∈ calls, sagMask y i = true
  reached : ∀ i, ∃ y ∈ calls, inf.Val i = y.urmsFast i
  least : ∀ i, ∀ y ∈ calls, inf.Val i ≤ y.urmsFast i

/-- The call hands a sag or an interruption to `pushEvent`. -/
def Pushes (s : Cntl) (x : Sample) (inf : Info) : Prop :=
  (sagTrack (checkPqEvent s x)).pushed = (sagTrack s).pushed ++ [inf]

/-- From the call that turned the sag into an interruption on, no phase falls below the level that
had not before, and none below its smallest value. -/
structure Calls.BringsNothing (c : Calls) : Prop where
  mask : ∀ x ∈ c.intrDips, ∀ i, sagMask x i = true → ∃ y ∈ c.sagDips, sagMask y i = true
  least : ∀ x ∈ c.intrDips, ∀ i, ∃ y ∈ c.sagDips, y.urmsFast i ≤ x.urmsFast i

/-- A pushed event sums up every call from its start to its end. -/
def SumsAll (st : State) (x : Sample) : Prop :=
  ∀ inf, Pushes st.cntl x inf → Sums (x :: st.calls.all) inf

/-- A pushed event sums up every call of its time with a phase below the sag level, where an
interruption brings nothing further. -/
def SumsDips (st : State) (x : Sample) : Prop :=
  ∀ inf, Pushes st.cntl x inf → st.calls.BringsNothing →
    Sums (st.calls.intrDips ++ st.calls.sagDips) inf

private theorem min_le (a b : UInt32) :
    min a b ≤ a ∧ min a b ≤ b ∧ (min a b = a ∨ min a b = b) := by
  change (if a ≤ b then a else b) ≤ a ∧ (if a ≤ b then a else b) ≤ b ∧
    ((if a ≤ b then a else b) = a ∨ (if a ≤ b then a else b) = b)
  split
  · rename_i less
    exact ⟨UInt32.le_refl a, less, .inl rfl⟩
  · rename_i more
    rw [UInt32.not_le] at more
    exact ⟨UInt32.le_of_lt more, UInt32.le_refl b, .inr rfl⟩

private theorem sums_start (x : Sample) (inf : Info) :
    Sums [x] { inf with startTs := x.sysTick64, mask := sagMask x, Val := x.urmsFast } where
  mask i := by simp
  reached i := ⟨x, List.mem_singleton_self x, rfl⟩
  least i y mem := by
    rw [List.mem_singleton] at mem
    rw [mem]
    exact UInt32.le_refl _

private theorem Sums.widen {calls : List Sample} {inf : Info} (sums : Sums calls inf) (x : Sample) :
    Sums (x :: calls) { inf with
      mask := inf.mask.union (sagMask x)
      Val := fun i => min (inf.Val i) (x.urmsFast i) } where
  mask i := by
    simp only [Mask.union, Bool.or_eq_true, sums.mask i, List.mem_cons, exists_eq_or_imp]
    exact or_comm
  reached i := by
    obtain ⟨_, _, value | value⟩ := min_le (inf.Val i) (x.urmsFast i)
    · obtain ⟨y, mem, same⟩ := sums.reached i
      exact ⟨y, List.mem_cons_of_mem x mem, value.trans same⟩
    · exact ⟨x, List.mem_cons_self, value⟩
  least i y mem := by
    obtain ⟨left, right, _⟩ := min_le (inf.Val i) (x.urmsFast i)
    rcases List.mem_cons.mp mem with rfl | old
    · exact right
    · exact UInt32.le_trans left (sums.least i y old)

private theorem Sums.silent {c : Calls} {inf : Info} (sums : Sums c.sagDips inf)
    (nothing : c.BringsNothing) : Sums (c.intrDips ++ c.sagDips) inf where
  mask i := by
    rw [sums.mask i]
    constructor
    · rintro ⟨y, mem, bit⟩
      exact ⟨y, List.mem_append_right _ mem, bit⟩
    · rintro ⟨y, mem, bit⟩
      rcases List.mem_append.mp mem with late | early
      · exact nothing.mask y late i bit
      · exact ⟨y, early, bit⟩
  reached i := by
    obtain ⟨y, mem, same⟩ := sums.reached i
    exact ⟨y, List.mem_append_right _ mem, same⟩
  least i y mem := by
    rcases List.mem_append.mp mem with late | early
    · obtain ⟨z, early, less⟩ := nothing.least y late i
      exact UInt32.le_trans (sums.least i z early) less
    · exact sums.least i y early

private theorem Sums.ending {calls : List Sample} {inf : Info} (sums : Sums calls inf)
    (now : UInt64) (type : EventType) : Sums calls { inf with endTs := now, type := type } :=
  ⟨sums.mask, sums.reached, sums.least⟩

/-- An open event sums up its dips before the interruption. -/
def Inv (t : SagTrack) (c : Calls) : Prop := SagOpen t.st → Sums c.sagDips t.inf

private theorem inv_move {x : Sample} {t u : SagTrack} {c : Calls} (inv : Inv t c)
    (move : SagMove x t u) :
    Inv u (c.observe x t.st u.st) := by
  cases move with
  | still quiet =>
      intro isOpen
      have same : ¬ ((sagMask x).Some ∧ t.st = .sag ∧ t.st = .sag) := fun h => quiet h.2.1 h.1
      rw [Calls.observe, if_pos isOpen, if_neg same]
      exact inv isOpen
  | arm init => exact fun isOpen => absurd isOpen not_sagOpen_normal
  | start normal below =>
      intro _
      have shut : ¬ SagOpen t.st := by
        rw [normal]
        decide
      rw [Calls.observe, if_neg shut, if_pos rfl]
      exact sums_start x t.inf
  | widen sag below =>
      intro _
      rw [Calls.observe, if_pos (.inl sag), if_pos ⟨below, sag, sag⟩]
      exact (inv (.inl sag)).widen x
  | worsen sag =>
      intro _
      have other : ¬ ((sagMask x).Some ∧ t.st = .sag ∧ SagSt.interruption = .sag) :=
        fun h => by cases h.2.2
      rw [Calls.observe, if_pos (.inl sag), if_neg other]
      exact inv (.inl sag)
  | endSag sag full => exact fun isOpen => absurd isOpen not_sagOpen_holdOff
  | endIntr interruption full type kind => exact fun isOpen => absurd isOpen not_sagOpen_normal
  | release hold passed => exact fun isOpen => absurd isOpen not_sagOpen_normal

private theorem pushed_move {x : Sample} {t u : SagTrack} {c : Calls} {inf : Info} (inv : Inv t c)
    (move : SagMove x t u) (pushed : u.pushed = t.pushed ++ [inf]) : Sums c.sagDips inf := by
  have none : t.pushed ≠ t.pushed ++ [inf] := by simp
  cases move with
  | endSag sag full =>
      have same := List.append_cancel_left pushed
      rw [← List.singleton_inj.mp same]
      exact (inv (.inl sag)).ending _ _
  | endIntr interruption full type kind =>
      have same := List.append_cancel_left pushed
      rw [← List.singleton_inj.mp same]
      exact (inv (.inr interruption)).ending _ _
  | still | arm | start | widen | worsen | release => exact absurd pushed none

private theorem inv_step (st : State) (x : Sample) (inv : Inv (sagTrack st.cntl) st.calls) :
    Inv (sagTrack (step st x).cntl) (step st x).calls :=
  inv_move inv (sagMove st.cntl x)

/-- Over every run from power-on, each pushed sag, and each pushed interruption that brings nothing
further, carries the phases and the smallest values of its dips. -/
theorem pushed_events_sum_dips (xs : List Sample) : Along step SumsDips opening xs := by
  have start : Inv (sagTrack opening.cntl) opening.calls := fun isOpen => absurd isOpen (by decide)
  refine along_always (I := fun st : State => Inv (sagTrack st.cntl) st.calls) inv_step ?_ start xs
  intro st x inv inf pushes nothing
  exact (pushed_move inv (sagMove st.cntl x) pushes).silent nothing

def sagOnly : Config where
  sag := ⟨1, 500⟩
  swell := ⟨0, 500⟩
  oc := ⟨0, 500⟩
  intr := ⟨0, 500⟩
  sagLevel := 80
  sagRetLevel := 85
  swellLevel := 120
  swellRetLevel := 115
  ocLevel := 0
  ocRetLevel := 0
  intrLevel := 5

def voltages (first second : UInt32) : Fin 3 → UInt32
  | 0 => first
  | 1 => second
  | 2 => 100

def halfCycle (now : UInt64) (first second : UInt32) : Sample :=
  ⟨now, 20, voltages first second, fun _ => 0, sagOnly⟩

/-- The first phase dips and comes back to the dead band, where the second falls to 90. -/
def deadBand : List Sample := [halfCycle 0 100 100, halfCycle 8 50 100, halfCycle 16 82 90]

/-- The sag carries 100 for the second phase: a call without a phase below the level is not looked
at. -/
theorem dead_band_value_left_out :
    ¬ Along step SumsAll opening (deadBand ++ [halfCycle 24 100 100]) := by
  rintro ⟨_, _, _, last, _⟩
  have sums := last (run checkPqEvent powerOn (deadBand ++ [halfCycle 24 100 100])).sagInf rfl
  have small := sums.least 1 (halfCycle 16 82 90) (by
    exact List.mem_cons_of_mem _ List.mem_cons_self)
  exact absurd small (by decide)

end SV300.Detect.Extent
