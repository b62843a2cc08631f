/- SV300/Quality/Deviation
   digest: The deviation of a voltage from the nominal one, as it is computed in two places, and the
   runs in which the first agrees with the second. -/

import Mathlib.Data.Fintype.Basic
import SV300.Library.Runs
import SV300.Library.SignRounding

set_option autoImplicit false
set_option relaxedAutoImplicit false

namespace SV300.Quality.Deviation

open SV300.Library.Rounded SV300.Library.Runs SV300.Library.SignRounding

variable {p : Nat} (S : Signed p)

/-- `METERING`, as far as the deviations go. -/
structure Metering where
  UUndev : Fin 3 → Value
  UOvdev : Fin 3 → Value

/-- One phase of `VQDATA`. -/
structure VqData where
  Uud : Value
  Uod : Value
  Uuv : Value
  Uov : Value

abbrev zero : Value := .finite 0

/-- The body of the loop for one phase: its deviations after it. -/
def calcPhase (norm u UUndev UOvdev : Value) : Value × Value :=
  if u.lt norm then (prod S (quot S (sub S norm u) norm) (.finite 100), UOvdev)
  else if norm.lt u then (UUndev, prod S (quot S (sub S u norm) norm) (.finite 100))
  else (zero, zero)

def calcDeviation (norm : Value) (m : Metering) (U : Fin 3 → Value) : Metering where
  UUndev i := (calcPhase S norm (U i) (m.UUndev i) (m.UOvdev i)).1
  UOvdev i := (calcPhase S norm (U i) (m.UUndev i) (m.UOvdev i)).2

/-- The deviation of one phase in `updateQualData`. -/
def vqPhase (online : UInt16) (vnorm u : Value) : VqData :=
  if online ≠ 0 ∧ zero.lt vnorm then
    let dev := prod S (quot S (sub S u vnorm) vnorm) (.finite 100)
    { Uud := if dev.lt zero then dev.neg else zero
      Uod := if zero.lt dev then dev else zero
      Uuv := if dev.lt zero then u else zero
      Uov := if zero.lt dev then u else zero }
  else ⟨zero, zero, zero, zero⟩

/-- A nominal voltage as `buildSettings` leaves it. -/
structure Nominal where
  vnorm : UInt32
  set : vnorm ≠ 0

/-- The nominal voltage as a `float`. -/
def Nominal.real (n : Nominal) : Rat := S.round n.vnorm.toNat

def Nominal.float (n : Nominal) : Value := .finite (n.real S)

/-- The deviations and the voltages of the last call, at first the nominal one. -/
structure Sys where
  meter : Metering
  last : Fin 3 → Value

section
variable (n : Nominal)

def start : Sys := ⟨⟨fun _ => zero, fun _ => zero⟩, fun _ => n.float S⟩

def step (s : Sys) (U : Fin 3 → Value) : Sys := ⟨calcDeviation S (n.float S) s.meter U, U⟩

/-- One of the two deviations of each phase is zero, and both are those that `updateQualData`
computes from the voltage of the phase while the channel is online. -/
def Law (s : Sys) (U : Fin 3 → Value) : Prop :=
  ∀ i online, online ≠ 0 →
    ((step S n s U).meter.UUndev i = zero ∨ (step S n s U).meter.UOvdev i = zero) ∧
    (step S n s U).meter.UUndev i = (vqPhase S online (n.float S) (U i)).Uud ∧
    (step S n s U).meter.UOvdev i = (vqPhase S online (n.float S) (U i)).Uod

/-- No phase passes from one side of the nominal voltage to the other. -/
def Stays (s : Sys) (U : Fin 3 → Value) : Prop :=
  ∀ i, ¬ ((n.float S).lt (s.last i) = true ∧ (U i).lt (n.float S) = true) ∧
    ¬ ((s.last i).lt (n.float S) = true ∧ (n.float S).lt (U i) = true)

private theorem real_pos : 0 < n.real S := by
  apply S.pos
  have some : 0 < n.vnorm.toNat := by
    apply Nat.pos_of_ne_zero
    intro none
    exact n.set (UInt32.toNat_inj.mp none)
  exact_mod_cast some

/-- The deviation below and above the nominal voltage. -/
def underdev (u : Value) : Value :=
  prod S (quot S (sub S (n.float S) u) (n.float S)) (.finite 100)

def overdev (u : Value) : Value :=
  prod S (quot S (sub S u (n.float S)) (n.float S)) (.finite 100)

private theorem underdev_eq (u : Value) : underdev S n u = (overdev S n u).neg := by
  unfold underdev overdev Nominal.float
  rw [sub_swap, quot_neg S (real_pos S n), prod_neg S (by norm_num)]

private theorem positive_underdev (u : Value) :
    Positive (underdev S n u) ↔ u.lt (n.float S) = true := by
  unfold underdev Nominal.float
  rw [positive_prod S (by norm_num), positive_quot S (real_pos S n), positive_sub_from]

private theorem positive_overdev (u : Value) :
    Positive (overdev S n u) ↔ (n.float S).lt u = true := by
  unfold overdev Nominal.float
  rw [positive_prod S (by norm_num), positive_quot S (real_pos S n), positive_sub]

private theorem vqPhase_online {online : UInt16} (on : online ≠ 0) (u : Value) :
    (vqPhase S online (n.float S) u).Uud = (if u.lt (n.float S) then underdev S n u else zero) ∧
      (vqPhase S online (n.float S) u).Uod =
        (if (n.float S).lt u then overdev S n u else zero) := by
  have positive : zero.lt (n.float S) = true := positive_finite.mpr (real_pos S n)
  have low : (overdev S n u).lt zero = true ↔ u.lt (n.float S) = true := by
    rw [lt_zero_iff, ← underdev_eq, positive_underdev]
  have high : zero.lt (overdev S n u) = true ↔ (n.float S).lt u = true := positive_overdev S n u
  rw [vqPhase, if_pos ⟨on, positive⟩]
  dsimp only
  constructor
  · rw [underdev_eq]
    exact if_congr low rfl rfl
  · exact if_congr high rfl rfl

/-- The deviations are those of the last voltages. -/
def Inv (s : Sys) : Prop :=
  ∀ i, s.meter.UUndev i = (if (s.last i).lt (n.float S) then underdev S n (s.last i) else zero) ∧
    s.meter.UOvdev i = (if (n.float S).lt (s.last i) then overdev S n (s.last i) else zero)

private theorem inv_start : Inv S n (start S n) := by
  intro i
  have same : ¬ (n.float S).lt (n.float S) = true := fun less => lt_asymm less less
  change zero = (if (n.float S).lt (n.float S) then _ else _) ∧
    zero = (if (n.float S).lt (n.float S) then _ else _)
  rw [if_neg same, if_neg same]
  exact ⟨rfl, rfl⟩

private theorem phase_below {u : Value} (below : u.lt (n.float S) = true) (a b : Value) :
    calcPhase S (n.float S) u a b = (underdev S n u, b) := by
  rw [calcPhase, if_pos below]
  rfl

private theorem phase_above {u : Value} (above : (n.float S).lt u = true) (a b : Value) :
    calcPhase S (n.float S) u a b = (a, overdev S n u) := by
  rw [calcPhase, if_neg (lt_asymm above), if_pos above]
  rfl

private theorem phase_else {u : Value} (below : ¬ u.lt (n.float S) = true)
    (above : ¬ (n.float S).lt u = true) (a b : Value) :
    calcPhase S (n.float S) u a b = (zero, zero) := by
  rw [calcPhase, if_neg below, if_neg above]

variable {S} {n}

private theorem phase_iff {s : Sys} (inv : Inv S n s) (U : Fin 3 → Value) (i : Fin 3) :
    ((step S n s U).meter.UUndev i = (if (U i).lt (n.float S) then underdev S n (U i) else zero) ∧
      (step S n s U).meter.UOvdev i = if (n.float S).lt (U i) then overdev S n (U i) else zero) ↔
    ¬ ((n.float S).lt (s.last i) = true ∧ (U i).lt (n.float S) = true) ∧
      ¬ ((s.last i).lt (n.float S) = true ∧ (n.float S).lt (U i) = true) := by
  have phase : ((step S n s U).meter.UUndev i, (step S n s U).meter.UOvdev i) =
      calcPhase S (n.float S) (U i) (s.meter.UUndev i) (s.meter.UOvdev i) := rfl
  by_cases below : (U i).lt (n.float S) = true
  · have above := lt_asymm below
    rw [phase_below S n below, Prod.mk.injEq] at phase
    rw [phase.1, phase.2, if_pos below, if_neg above, (inv i).2]
    by_cases crossed : (n.float S).lt (s.last i) = true
    · rw [if_pos crossed]
      have wrong := ne_zero_of_positive ((positive_overdev S n (s.last i)).mpr crossed)
      exact iff_of_false (fun both => wrong both.2) fun both => both.1 ⟨crossed, below⟩
    · rw [if_neg crossed]
      exact iff_of_true ⟨rfl, rfl⟩ ⟨fun both => crossed both.1, fun both => above both.2⟩
  · by_cases above : (n.float S).lt (U i) = true
    · rw [phase_above S n above, Prod.mk.injEq] at phase
      rw [phase.1, phase.2, if_neg below, if_pos above, (inv i).1]
      by_cases crossed : (s.last i).lt (n.float S) = true
      · rw [if_pos crossed]
        have wrong := ne_zero_of_positive ((positive_underdev S n (s.last i)).mpr crossed)
        exact iff_of_false (fun both => wrong both.1) fun both => both.2 ⟨crossed, above⟩
      · rw [if_neg crossed]
        exact iff_of_true ⟨rfl, rfl⟩ ⟨fun both => below both.2, fun both => crossed both.1⟩
    · rw [phase_else S n below above, Prod.mk.injEq] at phase
      rw [phase.1, phase.2, if_neg below, if_neg above]
      exact iff_of_true ⟨rfl, rfl⟩ ⟨fun both => below both.2, fun both => above both.2⟩

private theorem inv_step {s : Sys} (inv : Inv S n s) {U : Fin 3 → Value} (stays : Stays S n s U) :
    Inv S n (step S n s U) :=
  fun i => (phase_iff inv U i).mpr (stays i)

private theorem law_iff {s : Sys} (inv : Inv S n s) (U : Fin 3 → Value) :
    Law S n s U ↔ Stays S n s U := by
  refine forall_congr' fun i => ?_
  rw [← phase_iff inv U i]
  constructor
  · intro law
    obtain ⟨_, low, high⟩ := law 1 (by decide)
    obtain ⟨Uud, Uod⟩ := vqPhase_online S n (by decide : (1 : UInt16) ≠ 0) (U i)
    exact ⟨low.trans Uud, high.trans Uod⟩
  · rintro ⟨low, high⟩ online on
    obtain ⟨Uud, Uod⟩ := vqPhase_online S n on (U i)
    refine ⟨?_, low.trans Uud.symm, high.trans Uod.symm⟩
    rw [low, high]
    by_cases below : (U i).lt (n.float S) = true
    · exact .inr (if_neg (lt_asymm below))
    · exact .inl (if_neg below)

variable (S) (n)

/-- Each deviation is that of the phase's voltage after every call, if and only if no phase ever
passes from one side of the nominal voltage to the other in one call. -/
theorem deviations_right_iff (Us : List (Fin 3 → Value)) :
    Along (step S n) (Law S n) (start S n) Us ↔ Along (step S n) (Stays S n) (start S n) Us :=
  along_guarded_iff (I := Inv S n) (fun _ _ inv stays => inv_step inv stays)
    (fun _ U inv => law_iff inv U) (inv_start S n) Us

end

/-- A voltage that falls from 230 V to 210 V keeps its over-deviation from 220 V. -/
theorem crossing_keeps_deviation :
    ¬ Along (step (exactly 24) ⟨220, by decide⟩) (Law (exactly 24) ⟨220, by decide⟩)
      (start (exactly 24) ⟨220, by decide⟩) [fun _ => .finite 230, fun _ => .finite 210] := by
  rintro ⟨first, second, _⟩
  have inv := inv_step (inv_start _ _) ((law_iff (inv_start _ _) _).mp first)
  have stays := (law_iff inv _).mp second 0
  exact stays.1 (by decide)

end SV300.Quality.Deviation
