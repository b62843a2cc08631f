/- SV300/MaxMin/Interval
   digest: The periodic max/min reset, and the runs of the clock in which it is requested once for
   each change of the period. -/

import SV300.Clock
import SV300.Library.Runs

set_option autoImplicit false
set_option relaxedAutoImplicit false

namespace SV300.MaxMin.Interval

open SV300.Clock SV300.Library.Runs

/-- `CNTL_DATA`, as far as the check goes. -/
structure Cntl where
  maxminTs : UInt32
  rstMaxMin : UInt16

/-- The fields of `tod` that the check reads, at a clock value. -/
def mday (sysTick1s : UInt32) : UInt32 := UInt32.ofNat (uLocalTime sysTick1s).tmMday
def wday (sysTick1s : UInt32) : UInt32 := UInt32.ofNat (tmWday sysTick1s)
def mon (sysTick1s : UInt32) : UInt32 := UInt32.ofNat (uLocalTime sysTick1s).tmMon

def initMaxMinItv (maxminItv : UInt16) (c : Cntl) (sysTick1s : UInt32) : Cntl :=
  if maxminItv = 0 then { c with maxminTs := mday sysTick1s }
  else if maxminItv = 1 then { c with maxminTs := wday sysTick1s }
  else if maxminItv = 2 then { c with maxminTs := mon sysTick1s }
  else c

def checkMaxMinItv (maxminItv : UInt16) (c : Cntl) (sysTick1s : UInt32) : Cntl :=
  if maxminItv = 0 then
    if c.maxminTs ≠ mday sysTick1s then ⟨mday sysTick1s, 0x1234⟩ else c
  else if maxminItv = 1 then
    if c.maxminTs ≠ wday sysTick1s then ⟨wday sysTick1s, 0x1234⟩ else c
  else if maxminItv = 2 then
    -- the month is compared, the weekday kept
    if c.maxminTs ≠ mon sysTick1s then ⟨wday sysTick1s, 0x1234⟩ else c
  else c

/-- `Metering_Task` takes the request. -/
def take (c : Cntl) : Cntl := if c.rstMaxMin = 0x1234 then { c with rstMaxMin := 0 } else c

inductive Itv
  | daily | weekly | monthly
  deriving DecidableEq

def Itv.code : Itv → UInt16
  | .daily => 0
  | .weekly => 1
  | .monthly => 2

/-- The week of a clock value, for weeks that begin with some day of the week. -/
def week (first : Fin 7) (sysTick1s : UInt32) : Nat := (sysTick1s.toNat / 86400 + 11 - first) / 7

/-- The clock passes from one period to another. -/
def Changes (itv : Itv) (first : Fin 7) (t u : UInt32) : Prop :=
  match itv with
  | .daily => uLocalTime t ≠ uLocalTime u
  | .weekly => week first t ≠ week first u
  | .monthly => yearMonth t ≠ yearMonth u

instance (itv : Itv) (first : Fin 7) (t u : UInt32) : Decidable (Changes itv first t u) :=
  match itv with
  | .daily => inferInstanceAs (Decidable (_ ≠ _))
  | .weekly => inferInstanceAs (Decidable (_ ≠ _))
  | .monthly => inferInstanceAs (Decidable (_ ≠ _))

/-- The control data, the clock at the start and at the last check, and at the last check that found
a new period. -/
structure Sys where
  cntl : Cntl
  begun : UInt32
  last : UInt32
  turn : Option UInt32

section
variable (itv : Itv) (first : Fin 7)

def start (c : Cntl) (sysTick1s : UInt32) : Sys :=
  ⟨take (initMaxMinItv itv.code c sysTick1s), sysTick1s, sysTick1s, none⟩

def step (s : Sys) (t : UInt32) : Sys where
  cntl := take (checkMaxMinItv itv.code s.cntl t)
  begun := s.begun
  last := t
  turn := if Changes itv first s.last t then some t else s.turn

/-- A check requests a reset exactly if it finds another period than the check before. -/
def Law (s : Sys) (t : UInt32) : Prop :=
  (checkMaxMinItv itv.code s.cntl t).rstMaxMin = 0x1234 ↔ Changes itv first s.last t

instance (s : Sys) (t : UInt32) : Decidable (Law itv first s t) :=
  inferInstanceAs (Decidable (_ ↔ _))

/-- The number of the month at the start, and from the first new month on the weekday on which the
last one was found. -/
def known (s : Sys) : UInt32 :=
  match s.turn with
  | none => mon s.begun
  | some t => wday t

/-- The numbers that are compared differ exactly if the periods do. -/
def Shows (s : Sys) (t : UInt32) : Prop :=
  match itv with
  | .daily => (uLocalTime s.last).tmMday = (uLocalTime t).tmMday → uLocalTime s.last = uLocalTime t
  | .weekly => tmWday s.last ≠ tmWday t ↔ week first s.last ≠ week first t
  | .monthly => known s ≠ mon t ↔ yearMonth s.last ≠ yearMonth t

def remembered (s : Sys) : UInt32 :=
  match itv with
  | .daily => mday s.last
  | .weekly => wday s.last
  | .monthly => known s

/-- The number of a clock value that a check compares. -/
def compared (t : UInt32) : UInt32 :=
  match itv with
  | .daily => mday t
  | .weekly => wday t
  | .monthly => mon t

structure Inv (s : Sys) : Prop where
  taken : s.cntl.rstMaxMin ≠ 0x1234
  maxminTs : s.cntl.maxminTs = remembered itv s

private theorem take_taken (c : Cntl) : (take c).rstMaxMin ≠ 0x1234 := by
  unfold take
  by_cases requested : c.rstMaxMin = 0x1234
  · rw [if_pos requested]
    exact (by decide : (0 : UInt16) ≠ 0x1234)
  · rw [if_neg requested]
    exact requested

private theorem take_maxminTs (c : Cntl) : (take c).maxminTs = c.maxminTs := by
  unfold take
  split <;> rfl

def stored (t : UInt32) : UInt32 :=
  match itv with
  | .daily => mday t
  | .weekly => wday t
  | .monthly => wday t

private theorem check_eq (c : Cntl) (t : UInt32) : checkMaxMinItv itv.code c t =
    if c.maxminTs ≠ compared itv t then ⟨stored itv t, 0x1234⟩ else c := by
  cases itv <;> rfl

private theorem inv_start (c : Cntl) (t : UInt32) : Inv itv (start itv c t) := by
  refine ⟨take_taken _, (take_maxminTs _).trans ?_⟩
  cases itv <;> rfl

variable {itv} {first}

private theorem requests_iff {s : Sys} (inv : Inv itv s) (t : UInt32) :
    (checkMaxMinItv itv.code s.cntl t).rstMaxMin = 0x1234 ↔ remembered itv s ≠ compared itv t := by
  rw [check_eq, inv.maxminTs]
  by_cases differ : remembered itv s ≠ compared itv t
  · rw [if_pos differ]
    exact iff_of_true rfl differ
  · rw [if_neg differ]
    exact iff_of_false inv.taken differ

private theorem ofNat_inj {a b : Nat} (ha : a < 100) (hb : b < 100) :
    UInt32.ofNat a = UInt32.ofNat b ↔ a = b := by
  refine ⟨fun same => ?_, fun same => same ▸ rfl⟩
  have values := congrArg UInt32.toNat same
  rw [UInt32.toNat_ofNat_of_lt' (Nat.lt_trans ha (by decide)),
    UInt32.toNat_ofNat_of_lt' (Nat.lt_trans hb (by decide))] at values
  exact values

private theorem tmWday_lt (t : UInt32) : tmWday t < 100 := by
  unfold tmWday
  split <;> omega

private theorem law_iff {s : Sys} (inv : Inv itv s) (t : UInt32) :
    Law itv first s t ↔ Shows itv first s t := by
  rw [Law, requests_iff inv]
  cases itv with
  | daily =>
    have same : remembered .daily s ≠ compared .daily t ↔
        (uLocalTime s.last).tmMday ≠ (uLocalTime t).tmMday :=
      not_congr (ofNat_inj (uLocalTime_bounds _).2.2 (uLocalTime_bounds _).2.2)
    rw [same]
    constructor
    · intro law days
      by_contra dates
      exact law.mpr dates days
    · intro shows
      exact ⟨fun days dates => days (congrArg Tm.tmMday dates), fun dates days => dates (shows days)⟩
  | weekly =>
    have same : remembered .weekly s ≠ compared .weekly t ↔ tmWday s.last ≠ tmWday t :=
      not_congr (ofNat_inj (tmWday_lt _) (tmWday_lt _))
    rw [same]
    exact Iff.rfl
  | monthly => exact Iff.rfl

private theorem inv_step {s : Sys} (inv : Inv itv s) {t : UInt32} (shows : Shows itv first s t) :
    Inv itv (step itv first s t) := by
  refine ⟨take_taken _, (take_maxminTs _).trans ?_⟩
  have law := (law_iff inv t).mpr shows
  rw [Law, requests_iff inv] at law
  rw [check_eq, inv.maxminTs]
  by_cases differ : remembered itv s ≠ compared itv t
  · rw [if_pos differ]
    cases itv with
    | daily => rfl
    | weekly => rfl
    | monthly =>
      change wday t = known ⟨_, _, t, if Changes .monthly first s.last t then some t else s.turn⟩
      rw [if_pos (law.mp differ)]
      rfl
  · rw [if_neg differ, inv.maxminTs]
    cases itv with
    | daily => exact not_not.mp differ
    | weekly => exact not_not.mp differ
    | monthly =>
      change known s = known ⟨_, s.begun, t, if Changes .monthly first s.last t then some t else s.turn⟩
      rw [if_neg fun changed => differ (law.mpr changed)]
      rfl

/-- Each change of the period is requested once and nothing else is, if and only if the numbers that
are compared show the changes. -/
theorem interval_right_iff (itv : Itv) (first : Fin 7) (c : Cntl) (begun : UInt32)
    (ts : List UInt32) :
    Along (step itv first) (Law itv first) (start itv c begun) ts ↔
      Along (step itv first) (Shows itv first) (start itv c begun) ts :=
  along_guarded_iff (I := Inv itv) (fun _ _ inv shows => inv_step inv shows)
    (fun _ t inv => law_iff inv t) (inv_start itv c begun) ts

/-- In weeks from Sunday on Monday requests a reset, and after January each day of February does. -/
theorem interval_wrong :
    ¬ Along (step .weekly 0) (Law .weekly 0) (start .weekly ⟨0, 0⟩ 259200) [345600] ∧
      ¬ Along (step .monthly 0) (Law .monthly 0) (start .monthly ⟨0, 0⟩ 86400)
        [2678400, 2764800] := by
  decide +kernel

end

end SV300.MaxMin.Interval
