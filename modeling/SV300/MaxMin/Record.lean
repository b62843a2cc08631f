/- SV300/MaxMin/Record
   digest: The max/min records of a channel, and the runs in which each holds its first largest and
   its first smallest value since the last reset. -/

import Mathlib.Data.List.FinRange
import Mathlib.Logic.Function.Basic
import SV300.Library.Extremum
import SV300.Library.Literals
import SV300.Library.Runs

set_option autoImplicit false
set_option relaxedAutoImplicit false

namespace SV300.MaxMin.Record

open SV300.Library.Extremum SV300.Library.Peak SV300.Library.Rounded SV300.Library.Runs

/-- `MAXMIN_DATA` -/
structure MaxMinData where
  max : Value
  max_ts : UInt32
  min : Value
  min_ts : UInt32

/-- The fields of `MAXMIN` that are records. -/
inductive Quantity
  | Freq | Temp
  | U (i : Fin 4) | Upp (i : Fin 4)
  | I (i : Fin 4) | Itot | In | Isum
  | P (i : Fin 4) | Q (i : Fin 4) | S (i : Fin 4)
  | PF (i : Fin 4)
  | THD_U (i : Fin 3) | THD_Upp (i : Fin 3) | THD_I (i : Fin 3)
  deriving DecidableEq

structure Maxmin where
  fr : UInt16
  re : UInt16
  rstTime : UInt32
  data : Quantity → MaxMinData
  ts : UInt32

/-- One channel, as far as its records go. -/
structure Channel where
  maxmin : Maxmin
  online3 : UInt16
  rstMaxMin : UInt16

/-- The clock and the measured value that the update of each record finds. -/
abbrev Reading := Quantity → UInt32 × Value

/-- `updateMaxMin`: the record after it, and how many changes it counts. -/
def updateMaxMin (d : MaxMinData) (sysTick1s : UInt32) (comp : Value) : MaxMinData × UInt16 :=
  if (d.max = .finite 0 ∧ d.min = .finite 0) ∨ d.max = .nan ∨ d.min = .nan then
    ({ d with max := comp, min := comp }, 0)
  else
    let (d, change) :=
      if d.max.lt comp then ({ d with max := comp, max_ts := sysTick1s }, 1) else (d, 0)
    if comp.lt d.min then ({ d with min := comp, min_ts := sysTick1s }, change + 1) else (d, change)

/-- `pmm->fr += updateMaxMin(..)` for one field. -/
def record (r : Reading) (m : Maxmin) (q : Quantity) : Maxmin :=
  let (d, change) := updateMaxMin (m.data q) (r q).1 (r q).2
  { m with data := Function.update m.data q d, fr := m.fr + change }

/-- The fields that a function updates, in its order. -/
def rmsFreq : List Quantity :=
  [.Freq] ++ (List.finRange 4).map .U ++ (List.finRange 4).map .Upp ++ (List.finRange 4).map .I ++
    [.Itot, .In, .Isum, .Temp]

def power : List Quantity := (List.finRange 4).flatMap fun i => [.P i, .Q i, .S i, .PF i]

def thd : List Quantity := (List.finRange 3).flatMap fun i => [.THD_U i, .THD_Upp i, .THD_I i]

def maxMinRmsFreq (c : Channel) (r : Reading) : Channel :=
  let c' := { c with online3 := c.online3 + 1 }
  if c.online3 < 5 then c' else { c' with maxmin := rmsFreq.foldl (record r) c.maxmin }

def maxMinPower (c : Channel) (r : Reading) : Channel :=
  if c.online3 < 5 then c else { c with maxmin := power.foldl (record r) c.maxmin }

def maxMinTHD (c : Channel) (r : Reading) : Channel :=
  if c.online3 < 5 then c else { c with maxmin := thd.foldl (record r) c.maxmin }

/-- What `memset` leaves of a record. -/
def blank : MaxMinData := ⟨.finite 0, 0, .finite 0, 0⟩

/-- The reset in `Metering_Task`. -/
def resetMaxMin (sysTick1s : UInt32) : Maxmin := ⟨0, 0, sysTick1s, fun _ => blank, 0⟩

/-- The part of a pass of `Metering_Task` that looks after the records, without the file. -/
def meteringTask (c : Channel) (sysTick1s : UInt32) : Channel :=
  let c := if c.rstMaxMin = 0x1234 then ⟨resetMaxMin sysTick1s, c.online3, 0⟩ else c
  if c.maxmin.fr ≠ c.maxmin.re then
    let m := { c.maxmin with ts := sysTick1s, re := c.maxmin.fr }
    { c with maxmin := m }
  else c

inductive Call
  | rmsFreq | power | thd

inductive Event
  | call (f : Call) (r : Reading)
  | clear (cmd : UInt16)
  | task (sysTick1s : UInt32)

/-- A channel, and the numbers each record has been given since the last reset, with their times. -/
structure Sys where
  channel : Channel
  seen : Quantity → List (UInt32 × Number)

def Call.fields : Call → List Quantity
  | .rmsFreq => Record.rmsFreq
  | .power => Record.power
  | .thd => Record.thd

def updated (c : Channel) : Event → List Quantity
  | .call f _ => if c.online3 < 5 then [] else f.fields
  | .clear _ => []
  | .task _ => []

def see (seen : List (UInt32 × Number)) (sample : UInt32 × Value) : List (UInt32 × Number) :=
  match number sample.2 with
  | some x => seen ++ [(sample.1, x)]
  | none => seen

def move (c : Channel) : Event → Channel
  | .call .rmsFreq r => maxMinRmsFreq c r
  | .call .power r => maxMinPower c r
  | .call .thd r => maxMinTHD c r
  | .clear cmd => { c with rstMaxMin := cmd }
  | .task sysTick1s => meteringTask c sysTick1s

def observe (s : Sys) (e : Event) (q : Quantity) : List (UInt32 × Number) :=
  match e with
  | .call _ r => if q ∈ updated s.channel e then see (s.seen q) (r q) else s.seen q
  | .clear _ => s.seen q
  | .task _ => if s.channel.rstMaxMin = 0x1234 then [] else s.seen q

def step (s : Sys) (e : Event) : Sys := ⟨move s.channel e, observe s e⟩

def start (online3 : UInt16) (sysTick1s : UInt32) : Sys :=
  ⟨⟨resetMaxMin sysTick1s, online3, 0⟩, fun _ => []⟩

/-- A record of some numbers holds the first largest and the first smallest, with their times. -/
def Right (d : MaxMinData) (seen : List (UInt32 × Number)) : Prop :=
  seen ≠ [] → ∃ x y, number d.max = some x ∧ number d.min = some y ∧
    IsPeak seen (d.max_ts, x) ∧ IsDip seen (d.min_ts, y)

/-- After an event every record is right. -/
def Law (s : Sys) (e : Event) : Prop :=
  ∀ q, Right ((step s e).channel.maxmin.data q) ((step s e).seen q)

def zero : Number := ((0 : Rat) : WithTop Rat)

/-- The first number comes when the clock is zero, and after zeros alone comes another zero. -/
def Fits (seen : List (UInt32 × Number)) (sample : UInt32 × Value) : Prop :=
  (seen = [] → number sample.2 ≠ none → sample.1 = 0) ∧
    (seen ≠ [] → (∀ e ∈ seen, e.2 = zero) → sample.2 = .finite 0)

/-- Every value that an event gives to a record fits. -/
def AllFit (s : Sys) (e : Event) : Prop :=
  match e with
  | .call _ r => ∀ q ∈ updated s.channel e, Fits (s.seen q) (r q)
  | .clear _ => True
  | .task _ => True

/-- A record is right and, while it has seen no number, empty. -/
structure Kept (d : MaxMinData) (seen : List (UInt32 × Number)) : Prop where
  right : Right d seen
  empty : seen = [] → d.max_ts = 0 ∧ d.min_ts = 0 ∧
    ((d.max = .finite 0 ∧ d.min = .finite 0) ∨ d.max = .nan ∨ d.min = .nan)

private theorem kept_blank : Kept blank [] :=
  ⟨fun some => absurd rfl some, fun _ => ⟨rfl, rfl, .inl ⟨rfl, rfl⟩⟩⟩

private theorem number_zero : number (.finite 0) = some zero := rfl

private theorem updateMaxMin_of_empty {d : MaxMinData}
    (empty : (d.max = .finite 0 ∧ d.min = .finite 0) ∨ d.max = .nan ∨ d.min = .nan)
    (t : UInt32) (v : Value) : (updateMaxMin d t v).1 = { d with max := v, min := v } := by
  rw [updateMaxMin, if_pos empty]

private theorem updateMaxMin_of_some {d : MaxMinData} {x y : Number} (hmax : number d.max = some x)
    (hmin : number d.min = some y) (some : ¬ (x = zero ∧ y = zero)) (t : UInt32) (v : Value) :
    (updateMaxMin d t v).1 =
      { max := if d.max.lt v then v else d.max
        max_ts := if d.max.lt v then t else d.max_ts
        min := if v.lt d.min then v else d.min
        min_ts := if v.lt d.min then t else d.min_ts } := by
  have full : ¬ ((d.max = .finite 0 ∧ d.min = .finite 0) ∨ d.max = .nan ∨ d.min = .nan) := by
    rintro (⟨top, bottom⟩ | none | none)
    · rw [top, number_zero] at hmax
      rw [bottom, number_zero] at hmin
      exact some ⟨(Option.some_injective _ hmax).symm, (Option.some_injective _ hmin).symm⟩
    · rw [none] at hmax
      cases hmax
    · rw [none] at hmin
      cases hmin
  rw [updateMaxMin, if_neg full]
  by_cases higher : d.max.lt v = true
  · by_cases lower : v.lt d.min = true <;> simp [higher, lower]
  · by_cases lower : v.lt d.min = true <;> simp [higher, lower]

private theorem see_of_number {v : Value} {x : Number} (h : number v = some x)
    (seen : List (UInt32 × Number)) (t : UInt32) : see seen (t, v) = seen ++ [(t, x)] := by
  simp only [see, h]

private theorem see_of_nan {v : Value} (h : number v = none) (seen : List (UInt32 × Number))
    (t : UInt32) :
    see seen (t, v) = seen := by
  simp only [see, h]

private theorem nan_of_number {v : Value} (h : number v = none) : v = .nan := by
  cases v with
  | nan => rfl
  | finite x => cases h
  | infinite s => cases h

private theorem right_first_iff {d : MaxMinData} (kept : Kept d []) (t : UInt32) (v : Value) :
    Right (updateMaxMin d t v).1 (see [] (t, v)) ↔ Fits [] (t, v) := by
  obtain ⟨max_ts, min_ts, empty⟩ := kept.empty rfl
  rw [updateMaxMin_of_empty empty]
  cases h : number v with
  | none =>
    rw [see_of_nan h]
    exact iff_of_true (fun some => absurd rfl some)
      ⟨fun _ some => absurd h some, fun some => absurd rfl some⟩
  | some x =>
    rw [see_of_number h, List.nil_append]
    constructor
    · intro right
      obtain ⟨_, _, _, _, peak, _⟩ := right (List.cons_ne_nil _ _)
      have member := List.mem_singleton.mp (mem_of_isPeak peak)
      refine ⟨fun _ _ => ?_, fun some => absurd rfl some⟩
      exact (congrArg Prod.fst member).symm.trans max_ts
    · rintro ⟨first, _⟩ _
      have start : t = 0 := first rfl (by rw [h]; nofun)
      refine ⟨x, x, h, h, ?_, ?_⟩
      · dsimp only
        rw [max_ts, ← start]
        exact isPeak_singleton _
      · dsimp only
        rw [min_ts, ← start]
        exact isDip_singleton _

private theorem right_zeros_iff {d : MaxMinData} {seen : List (UInt32 × Number)}
    (right : Right d seen)
    (some : seen ≠ []) (zeros : ∀ e ∈ seen, e.2 = zero) (t : UInt32) (v : Value) :
    Right (updateMaxMin d t v).1 (see seen (t, v)) ↔ Fits seen (t, v) := by
  obtain ⟨x, y, hmax, hmin, peak, dip⟩ := right some
  have top : x = zero := zeros _ (mem_of_isPeak peak)
  have bottom : y = zero := zeros _ dip.mem
  have blank : d.max = .finite 0 ∧ d.min = .finite 0 :=
    ⟨number_inj (hmax.trans (congrArg _ top)) number_zero,
      number_inj (hmin.trans (congrArg _ bottom)) number_zero⟩
  have fits : Fits seen (t, v) ↔ v = .finite 0 :=
    ⟨fun fits => fits.2 some zeros, fun same => ⟨fun none => absurd none some, fun _ _ => same⟩⟩
  rw [updateMaxMin_of_empty (.inl blank), fits]
  constructor
  · intro right'
    cases h : number v with
    | none =>
      rw [see_of_nan h] at right'
      obtain ⟨_, _, none, _⟩ := right' some
      rw [h] at none
      cases none
    | some z =>
      rw [see_of_number h] at right'
      obtain ⟨a, b, ha, hb, high, low⟩ := right' (List.append_ne_nil_of_left_ne_nil some _)
      obtain ⟨e, rest, rfl⟩ := List.exists_cons_of_ne_nil some
      have member : e ∈ (e :: rest) ++ [(t, z)] := List.mem_cons_self
      have above : zero ≤ a := zeros e List.mem_cons_self ▸ high.le e member
      have below : b ≤ zero := zeros e List.mem_cons_self ▸ low.le e member
      have same : a = b := Option.some_injective _ (ha.symm.trans hb)
      have exact : a = zero := le_antisymm (same ▸ below) above
      exact number_inj ha (number_zero.trans (congrArg _ exact.symm))
  · rintro rfl
    rw [see_of_number number_zero]
    refine fun _ => ⟨zero, zero, number_zero, number_zero, ?_, ?_⟩
    · have next := peak.append (t, zero)
      rw [raise, if_neg (not_lt.mpr top.ge), top] at next
      exact next
    · have next := dip.append (t, zero)
      rw [lower, if_neg (not_lt.mpr bottom.le), bottom] at next
      exact next

private theorem raised {d : MaxMinData} {v : Value} {x z : Number} (hmax : number d.max = some x)
    (h : number v = some z) (t : UInt32) :
    number (if d.max.lt v then v else d.max) = some (raise (d.max_ts, x) (t, z)).2 ∧
      (if d.max.lt v then t else d.max_ts) = (raise (d.max_ts, x) (t, z)).1 := by
  unfold raise
  by_cases higher : x < z
  · rw [if_pos ((lt_iff hmax h).mpr higher), if_pos ((lt_iff hmax h).mpr higher), if_pos higher]
    exact ⟨h, rfl⟩
  · have same : ¬ d.max.lt v = true := fun less => higher ((lt_iff hmax h).mp less)
    rw [if_neg same, if_neg same, if_neg higher]
    exact ⟨hmax, rfl⟩

private theorem lowered {d : MaxMinData} {v : Value} {y z : Number} (hmin : number d.min = some y)
    (h : number v = some z) (t : UInt32) :
    number (if v.lt d.min then v else d.min) = some (lower (d.min_ts, y) (t, z)).2 ∧
      (if v.lt d.min then t else d.min_ts) = (lower (d.min_ts, y) (t, z)).1 := by
  unfold lower
  by_cases less : z < y
  · rw [if_pos ((lt_iff h hmin).mpr less), if_pos ((lt_iff h hmin).mpr less), if_pos less]
    exact ⟨h, rfl⟩
  · have same : ¬ v.lt d.min = true := fun below => less ((lt_iff h hmin).mp below)
    rw [if_neg same, if_neg same, if_neg less]
    exact ⟨hmin, rfl⟩

private theorem right_later {d : MaxMinData} {seen : List (UInt32 × Number)} (right : Right d seen)
    (other : ¬ ∀ e ∈ seen, e.2 = zero) (t : UInt32) (v : Value) :
    Right (updateMaxMin d t v).1 (see seen (t, v)) := by
  have nonempty : seen ≠ [] := by
    rintro rfl
    exact other fun e member => nomatch member
  obtain ⟨x, y, hmax, hmin, peak, dip⟩ := right nonempty
  have full : ¬ (x = zero ∧ y = zero) := by
    rintro ⟨rfl, rfl⟩
    exact other fun e member => le_antisymm (peak.le e member) (dip.le e member)
  rw [updateMaxMin_of_some hmax hmin full]
  intro _
  cases h : number v with
  | none =>
    rw [nan_of_number h, lt_nan, nan_lt]
    exact ⟨x, y, hmax, hmin, by rw [see_of_nan rfl]; exact peak, by rw [see_of_nan rfl]; exact dip⟩
  | some z =>
    have high := peak.append (t, z)
    have low := dip.append (t, z)
    rw [see_of_number h]
    refine ⟨_, _, (raised hmax h t).1, (lowered hmin h t).1, ?_, ?_⟩
    · dsimp only
      rw [(raised hmax h t).2]
      exact high
    · dsimp only
      rw [(lowered hmin h t).2]
      exact low

private theorem right_iff_fits {d : MaxMinData} {seen : List (UInt32 × Number)} (kept : Kept d seen)
    (sample : UInt32 × Value) :
    Right (updateMaxMin d sample.1 sample.2).1 (see seen sample) ↔ Fits seen sample := by
  by_cases none : seen = []
  · subst none
    exact right_first_iff kept sample.1 sample.2
  · by_cases zeros : ∀ e ∈ seen, e.2 = zero
    · exact right_zeros_iff kept.right none zeros sample.1 sample.2
    · exact iff_of_true (right_later kept.right zeros sample.1 sample.2)
        ⟨fun empty => absurd empty none, fun _ all => absurd all zeros⟩

private theorem kept_of_fits {d : MaxMinData} {seen : List (UInt32 × Number)} (kept : Kept d seen)
    {sample : UInt32 × Value} (fits : Fits seen sample) :
    Kept (updateMaxMin d sample.1 sample.2).1 (see seen sample) := by
  refine ⟨(right_iff_fits kept sample).mpr fits, fun unseen => ?_⟩
  cases h : number sample.2 with
  | some x =>
    rw [see_of_number h] at unseen
    exact absurd unseen (List.append_ne_nil_of_right_ne_nil _ (List.cons_ne_nil _ _))
  | none =>
    have same : see seen sample = seen := see_of_nan h seen sample.1
    obtain ⟨max_ts, min_ts, empty⟩ := kept.empty (same.symm.trans unseen)
    rw [updateMaxMin_of_empty empty]
    exact ⟨max_ts, min_ts, .inr (.inl (nan_of_number h))⟩

private theorem fields_nodup (f : Call) : f.fields.Nodup := by
  cases f <;> decide

private theorem sweep_data {qs : List Quantity} (once : qs.Nodup) (r : Reading) (m : Maxmin)
    (q : Quantity) : (qs.foldl (record r) m).data q =
      if q ∈ qs then (updateMaxMin (m.data q) (r q).1 (r q).2).1 else m.data q := by
  have own : ∀ m : Maxmin, (record r m q).data q = (updateMaxMin (m.data q) (r q).1 (r q).2).1 :=
    fun m => Function.update_self q _ _
  have other : ∀ (m : Maxmin) p, p ≠ q → (record r m p).data q = m.data q :=
    fun m p apart => Function.update_of_ne apart.symm _ _
  split
  · rename_i member
    exact run_own (g := fun m : Maxmin => m.data q)
      (f := fun d => (updateMaxMin d (r q).1 (r q).2).1) other own once member m
  · rename_i absent
    exact run_other (g := fun m : Maxmin => m.data q) other absent m

private theorem call_data (c : Channel) (f : Call) (r : Reading) (q : Quantity) :
    (move c (.call f r)).maxmin.data q =
      if q ∈ updated c (.call f r) then (updateMaxMin (c.maxmin.data q) (r q).1 (r q).2).1
      else c.maxmin.data q := by
  have whole := sweep_data (fields_nodup f) r c.maxmin q
  have some : updated c (.call f r) = if c.online3 < 5 then [] else f.fields := rfl
  rw [some]
  by_cases young : c.online3 < 5
  · rw [if_pos young, if_neg List.not_mem_nil]
    cases f <;> simp only [move, maxMinRmsFreq, maxMinPower, maxMinTHD, if_pos young]
  · rw [if_neg young, ← whole]
    cases f <;> simp only [move, maxMinRmsFreq, maxMinPower, maxMinTHD, Call.fields, if_neg young]

private theorem meteringTask_data (c : Channel) (t : UInt32) : (meteringTask c t).maxmin.data =
    if c.rstMaxMin = 0x1234 then fun _ => blank else c.maxmin.data := by
  unfold meteringTask
  by_cases reset : c.rstMaxMin = 0x1234
  · rw [if_pos reset, if_pos reset]
    rfl
  · rw [if_neg reset, if_neg reset]
    dsimp only
    split <;> rfl

def Inv (s : Sys) : Prop := ∀ q, Kept (s.channel.maxmin.data q) (s.seen q)

theorem inv_start (online3 : UInt16) (t : UInt32) : Inv (start online3 t) := fun _ => kept_blank

theorem inv_step {s : Sys} (inv : Inv s) {e : Event} (fit : AllFit s e) : Inv (step s e) := by
  intro q
  cases e with
  | call f r =>
    change Kept ((move s.channel (.call f r)).maxmin.data q) (observe s (.call f r) q)
    rw [call_data, observe]
    by_cases member : q ∈ updated s.channel (.call f r)
    · rw [if_pos member, if_pos member]
      exact kept_of_fits (inv q) (fit q member)
    · rw [if_neg member, if_neg member]
      exact inv q
  | clear cmd => exact inv q
  | task t =>
    change Kept ((meteringTask s.channel t).maxmin.data q) (observe s (.task t) q)
    rw [meteringTask_data, observe]
    by_cases reset : s.channel.rstMaxMin = 0x1234
    · rw [if_pos reset, if_pos reset]
      exact kept_blank
    · rw [if_neg reset, if_neg reset]
      exact inv q

theorem law_iff {s : Sys} (inv : Inv s) (e : Event) : Law s e ↔ AllFit s e := by
  cases e with
  | call f r =>
    unfold Law AllFit
    refine forall_congr' fun q => ?_
    change Right ((move s.channel (.call f r)).maxmin.data q) (observe s (.call f r) q) ↔ _
    rw [call_data, observe]
    by_cases member : q ∈ updated s.channel (.call f r)
    · rw [if_pos member, if_pos member, right_iff_fits (inv q)]
      exact ⟨fun fits _ => fits, fun given => given member⟩
    · rw [if_neg member, if_neg member]
      exact iff_of_true (inv q).right fun given => absurd given member
  | clear cmd => exact iff_of_true (fun q => (inv_step inv (e := .clear cmd) trivial q).right) trivial
  | task t => exact iff_of_true (fun q => (inv_step inv (e := .task t) trivial q).right) trivial

/-- After a reset all records stay right just as long as all values fit. -/
theorem records_right_iff (online3 : UInt16) (sysTick1s : UInt32) (es : List Event) :
    Along step Law (start online3 sysTick1s) es ↔ Along step AllFit (start online3 sysTick1s) es :=
  along_guarded_iff (I := Inv) (fun _ _ inv fit => inv_step inv fit)
    (fun _ e inv => law_iff inv e) (inv_start online3 sysTick1s) es

/-- A first value at any other time than zero has no time, and a zero before it is forgotten. -/
theorem first_value_wrong :
    ¬ Along step Law (start 5 100) [.call .power fun _ => (100, .finite 7)] ∧
      ¬ Along step Law (start 5 0)
        [.call .power fun _ => (0, .finite 0), .call .power fun _ => (1, .finite 7)] := by
  have member : ∀ (c : Channel) (r : Reading), c.online3 = 5 →
      Quantity.P 0 ∈ updated c (.call .power r) := by
    intro c r five
    have some : updated c (.call .power r) = if c.online3 < 5 then [] else power := rfl
    rw [some, five, if_neg (by decide)]
    decide
  constructor
  · rintro ⟨law, _⟩
    have fits := (law_iff (inv_start 5 100) _).mp law (.P 0) (member _ _ rfl)
    exact absurd (fits.1 rfl nofun) (by decide)
  · rintro ⟨first, second, _⟩
    have inv := inv_step (inv_start 5 0) ((law_iff (inv_start 5 0) _).mp first)
    have kept : (step (start 5 0) (.call .power fun _ => (0, .finite 0))).seen (.P 0) =
        [(0, zero)] := by
      simp only [step, observe]
      rw [if_pos (member _ _ rfl)]
      rfl
    have fits := (law_iff inv _).mp second (.P 0) (member _ _ rfl)
    rw [kept] at fits
    have same := fits.2 (List.cons_ne_nil _ _) fun e only => by rw [List.mem_singleton.mp only]
    cases same

end SV300.MaxMin.Record
