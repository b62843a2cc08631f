/- SV300/Energy/Handover
   digest: Energy samples from the chip's double buffer to the registers, in every interleaving. -/

import SV300.Library.DoubleBuffer
import SV300.Library.Runs
import SV300.Energy.Conserve

set_option autoImplicit false
set_option relaxedAutoImplicit false

namespace SV300.Energy.Handover

open SV300.Library.Carry
open SV300.Library.Runs
open SV300.Library.DoubleBuffer
open SV300.Energy.Record
open SV300.Energy.Fram
open SV300.Energy.Registers
open SV300.Energy.Scan
open SV300.Energy.Conserve (counted_addEreg64)
open SV300.Energy.Persist (addEreg64_le loadable_iff boot_loadable)

variable {F : Type}

/-- The three phases of the chip's energy registers as one read returns them. -/
abbrev Sample := Fin 3 → MeterEhRegs

/-- One step of the sampling task, of the metering task or of the clock. The metering task tests
the toggles, scans the sample and toggles in three separate steps. -/
inductive Event (F : Type)
  | readEnergy (id : Channel) (x : Sample)
  | notice (id : Channel)
  | scan (id : Channel) (env : ScanEnv F)
  | advance (id : Channel)
  | tick (now : UInt32)

structure State (F : Type) where
  buffer : Channel → Buffer Sample
  sys : Sys F

def State.setBuffer (st : State F) (id : Channel) (b : Buffer Sample) : State F :=
  { st with buffer := Function.update st.buffer id b }

def scanSample [Single F] (st : State F) (id : Channel) (env : ScanEnv F) : State F where
  buffer := Function.update st.buffer id (st.buffer id).use
  sys := energyScan st.sys id env (st.buffer id).current

def step [Single F] (st : State F) : Event F → State F
  | .readEnergy id x => st.setBuffer id ((st.buffer id).put x)
  | .notice id => st.setBuffer id (st.buffer id).claim
  | .scan id env => if (st.buffer id).phase = .claimed then scanSample st id env else st
  | .advance id => st.setBuffer id (st.buffer id).release
  | .tick now => { st with sys := { st.sys with sysTick1s := now } }

/-- Buffers as the boot leaves them, next to any energy state. -/
def start (sys : Sys F) : State F where
  buffer _ := ⟨fun _ _ => ⟨0, 0, 0⟩, false, false, .idle⟩
  sys := sys

/-- The samples a run reads out of one channel's chip. -/
def samples (id : Channel) (es : List (Event F)) : List Sample :=
  es.filterMap fun
    | .readEnergy j x => if j = id then some x else none
    | _ => none

/-- The sample a step hands to `energy_scan`, with what the scan reads besides. -/
def scanned (id : Channel) (st : State F) : Event F → List (ScanEnv F × Sample)
  | .scan j env =>
      if j = id ∧ (st.buffer j).phase = .claimed then [(env, (st.buffer j).current)] else []
  | _ => []

def scans [Single F] (id : Channel) : State F → List (Event F) → List (ScanEnv F × Sample)
  | _, [] => []
  | st, e :: es => scanned id st e ++ scans id (step st e) es

/-- A read finds no earlier sample of its channel still waiting to be claimed. -/
def Timely (st : State F) : Event F → Prop
  | .readEnergy id _ => (st.buffer id).Claimed
  | _ => True

instance (st : State F) : (e : Event F) → Decidable (Timely st e)
  | .readEnergy id _ => inferInstanceAs (Decidable (st.buffer id).Claimed)
  | .notice _ | .scan .. | .advance _ | .tick _ => inferInstanceAs (Decidable True)

section Ledger

/-- What accumulates in a channel: the 64-bit counters and what is left below a unit. -/
structure Ledger (F : Type) where
  counter : Regs UInt64
  rest : Regs F

def ledger (s : Sys F) (id : Channel) : Ledger F := ⟨s.egyNvr.ereg64 id, (s.meter id).ereg⟩

/-- An amount comes to a cell: whole units go to the counter, which wraps at its top. -/
def Ledger.add [Single F] (l : Ledger F) (c : Cell) (amount : F) : Ledger F :=
  let sum := l.rest c + amount
  let units := Single.trunc sum
  if units = 0 then { l with rest := Function.update l.rest c sum }
  else
    { counter := Function.update l.counter c (addEreg64 (l.counter c) units)
      rest := Function.update l.rest c (sum - ((units : Int) : F)) }

/-- An import is added to its cell and an export, by its size, to its own. -/
def Ledger.post [Single F] (l : Ledger F) (d : Mode × Group × F) : Ledger F :=
  if 0 < d.2.2 then l.add ⟨d.2.1, d.1, .imported⟩ d.2.2
  else if d.2.2 < 0 then l.add ⟨d.2.1, d.1, .exported⟩ (-d.2.2)
  else l

/-- A sample accumulated once: every phase's amounts and the totals. -/
def Ledger.accumulate [Single F] (l : Ledger F) (x : ScanEnv F × Sample) : Ledger F :=
  (energyDeltas x.1 x.2).foldl Ledger.post l

private theorem ledger_setMeter (s : Sys F) (id j : Channel) {f : Meter F → Meter F}
    (keeps : ∀ m, (f m).ereg = m.ereg) : ledger (s.setMeter id f) j = ledger s j := by
  rw [ledger, setMeter_egyNvr, setMeter_meter]
  split
  · rename_i same
    rw [keeps, ledger, same]
  · rfl

private theorem ledger_checkMonth (s : Nat × Sys F) (j : Channel) :
    ledger (checkMonth s).2 j = ledger s.2 j := by
  unfold checkMonth
  split <;> rfl

private theorem ledger_saveThrottled (s : Nat × Sys F) (j : Channel) :
    ledger (saveThrottled s) j = ledger s.2 j := by
  unfold saveThrottled
  split
  · rw [ledger, saveNow_egyNvr, saveNow_meter]
    rfl
  · rfl

variable [Single F]

private theorem ledger_add (s : Sys F) (id j : Channel) (c : Cell) (amount : F) :
    ledger (accumulate s id c amount).2 j =
      if j = id then (ledger s j).add c amount else ledger s j := by
  unfold accumulate
  by_cases same : j = id
  · subst same
    rw [if_pos rfl, Ledger.add]
    by_cases none : Single.trunc ((s.meter j).ereg c + amount) = 0
    · simp [none, ledger, setMeter_meter]
    · simp [none, ledger, setCounters, setMeter_meter, setCell]
  · rw [if_neg same]
    by_cases none : Single.trunc ((s.meter id).ereg c + amount) = 0
    · simp [none, ledger, setMeter_meter, same]
    · simp [none, ledger, setCounters, setMeter_meter, setCell, same]

private theorem ledger_post (s : Sys F) (id j : Channel) (d : Mode × Group × F) :
    ledger (updateEhGrp s id d.1 d.2.1 d.2.2).2 j =
      if j = id then (ledger s j).post d else ledger s j := by
  unfold updateEhGrp Ledger.post
  split
  · exact ledger_add s id j _ _
  split
  · exact ledger_add s id j _ _
  · exact (ite_self _).symm

private theorem ledger_updateEhAll (id j : Channel) (deltas : List (Mode × Group × F))
    (s : Nat × Sys F) : ledger (updateEhAll id deltas s).2 j =
      if j = id then deltas.foldl Ledger.post (ledger s.2 j) else ledger s.2 j := by
  induction deltas generalizing s with
  | nil => exact (ite_self _).symm
  | cons d deltas ih =>
      rw [updateEhAll, List.foldl_cons, ← updateEhAll, ih, ledger_post]
      split <;> rfl

end Ledger

/-- No clear or edit of the energy is ordered. -/
def Unordered (s : Sys F) : Prop := ∀ id, (s.meter id).rstEgy = 0

section Scan

private theorem rstEgy_saveThrottled (s : Nat × Sys F) (j : Channel) :
    ((saveThrottled s).meter j).rstEgy = (s.2.meter j).rstEgy := by
  unfold saveThrottled
  split
  · rw [saveNow_meter, markDirty_meter]
  · rw [markDirty_meter]

variable [Single F]

private theorem unordered_steps {s : Sys F} (none : Unordered s) (id : Channel) (env : ScanEnv F)
    (x : Sample) : Unordered (checkMonth (updateEhAll id (energyDeltas env x) (0, s))).2 := by
  intro j
  have accrued := (updateEhAll_accrued id (energyDeltas env x) (0, s)).rstEgy j
  unfold checkMonth
  split
  · exact accrued.trans (none j)
  · exact accrued.trans (none j)

private theorem scanSteps_unordered {s : Sys F} (none : Unordered s) (id : Channel)
    (env : ScanEnv F) (x : Sample) :
    scanSteps s id env x = checkMonth (updateEhAll id (energyDeltas env x) (0, s)) := by
  have idle := unordered_steps none id env x id
  have keep : clearEnergy id (checkMonth (updateEhAll id (energyDeltas env x) (0, s))) =
      checkMonth (updateEhAll id (energyDeltas env x) (0, s)) := by
    rw [clearEnergy, if_neg]
    rw [idle]
    decide
  rw [scanSteps, keep, editEnergy, if_neg]
  rw [idle]
  decide

private theorem unordered_energyScan {s : Sys F} (none : Unordered s) (id : Channel)
    (env : ScanEnv F) (x : Sample) : Unordered (energyScan s id env x) := by
  have kept : Unordered (scanSteps s id env x).2 := by
    rw [scanSteps_unordered none]
    exact unordered_steps none id env x
  intro j
  unfold energyScan
  split
  · rw [scanBody, rstEgy_saveThrottled]
    exact kept j
  · rw [setMeter_meter]
    split
    · exact none id
    · exact none j

private theorem ledger_energyScan {s : Sys F} (none : Unordered s) (id j : Channel)
    (env : ScanEnv F) (x : Sample) : ledger (energyScan s id env x) j =
      if j = id ∧ (s.meter id).energyInit then (ledger s j).accumulate (env, x)
      else ledger s j := by
  unfold energyScan
  split
  · rename_i started
    rw [scanBody, ledger_saveThrottled, scanSteps_unordered none, ledger_checkMonth,
      ledger_updateEhAll]
    simp [started, Ledger.accumulate]
  · rename_i fresh
    rw [if_neg fun both => fresh both.2]
    exact ledger_setMeter s id j fun _ => rfl

end Scan

section Run

variable [Single F]

private theorem unordered_step (st : State F) (e : Event F) (none : Unordered st.sys) :
    Unordered (step st e).sys := by
  cases e with
  | scan id env =>
      simp only [step]
      split
      · exact unordered_energyScan none id env _
      · exact none
  | readEnergy | notice | advance | tick => exact none

/-- What of the scans of a channel is accumulated: all of them once it has had a first. -/
private def due (st : State F) (id : Channel) (xs : List (ScanEnv F × Sample)) :
    List (ScanEnv F × Sample) :=
  if (st.sys.meter id).energyInit then xs else xs.drop 1

private theorem ledger_step (st : State F) (e : Event F) (none : Unordered st.sys)
    (id : Channel) (xs : List (ScanEnv F × Sample)) :
    (due (step st e) id xs).foldl Ledger.accumulate (ledger (step st e).sys id) =
      (due st id (scanned id st e ++ xs)).foldl Ledger.accumulate (ledger st.sys id) := by
  cases e with
  | scan j env =>
      simp only [step, scanned]
      by_cases claimed : (st.buffer j).phase = .claimed
      · rw [if_pos claimed]
        simp only [claimed, and_true]
        dsimp only [scanSample, due]
        rw [energyScan_energyInit, ledger_energyScan none]
        by_cases same : id = j
        · subst same
          cases started : (st.sys.meter id).energyInit <;> simp
        · simp [same, Ne.symm same]
      · simp [claimed]
  | readEnergy | notice | advance | tick => rfl

theorem ledger_run (st : State F) (es : List (Event F)) (none : Unordered st.sys) (id : Channel) :
    ledger (run step st es).sys id =
      (due st id (scans id st es)).foldl Ledger.accumulate (ledger st.sys id) := by
  induction es generalizing st with
  | nil =>
      dsimp only [run_nil, scans, due]
      split <;> rfl
  | cons e es ih =>
      rw [run_cons, ih _ (unordered_step st e none), scans, ledger_step st e none]

private theorem queue_step (st : State F) (e : Event F) (timely : Timely st e) (id : Channel) :
    (scanned id st e).map Prod.snd ++ ((step st e).buffer id).queue =
      (st.buffer id).queue ++ samples id [e] := by
  cases e with
  | readEnergy j x =>
      by_cases same : j = id
      · subst same
        simp [step, State.setBuffer, scanned, samples, queue_put (b := st.buffer j) timely]
      · simp [step, State.setBuffer, scanned, samples, same, Function.update_of_ne (Ne.symm same)]
  | notice j =>
      by_cases same : j = id
      · subst same
        simp [step, State.setBuffer, scanned, samples]
      · simp [step, State.setBuffer, scanned, samples, Function.update_of_ne (Ne.symm same)]
  | advance j =>
      by_cases same : j = id
      · subst same
        simp [step, State.setBuffer, scanned, samples]
      · simp [step, State.setBuffer, scanned, samples, Function.update_of_ne (Ne.symm same)]
  | scan j env =>
      simp only [step, scanned]
      by_cases claimed : (st.buffer j).phase = .claimed
      · by_cases same : j = id
        · subst same
          simp [claimed, scanSample, samples, queue_use claimed]
        · simp [claimed, same, scanSample, samples, Function.update_of_ne (Ne.symm same)]
      · simp [claimed, samples]
  | tick now => simp [step, scanned, samples]

omit [Single F] in
private theorem samples_cons (id : Channel) (e : Event F) (es : List (Event F)) :
    samples id (e :: es) = samples id [e] ++ samples id es := by
  simp only [samples, ← List.filterMap_append, List.singleton_append]

theorem queue_run (st : State F) (es : List (Event F)) (timely : Along step Timely st es)
    (id : Channel) :
    (scans id st es).map Prod.snd ++ ((run step st es).buffer id).queue =
      (st.buffer id).queue ++ samples id es := by
  induction es generalizing st with
  | nil => simp [scans, samples]
  | cons e es ih =>
      rw [run_cons, scans, List.map_append, List.append_assoc, ih _ timely.2, samples_cons id e es,
        ← List.append_assoc, queue_step st e timely.1 id, List.append_assoc]

omit [Single F] in
private theorem start_sys (s : Sys F) : (start s).sys = s := rfl

private theorem unordered_boot (now : UInt32) (fram : Device) :
    Unordered (boot (F := F) now fram) := by
  intro id
  exact (boot_control now fram id).2

private theorem ledger_boot_run (now : UInt32) (fram : Device) (es : List (Event F))
    (id : Channel) : ledger (run step (start (boot now fram)) es).sys id =
      ((scans id (start (boot now fram)) es).drop 1).foldl Ledger.accumulate
        (ledger (boot now fram) id) := by
  have fresh := boot_energyInit (F := F) now fram id
  have none := unordered_boot (F := F) now fram
  rw [← start_sys (boot (F := F) now fram)] at none
  rw [ledger_run _ es none id, due, start_sys, fresh, if_neg Bool.false_ne_true]

/-- In every interleaving whose reads are timely, the samples read are those scanned and at most
two that still wait, and the registers hold what the boot found and each sample scanned, without
the channel's first, accumulated once and in order. -/
theorem timely_samples_accumulated (now : UInt32) (fram : Device) (es : List (Event F))
    (timely : Along step Timely (start (boot now fram)) es) (id : Channel) :
    let st := run step (start (boot now fram)) es
    let handed := scans id (start (boot now fram)) es
    samples id es = handed.map Prod.snd ++ (st.buffer id).queue ∧
      (st.buffer id).queue.length ≤ 2 ∧
      ledger st.sys id = (handed.drop 1).foldl Ledger.accumulate (ledger (boot now fram) id) := by
  intro st handed
  have order := queue_run (start (boot now fram)) es timely id
  have empty : ((start (boot (F := F) now fram)).buffer id).queue = [] := rfl
  rw [empty, List.nil_append] at order
  exact ⟨order.symm, length_queue_le _, ledger_boot_run now fram es id⟩

end Run

section Exact

/-- Exact amounts a counter and its remainder can tell: a counter in its range and a proper
remainder. -/
structure Ledger.Within (l : Ledger Rat) : Prop where
  range : ∀ c, l.counter c ≤ maxEreg64
  nonneg : ∀ c, 0 ≤ l.rest c
  below : ∀ c, l.rest c < 1

/-- A cell has gained an amount: in whole units of its counter, modulo its wrap, and a rest. -/
def Ledger.Gained (l m : Ledger Rat) (c : Cell) (amount : Rat) : Prop :=
  ∃ units, Counted maxEreg64.toNat (l.counter c).toNat units (m.counter c).toNat ∧
    Carried (l.rest c) amount units (m.rest c)

def posted (c : Cell) (d : Mode × Group × Rat) : Rat :=
  if c = ⟨d.2.1, d.1, if 0 < d.2.2 then .imported else .exported⟩ then |d.2.2| else 0

def brought (c : Cell) (xs : List (ScanEnv Rat × Sample)) : Rat :=
  (xs.flatMap fun x => (energyDeltas x.1 x.2).map (posted c)).sum

/-- Amounts whose sums with a rest convert to an `int`. -/
def Modest (x : ScanEnv Rat × Sample) : Prop := ∀ d ∈ energyDeltas x.1 x.2, |d.2.2| + 1 < 2 ^ 31

instance (x : ScanEnv Rat × Sample) : Decidable (Modest x) := List.decidableBAll _ _

private theorem gained_nothing (l : Ledger Rat) (c : Cell) : l.Gained l c 0 :=
  ⟨0, counted_nothing _ _, carried_nothing _⟩

private theorem Ledger.Gained.trans {l m n : Ledger Rat} {c : Cell} {x y : Rat}
    (first : l.Gained m c x) (second : m.Gained n c y) : l.Gained n c (x + y) := by
  obtain ⟨u, counted, carried⟩ := first
  obtain ⟨v, counted', carried'⟩ := second
  exact ⟨u + v, counted.trans counted', carried.trans carried'⟩

private theorem trunc_eq {x : Rat} (small : x < 2 ^ 31) : Single.trunc x = ⌊x⌋.toNat := by
  have floor : ⌊x⌋ < 2 ^ 31 := Int.floor_lt.mpr (by exact_mod_cast small)
  change min ⌊x⌋.toNat (2 ^ 31 - 1) = _
  omega

private theorem gained_add {l : Ledger Rat} (inside : l.Within) (c : Cell) {amount : Rat}
    (pos : 0 ≤ amount) (small : amount + 1 < 2 ^ 31) :
    (l.add c amount).Within ∧
      ∀ d, l.Gained (l.add c amount) d (if d = c then amount else 0) := by
  have sum : 0 ≤ l.rest c + amount := add_nonneg (inside.nonneg c) pos
  have less : l.rest c + amount < 2 ^ 31 := by linarith [inside.below c]
  obtain ⟨carried, nonneg, below⟩ := carried_floor sum
  have units : ⌊l.rest c + amount⌋.toNat < 2 ^ 31 := by
    rw [← trunc_eq less]
    exact Single.trunc_lt _
  unfold Ledger.add
  dsimp only
  rw [trunc_eq less]
  split
  · rename_i none
    rw [none, Nat.cast_zero, sub_zero] at carried nonneg below
    refine ⟨⟨inside.range, ?_, ?_⟩, ?_⟩
    · intro d
      dsimp only
      rw [Function.update_apply]
      split
      · exact nonneg
      · exact inside.nonneg d
    · intro d
      dsimp only
      rw [Function.update_apply]
      split
      · exact below
      · exact inside.below d
    · intro d
      by_cases same : d = c
      · subst same
        rw [if_pos rfl]
        exact ⟨0, counted_nothing _ _, by simpa using carried⟩
      · rw [if_neg same]
        exact ⟨0, counted_nothing _ _, by simpa [same] using carried_nothing _⟩
  · have counter := counted_addEreg64 (inside.range c) units
    have range := addEreg64_le (inside.range c) units
    refine ⟨⟨?_, ?_, ?_⟩, ?_⟩
    · intro d
      dsimp only
      rw [Function.update_apply]
      split
      · exact range
      · exact inside.range d
    · intro d
      dsimp only
      rw [Function.update_apply, Int.cast_natCast]
      split
      · exact nonneg
      · exact inside.nonneg d
    · intro d
      dsimp only
      rw [Function.update_apply, Int.cast_natCast]
      split
      · exact below
      · exact inside.below d
    · intro d
      by_cases same : d = c
      · subst same
        rw [if_pos rfl]
        refine ⟨_, by simpa using counter, ?_⟩
        dsimp only
        rw [Function.update_self, Int.cast_natCast]
        exact carried
      · rw [if_neg same]
        exact ⟨0, by simpa [same] using counted_nothing _ _, by simpa [same] using carried_nothing _⟩

private theorem gained_post {l : Ledger Rat} (inside : l.Within) {d : Mode × Group × Rat}
    (small : |d.2.2| + 1 < 2 ^ 31) :
    (l.post d).Within ∧ ∀ c, l.Gained (l.post d) c (posted c d) := by
  unfold Ledger.post posted
  split
  · rename_i pos
    rw [abs_of_pos pos] at small ⊢
    exact gained_add inside _ pos.le small
  split
  · rename_i neg
    rw [abs_of_neg neg] at small ⊢
    exact gained_add inside _ (neg_nonneg.mpr neg.le) small
  · rename_i pos neg
    have zero : d.2.2 = 0 := le_antisymm (not_lt.mp pos) (not_lt.mp neg)
    refine ⟨inside, fun c => ?_⟩
    rw [zero, abs_zero, ite_self]
    exact gained_nothing l c

private theorem gained_posts {l : Ledger Rat} (inside : l.Within)
    {ds : List (Mode × Group × Rat)} (small : ∀ d ∈ ds, |d.2.2| + 1 < 2 ^ 31) :
    (ds.foldl Ledger.post l).Within ∧
      ∀ c, l.Gained (ds.foldl Ledger.post l) c (ds.map (posted c)).sum := by
  induction ds generalizing l with
  | nil => exact ⟨inside, gained_nothing l⟩
  | cons d ds ih =>
      obtain ⟨kept, first⟩ := gained_post inside (small d List.mem_cons_self)
      obtain ⟨ends, rest⟩ := ih kept fun e member => small e (List.mem_cons_of_mem d member)
      refine ⟨ends, fun c => ?_⟩
      rw [List.map_cons, List.sum_cons]
      exact (first c).trans (rest c)

private theorem gained_samples {l : Ledger Rat} (inside : l.Within)
    {xs : List (ScanEnv Rat × Sample)} (modest : ∀ x ∈ xs, Modest x) :
    (xs.foldl Ledger.accumulate l).Within ∧
      ∀ c, l.Gained (xs.foldl Ledger.accumulate l) c (brought c xs) := by
  induction xs generalizing l with
  | nil => exact ⟨inside, gained_nothing l⟩
  | cons x xs ih =>
      obtain ⟨kept, first⟩ := gained_posts inside (modest x List.mem_cons_self)
      obtain ⟨ends, rest⟩ := ih kept fun y member => modest y (List.mem_cons_of_mem x member)
      refine ⟨ends, fun c => ?_⟩
      rw [brought, List.flatMap_cons, List.sum_append]
      exact (first c).trans (rest c)

private theorem boot_rest (now : UInt32) (fram : Device) (id : Channel) :
    ((boot (F := Rat) now fram).meter id).ereg = fun _ => 0 := by
  dsimp only [boot, loadEnergy]
  rw [checkEnergy_eq, rolled]
  split <;> split <;> split <;> rfl

private theorem ledger_rest (s : Sys F) (id : Channel) : (ledger s id).rest = (s.meter id).ereg :=
  rfl

private theorem ledger_counter (s : Sys F) (id : Channel) :
    (ledger s id).counter = s.egyNvr.ereg64 id := rfl

private theorem within_boot (now : UInt32) (fram : Device) (id : Channel) :
    (ledger (boot (F := Rat) now fram) id).Within where
  range := by
    rw [ledger_counter]
    exact ((loadable_iff _).mp (boot_loadable now fram)).2 id
  nonneg c := by rw [ledger_rest, boot_rest]
  below c := by
    rw [ledger_rest, boot_rest]
    exact zero_lt_one

/-- In exact arithmetic the registers gain, in every run, the sum of the samples scanned without
the channel's first. -/
theorem scanned_samples_gained (now : UInt32) (fram : Device) (es : List (Event Rat))
    (id : Channel)
    (modest : ∀ x ∈ (scans id (start (boot now fram)) es).drop 1, Modest x) (c : Cell) :
    (ledger (boot now fram) id).Gained (ledger (run step (start (boot now fram)) es).sys id) c
      (brought c ((scans id (start (boot now fram)) es).drop 1)) := by
  rw [ledger_boot_run]
  exact (gained_samples (within_boot now fram id) modest).2 c

end Exact

section Examples

/-- Three phases whose raw registers count the units of the energy counters. -/
def env : ScanEnv Rat := ⟨fun _ => false, .wm3LN3CT, fun _ => false, (pwrMax : Rat) * 3600⟩

def sample (wh : Int32) : Sample := fun _ => ⟨wh, 0, 0⟩

def round (x : Sample) : List (Event Rat) :=
  [.readEnergy 0 x, .notice 0, .scan 0 env, .advance 0]

def storedRecord : EnergyNvram :=
  { zeroRecord with ereg64 := fun id c => if id = 0 ∧ c = importTotal then 100 else 0 }

def storedFram : Device := ⟨fun _ => 0, storeEnergyNVR (stamp 0 storedRecord)⟩

abbrev opening : State Rat := start (boot 0 storedFram)

private theorem ledger_opening :
    ledger (boot (F := Rat) 0 storedFram) 0 = ⟨storedRecord.ereg64 0, fun _ => 0⟩ := by
  have copy : firstCopy storedFram.cells = image (stamp 0 storedRecord) := by
    rw [storedFram, Device.cells_mk, firstCopy_store]
  have ok : Loadable storedRecord := by decide +kernel
  have found := loadEnergyNVR_first copy (stamp_crcOk _ _) (loadable_stamp ok)
  rw [ledger, boot_ereg64 found, boot_rest, stamp_ereg64]

/-- A first sample, a second, and a third read while the second is being scanned. -/
def threeSamples : List (Event Rat) :=
  round (sample 5) ++
    [.readEnergy 0 (sample 7), .notice 0, .readEnergy 0 (sample 9), .scan 0 env, .advance 0,
      .notice 0, .scan 0 env]

/-- A first sample, and two more that are both read before the next scan. -/
def lapped : List (Event Rat) :=
  round (sample 5) ++
    [.readEnergy 0 (sample 7), .readEnergy 0 (sample 9), .notice 0, .scan 0 env, .advance 0]

/-- The second and the third sample, of 7 and 9 units a phase, join the hundred on file. -/
theorem second_sample_accumulated :
    (ledger (run step opening threeSamples).sys 0).counter importTotal = 148 := by
  have timely : Along step Timely opening threeSamples := by decide +kernel
  have accumulated := (timely_samples_accumulated 0 storedFram _ timely 0).2.2
  rw [accumulated, ledger_opening]
  decide +kernel

private theorem round_unmoved (now : UInt32) (fram : Device) :
    ledger (run step (start (boot now fram)) (round (sample 5))).sys 0 =
      ledger (boot now fram) 0 := by
  have dropped : (scans 0 (start (boot now fram)) (round (sample 5))).drop 1 = [] := rfl
  rw [ledger_boot_run, dropped, List.foldl_nil]

private theorem lapped_unmoved (now : UInt32) (fram : Device) :
    ledger (run step (start (boot now fram)) lapped).sys 0 = ledger (boot now fram) 0 := by
  have dropped : (scans 0 (start (boot now fram)) lapped).drop 1 = [] := rfl
  rw [ledger_boot_run, dropped, List.foldl_nil]

/-- The first sample of a channel is dropped, and two reads without a scan between them lose both
samples: nothing waits and no register has moved. -/
theorem samples_lost :
    (samples 0 (round (sample 5)) = [sample 5] ∧ brought importTotal [(env, sample 5)] = 15 ∧
      ((run step opening (round (sample 5))).buffer 0).queue = [] ∧
      ledger (run step opening (round (sample 5))).sys 0 = ledger (boot 0 storedFram) 0) ∧
    samples 0 lapped = [sample 5, sample 7, sample 9] ∧
      ((run step opening lapped).buffer 0).queue = [] ∧
      ledger (run step opening lapped).sys 0 = ledger (boot 0 storedFram) 0 :=
  ⟨⟨rfl, by decide +kernel, rfl, round_unmoved 0 storedFram⟩, rfl, rfl, lapped_unmoved 0 storedFram⟩

end Examples

end SV300.Energy.Handover
