/- SV300/Energy/Throttle
   digest: When the sum of the change flags forges the flag that stores the energy at once. -/

import Mathlib.Data.Nat.Bitwise
import SV300.Energy.Persist

set_option autoImplicit false
set_option relaxedAutoImplicit false

namespace SV300.Energy.Throttle

open SV300.Library.Runs
open SV300.Energy.Record
open SV300.Energy.Registers
open SV300.Energy.Scan
open SV300.Energy.Persist (Event)

variable {F : Type}

/-- Booked on a cell, the amount adds whole units and leaves a counter the display does not show. -/
def Moves [Single F] (s : Sys F) (id : Channel) (c : Cell) (amount : F) : Prop :=
  let dt := Single.trunc ((s.meter id).ereg c + amount)
  dt ≠ 0 ∧
    ((s.meter id).ereg32 .total c ≠ (addEreg64 (s.egyNvr.ereg64 id c) dt / 100).toUInt32 ∨
      (s.meter id).ereg32 .thisMonth c ≠ (s.egyNvr.monthWh id c + UInt32.ofNat dt) / 100)

instance [Single F] (s : Sys F) (id : Channel) (c : Cell) (amount : F) :
    Decidable (Moves s id c amount) :=
  inferInstanceAs (Decidable (_ ∧ _))

/-- One amount of a scan moves its import or its export counter past the display. -/
def Outdates [Single F] (s : Sys F) (id : Channel) (d : Mode × Group × F) : Prop :=
  if 0 < d.2.2 then Moves s id ⟨d.2.1, d.1, .imported⟩ d.2.2
  else d.2.2 < 0 ∧ Moves s id ⟨d.2.1, d.1, .exported⟩ (-d.2.2)

instance [Single F] (s : Sys F) (id : Channel) (d : Mode × Group × F) :
    Decidable (Outdates s id d) :=
  inferInstanceAs (Decidable (ite _ _ _))

private theorem accumulate_flag [Single F] (s : Sys F) (id : Channel) (c : Cell) (diff : F) :
    (accumulate s id c diff).1 = if Moves s id c diff then 1 <<< c.mode.index.val else 0 := by
  dsimp only [accumulate]
  split
  · rename_i none
    have still : ¬ Moves s id c diff := fun moves => moves.1 none
    rw [if_neg still]
  · rename_i some
    have moves : Moves s id c diff ↔ _ := and_iff_right some
    simp only [changeFlag, moves]

private theorem updateEhGrp_flag [Single F] (s : Sys F) (id : Channel) (d : Mode × Group × F) :
    (updateEhGrp s id d.1 d.2.1 d.2.2).1 =
      if Outdates s id d then 1 <<< d.1.index.val else 0 := by
  unfold updateEhGrp Outdates
  split
  · exact accumulate_flag s id _ _
  split
  · rename_i negative
    rw [accumulate_flag]
    simp only [negative, true_and]
  · rename_i zero
    rw [if_neg (fun h => zero h.1)]

/-- The cells of one mode and group, as the flags see them, are the same in both states. -/
structure SameGroup (id : Channel) (mode : Mode) (group : Group) (s t : Sys F) : Prop where
  ereg : ∀ sign, (t.meter id).ereg ⟨group, mode, sign⟩ = (s.meter id).ereg ⟨group, mode, sign⟩
  ereg64 : ∀ sign, t.egyNvr.ereg64 id ⟨group, mode, sign⟩ = s.egyNvr.ereg64 id ⟨group, mode, sign⟩
  monthWh : ∀ sign,
    t.egyNvr.monthWh id ⟨group, mode, sign⟩ = s.egyNvr.monthWh id ⟨group, mode, sign⟩
  ereg32 : (t.meter id).ereg32 = (s.meter id).ereg32

private theorem SameGroup.outdates [Single F] {id : Channel} {s t : Sys F} {d : Mode × Group × F}
    (same : SameGroup id d.1 d.2.1 s t) : Outdates t id d ↔ Outdates s id d := by
  simp only [Outdates, Moves, same.ereg, same.ereg64, same.monthWh, same.ereg32]

private theorem accumulate_sameGroup [Single F] {s : Sys F} {id : Channel} {c : Cell} {diff : F}
    {mode : Mode} {group : Group} (other : c.mode ≠ mode ∨ c.grp ≠ group) :
    SameGroup id mode group s (accumulate s id c diff).2 := by
  have apart : ∀ sign, (⟨group, mode, sign⟩ : Cell) ≠ c := by
    rintro sign rfl
    rcases other with no | no <;> exact no rfl
  have shown := (accumulate_accrued s id c diff).ereg32 id
  dsimp only [accumulate] at shown ⊢
  split at shown
  · rename_i none
    rw [if_pos none]
    refine ⟨fun sign => ?_, fun _ => rfl, fun _ => rfl, shown⟩
    simp only [setMeter_meter, if_true, Function.update_of_ne (apart sign)]
  · rename_i some
    rw [if_neg some]
    refine ⟨fun sign => ?_, fun sign => ?_, fun sign => ?_, shown⟩
    · simp only [setCounters, setMeter_meter, if_true, Function.update_of_ne (apart sign)]
    · simp only [setCounters, setMeter_egyNvr, setCell, Function.update_self,
        Function.update_of_ne (apart sign)]
    · simp only [setCounters, setMeter_egyNvr, setCell, Function.update_self,
        Function.update_of_ne (apart sign)]

private theorem updateEhGrp_sameGroup [Single F] {s : Sys F} {id : Channel} {d e : Mode × Group × F}
    (other : (d.1, d.2.1) ≠ (e.1, e.2.1)) :
    SameGroup id e.1 e.2.1 s (updateEhGrp s id d.1 d.2.1 d.2.2).2 := by
  have parts : d.1 ≠ e.1 ∨ d.2.1 ≠ e.2.1 := by
    by_contra! both
    exact other (Prod.ext both.1 both.2)
  unfold updateEhGrp
  split
  · exact accumulate_sameGroup parts
  split
  · exact accumulate_sameGroup parts
  · exact ⟨fun _ => rfl, fun _ => rfl, fun _ => rfl, rfl⟩

/-- How many amounts of one mode outdate the display. -/
def outdated [Single F] (s : Sys F) (id : Channel) (deltas : List (Mode × Group × F))
    (mode : Mode) : Nat :=
  deltas.countP fun d => d.1 = mode ∧ Outdates s id d

/-- The three counts, each with the weight of its mode's flag. -/
def flagSum [Single F] (s : Sys F) (id : Channel) (deltas : List (Mode × Group × F)) : Nat :=
  outdated s id deltas .kwh + 2 * outdated s id deltas .kvarh + 4 * outdated s id deltas .kvah

private theorem flagSum_cons [Single F] (s : Sys F) (id : Channel) (d : Mode × Group × F)
    (deltas : List (Mode × Group × F)) :
    flagSum s id (d :: deltas) =
      (if Outdates s id d then 1 <<< d.1.index.val else 0) + flagSum s id deltas := by
  have weight : ∀ mode : Mode, (1 <<< mode.index.val : Nat) =
      (if mode = .kwh then 1 else 0) + 2 * (if mode = .kvarh then 1 else 0) +
        4 * (if mode = .kvah then 1 else 0) := by
    intro mode
    cases mode <;> rfl
  simp only [flagSum, outdated, List.countP_cons, decide_eq_true_eq]
  by_cases moves : Outdates s id d
  · simp only [moves, and_true, if_true, weight]
    omega
  · simp only [moves, and_false, if_false]
    omega

private theorem flagSum_congr [Single F] {s t : Sys F} {id : Channel}
    {deltas : List (Mode × Group × F)} (same : ∀ d ∈ deltas, SameGroup id d.1 d.2.1 s t) :
    flagSum t id deltas = flagSum s id deltas := by
  have counts : ∀ mode, outdated t id deltas mode = outdated s id deltas mode := by
    intro mode
    apply List.countP_congr
    intro d mem
    simp only [decide_eq_true_eq, (same d mem).outdates]
  simp only [flagSum, counts]

private theorem updateEhAll_flags [Single F] (id : Channel) {deltas : List (Mode × Group × F)}
    (distinct : deltas.Pairwise fun d e => (d.1, d.2.1) ≠ (e.1, e.2.1)) (s : Nat × Sys F) :
    (updateEhAll id deltas s).1 = s.1 + flagSum s.2 id deltas := by
  induction deltas generalizing s with
  | nil => rfl
  | cons d deltas ih =>
      obtain ⟨others, distinct⟩ := List.pairwise_cons.mp distinct
      have rest := ih distinct (s.1 + (updateEhGrp s.2 id d.1 d.2.1 d.2.2).1,
        (updateEhGrp s.2 id d.1 d.2.1 d.2.2).2)
      have same : flagSum (updateEhGrp s.2 id d.1 d.2.1 d.2.2).2 id deltas =
          flagSum s.2 id deltas :=
        flagSum_congr fun e mem => updateEhGrp_sameGroup (others e mem)
      rw [flagSum_cons, ← updateEhGrp_flag, ← Nat.add_assoc, ← same]
      exact rest

private theorem energyDeltas_distinct [Single F] (env : ScanEnv F) (ereg : Fin 3 → MeterEhRegs) :
    (energyDeltas env ereg).Pairwise fun d e => (d.1, d.2.1) ≠ (e.1, e.2.1) := by
  have keys : ((energyDeltas env ereg).map fun d => (d.1, d.2.1)).Pairwise (· ≠ ·) := by
    simp only [energyDeltas, phaseGroup, List.cons_append, List.nil_append, List.map_cons,
      List.map_nil]
    decide
  exact List.pairwise_map.mp keys

private theorem scan_flags [Single F] (s : Sys F) (id : Channel) (env : ScanEnv F)
    (ereg : Fin 3 → MeterEhRegs) :
    (updateEhAll id (energyDeltas env ereg) (0, s)).1 = flagSum s id (energyDeltas env ereg) := by
  rw [updateEhAll_flags id (energyDeltas_distinct env ereg), Nat.zero_add]

private theorem rolloverFlag_clear (n : Nat) : n &&& rolloverFlag = 0 ↔ n % 16 < 8 := by
  have bit : rolloverFlag = 2 ^ 3 := rfl
  rw [bit, Nat.and_two_pow, Nat.testBit_eq_decide_div_mod_eq]
  by_cases set : n / 2 ^ 3 % 2 = 1
  · simp only [set, decide_true, Bool.toNat_true]
    omega
  · simp only [set, decide_false, Bool.toNat_false]
    omega

/-- The system with the second in which a scan last stored the record since the power-on. -/
structure State (F : Type) where
  sys : Sys F
  stored : Option UInt32

def step [Single F] (st : State F) (e : Event F) : State F where
  sys := Persist.step st.sys e
  stored := match e with
    | .scan id env ereg =>
      if (st.sys.meter id).energyInit = true ∧ Saves (scanSteps st.sys id env ereg) then
        some st.sys.sysTick1s
      else st.stored
    | .reboot _ => none
    | _ => st.stored

/-- In a scan the sum of the change flags leaves the rollover bit clear, and the scan stores the
record only on a month change, on a clear, or 300 s after the last scan that stored it. -/
def Spaced [Single F] (st : State F) : Event F → Prop
  | .scan id env ereg => (st.sys.meter id).energyInit = true →
      (updateEhAll id (energyDeltas env ereg) (0, st.sys)).1 &&& rolloverFlag = 0 ∧
        (Saves (scanSteps st.sys id env ereg) →
          MonthChanged st.sys ∨ (st.sys.meter id).rstEgy = clearCommand ∨
            ∀ t ∈ st.stored, egySaveSec ≤ st.sys.sysTick1s - t)
  | _ => True

instance [Single F] (st : State F) : ∀ e, Decidable (Spaced st e)
  | .scan _ _ _ => inferInstanceAs (Decidable (_ → _ ∧ (_ → _ ∨ _ ∨ _)))
  | .tick _ | .writeEreg _ _ _ | .command _ _ | .saveSettings | .reboot _ =>
    inferInstanceAs (Decidable True)

/-- The flags of the counters a scan moves past the display, summed, do not carry into the fourth
bit: active energy counts one for each cell, reactive two and apparent four. -/
def Unaliased [Single F] (st : State F) : Event F → Prop
  | .scan id env ereg => (st.sys.meter id).energyInit = true →
      flagSum st.sys id (energyDeltas env ereg) % 16 < 8
  | _ => True

/-- The throttle measures from the last scan that stored. -/
def Inv (st : State F) : Prop := ∀ t ∈ st.stored, st.sys.egyLastSave = t

private theorem scanBody_egyLastSave [Single F] (s : Sys F) (id : Channel) (env : ScanEnv F)
    (ereg : Fin 3 → MeterEhRegs) :
    (scanBody s id env ereg).egyLastSave =
      if Saves (scanSteps s id env ereg) then s.sysTick1s else s.egyLastSave := by
  have frame := scanSteps_frame s id env ereg
  have saved : ∀ s : Sys F, (saveNow s).egyLastSave = s.sysTick1s := fun _ => rfl
  rw [scanBody, saveThrottled]
  split
  · rw [saved, markDirty_sysTick1s, frame.sysTick1s]
  · rw [markDirty_egyLastSave, frame.egyLastSave]

private theorem inv_step [Single F] (st : State F) (e : Event F) (inv : Inv st) :
    Inv (step st e) := by
  cases e with
  | scan id env ereg =>
      intro t mem
      simp only [step, Persist.step, energyScan] at mem ⊢
      by_cases started : (st.sys.meter id).energyInit = true
      · by_cases saves : Saves (scanSteps st.sys id env ereg)
        · rw [if_pos ⟨started, saves⟩, Option.mem_some] at mem
          rw [if_pos started, scanBody_egyLastSave, if_pos saves, mem]
        · rw [if_neg fun h => saves h.2] at mem
          rw [if_pos started, scanBody_egyLastSave, if_neg saves]
          exact inv t mem
      · rw [if_neg fun h => started h.1] at mem
        rw [if_neg started]
        exact inv t mem
  | reboot now =>
      intro t mem
      exact absurd mem (Option.not_mem_none t)
  | tick | writeEreg | command | saveSettings => exact inv

private theorem scanSteps_flags [Single F] {s : Sys F} {id : Channel} {env : ScanEnv F}
    {ereg : Fin 3 → MeterEhRegs} (month : ¬ MonthChanged s)
    (clear : (s.meter id).rstEgy ≠ clearCommand) :
    (scanSteps s id env ereg).1 = flagSum s id (energyDeltas env ereg) := by
  have accrued := updateEhAll_accrued id (energyDeltas env ereg) (0, s)
  have same : ¬ MonthChanged (updateEhAll id (energyDeltas env ereg) (0, s)).2 := by
    rwa [MonthChanged, Sys.tod, accrued.ts, accrued.sysTick1s]
  have kept : ((updateEhAll id (energyDeltas env ereg) (0, s)).2.meter id).rstEgy ≠
      clearCommand := by
    rwa [accrued.rstEgy]
  rw [scanSteps, checkMonth, if_neg same, clearEnergy, if_neg kept, ← scan_flags, editEnergy]
  split <;> rfl

private theorem spaced_iff [Single F] {st : State F} (inv : Inv st) (e : Event F) :
    Spaced st e ↔ Unaliased st e := by
  cases e with
  | scan id env ereg =>
      simp only [Spaced, Unaliased]
      refine imp_congr_right fun started => ?_
      rw [scan_flags, rolloverFlag_clear]
      refine and_iff_left_of_imp fun plain saves => ?_
      by_cases month : MonthChanged st.sys
      · exact .inl month
      by_cases clear : (st.sys.meter id).rstEgy = clearCommand
      · exact .inr (.inl clear)
      refine .inr (.inr fun t mem => ?_)
      have frame := scanSteps_frame st.sys id env ereg
      rcases saves.2 with flagged | late
      · rw [scanSteps_flags month clear] at flagged
        exact absurd ((rolloverFlag_clear _).mpr plain) flagged
      · rwa [frame.sysTick1s, frame.egyLastSave, inv t mem] at late
  | tick | writeEreg | command | saveSettings | reboot => exact Iff.rfl

/-- Over every run from a power-on or any other moment, the stores of the scans are spaced and no
sum of flags forges a rollover exactly when no sum carries into the fourth bit. -/
theorem stores_spaced_iff_unaliased [Single F] (s : Sys F) (es : List (Event F)) :
    Along step Spaced ⟨s, none⟩ es ↔ Along step Unaliased ⟨s, none⟩ es := by
  have start : Inv (⟨s, none⟩ : State F) := fun t mem => absurd mem (Option.not_mem_none t)
  exact along_iff inv_step (fun st e inv => spaced_iff inv e) start es

/-- Apparent energy of one display unit on two phases. -/
def twoPhases : Fin 3 → MeterEhRegs
  | 0 | 1 => ⟨0, 0, 100⟩
  | 2 => ⟨0, 0, 0⟩

def unitScale : ScanEnv Rat := { quiet with wscale := (pwrMax : Rat) * 3600 }

/-- A meter that has just been switched on with an empty record. -/
def fresh : Sys Rat :=
  { powerOn 1735689000 ⟨fun _ => 0, []⟩ with egyNvr := { zeroRecord with ts := 1735689000 } }

/-- A first sample, a scan that measures, and the tick of the next second. -/
def oneSecond : List (Event Rat) :=
  [.scan 0 unitScale twoPhases, .scan 0 unitScale twoPhases, .tick 1735689001]

/-- The scan that measures stores at once, and so does the scan of the next second, in the same
month and without a clear: two phases and the total each raise the flag 4, which adds up to 12. -/
theorem apparent_energy_forges_rollover :
    ¬ Along step Spaced ⟨fresh, none⟩ (oneSecond ++ [.scan 0 unitScale twoPhases]) ∧
      (run step ⟨fresh, none⟩ oneSecond).stored = some 1735689000 ∧
      (step (run step ⟨fresh, none⟩ oneSecond) (.scan 0 unitScale twoPhases)).stored =
        some 1735689001 ∧
      ¬ MonthChanged (run step ⟨fresh, none⟩ oneSecond).sys ∧
      ((run step ⟨fresh, none⟩ oneSecond).sys.meter 0).rstEgy ≠ clearCommand := by
  decide +kernel

end SV300.Energy.Throttle
