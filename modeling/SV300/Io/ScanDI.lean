/- SV300/Io/ScanDI
   digest: The debounced pulse inputs, and the runs in which each pulse is counted exactly once. -/

import Mathlib.Data.Fintype.Basic
import Mathlib.Data.List.OfFn
import SV300.Library.Runs
import SV300.Library.Settle

set_option autoImplicit false
set_option relaxedAutoImplicit false

namespace SV300.Io.ScanDI

open SV300.Library.Runs SV300.Library.Settle

/-- `DI_BUF`, without the fields that nothing reads. -/
structure DiBuf where
  lastVal : UInt8
  val : UInt8
  accept : UInt8

/-- `IO_CFG` -/
structure IoCfg where
  diType : Fin 4 → UInt16
  debounce : Fin 4 → UInt16
  piConst : Fin 4 → UInt16

/-- `IOM_DATA` -/
structure IomData where
  diStatus : Fin 4 → UInt16
  piData : Fin 4 → UInt32

structure Meter where
  iom : IomData
  dibuf : Fin 4 → DiBuf

/-- What `DI_Read` gives for each input. -/
abbrev Pins := Fin 4 → UInt32

def clampDebounce (db : UInt16) : UInt16 := if db < 4 then 4 else if db > 64 then 64 else db

def raw (pin : UInt32) : UInt8 := if pin ≠ 0 then 0 else 1

def scale (sc : UInt16) : UInt32 := if sc ≤ 1 then 1 else sc.toUInt32

/-- The body of the loop for one input: its buffer, its status and its pulse count after it. -/
def scanInput (diType debounce piConst : UInt16) (pin : UInt32) (b : DiBuf) (diStatus : UInt16)
    (piData : UInt32) : DiBuf × UInt16 × UInt32 :=
  let raw := raw pin
  let db := clampDebounce debounce
  let b := { b with val := raw }
  if raw ≠ b.lastVal then
    let b := { b with accept := b.accept + 1 }
    if b.accept.toUInt16 ≥ db then
      let rising := raw ≠ 0 ∧ b.lastVal = 0
      let b := { b with lastVal := raw, accept := 0 }
      (b, raw.toUInt16, if diType = 1 ∧ rising then piData + scale piConst else piData)
    else (b, diStatus, piData)
  else
    let b := { b with accept := 0 }
    (b, raw.toUInt16, piData)

def scanAt (cfg : IoCfg) (m : Meter) (pins : Pins) (i : Fin 4) : DiBuf × UInt16 × UInt32 :=
  scanInput (cfg.diType i) (cfg.debounce i) (cfg.piConst i) (pins i) (m.dibuf i)
    (m.iom.diStatus i) (m.iom.piData i)

/-- `scanDI`: the passes of the loop touch different entries. -/
def scanDI (cfg : IoCfg) (m : Meter) (pins : Pins) : Meter where
  iom :=
    { diStatus i := (scanAt cfg m pins i).2.1
      piData i := (scanAt cfg m pins i).2.2 }
  dibuf i := (scanAt cfg m pins i).1

/-- The loop with which `IOM_Task` begins. -/
def IOM_Task (m : Meter) (pins : Pins) : Meter :=
  { m with dibuf i := { m.dibuf i with lastVal := if pins i ≠ 0 then 1 else 0, accept := 0 } }

def active (pin : UInt32) : Bool := decide (pin = 0)

/-- The meter, the inputs at power-up, and all samples of each input since, the newest first. -/
structure Sys where
  meter : Meter
  first : Fin 4 → Bool
  past : Fin 4 → List Bool

def start (m : Meter) (pins : Pins) : Sys := ⟨IOM_Task m pins, fun i => active (pins i), fun _ => []⟩

section
variable (cfg : IoCfg)

def step (s : Sys) (pins : Pins) : Sys :=
  ⟨scanDI cfg s.meter pins, s.first, fun i => active (pins i) :: s.past i⟩

def time (i : Fin 4) : Nat := (clampDebounce (cfg.debounce i)).toNat

/-- The debounced level of a pulse input becomes active. -/
def Pulse (s : Sys) (pins : Pins) (i : Fin 4) : Prop :=
  cfg.diType i = 1 ∧ Rises (time cfg i) (s.first i) (s.past i) (active (pins i))

instance (s : Sys) (pins : Pins) (i : Fin 4) : Decidable (Pulse cfg s pins i) :=
  inferInstanceAs (Decidable (_ ∧ _))

/-- A scan adds the pulse constant for each pulse, and nothing else. -/
def Law (s : Sys) (pins : Pins) : Prop :=
  ∀ i, (step cfg s pins).meter.iom.piData i =
    s.meter.iom.piData i + if Pulse cfg s pins i then scale (cfg.piConst i) else 0

instance (s : Sys) (pins : Pins) : Decidable (Law cfg s pins) :=
  inferInstanceAs (Decidable (∀ _, _))

/-- The samples of an input in a run, the newest first. -/
def samples (run : List Pins) (i : Fin 4) : List Bool := (run.map fun pins => active (pins i)).reverse

/-- The first level that a pulse input holds for the debounce time is not the active one. -/
def Settles (run : List Pins) : Prop :=
  ∀ i, cfg.diType i = 1 → settled (time cfg i) (samples run i) ≠ some true

instance (run : List Pins) : Decidable (Settles cfg run) := inferInstanceAs (Decidable (∀ _, _))

def bit (b : Bool) : UInt8 := if b then 1 else 0

private theorem bit_inj {b c : Bool} : bit b = bit c ↔ b = c := by cases b <;> cases c <;> decide

private theorem bit_zero {b : Bool} : bit b = 0 ↔ b = false := by cases b <;> decide

private theorem raw_eq (pin : UInt32) : raw pin = bit (active pin) := by
  by_cases low : pin = 0 <;> simp [raw, bit, active, low]

private theorem time_bounds (i : Fin 4) : 0 < time cfg i ∧ time cfg i ≤ 64 := by
  have bounds : ∀ db : UInt16, 4 ≤ clampDebounce db ∧ clampDebounce db ≤ 64 := by
    intro db
    unfold clampDebounce
    split
    · decide
    · rename_i small
      split
      · decide
      · rename_i large
        exact ⟨UInt16.not_lt.mp small, UInt16.not_lt.mp large⟩
  have low := UInt16.le_iff_toNat_le.mp (bounds (cfg.debounce i)).1
  exact ⟨Nat.lt_of_lt_of_le (by decide) low, UInt16.le_iff_toNat_le.mp (bounds (cfg.debounce i)).2⟩

/-- A buffer holds a filter's state. -/
structure Holds (b : DiBuf) (f : Filter) : Prop where
  lastVal : b.lastVal = bit f.level
  accept : b.accept.toNat = f.count

private theorem level_stays (diType : UInt16) (level : Bool) (piData amount : UInt32) :
    piData = piData + if diType = 1 ∧ level = false ∧ level = true then amount else 0 := by
  rw [if_neg, UInt32.add_zero]
  rintro ⟨_, low, high⟩
  rw [low] at high
  cases high

theorem scanInput_spec (diType debounce piConst : UInt16) (pin : UInt32) (diStatus : UInt16)
    (piData : UInt32) {b : DiBuf} {f : Filter} (holds : Holds b f) (small : f.count < 64) :
    Holds (scanInput diType debounce piConst pin b diStatus piData).1
        (f.step (clampDebounce debounce).toNat (active pin)) ∧
      (scanInput diType debounce piConst pin b diStatus piData).2.2 = piData +
        if diType = 1 ∧ f.level = false ∧
          (f.step (clampDebounce debounce).toNat (active pin)).level = true
        then scale piConst else 0 := by
  have next : (b.accept + 1).toUInt16.toNat = f.count + 1 := by
    have one : (1 : UInt8).toNat = 1 := rfl
    rw [UInt8.toNat_toUInt16, UInt8.toNat_add, holds.accept, one, Nat.mod_eq_of_lt (by omega)]
  unfold scanInput Filter.step
  rw [raw_eq, holds.lastVal]
  dsimp only
  by_cases same : active pin = f.level
  · rw [if_neg (not_not.mpr (congrArg bit same)), if_pos same]
    exact ⟨⟨rfl, rfl⟩, level_stays _ _ _ _⟩
  · rw [if_pos (fun both => same (bit_inj.mp both)), if_neg same]
    by_cases due : (clampDebounce debounce).toNat ≤ f.count + 1
    · have passed : (b.accept + 1).toUInt16 ≥ clampDebounce debounce :=
        UInt16.le_iff_toNat_le.mpr (next ▸ due)
      rw [if_pos passed, if_pos due]
      refine ⟨⟨rfl, rfl⟩, ?_⟩
      have rising : (bit (active pin) ≠ 0 ∧ bit f.level = 0) ↔
          (f.level = false ∧ active pin = true) := by
        rw [Ne, bit_zero, bit_zero, Bool.not_eq_false, and_comm]
      dsimp only
      rw [if_congr (and_congr_right fun _ => rising) rfl rfl]
      split
      · rfl
      · exact (UInt32.add_zero _).symm
    · have waits : ¬ (b.accept + 1).toUInt16 ≥ clampDebounce debounce := by
        intro passed
        exact due (next ▸ UInt16.le_iff_toNat_le.mp passed)
      rw [if_neg waits, if_neg due]
      have counted : (b.accept + 1).toNat = f.count + 1 := by
        rw [← next, UInt8.toNat_toUInt16]
      exact ⟨⟨rfl, counted⟩, level_stays _ _ _ _⟩

/-- Each buffer tracks the samples of its input, from the level that was not there at power-up. -/
def Inv (s : Sys) : Prop :=
  ∀ i, ∃ f, Tracks (time cfg i) (!s.first i) (s.past i) f ∧ Holds (s.meter.dibuf i) f ∧
    f.count < time cfg i

private theorem inv_start (m : Meter) (pins : Pins) : Inv cfg (start m pins) := by
  intro i
  refine ⟨⟨!active (pins i), 0⟩, tracks_start _, ⟨?_, rfl⟩, (time_bounds cfg i).1⟩
  by_cases low : pins i = 0 <;> simp [start, IOM_Task, bit, active, low]

variable {cfg}

private theorem inv_step {s : Sys} (inv : Inv cfg s) (pins : Pins) : Inv cfg (step cfg s pins) := by
  intro i
  obtain ⟨f, tracks, holds, small⟩ := inv i
  have bounds := time_bounds cfg i
  exact ⟨_, tracks.step (active (pins i)),
    (scanInput_spec _ _ _ _ _ _ holds (Nat.lt_of_lt_of_le small bounds.2)).1,
    Filter.step_count_lt bounds.1 f (active (pins i))⟩

private theorem piData_step {s : Sys} (inv : Inv cfg s) (pins : Pins) (i : Fin 4) :
    (step cfg s pins).meter.iom.piData i = s.meter.iom.piData i +
      if cfg.diType i = 1 ∧ Rises (time cfg i) (!s.first i) (s.past i) (active (pins i))
      then scale (cfg.piConst i) else 0 := by
  obtain ⟨f, tracks, holds, small⟩ := inv i
  have counted := (scanInput_spec (cfg.diType i) (cfg.debounce i) (cfg.piConst i) (pins i)
    (s.meter.iom.diStatus i) (s.meter.iom.piData i) holds
    (Nat.lt_of_lt_of_le small (time_bounds cfg i).2)).2
  have rises := tracks.rises_iff (active (pins i))
  refine counted.trans ?_
  exact congrArg (s.meter.iom.piData i + ·) (if_congr (and_congr_right fun _ => rises) rfl rfl)

private theorem scale_pos (sc : UInt16) : scale sc ≠ 0 := by
  unfold scale
  split
  · decide
  · rename_i large
    intro zero
    apply large
    have none := congrArg UInt32.toNat zero
    rw [UInt16.toNat_toUInt32] at none
    rw [UInt16.le_iff_toNat_le, none]
    exact Nat.zero_le _

private theorem added_iff {P Q : Prop} [Decidable P] [Decidable Q] (n : UInt32) (sc : UInt16) :
    (n + (if P then scale sc else 0) = n + if Q then scale sc else 0) ↔ (P ↔ Q) := by
  rw [UInt32.add_right_inj]
  by_cases p : P <;> by_cases q : Q <;> simp [p, q, scale_pos, (scale_pos _).symm]

private theorem law_iff {s : Sys} (inv : Inv cfg s) (pins : Pins) : Law cfg s pins ↔
    ∀ i, cfg.diType i = 1 → settled (time cfg i) (s.past i) = none →
      settled (time cfg i) (active (pins i) :: s.past i) ≠ some true := by
  refine forall_congr' fun i => ?_
  rw [piData_step inv pins i]
  refine (added_iff _ _).trans ?_
  rw [Pulse, and_congr_right_iff]
  exact imp_congr_right fun _ => rises_iff_rises (s.first i) (s.past i) (active (pins i))

theorem law_run_iff {s : Sys} (inv : Inv cfg s) (run : List Pins) :
    Along (step cfg) (Law cfg) s run ↔ ∀ i, cfg.diType i = 1 →
      settled (time cfg i) (s.past i) = none →
        settled (time cfg i) (samples run i ++ s.past i) ≠ some true := by
  induction run generalizing s with
  | nil =>
    refine iff_of_true trivial fun i _ none some => ?_
    rw [samples, List.map_nil, List.reverse_nil, List.nil_append, none] at some
    cases some
  | cons pins run ih =>
    rw [along_cons, law_iff inv, ih (inv_step inv pins), ← forall_and]
    refine forall_congr' fun i => ?_
    rw [← imp_and]
    refine imp_congr_right fun _ => ?_
    have whole : samples (pins :: run) i ++ s.past i =
        samples run i ++ (step cfg s pins).past i := by
      rw [samples, List.map_cons, List.reverse_cons, List.append_assoc]
      rfl
    rw [whole]
    have later : (step cfg s pins).past i = active (pins i) :: s.past i := rfl
    rw [later]
    cases before : settled (time cfg i) (s.past i) with
    | some b =>
      rw [settled_cons before]
      exact iff_of_true ⟨nofun, nofun⟩ nofun
    | none =>
      cases now : settled (time cfg i) (active (pins i) :: s.past i) with
      | some b =>
        rw [settled_append now]
        exact ⟨fun both => both.1, fun right => ⟨right, nofun⟩⟩
      | none => exact ⟨fun both _ => both.2 rfl, fun right => ⟨nofun, fun _ => right rfl⟩⟩

/-- From power-up on each scan counts each pulse exactly once, if and only if no pulse input first
settles in its active level. -/
theorem pulses_counted_iff (m : Meter) (pins : Pins) (run : List Pins) :
    Along (step cfg) (Law cfg) (start m pins) run ↔ Settles cfg run := by
  rw [law_run_iff (inv_start cfg m pins)]
  refine forall_congr' fun i => imp_congr_right fun _ => ?_
  rw [show (start m pins).past i = [] from rfl, List.append_nil]
  exact forall_prop_of_true rfl

/-- The inputs are all pulse inputs, with the shortest debounce time. -/
def pulseInputs : IoCfg := ⟨fun _ => 1, fun _ => 4, fun _ => 1⟩

/-- A signal that is there at power-up and stays is counted as a pulse. -/
theorem standing_signal_counted : ¬ Along (step pulseInputs) (Law pulseInputs)
    (start ⟨⟨fun _ => 0, fun _ => 0⟩, fun _ => ⟨0, 0, 0⟩⟩ fun _ => 0)
    (List.replicate 4 fun _ => 0) := by
  decide

end

end SV300.Io.ScanDI
