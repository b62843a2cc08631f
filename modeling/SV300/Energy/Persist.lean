/- SV300/Energy/Persist
   digest: Which reachable energy records the loader takes back after a save and a reboot. -/

import SV300.Library.Runs
import SV300.Energy.Scan

set_option autoImplicit false
set_option relaxedAutoImplicit false

namespace SV300.Energy.Persist

open SV300.Library.ByteStore (apply)
open SV300.Library.Runs
open SV300.Clock (uLocalTime)
open SV300.Energy.Record
open SV300.Energy.Fram
open SV300.Energy.Registers
open SV300.Energy.Scan

variable {F : Type}

/-- One 16-bit half of a 32-bit register, low half first in the map. -/
def setHalf (old : UInt32) (high : Bool) (v : UInt16) : UInt32 :=
  if high then old % 65536 + v.toUInt32 * 65536 else old / 65536 * 65536 + v.toUInt32

def Period.ofIndex : Fin 3 → Period
  | 0 => .total
  | 1 => .thisMonth
  | 2 => .lastMonth

/-- A write to word `w` of a channel's displayed registers, from Modbus or the web. -/
def writeEregWord (s : Sys F) (id : Channel) (w : Fin 144) (v : UInt16) : Sys F :=
  let p := Period.ofIndex ⟨w / 48, by omega⟩
  let c := Cell.ofIndex ⟨w % 48 / 2, by omega⟩
  s.setMeter id fun m => { m with
    ereg32 := Function.update m.ereg32 p
      (Function.update (m.ereg32 p) c (setHalf (m.ereg32 p c) (w % 2 = 1) v)) }

/-- What can happen to the energy registers: a clock tick, a scan, an edit of a displayed register,
a clear or apply command, the save-settings command, a reboot. -/
inductive Event (F : Type)
  | tick (now : UInt32)
  | scan (id : Channel) (env : ScanEnv F) (ereg : Fin 3 → MeterEhRegs)
  | writeEreg (id : Channel) (w : Fin 144) (v : UInt16)
  | command (id : Channel) (v : UInt16)
  | saveSettings
  | reboot (now : UInt32)

def step [Single F] (s : Sys F) : Event F → Sys F
  | .tick now => { s with sysTick1s := now }
  | .scan id env ereg => energyScan s id env ereg
  | .writeEreg id w v => writeEregWord s id w v
  | .command id v => s.setMeter id fun m => { m with rstEgy := v }
  | .saveSettings => storeEnergy s
  | .reboot now => boot now s.fram

/-- The largest displayed total whose hundredfold a 64-bit counter may hold. -/
def maxShown : UInt32 := 999999999

/-- A scan applies no edit with a total above `maxShown`. -/
def EditFits (s : Sys F) : Event F → Prop
  | .scan id _ _ => (s.meter id).energyInit = true → (s.meter id).rstEgy = editCommand →
      ∀ c, (s.meter id).ereg32 .total c ≤ maxShown
  | _ => True

/-- What is saved from this state is taken back by the next boot: the 64-bit counters always, the
month counters when the boot falls in the month of the save. -/
def Restores [Single F] (s : Sys F) : Prop :=
  let saved := storeEnergy s
  loadEnergyNVR saved.fram.cells = some saved.egyNvr ∧
    ∀ now, (boot (F := F) now saved.fram).egyNvr.ereg64 = saved.egyNvr.ereg64 ∧
      ((uLocalTime saved.egyNvr.ts).tmMon = (uLocalTime now).tmMon →
        (boot (F := F) now saved.fram).egyNvr.monthWh = saved.egyNvr.monthWh ∧
        (boot (F := F) now saved.fram).egyNvr.ereg32Last = saved.egyNvr.ereg32Last)

def InRange (s : Sys F) : Prop := ∀ id c, s.egyNvr.ereg64 id c ≤ maxEreg64

theorem loadable_iff (s : Sys F) :
    Loadable s.egyNvr ↔ s.egyNvr.magic = energyNvramMagic ∧ InRange s :=
  and_congr_right fun _ =>
    ⟨fun h id c => h id c (Cell.mem_all c), fun h id c _ => h id c⟩

theorem addEreg64_le {cell : UInt64} {dt : Nat} (range : cell ≤ maxEreg64) (small : dt < 2 ^ 31) :
    addEreg64 cell dt ≤ maxEreg64 := by
  have top : maxEreg64.toNat = 99999999999 := rfl
  rw [UInt64.le_iff_toNat_le] at range
  have sum := toNat_add_units (show cell.toNat + dt < 2 ^ 64 by omega)
  unfold addEreg64
  dsimp only
  split
  · rename_i past
    rw [UInt64.le_iff_toNat_le, UInt64.toNat_sub_of_le _ _ past]
    omega
  · rename_i under
    rw [UInt64.le_iff_toNat_le] at under ⊢
    omega

private theorem accumulate_inRange [Single F] {s : Sys F} (range : InRange s) (id : Channel)
    (c : Cell) (diff : F) : InRange (accumulate s id c diff).2 := by
  dsimp only [accumulate]
  split
  · exact range
  · intro j d
    dsimp only [setCounters, Sys.setMeter, setCell]
    have wrapped := addEreg64_le (range id c) (Single.trunc_lt ((s.meter id).ereg c + diff))
    by_cases channel : j = id
    · subst channel
      rw [Function.update_self]
      by_cases cell : d = c
      · subst cell
        rwa [Function.update_self]
      · rw [Function.update_of_ne cell]
        exact range j d
    · rw [Function.update_of_ne channel]
      exact range j d

private theorem update_inRange {regs : Channel → Regs UInt64} {id : Channel} {new : Regs UInt64}
    (range : ∀ j c, regs j c ≤ maxEreg64) (fits : ∀ c, new c ≤ maxEreg64) (j : Channel) (c : Cell) :
    Function.update regs id new j c ≤ maxEreg64 := by
  by_cases same : j = id
  · subst same
    rw [Function.update_self]
    exact fits c
  · rw [Function.update_of_ne same]
    exact range j c

private theorem hundredfold_le (v : UInt32) : v.toUInt64 * 100 ≤ maxEreg64 ↔ v ≤ maxShown := by
  have top : maxEreg64.toNat = 99999999999 := rfl
  have shown : maxShown.toNat = 999999999 := rfl
  have bound : v.toNat < 2 ^ 32 := v.toNat_lt
  have product : (v.toUInt64 * 100).toNat = v.toNat * 100 := by
    rw [UInt64.toNat_mul, UInt32.toNat_toUInt64]
    exact Nat.mod_eq_of_lt (by simp; omega)
  rw [UInt64.le_iff_toNat_le, UInt32.le_iff_toNat_le, product]
  omega

private theorem updateEhAll_inRange [Single F] (id : Channel) (deltas : List (Mode × Group × F))
    {s : Nat × Sys F} (range : InRange s.2) : InRange (updateEhAll id deltas s).2 :=
  updateEhAll_induct (P := fun s t => InRange s → InRange t) (fun _ h => h)
    (fun h k r => k (h r)) id (fun _ c diff r => accumulate_inRange r id c diff) deltas s range

theorem updateEhAll_loadable [Single F] (id : Channel) (deltas : List (Mode × Group × F))
    {s : Nat × Sys F} (ok : Loadable s.2.egyNvr) :
    Loadable (updateEhAll id deltas s).2.egyNvr := by
  rw [loadable_iff] at ok ⊢
  exact ⟨(updateEhAll_accrued id deltas s).magic.trans ok.1, updateEhAll_inRange id deltas ok.2⟩

private theorem checkMonth_inRange {s : Nat × Sys F} (range : InRange s.2) :
    InRange (checkMonth s).2 := by
  unfold checkMonth
  split <;> exact range

private theorem clearEnergy_inRange [Single F] (id : Channel) {s : Nat × Sys F}
    (range : InRange s.2) :
    InRange (clearEnergy id s).2 := by
  unfold clearEnergy
  split
  · exact update_inRange range fun _ => UInt64.zero_le
  · exact range

private theorem editEnergy_inRange [Single F] (id : Channel) {s : Nat × Sys F} (range : InRange s.2)
    (fits : (s.2.meter id).rstEgy = editCommand → ∀ c, (s.2.meter id).ereg32 .total c ≤ maxShown) :
    InRange (editEnergy id s).2 := by
  unfold editEnergy
  split
  · rename_i edit
    refine update_inRange range fun c => ?_
    rw [setMeter_meter, if_pos rfl, hundredfold_le]
    exact fits edit c
  · exact range

theorem checkMonth_view (s : Nat × Sys F) (id : Channel) :
    ((checkMonth s).2.meter id).rstEgy = (s.2.meter id).rstEgy ∧
      ((checkMonth s).2.meter id).ereg32 .total = (s.2.meter id).ereg32 .total := by
  unfold checkMonth
  split
  · exact ⟨rfl, by simp [rollover]⟩
  · exact ⟨rfl, rfl⟩

private theorem clearEnergy_view [Single F] {s : Nat × Sys F} {id : Channel}
    (edit : ((clearEnergy id s).2.meter id).rstEgy = editCommand) : clearEnergy id s = s := by
  unfold clearEnergy at edit ⊢
  split at edit
  · simp only [setMeter_meter, if_true] at edit
    exact absurd edit (by decide)
  · rename_i other
    rw [if_neg other]

private theorem edit_view [Single F] (s : Sys F) (id : Channel) (deltas : List (Mode × Group × F))
    (edit : ((clearEnergy id (checkMonth (updateEhAll id deltas (0, s)))).2.meter id).rstEgy =
      editCommand) :
    (s.meter id).rstEgy = editCommand ∧
      ((clearEnergy id (checkMonth (updateEhAll id deltas (0, s)))).2.meter id).ereg32 .total =
        (s.meter id).ereg32 .total := by
  have accrued := updateEhAll_accrued id deltas (0, s)
  obtain ⟨command, totals⟩ := checkMonth_view (updateEhAll id deltas (0, s)) id
  have kept := clearEnergy_view edit
  rw [kept] at edit ⊢
  rw [command, accrued.rstEgy] at edit
  rw [totals, accrued.ereg32]
  exact ⟨edit, rfl⟩

private theorem scanSteps_inRange [Single F] {s : Sys F} (range : InRange s) (id : Channel)
    (env : ScanEnv F) (ereg : Fin 3 → MeterEhRegs)
    (fits : (s.meter id).rstEgy = editCommand → ∀ c, (s.meter id).ereg32 .total c ≤ maxShown) :
    InRange (scanSteps s id env ereg).2 := by
  rw [scanSteps]
  refine editEnergy_inRange id (clearEnergy_inRange id (checkMonth_inRange
    (updateEhAll_inRange id _ range))) fun edit c => ?_
  obtain ⟨command, totals⟩ := edit_view s id _ edit
  rw [totals]
  exact fits command c

private theorem magic_scanBody [Single F] (s : Sys F) (id : Channel) (env : ScanEnv F)
    (ereg : Fin 3 → MeterEhRegs) : (scanBody s id env ereg).egyNvr.magic = s.egyNvr.magic := by
  have frame := scanSteps_frame s id env ereg
  by_cases saves : Saves (scanSteps s id env ereg)
  · rw [(scanBody_saved saves).2, stamp_magic, frame.magic]
  · rw [(scanBody_unsaved saves).2, frame.magic]

theorem scanBody_ereg64 [Single F] (s : Sys F) (id : Channel) (env : ScanEnv F)
    (ereg : Fin 3 → MeterEhRegs) :
    (scanBody s id env ereg).egyNvr.ereg64 = (scanSteps s id env ereg).2.egyNvr.ereg64 := by
  by_cases saves : Saves (scanSteps s id env ereg)
  · rw [(scanBody_saved saves).2, stamp_ereg64]
  · rw [(scanBody_unsaved saves).2]

theorem boot_loadable [Single F] (now : UInt32) (fram : Device) :
    Loadable (boot (F := F) now fram).egyNvr := by
  cases found : loadEnergyNVR fram.cells with
  | some r =>
      have ok := loadable_of_loadEnergyNVR found
      refine ⟨(boot_magic found).trans ok.1, ?_⟩
      rw [boot_ereg64 found]
      exact ok.2
  | none =>
      refine ⟨boot_rejected_magic found, ?_⟩
      rw [boot_rejected found]
      exact fun _ _ _ => UInt64.zero_le

private theorem loadable_step [Single F] (s : Sys F) (e : Event F) (ok : Loadable s.egyNvr)
    (fits : EditFits s e) : Loadable (step s e).egyNvr := by
  cases e with
  | scan id env ereg =>
      dsimp only [step, energyScan]
      split
      · rename_i started
        rw [loadable_iff] at ok ⊢
        refine ⟨(magic_scanBody s id env ereg).trans ok.1, ?_⟩
        have range := scanSteps_inRange ok.2 id env ereg (fits started)
        intro j c
        rw [scanBody_ereg64]
        exact range j c
      · exact ok
  | reboot now => exact boot_loadable now s.fram
  | saveSettings => exact ok
  | tick | writeEreg | command => exact ok

theorem loads_saved {s : Sys F} (ok : Loadable s.egyNvr) :
    loadEnergyNVR (storeEnergy s).fram.cells = some (storeEnergy s).egyNvr := by
  have saved : Loadable (storeEnergy s).egyNvr := by
    rw [storeEnergy_egyNvr]
    exact loadable_stamp ok
  exact loadEnergyNVR_first (firstCopy_storeEnergy s) (storeEnergy_crcOk s) saved

theorem loads_saveNow {s : Sys F} (ok : Loadable s.egyNvr) :
    loadEnergyNVR (saveNow s).fram.cells = some (saveNow s).egyNvr := by
  have copy : firstCopy (saveNow s).fram.cells = image (saveNow s).egyNvr := by
    rw [saveNow_fram, Device.cells_write, firstCopy_store]
  rw [saveNow_egyNvr] at copy ⊢
  exact loadEnergyNVR_first copy (stamp_crcOk _ _) (loadable_stamp ok)

theorem loads_boot [Single F] (now : UInt32) (fram : Device) :
    loadEnergyNVR (boot (F := F) now fram).fram.cells = some (boot (F := F) now fram).egyNvr := by
  have ok := boot_loadable (F := F) now fram
  obtain ⟨t, same⟩ := boot_saved (F := F) now fram
  rw [same] at ok ⊢
  exact loadEnergyNVR_first (firstCopy_storeEnergy t) (storeEnergy_crcOk t) ok

private theorem restores_of_loadable [Single F] {s : Sys F} (ok : Loadable s.egyNvr) :
    Restores s := by
  have found := loads_saved ok
  refine ⟨found, fun now => ⟨boot_ereg64 found, fun same => ?_⟩⟩
  rw [boot_sameMonth found same, stamp_monthWh, stamp_ereg32Last]
  exact ⟨rfl, rfl⟩

/-- From any power-on, a run whose applied edits fit keeps every record it saves restorable. -/
theorem fitting_edits_restored [Single F] (now : UInt32) (fram : Device) (es : List (Event F))
    (fits : Along step EditFits (boot now fram) es) : Restores (run step (boot now fram) es) := by
  have start : Loadable (boot (F := F) now fram).egyNvr := boot_loadable now fram
  generalize boot (F := F) now fram = s at fits start ⊢
  exact restores_of_loadable
    (invariant_run (I := fun s => Loadable s.egyNvr) loadable_step start fits)

private theorem setHalf_both (old : UInt32) (lo hi : UInt16) :
    setHalf (setHalf old false lo) true hi = UInt32.ofNat (hi.toNat * 65536 + lo.toNat) := by
  have small := old.toNat_lt
  have low := lo.toNat_lt
  have high := hi.toNat_lt
  apply UInt32.toNat_inj.mp
  simp only [setHalf, if_true, Bool.false_eq_true, if_false, UInt32.toNat_add, UInt32.toNat_mod,
    UInt32.toNat_mul, UInt32.toNat_div, UInt16.toNat_toUInt32, UInt32.toNat_ofNat']
  simp only [UInt32.reduceToNat]
  omega

private theorem displayed_fits {r : EnergyNvram} (ok : Loadable r) (id : Channel) (c : Cell) :
    displayed r id .total c ≤ maxShown := by
  have top : maxEreg64.toNat = 99999999999 := rfl
  have shown : maxShown.toNat = 999999999 := rfl
  have range := ok.2 id c (Cell.mem_all c)
  rw [UInt64.le_iff_toNat_le] at range
  have hundred : (100 : UInt64).toNat = 100 := rfl
  rw [displayed, UInt32.le_iff_toNat_le, UInt64.toNat_toUInt32, UInt64.toNat_div, hundred]
  omega

private theorem edit_ereg64 [Single F] {s : Sys F} {id : Channel} (env : ScanEnv F)
    (ereg : Fin 3 → MeterEhRegs) (command : (s.meter id).rstEgy = editCommand) (c : Cell) :
    (scanSteps s id env ereg).2.egyNvr.ereg64 id c =
      ((s.meter id).ereg32 .total c).toUInt64 * 100 := by
  have accrued := updateEhAll_accrued id (energyDeltas env ereg) (0, s)
  obtain ⟨kept, totals⟩ := checkMonth_view (updateEhAll id (energyDeltas env ereg) (0, s)) id
  rw [accrued.rstEgy, command] at kept
  have other : clearEnergy id (checkMonth (updateEhAll id (energyDeltas env ereg) (0, s))) =
      checkMonth (updateEhAll id (energyDeltas env ereg) (0, s)) := by
    rw [clearEnergy, kept, if_neg (by decide)]
  rw [scanSteps, other, editEnergy, if_pos kept]
  dsimp only [applyEregEdit, setMeter_egyNvr]
  rw [Function.update_self, setMeter_meter, if_pos rfl, totals, accrued.ereg32]

/-- A first sample, an edit of the total imported energy of channel 0, and the apply command. -/
def editing (lo hi : UInt16) : List (Event Rat) :=
  [.scan 0 quiet noEnergy, .writeEreg 0 0 lo, .writeEreg 0 1 hi, .command 0 editCommand]

private theorem editing_view {s : Sys Rat} (fresh : (s.meter 0).energyInit = false)
    (lo hi : UInt16) :
    let m := (run step s (editing lo hi)).meter 0
    m.energyInit = true ∧ m.rstEgy = editCommand ∧
      m.ereg32 .total importTotal = UInt32.ofNat (hi.toNat * 65536 + lo.toNat) ∧
      ∀ c, c ≠ importTotal → m.ereg32 .total c = (s.meter 0).ereg32 .total c := by
  have word : Cell.ofIndex 0 = importTotal := rfl
  simp only [editing, run_cons, run_nil, step, energyScan, fresh, Bool.false_eq_true, if_false,
    writeEregWord, setMeter_meter, if_true]
  refine ⟨trivial, trivial, ?_, fun c other => ?_⟩
  · rw [← setHalf_both ((s.meter 0).ereg32 .total importTotal)]
    rfl
  · simp [Period.ofIndex, word, Function.update_of_ne other]

/-- A boot, an edit to 5000 and its scan. -/
theorem small_edit_restored :
    Restores (run step (boot 0 ⟨fun _ => 0, []⟩) (editing 5000 0 ++ [.scan 0 quiet noEnergy])) := by
  refine fitting_edits_restored 0 ⟨fun _ => 0, []⟩ _ ?_
  have fresh : ((boot (F := Rat) 0 ⟨fun _ => 0, []⟩).meter 0).energyInit = false :=
    boot_energyInit _ _ _
  obtain ⟨-, -, edited, others⟩ := editing_view fresh 5000 0
  rw [along_append]
  refine ⟨⟨fun init => absurd (init.symm.trans fresh) (by decide), trivial, trivial, trivial,
    trivial⟩, fun _ _ c => ?_, trivial⟩
  by_cases same : c = importTotal
  · rw [same, edited]
    decide
  · rw [others c same, boot_displayed]
    exact displayed_fits (boot_loadable _ _) 0 c

/-- An edit to 1,000,000,000 is applied and saved, but the next boot refuses the record and
starts from zero. -/
theorem large_edit_lost :
    let saved := storeEnergy (run step (boot 0 ⟨fun _ => 0, []⟩)
      (editing 0xca00 0x3b9a ++ [.scan 0 quiet noEnergy]))
    saved.egyNvr.ereg64 0 importTotal = 100000000000 ∧
      loadEnergyNVR saved.fram.cells = none ∧
      ∀ now, (boot (F := Rat) now saved.fram).egyNvr.ereg64 = fun _ _ => 0 := by
  intro saved
  have fresh : ((boot (F := Rat) 0 ⟨fun _ => 0, []⟩).meter 0).energyInit = false :=
    boot_energyInit _ _ _
  obtain ⟨init, command, edited, -⟩ := editing_view fresh 0xca00 0x3b9a
  have counter : saved.egyNvr.ereg64 0 importTotal = 100000000000 := by
    dsimp only [saved]
    rw [storeEnergy_egyNvr, stamp_ereg64, run_append, run_cons, run_nil, step, energyScan,
      if_pos init, scanBody_ereg64, edit_ereg64 quiet noEnergy command, edited]
    decide
  have large : ¬ Loadable saved.egyNvr := fun ok => by
    have range := ok.2 0 importTotal (Cell.mem_all _)
    rw [counter] at range
    exact absurd range (by decide)
  have refused := loadEnergyNVR_refused (firstCopy_storeEnergy _) (storeEnergy_crcOk _) large
  exact ⟨counter, refused, fun now => boot_rejected refused⟩

end SV300.Energy.Persist
