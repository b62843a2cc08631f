/- SV300/Energy/SaveRace
   digest: The save-settings task's storeEnergy, piece by piece, interleaved with energy scans. -/

import SV300.Library.Runs
import SV300.Energy.Scan

set_option autoImplicit false
set_option relaxedAutoImplicit false

namespace SV300.Energy.SaveRace

open SV300.Library.ByteStore (Store apply apply_append)
open SV300.Library.Runs
open SV300.Library.TableCrc (lowByte highByte)
open SV300.Crc (gencrcModbus gencrc_append_ne)
open SV300.Energy.Record
open SV300.Energy.Fram
open SV300.Energy.Registers
open SV300.Energy.Scan

variable {F : Type}

/-- The next thing the file-system task does in its `storeEnergy`. -/
inductive Task
  | idle
  | setTs
  | setCrc
  | copy1 (i : Fin 5)
  | copy2 (i : Fin 5)
  deriving DecidableEq

def Task.next : Task → Task
  | .idle => .idle
  | .setTs => .setCrc
  | .setCrc => .copy1 0
  | .copy1 i => if more : i.val + 1 < 5 then .copy1 ⟨i + 1, more⟩ else .copy2 0
  | .copy2 i => if more : i.val + 1 < 5 then .copy2 ⟨i + 1, more⟩ else .idle

/-- The save-settings command, one step of the save it started, a scan of the metering task (which
no step of the save can interrupt), or a clock tick. -/
inductive Event (F : Type)
  | save
  | fs
  | scan (id : Channel) (env : ScanEnv F) (ereg : Fin 3 → MeterEhRegs)
  | tick (now : UInt32)

/-- The energy state, the task's place in its save, the record as it was when a CRC was last
computed for it, and every value the record has had since the save began. -/
structure State (F : Type) where
  sys : Sys F
  task : Task
  crcd : EnergyNvram
  history : List EnergyNvram

def fsStep (s : Sys F) : Task → Sys F
  | .idle => s
  | .setTs => { s with egyNvr := { s.egyNvr with ts := s.sysTick1s } }
  | .setCrc => { s with egyNvr := { s.egyNvr with crc := recordCrc s.egyNvr } }
  | .copy1 i => { s with fram := s.fram.write (writePiece egyNvrOs1 s.egyNvr i) }
  | .copy2 i => { s with fram := s.fram.write (writePiece egyNvrOs2 s.egyNvr i) }

/-- The scan runs a whole `storeEnergy` of its own. -/
def ScanStores [Single F] (s : Sys F) (id : Channel) (env : ScanEnv F)
    (ereg : Fin 3 → MeterEhRegs) : Prop :=
  (s.meter id).energyInit = true ∧ Saves (scanSteps s id env ereg)

instance [Single F] (s : Sys F) (id : Channel) (env : ScanEnv F) (ereg : Fin 3 → MeterEhRegs) :
    Decidable (ScanStores s id env ereg) :=
  inferInstanceAs (Decidable (_ ∧ _))

def step [Single F] (st : State F) : Event F → State F
  | .save =>
      if st.task = .idle then { st with task := .setTs, history := [st.sys.egyNvr] } else st
  | .fs =>
      let s := fsStep st.sys st.task
      { sys := s
        task := st.task.next
        crcd := if st.task = .setCrc then s.egyNvr else st.crcd
        history := s.egyNvr :: st.history }
  | .scan id env ereg =>
      let s := energyScan st.sys id env ereg
      { sys := s
        task := st.task
        crcd := if ScanStores st.sys id env ereg then s.egyNvr else st.crcd
        history := s.egyNvr :: st.history }
  | .tick now => { st with sys := { st.sys with sysTick1s := now } }

/-- With no write in progress, which is after copy 1 and after copy 2, a copy passes its CRC and
holds a value the record has had since the save began. -/
def Held (st : State F) : Prop :=
  st.task = .copy2 0 ∨ st.task = .idle → ∃ r ∈ st.history, CrcOk r ∧
    (firstCopy st.sys.fram.cells = image r ∨ secondCopy st.sys.fram.cells = image r)

/-- The task writes no piece of copy 1 from a record changed since its CRC was computed. -/
def Steady (st : State F) : Event F → Prop
  | .fs => ∀ i, st.task = .copy1 i → st.sys.egyNvr = st.crcd
  | _ => True

/-- What is known of copy 1 at each place of the save. -/
def FollowsAt (s : Store) (crcd : EnergyNvram) (history : List EnergyNvram) : Task → Prop
  | .setTs | .setCrc => True
  | .copy1 i => (CrcOk crcd ∧ crcd ∈ history) ∧
      (firstCopy s).take (256 * i) = (image crcd).take (256 * i)
  | .copy2 _ | .idle => (CrcOk crcd ∧ crcd ∈ history) ∧ firstCopy s = image crcd

def Follows (st : State F) : Prop :=
  FollowsAt st.sys.fram.cells st.crcd st.history st.task

private theorem held_of_follows {st : State F} (h : Follows st) : Held st := by
  intro place
  unfold Follows at h
  rcases place with written | done
  · rw [written] at h
    exact ⟨st.crcd, h.1.2, h.1.1, .inl h.2⟩
  · rw [done] at h
    exact ⟨st.crcd, h.1.2, h.1.1, .inl h.2⟩

private theorem scan_stores [Single F] {s : Sys F} {id : Channel} {env : ScanEnv F}
    {ereg : Fin 3 → MeterEhRegs} (stores : ScanStores s id env ereg) :
    CrcOk (energyScan s id env ereg).egyNvr ∧
      firstCopy (energyScan s id env ereg).fram.cells =
        image (energyScan s id env ereg).egyNvr := by
  obtain ⟨written, stamped⟩ := scanBody_saved stores.2
  rw [energyScan, if_pos stores.1]
  refine ⟨by rw [stamped]; exact stamp_crcOk _ _, ?_⟩
  rw [written, Device.cells_write, firstCopy_store]

private theorem scan_silent [Single F] {s : Sys F} {id : Channel} {env : ScanEnv F}
    {ereg : Fin 3 → MeterEhRegs} (silent : ¬ ScanStores s id env ereg) :
    (energyScan s id env ereg).fram = s.fram := by
  unfold energyScan
  split
  · rename_i started
    exact (scanBody_unsaved fun saves => silent ⟨started, saves⟩).1
  · rfl

private theorem followsAt_whole {s : Store} {r : EnergyNvram} {history : List EnergyNvram}
    (crc : CrcOk r) (mem : r ∈ history) (copy : firstCopy s = image r) (task : Task) :
    FollowsAt s r history task := by
  cases task with
  | setTs | setCrc => trivial
  | copy1 i => exact ⟨⟨crc, mem⟩, by rw [copy]⟩
  | copy2 | idle => exact ⟨⟨crc, mem⟩, copy⟩

private theorem FollowsAt.later {s : Store} {crcd : EnergyNvram} {history : List EnergyNvram}
    {task : Task} (h : FollowsAt s crcd history task) (r : EnergyNvram) :
    FollowsAt s crcd (r :: history) task := by
  cases task with
  | setTs | setCrc => trivial
  | copy1 | copy2 | idle => exact ⟨⟨h.1.1, List.mem_cons_of_mem r h.1.2⟩, h.2⟩

private theorem follows_scan [Single F] {st : State F} (h : Follows st) (id : Channel)
    (env : ScanEnv F) (ereg : Fin 3 → MeterEhRegs) : Follows (step st (.scan id env ereg)) := by
  by_cases stores : ScanStores st.sys id env ereg
  · obtain ⟨crc, copy⟩ := scan_stores stores
    simp only [Follows, step, if_pos stores]
    exact followsAt_whole crc List.mem_cons_self copy _
  · simp only [Follows, step, if_neg stores, scan_silent stores]
    exact FollowsAt.later h _

private theorem follows_fs [Single F] {st : State F} (h : Follows st) (steady : Steady st .fs) :
    Follows (step st .fs) := by
  unfold Follows at h
  cases place : st.task with
  | idle =>
      simp only [Follows, step, place, Task.next, fsStep, reduceCtorEq, if_false]
      rw [place] at h
      exact h.later _
  | setTs =>
      simp only [Follows, step, place, Task.next]
      trivial
  | setCrc =>
      simp only [Follows, step, place, Task.next, fsStep, if_true]
      exact ⟨⟨setCrc_crcOk _, List.mem_cons_self⟩, by simp⟩
  | copy1 i =>
      rw [place] at h
      have live := steady i place
      have extended := firstCopy_piece i h.2
      simp only [Follows, step, place, Task.next, fsStep, reduceCtorEq, if_false,
        Device.cells_write, live]
      split
      · exact ⟨⟨h.1.1, List.mem_cons_self⟩, extended⟩
      · rename_i last
        have all : i.val + 1 = 5 := by omega
        rw [all] at extended
        exact ⟨⟨h.1.1, List.mem_cons_self⟩, firstCopy_whole extended⟩
  | copy2 i =>
      rw [place] at h
      simp only [Follows, step, place, Task.next, fsStep, reduceCtorEq, if_false,
        Device.cells_write]
      exact followsAt_whole h.1.1 (List.mem_cons_of_mem _ h.1.2)
        ((firstCopy_piece2 _ _ i).trans h.2) _

private theorem follows_step [Single F] (st : State F) (e : Event F) (h : Follows st)
    (steady : Steady st e) : Follows (step st e) := by
  cases e with
  | save =>
      simp only [step]
      split
      · trivial
      · exact h
  | fs => exact follows_fs h steady
  | scan id env ereg => exact follows_scan h id env ereg
  | tick now => exact h

/-- From the moment a save begins, in every interleaving in which the task writes no piece of copy
1 from a changed record, an intact copy is there whenever no write is in progress. -/
theorem steady_save_held [Single F] (st : State F) (idle : st.task = .idle) (es : List (Event F))
    (steady : Along step Steady (step st .save) es) : Held (run step (step st .save) es) := by
  have start : Follows (step st .save) := by
    simp only [step, if_pos idle]
    trivial
  exact held_of_follows (invariant_run follows_step start steady)

private theorem copy1_run [Single F] {st : State F} (place : st.task = .copy1 0) :
    let t := run step st (List.replicate 5 .fs)
    t.sys = { st.sys with fram := st.sys.fram.write (framWrite egyNvrOs1 (image st.sys.egyNvr)) } ∧
      t.task = .copy2 0 := by
  simp only [List.replicate, run_cons, run_nil, step, place, fsStep, Task.next, framWrite_pieces]
  exact ⟨by simp [Device.write, List.finRange_succ], rfl⟩

private theorem copy2_run [Single F] {st : State F} (place : st.task = .copy2 0) :
    let t := run step st (List.replicate 5 .fs)
    t.sys = { st.sys with fram := st.sys.fram.write (framWrite egyNvrOs2 (image st.sys.egyNvr)) } ∧
      t.task = .idle := by
  simp only [List.replicate, run_cons, run_nil, step, place, fsStep, Task.next, framWrite_pieces]
  exact ⟨by simp [Device.write, List.finRange_succ], rfl⟩

theorem copies_run [Single F] {st : State F} (place : st.task = .copy1 0) :
    let t := run step st (List.replicate 10 .fs)
    t.sys = { st.sys with fram := st.sys.fram.write (storeEnergyNVR st.sys.egyNvr) } ∧
      t.task = .idle := by
  obtain ⟨half, there⟩ := copy1_run place
  obtain ⟨whole, done⟩ := copy2_run there
  rw [show List.replicate 10 (Event.fs (F := F)) = List.replicate 5 .fs ++ List.replicate 5 .fs
    from rfl, run_append]
  refine ⟨?_, done⟩
  rw [whole, half, storeEnergyNVR]
  simp only [Device.write, List.append_assoc]

private theorem stamp_run [Single F] (st : State F) (idle : st.task = .idle) :
    let t := run step st [.save, .fs, .fs]
    t.sys = { st.sys with egyNvr := stamp st.sys.sysTick1s st.sys.egyNvr } ∧
      t.task = .copy1 0 := by
  simp only [run_cons, run_nil, step, idle, if_true, fsStep, Task.next, stamp, and_self]

/-- Step by step, an undisturbed save is `storeEnergy`. -/
theorem undisturbed_save [Single F] {st : State F} (idle : st.task = .idle) :
    let t := run step st (.save :: List.replicate 12 .fs)
    t.sys = storeEnergy st.sys ∧ t.task = .idle := by
  obtain ⟨stamped, place⟩ := stamp_run _ idle
  obtain ⟨written, done⟩ := copies_run place
  rw [show (.save :: List.replicate 12 .fs : List (Event F)) =
    [.save, .fs, .fs] ++ List.replicate 10 .fs from rfl, run_append]
  refine ⟨?_, done⟩
  rw [written, stamped, storeEnergy]

def now : UInt32 := 1700000000

/-- A meter just saved, with an edit of channel 0's total imported energy waiting for a scan. -/
def edited : State Rat where
  sys :=
    { sysTick1s := now
      egyNvr := stamp now zeroRecord
      meter := fun _ =>
        { Meter.zero with
          ereg32 := fun
            | .total => fun c => if c = importTotal then 50 else 0
            | _ => fun _ => 0
          rstEgy := editCommand
          energyInit := true }
      fram := ⟨fun _ => 0, storeEnergyNVR (stamp now zeroRecord)⟩
      egyDirty := false
      egyLastSave := now }
  task := .idle
  crcd := stamp now zeroRecord
  history := []

private theorem steady_alone [Single F] {st : State F}
    (live : ∀ i, st.task = .copy1 i → st.sys.egyNvr = st.crcd) (n : Nat) :
    Along step Steady st (List.replicate n .fs) := by
  induction n generalizing st with
  | zero => trivial
  | succ n ih =>
      refine ⟨live, ih fun i there => ?_⟩
      cases place : st.task with
      | idle | setTs =>
          simp only [step, place, Task.next] at there
          cases there
      | copy2 =>
          simp only [step, place, Task.next] at there
          split at there <;> cases there
      | setCrc => simp only [step, place, if_true]
      | copy1 j =>
          simp only [step, place, fsStep, reduceCtorEq, if_false]
          exact live j place

/-- The scan that applies the edit falls between the timestamp and the CRC. -/
theorem edited_save_held :
    let st := run step (step edited .save) (.fs :: .scan 0 quiet noEnergy :: List.replicate 11 .fs)
    st.task = .idle ∧ Held st := by
  have idle : edited.task = .idle := rfl
  have steady : Along step Steady (step edited .save)
      (.fs :: .scan 0 quiet noEnergy :: List.replicate 11 .fs) := by
    refine ⟨fun i place => ?_, trivial, steady_alone (fun i place => ?_) 11⟩
    all_goals
      simp only [step, idle, if_true, Task.next] at place
      cases place
  refine ⟨?_, steady_save_held edited idle _ steady⟩
  have place : (run step (step edited .save) [.fs, .scan 0 quiet noEnergy, .fs]).task =
      .copy1 0 := by
    simp only [run_cons, run_nil, step, idle, if_true, Task.next]
  have apart : (.fs :: .scan 0 quiet noEnergy :: List.replicate 11 .fs : List (Event Rat)) =
      [.fs, .scan 0 quiet noEnergy, .fs] ++ List.replicate 10 .fs := rfl
  rw [apart, run_append]
  exact (copies_run place).2

/-- The record that is written: edited counters under the CRC of the old ones. -/
def mixed : EnergyNvram :=
  { stamp now zeroRecord with
    ereg64 := fun id c => if id = 0 ∧ c = importTotal then 5000 else 0 }

private theorem mixed_bad : ¬ CrcOk mixed := by
  intro bad
  have zero : CrcOk (stamp now zeroRecord) := stamp_crcOk now zeroRecord
  -- the counters differ at the front, and the CRC is the same behind the same bytes
  have front : gencrcModbus ((bodyCodec.encode mixed.toBody).take 64) ≠
      gencrcModbus ((bodyCodec.encode (stamp now zeroRecord).toBody).take 64) := by
    decide +kernel
  have behind : (bodyCodec.encode mixed.toBody).drop 64 =
      (bodyCodec.encode (stamp now zeroRecord).toBody).drop 64 := by
    decide +kernel
  have crc : mixed.crc = (stamp now zeroRecord).crc := by simp only [mixed]
  rw [CrcOk, image_eq] at bad zero
  rw [crc] at bad
  generalize [lowByte (stamp now zeroRecord).crc, highByte (stamp now zeroRecord).crc] = tail
    at bad zero
  generalize bodyCodec.encode mixed.toBody = wrong at front behind bad
  generalize bodyCodec.encode (stamp now zeroRecord).toBody = right at front behind zero
  have first : wrong ++ tail = wrong.take 64 ++ (right.drop 64 ++ tail) := by
    rw [← behind, ← List.append_assoc, List.take_append_drop]
  have second : right ++ tail = right.take 64 ++ (right.drop 64 ++ tail) := by
    rw [← List.append_assoc, List.take_append_drop]
  rw [first] at bad
  rw [second] at zero
  exact gencrc_append_ne front _ (bad.trans zero.symm)

private theorem stamp_stamp (t : UInt32) (r : EnergyNvram) : stamp t (stamp t r) = stamp t r := by
  simp only [stamp, recordCrc_eq]

private theorem edited_stamped : (run step edited [.save, .fs, .fs]).sys = edited.sys ∧
    (run step edited [.save, .fs, .fs]).task = .copy1 0 := by
  obtain ⟨stamped, place⟩ := stamp_run edited rfl
  have record : edited.sys.egyNvr = stamp now zeroRecord := rfl
  have clock : edited.sys.sysTick1s = now := rfl
  refine ⟨?_, place⟩
  rw [stamped, clock, record, stamp_stamp, ← record]

private theorem edited_scanSteps : scanSteps edited.sys 0 quiet noEnergy =
    (0, applyEregEdit (edited.sys.setMeter 0 fun m => { m with rstEgy := 0 }) 0) := by
  have sameMonth : ¬ MonthChanged edited.sys := fun changed => changed rfl
  have noClear : (edited.sys.meter 0).rstEgy ≠ clearCommand := by decide
  have edit : (edited.sys.meter 0).rstEgy = editCommand := rfl
  rw [scanSteps, updateEhAll_zero 0 no_deltas, checkMonth, if_neg sameMonth, clearEnergy,
    if_neg noClear, editEnergy, if_pos edit]

private theorem edited_scanned :
    (energyScan edited.sys 0 quiet noEnergy).egyNvr = mixed := by
  have started : (edited.sys.meter 0).energyInit = true := rfl
  have clean : ¬ Saves (scanSteps edited.sys 0 quiet noEnergy) := by
    rw [edited_scanSteps]
    exact fun saves => absurd saves.1 (by decide)
  rw [energyScan, if_pos started, (scanBody_unsaved clean).2, edited_scanSteps]
  have record : edited.sys.egyNvr = stamp now zeroRecord := rfl
  have zeros : (fun _ _ => 0 : Channel → Regs UInt32) =
      Function.update (fun _ _ => 0) 0 fun _ => 0 := (Function.update_eq_self 0 _).symm
  dsimp only [applyEregEdit, setMeter_egyNvr, mixed]
  rw [record]
  simp only [EnergyNvram.mk.injEq, Body.mk.injEq, stamp_monthWh, stamp_ereg32Last, and_true,
    true_and]
  refine ⟨?_, zeros.symm, zeros.symm⟩
  funext id c
  by_cases channel : id = 0
  · rw [channel, Function.update_self, setMeter_meter, if_pos rfl]
    by_cases cell : c = importTotal
    · rw [if_pos ⟨rfl, cell⟩, cell]
      decide
    · have blank : (edited.sys.meter 0).ereg32 .total c = 0 := if_neg cell
      rw [if_neg fun both => cell both.2, blank]
      rfl
  · rw [Function.update_of_ne channel, if_neg fun both => channel both.1]
    rfl

private theorem mixed_not_held {st : State Rat} (record : st.sys.egyNvr = mixed)
    (place : st.task = .copy1 0) : ¬ Held (run step st (List.replicate 10 .fs)) := by
  obtain ⟨written, done⟩ := copies_run place
  intro held
  obtain ⟨r, -, crc, copy⟩ := held (.inr done)
  rw [written, Device.cells_write, firstCopy_store, secondCopy_store, or_self, record] at copy
  have same : mixed = r := image_injective copy
  rw [← same] at crc
  exact mixed_bad crc

/-- The scan that applies the edit falls between the CRC and the transfers, and both copies end up
with counters their CRC does not cover. -/
theorem disturbed_save_lost : ¬ Held (run step edited
    ([.save, .fs, .fs, .scan 0 quiet noEnergy] ++ List.replicate 10 .fs)) := by
  obtain ⟨record, place⟩ := edited_stamped
  have apart : ([.save, .fs, .fs, .scan 0 quiet noEnergy] ++ List.replicate 10 .fs :
      List (Event Rat)) =
    [.save, .fs, .fs] ++ (.scan 0 quiet noEnergy :: List.replicate 10 .fs) := rfl
  rw [apart, run_append, run_cons]
  have stays : ∀ st : State Rat, (step st (.scan 0 quiet noEnergy)).task = st.task := fun _ => rfl
  refine mixed_not_held ?_ ((stays _).trans place)
  simp only [step, record, edited_scanned]

end SV300.Energy.SaveRace
