/- SV300/Energy/PowerLoss
   digest: Saves and boots cut at any byte: what the loader finds, and the boot that loses it. -/

import SV300.Library.Runs
import SV300.Library.TwinCopy
import SV300.Energy.Registers

set_option autoImplicit false
set_option relaxedAutoImplicit false

namespace SV300.Energy.PowerLoss

open SV300.Library.ByteStore
open SV300.Library.Runs
open SV300.Library.TwinCopy (Twin Ledger Sound CutSave sound_saved)
open SV300.Crc (crcTable gencrcModbus gencrc_append_ne)
open SV300.Library.TableCrc (crc crc_append lowByte highByte)
open SV300.Clock (uLocalTime)
open SV300.Energy.Record
open SV300.Energy.Fram
open SV300.Energy.Registers

variable {F : Type}

/-- A save of some record, or a boot; each may lose power after a number of FRAM bytes. -/
inductive Event
  | save (r : EnergyNvram) (now : UInt32) (cut : Option Nat)
  | boot (now : UInt32) (cut : Option Nat)

structure State (F : Type) where
  sys : Sys F
  powered : Bool
  ledger : Ledger EnergyNvram

/-- The two places of the FRAM a record is stored at. -/
def copies (f : Device) : Twin (List UInt8) := ⟨firstCopy f.cells, secondCopy f.cells⟩

/-- End an operation that ran from `st` to `s`, with the power cut in its writes or not. -/
def settle (st : State F) (s : Sys F) (cut : Option Nat) : State F where
  sys := { s with fram := s.fram.supply cut }
  powered := cut.isNone
  ledger := st.ledger.record image (copies st.sys.fram) (copies (s.fram.supply cut)) s.egyNvr

/-- The system an event runs to while the power lasts; without power only a boot does anything. -/
def target [Single F] (st : State F) : Event → Sys F
  | .save r now _ => storeEnergy { st.sys with
      egyNvr := r, sysTick1s := now, fram := st.sys.fram.supply none }
  | .boot now _ => boot now (st.sys.fram.supply none)

def step [Single F] (st : State F) (e : Event) : State F :=
  match e with
  | .save _ _ cut => if st.powered then settle st (target st e) cut else st
  | .boot _ cut => settle st (target st e) cut

/-- The assumption on the CRC: a copy that passes it is not torn. -/
def RejectsTorn [Single F] (st : State F) (e : Event) : Prop :=
  let before := copies st.sys.fram
  let after := copies (step st e).sys.fram
  let new := image (target st e).egyNvr
  (gencrcModbus after.first = 0 → after.first = before.first ∨ after.first = new) ∧
    (gencrcModbus after.second = 0 → after.second = before.second ∨ after.second = new)

/-- The cut falls inside the first copy. -/
def InFirstCopy (cut : Option Nat) : Prop := ∃ k, cut = some k ∧ 0 < k ∧ k < recordSize

/-- The condition on a step: the record being saved is one the loader takes, and the first copy is
torn only while the second passes its CRC. -/
def Spares (st : State F) : Event → Prop
  | .save r _ cut => Loadable r ∧ (InFirstCopy cut → gencrcModbus (secondCopy st.sys.fram.cells) = 0)
  | .boot _ cut => InFirstCopy cut → gencrcModbus (secondCopy st.sys.fram.cells) = 0

/-- The copies are sound for the ledger, whose records the loader takes. -/
structure Inv (st : State F) : Prop where
  sound : Sound accept st.ledger (copies st.sys.fram)
  last : Loadable st.ledger.last
  cut : ∀ r, st.ledger.cut = some r → Loadable r

private theorem accept_eq_none {bs : List UInt8} (bad : gencrcModbus bs ≠ 0) : accept bs = none :=
  if_neg bad

private theorem accept_ne_none {bs : List UInt8} : accept bs ≠ none ↔ gencrcModbus bs = 0 := by
  unfold accept
  split <;> simp_all

private theorem record_loadable {l : Ledger EnergyNvram} (before after : Twin (List UInt8))
    {r : EnergyNvram} (last : Loadable l.last) (cut : ∀ x, l.cut = some x → Loadable x)
    (ok : Loadable r) :
    Loadable (l.record image before after r).last ∧
      ∀ x, (l.record image before after r).cut = some x → Loadable x := by
  unfold Ledger.record
  split
  · exact ⟨ok, fun x h => by cases h⟩
  split
  · exact ⟨last, cut⟩
  · exact ⟨last, fun x h => Option.some.inj h ▸ ok⟩

private theorem copies_cut (s : Store) (r : EnergyNvram) (k : Nat) :
    copies ((Device.mk s (storeEnergyNVR r)).supply (some k)) =
      ⟨(image r).take k ++ (firstCopy s).drop k,
        (image r).take (k - recordSize) ++ (secondCopy s).drop (k - recordSize)⟩ := by
  rw [copies, Device.cells_supply_some, firstCopy_cut, secondCopy_cut]

private theorem copies_cut_beyond (s : Store) (r : EnergyNvram) {k : Nat}
    (beyond : recordSize ≤ k) :
    copies ((Device.mk s (storeEnergyNVR r)).supply (some k)) =
      ⟨image r, (image r).take (k - recordSize) ++ (secondCopy s).drop (k - recordSize)⟩ := by
  rw [copies, Device.cells_supply_some, firstCopy_cut_beyond r s beyond, secondCopy_cut]

private theorem copies_cut_inside (s : Store) (r : EnergyNvram) {k : Nat}
    (inside : k ≤ recordSize) :
    copies ((Device.mk s (storeEnergyNVR r)).supply (some k)) =
      ⟨(image r).take k ++ (firstCopy s).drop k, secondCopy s⟩ := by
  rw [copies, Device.cells_supply_some, firstCopy_cut, secondCopy_cut_inside r s inside]

private theorem copies_done (s : Store) (r : EnergyNvram) :
    copies ((Device.mk s (storeEnergyNVR r)).supply none) = ⟨image r, image r⟩ := by
  rw [copies, Device.cells_supply_none, Device.cells_mk, firstCopy_store, secondCopy_store]

private theorem settle_fram (st : State F) (s : Sys F) (cut : Option Nat) :
    (settle st s cut).sys.fram = s.fram.supply cut := rfl

private theorem step_save_fram [Single F] (st : State F) (r : EnergyNvram) (now : UInt32)
    (cut : Option Nat) (powered : st.powered = true) :
    (step st (.save r now cut)).sys.fram =
      (Device.mk st.sys.fram.cells (storeEnergyNVR (stamp now r))).supply cut := by
  rw [step, if_pos powered, settle_fram, target, storeEnergy_fram, Device.write_supply,
    storeEnergy_egyNvr]

private theorem step_boot_fram [Single F] (st : State F) (now : UInt32) (cut : Option Nat)
    {r : EnergyNvram} (found : loadEnergyNVR st.sys.fram.cells = some r) :
    (step st (.boot now cut)).sys.fram = (Device.mk st.sys.fram.cells
      (storeEnergyNVR (target st (.boot now cut)).egyNvr)).supply cut :=
  have supplied : loadEnergyNVR (st.sys.fram.supply none).cells = some r := found
  congrArg (Device.supply · cut) ((boot_fram supplied).trans (Device.write_supply _ _))

private theorem inv_settle {st : State F} (inv : Inv st) {s : Sys F} {cut : Option Nat}
    (written : s.fram = ⟨st.sys.fram.cells, storeEnergyNVR s.egyNvr⟩)
    (crc : CrcOk s.egyNvr) (ok : Loadable s.egyNvr)
    (rejects : let after := copies (s.fram.supply cut)
      (gencrcModbus after.first = 0 →
        after.first = (copies st.sys.fram).first ∨ after.first = image s.egyNvr) ∧
      (gencrcModbus after.second = 0 →
        after.second = (copies st.sys.fram).second ∨ after.second = image s.egyNvr))
    (spare : InFirstCopy cut → gencrcModbus (secondCopy st.sys.fram.cells) = 0) :
    Inv (settle st s cut) := by
  obtain ⟨lastOk, cutOk⟩ := record_loadable (copies st.sys.fram) (copies (s.fram.supply cut))
    inv.last inv.cut ok
  refine ⟨?_, lastOk, cutOk⟩
  have torn : ∀ {bs old new : List UInt8}, (gencrcModbus bs = 0 → bs = old ∨ bs = new) →
      accept bs = none ∨ bs = old ∨ bs = new := by
    intro bs old new h
    by_cases zero : gencrcModbus bs = 0
    · exact .inr (h zero)
    · exact .inl (accept_eq_none zero)
  -- where the cut fell decides which copy is whole
  have place : (copies (s.fram.supply cut)).first = image s.egyNvr ∨
      copies (s.fram.supply cut) = copies st.sys.fram ∨
      (copies (s.fram.supply cut)).second = (copies st.sys.fram).second ∧ InFirstCopy cut := by
    cases cut with
    | none => exact .inl (by rw [written, copies_done])
    | some k =>
        rw [written]
        rcases Nat.eq_zero_or_pos k with rfl | pos
        · exact .inr (.inl (by rw [copies_cut]; simp [copies]))
        rcases Nat.lt_or_ge k recordSize with inside | beyond
        · exact .inr (.inr ⟨by rw [copies_cut_inside _ _ inside.le, copies], k, rfl, pos, inside⟩)
        · exact .inl (by rw [copies_cut_beyond _ _ beyond])
  refine inv.sound.save (accept_image crc) ⟨torn rejects.1, torn rejects.2, ?_⟩ ?_
  · rcases place with whole | same | ⟨kept, -⟩
    · exact .inl whole
    · exact .inr (congrArg Twin.second same)
    · exact .inr kept
  · rcases place with whole | same | ⟨-, inside⟩
    · exact .inl whole
    · exact .inr (.inl same)
    · exact .inr (.inr (accept_ne_none.mpr (spare inside)))

/-- A boot from here finds the last record completely saved or the one being saved at the cut, and
keeps its counters. -/
def Recovers [Single F] (st : State F) : Prop :=
  ∃ r, loadEnergyNVR st.sys.fram.cells = some r ∧
    (r = st.ledger.last ∨ st.ledger.cut = some r) ∧
    ∀ now, (boot (F := F) now st.sys.fram).egyNvr.ereg64 = r.ereg64

private theorem Inv.load {st : State F} (inv : Inv st) :
    ∃ r, loadEnergyNVR st.sys.fram.cells = some r ∧
      (r = st.ledger.last ∨ st.ledger.cut = some r) := by
  obtain ⟨r, found, named⟩ := inv.sound.load
  refine ⟨r, loadEnergyNVR_eq found ?_, named⟩
  rcases named with rfl | cut
  · exact inv.last
  · exact inv.cut r cut

private theorem inv_step [Single F] (st : State F) (e : Event) (inv : Inv st)
    (guard : RejectsTorn st e ∧ Spares st e) : Inv (step st e) := by
  obtain ⟨rejects, spares⟩ := guard
  cases e with
  | save r now cut =>
      unfold RejectsTorn at rejects
      simp only [step] at rejects ⊢
      split
      · rename_i powered
        rw [if_pos powered] at rejects
        exact inv_settle inv ((storeEnergy_fram _).trans (Device.write_supply _ _))
          (stamp_crcOk _ _) (loadable_stamp spares.1) rejects spares.2
      · exact inv
  | boot now cut =>
      obtain ⟨r, found, -⟩ := inv.load
      have found' : loadEnergyNVR (st.sys.fram.supply none).cells = some r := found
      have ok : Loadable (target st (.boot now cut)).egyNvr := by
        have magic : (boot (F := F) now (st.sys.fram.supply none)).egyNvr.magic = r.magic :=
          boot_magic found'
        have cells : (boot (F := F) now (st.sys.fram.supply none)).egyNvr.ereg64 = r.ereg64 :=
          boot_ereg64 found'
        have loadable := loadable_of_loadEnergyNVR found
        exact ⟨magic.trans loadable.1, fun id c mem => by
          rw [show (target st (.boot now cut)).egyNvr.ereg64 = r.ereg64 from cells]
          exact loadable.2 id c mem⟩
      exact inv_settle inv ((boot_fram found').trans (Device.write_supply _ _))
        (boot_crcOk found') ok rejects spares

/-- After a completed save, every run whose steps spare the only intact copy can be rebooted: the
loader finds the last record completely saved or the one being saved at the cut. -/
theorem reboot_loads_saved_record [Single F] (st₀ : State F) (powered : st₀.powered = true)
    (r : EnergyNvram) (now : UInt32) (ok : Loadable r) (es : List Event)
    (guarded : Along step (fun st e => RejectsTorn st e ∧ Spares st e)
      (step st₀ (.save r now none)) es) :
    Recovers (run step (step st₀ (.save r now none)) es) := by
  have start : Inv (step st₀ (.save r now none)) := by
    have both : copies (step st₀ (.save r now none)).sys.fram =
        ⟨image (stamp now r), image (stamp now r)⟩ := by
      simp only [step, powered, if_true]
      exact copies_done _ _
    have ledger : (step st₀ (.save r now none)).ledger = ⟨stamp now r, none⟩ := by
      simp only [step, powered, if_true] at both ⊢
      exact if_pos both
    refine ⟨?_, ?_, ?_⟩
    · rw [both, ledger]
      exact sound_saved (accept_image (stamp_crcOk now r))
    · rw [ledger]
      exact loadable_stamp ok
    · rw [ledger]
      intro x h
      cases h
  obtain ⟨x, found, named⟩ := (invariant_run inv_step start guarded).load
  exact ⟨x, found, named, fun now' => boot_ereg64 found⟩

def recordOf (wh : UInt64) : EnergyNvram :=
  { zeroRecord with ereg64 := fun id c =>
      if id = 0 ∧ c = ⟨.total, .kwh, .imported⟩ then wh else 0 }

def start : State Rat where
  sys := powerOn 1700000000 ⟨fun _ => 0, []⟩
  powered := true
  ledger := ⟨zeroRecord, none⟩

def recA : EnergyNvram := stamp 1700000000 (recordOf 1000)
def recB : EnergyNvram := stamp 1700000300 (recordOf 2000)
def recC : EnergyNvram := stamp 1700000360 recB

/-- A save cut in copy 2, then a boot whose own save is cut in copy 1. -/
def cutSave : Event := .save (recordOf 2000) 1700000300 (some (recordSize + 12))
def cutBoot : Event := .boot 1700000360 (some 8)

def afterSave : State Rat := step start (.save (recordOf 1000) 1700000000 none)
def afterCut : State Rat := step afterSave cutSave
def afterBoot : State Rat := step afterCut cutBoot

private theorem loadable_recordOf {wh : UInt64} (small : wh ≤ maxEreg64) :
    Loadable (recordOf wh) := by
  refine ⟨rfl, fun id c _ => ?_⟩
  dsimp only [recordOf]
  split
  · exact small
  · exact UInt64.zero_le

private theorem loadable_recordOf_2000 : Loadable (recordOf 2000) :=
  loadable_recordOf (by decide)

private theorem copies_afterSave : copies afterSave.sys.fram = ⟨image recA, image recA⟩ := by
  rw [afterSave, step_save_fram _ _ _ _ rfl, copies_done, recA]

private theorem copies_afterCut : copies afterCut.sys.fram =
    ⟨image recB, (image recB).take 12 ++ (image recA).drop 12⟩ := by
  have old : secondCopy afterSave.sys.fram.cells = image recA :=
    congrArg Twin.second copies_afterSave
  rw [afterCut, cutSave, step_save_fram _ _ _ _ rfl, copies_cut_beyond _ _ (Nat.le_add_right _ _),
    Nat.add_sub_cancel_left, old, recB]

private theorem loads_recB : loadEnergyNVR afterCut.sys.fram.cells = some recB :=
  loadEnergyNVR_first (congrArg Twin.first copies_afterCut) (stamp_crcOk _ _)
    (loadable_stamp loadable_recordOf_2000)

private theorem target_cutBoot : (target afterCut cutBoot).egyNvr = recC := by
  have found : loadEnergyNVR (afterCut.sys.fram.supply none).cells = some recB := by
    rw [Device.cells_supply_none, loads_recB]
  have sameMonth : (uLocalTime recB.ts).tmMon = (uLocalTime 1700000360).tmMon := by
    rw [recB, stamp_ts]
    decide +kernel
  rw [cutBoot, target, boot_sameMonth found sameMonth, recC]

private theorem fram_afterBoot :
    afterBoot.sys.fram = (Device.mk afterCut.sys.fram.cells (storeEnergyNVR recC)).supply (some 8) := by
  rw [afterBoot, cutBoot, step_boot_fram afterCut _ _ loads_recB, ← cutBoot, target_cutBoot]

private theorem copies_afterBoot : copies afterBoot.sys.fram =
    ⟨(image recC).take 8 ++ (image recB).drop 8, (image recB).take 12 ++ (image recA).drop 12⟩ := by
  have first : firstCopy afterCut.sys.fram.cells = image recB :=
    congrArg Twin.first copies_afterCut
  have second : secondCopy afterCut.sys.fram.cells = (image recB).take 12 ++ (image recA).drop 12 :=
    congrArg Twin.second copies_afterCut
  rw [fram_afterBoot, copies_cut_inside _ _ (by decide), first, second]

private theorem read_zeros (off n : Nat) : read (fun _ => 0) off n = List.replicate n 0 := by
  induction n generalizing off with
  | zero => rfl
  | succ n ih => exact congrArg (0 :: ·) (ih (off + 1))

private theorem blank_afterBoot :
    read afterBoot.sys.fram.cells recordSize egyNvrOsLegacy = List.replicate 512 0 := by
  have gap : recordSize + egyNvrOsLegacy ≤ egyNvrOs2 := by decide
  rw [fram_afterBoot, Device.cells_supply_some, read_between_cut _ _ _ _ _ le_rfl gap,
    afterCut, cutSave, step_save_fram _ _ _ _ rfl, Device.cells_supply_some,
    read_between_cut _ _ _ _ _ le_rfl gap,
    afterSave, step_save_fram _ _ _ _ rfl, Device.cells_supply_none, Device.cells_mk,
    ← all_written, read_between_cut _ _ _ _ _ le_rfl gap]
  have blank : start.sys.fram.cells = fun _ => 0 := rfl
  rw [blank, read_zeros, egyNvrOsLegacy]

private theorem torn_rejected {old new : EnergyNvram} (ok : CrcOk old) {k : Nat}
    (apart : gencrcModbus ((image new).take k) ≠ gencrcModbus ((image old).take k)) :
    gencrcModbus ((image new).take k ++ (image old).drop k) ≠ 0 := by
  have whole : gencrcModbus ((image old).take k ++ (image old).drop k) = 0 := by
    rw [List.take_append_drop]
    exact ok
  exact whole ▸ gencrc_append_ne apart _

private theorem parts_apart :
    gencrcModbus ((image recC).take 8) ≠ gencrcModbus ((image recB).take 8) ∧
      gencrcModbus ((image recB).take 12) ≠ gencrcModbus ((image recA).take 12) ∧
      gencrcModbus [] ≠ gencrcModbus ((bodyCodec.encode recB.toBody).take 512) := by
  decide +kernel

private theorem first_torn : gencrcModbus ((image recC).take 8 ++ (image recB).drop 8) ≠ 0 :=
  torn_rejected (stamp_crcOk _ _) parts_apart.1

private theorem second_torn : gencrcModbus ((image recB).take 12 ++ (image recA).drop 12) ≠ 0 :=
  torn_rejected (stamp_crcOk _ _) parts_apart.2.1

private theorem crc_zeros (n : Nat) : crc crcTable 0 (List.replicate n 0) = 0 := by
  induction n with
  | zero => rfl
  | succ n ih => exact ih

private theorem legacy_torn : gencrcModbus
    (((image recC).take 8 ++ (image recB).drop 8).drop 512 ++ List.replicate 512 0) ≠ 0 := by
  have length (r : EnergyNvram) : (bodyCodec.encode r.toBody).length = 1166 :=
    bodyCodec.length_encode r.toBody
  have sealed := image_eq recB
  generalize [lowByte recB.crc, highByte recB.crc] = tail at sealed
  have cut : ((image recC).take 8 ++ (image recB).drop 8).drop 512 =
      (bodyCodec.encode recB.toBody).drop 512 ++ tail := by
    have front : ((image recC).take 8).length = 8 := by rw [List.length_take, length_image]; rfl
    rw [List.drop_append, List.drop_of_length_le (by rw [front]; decide), front, List.nil_append,
      List.drop_drop, sealed, List.drop_append_of_le_length (by rw [length]; decide)]
  -- the register starts anew behind the bytes that are cut off, so no later byte brings it back
  have apart := gencrc_append_ne parts_apart.2.2
    ((bodyCodec.encode recB.toBody).drop 512 ++ (tail ++ List.replicate 512 0))
  have whole : gencrcModbus (image recB ++ List.replicate 512 0) = 0 := by
    have zero : gencrcModbus (image recB) = 0 := stamp_crcOk _ _
    rw [gencrcModbus, crc_append, ← gencrcModbus, zero, crc_zeros]
  rw [sealed, List.append_assoc, ← List.take_append_drop 512 (bodyCodec.encode recB.toBody),
    List.append_assoc] at whole
  rw [List.nil_append, whole] at apart
  rw [cut, List.append_assoc]
  exact apart

private theorem cutSave_rejected : RejectsTorn afterSave cutSave := by
  have after : copies (step afterSave cutSave).sys.fram = _ := copies_afterCut
  simp only [RejectsTorn, after]
  exact ⟨fun _ => .inr rfl, fun zero => absurd zero second_torn⟩

private theorem cutBoot_rejected : RejectsTorn afterCut cutBoot := by
  have after : copies (step afterCut cutBoot).sys.fram = _ := copies_afterBoot
  simp only [RejectsTorn, after, copies_afterCut]
  exact ⟨fun zero => absurd zero first_torn, fun _ => .inl trivial⟩

private theorem loadable_recordOf_1000 : Loadable (recordOf 1000) :=
  loadable_recordOf (by decide)

/-- A cut in copy 2 alone is survived. -/
theorem cut_save_recovered : Recovers (run step afterSave [cutSave]) := by
  have behind : ¬ InFirstCopy (some (recordSize + 12)) := by
    rintro ⟨k, here, -, inside⟩
    obtain rfl := Option.some.inj here
    omega
  exact reboot_loads_saved_record start rfl (recordOf 1000) 1700000000 loadable_recordOf_1000
    [cutSave] ⟨⟨cutSave_rejected, loadable_recordOf_2000, fun h => absurd h behind⟩, trivial⟩

/-- Two cuts on consecutive power-ups, both allowed by the CRC assumption, leave no intact copy:
the next boot starts from zero counters. -/
theorem boot_loses_record :
    Along step RejectsTorn afterSave [cutSave, cutBoot] ∧
    ¬ Recovers (run step afterSave [cutSave, cutBoot]) ∧
    ∀ now, (boot (F := Rat) now (run step afterSave [cutSave, cutBoot]).sys.fram).egyNvr.ereg64 =
      fun _ _ => 0 := by
  have lost : loadEnergyNVR afterBoot.sys.fram.cells = none := by
    have first := congrArg Twin.first copies_afterBoot
    have second := congrArg Twin.second copies_afterBoot
    have legacy := legacyCopy_eq afterBoot.sys.fram.cells
    simp only [copies] at first second
    rw [first, blank_afterBoot] at legacy
    exact loadEnergyNVR_eq_none (by rw [first]; exact first_torn)
      (by rw [second]; exact second_torn) (by rw [legacy]; exact legacy_torn)
  refine ⟨⟨cutSave_rejected, cutBoot_rejected, trivial⟩, ?_, fun now => boot_rejected lost⟩
  rintro ⟨r, found, -⟩
  exact absurd (lost.symm.trans found) (by simp)

end SV300.Energy.PowerLoss
