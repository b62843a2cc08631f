/- SV300/Energy/Slots
   digest: The hourly and 15-minute slots against the growth of the displayed energy. -/

import Mathlib.Data.Fintype.Pi
import SV300.Library.Slots
import SV300.Energy.Month
import SV300.Energy.SlotLog

set_option autoImplicit false
set_option relaxedAutoImplicit false

namespace SV300.Energy.Slots

open SV300.Library.Runs
open SV300.Library.Slots
open SV300.Clock (tmHour)
open SV300.Energy.Record
open SV300.Energy.Fram
open SV300.Energy.Registers
open SV300.Energy.Scan
open SV300.Energy.Persist (Event writeEregWord boot_loadable scanBody_ereg64)
open SV300.Energy.Month (unitsOf scanUnits scanUnits_zero)
open SV300.Energy.SlotLog

variable {F : Type}

/-- `EGY_TOTAL` of the logged quantities: what a channel displays. -/
def egyTotal (s : Sys F) (id : Channel) : Reading := fun q => (s.meter id).ereg32 .total q.cell

def egyUnit : Nat := 100

/-- The energy registers and logs; and beside them, for each channel and quantity, what the display
owes to accumulation and the slots closed. -/
structure St (F : Type) where
  sys : Sys F
  logs : Channel → Logs
  display : Channel → Quantity → Display
  hours : Channel → Quantity → Ledger
  quarters : Channel → Quantity → Ledger

/-- A command in its effect on the display of a quantity. -/
def obey (s : Sys F) (id : Channel) (q : Quantity) (d : Display) : Display :=
  if (s.meter id).rstEgy = clearCommand then d.set egyUnit 0
  else if (s.meter id).rstEgy = editCommand then d.set egyUnit (egyTotal s id q).toNat
  else d

/-- A scan in its effect on the display of a channel's quantity: its units are counted, its command
is obeyed, and a save brings the display up to date. -/
def scanDisplay [Single F] (s : Sys F) (id : Channel) (env : ScanEnv F)
    (ereg : Fin 3 → MeterEhRegs) (j : Channel) (q : Quantity) (d : Display) : Display :=
  let d := if j = id then obey s id q (d.count (scanUnits id (energyDeltas env ereg) s q.cell))
    else d
  if Saves (scanSteps s id env ereg) then d.refresh egyUnit else d

def closeAll (l : Quantity → Ledger) (display : Quantity → Display) (written : Reading) :
    Quantity → Ledger :=
  fun q => (l q).close (display q).grown (written q).toNat

/-- One step; in a scan that has had its first sample the logs come first, then the registers. -/
def step [Single F] (st : St F) (e : Event F) : St F :=
  match e with
  | .scan id env ereg =>
    let s := st.sys
    if (s.meter id).energyInit then
      let now := s.sysTick1s
      let l := st.logs id
      let after := scanLogs now (egyTotal s id) l
      { sys := energyScan s id env ereg
        logs := Function.update st.logs id after
        display := fun j q => scanDisplay s id env ereg j q (st.display j q)
        hours := if HourDue now l then
            Function.update st.hours id
              (closeAll (st.hours id) (st.display id) (hourWritten now l after))
          else st.hours
        quarters := if QuarterDue now l then
            Function.update st.quarters id
              (closeAll (st.quarters id) (st.display id) (quarterWritten now l after))
          else st.quarters }
    else { st with sys := energyScan s id env ereg }
  | e => { st with sys := Persist.step st.sys e }

def opening (s : Sys F) (elog log15 : Channel → Fin 2 → DayLog) : St F where
  sys := s
  logs id := bootTurn s.sysTick1s (initLogs s.sysTick1s (egyTotal s id) (elog id) (log15 id))
  display id q := {
    counted := (s.egyNvr.ereg64 id q.cell).toNat
    shown := (egyTotal s id q).toNat
    grown := 0 }
  hours _ _ := .start 0
  quarters _ _ := .start 0

/-- A step that leaves the logged displays to accumulation: no reboot, no counter of a logged
quantity reaches its top, an energy clear finds their displays at zero, and a write leaves them as
they are. -/
def Steady [Single F] (st : St F) : Event F → Prop
  | .scan id env ereg => (st.sys.meter id).energyInit = true →
      (∀ q : Quantity, (st.sys.egyNvr.ereg64 id q.cell).toNat +
        scanUnits id (energyDeltas env ereg) st.sys q.cell < maxEreg64.toNat) ∧
      ((st.sys.meter id).rstEgy = clearCommand → ∀ q, egyTotal st.sys id q = 0)
  | .writeEreg id w v => egyTotal (writeEregWord st.sys id w v) id = egyTotal st.sys id
  | .reboot _ => False
  | _ => True

instance : Fintype Quantity where
  elems := {.kwh, .kvarhImport, .kvarhExport, .kvah}
  complete q := by cases q <;> decide

instance [Single F] (st : St F) : (e : Event F) → Decidable (Steady st e)
  | .scan _ _ _ => inferInstanceAs (Decidable (_ → (∀ _, _) ∧ (_ → ∀ _, _)))
  | .writeEreg _ _ _ => inferInstanceAs (Decidable (_ = _))
  | .reboot _ => inferInstanceAs (Decidable False)
  | .tick _ | .saveSettings | .command _ _ => inferInstanceAs (Decidable True)

private theorem ereg64_accumulate [Single F] (s : Sys F) (id : Channel) (c : Cell) (diff : F)
    (d : Cell)
    (under : (s.egyNvr.ereg64 id d).toNat +
      (if d = c then Single.trunc ((s.meter id).ereg d + diff) else 0) < maxEreg64.toNat) :
    ((accumulate s id c diff).2.egyNvr.ereg64 id d).toNat = (s.egyNvr.ereg64 id d).toNat +
      if d = c then Single.trunc ((s.meter id).ereg d + diff) else 0 := by
  have top : maxEreg64.toNat = 99999999999 := rfl
  by_cases same : d = c
  · subst same
    rw [if_pos rfl] at under ⊢
    dsimp only [accumulate]
    split
    · rename_i none
      rw [none, Nat.add_zero]
      rfl
    · dsimp only [setCounters, Sys.setMeter, setCell]
      rw [Function.update_self, Function.update_self]
      generalize Single.trunc ((s.meter id).ereg d + diff) = dt at under ⊢
      have sum := toNat_add_units (show (s.egyNvr.ereg64 id d).toNat + dt < 2 ^ 64 by omega)
      have low : ¬maxEreg64 ≤ s.egyNvr.ereg64 id d + UInt64.ofNat dt := by
        rw [UInt64.le_iff_toNat_le, sum]
        omega
      rw [addEreg64, if_neg low, sum]
  · rw [if_neg same, Nat.add_zero]
    dsimp only [accumulate]
    split
    · rfl
    · dsimp only [setCounters, Sys.setMeter, setCell]
      rw [Function.update_self, Function.update_of_ne same]

private theorem ereg64_updateEhGrp [Single F] (s : Sys F) (id : Channel) (mode : Mode)
    (group : Group) (diff : F) (c : Cell)
    (under : (s.egyNvr.ereg64 id c).toNat + unitsOf s id mode group diff c < maxEreg64.toNat) :
    ((updateEhGrp s id mode group diff).2.egyNvr.ereg64 id c).toNat =
      (s.egyNvr.ereg64 id c).toNat + unitsOf s id mode group diff c := by
  unfold unitsOf at under ⊢
  unfold updateEhGrp
  split
  · rename_i imported
    rw [if_pos imported] at under
    exact ereg64_accumulate s id _ diff c under
  · rename_i unimported
    rw [if_neg unimported] at under
    split
    · rename_i exported
      rw [if_pos exported] at under
      exact ereg64_accumulate s id _ (-diff) c under
    · rfl

private theorem ereg64_updateEhAll [Single F] (id : Channel) (deltas : List (Mode × Group × F))
    (s : Nat × Sys F) (c : Cell)
    (under : (s.2.egyNvr.ereg64 id c).toNat + scanUnits id deltas s.2 c < maxEreg64.toNat) :
    ((updateEhAll id deltas s).2.egyNvr.ereg64 id c).toNat =
      (s.2.egyNvr.ereg64 id c).toNat + scanUnits id deltas s.2 c := by
  induction deltas generalizing s with
  | nil => rfl
  | cons d deltas ih =>
    rw [scanUnits] at under ⊢
    have first := ereg64_updateEhGrp s.2 id d.1 d.2.1 d.2.2 c (by omega)
    have rest := ih (s.1 + (updateEhGrp s.2 id d.1 d.2.1 d.2.2).1,
      (updateEhGrp s.2 id d.1 d.2.1 d.2.2).2)
    dsimp only at rest
    rw [first] at rest
    have both := rest (by omega)
    rw [Nat.add_assoc] at both
    exact both

private theorem ereg64_updateEhAll_other [Single F] {id j : Channel} (other : j ≠ id)
    (deltas : List (Mode × Group × F)) (s : Nat × Sys F) :
    (updateEhAll id deltas s).2.egyNvr.ereg64 j = s.2.egyNvr.ereg64 j := by
  have one : ∀ (t : Sys F) (c : Cell) (diff : F),
      (accumulate t id c diff).2.egyNvr.ereg64 j = t.egyNvr.ereg64 j := by
    intro t c diff
    dsimp only [accumulate]
    split
    · rfl
    · exact Function.update_of_ne other ..
  exact updateEhAll_induct (P := fun s t => t.egyNvr.ereg64 j = s.egyNvr.ereg64 j) (fun _ => rfl)
    (fun h k => k.trans h) id one deltas s

/-- The account of a displayed quantity is the state's. -/
structure Follows (s : Sys F) (id : Channel) (q : Quantity) (d : Display) : Prop where
  counter : (s.egyNvr.ereg64 id q.cell).toNat = d.counted
  mirror : (egyTotal s id q).toNat = d.shown
  sound : d.Sound egyUnit
  range : d.counted ≤ maxEreg64.toNat

private theorem Follows.of_same {s t : Sys F} {j : Channel} {q : Quantity} {d : Display}
    (h : Follows s j q d) (counter : t.egyNvr.ereg64 = s.egyNvr.ereg64)
    (mirror : egyTotal t j = egyTotal s j) : Follows t j q d := by
  refine ⟨?_, ?_, h.sound, h.range⟩
  · rw [counter]
    exact h.counter
  · rw [mirror]
    exact h.mirror

private theorem egyTotal_setMeter {s : Sys F} {id : Channel} {f : Meter F → Meter F}
    (same : (f (s.meter id)).ereg32 = (s.meter id).ereg32) (j : Channel) :
    egyTotal (s.setMeter id f) j = egyTotal s j := by
  funext q
  rw [egyTotal, egyTotal, setMeter_meter]
  split
  · rename_i own
    rw [same, own]
  · rfl

private theorem orders_other [Single F] {id j : Channel} (other : j ≠ id) (t : Nat × Sys F) :
    (editEnergy id (clearEnergy id t)).2.egyNvr.ereg64 j = t.2.egyNvr.ereg64 j ∧
      ((editEnergy id (clearEnergy id t)).2.meter j).ereg32 = (t.2.meter j).ereg32 := by
  have cleared : (clearEnergy id t).2.egyNvr.ereg64 j = t.2.egyNvr.ereg64 j ∧
      ((clearEnergy id t).2.meter j).ereg32 = (t.2.meter j).ereg32 := by
    rw [clearEnergy]
    split
    · dsimp only
      rw [setMeter_meter, if_neg other]
      exact ⟨Function.update_of_ne other .., rfl⟩
    · exact ⟨rfl, rfl⟩
  rw [editEnergy]
  split
  · simp only [applyEregEdit, setMeter_meter, setMeter_egyNvr, other, if_false]
    exact ⟨(Function.update_of_ne other ..).trans cleared.1, cleared.2⟩
  · exact cleared

private theorem orders_own [Single F] (id : Channel) (t : Nat × Sys F) (c : Cell) :
    let u := (editEnergy id (clearEnergy id t)).2
    let shown := (t.2.meter id).ereg32 .total c
    u.egyNvr.ereg64 id c =
        (if (t.2.meter id).rstEgy = clearCommand then 0
        else if (t.2.meter id).rstEgy = editCommand then shown.toUInt64 * 100
        else t.2.egyNvr.ereg64 id c) ∧
      (u.meter id).ereg32 .total c =
        if (t.2.meter id).rstEgy = clearCommand then 0 else shown := by
  dsimp only
  rw [clearEnergy]
  by_cases clear : (t.2.meter id).rstEgy = clearCommand
  · rw [if_pos clear, if_pos clear, if_pos clear]
    have spent : ¬(0 : UInt16) = editCommand := by decide
    dsimp only
    rw [editEnergy]
    simp only [setMeter_meter, if_true, spent, if_false]
    exact ⟨by simp, trivial⟩
  · rw [if_neg clear, if_neg clear, if_neg clear, editEnergy]
    by_cases edit : (t.2.meter id).rstEgy = editCommand
    · rw [if_pos edit, if_pos edit]
      simp [applyEregEdit, setMeter_meter]
    · rw [if_neg edit, if_neg edit]
      exact ⟨rfl, rfl⟩

private theorem saved_view (s : Nat × Sys F) (j : Channel) :
    (saveThrottled s).egyNvr.ereg64 j = s.2.egyNvr.ereg64 j ∧
      ((saveThrottled s).meter j).ereg32 .total =
        if Saves s then fun c => (s.2.egyNvr.ereg64 j c / 100).toUInt32
        else (s.2.meter j).ereg32 .total := by
  rw [saveThrottled]
  split
  · rw [saveNow_egyNvr, stamp_ereg64, saveNow_meter]
    exact ⟨rfl, rfl⟩
  · exact ⟨rfl, rfl⟩

private theorem unit_pos : 0 < egyUnit := by decide

private theorem toNat_hundredfold (v : UInt32) : (v.toUInt64 * 100).toNat = v.toNat * egyUnit := by
  have small := v.toNat_lt
  have unit : egyUnit = 100 := rfl
  have hundred : (100 : UInt64).toNat = 100 := rfl
  rw [UInt64.toNat_mul, UInt32.toNat_toUInt64, hundred, unit]
  omega

private theorem shown_of_counter {counter : UInt64} (range : counter.toNat ≤ maxEreg64.toNat) :
    ((counter / 100).toUInt32).toNat = counter.toNat / egyUnit := by
  have top : maxEreg64.toNat = 99999999999 := rfl
  have unit : egyUnit = 100 := rfl
  have hundred : (100 : UInt64).toNat = 100 := rfl
  rw [UInt64.toNat_toUInt32, UInt64.toNat_div, hundred, unit]
  omega

private theorem follows_saved {s : Nat × Sys F} {j : Channel} {q : Quantity} {d : Display}
    (h : Follows s.2 j q d) :
    Follows (saveThrottled s) j q (if Saves s then d.refresh egyUnit else d) := by
  obtain ⟨counters, shown⟩ := saved_view s j
  have counter : (saveThrottled s).egyNvr.ereg64 j q.cell = s.2.egyNvr.ereg64 j q.cell := by
    rw [counters]
  have mirror := congrFun shown q.cell
  by_cases saves : Saves s
  · rw [if_pos saves] at mirror ⊢
    refine ⟨?_, ?_, .refresh d, h.range⟩
    · rw [counter]
      exact h.counter
    · have range : (s.2.egyNvr.ereg64 j q.cell).toNat ≤ maxEreg64.toNat := by
        rw [h.counter]
        exact h.range
      rw [egyTotal, mirror, shown_of_counter range, h.counter]
      rfl
  · rw [if_neg saves] at mirror ⊢
    refine ⟨?_, ?_, h.sound, h.range⟩
    · rw [counter]
      exact h.counter
    · rw [egyTotal, mirror]
      exact h.mirror

private theorem gathered_view [Single F] (s : Sys F) (id : Channel)
    (deltas : List (Mode × Group × F)) (j : Channel) :
    (checkMonth (updateEhAll id deltas (0, s))).2.egyNvr.ereg64 =
        (updateEhAll id deltas (0, s)).2.egyNvr.ereg64 ∧
      ((checkMonth (updateEhAll id deltas (0, s))).2.meter j).rstEgy = (s.meter j).rstEgy ∧
      ((checkMonth (updateEhAll id deltas (0, s))).2.meter j).ereg32 .total =
        (s.meter j).ereg32 .total := by
  have accrued := updateEhAll_accrued id deltas (0, s)
  obtain ⟨command, totals⟩ := Persist.checkMonth_view (updateEhAll id deltas (0, s)) j
  refine ⟨?_, ?_, ?_⟩
  · rw [checkMonth]
    split
    · rfl
    · rfl
  · rw [command, accrued.rstEgy]
  · rw [totals, accrued.ereg32]

private theorem follows_steps [Single F] {s : Sys F} {id : Channel} (env : ScanEnv F)
    (ereg : Fin 3 → MeterEhRegs) {j : Channel} {q : Quantity} {d : Display} (h : Follows s j q d)
    (under : (s.egyNvr.ereg64 id q.cell).toNat + scanUnits id (energyDeltas env ereg) s q.cell <
      maxEreg64.toNat) :
    Follows (scanSteps s id env ereg).2 j q
      (if j = id then obey s id q (d.count (scanUnits id (energyDeltas env ereg) s q.cell))
        else d) := by
  rw [scanSteps]
  obtain ⟨counters, command, totals⟩ := gathered_view s id (energyDeltas env ereg) j
  by_cases own : j = id
  · subst own
    rw [if_pos rfl]
    obtain ⟨counter, mirror⟩ :=
      orders_own j (checkMonth (updateEhAll j (energyDeltas env ereg) (0, s))) q.cell
    have units := ereg64_updateEhAll j (energyDeltas env ereg) (0, s) q.cell under
    generalize scanUnits j (energyDeltas env ereg) s q.cell = n at under units ⊢
    rw [command, totals, counters] at counter
    rw [command, totals] at mirror
    have shown : d.shown ≤ d.counted / egyUnit := h.sound
    rw [obey]
    by_cases clear : (s.meter j).rstEgy = clearCommand
    · rw [if_pos clear] at counter mirror ⊢
      refine ⟨?_, ?_, .set unit_pos _ 0, Nat.zero_le _⟩
      · rw [counter]
        rfl
      · rw [egyTotal, mirror]
        rfl
    rw [if_neg clear] at counter mirror ⊢
    by_cases edit : (s.meter j).rstEgy = editCommand
    · rw [if_pos edit] at counter ⊢
      have hundred : (((s.meter j).ereg32 .total q.cell).toUInt64 * 100).toNat =
          (egyTotal s j q).toNat * egyUnit := toNat_hundredfold _
      refine ⟨?_, ?_, .set unit_pos _ _, ?_⟩
      · rw [counter]
        exact hundred
      · rw [egyTotal, mirror]
        rfl
      · have range := h.range
        rw [h.mirror]
        exact (Nat.le_div_iff_mul_le unit_pos).mp (shown.trans (Nat.div_le_div_right range))
    · rw [if_neg edit] at counter ⊢
      refine ⟨?_, ?_, h.sound.count _, ?_⟩
      · rw [counter, units, h.counter]
        rfl
      · rw [egyTotal, mirror]
        exact h.mirror
      · rw [h.counter] at under
        exact under.le
  · rw [if_neg own]
    obtain ⟨counter, mirror⟩ :=
      orders_other own (checkMonth (updateEhAll id (energyDeltas env ereg) (0, s)))
    rw [counters, ereg64_updateEhAll_other own] at counter
    refine ⟨?_, ?_, h.sound, h.range⟩
    · rw [counter]
      exact h.counter
    · rw [egyTotal, mirror, totals]
      exact h.mirror

private theorem follows_scan [Single F] {s : Sys F} {id : Channel} {env : ScanEnv F}
    {ereg : Fin 3 → MeterEhRegs} {j : Channel} {q : Quantity} {d : Display} (h : Follows s j q d)
    (under : (s.egyNvr.ereg64 id q.cell).toNat + scanUnits id (energyDeltas env ereg) s q.cell <
      maxEreg64.toNat) :
    Follows (scanBody s id env ereg) j q (scanDisplay s id env ereg j q d) := by
  have steps := follows_steps env ereg h under
  rw [scanBody, scanDisplay]
  exact follows_saved steps

private theorem tracks_scan [Single F] {s : Sys F} {id : Channel} {env : ScanEnv F}
    {ereg : Fin 3 → MeterEhRegs} {j : Channel} {q : Quantity} {d : Display} (h : Follows s j q d)
    (under : (s.egyNvr.ereg64 id q.cell).toNat + scanUnits id (energyDeltas env ereg) s q.cell <
      maxEreg64.toNat)
    (clears : (s.meter id).rstEgy = clearCommand → egyTotal s id q = 0) {baseline opened : Nat}
    (tracks : Tracks baseline opened d) :
    Tracks baseline opened (scanDisplay s id env ereg j q d) := by
  have steps := follows_steps env ereg h under
  have kept : Tracks baseline opened (if j = id then
      obey s id q (d.count (scanUnits id (energyDeltas env ereg) s q.cell)) else d) := by
    split
    · rename_i own
      subst own
      clear under steps
      generalize scanUnits j (energyDeltas env ereg) s q.cell = n
      have counted := tracks.count n
      rw [obey]
      split
      · rename_i clear
        have zero : d.shown = 0 := by
          rw [← h.mirror, clears clear]
          rfl
        exact counted.set_same zero.symm
      · split
        · exact counted.set_same h.mirror
        · exact counted
    · exact tracks
  rw [scanDisplay]
  split
  · exact kept.refresh steps.sound
  · exact kept

/-- A log's slots are exact so far, and its baseline tracks the display since the last of them. -/
structure Slotted (baseline : UInt32) (d : Display) (l : Ledger) : Prop where
  tracks : Tracks baseline.toNat l.opened d
  exact : l.Exact 0

private theorem Slotted.close {baseline shown : UInt32} {d : Display} {l : Ledger}
    (h : Slotted baseline d l) (mirror : shown.toNat = d.shown) :
    Slotted shown d (l.close d.grown (shown - baseline).toNat) := by
  obtain ⟨later, increase⟩ := h.tracks.difference
  have below : baseline ≤ shown := by
    rw [UInt32.le_iff_toNat_le, mirror]
    exact h.tracks.1
  have value : (shown - baseline).toNat = d.grown - l.opened := by
    rw [UInt32.toNat_sub_of_le _ _ below, mirror, increase]
  refine ⟨?_, h.exact.close later value⟩
  rw [mirror]
  exact tracks_now d

/-- A scan's part in a log: a slot that is due is closed with the difference, and the baseline moves
on. -/
private theorem Slotted.log {due : Prop} [Decidable due] {before after shown written : UInt32}
    {d : Display} {l : Ledger} (h : Slotted before d l) (mirror : shown.toNat = d.shown)
    (closes : due → written = shown - before ∧ after = shown) (runs : ¬due → after = before) :
    Slotted after d (if due then l.close d.grown written.toNat else l) := by
  split
  · rename_i closed
    obtain ⟨value, moved⟩ := closes closed
    rw [value, moved]
    exact h.close mirror
  · rename_i open_
    rw [runs open_]
    exact h

private theorem closed_own {due : Prop} [Decidable due] (l : Channel → Quantity → Ledger)
    (id : Channel) (display : Quantity → Display) (written : Reading) (q : Quantity) :
    (if due then Function.update l id (closeAll (l id) display written) else l) id q =
      if due then (l id q).close (display q).grown (written q).toNat else l id q := by
  split
  · rw [Function.update_self]
    rfl
  · rfl

private theorem closed_other {due : Prop} [Decidable due] (l : Channel → Quantity → Ledger)
    {id j : Channel} (other : j ≠ id) (closed : Quantity → Ledger) :
    (if due then Function.update l id closed else l) j = l j := by
  split
  · exact Function.update_of_ne other ..
  · rfl

/-- What holds between the steps, of the hourly log only for quantities displayed as zero at boot. -/
structure Inv (fresh : Channel → Quantity → Prop) (st : St F) : Prop where
  follows : ∀ id q, Follows st.sys id q (st.display id q)
  slot : ∀ id, (st.logs id).egy15.lastQ < 96
  quarters : ∀ id q, Slotted ((st.logs id).egy15.buf q) (st.display id q) (st.quarters id q)
  hours : ∀ id q, fresh id q → Slotted ((st.logs id).egyBuf q) (st.display id q) (st.hours id q)

private theorem inv_scan [Single F] {fresh : Channel → Quantity → Prop} {st : St F}
    (inv : Inv fresh st) {id : Channel} {env : ScanEnv F} {ereg : Fin 3 → MeterEhRegs}
    (steady : Steady st (.scan id env ereg)) : Inv fresh (step st (.scan id env ereg)) := by
  rw [step]
  dsimp only
  split
  · rename_i started
    obtain ⟨under, clears⟩ := steady started
    have body : energyScan st.sys id env ereg = scanBody st.sys id env ereg := by
      rw [energyScan, if_pos started]
    have scanned : ∀ (j : Channel) (q : Quantity) {baseline : UInt32} {l : Ledger},
        Slotted baseline (st.display j q) l →
        Slotted baseline (scanDisplay st.sys id env ereg j q (st.display j q)) l := by
      intro j q baseline l logged
      exact ⟨tracks_scan (inv.follows j q) (under q) (fun clear => clears clear q) logged.tracks,
        logged.exact⟩
    rw [body]
    refine ⟨?_, ?_, ?_, ?_⟩
    · intro j q
      dsimp only
      exact follows_scan (inv.follows j q) (under q)
    · intro j
      dsimp only
      by_cases own : j = id
      · subst own
        rw [Function.update_self]
        exact scanLogs_lastQ _ _ (inv.slot j)
      · rw [Function.update_of_ne own]
        exact inv.slot j
    · intro j q
      dsimp only
      apply scanned
      by_cases own : j = id
      · subst own
        rw [closed_own, Function.update_self]
        refine (inv.quarters j q).log (inv.follows j q).mirror ?_ ?_
        · intro due
          obtain ⟨written, moved⟩ := scanLogs_quarterDue due (inv.slot j) (egyTotal st.sys j)
          exact ⟨congrFun written q, congrFun moved q⟩
        · intro runs
          rw [scanLogs_quarterRuns runs]
      · rw [closed_other _ own, Function.update_of_ne own]
        exact inv.quarters j q
    · intro j q zero
      dsimp only
      apply scanned
      by_cases own : j = id
      · subst own
        rw [closed_own, Function.update_self]
        refine (inv.hours j q zero).log (inv.follows j q).mirror ?_ ?_
        · intro due
          obtain ⟨written, moved⟩ := scanLogs_hourDue due (egyTotal st.sys j)
          exact ⟨congrFun written q, congrFun moved q⟩
        · intro runs
          rw [scanLogs_hourRuns runs]
      · rw [closed_other _ own, Function.update_of_ne own]
        exact inv.hours j q zero
  · rename_i unstarted
    refine ⟨?_, inv.slot, inv.quarters, inv.hours⟩
    intro j q
    have skipped : energyScan st.sys id env ereg =
        st.sys.setMeter id fun m => { m with energyInit := true } := by
      rw [energyScan, if_neg unstarted]
    dsimp only
    rw [skipped]
    exact (inv.follows j q).of_same rfl (egyTotal_setMeter rfl j)

private theorem inv_step [Single F] {fresh : Channel → Quantity → Prop} (st : St F) (e : Event F)
    (inv : Inv fresh st) (steady : Steady st e) : Inv fresh (step st e) := by
  cases e with
  | scan id env ereg => exact inv_scan inv steady
  | tick now =>
    refine ⟨?_, inv.slot, inv.quarters, inv.hours⟩
    intro j q
    exact (inv.follows j q).of_same rfl rfl
  | saveSettings =>
    refine ⟨?_, inv.slot, inv.quarters, inv.hours⟩
    intro j q
    exact (inv.follows j q).of_same rfl rfl
  | reboot now => exact steady.elim
  | writeEreg id w v =>
    refine ⟨?_, inv.slot, inv.quarters, inv.hours⟩
    intro j q
    refine (inv.follows j q).of_same rfl ?_
    by_cases own : j = id
    · rw [own]
      exact steady
    · funext p
      dsimp only [step, Persist.step, egyTotal, writeEregWord]
      rw [setMeter_meter, if_neg own]
  | command id v =>
    refine ⟨?_, inv.slot, inv.quarters, inv.hours⟩
    intro j q
    have same : egyTotal (st.sys.setMeter id fun m => { m with rstEgy := v }) j =
        egyTotal st.sys j := egyTotal_setMeter rfl j
    exact (inv.follows j q).of_same rfl same

private theorem inv_opening {s : Sys F} (elog log15 : Channel → Fin 2 → DayLog)
    (range : ∀ id c, (s.egyNvr.ereg64 id c).toNat ≤ maxEreg64.toNat)
    (shows : ∀ id c, (s.meter id).ereg32 .total c = (s.egyNvr.ereg64 id c / 100).toUInt32) :
    Inv (fun id q => egyTotal s id q = 0) (opening s elog log15) := by
  have turned : ∀ id, ((opening s elog log15).logs id).egyBuf = 0 ∧
      ((opening s elog log15).logs id).egy15.buf = egyTotal s id ∧
      ((opening s elog log15).logs id).egy15.lastQ = quarter s.sysTick1s := by
    intro id
    dsimp only [opening]
    rw [bootTurn]
    split
    · exact ⟨rfl, rfl, rfl⟩
    · exact ⟨rfl, rfl, rfl⟩
  refine ⟨?_, ?_, ?_, ?_⟩
  · intro id q
    refine ⟨rfl, rfl, ?_, range id q.cell⟩
    have value := shown_of_counter (range id q.cell)
    rw [← shows] at value
    exact value.le
  · intro id
    rw [(turned id).2.2]
    exact quarter_lt _
  · intro id q
    have here := tracks_now ((opening s elog log15).display id q)
    rw [(turned id).2.1]
    exact ⟨here, exact_start 0⟩
  · intro id q zero
    have shown : ((opening s elog log15).display id q).shown = 0 := by
      dsimp only [opening]
      rw [zero]
      rfl
    rw [(turned id).1]
    refine ⟨⟨Nat.zero_le _, ?_⟩, exact_start 0⟩
    rw [shown]
    rfl

/-- A log's closed slots: each holds exactly the growth of its display during it, they follow each
other without gap or overlap, and together they come to the growth up to the last closing. -/
structure SlotsRight (l : Ledger) : Prop extends l.Exact 0 where
  sum : (l.slots.map Slot.value).sum = l.opened

private theorem Slotted.right {baseline : UInt32} {d : Display} {l : Ledger}
    (h : Slotted baseline d l) :
    SlotsRight l := by
  refine ⟨h.exact, ?_⟩
  have sum := h.exact.sum
  rw [Nat.zero_add] at sum
  exact sum

/-- In every steady run from a boot all 15-minute slots are right, and all hourly slots of what the
boot displayed as zero. -/
theorem steady_runs_slots [Single F] (now : UInt32) (fram : Device)
    (elog log15 : Channel → Fin 2 → DayLog) (es : List (Event F))
    (steady : Along step Steady (opening (boot now fram) elog log15) es) (id : Channel)
    (q : Quantity) :
    SlotsRight ((run step (opening (boot now fram) elog log15) es).quarters id q) ∧
      (egyTotal (boot (F := F) now fram) id q = 0 →
        SlotsRight ((run step (opening (boot now fram) elog log15) es).hours id q)) := by
  have range : ∀ id c,
      ((boot (F := F) now fram).egyNvr.ereg64 id c).toNat ≤ maxEreg64.toNat := by
    intro id c
    exact UInt64.le_iff_toNat_le.mp ((boot_loadable (F := F) now fram).2 id c (Cell.mem_all c))
  have shows : ∀ id c, ((boot (F := F) now fram).meter id).ereg32 .total c =
      ((boot (F := F) now fram).egyNvr.ereg64 id c / 100).toUInt32 := by
    intro id c
    rw [boot_displayed]
    rfl
  have inv := invariant_run inv_step (inv_opening elog log15 range shows) steady
  exact ⟨(inv.quarters id q).right, fun zero => (inv.hours id q zero).right⟩

def noLogs : Channel → Fin 2 → DayLog := fun _ _ => .empty 0

def storedRecord : EnergyNvram :=
  { zeroRecord with ereg64 := fun id c => if id = 0 ∧ c = importTotal then 100 else 0 }

def storedFram : Device := ⟨fun _ => 0, storeEnergyNVR (stamp 36000 storedRecord)⟩

def strong : ScanEnv Rat := { quiet with wscale := 360000 }

def hundredUnits : Fin 3 → MeterEhRegs := fun i => if i = 0 then ⟨20694066, 0, 0⟩ else ⟨0, 0, 0⟩

private theorem storedFram_loads :
    loadEnergyNVR storedFram.cells = some (stamp 36000 storedRecord) := by
  have copy : firstCopy storedFram.cells = image (stamp 36000 storedRecord) := by
    rw [storedFram, Device.cells_mk, firstCopy_store]
  have ok : Loadable storedRecord := by decide +kernel
  exact loadEnergyNVR_first copy (stamp_crcOk _ _) (loadable_stamp ok)

private theorem storedFram_total : egyTotal (boot (F := Rat) 36000 storedFram) 0 .kwh = 1 := by
  rw [egyTotal, boot_displayed]
  dsimp only [displayed]
  rw [boot_ereg64 storedFram_loads]
  rfl

/-- A hundred units of active and two hundred of reactive energy. -/
def twoSorts : Fin 3 → MeterEhRegs :=
  fun i => if i = 0 then ⟨20694066, 41388132, 0⟩ else ⟨0, 0, 0⟩

/-- From ten o'clock to twelve: energy in two quarters of the first hour and once in the second. -/
def tenToTwelve : List (Event Rat) :=
  [.scan 0 quiet noEnergy, .tick 36300, .scan 0 strong twoSorts, .tick 37000,
    .scan 0 strong twoSorts, .tick 38000, .scan 0 quiet noEnergy, .tick 39600,
    .scan 0 quiet noEnergy, .tick 39900, .scan 0 strong twoSorts, .tick 43200,
    .scan 0 quiet noEnergy]

theorem tenToTwelve_right :
    let end_ := run step (opening (boot (F := Rat) 36000 storedFram) noLogs noLogs) tenToTwelve
    egyTotal (boot (F := Rat) 36000 storedFram) 0 .kwh = 1 ∧
      SlotsRight (end_.quarters 0 .kwh) ∧
      (end_.quarters 0 .kwh).slots =
        [⟨0, 1, 1⟩, ⟨1, 2, 1⟩, ⟨2, 2, 0⟩, ⟨2, 3, 1⟩] ∧
      SlotsRight (end_.hours 0 .kvarhImport) ∧
      (end_.hours 0 .kvarhImport).slots = [⟨0, 4, 4⟩, ⟨4, 6, 2⟩] := by
  have steady : Along step Steady (opening (boot 36000 storedFram) noLogs noLogs) tenToTwelve := by
    rw [boot_loaded storedFram_loads]
    decide +kernel
  have zero : egyTotal (boot (F := Rat) 36000 storedFram) 0 .kvarhImport = 0 := by
    rw [egyTotal, boot_displayed]
    dsimp only [displayed]
    rw [boot_ereg64 storedFram_loads]
    rfl
  have active := steady_runs_slots 36000 storedFram noLogs noLogs _ steady 0 .kwh
  have reactive := steady_runs_slots 36000 storedFram noLogs noLogs _ steady 0 .kvarhImport
  refine ⟨storedFram_total, active.1, ?_, reactive.2 zero, ?_⟩
  · rw [boot_loaded storedFram_loads]
    decide +kernel
  · rw [boot_loaded storedFram_loads]
    decide +kernel

def blank : Device := ⟨fun _ => 0, []⟩

/-- From ten o'clock: a hundred units before eleven, and nothing after. -/
def tenToEleven : List (Event Rat) :=
  [.scan 0 quiet noEnergy, .tick 36300, .scan 0 strong hundredUnits, .tick 39600,
    .scan 0 quiet noEnergy]

def clearedAtEleven : List (Event Rat) :=
  [.command 0 clearCommand, .tick 39601, .scan 0 quiet noEnergy, .tick 43200,
    .scan 0 quiet noEnergy]

private theorem step_unstarted [Single F] {t : St F} {id : Channel}
    (unstarted : (t.sys.meter id).energyInit = false) (env : ScanEnv F)
    (ereg : Fin 3 → MeterEhRegs) :
    step t (.scan id env ereg) =
      { t with sys := t.sys.setMeter id fun m => { m with energyInit := true } } := by
  have unstarted := Bool.eq_false_iff.1 unstarted
  rw [step]
  dsimp only
  rw [if_neg unstarted, energyScan, if_neg unstarted]

private theorem step_hourDue [Single F] {t : St F} {id : Channel}
    (started : (t.sys.meter id).energyInit = true)
    (due : HourDue t.sys.sysTick1s (t.logs id)) (env : ScanEnv F) (ereg : Fin 3 → MeterEhRegs)
    (q : Quantity) :
    (step t (.scan id env ereg)).hours id q =
      (t.hours id q).close (t.display id q).grown
        (egyTotal t.sys id q - (t.logs id).egyBuf q).toNat := by
  obtain ⟨written, -⟩ := scanLogs_hourDue due (egyTotal t.sys id)
  rw [step]
  dsimp only
  rw [if_pos started]
  dsimp only
  rw [closed_own, if_pos due, congrFun written q]

/-- The first hour of a boot is taken from zero: with no growth at all its slot is what the boot
displayed. -/
private theorem first_hour [Single F] {s : Sys F} {id : Channel}
    (unstarted : (s.meter id).energyInit = false) {now : UInt32}
    (later : tmHour s.sysTick1s ≠ tmHour now) (elog log15 : Channel → Fin 2 → DayLog)
    (env : ScanEnv F) (ereg : Fin 3 → MeterEhRegs) (q : Quantity) :
    ((run step (opening s elog log15) [.scan id env ereg, .tick now,
      .scan id env ereg]).hours id q).slots = [⟨0, 0, (egyTotal s id q).toNat⟩] := by
  have first := step_unstarted (t := opening s elog log15) unstarted env ereg
  have logs : ((opening s elog log15).logs id).egyBuf = 0 ∧
      ((opening s elog log15).logs id).egyTs1H = tmHour s.sysTick1s := by
    dsimp only [opening]
    rw [bootTurn]
    split
    · exact ⟨rfl, rfl⟩
    · exact ⟨rfl, rfl⟩
  have due : HourDue now ((opening s elog log15).logs id) := by
    rw [HourDue, logs.2]
    exact later
  have shown : egyTotal (s.setMeter id fun m => { m with energyInit := true }) id = egyTotal s id :=
    egyTotal_setMeter rfl id
  have started : ((s.setMeter id fun m => { m with energyInit := true }).meter id).energyInit =
      true := by
    rw [setMeter_meter, if_pos rfl]
  rw [run_cons, run_cons, run_cons, run_nil, first, step_hourDue started due]
  change [(⟨0, 0, (egyTotal (s.setMeter id fun m => { m with energyInit := true }) id q -
    ((opening s elog log15).logs id).egyBuf q).toNat⟩ : Slot)] = _
  have zero : (0 : Reading) q = 0 := rfl
  rw [shown, logs.1, zero, UInt32.sub_zero]

/-- With a hundred units stored and none measured, the first hourly slot after a boot holds them
all; and after a clear both logs write a slot below zero. -/
theorem slots_wrong :
    ((run step (opening (boot (F := Rat) 36000 storedFram) noLogs noLogs)
        [.scan 0 quiet noEnergy, .tick 39600, .scan 0 quiet noEnergy]).hours 0 .kwh).slots =
      [⟨0, 0, 1⟩] ∧
    ((run step (opening (boot (F := Rat) 36000 blank) noLogs noLogs)
        (tenToEleven ++ clearedAtEleven)).hours 0 .kwh).slots =
      [⟨0, 1, 1⟩, ⟨1, 1, 4294967295⟩] ∧
    ((run step (opening (boot (F := Rat) 36000 blank) noLogs noLogs)
        (tenToEleven ++ clearedAtEleven)).quarters 0 .kwh).slots =
      [⟨0, 1, 1⟩, ⟨1, 1, 4294967295⟩] := by
  refine ⟨?_, by decide +kernel⟩
  have clock : (boot (F := Rat) 36000 storedFram).sysTick1s = 36000 := by
    rw [boot_loaded storedFram_loads, checkEnergy_eq]
    exact rolled_sysTick1s _
  have later : tmHour (boot (F := Rat) 36000 storedFram).sysTick1s ≠ tmHour 39600 := by
    rw [clock]
    decide
  rw [first_hour (boot_energyInit 36000 storedFram 0) later, storedFram_total]
  rfl

end SV300.Energy.Slots
