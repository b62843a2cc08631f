/- SV300/Energy/Month
   digest: The month counters against a book of finished months, over scans, saves and reboots. -/

import SV300.Library.PeriodBook
import SV300.Energy.Persist

set_option autoImplicit false
set_option relaxedAutoImplicit false

namespace SV300.Energy.Month

open SV300.Library.Runs
open SV300.Library.PeriodBook
open SV300.Clock (uLocalTime yearMonth)
open SV300.Energy.Record
open SV300.Energy.Fram
open SV300.Energy.Registers
open SV300.Energy.Scan
open SV300.Energy.Persist (loads_saved loads_saveNow loads_boot boot_loadable)

variable {F : Type}

/-- The whole units one amount adds to a cell of its channel. -/
def unitsOf [Single F] (s : Sys F) (id : Channel) (mode : Mode) (group : Group) (diff : F)
    (c : Cell) : Nat :=
  if 0 < diff then
    if c = ⟨group, mode, .imported⟩ then Single.trunc ((s.meter id).ereg c + diff) else 0
  else if diff < 0 then
    if c = ⟨group, mode, .exported⟩ then Single.trunc ((s.meter id).ereg c + -diff) else 0
  else 0

/-- The whole units a list of amounts adds to a cell. -/
def scanUnits [Single F] (id : Channel) : List (Mode × Group × F) → Sys F → Cell → Nat
  | [], _, _ => 0
  | d :: deltas, s, c => unitsOf s id d.1 d.2.1 d.2.2 c +
      scanUnits id deltas (updateEhGrp s id d.1 d.2.1 d.2.2).2 c

private theorem monthWh_accumulate [Single F] (s : Sys F) (id : Channel) (c : Cell) (diff : F)
    (j : Channel) (d : Cell) :
    (accumulate s id c diff).2.egyNvr.monthWh j d = s.egyNvr.monthWh j d +
      if j = id ∧ d = c then UInt32.ofNat (Single.trunc ((s.meter id).ereg c + diff)) else 0 := by
  dsimp only [accumulate]
  split
  · rename_i none
    simp [none]
  · dsimp only [setCounters, Sys.setMeter, setCell]
    by_cases channel : j = id
    · subst channel
      by_cases cell : d = c
      · subst cell
        simp
      · simp [cell]
    · simp [channel]

private theorem monthWh_updateEhGrp [Single F] (s : Sys F) (id : Channel) (mode : Mode)
    (group : Group) (diff : F) (j : Channel) (c : Cell) :
    (updateEhGrp s id mode group diff).2.egyNvr.monthWh j c = s.egyNvr.monthWh j c +
      if j = id then UInt32.ofNat (unitsOf s id mode group diff c) else 0 := by
  unfold updateEhGrp unitsOf
  split
  · rw [monthWh_accumulate]
    by_cases cell : c = ⟨group, mode, .imported⟩ <;> simp [cell]
  split
  · rw [monthWh_accumulate]
    by_cases cell : c = ⟨group, mode, .exported⟩ <;> simp [cell]
  · simp

private theorem monthWh_updateEhAll [Single F] (id : Channel) (deltas : List (Mode × Group × F))
    (s : Nat × Sys F) (j : Channel) (c : Cell) :
    (updateEhAll id deltas s).2.egyNvr.monthWh j c = s.2.egyNvr.monthWh j c +
      if j = id then UInt32.ofNat (scanUnits id deltas s.2 c) else 0 := by
  induction deltas generalizing s with
  | nil => simp [updateEhAll, scanUnits]
  | cons d deltas ih =>
      have rest := ih (s.1 + (updateEhGrp s.2 id d.1 d.2.1 d.2.2).1,
        (updateEhGrp s.2 id d.1 d.2.1 d.2.2).2)
      have first := monthWh_updateEhGrp s.2 id d.1 d.2.1 d.2.2 j c
      change (updateEhAll id deltas _).2.egyNvr.monthWh j c = _
      rw [rest, first, scanUnits]
      split
      · rw [UInt32.ofNat_add, UInt32.add_assoc]
      · simp

/-- What happens in these runs: clock ticks, scans, saves by command, reboots. -/
inductive Event (F : Type)
  | tick (now : UInt32)
  | scan (id : Channel) (env : ScanEnv F) (ereg : Fin 3 → MeterEhRegs)
  | saveSettings
  | reboot (now : UInt32)

def Event.toEnergy : Event F → Persist.Event F
  | .tick now => .tick now
  | .scan id env ereg => .scan id env ereg
  | .saveSettings => .saveSettings
  | .reboot now => .reboot now

/-- The energy registers and a book of the months, by channel and cell. -/
structure State (F : Type) where
  sys : Sys F
  journal : Journal (Channel × Cell) (Nat × Nat)

def ereg32Unit : Nat := 100

/-- The units a scan of one channel adds, over all channels. -/
def amounts [Single F] (s : Sys F) (id : Channel) (env : ScanEnv F) (ereg : Fin 3 → MeterEhRegs) :
    Channel × Cell → Nat :=
  fun k => if k.1 = id then scanUnits id (energyDeltas env ereg) s k.2 else 0

/-- The book's side of a step: a scan books its units in the running month and then looks at the
calendar; a restart goes on from the copy last saved. -/
def book [Single F] (st : State F) : Event F → Journal (Channel × Cell) (Nat × Nat)
  | .tick _ => st.journal
  | .scan id env ereg =>
      if (st.sys.meter id).energyInit then
        let live := (st.journal.live.add (amounts st.sys id env ereg)).observe ereg32Unit
          (yearMonth st.sys.sysTick1s)
        if Saves (scanSteps st.sys id env ereg) then ⟨live, live⟩ else ⟨live, st.journal.saved⟩
      else st.journal
  | .saveSettings => st.journal.commit
  | .reboot now => st.journal.restart ereg32Unit (yearMonth now)

def step [Single F] (st : State F) (e : Event F) : State F :=
  ⟨Persist.step st.sys e.toEnergy, book st e⟩

def opening (s : Sys F) : State F :=
  let b := Book.opening (yearMonth s.egyNvr.ts) (fun k => (s.egyNvr.monthWh k.1 k.2).toNat)
    fun k => (s.egyNvr.ereg32Last k.1 k.2).toNat
  ⟨s, ⟨b, b⟩⟩

/-- A record agrees with a book on the running month and on the last month reported. -/
structure Counts (r : EnergyNvram) (b : Book (Channel × Cell) (Nat × Nat)) : Prop where
  current : ∀ id c, (r.monthWh id c).toNat = b.current (id, c)
  reported : ∀ id c, (r.ereg32Last id c).toNat = b.reported (id, c)

/-- It also agrees on which month it is. -/
structure Shows (r : EnergyNvram) (b : Book (Channel × Cell) (Nat × Nat)) : Prop
    extends Counts r b where
  period : yearMonth r.ts = b.period

/-- The registers agree with the book, which has lost nothing, and the display shows the last
month of the record. -/
structure Keeps (st : State F) : Prop where
  shows_live : Shows st.sys.egyNvr st.journal.live
  balanced : st.journal.live.Balanced ereg32Unit
  lastShown : ∀ id, (st.sys.meter id).ereg32 .lastMonth = st.sys.egyNvr.ereg32Last id

/-- A scan keeps the month: no month counter wraps, a new month has another number than the old
one, and a rollover meets a current display and is saved at once. -/
structure CleanScan [Single F] (s : Sys F) (id : Channel) (env : ScanEnv F)
    (ereg : Fin 3 → MeterEhRegs) : Prop where
  noWrap : ∀ c, (s.egyNvr.monthWh id c).toNat + scanUnits id (energyDeltas env ereg) s c < 2 ^ 32
  noticed : yearMonth s.sysTick1s ≠ yearMonth s.egyNvr.ts → MonthChanged s
  current : MonthChanged s → ∀ j c, (s.meter j).ereg32 .thisMonth c =
    (updateEhAll id (energyDeltas env ereg) (0, s)).2.egyNvr.monthWh j c / 100
  saved : MonthChanged s →
    SaveDue ((updateEhAll id (energyDeltas env ereg) (0, s)).1 + rolloverFlag) s

/-- A boot finds the month unchanged, or notices the change over empty month counters. -/
def CleanBoot (now : UInt32) (r : EnergyNvram) : Prop :=
  yearMonth now ≠ yearMonth r.ts →
    (uLocalTime r.ts).tmMon ≠ (uLocalTime now).tmMon ∧ ∀ id c, r.monthWh id c < 100

def Clean [Single F] (st : State F) : Event F → Prop
  | .tick _ => True
  | .scan id env ereg => (st.sys.meter id).energyInit = true → CleanScan st.sys id env ereg
  | .saveSettings => yearMonth st.sys.sysTick1s = yearMonth st.sys.egyNvr.ts
  | .reboot now => ∀ r, loadEnergyNVR st.sys.fram.cells = some r → CleanBoot now r

structure Inv (st : State F) : Prop extends Keeps st where
  loadable : Loadable st.sys.egyNvr
  quiet : ∀ id, (st.sys.meter id).rstEgy = 0
  shows_saved : ∃ r, loadEnergyNVR st.sys.fram.cells = some r ∧ Shows r st.journal.saved
  savedBalanced : st.journal.saved.Balanced ereg32Unit

private theorem Inv.booked {st : State F} (inv : Inv st) : st.journal.Balanced ereg32Unit :=
  ⟨inv.balanced, inv.savedBalanced⟩

theorem Counts.stamp {r : EnergyNvram} {b : Book (Channel × Cell) (Nat × Nat)} (h : Counts r b)
    {now : UInt32} (period : yearMonth now = b.period) : Shows (stamp now r) b :=
  ⟨⟨h.current, h.reported⟩, period⟩

private theorem yearMonth_tmMon {a b : UInt32} (same : yearMonth a = yearMonth b) :
    (uLocalTime a).tmMon = (uLocalTime b).tmMon :=
  congrArg Prod.snd same

private theorem scanSteps_quiet [Single F] {s : Sys F} (quiet : ∀ id, (s.meter id).rstEgy = 0)
    (id : Channel) (env : ScanEnv F) (ereg : Fin 3 → MeterEhRegs) :
    scanSteps s id env ereg = checkMonth (updateEhAll id (energyDeltas env ereg) (0, s)) := by
  have accrued := updateEhAll_accrued id (energyDeltas env ereg) (0, s)
  have kept := (Persist.checkMonth_view (updateEhAll id (energyDeltas env ereg) (0, s)) id).1
  rw [accrued.rstEgy, quiet id] at kept
  rw [scanSteps, clearEnergy, kept, if_neg (by decide), editEnergy, kept, if_neg (by decide)]

private theorem monthChanged_frame {s t : Sys F} (frame : Frame s t) :
    MonthChanged t ↔ MonthChanged s := by
  rw [MonthChanged, MonthChanged, Sys.tod, Sys.tod, frame.ts, frame.sysTick1s]

private theorem shows_accumulated [Single F] {s : Sys F} {b : Book (Channel × Cell) (Nat × Nat)}
    (h : Shows s.egyNvr b) (id : Channel) (env : ScanEnv F) (ereg : Fin 3 → MeterEhRegs)
    (noWrap : ∀ c, (s.egyNvr.monthWh id c).toNat + scanUnits id (energyDeltas env ereg) s c <
      2 ^ 32) :
    Shows (updateEhAll id (energyDeltas env ereg) (0, s)).2.egyNvr
      (b.add (amounts s id env ereg)) := by
  have accrued := updateEhAll_accrued id (energyDeltas env ereg) (0, s)
  refine ⟨⟨fun j c => ?_, fun j c => ?_⟩, ?_⟩
  · rw [monthWh_updateEhAll]
    simp only [Book.add, Pi.add_apply, amounts, ← h.current j c]
    split
    · rename_i same
      have small := noWrap c
      rw [← same] at small ⊢
      exact toNat_add_month small
    · simp
  · rw [accrued.ereg32Last]
    exact h.reported j c
  · rw [accrued.ts]
    exact h.period

private theorem inv_saveThrottled {v : Nat × Sys F} {live saved : Book (Channel × Cell) (Nat × Nat)}
    (counts : Counts v.2.egyNvr live) (period : yearMonth v.2.sysTick1s = live.period)
    (unsaved : ¬ Saves v → yearMonth v.2.egyNvr.ts = live.period)
    (lastShown : ∀ id, (v.2.meter id).ereg32 .lastMonth = v.2.egyNvr.ereg32Last id)
    (loadable : Loadable v.2.egyNvr) (quiet : ∀ id, (v.2.meter id).rstEgy = 0)
    (stored : ∃ r, loadEnergyNVR v.2.fram.cells = some r ∧ Shows r saved)
    (balanced : live.Balanced ereg32Unit) (savedBalanced : saved.Balanced ereg32Unit) :
    Inv ⟨saveThrottled v, if Saves v then ⟨live, live⟩ else ⟨live, saved⟩⟩ := by
  unfold saveThrottled
  split
  · have again : Shows (saveNow (markDirty v.1 v.2)).egyNvr live := by
      rw [saveNow_egyNvr, markDirty_egyNvr, markDirty_sysTick1s]
      exact counts.stamp period
    refine ⟨⟨again, balanced, fun id => ?_⟩, ?_, fun id => ?_, ⟨_, ?_, again⟩, balanced⟩
    · rw [saveNow_meter, saveNow_egyNvr, markDirty_egyNvr, stamp_ereg32Last]
      rfl
    · rw [saveNow_egyNvr, markDirty_egyNvr]
      exact loadable_stamp loadable
    · rw [saveNow_meter, markDirty_meter]
      exact quiet id
    · exact loads_saveNow loadable
  · rename_i skipped
    exact ⟨⟨⟨counts, unsaved skipped⟩, balanced, lastShown⟩, loadable, quiet, stored,
      savedBalanced⟩

private theorem step_scan [Single F] {st : State F} {id : Channel}
    (started : (st.sys.meter id).energyInit = true) (quiet : ∀ j, (st.sys.meter j).rstEgy = 0)
    (env : ScanEnv F) (ereg : Fin 3 → MeterEhRegs) :
    let v := checkMonth (updateEhAll id (energyDeltas env ereg) (0, st.sys))
    let live := (st.journal.live.add (amounts st.sys id env ereg)).observe ereg32Unit
      (yearMonth st.sys.sysTick1s)
    step st (.scan id env ereg) =
      ⟨saveThrottled v, if Saves v then ⟨live, live⟩ else ⟨live, st.journal.saved⟩⟩ := by
  simp only [step, Event.toEnergy, Persist.step, energyScan, book, if_pos started, scanBody,
    scanSteps_quiet quiet]

private theorem inv_scan_same [Single F] {st : State F} (inv : Inv st) {id : Channel}
    (started : (st.sys.meter id).energyInit = true) {env : ScanEnv F}
    {ereg : Fin 3 → MeterEhRegs} (clean : CleanScan st.sys id env ereg)
    (same : yearMonth st.sys.sysTick1s = yearMonth st.sys.egyNvr.ts) :
    Inv (step st (.scan id env ereg)) := by
  rw [step_scan started inv.quiet]
  have accrued := updateEhAll_accrued id (energyDeltas env ereg) (0, st.sys)
  have shows := shows_accumulated inv.shows_live id env ereg clean.noWrap
  have loadable := Persist.updateEhAll_loadable id (energyDeltas env ereg) (s := (0, st.sys))
    inv.loadable
  have here : yearMonth st.sys.sysTick1s =
      (st.journal.live.add (amounts st.sys id env ereg)).period :=
    same.trans inv.shows_live.period
  have unchanged : ¬ MonthChanged (updateEhAll id (energyDeltas env ereg) (0, st.sys)).2 := by
    rw [monthChanged_frame accrued.toFrame]
    exact fun changed => changed (yearMonth_tmMon same).symm
  rw [observe_same _ here, checkMonth, if_neg unchanged]
  generalize updateEhAll id (energyDeltas env ereg) (0, st.sys) = u at *
  refine inv_saveThrottled shows.toCounts ?_ (fun _ => shows.period) (fun j => ?_) loadable
    (fun j => ?_) ?_ (inv.balanced.add _) inv.savedBalanced
  · rw [accrued.sysTick1s]
    exact here
  · rw [accrued.ereg32, accrued.ereg32Last]
    exact inv.lastShown j
  · rw [accrued.rstEgy]
    exact inv.quiet j
  · rw [accrued.fram]
    exact inv.shows_saved

private theorem inv_scan_changed [Single F] {st : State F} (inv : Inv st) {id : Channel}
    (started : (st.sys.meter id).energyInit = true) {env : ScanEnv F}
    {ereg : Fin 3 → MeterEhRegs} (clean : CleanScan st.sys id env ereg)
    (other : yearMonth st.sys.sysTick1s ≠ yearMonth st.sys.egyNvr.ts) :
    Inv (step st (.scan id env ereg)) := by
  rw [step_scan started inv.quiet]
  have accrued := updateEhAll_accrued id (energyDeltas env ereg) (0, st.sys)
  have shows := shows_accumulated inv.shows_live id env ereg clean.noWrap
  have loadable := Persist.updateEhAll_loadable id (energyDeltas env ereg) (s := (0, st.sys))
    inv.loadable
  have changed := clean.noticed other
  have current := clean.current changed
  have due := clean.saved changed
  have there : yearMonth st.sys.sysTick1s ≠
      (st.journal.live.add (amounts st.sys id env ereg)).period :=
    fun same => other (same.trans inv.shows_live.period.symm)
  have balanced := (inv.balanced.add (amounts st.sys id env ereg)).close
    (yearMonth st.sys.sysTick1s)
  rw [observe_other _ there, checkMonth, if_pos ((monthChanged_frame accrued.toFrame).mpr changed)]
  generalize updateEhAll id (energyDeltas env ereg) (0, st.sys) = u at *
  refine inv_saveThrottled ⟨fun j c => ?_, fun j c => ?_⟩ ?_ (fun skipped => ?_) (fun j => ?_)
    loadable (fun j => ?_) ?_ balanced inv.savedBalanced
  · rfl
  · have shown := congrArg UInt32.toNat ((congrFun (congrFun (accrued.ereg32 j) .thisMonth) c).trans
      (current j c))
    rw [UInt32.toNat_div] at shown
    exact shown.trans (by rw [shows.current j c]; rfl)
  · dsimp only [rollover]
    rw [accrued.sysTick1s]
    rfl
  · refine absurd ⟨?_, ?_⟩ skipped
    · simp [markDirty, rolloverFlag]
    · dsimp only [SaveDue, rollover] at due ⊢
      rw [accrued.sysTick1s, accrued.egyLastSave]
      exact due
  · simp
  · dsimp only [rollover]
    rw [accrued.rstEgy]
    exact inv.quiet j
  · dsimp only [rollover]
    rw [accrued.fram]
    exact inv.shows_saved

private theorem counts_boot [Single F] {now : UInt32} {fram : Device} {r : EnergyNvram}
    {b : Book (Channel × Cell) (Nat × Nat)} (found : loadEnergyNVR fram.cells = some r)
    (shows : Shows r b) (clean : CleanBoot now r) :
    Shows (boot (F := F) now fram).egyNvr (b.observe ereg32Unit (yearMonth now)) := by
  by_cases same : yearMonth now = yearMonth r.ts
  · rw [boot_sameMonth found (yearMonth_tmMon same).symm,
      observe_same _ (same.trans shows.period)]
    exact shows.toCounts.stamp (same.trans shows.period)
  · obtain ⟨noticed, small⟩ := clean same
    rw [boot_otherMonth found noticed,
      observe_other _ fun h => same (h.trans shows.period.symm)]
    refine Counts.stamp ⟨fun _ _ => rfl, fun j c => ?_⟩ rfl
    have empty : (r.monthWh j c).toNat < 100 := UInt32.lt_iff_toNat_lt.mp (small j c)
    change 0 = b.current (j, c) / 100
    rw [← shows.current j c]
    omega

private theorem step_reboot [Single F] (st : State F) (now : UInt32) :
    step st (.reboot now) =
      ⟨boot now st.sys.fram, st.journal.restart ereg32Unit (yearMonth now)⟩ := rfl

private theorem inv_reboot [Single F] {st : State F} (inv : Inv st) {now : UInt32}
    (clean : Clean st (.reboot now)) : Inv (step st (.reboot now)) := by
  obtain ⟨r, found, shows⟩ := inv.shows_saved
  have again := counts_boot (F := F) found shows (clean r found)
  obtain ⟨balanced, savedBalanced⟩ := inv.booked.restart (yearMonth now)
  have loadable := boot_loadable (F := F) now st.sys.fram
  have control := boot_control (F := F) now st.sys.fram
  have loads := loads_boot (F := F) now st.sys.fram
  have lastShown := boot_lastMonth (F := F) now st.sys.fram
  rw [step_reboot]
  exact ⟨⟨again, balanced, lastShown⟩, loadable,
    fun id => (control id).2, ⟨_, loads, again⟩, savedBalanced⟩

theorem inv_step [Single F] (st : State F) (e : Event F) (inv : Inv st) (clean : Clean st e) :
    Inv (step st e) := by
  cases e with
  | tick now => exact ⟨⟨inv.shows_live, inv.balanced, inv.lastShown⟩, inv.loadable, inv.quiet,
      inv.shows_saved, inv.savedBalanced⟩
  | scan id env ereg =>
      by_cases started : (st.sys.meter id).energyInit = true
      · by_cases same : yearMonth st.sys.sysTick1s = yearMonth st.sys.egyNvr.ts
        · exact inv_scan_same inv started (clean started) same
        · exact inv_scan_changed inv started (clean started) same
      · simp only [step, Event.toEnergy, Persist.step, energyScan, book, if_neg started]
        refine ⟨⟨inv.shows_live, inv.balanced, fun j => ?_⟩, inv.loadable, fun j => ?_,
          inv.shows_saved, inv.savedBalanced⟩
        · rw [setMeter_meter]
          split
          · rename_i here
            rw [here]
            exact inv.lastShown id
          · exact inv.lastShown j
        · rw [setMeter_meter]
          split
          · exact inv.quiet id
          · exact inv.quiet j
  | saveSettings =>
      have here : yearMonth st.sys.sysTick1s = st.journal.live.period :=
        clean.trans inv.shows_live.period
      have again : Shows (storeEnergy st.sys).egyNvr st.journal.live := by
        rw [storeEnergy_egyNvr]
        exact inv.shows_live.toCounts.stamp here
      obtain ⟨balanced, savedBalanced⟩ := inv.booked.commit
      exact ⟨⟨again, balanced, inv.lastShown⟩, loadable_stamp inv.loadable, inv.quiet,
        ⟨_, loads_saved inv.loadable, again⟩, savedBalanced⟩
  | reboot now => exact inv_reboot inv clean

private theorem inv_opening {s : Sys F} (loadable : Loadable s.egyNvr)
    (loads : loadEnergyNVR s.fram.cells = some s.egyNvr) (quiet : ∀ id, (s.meter id).rstEgy = 0)
    (lastShown : ∀ id, (s.meter id).ereg32 .lastMonth = s.egyNvr.ereg32Last id) :
    Inv (opening s) := by
  have shows : Shows s.egyNvr (opening s).journal.live := ⟨⟨fun _ _ => rfl, fun _ _ => rfl⟩, rfl⟩
  have balanced : (opening s).journal.live.Balanced ereg32Unit := balanced_opening _ _ _ _
  exact ⟨⟨shows, balanced, lastShown⟩, loadable, quiet, ⟨_, loads, shows⟩, balanced⟩

/-- From any power-on, a run of clean steps keeps the month registers in step with a book that
closes each month exactly once and loses nothing. -/
theorem clean_run_keeps_book [Single F] (now : UInt32) (fram : Device) (es : List (Event F))
    (clean : Along step Clean (opening (boot now fram)) es) :
    Keeps (run step (opening (boot now fram)) es) := by
  have loadable := boot_loadable (F := F) now fram
  have control := boot_control (F := F) now fram
  have loads := loads_boot (F := F) now fram
  have lastShown := boot_lastMonth (F := F) now fram
  generalize boot (F := F) now fram = s at *
  have start : Inv (opening s) := inv_opening loadable loads (fun id => (control id).2) lastShown
  exact (invariant_run inv_step start clean).toKeeps

theorem scanUnits_zero [Single F] (id : Channel) {deltas : List (Mode × Group × F)}
    (zero : ∀ d ∈ deltas, ¬ 0 < d.2.2 ∧ ¬ d.2.2 < 0) (s : Sys F) :
    scanUnits id deltas s = fun _ => 0 := by
  induction deltas generalizing s with
  | nil => rfl
  | cons d deltas ih =>
      obtain ⟨pos, neg⟩ := zero d List.mem_cons_self
      funext c
      rw [scanUnits, ih (fun x mem => zero x (List.mem_cons_of_mem d mem)), unitsOf, if_neg pos,
        if_neg neg, Nat.zero_add]

/-- 31 December 2024, 23:50 UTC, and twenty minutes later. -/
def december : UInt32 := 1735689000
def january : UInt32 := 1735690200

def decemberRecord : EnergyNvram :=
  { zeroRecord with monthWh := fun id c => if id = 0 ∧ c = importTotal then 5000 else 0 }

def decemberFram : Device := ⟨fun _ => 0, storeEnergyNVR (stamp december decemberRecord)⟩

private theorem loads_december :
    loadEnergyNVR decemberFram.cells = some (stamp december decemberRecord) := by
  have copy : firstCopy decemberFram.cells = image (stamp december decemberRecord) := by
    rw [decemberFram, Device.cells_mk, firstCopy_store]
  have ok : Loadable decemberRecord := by decide +kernel
  exact loadEnergyNVR_first copy (stamp_crcOk _ _) (loadable_stamp ok)

private theorem booted_december : (boot (F := Rat) december decemberFram).egyNvr =
    stamp december (stamp december decemberRecord) :=
  boot_sameMonth loads_december rfl

private theorem january_other : yearMonth january ≠ yearMonth december ∧
    (uLocalTime december).tmMon ≠ (uLocalTime january).tmMon := by
  decide +kernel

private theorem month_end_clean {s : Sys Rat} (fresh : (s.meter 0).energyInit = false)
    (ts : s.egyNvr.ts = december) (shown : ∀ id, (s.meter id).ereg32 = displayed s.egyNvr id) :
    Along step Clean (opening s)
      [.scan 0 quiet noEnergy, .tick january, .scan 0 quiet noEnergy] := by
  refine ⟨fun init => absurd (init.symm.trans fresh) (by decide), trivial, fun _ => ?_, trivial⟩
  simp only [step, Event.toEnergy, Persist.step, energyScan, opening, fresh, Bool.false_eq_true,
    if_false]
  have units := scanUnits_zero 0 no_deltas
    { s.setMeter 0 fun m => { m with energyInit := true } with sysTick1s := january }
  have state := updateEhAll_zero 0 no_deltas
    (0, { s.setMeter 0 fun m => { m with energyInit := true } with sysTick1s := january })
  have changed : MonthChanged
      { s.setMeter 0 fun m => { m with energyInit := true } with sysTick1s := january } := by
    rw [MonthChanged, setMeter_egyNvr, ts]
    exact january_other.2
  refine ⟨fun c => ?_, fun _ => changed, fun _ j c => ?_, fun _ => .inl ?_⟩
  · rw [units]
    exact (s.egyNvr.monthWh 0 c).toNat_lt
  · rw [state]
    dsimp only
    rw [setMeter_meter, setMeter_egyNvr]
    split
    · rename_i same
      rw [same, shown]
      rfl
    · rw [shown]
      rfl
  · have bit : (0 + rolloverFlag) &&& rolloverFlag ≠ 0 := by decide
    rw [state]
    exact bit

/-- The month ends while the meter runs: the display is current and the rollover is saved. -/
theorem month_end_kept : Keeps (run step (opening (boot december decemberFram))
    [.scan 0 quiet noEnergy, .tick january, .scan 0 quiet noEnergy]) := by
  have fresh := boot_energyInit (F := Rat) december decemberFram 0
  have ts : (boot (F := Rat) december decemberFram).egyNvr.ts = december := by
    rw [booted_december, stamp_ts]
  have shown := boot_displayed (F := Rat) december decemberFram
  exact clean_run_keeps_book december decemberFram _ (month_end_clean fresh ts shown)

private theorem reboot_drops_month {s : Sys Rat}
    (loads : loadEnergyNVR s.fram.cells = some s.egyNvr) (ts : s.egyNvr.ts = december)
    (month : s.egyNvr.monthWh 0 importTotal = 5000) :
    ¬ Keeps (step (opening s) (.reboot january)) := by
  intro kept
  have agrees := kept.shows_live.reported 0 importTotal
  have noticed : (uLocalTime s.egyNvr.ts).tmMon ≠ (uLocalTime january).tmMon := by
    rw [ts]
    exact january_other.2
  have other : yearMonth january ≠ (opening s).journal.saved.period := by
    rw [opening, Book.opening, ts]
    exact january_other.1
  have cleared := boot_otherMonth (F := Rat) loads noticed
  have fram : (opening s).sys.fram = s.fram := rfl
  rw [step_reboot, fram, cleared, stamp_ereg32Last, Journal.restart, Journal.commit,
    observe_other _ other] at agrees
  dsimp only [Book.close, opening, Book.opening] at agrees
  rw [month] at agrees
  have reported : (0 : Nat) = 5000 / 100 := agrees
  omega

/-- The month ends while the meter is off: the finished month is reported as zero. -/
theorem month_end_lost : ¬ Keeps (run step (opening (boot (F := Rat) december decemberFram))
    [.reboot january]) := by
  have loads := loads_boot (F := Rat) december decemberFram
  have record := booted_december
  rw [run_cons, run_nil]
  exact reboot_drops_month loads (by rw [record, stamp_ts])
    (by rw [record, stamp_monthWh, stamp_monthWh]; decide)

end SV300.Energy.Month
