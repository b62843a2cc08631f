/- SV300/Modbus/Commands
   digest: What each queued command sets, and the scans that clear the lists and counters for it. -/

import Mathlib.Data.Rat.Defs
import SV300.Library.Mailbox
import SV300.Modbus.CmdQueue

set_option autoImplicit false
set_option relaxedAutoImplicit false

namespace SV300.Modbus.Commands

open SV300.Library SV300.Library.Runs SV300.Library.Mailbox SV300.Modbus.Map
open SV300.Modbus.CmdQueue (Cmd)

/-- `rstDemand`, `rstMaxMin`, `rstEgy`, `rstAlmList`, `rstEvtList` and `rstIticList`. -/
inductive Clear
  | demand
  | maxMin
  | energy
  | alarm
  | event
  | itic
  deriving DecidableEq

/-- What the commands store; `calibrations` lists the calls of `calibration`. -/
structure Control where
  rst : Clear → Channel → UInt16
  rebootFlag : UInt16
  saveSetting : UInt16
  factReset : UInt16
  vref : ℚ
  iref : ℚ
  inref : ℚ
  tref : ℚ
  piData : List UInt32
  alarmSts : UInt16
  eventSts : UInt16
  calibrations : List (Channel × UInt16)

def setRst (c : Clear) (ch : Channel) (cmd : UInt16) (k : Control) : Control :=
  { k with rst := Function.update k.rst c (Function.update (k.rst c) ch cmd) }

def clearDemand := setRst .demand
def clearMinMax := setRst .maxMin
def clearEnergy := setRst .energy
def clearAlarm := setRst .alarm
def clearEventListCmd := setRst .event
def clearIticList := setRst .itic

def calibration (ch : Channel) (cmd : UInt16) (k : Control) : Control :=
  { k with calibrations := k.calibrations ++ [(ch, cmd)] }

def reqReboot (cmd : UInt16) (k : Control) : Control := { k with rebootFlag := cmd }
def reqSaveSettings (cmd : UInt16) (k : Control) : Control := { k with saveSetting := cmd }
def reqFactoryReset (cmd : UInt16) (k : Control) : Control := { k with factReset := cmd }

/-- The base address means every channel, the three after it one each. -/
def dispatchMeterChCmd (base addr : Int) (cmd : UInt16)
    (fn : Channel → UInt16 → Control → Control) (k : Control) : Control :=
  if addr = base then fn 2 cmd (fn 1 cmd (fn 0 cmd k))
  else
    let ch := addr - base - 1
    if 0 ≤ ch ∧ ch < 3 then fn (Fin.ofNat 3 ch.toNat) cmd k else k

/-- `cmdProc` with a command out of the queue. -/
def cmdProc (k : Control) (x : Cmd) : Control :=
  let addr : Int := x.1 - mbadSetCmd
  let c := x.2
  if addr = 0 then reqReboot c k
  else if addr = 1 then reqSaveSettings c k
  else if 2 ≤ addr ∧ addr ≤ 5 then dispatchMeterChCmd 2 addr c calibration k
  else if addr = 12 then { k with vref := c.toNat }
  else if addr = 13 then { k with iref := c.toNat / 10 }
  else if addr = 14 then { k with inref := c.toNat / 10 }
  else if addr = 15 then { k with tref := c.toNat }
  else if addr = 16 then reqFactoryReset c k
  else if addr = 17 then { k with piData := [0, 0, 0, 0] }
  else if 18 ≤ addr ∧ addr ≤ 21 then dispatchMeterChCmd 18 addr c clearDemand k
  else if 22 ≤ addr ∧ addr ≤ 25 then dispatchMeterChCmd 22 addr c clearMinMax k
  else if 26 ≤ addr ∧ addr ≤ 29 then dispatchMeterChCmd 26 addr c clearEnergy k
  else if 30 ≤ addr ∧ addr ≤ 33 then dispatchMeterChCmd 30 addr c clearAlarm k
  else if 34 ≤ addr ∧ addr ≤ 37 then dispatchMeterChCmd 34 addr c clearEventListCmd k
  else if 46 ≤ addr ∧ addr ≤ 49 then { k with alarmSts := 0 }
  else if 50 ≤ addr ∧ addr ≤ 53 then { k with eventSts := 0 }
  else if addr = 56 then clearIticList 0 c k
  else k

/-- The offset of the command register for every channel. -/
def Clear.base : Clear → Nat
  | .demand => 18
  | .maxMin => 22
  | .energy => 26
  | .alarm => 30
  | .event => 34
  | .itic => 56

/-- A command register, by its offset, concerns a channel; the one of the ITIC lists concerns the
first channel alone. -/
def Clear.At (c : Clear) (ch : Channel) (addr : Int) : Prop :=
  match c with
  | .itic => addr = c.base ∧ ch = 0
  | _ => addr = c.base ∨ addr = c.base + 1 + ch.val

instance atDecidable : (c : Clear) → (ch : Channel) → (addr : Int) → Decidable (c.At ch addr)
  | .itic, _, _ => inferInstanceAs (Decidable (_ ∧ _))
  | .demand, _, _ | .maxMin, _, _ | .energy, _, _ | .alarm, _, _ | .event, _, _ =>
    inferInstanceAs (Decidable (_ ∨ _))

def Clear.Addressed (c : Clear) (ch : Channel) (address : Nat) : Prop :=
  c.At ch ((address : Int) - mbadSetCmd)

instance addressedDecidable (c : Clear) (ch : Channel) (address : Nat) :
    Decidable (c.Addressed ch address) :=
  atDecidable c ch _

/-- The values that the scans act on; the energy scan takes an edit as well. -/
def Clear.commands : Clear → List UInt16
  | .energy => [0x1234, 0x5678]
  | _ => [0x1234]

def Clear.known (c : Clear) (v : UInt16) : Bool := v ∈ c.commands

private theorem setRst_rst (c d : Clear) (ch i : Channel) (cmd : UInt16) (k : Control) :
    (setRst c ch cmd k).rst d i = if d = c ∧ i = ch then cmd else k.rst d i := by
  by_cases same : d = c
  · subst same
    simp [setRst, Function.update_apply]
  · simp [setRst, same]

private theorem dispatch_rst (base addr : Int) (cmd : UInt16) (c d : Clear) (i : Channel)
    (k : Control) :
    (dispatchMeterChCmd base addr cmd (setRst c) k).rst d i =
      if d = c ∧ (addr = base ∨ addr = base + 1 + i.val) then cmd else k.rst d i := by
  have few := i.isLt
  unfold dispatchMeterChCmd
  by_cases all : addr = base
  · have one : i = 2 ∨ i = 1 ∨ i = 0 := by
      revert i
      decide
    rw [if_pos all]
    simp only [setRst_rst, all, true_or, and_true]
    by_cases same : d = c
    · rcases one with rfl | rfl | rfl <;> simp [same]
    · simp [same]
  · rw [if_neg all]
    dsimp only
    by_cases inside : 0 ≤ addr - base - 1 ∧ addr - base - 1 < 3
    · have here : i = Fin.ofNat 3 (addr - base - 1).toNat ↔ addr = base + 1 + i.val := by
        rw [Fin.ext_iff, Fin.val_ofNat, Nat.mod_eq_of_lt (by omega)]
        omega
      rw [if_pos inside, setRst_rst]
      simp only [here, all, false_or]
    · have outside : ¬ (d = c ∧ (addr = base ∨ addr = base + 1 + i.val)) := by omega
      rw [if_neg inside, if_neg outside]

private theorem not_at {addr : Int} (outside : addr < 18 ∨ 37 < addr ∧ addr ≠ 56) (c : Clear)
    (ch : Channel) : ¬ c.At ch addr := by
  have few := ch.isLt
  cases c <;> simp only [Clear.At, Clear.base] <;> omega

private theorem at_iff {d : Clear} {addr : Int} (many : d ≠ .itic) (low : d.base ≤ addr)
    (high : addr ≤ d.base + 3) (c : Clear) (ch : Channel) :
    c.At ch addr ↔ c = d ∧ (addr = d.base ∨ addr = d.base + 1 + ch.val) := by
  have few := ch.isLt
  constructor
  · intro here
    have same : c = d := by
      cases c <;> cases d <;> simp only [Clear.At, Clear.base] at here low high <;>
        first | rfl | omega
    subst same
    cases c <;> first | exact ⟨rfl, here⟩ | exact absurd rfl many
  · rintro ⟨rfl, here⟩
    cases c <;> first | exact here | exact absurd rfl many

private theorem of_ite {α : Type} {g : Control → α} {p : Prop} [Decidable p] {a b : Control} {v : α}
    (yes : p → g a = v) (no : ¬ p → g b = v) : g (if p then a else b) = v := by
  by_cases h : p
  · rw [if_pos h, yes h]
  · rw [if_neg h, no h]

private theorem dispatch_other {α : Type} {g : Control → α}
    (fn : Channel → UInt16 → Control → Control)
    (other : ∀ ch cmd k, g (fn ch cmd k) = g k) (base addr : Int) (cmd : UInt16) (k : Control) :
    g (dispatchMeterChCmd base addr cmd fn k) = g k := by
  unfold dispatchMeterChCmd
  refine of_ite (fun all => ?_) fun one => of_ite (fun inside => ?_) fun outside => rfl
  · rw [other, other, other]
  · rw [other]

private theorem calibration_rst (base addr : Int) (cmd : UInt16) (k : Control) :
    (dispatchMeterChCmd base addr cmd calibration k).rst = k.rst :=
  dispatch_other (g := Control.rst) calibration (fun _ _ _ => rfl) base addr cmd k

private theorem cmdProc_rst (k : Control) (x : Cmd) (c : Clear) (ch : Channel) :
    (cmdProc k x).rst c ch = if c.Addressed ch x.1 then x.2 else k.rst c ch := by
  change _ = if c.At ch ((x.1 : Int) - mbadSetCmd) then x.2 else k.rst c ch
  unfold cmdProc
  generalize (x.1 : Int) - mbadSetCmd = addr
  have other {j : Control} (same : j.rst = k.rst) (outside : addr < 18 ∨ 37 < addr ∧ addr ≠ 56) :
      j.rst c ch = if c.At ch addr then x.2 else k.rst c ch := by
    rw [same, if_neg (not_at outside c ch)]
  have many {d : Clear} (some_ : d ≠ .itic) (here : d.base ≤ addr ∧ addr ≤ d.base + 3) :
      (dispatchMeterChCmd d.base addr x.2 (setRst d) k).rst c ch =
        if c.At ch addr then x.2 else k.rst c ch := by
    rw [dispatch_rst]
    exact if_congr (at_iff some_ here.1 here.2 c ch).symm rfl rfl
  refine of_ite (g := fun k => k.rst c ch) (fun h => other rfl (by omega)) fun h0 => ?_
  refine of_ite (g := fun k => k.rst c ch) (fun h => other rfl (by omega)) fun h1 => ?_
  refine of_ite (g := fun k => k.rst c ch) (fun h => other (calibration_rst _ _ _ _) (by omega)) fun h2 => ?_
  refine of_ite (g := fun k => k.rst c ch) (fun h => other rfl (by omega)) fun h12 => ?_
  refine of_ite (g := fun k => k.rst c ch) (fun h => other rfl (by omega)) fun h13 => ?_
  refine of_ite (g := fun k => k.rst c ch) (fun h => other rfl (by omega)) fun h14 => ?_
  refine of_ite (g := fun k => k.rst c ch) (fun h => other rfl (by omega)) fun h15 => ?_
  refine of_ite (g := fun k => k.rst c ch) (fun h => other rfl (by omega)) fun h16 => ?_
  refine of_ite (g := fun k => k.rst c ch) (fun h => other rfl (by omega)) fun h17 => ?_
  refine of_ite (g := fun k => k.rst c ch) (many (d := .demand) Clear.noConfusion) fun h18 => ?_
  refine of_ite (g := fun k => k.rst c ch) (many (d := .maxMin) Clear.noConfusion) fun h22 => ?_
  refine of_ite (g := fun k => k.rst c ch) (many (d := .energy) Clear.noConfusion) fun h26 => ?_
  refine of_ite (g := fun k => k.rst c ch) (many (d := .alarm) Clear.noConfusion) fun h30 => ?_
  refine of_ite (g := fun k => k.rst c ch) (many (d := .event) Clear.noConfusion) fun h34 => ?_
  refine of_ite (g := fun k => k.rst c ch) (fun h => other rfl (by omega)) fun h46 => ?_
  refine of_ite (g := fun k => k.rst c ch) (fun h => other rfl (by omega)) fun h50 => ?_
  refine of_ite (g := fun k => k.rst c ch) (fun h56 => ?_) fun h56 => other rfl (by omega)
  have here : c.At ch addr ↔ c = .itic ∧ ch = 0 := by
    rw [h56]
    have few := ch.isLt
    cases c <;> simp only [Clear.At, Clear.base, reduceCtorEq, false_and, iff_false] <;> simp
    all_goals omega
  rw [clearIticList, setRst_rst]
  exact if_congr here.symm rfl rfl

theorem cmdProc_saveSetting (k : Control) (x : Cmd) :
    (cmdProc k x).saveSetting = if x.1 = mbadSetCmd + 1 then x.2 else k.saveSetting := by
  have place : x.1 = mbadSetCmd + 1 ↔ (x.1 : Int) - mbadSetCmd = 1 := by omega
  simp only [place]
  unfold cmdProc
  generalize (x.1 : Int) - mbadSetCmd = addr
  have other {j : Control} (same : j.saveSetting = k.saveSetting) (outside : addr ≠ 1) :
      j.saveSetting = if addr = 1 then x.2 else k.saveSetting := by
    rw [same, if_neg outside]
  have many (c : Clear) (base : Int) (outside : addr ≠ 1) :
      (dispatchMeterChCmd base addr x.2 (setRst c) k).saveSetting =
        if addr = 1 then x.2 else k.saveSetting :=
    other (dispatch_other (g := Control.saveSetting) (setRst c) (fun _ _ _ => rfl) ..) outside
  refine of_ite (g := Control.saveSetting) (fun h => other rfl (by omega)) fun h0 => ?_
  refine of_ite (g := Control.saveSetting) (fun h => (if_pos h).symm) fun h1 => ?_
  refine of_ite (g := Control.saveSetting) (fun h => ?_) fun h2 => ?_
  · exact other (dispatch_other (g := Control.saveSetting) calibration (fun _ _ _ => rfl) ..) h1
  refine of_ite (g := Control.saveSetting) (fun h => other rfl h1) fun h12 => ?_
  refine of_ite (g := Control.saveSetting) (fun h => other rfl h1) fun h13 => ?_
  refine of_ite (g := Control.saveSetting) (fun h => other rfl h1) fun h14 => ?_
  refine of_ite (g := Control.saveSetting) (fun h => other rfl h1) fun h15 => ?_
  refine of_ite (g := Control.saveSetting) (fun h => other rfl h1) fun h16 => ?_
  refine of_ite (g := Control.saveSetting) (fun h => other rfl h1) fun h17 => ?_
  refine of_ite (g := Control.saveSetting) (fun h => many _ _ h1) fun h18 => ?_
  refine of_ite (g := Control.saveSetting) (fun h => many _ _ h1) fun h22 => ?_
  refine of_ite (g := Control.saveSetting) (fun h => many _ _ h1) fun h26 => ?_
  refine of_ite (g := Control.saveSetting) (fun h => many _ _ h1) fun h30 => ?_
  refine of_ite (g := Control.saveSetting) (fun h => many _ _ h1) fun h34 => ?_
  refine of_ite (g := Control.saveSetting) (fun h => other rfl h1) fun h46 => ?_
  refine of_ite (g := Control.saveSetting) (fun h => other rfl h1) fun h50 => ?_
  exact of_ite (g := Control.saveSetting) (fun h => other rfl h1) fun h56 => other rfl h1

/-- The control words and, for each flag, where its scan is and what has been ordered and done. -/
structure Sys where
  control : Control
  phase : Clear → Channel → Phase UInt16
  owed : Clear → Channel → Option UInt16
  told : Clear → Channel → Nat
  begun : Clear → Channel → Nat

/-- A command comes out of the queue, `checkMaxMinItv` finds a new period, or a scan makes a step:
it tests a flag for a command, clears it, and begins the clearing or the edit. -/
inductive Event
  | deliver (x : Cmd)
  | period (ch : Channel)
  | scan (c : Clear) (ch : Channel) (v : UInt16)

def Sys.box (o : Sys) (c : Clear) (ch : Channel) : Box UInt16 :=
  ⟨o.control.rst c ch, o.phase c ch, o.owed c ch, o.told c ch, o.begun c ch⟩

def Sys.setBox (o : Sys) (c : Clear) (ch : Channel) (b : Box UInt16) : Sys where
  control := setRst c ch b.cell o.control
  phase := Function.update o.phase c (Function.update (o.phase c) ch b.phase)
  owed := Function.update o.owed c (Function.update (o.owed c) ch b.owed)
  told := Function.update o.told c (Function.update (o.told c) ch b.told)
  begun := Function.update o.begun c (Function.update (o.begun c) ch b.begun)

def deliver (o : Sys) (x : Cmd) : Sys :=
  { o with
    control := cmdProc o.control x
    owed := fun c ch =>
      if c.Addressed ch x.1 then (if c.known x.2 then some x.2 else none) else o.owed c ch
    told := fun c ch => o.told c ch + if c.Addressed ch x.1 then (c.known x.2).toNat else 0 }

def step (o : Sys) : Event → Sys
  | .deliver x => deliver o x
  | .period ch => o.setBox .maxMin ch (post Clear.maxMin.known (o.box .maxMin ch) 0x1234)
  | .scan c ch v => o.setBox c ch (scan c.known 0 (o.box c ch) v)

def concerns (c : Clear) (ch : Channel) : Event → Option (Mailbox.Event UInt16)
  | .deliver x => if c.Addressed ch x.1 then some (.post x.2) else none
  | .period i => if c = .maxMin ∧ ch = i then some (.post 0x1234) else none
  | .scan d i v => if c = d ∧ ch = i then some (.scan v) else none

private theorem setBox_box (o : Sys) (c d : Clear) (ch i : Channel) (b : Box UInt16) :
    (o.setBox d i b).box c ch = if c = d ∧ ch = i then b else o.box c ch := by
  by_cases same : c = d ∧ ch = i
  · obtain ⟨rfl, rfl⟩ := same
    rw [if_pos ⟨rfl, rfl⟩]
    ext <;> simp [Sys.box, Sys.setBox, setRst]
  · rw [if_neg same]
    by_cases kind : c = d
    · subst kind
      have other : ch ≠ i := fun channel => same ⟨rfl, channel⟩
      ext <;> simp [Sys.box, Sys.setBox, setRst, other]
    · ext <;> simp [Sys.box, Sys.setBox, setRst, kind]

private theorem deliver_box (o : Sys) (x : Cmd) (c : Clear) (ch : Channel) :
    (deliver o x).box c ch =
      if c.Addressed ch x.1 then post c.known (o.box c ch) x.2 else o.box c ch := by
  by_cases here : c.Addressed ch x.1
  · rw [if_pos here]
    ext <;> simp [Sys.box, deliver, post, cmdProc_rst, here]
  · rw [if_neg here]
    ext <;> simp [Sys.box, deliver, cmdProc_rst, here]

private theorem step_box (c : Clear) (ch : Channel) (o : Sys) (e : Event) :
    (step o e).box c ch =
      (concerns c ch e).elim (o.box c ch) (Mailbox.step c.known 0 (o.box c ch)) := by
  cases e with
  | deliver x =>
    change (deliver o x).box c ch = _
    rw [deliver_box, concerns]
    split <;> rfl
  | period i =>
    change (o.setBox .maxMin i _).box c ch = _
    rw [setBox_box, concerns]
    split
    · next same => obtain ⟨rfl, rfl⟩ := same; rfl
    · rfl
  | scan d i v =>
    change (o.setBox d i _).box c ch = _
    rw [setBox_box, concerns]
    split
    · next same => obtain ⟨rfl, rfl⟩ := same; rfl
    · rfl

theorem run_boxes (o : Sys) (es : List Event) (c : Clear) (ch : Channel) :
    (run step o es).box c ch =
      run (Mailbox.step c.known 0) (o.box c ch) (es.filterMap (concerns c ch)) :=
  run_box (fun o => o.box c ch) (step_box c ch) o es

/-- The tests, with what follows one that finds its command, that a task goes through. -/
def round (c : Clear) (ch : Channel) : List Event :=
  c.commands.flatMap fun v => List.replicate 3 (.scan c ch v)

/-- The last order is carried out by a clearing that begins after it: while its scan is between
rounds it is owed only until the next round, and it is not owed once the flag is no order.  No
clearing begins without an order. -/
structure Obeyed (o : Sys) (c : Clear) (ch : Channel) : Prop where
  served : o.phase c ch = .idle → c.known (o.control.rst c ch) = false → o.owed c ch = none
  soon : o.phase c ch = .idle → (run step o (round c ch)).owed c ch = none
  ordered : o.begun c ch ≤ o.told c ch

/-- Between the energy scan's test of a flag and its clearing no other order comes for it. -/
def Steady (ch : Channel) (o : Sys) : Event → Prop
  | .deliver x =>
    Clear.energy.Addressed ch x.1 → x.2 ∈ Clear.energy.commands →
      ∀ w, o.phase .energy ch = .found w → x.2 = w
  | _ => True

/-- Nothing ordered yet. -/
def Fresh (o : Sys) : Prop :=
  ∀ c ch, o.control.rst c ch = 0 ∧ o.phase c ch = .idle ∧ o.owed c ch = none ∧ o.begun c ch = 0

private theorem known_zero (c : Clear) : c.known 0 = false := by
  cases c <;> decide

private theorem known_one {c : Clear} (other : c ≠ .energy) (v : UInt16)
    (known : c.known v = true) :
    v = 0x1234 := by
  have member : v ∈ c.commands := of_decide_eq_true known
  cases c <;> first | exact List.mem_singleton.mp member | exact absurd rfl other

private theorem idle_of_steady {ch : Channel} {o : Sys} {es : List Event}
    (steady : Along step (Steady ch) o es) :
    Along (Mailbox.step Clear.energy.known 0) (Mailbox.Steady Clear.energy.known)
      (o.box .energy ch) (es.filterMap (concerns .energy ch)) := by
  induction es generalizing o with
  | nil => trivial
  | cons e es ih =>
    have rest := ih steady.2
    rw [step_box] at rest
    cases part : concerns .energy ch e with
    | none =>
      rw [part] at rest
      rwa [List.filterMap_cons_none part]
    | some f =>
      rw [part] at rest
      rw [List.filterMap_cons_some part]
      refine ⟨?_, rest⟩
      cases e with
      | deliver x =>
        by_cases here : Clear.energy.Addressed ch x.1
        · rw [concerns, if_pos here] at part
          cases part
          intro known w found
          exact steady.1 here (of_decide_eq_true known) w found
        · rw [concerns, if_neg here] at part
          cases part
      | period i =>
        rw [concerns, if_neg fun both => Clear.noConfusion both.1] at part
        cases part
      | scan d i v =>
        rw [concerns] at part
        split at part
        · cases part
          trivial
        · cases part

private theorem round_concerns (c : Clear) (ch : Channel) :
    (round c ch).filterMap (concerns c ch) = c.commands.flatMap visit := by
  rw [round, List.filterMap_flatMap]
  refine congrArg (c.commands.flatMap ·) (funext fun v => ?_)
  have one : concerns c ch (.scan c ch v) = some (.scan v) := if_pos ⟨rfl, rfl⟩
  rw [List.filterMap_replicate_of_some one, visit]

/-- In every order of commands, periods and scans, every order to clear is obeyed. -/
theorem commands_obeyed {o : Sys} (fresh : Fresh o) (es : List Event) (c : Clear) (ch : Channel)
    (steady : c = .energy → Along step (Steady ch) o es) : Obeyed (run step o es) c ch := by
  obtain ⟨zero, idle, nothing, none⟩ := fresh c ch
  have quiet : Along (Mailbox.step c.known 0) (Mailbox.Steady c.known) (o.box c ch)
      (es.filterMap (concerns c ch)) := by
    by_cases energy : c = .energy
    · subst energy
      exact idle_of_steady (steady rfl)
    · refine steady_of_one (known_one energy) fun w found => ?_
      cases idle.symm.trans found
  have start : Pending (o.box c ch) (o.box c ch).phase := by
    change Pending (o.box c ch) (o.phase c ch)
    rw [idle]
    intro v member
    rw [Sys.box, nothing] at member
    cases member
  have given : ∀ u ∈ (o.box c ch).owed, c.known u = true := by
    intro u member
    rw [Sys.box, nothing] at member
    cases member
  have pending := pending_run start quiet
  have known := known_run 0 given (es.filterMap (concerns c ch))
  rw [← run_boxes] at pending known
  refine ⟨fun rest unknown => ?_, fun rest => ?_, ?_⟩
  · change Pending _ ((run step o es).phase c ch) at pending
    rw [rest] at pending
    refine Option.eq_none_iff_forall_ne_some.mpr fun v owed => ?_
    have cell : (run step o es).control.rst c ch = v := pending v owed
    rw [cell, known v owed] at unknown
    exact Bool.noConfusion unknown
  · change Pending _ ((run step o es).phase c ch) at pending
    rw [rest] at pending
    have left := round_owed 0 rest pending known c.commands
    rw [← round_concerns c ch, ← run_boxes] at left
    refine Option.eq_none_iff_forall_ne_some.mpr fun v owed => ?_
    have given : v ∈ c.commands := of_decide_eq_true (known v (left v owed).2)
    exact (left v owed).1 given
  · have room : (o.box c ch).begun + claim c.known (o.box c ch) (o.box c ch).phase ≤
        (o.box c ch).told := by
      change o.begun c ch + claim c.known (o.box c ch) (o.phase c ch) ≤ _
      rw [idle, none, claim, Sys.box, zero, known_zero]
      exact Nat.zero_le _
    have less := claim_run (known_zero c) room (es.filterMap (concerns c ch))
    rwa [← run_boxes] at less

def started : Sys where
  control := ⟨fun _ _ => 0, 0, 0, 0, 0, 0, 0, 0, [0, 0, 0, 0], 0, 0, []⟩
  phase := fun _ _ => .idle
  owed := fun _ _ => none
  told := fun _ _ => 0
  begun := fun _ _ => 0

private theorem fresh_started : Fresh started := fun _ _ => ⟨rfl, rfl, rfl, rfl⟩

/-- An edit of the energies of the second channel while those of all channels are being cleared. -/
theorem commands_obeyed_edit :
    let es : List Event := [.deliver (7824, 0x1234), .scan .energy 1 0x1234, .scan .energy 1 0x1234,
      .deliver (7826, 0x5678)]
    (run step started es).begun .energy 1 = 0 ∧ Obeyed (run step started es) .energy 1 := by
  refine ⟨by decide, commands_obeyed fresh_started _ .energy 1 fun _ => ?_⟩
  refine ⟨fun _ _ w found => ?_, trivial, trivial, fun _ _ w found => ?_, trivial⟩
  · cases found
  · have cleared : (run step started [.deliver (7824, 0x1234), .scan .energy 1 0x1234,
        .scan .energy 1 0x1234]).phase .energy 1 = .taken 0x1234 := by decide
    cases cleared.symm.trans found

end SV300.Modbus.Commands
