/- SV300/Watchdog/Monitor
   digest: The task monitor's silence counters and the runs in which it notices a silent task. -/

import Mathlib.Data.Fintype.Basic
import Mathlib.Logic.Function.Basic
import SV300.Library.Literals
import SV300.Library.Runs

set_option autoImplicit false
set_option relaxedAutoImplicit false

namespace SV300.Watchdog.Monitor

open SV300.Library.Runs

/-- `WDT_DATA`. -/
structure WdtData where
  enable : UInt8
  errCnt : UInt8
  count : UInt16
  limit : UInt16

abbrev Task := Fin 32

structure Cntl where
  wdtEn : UInt16
  runFlag : UInt16
  wdtTbl : Task → WdtData

/-- What the monitor does to the hardware watchdog. -/
inductive Board
  | enable | clear
  deriving DecidableEq

/-- `_enableTaskMonitor`: the limit is cut to 16 bits. -/
def enableTaskMonitor (c : Cntl) (id : Task) (limit : Int) : Cntl :=
  let w := { c.wdtTbl id with enable := 1, limit := UInt16.ofInt limit }
  { c with wdtTbl := Function.update c.wdtTbl id w }

/-- A task's own `count++`. -/
def countUp (c : Cntl) (id : Task) : Cntl :=
  let w := { c.wdtTbl id with count := (c.wdtTbl id).count + 1 }
  { c with wdtTbl := Function.update c.wdtTbl id w }

/-- The body of the loop: an entry after it, and whether it is an error. -/
def look (w : WdtData) : WdtData × Bool :=
  if w.enable = 0 then (w, false)
  else if w.count = 0 then
    let errCnt := w.errCnt + 1
    ({ w with errCnt := errCnt }, decide (errCnt.toNat > w.limit.toNat))
  else ({ w with count := 0, errCnt := 0 }, false)

def wdtError (c : Cntl) : Nat := (List.finRange 32).countP fun i => (look (c.wdtTbl i)).2

/-- `taskMonitor`: the state after it, what it does to the watchdog, and whether it reports an
error in `DEV_sts`, where it does write it. -/
def taskMonitor (c : Cntl) : Cntl × Option Board × Option Bool :=
  if c.wdtEn = 0 then (c, if c.runFlag = 0 then some .enable else none, none)
  else
    ({ c with wdtTbl i := (look (c.wdtTbl i)).1 },
      if wdtError c = 0 ∧ c.runFlag ≠ 0 then some .clear else none, some (decide (wdtError c ≠ 0)))

/-- For each task, how often it has counted since the monitor last looked at it, and at how many
looks in a row it had not counted. -/
structure Watch where
  active : Task → Nat
  silent : Task → Nat

structure Sys where
  cntl : Cntl
  watch : Watch

inductive Event
  | count (id : Task)
  | enable (id : Task) (limit : Int)
  | tick

def Enabled (s : Sys) (i : Task) : Prop := (s.cntl.wdtTbl i).enable ≠ 0

instance (s : Sys) (i : Task) : Decidable (Enabled s i) := inferInstanceAs (Decidable (_ ≠ _))

instance (e : Event) : Decidable (e = .tick) :=
  match e with
  | .count _ => .isFalse nofun
  | .enable _ _ => .isFalse nofun
  | .tick => .isTrue rfl

/-- For how many ticks in a row, this one included, a task is silent if the monitor looks now. -/
def silence (s : Sys) (i : Task) : Nat :=
  if s.watch.active i = 0 then s.watch.silent i + 1 else 0

def observe (s : Sys) : Event → Watch
  | .count id => { s.watch with active := Function.update s.watch.active id (s.watch.active id + 1) }
  | .enable _ _ => s.watch
  | .tick =>
    { active i := if Enabled s i then 0 else s.watch.active i
      silent i := if Enabled s i then silence s i else s.watch.silent i }

def move (c : Cntl) : Event → Cntl
  | .count id => countUp c id
  | .enable id limit => enableTaskMonitor c id limit
  | .tick => (taskMonitor c).1

def step (s : Sys) (e : Event) : Sys := ⟨move s.cntl e, observe s e⟩

/-- The meter runs, the watchdog is enabled and no task has registered yet. -/
def start : Sys := ⟨⟨1, 1, fun _ => ⟨0, 0, 0, 0⟩⟩, ⟨fun _ => 0, fun _ => 0⟩⟩

/-- A monitored task has been silent for more ticks than its limit. -/
def Late (s : Sys) (i : Task) : Prop := Enabled s i ∧ (s.cntl.wdtTbl i).limit.toNat < silence s i

instance (s : Sys) (i : Task) : Decidable (Late s i) := inferInstanceAs (Decidable (_ ∧ _))

/-- A tick clears the hardware watchdog exactly if no task is late. -/
def Law (s : Sys) (e : Event) : Prop :=
  e = .tick → ((taskMonitor s.cntl).2.1 = some .clear ↔ ∀ i, ¬ Late s i)

/-- Whenever a task is late, some task is late by its silent ticks modulo 256. -/
def Noticed (s : Sys) (e : Event) : Prop :=
  e = .tick → (∃ i, Late s i) →
    ∃ i, Enabled s i ∧ (s.cntl.wdtTbl i).limit.toNat < silence s i % 256

/-- No task has counted a multiple of 65536 times between two looks, unless it has not counted. -/
def Unwrapped (s : Sys) (e : Event) : Prop :=
  e = .tick → ∀ i, Enabled s i → s.watch.active i % 65536 = 0 → s.watch.active i = 0

instance (s : Sys) (e : Event) : Decidable (Noticed s e) := inferInstanceAs (Decidable (_ → _))

instance (s : Sys) (e : Event) : Decidable (Unwrapped s e) := inferInstanceAs (Decidable (_ → _))

structure Inv (s : Sys) : Prop where
  on : s.cntl.wdtEn ≠ 0
  running : s.cntl.runFlag ≠ 0
  count : ∀ i, (s.cntl.wdtTbl i).count.toNat = s.watch.active i % 65536
  errCnt : ∀ i, (s.cntl.wdtTbl i).errCnt.toNat = s.watch.silent i % 256

private theorem inv_start : Inv start := ⟨by decide, by decide, fun _ => rfl, fun _ => rfl⟩

private theorem taskMonitor_on {c : Cntl} (on : c.wdtEn ≠ 0) : taskMonitor c =
    ({ c with wdtTbl i := (look (c.wdtTbl i)).1 },
      if wdtError c = 0 ∧ c.runFlag ≠ 0 then some .clear else none,
      some (decide (wdtError c ≠ 0))) :=
  if_neg on

theorem look_spec {s : Sys} (inv : Inv s) {i : Task} (enabled : Enabled s i)
    (unwrapped : s.watch.active i % 65536 = 0 → s.watch.active i = 0) :
    (look (s.cntl.wdtTbl i)).1.count = 0 ∧
      (look (s.cntl.wdtTbl i)).1.errCnt.toNat = silence s i % 256 ∧
      ((look (s.cntl.wdtTbl i)).2 = true ↔
        (s.cntl.wdtTbl i).limit.toNat < silence s i % 256) := by
  have count := inv.count i
  have errCnt := inv.errCnt i
  have one : (1 : UInt8).toNat = 1 := rfl
  unfold look silence
  rw [if_neg enabled]
  by_cases idle : (s.cntl.wdtTbl i).count = 0
  · have zero : s.watch.active i = 0 := by
      apply unwrapped
      rw [← count, idle]
      rfl
    have next : ((s.cntl.wdtTbl i).errCnt + 1).toNat = (s.watch.silent i + 1) % 256 := by
      rw [UInt8.toNat_add, errCnt, one, Nat.mod_add_mod]
    rw [if_pos idle, if_pos zero]
    refine ⟨idle, next, ?_⟩
    dsimp only
    rw [decide_eq_true_iff, next]
  · have some : s.watch.active i ≠ 0 := by
      intro zero
      apply idle
      apply UInt16.toNat_inj.mp
      rw [count, zero]
      rfl
    rw [if_neg idle, if_neg some]
    exact ⟨rfl, rfl, by simp⟩

private theorem inv_count {s : Sys} (inv : Inv s) (id : Task) : Inv (step s (.count id)) := by
  have one : (1 : UInt16).toNat = 1 := rfl
  refine ⟨inv.on, inv.running, fun i => ?_, fun i => ?_⟩
  · by_cases same : i = id
    · rw [same]
      simp only [step, move, observe, countUp, Function.update_self]
      rw [UInt16.toNat_add, inv.count id, one, Nat.mod_add_mod]
    · simp only [step, move, observe, countUp, Function.update_of_ne same]
      exact inv.count i
  · by_cases same : i = id
    · rw [same]
      simp only [step, move, observe, countUp, Function.update_self]
      exact inv.errCnt id
    · simp only [step, move, observe, countUp, Function.update_of_ne same]
      exact inv.errCnt i

private theorem inv_enable {s : Sys} (inv : Inv s) (id : Task) (limit : Int) :
    Inv (step s (.enable id limit)) := by
  have entry : ∀ i, ((step s (.enable id limit)).cntl.wdtTbl i).count =
        (s.cntl.wdtTbl i).count ∧
      ((step s (.enable id limit)).cntl.wdtTbl i).errCnt = (s.cntl.wdtTbl i).errCnt := by
    intro i
    by_cases same : i = id
    · rw [same]
      simp only [step, move, enableTaskMonitor, Function.update_self, and_self]
    · simp only [step, move, enableTaskMonitor, Function.update_of_ne same, and_self]
  refine ⟨inv.on, inv.running, fun i => ?_, fun i => ?_⟩
  · rw [(entry i).1]
    exact inv.count i
  · rw [(entry i).2]
    exact inv.errCnt i

private theorem inv_tick {s : Sys} (inv : Inv s) (unwrapped : Unwrapped s .tick) :
    Inv (step s .tick) := by
  have after : (step s .tick).cntl = { s.cntl with wdtTbl i := (look (s.cntl.wdtTbl i)).1 } :=
    congrArg Prod.fst (taskMonitor_on inv.on)
  have skipped : ∀ i, ¬ Enabled s i → (look (s.cntl.wdtTbl i)).1 = s.cntl.wdtTbl i :=
    fun i off => congrArg Prod.fst (if_pos (not_not.mp off))
  refine ⟨by rw [after]; exact inv.on, by rw [after]; exact inv.running, fun i => ?_,
    fun i => ?_⟩
  · rw [after]
    dsimp only [step, observe]
    by_cases enabled : Enabled s i
    · rw [(look_spec inv enabled (unwrapped rfl i enabled)).1, if_pos enabled]
      rfl
    · rw [skipped i enabled, if_neg enabled]
      exact inv.count i
  · rw [after]
    dsimp only [step, observe]
    by_cases enabled : Enabled s i
    · rw [(look_spec inv enabled (unwrapped rfl i enabled)).2.1, if_pos enabled]
    · rw [skipped i enabled, if_neg enabled]
      exact inv.errCnt i

private theorem inv_step {s : Sys} (inv : Inv s) {e : Event} (unwrapped : Unwrapped s e) :
    Inv (step s e) := by
  cases e with
  | count id => exact inv_count inv id
  | enable id limit => exact inv_enable inv id limit
  | tick => exact inv_tick inv unwrapped

private theorem clears_iff {s : Sys} (inv : Inv s) (unwrapped : Unwrapped s .tick) :
    (taskMonitor s.cntl).2.1 = some .clear ↔
      ¬ ∃ i, Enabled s i ∧ (s.cntl.wdtTbl i).limit.toNat < silence s i % 256 := by
  have errors : wdtError s.cntl = 0 ↔
      ¬ ∃ i, Enabled s i ∧ (s.cntl.wdtTbl i).limit.toNat < silence s i % 256 := by
    unfold wdtError
    rw [List.countP_eq_zero, not_exists]
    refine ⟨fun none i => ?_, fun none i _ => ?_⟩
    · rintro ⟨enabled, late⟩
      exact none i (List.mem_finRange i)
        ((look_spec inv enabled (unwrapped rfl i enabled)).2.2.mpr late)
    · intro error
      by_cases enabled : Enabled s i
      · exact none i ⟨enabled, (look_spec inv enabled (unwrapped rfl i enabled)).2.2.mp error⟩
      · rw [look, if_pos (not_not.mp enabled)] at error
        cases error
  rw [taskMonitor_on inv.on]
  dsimp only
  rw [← errors]
  by_cases none : wdtError s.cntl = 0
  · rw [if_pos ⟨none, inv.running⟩]
    exact iff_of_true rfl none
  · rw [if_neg fun both => none both.1]
    exact iff_of_false nofun none

private theorem law_iff_noticed {s : Sys} (inv : Inv s) {e : Event} (unwrapped : Unwrapped s e) :
    Law s e ↔ Noticed s e := by
  refine imp_congr_right fun tick => ?_
  subst tick
  rw [clears_iff inv unwrapped, ← not_exists]
  have weaker : (∃ i, Enabled s i ∧ (s.cntl.wdtTbl i).limit.toNat < silence s i % 256) →
      ∃ i, Late s i := by
    rintro ⟨i, enabled, late⟩
    exact ⟨i, enabled, Nat.lt_of_lt_of_le late (Nat.mod_le _ _)⟩
  constructor
  · intro law late
    by_contra unseen
    exact law.mp unseen late
  · intro noticed
    exact not_congr ⟨weaker, noticed⟩

/-- In a run in which no task's counter wraps to zero between two looks, every tick clears the
watchdog exactly if no task is late, if and only if lateness is always noticed. -/
theorem watchdog_right_iff {es : List Event} (unwrapped : Along step Unwrapped start es) :
    Along step Law start es ↔ Along step Noticed start es := by
  have both : Along step (fun s e => Unwrapped s e ∧ Law s e) start es ↔
      Along step (fun s e => Unwrapped s e ∧ Noticed s e) start es :=
    along_guarded_iff (I := Inv) (fun _ _ inv guard => inv_step inv guard.1)
      (fun _ _ inv => and_congr_right fun guard => law_iff_noticed inv guard) inv_start es
  constructor
  · exact fun law => (both.mp (unwrapped.and law)).mono fun _ _ => And.right
  · exact fun noticed => (both.mpr (unwrapped.and noticed)).mono fun _ _ => And.right

/-- A task that counts once and is silent at two ticks is within its limit. -/
theorem watchdog_right_once :
    Along step Law start [.count 0, .enable 0 50, .tick, .tick, .tick] :=
  (watchdog_right_iff (by decide)).mpr (by decide)

/-- One task is monitored with a limit, has never counted, and has been silent for `n` ticks. -/
structure Alone (id : Task) (limit : UInt16) (n : Nat) (s : Sys) : Prop where
  others : ∀ i, Enabled s i → i = id
  enabled : Enabled s id
  limit : (s.cntl.wdtTbl id).limit = limit
  active : ∀ i, s.watch.active i = 0
  silent : s.watch.silent id = n

private theorem Alone.unwrapped {id : Task} {limit : UInt16} {n : Nat} {s : Sys}
    (h : Alone id limit n s) (e : Event) : Unwrapped s e :=
  fun _ i _ _ => h.active i

private theorem Alone.tick {id : Task} {limit : UInt16} {n : Nat} {s : Sys} (on : s.cntl.wdtEn ≠ 0)
    (h : Alone id limit n s) : Alone id limit (n + 1) (step s .tick) := by
  have after : (step s .tick).cntl = { s.cntl with wdtTbl i := (look (s.cntl.wdtTbl i)).1 } :=
    congrArg Prod.fst (taskMonitor_on on)
  have fixed : ∀ w : WdtData, (look w).1.enable = w.enable ∧ (look w).1.limit = w.limit := by
    intro w
    unfold look
    split
    · exact ⟨rfl, rfl⟩
    · split <;> exact ⟨rfl, rfl⟩
  have same : ∀ i, Enabled (step s .tick) i ↔ Enabled s i := by
    intro i
    rw [Enabled, Enabled, after, (fixed _).1]
  refine ⟨fun i enabled => h.others i ((same i).mp enabled), (same id).mpr h.enabled, ?_, fun i => ?_,
    ?_⟩
  · rw [after, (fixed _).2, h.limit]
  · change (if Enabled s i then 0 else s.watch.active i) = 0
    rw [h.active i, ite_self]
  · change (if Enabled s id then silence s id else s.watch.silent id) = n + 1
    rw [if_pos h.enabled, silence, if_pos (h.active id), h.silent]

private theorem Alone.ticks {id : Task} {limit : UInt16} {n : Nat} {s : Sys} (inv : Inv s)
    (h : Alone id limit n s) (k : Nat) :
    Inv (run step s (List.replicate k .tick)) ∧
      Alone id limit (n + k) (run step s (List.replicate k .tick)) := by
  induction k generalizing n s with
  | zero => exact ⟨inv, h⟩
  | succ k ih =>
    have next := ih (inv_step inv (h.unwrapped .tick)) (h.tick inv.on)
    rw [Nat.add_assoc, Nat.add_comm 1 k] at next
    exact next

private theorem alone_start (id : Task) (limit : Int) :
    Inv (step start (.enable id limit)) ∧
      Alone id (UInt16.ofInt limit) 0 (step start (.enable id limit)) := by
  have registers : Unwrapped start (.enable id limit) := nofun
  refine ⟨inv_step inv_start registers, fun i enabled => ?_, ?_, ?_, fun _ => rfl, rfl⟩
  · by_contra other
    apply enabled
    simp only [step, move, enableTaskMonitor, Function.update_of_ne other]
    rfl
  · simp only [Enabled, step, move, enableTaskMonitor, Function.update_self]
    decide
  · simp only [step, move, enableTaskMonitor, Function.update_self]

/-- After 256 silent ticks the watchdog of a task with limit 250 is cleared again. -/
theorem silent_task_cleared :
    ¬ Along step Law start (.enable 0 250 :: List.replicate 256 .tick) := by
  rintro ⟨_, along⟩
  have parts : List.replicate 256 Event.tick = List.replicate 255 .tick ++ [.tick] :=
    List.replicate_succ'
  rw [parts, along_append] at along
  obtain ⟨inv, alone⟩ := (alone_start 0 250).2.ticks (alone_start 0 250).1 255
  have law := along.2.1 rfl
  generalize run step (step start (.enable 0 250)) (List.replicate 255 .tick) = s at inv alone law
  have whole : silence s 0 = 256 := by rw [silence, if_pos (alone.active 0), alone.silent]
  have cleared : (taskMonitor s.cntl).2.1 = some .clear := by
    rw [clears_iff inv (alone.unwrapped .tick)]
    rintro ⟨i, enabled, late⟩
    rw [alone.others i enabled, whole] at late
    exact absurd late (Nat.not_lt_zero _)
  apply law.mp cleared 0
  refine ⟨alone.enabled, ?_⟩
  rw [alone.limit, whole]
  decide

end SV300.Watchdog.Monitor
