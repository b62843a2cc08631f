/- SV300/Demand/Maximum
   digest: The recorded maximum demands and the interval demands since the last reset. -/

import SV300.Demand.Scan
import SV300.Library.Peak
import SV300.Library.Runs

set_option autoImplicit false
set_option relaxedAutoImplicit false

namespace SV300.Demand.Maximum

open SV300.Demand.Scan
open SV300.Library.Peak
open SV300.Library.Runs

/-- A maximum as an entry of a record: when, and how much. -/
def entry (md : MaxDemand) : UInt32 × Rat := (md.mdTime, md.value)

/-- The system with the time of the last reset and the demands of the intervals ended since. -/
structure Recorded where
  sys : Sys
  resetTs : UInt32
  ended : List DemandData

def demands (s : Sys) (x : Sample) : DemandData :=
  dynamicDemand s.sysTick1s (collect s x).cntl (collect s x).dm

/-- A reset forgets the intervals; the end of an interval adds its demands. -/
def record (r : Recorded) (e : Event) : Recorded :=
  match e with
  | .scan x =>
    if Resets r.sys then ⟨step r.sys e, r.sys.sysTick1s, []⟩
    else if r.sys.cntl.energyInit ∧ ClosesInterval r.sys then
      { r with sys := step r.sys e, ended := r.ended ++ [demands r.sys x] }
    else { r with sys := step r.sys e }
  | _ => { r with sys := step r.sys e }

def justReset (s : Sys) : Recorded := ⟨resetDemand s, s.sysTick1s, []⟩

/-- What was recorded of one quantity: zero at the reset, then each interval's demand at its end. -/
def entries (r : Recorded) (q : DemandData → Rat) : List (UInt32 × Rat) :=
  (r.resetTs, 0) :: r.ended.map fun d => (d.ddTime, q d)

/-- Every recorded maximum is the largest demand since the reset, at the first time it was reached. -/
structure Maxima (r : Recorded) : Prop where
  mdP : ∀ i, IsPeak (entries r fun d => d.ddP i) (entry (r.sys.dm.mdP i))
  mdQ : ∀ i, IsPeak (entries r fun d => d.ddQ i) (entry (r.sys.dm.mdQ i))
  mdS : IsPeak (entries r DemandData.ddS) (entry r.sys.dm.mdS)
  mdI : ∀ i, IsPeak (entries r fun d => d.ddI i) (entry (r.sys.dm.mdI i))

/-- What does hold: the maxima but those of the reactive power, which stay as the reset left them. -/
structure Kept (r : Recorded) : Prop where
  mdP : ∀ i, IsPeak (entries r fun d => d.ddP i) (entry (r.sys.dm.mdP i))
  mdQ : ∀ i, entry (r.sys.dm.mdQ i) = (r.resetTs, 0)
  mdS : IsPeak (entries r DemandData.ddS) (entry r.sys.dm.mdS)
  mdI : ∀ i, IsPeak (entries r fun d => d.ddI i) (entry (r.sys.dm.mdI i))

private theorem Kept.of_same {r : Recorded} (law : Kept r) {s : Sys} (mdP : s.dm.mdP = r.sys.dm.mdP)
    (mdQ : s.dm.mdQ = r.sys.dm.mdQ) (mdS : s.dm.mdS = r.sys.dm.mdS)
    (mdI : s.dm.mdI = r.sys.dm.mdI) : Kept { r with sys := s } where
  mdP i := mdP ▸ law.mdP i
  mdQ i := mdQ ▸ law.mdQ i
  mdS := mdS ▸ law.mdS
  mdI i := mdI ▸ law.mdI i

private theorem entry_update (md : MaxDemand) (now : UInt32) (dd : Rat) :
    entry (md.update now dd) = raise (entry md) (now, dd) := by
  unfold MaxDemand.update raise entry
  split <;> rfl

private theorem update_not_lt (md : MaxDemand) (now : UInt32) (dd : Rat) :
    ¬ (md.update now dd).value < dd := by
  unfold MaxDemand.update
  split
  · exact lt_irrefl dd
  · assumption

private theorem compareMax_mdQ (now : UInt32) (pdm : DemandData) :
    (compareMax now pdm).mdQ = pdm.mdQ :=
  funext fun i => if_neg (update_not_lt (pdm.mdP i) now (pdm.ddP i))

private theorem entries_append (s : Sys) (r : Recorded) (d : DemandData) (q : DemandData → Rat) :
    entries { r with sys := s, ended := r.ended ++ [d] } q = entries r q ++ [(d.ddTime, q d)] := by
  simp [entries]

private theorem intervals_maxima (s : Sys) (x : Sample) :
    let closed := if ClosesInterval s then compareMax s.sysTick1s (demands s x) else s.dm
    (intervals s x).dm.mdP = closed.mdP ∧ (intervals s x).dm.mdQ = closed.mdQ ∧
      (intervals s x).dm.mdS = closed.mdS ∧ (intervals s x).dm.mdI = closed.mdI := by
  obtain ⟨ts, bins, dm⟩ := intervals_dm s x
  have same : ClosesInterval (collect s x) ↔ ClosesInterval s := Iff.rfl
  rw [dm, closeInterval]
  simp only [same]
  split <;> exact ⟨rfl, rfl, rfl, rfl⟩

private theorem energyScan_dm {s : Sys} {x : Sample} (started : s.cntl.energyInit = true)
    (runs : ¬ Resets s) : (energyScan s x).dm = (intervals s x).dm := by
  have other : s.cntl.rstDemand ≠ resetCommand := fun cmd => runs ⟨started, cmd⟩
  simp only [energyScan, started, if_true, other, if_false]
  split <;> rfl

private theorem energyScan_reset {s : Sys} (resets : Resets s) (x : Sample) :
    (∀ i, entry ((energyScan s x).dm.mdP i) = (s.sysTick1s, 0)) ∧
      (∀ i, entry ((energyScan s x).dm.mdQ i) = (s.sysTick1s, 0)) ∧
      entry (energyScan s x).dm.mdS = (s.sysTick1s, 0) ∧
      ∀ i, entry ((energyScan s x).dm.mdI i) = (s.sysTick1s, 0) := by
  simp only [energyScan, resets.1, resets.2, if_true, storeDemandDefer, resetDemand, entry,
    intervals_sysTick1s, implies_true, and_self]

private theorem peak_append {r : Recorded} {q : DemandData → Rat} {md : MaxDemand}
    (peak : IsPeak (entries r q) (entry md)) (s t : Sys) (x : Sample) :
    IsPeak (entries { r with sys := t, ended := r.ended ++ [demands s x] } q)
      (entry (md.update s.sysTick1s (q (demands s x)))) := by
  rw [entries_append, entry_update]
  exact peak.append _

private theorem kept_scan {r : Recorded} (law : Kept r) (x : Sample) :
    Kept (record r (.scan x)) := by
  by_cases resets : Resets r.sys
  · have fresh := energyScan_reset resets x
    have start : ∀ q, entries ⟨step r.sys (.scan x), r.sys.sysTick1s, []⟩ q =
        [(r.sys.sysTick1s, 0)] := fun _ => rfl
    simp only [record, resets, if_true]
    refine ⟨fun i => ?_, fresh.2.1, ?_, fun i => ?_⟩
    · rw [start]
      exact (fresh.1 i).symm ▸ isPeak_singleton _
    · rw [start]
      exact fresh.2.2.1.symm ▸ isPeak_singleton _
    · rw [start]
      exact (fresh.2.2.2 i).symm ▸ isPeak_singleton _
  · by_cases started : r.sys.cntl.energyInit = true
    · obtain ⟨mdP, mdQ, mdS, mdI⟩ := intervals_maxima r.sys x
      have dm : (step r.sys (.scan x)).dm = (intervals r.sys x).dm := energyScan_dm started resets
      by_cases closes : ClosesInterval r.sys
      · simp only [closes, if_true] at mdP mdQ mdS mdI
        simp only [record, resets, started, closes, if_false, and_self, if_true]
        refine ⟨fun i => ?_, fun i => ?_, ?_, fun i => ?_⟩
        · rw [dm, mdP]
          exact peak_append (law.mdP i) r.sys _ x
        · rw [dm, mdQ, compareMax_mdQ]
          exact law.mdQ i
        · rw [dm, mdS]
          exact peak_append law.mdS r.sys _ x
        · rw [dm, mdI]
          exact peak_append (law.mdI i) r.sys _ x
      · simp only [closes, if_false] at mdP mdQ mdS mdI
        simp only [record, resets, closes, if_false, and_false]
        exact law.of_same (by rw [dm, mdP]) (by rw [dm, mdQ]) (by rw [dm, mdS]) (by rw [dm, mdI])
    · have same : (step r.sys (.scan x)).dm = r.sys.dm := by
        simp only [step, energyScan, started]
        rfl
      simp only [record, resets, started, if_false]
      exact law.of_same (by rw [same]) (by rw [same]) (by rw [same]) (by rw [same])

private theorem step_dm {s : Sys} {e : Event} (other : ∀ x, e ≠ .scan x) :
    (step s e).dm = s.dm := by
  cases e with
  | scan x => exact absurd rfl (other x)
  | tick => rfl
  | tickSet sec =>
    show (tickSet s sec).dm = s.dm
    unfold tickSet
    split <;> rfl
  | configure interval => rfl
  | command cmd => rfl
  | demandIoTick written =>
    show (demandIoTick s written).dm = s.dm
    unfold demandIoTick
    split <;> rfl

private theorem record_kept (r : Recorded) (e : Event) (law : Kept r) : Kept (record r e) := by
  by_cases scan : ∃ x, e = .scan x
  · obtain ⟨x, rfl⟩ := scan
    exact kept_scan law x
  · have other : ∀ x, e ≠ .scan x := fun x same => scan ⟨x, same⟩
    have same : record r e = { r with sys := step r.sys e } := by
      cases e with
      | scan x => exact absurd rfl (other x)
      | _ => rfl
    have dm := step_dm (s := r.sys) other
    rw [same]
    exact law.of_same (by rw [dm]) (by rw [dm]) (by rw [dm]) (by rw [dm])

private theorem justReset_kept (s : Sys) : Kept (justReset s) :=
  ⟨fun _ => isPeak_singleton _, fun _ => rfl, isPeak_singleton _, fun _ => isPeak_singleton _⟩

theorem run_kept (s : Sys) (es : List Event) : Kept (run record (justReset s) es) :=
  always_run record_kept (justReset_kept s) es

private theorem maxima_iff {r : Recorded} (law : Kept r) :
    Maxima r ↔ ∀ d ∈ r.ended, ∀ i, d.ddQ i ≤ 0 := by
  have reactive : ∀ i, IsPeak (entries r fun d => d.ddQ i) (entry (r.sys.dm.mdQ i)) ↔
      ∀ d ∈ r.ended, d.ddQ i ≤ 0 := by
    intro i
    rw [law.mdQ i, entries, isPeak_head, List.forall_mem_map]
  constructor
  · intro maxima d member i
    exact (reactive i).mp (maxima.mdQ i) d member
  · intro none
    exact ⟨law.mdP, fun i => (reactive i).mpr fun d member => none d member i, law.mdS, law.mdI⟩

/-- In every run after a reset the maxima are right exactly when no interval since the last reset
had a reactive demand. -/
theorem maxima_right_iff (s : Sys) (es : List Event) :
    Maxima (run record (justReset s) es) ↔
      ∀ d ∈ (run record (justReset s) es).ended, ∀ i, d.ddQ i ≤ 0 :=
  maxima_iff (run_kept s es)

def lagging : Sample := ⟨1, 1, 1, fun _ => 1⟩

/-- One interval with a reactive demand after the reset. -/
theorem reactive_maximum_missed :
    ¬ Maxima (run record (justReset (boot 0 none 118 1)) [.scan lagging, .tick, .scan lagging]) := by
  rw [maxima_iff (run_kept _ _)]
  decide +kernel

end SV300.Demand.Maximum
