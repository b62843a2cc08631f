/- SV300/Quality/Report
   digest: Which phases the weekly evaluation looks at, and which flags the web page shows. -/

import SV300.Quality.Week

set_option autoImplicit false
set_option relaxedAutoImplicit false

namespace SV300.Quality.Report

open SV300.Quality.Week

variable {F : Type} [Measure F]

/-- Each flag and each share of a phase is that of the phase's own statistic. -/
structure PhasesOwn (pqw : QualWeek F) : Prop where
  flags : ∀ (q : ThreePhase) (i : Fin 3),
    flag (judge pqw).compliance (q.position + i) = true ↔ Below q.limit (pqw.var.phase q i)
  shares : ∀ q i, (updateQualReport pqw).phase q i = percent (pqw.var.phase q i)

/-- All phases of a quantity get the verdict and the share of the first. -/
structure PhasesAlike (pqw : QualWeek F) : Prop where
  verdicts : ∀ (q : ThreePhase) i,
    Below q.limit (pqw.var.phase q i) ↔ Below q.limit (pqw.var.phase q 0)
  shares : ∀ q i, percent (pqw.var.phase q i) = percent (pqw.var.phase q 0)

/-- A record is evaluated phase by phase exactly if its phases do not differ in what is reported. -/
theorem phases_own_iff (pqw : QualWeek F) : PhasesOwn pqw ↔ PhasesAlike pqw := by
  have first : ∀ (q : ThreePhase) (i : Fin 3),
      flag (judge pqw).compliance (q.position + i) = true ↔
        Below q.limit (pqw.var.phase q 0) := by
    intro q i
    rw [flag_judge pqw (q.position_lt i)]
    exact phase_flag pqw.var q i
  constructor
  · intro own
    constructor
    · intro q i
      exact (own.flags q i).symm.trans (first q i)
    · intro q i
      exact (own.shares q i).symm
  · intro alike
    constructor
    · intro q i
      exact (first q i).trans (alike.verdicts q i).symm
    · intro q i
      exact (alike.shares q i).symm

def emptyWeek : QualWeek Rat where
  startTs := 0
  endTs := 0
  complete := 0
  compliance := 0
  count10s := 0
  count10m := 0
  var := { events := fun _ _ => 0, single := fun _ => ⟨0, 0⟩, phase := fun _ _ => ⟨0, 0⟩ }
  evtCount := 0

/-- Ten minutes in which the second phase was out of its first voltage limits. -/
def secondPhaseOut : QualWeek Rat :=
  { emptyWeek with
    count10m := 1
    var := { emptyWeek.var with
      phase := fun q i => if q = .volt1 ∧ i = 1 then ⟨1, 1⟩ else ⟨0, 0⟩ } }

/-- A bad second phase is neither flagged nor reported. -/
theorem second_phase_missed :
    flag (judge secondPhaseOut).compliance (ThreePhase.volt1.position + 1) = false ∧
      Below ThreePhase.volt1.limit (secondPhaseOut.var.phase .volt1 1) ∧
      (updateQualReport secondPhaseOut).phase .volt1 1 = 10000 ∧
      percent (secondPhaseOut.var.phase .volt1 1) = 0 ∧ ¬PhasesOwn secondPhaseOut := by
  have unflagged :
      flag (judge secondPhaseOut).compliance (ThreePhase.volt1.position + 1) = false := by
    decide +kernel
  have below : Below ThreePhase.volt1.limit (secondPhaseOut.var.phase .volt1 1) := by
    decide +kernel
  refine ⟨unflagged, below, by decide +kernel, by decide +kernel, ?_⟩
  intro own
  have flagged := (own.flags .volt1 1).mpr below
  exact absurd (unflagged.symm.trans flagged) Bool.false_ne_true

/-- The rows of the page, in its order. -/
inductive Row | freq1 | freq2 | volt1 | volt2 | voltbal | voltThd | voltHd | plt
  deriving DecidableEq, Repr

/-- A row as it is sent: the pass mark and the shares. -/
structure EnRow where
  p : Nat
  v : List UInt16

/-- `ENP`: a row passes unless its bit is set. -/
def enp (cm ri : UInt32) : Nat := if cm >>> ri &&& 1 ≠ 0 then 0 else 1

def enRow (r : EN50160) : Row → EnRow
  | .freq1 => ⟨enp r.compliance 0, [r.single .freq1]⟩
  | .freq2 => ⟨enp r.compliance 1, [r.single .freq2]⟩
  | .volt1 => ⟨enp r.compliance 2, (List.finRange 3).map (r.phase .volt1)⟩
  | .volt2 => ⟨enp r.compliance 3, (List.finRange 3).map (r.phase .volt2)⟩
  | .voltbal => ⟨enp r.compliance 4, [r.single .voltbal]⟩
  | .voltThd => ⟨enp r.compliance 5, (List.finRange 3).map (r.phase .voltThd)⟩
  | .voltHd => ⟨enp r.compliance 6, (List.finRange 3).map (r.phase .voltHd)⟩
  | .plt => ⟨enp r.compliance 7, (List.finRange 3).map (r.phase .plt)⟩

def apiEn50160 (r : EN50160) : List EnRow :=
  [.freq1, .freq2, .volt1, .volt2, .voltbal, .voltThd, .voltHd, .plt].map (enRow r)

def Row.quantity : Row → Single ⊕ ThreePhase
  | .freq1 => .inl .freq1
  | .freq2 => .inl .freq2
  | .volt1 => .inr .volt1
  | .volt2 => .inr .volt2
  | .voltbal => .inl .voltbal
  | .voltThd => .inr .voltThd
  | .voltHd => .inr .voltHd
  | .plt => .inr .plt

def Row.flags (row : Row) : List Nat :=
  match row.quantity with
  | .inl q => [q.position]
  | .inr q => [q.position, q.position + 1, q.position + 2]

/-- The page shows every row as passed exactly if no flag of its quantity is set. -/
def RowsRight (pqw : QualWeek F) : Prop :=
  ∀ row, (enRow (updateQualReport pqw) row).p = 1 ↔
    ∀ k ∈ row.flags, flag pqw.compliance k = false

/-- The verdict on a quantity of three phases after ten more minutes. -/
def PhaseFails (pq10m : QualData10m F) (pqw : QualWeek F) (q : ThreePhase) : Prop :=
  Below q.limit
    (qualVarWeekUpdate (pqw.var.phase q 0) (pq10m.var.phase q 0).err (pqw.count10m + 1))

/-- The verdict on the unbalance after ten more minutes. -/
def BalanceFails (pq10m : QualData10m F) (pqw : QualWeek F) : Prop :=
  Below Single.voltbal.limit
    (qualVarWeekUpdate (pqw.var.single .voltbal) (pq10m.var.single .voltbal).err (pqw.count10m + 1))

/-- Every quantity gets the verdict on the quantity whose flag its row reads. -/
structure VerdictsAlike (pq10m : QualData10m F) (pqw : QualWeek F) : Prop where
  volt2 : PhaseFails pq10m pqw .volt2 ↔ PhaseFails pq10m pqw .volt1
  voltbal : BalanceFails pq10m pqw ↔ PhaseFails pq10m pqw .volt1
  voltThd : PhaseFails pq10m pqw .voltThd ↔ PhaseFails pq10m pqw .volt2
  voltHd : PhaseFails pq10m pqw .voltHd ↔ PhaseFails pq10m pqw .volt2
  plt : PhaseFails pq10m pqw .plt ↔ PhaseFails pq10m pqw .volt2

private theorem enp_passes (cm : UInt32) {k : Nat} (low : k < 32) :
    enp cm (UInt32.ofNat k) = 1 ↔ flag cm k = false := by
  have shift : (UInt32.ofNat k).toNat % 32 = k := by
    rw [UInt32.toNat_ofNat']
    omega
  have bit : cm >>> UInt32.ofNat k &&& 1 = 0 ↔ flag cm k = false := by
    rw [← UInt32.toNat_inj, UInt32.toNat_and, UInt32.toNat_shiftRight, shift, flag, Nat.testBit,
      Nat.and_comm]
    exact bne_eq_false_iff_eq.symm
  rw [← bit, enp]
  by_cases clear : cm >>> UInt32.ofNat k &&& 1 = 0
  all_goals simp [clear]

section Produced

variable (now : UInt32) (pq10m : QualData10m F) (pqw : QualWeek F)

private theorem phase_bit (q : ThreePhase) (i : Fin 3) :
    flag (updateQualWeek now pq10m pqw).compliance (q.position + i) = false ↔
      ¬PhaseFails pq10m pqw q := by
  rw [updateQualWeek, flag_judge _ (q.position_lt i), ← Bool.not_eq_true, phase_flag]
  rfl

private theorem balance_bit :
    flag (updateQualWeek now pq10m pqw).compliance Single.voltbal.position = false ↔
      ¬BalanceFails pq10m pqw := by
  rw [updateQualWeek, flag_judge _ Single.voltbal.position_lt, ← Bool.not_eq_true, single_flag]
  rfl

private theorem phase_bits (q : ThreePhase) :
    (∀ k ∈ [q.position, q.position + 1, q.position + 2],
      flag (updateQualWeek now pq10m pqw).compliance k = false) ↔ ¬PhaseFails pq10m pqw q := by
  have first := phase_bit now pq10m pqw q 0
  have second := phase_bit now pq10m pqw q 1
  have third := phase_bit now pq10m pqw q 2
  simp only [List.forall_mem_cons, List.not_mem_nil, false_imp_iff, implies_true, and_true]
  constructor
  · intro clear
    exact first.mp clear.1
  · intro passes
    exact ⟨first.mpr passes, second.mpr passes, third.mpr passes⟩

/-- The page shows a produced word rightly exactly if the rows that read a flag of another quantity
get that quantity's verdict. -/
theorem rows_right_iff :
    RowsRight (updateQualWeek now pq10m pqw) ↔ VerdictsAlike pq10m pqw := by
  have three : ∀ (row : Row) (q p : ThreePhase) (i : Fin 3), row.quantity = .inr q →
      (enRow (updateQualReport (updateQualWeek now pq10m pqw)) row).p =
        enp (updateQualWeek now pq10m pqw).compliance (UInt32.ofNat (p.position + i)) →
      (((enRow (updateQualReport (updateQualWeek now pq10m pqw)) row).p = 1 ↔
        ∀ k ∈ row.flags, flag (updateQualWeek now pq10m pqw).compliance k = false) ↔
      (PhaseFails pq10m pqw q ↔ PhaseFails pq10m pqw p)) := by
    intro row q p i about reads
    rw [Row.flags, about]
    dsimp only
    rw [reads, enp_passes _ (by have := p.position_lt i; omega), phase_bit, phase_bits, not_iff_not]
    exact iff_comm
  have balance : ((enRow (updateQualReport (updateQualWeek now pq10m pqw)) .voltbal).p = 1 ↔
      ∀ k ∈ Row.voltbal.flags, flag (updateQualWeek now pq10m pqw).compliance k = false) ↔
      (BalanceFails pq10m pqw ↔ PhaseFails pq10m pqw .volt1) := by
    have reads : (enRow (updateQualReport (updateQualWeek now pq10m pqw)) .voltbal).p =
        enp (updateQualWeek now pq10m pqw).compliance
          (UInt32.ofNat (ThreePhase.volt1.position + (2 : Fin 3))) := rfl
    have flags : Row.voltbal.flags = [Single.voltbal.position] := rfl
    rw [reads, flags, List.forall_mem_singleton, enp_passes _ (by decide), phase_bit, balance_bit,
      not_iff_not]
    exact iff_comm
  constructor
  · intro right
    constructor
    · exact (three .volt2 .volt2 .volt1 1 rfl rfl).mp (right .volt2)
    · exact balance.mp (right .voltbal)
    · exact (three .voltThd .voltThd .volt2 0 rfl rfl).mp (right .voltThd)
    · exact (three .voltHd .voltHd .volt2 1 rfl rfl).mp (right .voltHd)
    · exact (three .plt .plt .volt2 2 rfl rfl).mp (right .plt)
  · intro alike row
    cases row with
    | freq1 =>
      rw [show Row.freq1.flags = [0] from rfl, List.forall_mem_singleton]
      exact enp_passes _ (show 0 < 32 by decide)
    | freq2 =>
      rw [show Row.freq2.flags = [1] from rfl, List.forall_mem_singleton]
      exact enp_passes _ (show 1 < 32 by decide)
    | volt1 => exact (three .volt1 .volt1 .volt1 0 rfl rfl).mpr Iff.rfl
    | volt2 => exact (three .volt2 .volt2 .volt1 1 rfl rfl).mpr alike.volt2
    | voltbal => exact balance.mpr alike.voltbal
    | voltThd => exact (three .voltThd .voltThd .volt2 0 rfl rfl).mpr alike.voltThd
    | voltHd => exact (three .voltHd .voltHd .volt2 1 rfl rfl).mpr alike.voltHd
    | plt => exact (three .plt .plt .volt2 2 rfl rfl).mpr alike.plt

end Produced

/-- Ten minutes with nothing wrong but the unbalance. -/
def unbalanced : QualData10m Rat where
  ts10m := 0
  ts10s := 0
  count10m := 600
  count10s := 0
  avg := { count10s := 60, u := fun _ => 0, uthd := fun _ => 0, ubal := fun _ => 3,
           uhd := fun _ _ => 0 }
  var := { emptyWeek.var with
    single := fun q => if q = .voltbal then ⟨1, 1 / 600⟩ else ⟨0, 0⟩ }

/-- A failed unbalance is flagged and shown as passed. -/
theorem unbalance_shown_passed :
    let pqw := updateQualWeek 600 unbalanced emptyWeek
    flag pqw.compliance Single.voltbal.position = true ∧
      (enRow (updateQualReport pqw) .voltbal).p = 1 ∧ ¬RowsRight pqw := by
  intro pqw
  have flagged : flag pqw.compliance Single.voltbal.position = true := by decide +kernel
  have passed : (enRow (updateQualReport pqw) .voltbal).p = 1 := by decide +kernel
  refine ⟨flagged, passed, ?_⟩
  intro right
  have clear := (right .voltbal).mp passed 8 List.mem_cons_self
  exact absurd (flagged.symm.trans clear) Bool.false_ne_true.symm

end SV300.Quality.Report
