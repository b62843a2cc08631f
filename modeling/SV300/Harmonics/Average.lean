/- SV300/Harmonics/Average
   digest: The 10-minute averages of the harmonics, summed in sixteen bits. -/

import Mathlib.Data.Rat.Defs
import Mathlib.Algebra.Order.Ring.Rat
import Mathlib.Data.Nat.ModEq
import SV300.Library.Runs

set_option autoImplicit false
set_option relaxedAutoImplicit false

namespace SV300.Harmonics.Average

open SV300.Library.Runs

/-- Phase voltages, line voltages, currents. -/
inductive Quantity
  | U | Upp | I
  deriving DecidableEq

/-- The distortion and crest factors averaged beside the spectra. -/
inductive Factor
  | thdU | cfU | thdUpp | cfUpp | thdI | tddI | cfI | kfI
  deriving DecidableEq

abbrev Order := Fin 24

/-- What FFT_Task leaves in `METERING` and `HARMONICS`. -/
structure Spectrum where
  hd : Quantity → Fin 3 → Fin 64 → UInt16
  factor : Factor → Fin 3 → Rat

/-- `HarmonicsData`; the count stays far within its `int`. -/
structure HarmonicsData where
  count : Nat
  ts10m : UInt32
  hdsum : Quantity → Fin 3 → Order → UInt16
  hd : Quantity → Fin 3 → Order → UInt16
  factorSum : Factor → Fin 3 → Rat
  factor : Factor → Fin 3 → Rat

/-- `memset`, and the state at the start. -/
def HarmonicsData.zero : HarmonicsData where
  count := 0
  ts10m := 0
  hdsum _ _ _ := 0
  hd _ _ _ := 0
  factorSum _ _ := 0
  factor _ _ := 0

/-- The order that an index of the averages stands for. -/
def orderOf (j : Order) : Fin 64 := ⟨j + 2, by omega⟩

/-- `fft_average`. -/
def fftAverage (cond : Bool) (x : Spectrum) (hmd : HarmonicsData) : HarmonicsData :=
  let hmd := if cond then HarmonicsData.zero else hmd
  let count := hmd.count + 1
  let hdsum := fun q i j => hmd.hdsum q i j + x.hd q i (orderOf j)
  let factorSum := fun f i => hmd.factorSum f i + x.factor f i
  { hmd with
    count := count
    hdsum := hdsum
    hd := fun q i j => UInt16.ofNat ((hdsum q i j).toNat / count)
    factorSum := factorSum
    factor := fun f i => factorSum f i / (count : Rat) }

/-- One round of FFT_Task: the 10-minute tick when it is compared, and when it is stored. -/
structure Round where
  compared : UInt32
  stored : UInt32
  spectrum : Spectrum

def fftTask (hmd : HarmonicsData) (r : Round) : HarmonicsData :=
  { fftAverage (hmd.ts10m != r.compared) r.spectrum hmd with ts10m := r.stored }

/-- The averages with the spectra of the period they are of. -/
structure Watched where
  hmd : HarmonicsData
  tick : UInt32
  spectra : List Spectrum

def watch (w : Watched) (r : Round) : Watched where
  hmd := fftTask w.hmd r
  tick := r.compared
  spectra := if w.tick = r.compared then w.spectra ++ [r.spectrum] else [r.spectrum]

def start : Watched := ⟨.zero, 0, []⟩

def total (q : Quantity) (i : Fin 3) (j : Order) (xs : List Spectrum) : Nat :=
  (xs.map fun x => (x.hd q i (orderOf j)).toNat).sum

/-- Every average is the integer mean of the period's spectra. -/
def Means (w : Watched) : Prop :=
  ∀ q i j, (w.hmd.hd q i j).toNat = total q i j w.spectra / w.spectra.length

/-- No order adds up to more than sixteen bits. -/
def Within (xs : List Spectrum) : Prop := ∀ q i j, total q i j xs < 65536

/-- No 10-minute tick fell between the comparison and the store. -/
def Agrees (r : Round) : Prop := r.stored = r.compared

instance (r : Round) : Decidable (Agrees r) := inferInstanceAs (Decidable (_ = _))

private theorem total_append (q : Quantity) (i : Fin 3) (j : Order) (xs : List Spectrum)
    (x : Spectrum) :
    total q i j (xs ++ [x]) = total q i j xs + (x.hd q i (orderOf j)).toNat := by
  simp [total]

private theorem total_singleton (q : Quantity) (i : Fin 3) (j : Order) (x : Spectrum) :
    total q i j [x] = (x.hd q i (orderOf j)).toNat := by
  simp [total]

/-- What the sums hold: the exact totals, as far as sixteen bits show them. -/
structure Summed (w : Watched) : Prop where
  ts10m : w.hmd.ts10m = w.tick
  count : w.hmd.count = w.spectra.length
  hdsum : ∀ q i j, (w.hmd.hdsum q i j).toNat = total q i j w.spectra % 65536
  hd : ∀ q i j, (w.hmd.hd q i j).toNat = total q i j w.spectra % 65536 / w.spectra.length

private theorem start_summed : Summed start :=
  ⟨rfl, rfl, fun _ _ _ => rfl, fun _ _ _ => (Nat.zero_div _).symm⟩

private theorem toNat_quotient (s : UInt16) (n : Nat) :
    (UInt16.ofNat (s.toNat / n)).toNat = s.toNat / n := by
  rw [UInt16.toNat_ofNat']
  exact Nat.mod_eq_of_lt ((Nat.div_le_self _ _).trans_lt s.toNat_lt)

private theorem watch_summed (w : Watched) (r : Round) (law : Summed w) (agrees : Agrees r) :
    Summed (watch w r) := by
  by_cases same : w.tick = r.compared
  · have goesOn : (w.hmd.ts10m != r.compared) = false := by
      rw [law.ts10m, same, bne_self_eq_false]
    have count : (watch w r).hmd.count = (watch w r).spectra.length := by
      simp only [watch, fftTask, fftAverage, goesOn, same, if_true, Bool.false_eq_true, if_false,
        law.count, List.length_append, List.length_singleton]
    have hdsum : ∀ q i j, ((watch w r).hmd.hdsum q i j).toNat =
        total q i j (watch w r).spectra % 65536 := by
      intro q i j
      simp only [watch, fftTask, fftAverage, goesOn, same, if_true, Bool.false_eq_true, if_false,
        UInt16.toNat_add, law.hdsum, total_append]
      omega
    refine ⟨agrees, count, hdsum, fun q i j => ?_⟩
    rw [← hdsum, ← count]
    exact toNat_quotient _ _
  · have begins : (w.hmd.ts10m != r.compared) = true := by
      rw [law.ts10m]
      exact bne_iff_ne.mpr same
    have count : (watch w r).hmd.count = (watch w r).spectra.length := by
      simp only [watch, fftTask, fftAverage, begins, same, if_true, if_false]
      rfl
    have hdsum : ∀ q i j, ((watch w r).hmd.hdsum q i j).toNat =
        total q i j (watch w r).spectra % 65536 := by
      intro q i j
      have small := (r.spectrum.hd q i (orderOf j)).toNat_lt
      simp only [watch, fftTask, fftAverage, begins, same, if_true, if_false, HarmonicsData.zero,
        UInt16.toNat_add, total_singleton]
      rw [UInt16.toNat_zero, Nat.zero_add]
    refine ⟨agrees, count, hdsum, fun q i j => ?_⟩
    rw [← hdsum, ← count]
    exact toNat_quotient _ _

private theorem wrapped_mean_iff {sum n : Nat} (some_ : 0 < n) (short : n ≤ 65536) :
    sum % 65536 / n = sum / n ↔ sum < 65536 := by
  constructor
  · intro same
    by_contra wrapped
    have apart : sum % 65536 + n ≤ sum := by omega
    have next : sum % 65536 / n + 1 ≤ sum / n := by
      rw [← Nat.add_div_right _ some_]
      exact Nat.div_le_div_right apart
    omega
  · intro small
    rw [Nat.mod_eq_of_lt small]

private theorem means_iff {w : Watched} (law : Summed w) (short : w.spectra.length ≤ 65536) :
    Means w ↔ Within w.spectra := by
  have each : ∀ q i j, (w.hmd.hd q i j).toNat = total q i j w.spectra / w.spectra.length ↔
      total q i j w.spectra < 65536 := by
    intro q i j
    rw [law.hd]
    cases spectra : w.spectra with
    | nil => simp [total]
    | cons x xs =>
      rw [spectra] at short
      exact wrapped_mean_iff (Nat.succ_pos xs.length) short
  exact forall_congr' fun q => forall_congr' fun i => forall_congr' fun j => each q i j

theorem run_summed {rounds : List Round} (agree : ∀ r ∈ rounds, Agrees r) :
    Summed (run watch start rounds) :=
  invariant_run watch_summed start_summed (along_of_forall agree start)

/-- After every sequence of rounds whose tick is compared and stored alike, the averages are the
means of the period exactly when no sum of the period exceeds sixteen bits. -/
theorem averages_are_means_iff (rounds : List Round) (agree : ∀ r ∈ rounds, Agrees r)
    (short : (run watch start rounds).spectra.length ≤ 65536) :
    Means (run watch start rounds) ↔ Within (run watch start rounds).spectra :=
  means_iff (run_summed agree) short

/-- A spectrum with the same distortion in every order. -/
def flat (hd : UInt16) : Spectrum := ⟨fun _ _ _ => hd, fun _ _ => 0⟩

def twoPeriods : List Round :=
  [⟨1, 1, flat 40000⟩, ⟨1, 1, flat 20000⟩, ⟨2, 2, flat 300⟩, ⟨2, 2, flat 500⟩, ⟨2, 2, flat 401⟩]

theorem twoPeriods_means :
    (run watch start twoPeriods).spectra = [flat 300, flat 500, flat 401] ∧
      Means (run watch start twoPeriods) := by
  have second : (run watch start twoPeriods).spectra = [flat 300, flat 500, flat 401] := rfl
  refine ⟨second, (averages_are_means_iff twoPeriods (by decide) (by decide)).mpr ?_⟩
  rw [second]
  intro q i j
  simp [total, flat]

/-- The mean of 40000 and 40000 comes out as 7232. -/
theorem second_spectrum_wraps :
    ¬ Means (run watch start [⟨1, 1, flat 40000⟩, ⟨1, 1, flat 40000⟩]) := by
  intro means
  have first := means .U 0 0
  revert first
  decide

end SV300.Harmonics.Average
