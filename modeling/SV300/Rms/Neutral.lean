/- SV300/Rms/Neutral
   digest: Which words the neutral and sum currents average, and when they are reported as zero. -/

import SV300.Rms.Batches

set_option autoImplicit false
set_option relaxedAutoImplicit false

namespace SV300.Rms.Neutral

open SV300.Energy.Registers
open SV300.Rms.Batches

/-- The neutral and sum currents of a channel. -/
structure Currents (F : Type) where
  In1 : F
  In : F
  Is : F

/-- The scales of the neutral current: with its offset, which depends on the mean current. -/
structure NeutralScales (F : Type) extends Scales F where
  igscale : F
  meanCurrent : F
  inOffsetI : F
  inSlope : F
  inOffset : F

section

variable {F : Type} [Single F]

def scaleIrms (k : NeutralScales F) (val : Int32) : F := (val.toInt : F) * k.iscale

def scaleIgrms1 (k : NeutralScales F) (val : Int32) : F := (val.toInt : F) * k.igscale

def scaleIgrms (k : NeutralScales F) (val : Int32) : F :=
  let v1 := k.inSlope * (k.meanCurrent - k.inOffsetI) + k.inOffset
  let v2 := (val.toInt : F) * k.igscale - v1
  if v2 < 0 then 0 else v2

def words (g : Regs) (slots : List Slot) : List UInt32 := slots.map fun p => g p.1 p.2

def rawAverage (g : Regs) (slots : List Slot) : Int32 :=
  averageWithoutMinMax (words g slots) / 8

/-- The neutral part of `calcRmsAngle`.  It tests `rms`, a local that is never assigned, where the
sum of the phase currents was meant. -/
def calcNeutral [DecidableEq F] (k : NeutralScales F) (rms : F) (g : Regs) (before : Currents F) :
    Currents F :=
  if rms = 0 then { before with In := 0, Is := 0 }
  else
    { In1 := scaleIgrms1 k (rawAverage g inrmsTen)
      In := scaleIgrms k (rawAverage g inrmsTen)
      Is := scaleIrms k (rawAverage g isrmsTen) }

/-- A phase current below no-load. -/
def BelowNoload (k : NeutralScales F) (g : Regs) (i : Phase) : Prop :=
  ((mean (g (.irms i))).toInt : F) < k.inoload

/-- The slots that the five calls of `readRmsAngle` for a batch store. -/
def written : List Slot := (List.range 5).flatMap fun ix => storeOrder.map fun f => (f, ix)

/-- A raw average between the smallest and the largest of some samples. -/
def Between (average : Int32) (samples : List UInt32) : Prop :=
  (∃ a ∈ samples, (a.toNat : Int) ≤ average.toInt) ∧
    ∃ b ∈ samples, average.toInt ≤ (b.toNat : Int)

instance (average : Int32) (samples : List UInt32) : Decidable (Between average samples) :=
  inferInstanceAs (Decidable (_ ∧ _))

/-- Both currents are averages of their own samples of the batch, and zero without load. -/
structure NeutralRight [DecidableEq F] (k : NeutralScales F) (rms : F) (g : Regs)
    (before : Currents F) : Prop where
  inrms : rms ≠ 0 → ∀ p ∈ inrmsTen, p.1 = .inrms ∧ p ∈ written
  isrms : rms ≠ 0 → ∀ p ∈ isrmsTen, p.1 = .isrms ∧ p ∈ written
  inrmsBetween : rms ≠ 0 → Between (rawAverage g inrmsTen) (words g (five .inrms))
  isrmsBetween : rms ≠ 0 → Between (rawAverage g isrmsTen) (words g (five .isrms))
  zero : (calcNeutral k rms g before).In = 0 ∧ (calcNeutral k rms g before).Is = 0 ↔
    ∀ i, BelowNoload k g i

end

private theorem mem_written {p : Slot} : p ∈ written ↔ p.2 < 5 := by
  obtain ⟨f, j⟩ := p
  constructor
  · intro member
    obtain ⟨ix, small, stored⟩ := List.mem_flatMap.mp member
    obtain ⟨f', -, same⟩ := List.mem_map.mp stored
    have slot : ix = j := congrArg Prod.snd same
    exact slot ▸ List.mem_range.mp small
  · intro small
    refine List.mem_flatMap.mpr ⟨j, List.mem_range.mpr small, ?_⟩
    exact List.mem_map_of_mem (mem_storeOrder f)

private theorem sixth_not_written (f : Field) : (f, 5) ∉ written :=
  fun member => Nat.lt_irrefl 5 (mem_written.mp member)

/-- The currents are right only where they are not averaged at all: the unassigned local is zero,
and the three phases are below no-load. -/
theorem neutral_right_iff {F : Type} [Single F] [DecidableEq F] (k : NeutralScales F) (rms : F)
    (g : Regs) (before : Currents F) :
    NeutralRight k rms g before ↔ rms = 0 ∧ ∀ i, BelowNoload k g i := by
  constructor
  · intro right
    have zero : rms = 0 := by
      by_contra nonzero
      have sixth := right.inrms nonzero (.inrms, 5) (by decide)
      exact sixth_not_written .inrms sixth.2
    refine ⟨zero, right.zero.mp ?_⟩
    rw [calcNeutral, if_pos zero]
    exact ⟨rfl, rfl⟩
  · rintro ⟨zero, below⟩
    refine ⟨?_, ?_, ?_, ?_, ?_⟩
    · exact fun nonzero => absurd zero nonzero
    · exact fun nonzero => absurd zero nonzero
    · exact fun nonzero => absurd zero nonzero
    · exact fun nonzero => absurd zero nonzero
    · rw [calcNeutral, if_pos zero]
      exact ⟨fun _ => below, fun _ => ⟨rfl, rfl⟩⟩

/-- A batch of neutral samples of 100 and sum samples of 1000. -/
def evenBatch : Regs
  | .inrms, j => if j < 5 then 100 else 0
  | .isrms, j => if j < 5 then 1000 else 0
  | .irms _, j => if j < 5 then 900 else 0
  | _, _ => 0

def unitScales : NeutralScales Rat where
  pickupVoltRaw := 1
  inoload := 1
  vscale := 1
  iscale := 1
  scaleAngle _ := 0
  radians x := x
  degrees x := x
  cos _ := 1
  sin _ := 0
  atan2 _ _ := 0
  sumMax := 5
  igscale := 1
  meanCurrent := 0
  inOffsetI := 0
  inSlope := 0
  inOffset := 0

/-- The neutral current comes out as 437 from samples that are all 100. -/
theorem neutral_average_out_of_range : ¬ NeutralRight unitScales 1 evenBatch ⟨0, 0, 0⟩ := by
  intro right
  have between := right.inrmsBetween one_ne_zero
  revert between
  decide +kernel

end SV300.Rms.Neutral
