/- SV300/Rms/Capture
   digest: When a captured event is 1200 half cycles in a row with the event where it is marked. -/

import SV300.Rms.HalfCycles

set_option autoImplicit false
set_option relaxedAutoImplicit false

namespace SV300.Rms.Capture

open SV300.Detect.Capture (take)
open SV300.Detect.PqEvent
open SV300.Fs.Queue (FsMsg)
open SV300.Fs.Wave (freqHz)
open SV300.Library.Blocks
open SV300.Rms.HalfCycles

/-- Half cycle `t` is the last one read at or before a time. -/
def LastBefore (read : List HalfCycle) (t Ts : Nat) : Prop :=
  ∃ a, read[t]? = some a ∧ a.tick ≤ Ts ∧ ∀ b, read[t + 1]? = some b → Ts < b.tick

/-- A frame of the ring that is complete and not being written. -/
def Filled (freq : UInt16) (s : Sys) (f : Nat) : Prop :=
  ∃ F, F % nFastRmsBuf = f ∧ (F + 1) * nFastRMS freq ≤ s.read.length ∧
    s.read.length / nFastRMS freq < F + nFastRmsBuf

/-- What a capture should be. -/
structure Good (freq : UInt16) (r : Rcrd) (s : Sys) (c : RmsCap) : Prop where
  inside : ∀ p ∈ c.reads, p.1 < nFastRmsBuf ∧ p.2 < nFastRMS freq
  filled : ∀ p ∈ c.reads, Filled freq s p.1
  marked : c.pos = preSamp r ∧ c.pos < 1200
  inOrder : ∃ first, first + 1200 ≤ s.read.length ∧
    (c.half = (List.range 1200).map fun k => s.read[first + k]?) ∧
    LastBefore s.read (first + c.pos) c.ts.toNat

/-- The frame that `RMSCapture` finds. -/
def eventFrame (freq : UInt16) (s : Sys) (Ts : Nat) : Option Nat :=
  findFrame s.win.buf (nFastRMS freq * 1000 / freqHz freq) Ts nFastRmsBuf s.win.re

def frameNo (freq : UInt16) (s : Sys) (efr : Nat) : Nat :=
  s.read.length / nFastRMS freq - (s.win.fr + nFastRmsBuf - efr) % nFastRmsBuf

/-- The half cycle at which the event is put: as many after the first of its frame as whole periods
fit in between. -/
def eventNo (freq : UInt16) (s : Sys) (Ts efr : Nat) : Nat :=
  frameNo freq s efr * nFastRMS freq + evpos freq Ts (s.win.buf efr).ts

/-- The half cycle at which the event is put is the last one before it; the 1200 half cycles around
it have been read, end in a complete frame and begin in one that is not being overwritten. -/
structure Around (freq : UInt16) (r : Rcrd) (s : Sys) (Ts efr : Nat) : Prop where
  inFrame : evpos freq Ts (s.win.buf efr).ts < nFastRMS freq + preSamp r
  since : preSamp r ≤ eventNo freq s Ts efr
  complete : eventNo freq s Ts efr + 1200 ≤
    s.read.length / nFastRMS freq * nFastRMS freq + preSamp r
  kept : (s.read.length / nFastRMS freq + 1) * nFastRMS freq + preSamp r ≤
    eventNo freq s Ts efr + nFastRmsBuf * nFastRMS freq
  trigger : LastBefore s.read (eventNo freq s Ts efr) Ts

def Fits (freq : UInt16) (r : Rcrd) (s : Sys) (Ts : Nat) : Prop :=
  ∃ efr, eventFrame freq s Ts = some efr ∧ Around freq r s Ts efr

theorem findFrame_spec {buf : Nat → FastRms} {frameDur Ts : Nat} :
    ∀ {kk ix efr : Nat}, ix < nFastRmsBuf → findFrame buf frameDur Ts kk ix = some efr →
      efr < nFastRmsBuf ∧ (buf efr).ts ≠ 0
  | 0, _, _, _, found => nomatch found
  | kk + 1, ix, efr, inside, found => by
    rw [findFrame] at found
    split at found
    case isTrue here =>
      obtain rfl := Option.some.inj found
      exact ⟨inside, here.1⟩
    case isFalse =>
      apply findFrame_spec ?_ found
      split
      · decide
      · omega

/-- What `RMSCapture` can do: nothing is queued, the event is too old, it waits, it is captured. -/
theorem RMSCapture_cases (id : Fin 3) (freq : UInt16) (r : Rcrd) (unset : FsMsg) (s : Sys) :
    let e := s.rQ.Q s.rQ.re
    let done := RMSCapture id freq r unset s.win s.rQ s.win.re
    (s.rQ.fr = s.rQ.re ∧ done = (s.rQ, none)) ∨
      (s.rQ.fr ≠ s.rQ.re ∧ eventFrame freq s e.Ts.toNat = none ∧ done = (take s.rQ, none)) ∨
      ∃ efr, s.rQ.fr ≠ s.rQ.re ∧ eventFrame freq s e.Ts.toNat = some efr ∧
        (done = (s.rQ, none) ∨
          done = (take s.rQ, some (copySamples id freq r unset s.win e efr))) := by
  dsimp only
  by_cases empty : s.rQ.fr = s.rQ.re
  · refine .inl ⟨empty, ?_⟩
    rw [RMSCapture, if_pos empty]
  refine .inr ?_
  rw [RMSCapture, if_neg empty]
  dsimp only
  cases found : eventFrame freq s (s.rQ.Q s.rQ.re).Ts.toNat with
  | none =>
    refine .inl ⟨empty, rfl, ?_⟩
    rw [eventFrame] at found
    rw [found]
  | some efr =>
    refine .inr ⟨efr, empty, rfl, ?_⟩
    rw [eventFrame] at found
    rw [found]
    dsimp only
    split
    · split
      · exact .inl rfl
      · split
        · exact .inr rfl
        · exact .inl rfl
    · split
      · exact .inl rfl
      · split
        · exact .inr rfl
        · exact .inl rfl

private theorem metering_some {id : Fin 3} {freq : UInt16} {r : Rcrd} {unset : FsMsg} {s : Sys}
    {c : RmsCap} (inside : s.win.re < nFastRmsBuf)
    (recorded : (metering id freq r unset s).2 = some c) :
    ∃ e efr, c = copySamples id freq r unset s.win e efr ∧
      eventFrame freq s e.Ts.toNat = some efr ∧ efr < nFastRmsBuf ∧ (s.win.buf efr).ts ≠ 0 := by
  have called : (RMSCapture id freq r unset s.win s.rQ s.win.re).2 = some c := by
    unfold metering at recorded
    dsimp only at recorded
    split at recorded
    · split at recorded
      · exact recorded
      · split at recorded <;> cases recorded
    · cases recorded
  rcases RMSCapture_cases id freq r unset s with ⟨_, done⟩ | ⟨_, _, done⟩ | ⟨efr, _, found, done⟩
  · rw [done] at called
    cases called
  · rw [done] at called
    cases called
  · rcases done with done | done
    · rw [done] at called
      cases called
    · rw [done] at called
      obtain ⟨frame, begun⟩ := findFrame_spec inside found
      exact ⟨_, efr, (Option.some.inj called).symm, found, frame, begun⟩

theorem getFastRMSBuf_of_lt {w : FastRmsBuf} {ix : Nat} (inside : ix < nFastRmsBuf) :
    getFastRMSBuf w ix = w.buf ix := if_neg (Nat.ne_of_lt inside)

section Geometry

variable {id : Fin 3} {freq : UInt16} {r : Rcrd} {unset : FsMsg} {s : Sys} {e : CapEntry}
  {efr : Nat}

private theorem reads_inFrame (frame : efr < nFastRmsBuf)
    (inFrame : evpos freq e.Ts.toNat (s.win.buf efr).ts < nFastRMS freq + preSamp r) :
    (copySamples id freq r unset s.win e efr).reads = (List.range 1200).map fun k : Nat =>
      place (nFastRMS freq) (efr * nFastRMS freq +
        (evpos freq e.Ts.toNat (s.win.buf efr).ts - preSamp r : Int) + k) := by
  have some_ := nFastRMS_pos freq
  have pre := preSamp_lt r
  have enough : -(nFastRMS freq * (1200 : Nat) : Int) ≤
      evpos freq e.Ts.toNat (s.win.buf efr).ts - preSamp r := by omega
  obtain ⟨nonneg, less, inside, t, same⟩ := stepBack_spec 1200 _ efr frame enough
  have within := less (by omega)
  rw [copySamples]
  dsimp only
  rw [getFastRMSBuf_of_lt frame, readFrom_eq some_ 1200 _ _ (by omega) inside]
  apply List.map_congr_left
  intro k _
  apply place_congr (k := t) some_
  rw [Int.toNat_of_nonneg nonneg]
  omega

private theorem reads_beyond (frame : efr < nFastRmsBuf)
    (beyond : nFastRMS freq + preSamp r ≤ evpos freq e.Ts.toNat (s.win.buf efr).ts) :
    ∃ p ∈ (copySamples id freq r unset s.win e efr).reads, nFastRMS freq ≤ p.2 := by
  refine ⟨(efr, evpos freq e.Ts.toNat (s.win.buf efr).ts - preSamp r), ?_, by dsimp only; omega⟩
  rw [copySamples]
  dsimp only
  have ahead : ¬ (evpos freq e.Ts.toNat (s.win.buf efr).ts - preSamp r : Int) < 0 := by omega
  have position : (evpos freq e.Ts.toNat (s.win.buf efr).ts - preSamp r : Int).toNat =
      evpos freq e.Ts.toNat (s.win.buf efr).ts - preSamp r := by omega
  rw [getFastRMSBuf_of_lt frame, stepBack, if_neg ahead, readFrom, position]
  exact List.mem_cons_self

/-- The frame found has a number, which is that of a frame begun less than 60 frames ago. -/
theorem frameNo_spec (synced : Synced freq s) (frame : efr < nFastRmsBuf)
    (begun : (s.win.buf efr).ts ≠ 0) :
    frameNo freq s efr ≤ s.read.length / nFastRMS freq ∧
      s.read.length / nFastRMS freq < frameNo freq s efr + nFastRmsBuf ∧
      frameNo freq s efr % nFastRmsBuf = efr := by
  have some_ := nFastRMS_pos freq
  have started : efr * nFastRMS freq < s.read.length := by
    by_contra ahead
    exact begun (synced.blank efr frame (by omega))
  have reached : efr ≤ s.read.length / nFastRMS freq :=
    (Nat.le_div_iff_mul_le some_).mpr (Nat.le_of_lt started)
  rw [frameNo, synced.fr]
  change efr < 60 at frame
  change _ - (_ % 60 + 60 - efr) % 60 ≤ _ ∧ _ < _ - (_ % 60 + 60 - efr) % 60 + 60 ∧
    (_ - (_ % 60 + 60 - efr) % 60) % 60 = efr
  omega

private theorem reads_numbered (synced : Synced freq s) (frame : efr < nFastRmsBuf)
    (begun : (s.win.buf efr).ts ≠ 0)
    (inFrame : evpos freq e.Ts.toNat (s.win.buf efr).ts < nFastRMS freq + preSamp r) :
    (copySamples id freq r unset s.win e efr).reads = (List.range 1200).map fun k : Nat =>
      place (nFastRMS freq) ((eventNo freq s e.Ts.toNat efr - preSamp r : Int) + k) := by
  obtain ⟨_, _, slot⟩ := frameNo_spec synced frame begun
  rw [reads_inFrame frame inFrame]
  apply List.map_congr_left
  intro k _
  apply place_congr (k := -(frameNo freq s efr / nFastRmsBuf : Nat)) (nFastRMS_pos freq)
  have parts : frameNo freq s efr = nFastRmsBuf * (frameNo freq s efr / nFastRmsBuf) + efr := by
    have whole := Nat.div_add_mod (frameNo freq s efr) nFastRmsBuf
    omega
  have number : (frameNo freq s efr : Int) * nFastRMS freq = efr * nFastRMS freq +
      nFastRMS freq * (nFastRmsBuf * (frameNo freq s efr / nFastRmsBuf : Nat)) := by
    conv_lhs => rw [parts]
    rw [Int.natCast_add, Int.natCast_mul, Int.add_mul, Int.mul_comm _ (nFastRMS freq : Int),
      Int.add_comm]
  rw [eventNo]
  rw [Int.mul_neg, Int.mul_neg]
  push_cast at number ⊢
  omega

private theorem not_filled_open :
    ¬ Filled freq s (s.read.length / nFastRMS freq % nFastRmsBuf) := by
  rintro ⟨F, slot, complete, recent⟩
  have earlier : F < s.read.length / nFastRMS freq :=
    (Nat.le_div_iff_mul_le (nFastRMS_pos freq)).mpr complete
  change F % 60 = _ % 60 at slot
  change _ < F + 60 at recent
  omega

/-- Every frame of a span of complete frames is complete: the span is behind the open frame and less
than a turn long. -/
private theorem span_of_filled {S : Int} (negative : -1200 < S)
    (before : S / nFastRMS freq ≤ frameNo freq s efr)
    (after : (frameNo freq s efr : Int) ≤ (S + 1200 - 1) / nFastRMS freq)
    (latest : frameNo freq s efr ≤ s.read.length / nFastRMS freq)
    (recent : s.read.length / nFastRMS freq < frameNo freq s efr + nFastRmsBuf)
    (filled : ∀ k < 1200, Filled freq s (place (nFastRMS freq) (S + (k : Nat))).1) :
    0 ≤ S ∧ S + 1200 ≤ (s.read.length / nFastRMS freq * nFastRMS freq : Nat) ∧
      ((s.read.length / nFastRMS freq + 1) * nFastRMS freq : Nat) ≤
        S + (nFastRmsBuf * nFastRMS freq : Nat) := by
  have some_ := nFastRMS_pos freq
  have pos : (0 : Int) < nFastRMS freq := by omega
  have every : ∀ d : Int, S / nFastRMS freq ≤ d → d ≤ (S + 1200 - 1) / nFastRMS freq →
      Filled freq s (d % nFastRmsBuf).toNat := by
    intro d first last
    obtain ⟨k, inside, here⟩ := covers some_ first last (by decide)
    have complete := filled k inside
    rwa [place, block, here] at complete
  -- the open frame is not in the span, now or a turn ago
  have notNow : (S + 1200 - 1) / nFastRMS freq < (s.read.length / nFastRMS freq : Nat) := by
    by_contra reached
    exact not_filled_open (every (s.read.length / nFastRMS freq : Nat) (by omega) (by omega))
  have notAgo : ((s.read.length / nFastRMS freq : Nat) : Int) - nFastRmsBuf <
      S / nFastRMS freq := by
    by_contra reached
    have slot := every ((s.read.length / nFastRMS freq : Nat) - nFastRmsBuf) (by omega) (by omega)
    rw [Int.sub_emod_right] at slot
    exact not_filled_open slot
  have upper : S + 1200 - 1 < (s.read.length / nFastRMS freq : Nat) * nFastRMS freq :=
    Int.lt_mul_of_ediv_lt pos notNow
  have lower : (((s.read.length / nFastRMS freq : Nat) : Int) - nFastRmsBuf + 1) *
      nFastRMS freq ≤ S := Int.mul_le_of_le_ediv pos (by omega)
  have turn : ((s.read.length / nFastRMS freq + 1 : Nat) : Int) * nFastRMS freq ≤
      S + nFastRmsBuf * nFastRMS freq := by
    have shift : (((s.read.length / nFastRMS freq : Nat) : Int) - nFastRmsBuf + 1) *
        nFastRMS freq = ((s.read.length / nFastRMS freq + 1 : Nat) : Int) * nFastRMS freq -
          nFastRmsBuf * nFastRMS freq := by
      rw [← Int.sub_mul]
      congr 1
      push_cast
      omega
    omega
  refine ⟨?_, by push_cast at upper ⊢; omega, by push_cast at turn ⊢; omega⟩
  -- before the first half cycle lies the last slot, which is complete only after a whole turn
  by_contra early
  have first : S / (nFastRMS freq : Int) < 0 := Int.ediv_neg_of_neg_of_pos (by omega) pos
  obtain ⟨F, last, complete, _⟩ := every (-1) (by omega) (by omega)
  have whole : F + 1 ≤ s.read.length / nFastRMS freq :=
    (Nat.le_div_iff_mul_le some_).mpr complete
  change F % 60 = 59 at last
  have turned : (60 + 1) * nFastRMS freq ≤ (s.read.length / nFastRMS freq + 1) * nFastRMS freq :=
    Nat.mul_le_mul_right _ (by omega)
  rw [Nat.add_mul, Nat.one_mul] at turned
  have turned_ : (60 : Int) * nFastRMS freq + nFastRMS freq ≤
      ((s.read.length / nFastRMS freq + 1 : Nat) : Int) * nFastRMS freq := by
    exact_mod_cast turned
  change _ ≤ S + 60 * (nFastRMS freq : Int) at turn
  omega

private theorem half_numbered (synced : Synced freq s) (frame : efr < nFastRmsBuf)
    (begun : (s.win.buf efr).ts ≠ 0)
    (inFrame : evpos freq e.Ts.toNat (s.win.buf efr).ts < nFastRMS freq + preSamp r) {first : Nat}
    (from_ : first + preSamp r = eventNo freq s e.Ts.toNat efr)
    (complete : first + 1200 ≤ s.read.length)
    (kept : s.read.length ≤ first + nFastRmsBuf * nFastRMS freq) :
    (copySamples id freq r unset s.win e efr).half =
      (List.range 1200).map fun k => s.read[first + k]? := by
  have half : (copySamples id freq r unset s.win e efr).half =
      (copySamples id freq r unset s.win e efr).reads.map fun p => (s.win.buf p.1).half p.2 := rfl
  rw [half, reads_numbered synced frame begun inFrame, List.map_map]
  apply List.map_congr_left
  intro k member
  have inside := List.mem_range.mp member
  have number : ((eventNo freq s e.Ts.toNat efr - preSamp r : Int) + k) = (first + k : Nat) := by
    omega
  have present : first + k < s.read.length := by omega
  rw [Function.comp_apply, number, List.getElem?_eq_getElem present]
  exact synced.held (first + k) _ (List.getElem?_eq_getElem present) (by omega)

private theorem filled_of_between {j : Nat}
    (behind : j < s.read.length / nFastRMS freq * nFastRMS freq)
    (kept : (s.read.length / nFastRMS freq + 1) * nFastRMS freq ≤
      j + nFastRmsBuf * nFastRMS freq) :
    Filled freq s (place (nFastRMS freq) (j : Nat)).1 := by
  have some_ := nFastRMS_pos freq
  refine ⟨j / nFastRMS freq, rfl, ?_, ?_⟩
  · have earlier : j / nFastRMS freq < s.read.length / nFastRMS freq :=
      Nat.div_lt_of_lt_mul (by rwa [Nat.mul_comm])
    exact (Nat.le_div_iff_mul_le some_).mp earlier
  · have later : s.read.length / nFastRMS freq + 1 ≤
        (j + nFastRmsBuf * nFastRMS freq) / nFastRMS freq :=
      (Nat.le_div_iff_mul_le some_).mpr kept
    rw [Nat.add_mul_div_right _ _ some_] at later
    omega

private theorem around_of_good (synced : Synced freq s) (frame : efr < nFastRmsBuf)
    (begun : (s.win.buf efr).ts ≠ 0)
    (good : Good freq r s (copySamples id freq r unset s.win e efr)) :
    Around freq r s e.Ts.toNat efr := by
  have some_ := nFastRMS_pos freq
  have pre := preSamp_lt r
  have inFrame : evpos freq e.Ts.toNat (s.win.buf efr).ts < nFastRMS freq + preSamp r := by
    by_contra beyond
    obtain ⟨p, member, outside⟩ := reads_beyond frame (Nat.le_of_not_lt beyond)
    have within := (good.inside p member).2
    omega
  obtain ⟨latest, recent, _⟩ := frameNo_spec synced frame begun
  have reads := @reads_numbered id freq r unset s e efr synced frame begun inFrame
  have filled : ∀ k < 1200, Filled freq s (place (nFastRMS freq)
      ((eventNo freq s e.Ts.toNat efr - preSamp r : Int) + (k : Nat))).1 := by
    intro k inside
    apply good.filled
    rw [reads]
    exact List.mem_map_of_mem (List.mem_range.mpr inside)
  have before : (eventNo freq s e.Ts.toNat efr - preSamp r : Int) / nFastRMS freq ≤
      frameNo freq s efr := by
    apply Int.lt_add_one_iff.mp
    apply Int.ediv_lt_of_lt_mul (by omega)
    rw [Int.add_mul, Int.one_mul, eventNo]
    push_cast
    omega
  have after : (frameNo freq s efr : Int) ≤
      ((eventNo freq s e.Ts.toNat efr - preSamp r : Int) + 1200 - 1) / nFastRMS freq := by
    apply Int.le_ediv_of_mul_le (by omega)
    rw [eventNo]
    push_cast
    omega
  obtain ⟨since, complete, kept⟩ :=
    span_of_filled (by omega) before after latest recent filled
  obtain ⟨whole, rest⟩ := block_bounds some_ s.read.length
  obtain ⟨first, room, inOrder, trigger⟩ := good.inOrder
  have held := @half_numbered id freq r unset s e efr synced frame begun inFrame
    (eventNo freq s e.Ts.toNat efr - preSamp r) (by omega) (by omega) (by omega)
  -- both spans begin with the same half cycle
  have same : first = eventNo freq s e.Ts.toNat efr - preSamp r := by
    have heads := inOrder.symm.trans held
    have zero := congrArg (fun l => l[0]?) heads
    simp only [List.getElem?_map, List.getElem?_range (show 0 < 1200 by decide),
      Option.map_some, Nat.add_zero] at zero
    have one := Option.some.inj zero
    rw [List.getElem?_eq_getElem (by omega : first < s.read.length)] at one
    have left := synced.numbered first _ (List.getElem?_eq_getElem (by omega))
    have right := synced.numbered _ _ one.symm
    omega
  refine ⟨inFrame, by omega, by omega, by omega, ?_⟩
  have position : first + (copySamples id freq r unset s.win e efr).pos =
      eventNo freq s e.Ts.toNat efr := by
    rw [same]
    change _ + preSamp r = _
    omega
  rwa [position] at trigger

private theorem good_of_around (synced : Synced freq s) (frame : efr < nFastRmsBuf)
    (begun : (s.win.buf efr).ts ≠ 0) (around : Around freq r s e.Ts.toNat efr) :
    Good freq r s (copySamples id freq r unset s.win e efr) := by
  have some_ := nFastRMS_pos freq
  obtain ⟨inFrame, since, complete, kept, trigger⟩ := around
  have reads := @reads_numbered id freq r unset s e efr synced frame begun inFrame
  obtain ⟨whole, rest⟩ := block_bounds some_ s.read.length
  constructor
  · intro p member
    rw [reads] at member
    obtain ⟨k, _, rfl⟩ := List.mem_map.mp member
    exact ⟨block_lt (by decide) _, offset_lt some_ _⟩
  · intro p member
    rw [reads] at member
    obtain ⟨k, listed, rfl⟩ := List.mem_map.mp member
    have inside := List.mem_range.mp listed
    have number : ((eventNo freq s e.Ts.toNat efr - preSamp r : Int) + k) =
        (eventNo freq s e.Ts.toNat efr - preSamp r + k : Nat) := by omega
    rw [number]
    exact filled_of_between (by omega) (by omega)
  · exact ⟨rfl, preSamp_lt r⟩
  · refine ⟨eventNo freq s e.Ts.toNat efr - preSamp r, by omega, ?_, ?_⟩
    · exact half_numbered synced frame begun inFrame (by omega) (by omega) (by omega)
    · have position : eventNo freq s e.Ts.toNat efr - preSamp r +
          (copySamples id freq r unset s.win e efr).pos = eventNo freq s e.Ts.toNat efr := by
        change _ + preSamp r = _
        omega
      rwa [position]

end Geometry

theorem good_iff_fits {id : Fin 3} {freq : UInt16} {r : Rcrd} {unset : FsMsg} {s : Sys}
    {c : RmsCap} (synced : Synced freq s) (recorded : (metering id freq r unset s).2 = some c) :
    Good freq r s c ↔ Fits freq r s c.ts.toNat := by
  obtain ⟨e, efr, rfl, found, frame, begun⟩ := metering_some synced.re recorded
  constructor
  · intro good
    exact ⟨efr, found, around_of_good synced frame begun good⟩
  · rintro ⟨efr', found', around⟩
    obtain rfl := Option.some.inj (found.symm.trans found')
    exact good_of_around synced frame begun around

end SV300.Rms.Capture
