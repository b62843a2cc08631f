/- SV300/Rms/Recorder
   digest: The captures of all runs, and that no event stays at the head of the queue for ever. -/

import SV300.Library.Forever
import SV300.Rms.Capture

set_option autoImplicit false
set_option relaxedAutoImplicit false

namespace SV300.Rms.Recorder

open SV300.Detect.Capture (take)
open SV300.Detect.PqEvent
open SV300.Fs.Queue (FsMsg)
open SV300.Fs.Wave (freqHz)
open SV300.Library.Blocks SV300.Library.Forever SV300.Library.Runs
open SV300.Library.Ring (entry_concat)
open SV300.Rms.Capture SV300.Rms.HalfCycles

/-- The queue's oldest entry, if there is one, is of a given time. -/
def Heads (q : CapQ) (T : Nat) : Prop := q.fr ≠ q.re ∧ (q.Q q.re).Ts.toNat = T

private theorem heads_putEventCap {q : CapQ} {T : Nat} (heads : Heads q T) (e : CapEntry) :
    Heads (putEventCap q e) T := by
  unfold putEventCap
  dsimp only
  split
  case isTrue room =>
    refine ⟨room, ?_⟩
    dsimp only
    rw [Function.update_of_ne heads.1.symm]
    exact heads.2
  case isFalse => exact heads

private theorem heads_updateLastCapType {q : CapQ} {T : Nat} (heads : Heads q T)
    (oldType newType : EventType) : Heads (updateLastCapType q oldType newType) T := by
  unfold updateLastCapType
  split
  · dsimp only
    split
    · refine ⟨heads.1, ?_⟩
      dsimp only
      by_cases last : q.re = (q.fr + 8 - 1) % 8
      · rw [← last, Function.update_self]
        exact heads.2
      · rw [Function.update_of_ne last]
        exact heads.2
    · exact heads
  · exact heads

private theorem take_re_ne {q : CapQ} (queued : q.fr ≠ q.re) : (take q).re ≠ q.re := by
  have inside := q.re_lt
  rw [take, if_pos queued]
  dsimp only
  omega

private theorem metering_rQ {id : Fin 3} {freq : UInt16} {r : Rcrd} {unset : FsMsg} {s : Sys}
    (queued : s.rQ.fr ≠ s.rQ.re)
    (kept : (metering id freq r unset s).1.rQ.re = s.rQ.re) :
    (metering id freq r unset s).1.rQ = s.rQ := by
  revert kept
  unfold metering
  dsimp only
  split
  · split
    · dsimp only
      intro kept
      rcases RMSCapture_cases id freq r unset s with
        ⟨_, done⟩ | ⟨_, _, done⟩ | ⟨_, _, _, done | done⟩
      · rw [done]
      · rw [done] at kept
        exact absurd kept (take_re_ne queued)
      · rw [done]
      · rw [done] at kept
        exact absurd kept (take_re_ne queued)
    · split <;> exact fun _ => rfl
  · exact fun _ => rfl

private theorem heads_record {id : Fin 3} {freq : UInt16} {s : Sys} {T : Nat} (heads : Heads s.rQ T)
    (e : Event) (kept : (record id freq s e).rQ.re = s.rQ.re) :
    Heads (record id freq s e).rQ T := by
  cases e with
  | halfCycle tick U I => exact heads
  | putEventCap e => exact heads_putEventCap heads e
  | updateLastCapType oldType newType => exact heads_updateLastCapType heads oldType newType
  | wake r unset =>
    change Heads (metering id freq r unset s).1.rQ T
    rw [metering_rQ heads.1 kept]
    exact heads

private theorem findFrame_none {buf : Nat → FastRms} {frameDur Ts : Nat}
    (passed : ∀ f < nFastRmsBuf, Ts < (buf f).ts) :
    ∀ kk ix : Nat, ix < nFastRmsBuf → findFrame buf frameDur Ts kk ix = none
  | 0, _, _ => rfl
  | kk + 1, ix, inside => by
    have late := passed ix inside
    rw [findFrame]
    split
    case isTrue here => omega
    case isFalse =>
      apply findFrame_none passed kk
      split
      · decide
      · omega

private theorem eventFrame_none {freq : UInt16} {s : Sys} {T l : Nat} (synced : Synced freq s)
    (passed : ∀ (j : Nat) (a : HalfCycle), l ≤ j → s.read[j]? = some a → T < a.tick)
    (enough : l + 61 * nFastRMS freq < s.read.length) : eventFrame freq s T = none := by
  have some_ := nFastRMS_pos freq
  apply findFrame_none ?_ _ _ synced.re
  intro f inside
  change f < 60 at inside
  -- the newest frame begun, and from it the newest one in the slot
  obtain ⟨newest, isNewest⟩ : ∃ c, c = (s.read.length - 1) / nFastRMS freq := ⟨_, rfl⟩
  obtain ⟨low, next⟩ := block_bounds some_ (s.read.length - 1)
  rw [← isNewest] at low next
  have high : s.read.length ≤ (newest + 1) * nFastRMS freq := by omega
  have turned : l + 60 * nFastRMS freq ≤ newest * nFastRMS freq := by
    rw [Nat.add_mul, Nat.one_mul] at high
    omega
  have full : 60 ≤ newest := by
    apply Nat.le_of_mul_le_mul_right (c := nFastRMS freq) ?_ some_
    omega
  obtain ⟨F, isF⟩ : ∃ F, F = newest - (newest + 60 - f) % 60 := ⟨_, rfl⟩
  have slot : F % 60 = f := by omega
  have older : F ≤ newest := by omega
  have near : newest < F + 60 := by omega
  have begins : F * nFastRMS freq ≤ newest * nFastRMS freq := Nat.mul_le_mul_right _ older
  have turn : (newest + 1) * nFastRMS freq ≤ (F + 60) * nFastRMS freq :=
    Nat.mul_le_mul_right _ near
  have since : l ≤ F * nFastRMS freq := by
    have less : newest * nFastRMS freq ≤ (F + 60) * nFastRMS freq :=
      Nat.mul_le_mul_right _ (by omega)
    rw [Nat.add_mul] at less
    omega
  have present : F * nFastRMS freq < s.read.length := by omega
  have first := synced.began F _ (List.getElem?_eq_getElem present) (high.trans turn)
  change (s.win.buf (F % 60)).ts = _ at first
  rw [← slot, first]
  exact passed _ _ since (List.getElem?_eq_getElem present)

private theorem metering_win_of_passed {id : Fin 3} {freq : UInt16} {r : Rcrd} {unset : FsMsg}
    {s : Sys} {T : Nat} (heads : Heads s.rQ T) (gone : eventFrame freq s T = none)
    (kept : (metering id freq r unset s).1.rQ.re = s.rQ.re) :
    (metering id freq r unset s).1.win = s.win := by
  revert kept
  unfold metering
  dsimp only
  split
  · split
    · dsimp only
      intro kept
      exfalso
      rcases RMSCapture_cases id freq r unset s with
        ⟨empty, _⟩ | ⟨queued, _, done⟩ | ⟨efr, _, found, _⟩
      · exact heads.1 empty
      · rw [done] at kept
        exact take_re_ne queued kept
      · rw [heads.2, gone] at found
        cases found
    · split <;> exact fun _ => rfl
  · exact fun _ => rfl

def lag (s : Sys) : Nat := (s.win.fr + nFastRmsBuf - s.win.re) % nFastRmsBuf

/-- The reader is in time for the next half cycle: it does not complete the ring. -/
def InTime (freq : UInt16) (s : Sys) : Prop :=
  s.win.ix + 1 = nFastRMS freq → (s.win.fr + 1) % nFastRmsBuf ≠ s.win.re

private theorem lag_record {id : Fin 3} {freq : UInt16} {s : Sys} (synced : Synced freq s)
    (e : Event) (inTime : ∀ tick U I, e = .halfCycle tick U I → InTime freq s)
    (still : (record id freq s e).win.re = s.win.re) :
    lag (record id freq s e) + s.read.length / nFastRMS freq =
      lag s + (record id freq s e).read.length / nFastRMS freq := by
  cases e with
  | halfCycle tick U I =>
    have some_ := nFastRMS_pos freq
    have after := @Synced.halfCycle id freq s synced tick U I
    have longer : (record id freq s (.halfCycle tick U I)).read.length = s.read.length + 1 := by
      rw [record, List.length_append, List.length_singleton]
    have fr := synced.fr
    have fr_ := after.fr
    have re := synced.re
    have early := inTime tick U I rfl
    rw [InTime, synced.ix, synced.fr] at early
    rw [longer] at fr_ ⊢
    rw [lag, lag, still, fr, fr_]
    change s.win.re < 60 at re
    change _ → (_ % 60 + 1) % 60 ≠ _ at early
    change (_ % 60 + 60 - _) % 60 + _ = (_ % 60 + 60 - _) % 60 + _
    have below := Nat.mod_lt s.read.length some_
    rcases Nat.lt_or_ge (s.read.length % nFastRMS freq + 1) (nFastRMS freq) with inner | last
    · rw [(next_inside inner).1]
    · have around := early (by omega)
      rw [(next_block some_ last).1]
      omega
  | putEventCap e => rfl
  | updateLastCapType oldType newType => rfl
  | wake r unset =>
    obtain ⟨fr, _, _, read⟩ := metering_win id freq r unset s
    change (metering id freq r unset s).1.win.re = _ at still
    change lag (metering id freq r unset s).1 + _ =
      _ + (metering id freq r unset s).1.read.length / _
    rw [lag, lag, fr, still, read]

private theorem read_record (id : Fin 3) (freq : UInt16) (s : Sys) (e : Event) :
    (record id freq s e).read = s.read ∨
      ∃ tick U I, e = .halfCycle tick U I ∧
        (record id freq s e).read = s.read ++ [⟨s.read.length, tick, U, I⟩] := by
  cases e with
  | halfCycle tick U I => exact .inr ⟨tick, U, I, rfl, rfl⟩
  | putEventCap e => exact .inl rfl
  | updateLastCapType oldType newType => exact .inl rfl
  | wake r unset => exact .inl (metering_win id freq r unset s).2.2.2

/-- Half cycles are read for ever, at times that pass every time for good, and `Metering_Task` is
never a whole ring behind. -/
structure Goes (id : Fin 3) (freq : UInt16) (es : Nat → Event) : Prop where
  reads : ∀ k, ∃ m ≥ k, ∃ tick U I, es m = .halfCycle tick U I
  clock : ∀ T, ∃ k, ∀ m ≥ k, ∀ tick U I, es m = .halfCycle tick U I → T < tick
  inTime : ∀ k tick U I, es k = .halfCycle tick U I →
    InTime freq (trail (record id freq) start es k)

section Endless

variable {id : Fin 3} {freq : UInt16} {es : Nat → Event}

private theorem synced_trail (k : Nat) : Synced freq (trail (record id freq) start es k) :=
  trail_always (fun _ e synced => synced.step e) (synced_start freq) es k

private theorem length_mono :
    Monotone fun k => (trail (record id freq) start es k).read.length := by
  apply monotone_nat_of_le_succ
  intro k
  rw [trail_succ]
  rcases read_record id freq (trail (record id freq) start es k) (es k) with
    same | ⟨_, _, _, _, longer⟩
  · rw [same]
  · rw [longer, List.length_append]
    exact Nat.le_add_right _ _

private theorem length_exceeds (goes : Goes id freq es) (b k : Nat) :
    ∃ m ≥ k, b ≤ (trail (record id freq) start es m).read.length := by
  apply exceeds length_mono
  intro k
  obtain ⟨m, later, tick, U, I, halfCycle⟩ := goes.reads k
  refine ⟨m, later, ?_⟩
  rw [trail_succ, halfCycle, record, List.length_append]
  exact Nat.lt_add_one _

private theorem passed_trail {k T : Nat}
    (clock : ∀ m ≥ k, ∀ tick U I, es m = .halfCycle tick U I → T < tick) {m : Nat}
    (later : k ≤ m) : ∀ (j : Nat) (a : HalfCycle),
      (trail (record id freq) start es k).read.length ≤ j →
      (trail (record id freq) start es m).read[j]? = some a → T < a.tick := by
  refine from_on (P := fun m => ∀ (j : Nat) (a : HalfCycle),
    (trail (record id freq) start es k).read.length ≤ j →
      (trail (record id freq) start es m).read[j]? = some a → T < a.tick) ?_ ?_ later
  · intro j a beyond entry
    rw [List.getElem?_eq_none beyond] at entry
    cases entry
  · intro m later ih j a beyond entry
    rw [trail_succ] at entry
    rcases read_record id freq (trail (record id freq) start es m) (es m) with
      same | ⟨tick, U, I, halfCycle, longer⟩
    · rw [same] at entry
      exact ih j a beyond entry
    · rw [longer] at entry
      rcases entry_concat entry with ⟨_, entry⟩ | ⟨_, rfl⟩
      · exact ih j a beyond entry
      · exact clock m later tick U I halfCycle

private theorem eventFrame_gone (goes : Goes id freq es) (T k : Nat) :
    ∃ c ≥ k, ∀ m, c ≤ m → eventFrame freq (trail (record id freq) start es m) T = none := by
  obtain ⟨late, clock⟩ := goes.clock T
  have clock_ : ∀ m ≥ max late k, ∀ tick U I, es m = .halfCycle tick U I → T < tick :=
    fun m after => clock m ((Nat.le_max_left _ _).trans after)
  obtain ⟨turn, since, turned⟩ := length_exceeds goes
    ((trail (record id freq) start es (max late k)).read.length + 61 * nFastRMS freq + 1)
    (max late k)
  refine ⟨turn, (Nat.le_max_right _ _).trans since, fun m later => ?_⟩
  have longer := @length_mono id freq es _ _ later
  exact eventFrame_none (synced_trail m) (passed_trail clock_ (since.trans later))
    (Nat.lt_of_lt_of_le turned longer)

private theorem heads_trail {k T : Nat} (head : Heads (trail (record id freq) start es k).rQ T)
    (stuck : ∀ m, k ≤ m → (trail (record id freq) start es m).rQ.re =
      (trail (record id freq) start es k).rQ.re) {m : Nat} (later : k ≤ m) :
    Heads (trail (record id freq) start es m).rQ T := by
  refine from_on (P := fun m => Heads (trail (record id freq) start es m).rQ T) head ?_ later
  intro m later ih
  exact heads_record ih (es m)
    ((stuck (m + 1) (Nat.le_succ_of_le later)).trans (stuck m later).symm)

private theorem still_of_gone {m T : Nat} (heads : Heads (trail (record id freq) start es m).rQ T)
    (gone : eventFrame freq (trail (record id freq) start es m) T = none)
    (kept : (trail (record id freq) start es (m + 1)).rQ.re =
      (trail (record id freq) start es m).rQ.re) :
    (trail (record id freq) start es (m + 1)).win.re =
      (trail (record id freq) start es m).win.re := by
  rw [trail_succ] at kept ⊢
  cases event : es m with
  | halfCycle tick U I => exact readPhaseFastRMS_re freq _ _
  | putEventCap e => rfl
  | updateLastCapType oldType newType => rfl
  | wake r unset =>
    rw [event] at kept
    change (metering id freq r unset _).1.win.re = _
    rw [metering_win_of_passed heads gone kept]

private theorem lag_trail (goes : Goes id freq es) {k : Nat}
    (still : ∀ m, k ≤ m → (trail (record id freq) start es (m + 1)).win.re =
      (trail (record id freq) start es m).win.re) {m : Nat} (later : k ≤ m) :
    lag (trail (record id freq) start es m) +
        (trail (record id freq) start es k).read.length / nFastRMS freq =
      lag (trail (record id freq) start es k) +
        (trail (record id freq) start es m).read.length / nFastRMS freq := by
  refine from_on (P := fun m => lag (trail (record id freq) start es m) +
    (trail (record id freq) start es k).read.length / nFastRMS freq =
      lag (trail (record id freq) start es k) +
        (trail (record id freq) start es m).read.length / nFastRMS freq) rfl ?_ later
  intro m later ih
  have more := lag_record (synced_trail m) (es m) (fun tick U I e => goes.inTime m tick U I e)
    (still m later)
  change lag (trail (record id freq) start es (m + 1)) + _ =
    _ + (trail (record id freq) start es (m + 1)).read.length / _ at more
  omega

private theorem reader_moves (goes : Goes id freq es) (k : Nat) :
    ∃ m ≥ k, (trail (record id freq) start es (m + 1)).win.re ≠
      (trail (record id freq) start es m).win.re := by
  by_contra stands
  have still : ∀ m, k ≤ m → (trail (record id freq) start es (m + 1)).win.re =
      (trail (record id freq) start es m).win.re := by
    intro m later
    by_contra moves
    exact stands ⟨m, later, moves⟩
  obtain ⟨m, later, many⟩ := length_exceeds goes
    (((trail (record id freq) start es k).read.length / nFastRMS freq + 60) * nFastRMS freq) k
  have frames : (trail (record id freq) start es k).read.length / nFastRMS freq + 60 ≤
      (trail (record id freq) start es m).read.length / nFastRMS freq :=
    (Nat.le_div_iff_mul_le (nFastRMS_pos freq)).mpr many
  have bound : lag (trail (record id freq) start es m) < 60 := Nat.mod_lt _ (by decide)
  have behind := lag_trail goes still later
  omega

/-- The oldest event does not stay for ever: with its frame gone the reader would have to stand
still. -/
private theorem leaves (goes : Goes id freq es) {k : Nat}
    (queued : (trail (record id freq) start es k).rQ.fr ≠
      (trail (record id freq) start es k).rQ.re) :
    ∃ m > k, (trail (record id freq) start es m).rQ.re ≠
      (trail (record id freq) start es k).rQ.re := by
  by_contra stays
  have stuck : ∀ m, k ≤ m → (trail (record id freq) start es m).rQ.re =
      (trail (record id freq) start es k).rQ.re := by
    intro m later
    by_contra moved
    rcases Nat.eq_or_lt_of_le later with rfl | after
    · exact moved rfl
    · exact stays ⟨m, after, moved⟩
  obtain ⟨T, head⟩ : ∃ T, Heads (trail (record id freq) start es k).rQ T := ⟨_, queued, rfl⟩
  obtain ⟨turn, since, gone⟩ := eventFrame_gone goes T k
  obtain ⟨m, later, moves⟩ := reader_moves goes turn
  have known : k ≤ m := since.trans later
  apply moves
  exact still_of_gone (heads_trail head stuck known) (gone m later)
    ((stuck (m + 1) (Nat.le_succ_of_le known)).trans (stuck m known).symm)

end Endless

/-- In every run a capture has its places in the ring, its frames complete and its half cycles in a
row with the event at the marked one exactly if it fits, and in every endless run each event leaves
the head of the queue. -/
theorem capture_good_iff (id : Fin 3) (freq : UInt16) :
    (∀ (es : List Event) (r : Rcrd) (unset : FsMsg) (c : RmsCap),
      (metering id freq r unset (run (record id freq) start es)).2 = some c →
        (Good freq r (run (record id freq) start es) c ↔
          Fits freq r (run (record id freq) start es) c.ts.toNat)) ∧
      ∀ es : Nat → Event, Goes id freq es → ∀ k,
        (trail (record id freq) start es k).rQ.fr ≠ (trail (record id freq) start es k).rQ.re →
          ∃ m > k, (trail (record id freq) start es m).rQ.re ≠
            (trail (record id freq) start es k).rQ.re :=
  ⟨fun es _ _ _ recorded => good_iff_fits (synced_run id freq es) recorded,
    fun _ goes _ queued => leaves goes queued⟩

section Steady

private def halves (l k : Nat) : List Event :=
  (List.range k).map fun i => .halfCycle (1000 + 10 * (l + i)) (fun _ => 0) (fun _ => 0)

private def blankMsg : FsMsg := ⟨"", .w, 0, none, 0, fun _ => 0, false⟩

private def wake : Event := .wake ⟨0, 0⟩ blankMsg

private abbrev step : Sys → Event → Sys := record 0 1

private structure At (s : Sys) (l re : Nat) (ready : Bool) (q : CapQ) : Prop where
  synced : Synced 1 s
  length : s.read.length = l
  re : s.win.re = re
  ready : s.bF = ready
  rQ : s.rQ = q
  ticks : ∀ (j : Nat) (a : HalfCycle), s.read[j]? = some a → a.tick = 1000 + 10 * j

private theorem At.halfCycle {s : Sys} {l re : Nat} {ready : Bool} {q : CapQ}
    (here : At s l re ready q) :
    At (step s (.halfCycle (1000 + 10 * l) (fun _ => 0) (fun _ => 0))) (l + 1) re ready q := by
  refine ⟨here.synced.step _, ?_, ?_, here.ready, here.rQ, ?_⟩
  · rw [step, record, List.length_append, here.length]
    rfl
  · exact (readPhaseFastRMS_re _ _ _).trans here.re
  · intro j a entry
    rcases entry_concat entry with ⟨_, entry⟩ | ⟨rfl, rfl⟩
    · exact here.ticks j a entry
    · dsimp only
      rw [here.length]

private theorem At.halves {s : Sys} {l re : Nat} {ready : Bool} {q : CapQ}
    (here : At s l re ready q) (k : Nat) : At (run step s (halves l k)) (l + k) re ready q := by
  induction k with
  | zero => exact here
  | succ k ih =>
    rw [Recorder.halves, List.range_succ, List.map_append, run_append]
    exact ih.halfCycle

private theorem At.starts {s : Sys} {l : Nat} {q : CapQ} (here : At s l 0 false q)
    (enough : 10 < l / 100 % 60) : At (step s wake) l 0 true q := by
  have fr : s.win.fr = l / 100 % 60 := by
    rw [← here.length]
    exact here.synced.fr
  have after : step s wake = { s with bF := true } := by
    have apart : s.win.fr ≠ s.win.re := by
      rw [here.re]
      omega
    have many : 10 < s.win.fr := by omega
    have waits : ¬ s.bF = true := by
      rw [here.ready]
      decide
    rw [step, wake, record, metering]
    dsimp only
    rw [if_pos apart, if_neg waits, if_pos many]
  rw [after]
  exact ⟨here.synced.of_same rfl rfl rfl rfl here.synced.re, here.length, here.re, rfl, here.rQ,
    here.ticks⟩

private theorem At.passes {s : Sys} {l re : Nat} {q : CapQ} (here : At s l re true q)
    (empty : q.fr = q.re) (k : Nat) (behind : re + k ≤ l / 100 % 60) :
    At (run step s (List.replicate k wake)) l (re + k) true q := by
  induction k with
  | zero => exact here
  | succ k ih =>
    have before := ih (by omega)
    rw [List.replicate_succ', run_append]
    obtain ⟨t, isT⟩ : ∃ t, t = run step s (List.replicate k wake) := ⟨_, rfl⟩
    rw [← isT] at before ⊢
    have fr : t.win.fr = l / 100 % 60 := by
      rw [← before.length]
      exact before.synced.fr
    have below : l / 100 % 60 < 60 := Nat.mod_lt _ (by decide)
    have after : step t wake = { t with win := { t.win with re := re + k + 1 } } := by
      have apart : t.win.fr ≠ t.win.re := by
        rw [before.re]
        omega
      have inside : ¬ nFastRmsBuf ≤ t.win.re + 1 := by
        rw [before.re]
        change ¬ 60 ≤ _
        omega
      have none : t.rQ.fr = t.rQ.re := by
        rw [before.rQ]
        exact empty
      rw [step, wake, record, metering]
      dsimp only
      rw [if_pos apart, if_pos before.ready, if_neg inside, RMSCapture, if_pos none, before.re]
    rw [run_cons, run_nil, after]
    refine ⟨before.synced.of_same rfl rfl rfl rfl ?_, before.length, rfl, before.ready, before.rQ,
      before.ticks⟩
    change re + k + 1 < 60
    omega

/-- A sag found to be an interruption late: its start, in frame 11, is queued in frame 22. -/
private def late (Ts : UInt64) : List Event :=
  halves 0 1100 ++ [wake] ++ List.replicate 11 wake ++ halves 1100 1100 ++
    List.replicate 11 wake ++ halves 2200 51 ++ [.putEventCap ⟨Ts, .E_sINTR⟩] ++ halves 2251 49

private theorem At.queues {s : Sys} {l re : Nat} {ready : Bool} {q : CapQ}
    (here : At s l re ready q) (e : CapEntry) :
    At (step s (.putEventCap e)) l re ready (putEventCap q e) :=
  ⟨here.synced.step _, here.length, here.re, here.ready, congrArg (putEventCap · e) here.rQ,
    here.ticks⟩

private theorem late_at (Ts : UInt64) :
    At (run step start (late Ts)) 2300 22 true (putEventCap start.rQ ⟨Ts, .E_sINTR⟩) := by
  have begin_ : At start 0 0 false start.rQ := ⟨synced_start 1, rfl, rfl, rfl, rfl, by
    intro j a entry
    cases entry⟩
  have first := begin_.halves 1100
  rw [show 0 + 1100 = 1100 by omega] at first
  have ready := (first.starts (by omega)).passes rfl 11 (by omega)
  have second := ready.halves 1100
  rw [show 0 + 11 = 11 by omega, show 1100 + 1100 = 2200 by omega] at second
  have third := (second.passes rfl 11 (by omega)).halves 51
  rw [show 11 + 11 = 22 by omega, show 2200 + 51 = 2251 by omega] at third
  have last := (third.queues ⟨Ts, .E_sINTR⟩).halves 49
  rw [show 2251 + 49 = 2300 by omega] at last
  rw [late, run_append, run_append, run_append, run_append, run_append, run_append, run_append,
    run_cons, run_nil, run_cons, run_nil]
  exact last

private theorem findFrame_back {buf : Nat → FastRms} {frameDur Ts kk a : Nat} :
    ∀ k : Nat, (∀ f, a < f → f ≤ a + k → Ts < (buf f).ts) →
      findFrame buf frameDur Ts (kk + k) (a + k) = findFrame buf frameDur Ts kk a
  | 0, _ => rfl
  | k + 1, passed => by
    have late := passed (a + (k + 1)) (by omega) (by omega)
    have before : a + (k + 1) ≠ 0 := by omega
    rw [← Nat.add_assoc kk, findFrame, if_neg (by omega), if_neg before]
    exact findFrame_back k fun f after within => passed f after (by omega)

private theorem At.ts {s : Sys} {l re : Nat} {ready : Bool} {q : CapQ} (here : At s l re ready q)
    {f : Nat} (inside : f < 60) (begun : f * 100 < l) (recent : l ≤ (f + 60) * 100) :
    (s.win.buf f).ts = 1000 + 1000 * f := by
  have present : f * 100 < s.read.length := by
    rw [here.length]
    exact begun
  have entry := List.getElem?_eq_getElem present
  have first := here.synced.began f _ entry (by
    rw [here.length]
    exact recent)
  change (s.win.buf (f % 60)).ts = _ at first
  rw [Nat.mod_eq_of_lt inside] at first
  rw [first, here.ticks _ _ entry]
  omega

private theorem late_recorded {Ts : UInt64} (low : 12000 ≤ Ts.toNat) (high : Ts.toNat < 13000) :
    eventFrame 1 (run step start (late Ts)) Ts.toNat = some 11 ∧
      (metering 0 1 ⟨0, 0⟩ blankMsg (run step start (late Ts))).2 =
        some (copySamples 0 1 ⟨0, 0⟩ blankMsg (run step start (late Ts)).win
          ⟨Ts, .E_sINTR⟩ 11) := by
  have here := late_at Ts
  obtain ⟨s, isS⟩ : ∃ s, s = run step start (late Ts) := ⟨_, rfl⟩
  rw [← isS] at here ⊢
  have eleven : (s.win.buf 11).ts = 12000 := here.ts (by decide) (by decide) (by decide)
  have found : findFrame s.win.buf (nFastRMS 1 * 1000 / freqHz 1) Ts.toNat nFastRmsBuf 22 =
      some 11 := by
    have back := @findFrame_back s.win.buf (nFastRMS 1 * 1000 / freqHz 1) Ts.toNat 49 11 11 (by
      intro f after within
      rw [here.ts (by omega) (by omega) (by omega)]
      omega)
    refine back.trans ?_
    have here_ : (s.win.buf 11).ts ≠ 0 ∧ (s.win.buf 11).ts ≤ Ts.toNat ∧
        Ts.toNat < (s.win.buf 11).ts + nFastRMS 1 * 1000 / freqHz 1 := by
      rw [eleven]
      change _ ∧ _ ∧ _ < 12000 + 2000
      omega
    rw [findFrame]
    exact if_pos here_
  have fr : s.win.fr = 23 := by
    rw [here.synced.fr, here.length]
    rfl
  have apart : s.win.fr ≠ s.win.re := by
    rw [fr, here.re]
    decide
  have queued : ¬ s.rQ.fr = s.rQ.re := by
    rw [here.rQ]
    exact Nat.one_ne_zero
  have head : s.rQ.Q s.rQ.re = ⟨Ts, .E_sINTR⟩ := by
    rw [here.rQ]
    rfl
  have next : (getFastRMSBuf s.win 11).ts ≤ Ts.toNat ∧
      Ts.toNat < (getFastRMSBuf s.win (11 + 1)).ts := by
    have twelve : (s.win.buf 12).ts = 13000 := here.ts (by decide) (by decide) (by decide)
    rw [getFastRMSBuf_of_lt (by decide), getFastRMSBuf_of_lt (by decide), eleven, twelve]
    exact ⟨low, high⟩
  refine ⟨?_, ?_⟩
  · rw [eventFrame, here.re]
    exact found
  · rw [metering]
    dsimp only
    rw [if_pos apart, if_pos here.ready, here.re, RMSCapture, if_neg queued, head]
    dsimp only
    rw [found]
    dsimp only
    rw [if_neg (by decide), if_pos next]

private theorem late_number {s : Sys} {re : Nat} {ready : Bool} {q : CapQ}
    (here : At s 2300 re ready q) (Ts : Nat) : eventNo 1 s Ts 11 = 1100 + (Ts - 12000) / 20 := by
  have fr : s.win.fr = 23 := by
    rw [here.synced.fr, here.length]
    rfl
  rw [eventNo, frameNo, here.length, fr, here.ts (by decide) (by decide) (by decide)]
  rfl

private theorem late_around {s : Sys} {re : Nat} {ready : Bool} {q : CapQ} {Ts : Nat}
    (here : At s 2300 re ready q) (low : 12000 ≤ Ts) (high : Ts < 13000) :
    Around 1 ⟨0, 0⟩ s Ts 11 ↔ Ts < 12010 := by
  have number := late_number here Ts
  obtain ⟨t, isT⟩ : ∃ t, t = 1100 + (Ts - 12000) / 20 := ⟨_, rfl⟩
  rw [← isT] at number
  have present : t + 1 < s.read.length := by
    rw [here.length]
    omega
  have next := here.ticks _ _ (List.getElem?_eq_getElem present)
  constructor
  · intro around
    obtain ⟨a, _, _, before⟩ := around.trigger
    rw [number] at before
    have after := before _ (List.getElem?_eq_getElem present)
    omega
  · intro early
    have pre : preSamp ⟨0, 0⟩ = 300 := by simp [preSamp]
    have frames : s.read.length / nFastRMS 1 * nFastRMS 1 = 2300 := by
      rw [here.length]
      rfl
    have more : (s.read.length / nFastRMS 1 + 1) * nFastRMS 1 = 2400 := by
      rw [here.length]
      rfl
    have turn : nFastRmsBuf * nFastRMS 1 = 6000 := rfl
    refine ⟨?_, by omega, by omega, by omega, ?_⟩
    · rw [here.ts (by decide) (by decide) (by decide)]
      change (Ts - 12000) / 20 < 100 + 300
      omega
    · have inside : t < s.read.length := by omega
      rw [number]
      refine ⟨_, List.getElem?_eq_getElem inside, ?_, fun b entry => ?_⟩
      · rw [here.ticks _ _ (List.getElem?_eq_getElem inside)]
        omega
      · rw [here.ticks _ _ entry]
        omega

private theorem late_good {Ts : UInt64} (low : 12000 ≤ Ts.toNat) (high : Ts.toNat < 13000) :
    Good 1 ⟨0, 0⟩ (run step start (late Ts))
        (copySamples 0 1 ⟨0, 0⟩ blankMsg (run step start (late Ts)).win ⟨Ts, .E_sINTR⟩ 11) ↔
      Ts.toNat < 12010 := by
  obtain ⟨found, recorded⟩ := late_recorded low high
  have here := late_at Ts
  obtain ⟨s, isS⟩ : ∃ s, s = run step start (late Ts) := ⟨_, rfl⟩
  rw [← isS] at here found recorded ⊢
  rw [good_iff_fits here.synced recorded, ← late_around here low high]
  constructor
  · rintro ⟨efr, same, around⟩
    obtain rfl := Option.some.inj (found.symm.trans same)
    exact around
  · exact fun around => ⟨11, found, around⟩

/-- An event is queued, then half cycles and passes take turns. -/
private def pace (k : Nat) : Event :=
  if k = 0 then .putEventCap ⟨0, .E_SAG⟩
  else if k % 2 = 1 then .halfCycle k (fun _ => 0) (fun _ => 0) else wake

/-- The reader has not begun, or is eleven frames behind at most. -/
private def Near (s : Sys) : Prop :=
  (s.bF = false ∧ s.win.re = 0 ∧ s.win.fr ≤ 10) ∨ (s.bF = true ∧ lag s ≤ 11)

private theorem Near.inTime {s : Sys} (synced : Synced 1 s) (near : Near s) : InTime 1 s := by
  have fr : s.win.fr < 60 := by
    rw [synced.fr]
    exact Nat.mod_lt _ (by decide)
  have re : s.win.re < 60 := synced.re
  intro _
  change (s.win.fr + 1) % 60 ≠ s.win.re
  rcases near with ⟨_, first, early⟩ | ⟨_, behind⟩
  · omega
  · change (s.win.fr + 60 - s.win.re) % 60 ≤ 11 at behind
    omega

private theorem Near.pair {s : Sys} (synced : Synced 1 s) (near : Near s) (tick : Nat)
    (U I : Fin 3 → Int32) : Near (step (step s (.halfCycle tick U I)) wake) := by
  have fr : s.win.fr < 60 := by
    rw [synced.fr]
    exact Nat.mod_lt _ (by decide)
  have re : s.win.re < 60 := synced.re
  obtain ⟨t, isT⟩ : ∃ t, t = step s (.halfCycle tick U I) := ⟨_, rfl⟩
  have bF : t.bF = s.bF := by rw [isT, step, record]
  have still : t.win.re = s.win.re := by
    rw [isT]
    exact readPhaseFastRMS_re _ _ _
  have moved : t.win.fr = s.win.fr ∨ t.win.fr = (s.win.fr + 1) % 60 := by
    rw [isT]
    change (readPhaseFastRMS 1 _ s.win).fr = _ ∨ (readPhaseFastRMS 1 _ s.win).fr = _
    unfold readPhaseFastRMS
    dsimp only
    split
    · refine .inr ?_
      change (if 60 ≤ s.win.fr + 1 then 0 else s.win.fr + 1) = _
      split <;> omega
    · exact .inl rfl
  rw [← isT]
  change Near (metering 0 1 ⟨0, 0⟩ blankMsg t).1
  unfold metering
  dsimp only
  rcases near with ⟨waits, first, early⟩ | ⟨ready, behind⟩
  · split
    case isTrue apart =>
      rw [if_neg (by rw [bF, waits]; decide)]
      split
      case isTrue enough =>
        refine .inr ⟨rfl, ?_⟩
        change (t.win.fr + 60 - t.win.re) % 60 ≤ 11
        omega
      case isFalse few => exact .inl ⟨bF.trans waits, still.trans first, Nat.le_of_not_lt few⟩
    case isFalse same =>
      refine .inl ⟨bF.trans waits, still.trans first, ?_⟩
      change t.win.fr ≤ 10
      omega
  · change (s.win.fr + 60 - s.win.re) % 60 ≤ 11 at behind
    split
    case isTrue apart =>
      rw [if_pos (bF.trans ready)]
      refine .inr ⟨bF.trans ready, ?_⟩
      change (t.win.fr + 60 - if 60 ≤ t.win.re + 1 then 0 else t.win.re + 1) % 60 ≤ 11
      split <;> omega
    case isFalse same =>
      refine .inr ⟨bF.trans ready, ?_⟩
      change (t.win.fr + 60 - t.win.re) % 60 ≤ 11
      omega

private theorem pace_near (k : Nat) : Near (trail step start pace (2 * k + 1)) := by
  induction k with
  | zero => exact .inl ⟨rfl, rfl, by decide⟩
  | succ k ih =>
    have odd : pace (2 * k + 1) = .halfCycle (2 * k + 1) (fun _ => 0) (fun _ => 0) := by
      rw [pace, if_neg (by omega), if_pos (by omega)]
    have even : pace (2 * k + 2) = wake := by rw [pace, if_neg (by omega), if_neg (by omega)]
    have next : 2 * (k + 1) + 1 = 2 * k + 1 + 1 + 1 := by omega
    rw [next, trail_succ, trail_succ, odd, even]
    exact ih.pair (synced_trail _) _ _ _

private theorem goes_pace : Goes 0 1 pace where
  reads := by
    intro k
    refine ⟨2 * k + 1, by omega, 2 * k + 1, fun _ => 0, fun _ => 0, ?_⟩
    rw [pace, if_neg (by omega), if_pos (by omega)]
  clock := by
    intro T
    refine ⟨T + 1, fun m later tick U I event => ?_⟩
    rw [pace] at event
    split at event
    · cases event
    · split at event
      · cases event
        omega
      · cases event
  inTime := by
    intro k tick U I event
    have odd : k % 2 = 1 := by
      rw [pace] at event
      split at event
      · cases event
      · split at event
        case isTrue odd => exact odd
        case isFalse => cases event
    obtain ⟨j, rfl⟩ : ∃ j, k = 2 * j + 1 := ⟨k / 2, by omega⟩
    exact (pace_near j).inTime (synced_trail _)

end Steady

/-- An event in the first half cycle of its frame is captured as it should be, and an event queued
at the start leaves the queue. -/
theorem capture_good_of_first :
    (∃ (es : List Event) (r : Rcrd) (unset : FsMsg) (c : RmsCap),
      (metering 0 1 r unset (run (record 0 1) start es)).2 = some c ∧
        Good 1 r (run (record 0 1) start es) c) ∧
      ∃ es : Nat → Event, ∃ m > 1, (trail (record 0 1) start es m).rQ.re ≠
        (trail (record 0 1) start es 1).rQ.re := by
  have low : 12000 ≤ (12000 : UInt64).toNat := by decide
  have high : (12000 : UInt64).toNat < 13000 := by decide
  obtain ⟨found, recorded⟩ := late_recorded low high
  have around := (late_around (late_at 12000) low high).mpr (by decide)
  constructor
  · refine ⟨late 12000, ⟨0, 0⟩, blankMsg, _, recorded, ?_⟩
    exact ((capture_good_iff 0 1).1 _ _ _ _ recorded).mpr ⟨11, found, around⟩
  · exact ⟨pace, (capture_good_iff 0 1).2 pace goes_pace 1 (by exact Nat.one_ne_zero)⟩

/-- An event at half cycle 10 of its frame is put at half cycle 5. -/
theorem capture_misplaced :
    ∃ (es : List Event) (r : Rcrd) (unset : FsMsg) (c : RmsCap),
      (metering 0 1 r unset (run (record 0 1) start es)).2 = some c ∧
        ¬ Good 1 r (run (record 0 1) start es) c := by
  have low : 12000 ≤ (12100 : UInt64).toNat := by decide
  have high : (12100 : UInt64).toNat < 13000 := by decide
  refine ⟨late 12100, ⟨0, 0⟩, blankMsg, _, (late_recorded low high).2, fun good => ?_⟩
  exact absurd ((late_good low high).mp good) (by decide)

end SV300.Rms.Recorder
