/- SV300/Log/Itic
   digest: The ITIC page fetch of alarm.c, and the matching events it delivers. -/

import SV300.Log.Event

set_option autoImplicit false
set_option relaxedAutoImplicit false

namespace SV300.Log.Itic

open SV300.Library.Ring
open SV300.Log.Store
open SV300.Log.Listing
open SV300.Log.Event (EventLog IticLog)

abbrev nIticList : Nat := 32

def eSag : UInt16 := 1

def eRvc : UInt16 := 6

def iticTypeMatches (type : UInt16) : Bool := decide (type ≥ eSag) && decide (type ≤ eRvc)

def selects (e : IticLog) : Bool := iticTypeMatches e.type

def matchTotal (f : Fifo IticLog) : Nat :=
  ((List.range f.count).filter fun i =>
    selects (f.log (if f.count < eventLogCap then i else (f.re + i) % eventLogCap))).length

def turnItic (total cmd re : Nat) : Nat :=
  match cmd with
  | 1 => if re + nIticList < total then re + nIticList else re
  | 2 => if re ≥ nIticList then re - nIticList else 0
  | 3 => 0
  | 4 => if total > 0 then (total - 1) / nIticList * nIticList else 0
  | _ => re

/-- The copy loop, `n` more entries of the FIFO back from `ix`: what it copies. -/
def copyItic (f : Fifo IticLog) (re : Nat) : Nat → Int → Nat → Nat → List IticLog
  | 0, _, _, _ => []
  | n + 1, ix, seen, dst =>
    if dst < nIticList then
      let ix := if ix - 1 < 0 then (eventLogCap : Int) - 1 else ix - 1
      let e := f.log ix.toNat
      if ¬ selects e then copyItic f re n ix seen dst
      else if seen < re then copyItic f re n ix (seen + 1) dst
      else e :: copyItic f re n ix (seen + 1) (dst + 1)
    else []

/-- `fetchIticCommon`, of one of the two lists. -/
def fetchIticCommon (f : Fifo IticLog) (cmd : Nat) (p : Page IticLog) : Page IticLog :=
  let total := matchTotal f
  let re := turnItic total cmd p.re
  let copied := copyItic f re f.count f.fr 0 0
  { fr := re + copied.length
    re := re
    count := total
    log := copied ++ List.replicate (nIticList - copied.length) 0 }

private theorem turnItic_eq {total re : Nat} (aligned : re % nIticList = 0) (cmd : Nat) :
    turnItic total cmd re = turn nIticList ((total - 1) / nIticList * nIticList) total cmd re := by
  match cmd with
  | 0 => rfl
  | 1 => rfl
  | 2 =>
    change (if re ≥ nIticList then re - nIticList else 0) =
      if (re : Int) - nIticList ≥ 0 then re - nIticList else re
    by_cases back : re ≥ nIticList
    · rw [if_pos back, if_pos (by omega)]
    · rw [Nat.mod_eq_of_lt (Nat.not_le.mp back)] at aligned
      rw [if_neg back, if_neg (by omega), aligned]
  | 3 => rfl
  | 4 =>
    change (if total > 0 then (total - 1) / nIticList * nIticList else 0) =
      (total - 1) / nIticList * nIticList
    split
    · rfl
    · have empty : total = 0 := by omega
      rw [empty]
      rfl
  | cmd + 5 => rfl

theorem onPage_turnItic {total re : Nat} (on : OnPage nIticList total re) (cmd : Nat) :
    OnPage nIticList total (turnItic total cmd re) := by
  rw [turnItic_eq on.aligned]
  exact on.turn (by decide) cmd

/-- The selected entries of a history that a FIFO still holds, the newest first. -/
def newestSelected (h : List IticLog) : List IticLog := (h.reverse.take nEventFifo).filter selects

private theorem matchTotal_eq {f : Fifo IticLog} {h : List IticLog} (shown : Shows nEventFifo f h) :
    matchTotal f = (newestSelected h).length := by
  have slots : (List.range f.count).map (fun i =>
      f.log (if f.count < eventLogCap then i else (f.re + i) % eventLogCap)) = latest f.count h := by
    by_cases few : f.count < eventLogCap
    · simp only [if_pos few]
      have short : h.length < nEventFifo := by
        have count := shown.count
        have below : f.count < nEventFifo := few
        omega
      rw [shown.slots short, shown.count, latest_of_short (by omega)]
    · simp only [if_neg few]
      exact shown.contents
  have filtered : matchTotal f = ((latest f.count h).filter selects).length := by
    rw [← slots, List.filter_map, List.length_map]
    rfl
  unfold newestSelected
  rw [filtered, ← reverse_latest, ← shown.count, List.filter_reverse, List.length_reverse]

private theorem copyItic_eq (f : Fifo IticLog) (re n seen : Nat) {j dst : Nat}
    (inside : j + n ≤ nEventFifo) (room : dst ≤ nIticList) : copyItic f re n (back nEventFifo f.fr j) seen dst =
      ((((List.range n).map fun i => f.log (back nEventFifo f.fr (j + i + 1)).toNat).filter
        selects).drop (re - seen)).take (nIticList - dst) := by
  induction n generalizing seen j dst with
  | zero => simp [copyItic]
  | succ n ih =>
    have later : ((List.range n).map fun i =>
        f.log (back nEventFifo f.fr (j + Nat.succ i + 1)).toNat) =
        (List.range n).map fun i => f.log (back nEventFifo f.fr (j + 1 + i + 1)).toNat := by
      apply List.map_congr_left
      intro i _
      rw [Nat.succ_eq_add_one, Nat.add_right_comm j 1 i, Nat.add_assoc j i 1]
    rw [copyItic, List.range_succ_eq_map, List.map_cons, List.map_map]
    by_cases full : dst < nIticList
    · rw [if_pos full, back_succ (by omega)]
      dsimp only [Function.comp_def]
      rw [later, Nat.add_zero]
      by_cases selected : selects (f.log (back nEventFifo f.fr (j + 1)).toNat) = true
      · rw [if_neg (not_not.mpr selected), List.filter_cons_of_pos selected]
        by_cases skipped : seen < re
        · have less : re - seen = re - (seen + 1) + 1 := by omega
          rw [if_pos skipped, ih _ (by omega) room, less, List.drop_succ_cons]
        · have start : re - seen = 0 := by omega
          have past : re - (seen + 1) = 0 := by omega
          have taken : nIticList - dst = nIticList - (dst + 1) + 1 := by omega
          rw [if_neg skipped, ih _ (by omega) full, start, past, taken, List.drop_zero,
            List.drop_zero, List.take_succ_cons]
      · rw [if_pos selected, List.filter_cons_of_neg selected, ih _ (by omega) room]
    · have none : nIticList - dst = 0 := by omega
      rw [if_neg full, none, List.take_zero]

theorem delivers_fetchItic {f : Fifo IticLog} {h : List IticLog} (shown : Shows nEventFifo f h)
    (cmd : Nat) (p : Page IticLog) :
    Delivers nIticList (fetchIticCommon f cmd p) (newestSelected h) := by
  have start : back nEventFifo f.fr 0 = f.fr := by
    unfold back
    rw [if_pos (Nat.zero_le _)]
    exact Int.sub_zero _
  have fits := shown.count_le
  have entries := shown_backwards shown (by decide)
  rw [shown.count, reverse_latest] at entries
  have copied : copyItic f (turnItic (matchTotal f) cmd p.re) f.count f.fr 0 0 =
      ((newestSelected h).drop (turnItic (matchTotal f) cmd p.re)).take nIticList := by
    have inside : 0 + f.count ≤ nEventFifo := by omega
    have loop := copyItic_eq f (turnItic (matchTotal f) cmd p.re) f.count 0 inside
      (Nat.zero_le nIticList)
    simp only [start, Nat.zero_add] at loop
    rw [loop, shown.count, entries]
    rfl
  exact ⟨matchTotal_eq shown, by rw [fetchIticCommon, copied], by rw [fetchIticCommon, copied]⟩

theorem re_fetchItic {f : Fifo IticLog} {h : List IticLog} (shown : Shows nEventFifo f h)
    (cmd : Nat) (p : Page IticLog) :
    (fetchIticCommon f cmd p).re = turnItic (newestSelected h).length cmd p.re := by
  rw [← matchTotal_eq shown]
  rfl

end SV300.Log.Itic
