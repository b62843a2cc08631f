/- SV300/Log/Listing
   digest: The page fetch of a FIFO, and the listing a host reads off by paging down from the top. -/

import Mathlib.Logic.Function.Iterate
import SV300.Log.Store

set_option autoImplicit false
set_option relaxedAutoImplicit false

namespace SV300.Log.Listing

open SV300.Library.Ring

variable {α β σ : Type}

abbrev nAlarmList : Nat := 32
abbrev nEventList : Nat := 32

/-- `ALARM_LIST` and `EVENT_LIST`. -/
structure Page (β : Type) where
  fr : Nat
  re : Nat
  count : Nat
  log : List β

/-- The cursor after a command: page down, page up, top, bottom; any other command keeps it. -/
def turn (nList bottom count cmd re : Nat) : Nat :=
  match cmd with
  | 1 => if re + nList < count then re + nList else re
  | 2 => if (re : Int) - nList ≥ 0 then re - nList else re
  | 3 => 0
  | 4 => bottom
  | _ => re

/-- The copy loop, `i` more slots of the page: what it stores and the `fr` it ends with. -/
def fillPage [Zero β] (cap count : Nat) (record : Int → β) : Nat → Int → Nat → List β × Nat
  | 0, _, fr => ([], fr)
  | i + 1, ix, fr =>
    if fr < count then
      let ix := if ix - 1 < 0 then (cap : Int) - 1 else ix - 1
      let rest := fillPage cap count record i ix (fr + 1)
      (record ix :: rest.1, rest.2)
    else
      let rest := fillPage cap count record i ix fr
      (0 :: rest.1, rest.2)

def pageAt [Zero β] (cap nList fr count : Nat) (record : Int → β) (re : Nat) : Page β :=
  let ix : Int := if (fr : Int) - re ≥ 0 then fr - re else fr - re + cap
  let filled := fillPage cap count record nList ix re
  { fr := filled.2, re := re, count := count, log := filled.1 }

/-- The body of `fetchAlarm` and `fetchEvent`, over the write index and count of their FIFO. -/
def fetchPage [Zero β] (cap nList bottom fr count : Nat) (record : Int → β) (cmd : Nat)
    (p : Page β) : Page β :=
  pageAt cap nList fr count record (turn nList bottom count cmd p.re)

/-- A cursor at the start of a page that holds an entry, or of the first one. -/
structure OnPage (nList count re : Nat) : Prop where
  aligned : re % nList = 0
  inside : re < max 1 count

theorem onPage_zero (nList count : Nat) : OnPage nList count 0 :=
  ⟨Nat.zero_mod nList, Nat.lt_of_lt_of_le Nat.one_pos (Nat.le_max_left 1 count)⟩

theorem OnPage.mono {nList count more re : Nat} (on : OnPage nList count re) (le : count ≤ more) :
    OnPage nList more re := by
  refine ⟨on.aligned, ?_⟩
  have inside := on.inside
  omega

theorem OnPage.turn {nList count re : Nat} (pos : 0 < nList) (on : OnPage nList count re)
    (cmd : Nat) : OnPage nList count (turn nList ((count - 1) / nList * nList) count cmd re) := by
  unfold Listing.turn
  split
  · split
    · rename_i more
      exact ⟨by rw [Nat.add_mod_right, on.aligned], by omega⟩
    · exact on
  · split
    · rename_i back
      have inside := on.inside
      refine ⟨?_, by omega⟩
      rw [← Nat.mod_eq_sub_mod (by omega), on.aligned]
    · exact on
  · exact onPage_zero nList count
  · have bound := Nat.div_mul_le_self (count - 1) nList
    exact ⟨Nat.mul_mod_left _ _, by omega⟩
  · exact on

def Page.shown (p : Page β) : List β := p.log.take (p.fr - p.re)

/-- What a host reads that fetches the top page and then pages down to the end. -/
def delivered (fetch : Nat → σ → σ) (page : σ → Page β) (nList : Nat) (s : σ) : List β :=
  let top := fetch 3 s
  (List.range (((page top).count + nList - 1) / nList)).flatMap fun k =>
    (page ((fetch 1)^[k] top)).shown

/-- The slot `j` places behind the write index. -/
def back (cap fr j : Nat) : Int := if j ≤ fr then (fr : Int) - j else fr - j + cap

theorem back_succ {cap fr j : Nat} (inside : j < cap) :
    (if back cap fr j - 1 < 0 then (cap : Int) - 1 else back cap fr j - 1) =
      back cap fr (j + 1) := by
  unfold back
  split <;> split <;> split <;> omega

private theorem fillPage_eq [Zero β] {cap count fr : Nat} (fits : count ≤ cap) (record : Int → β)
    (n j : Nat) : fillPage cap count record n (back cap fr j) j =
      ((List.range (min n (count - j))).map (fun i => record (back cap fr (j + i + 1))) ++
        List.replicate (n - (count - j)) 0, j + min n (count - j)) := by
  induction n generalizing j with
  | zero => simp [fillPage]
  | succ n ih =>
    rw [fillPage]
    split
    case isTrue more =>
      have here : min (n + 1) (count - j) = min n (count - (j + 1)) + 1 := by omega
      have blank : n + 1 - (count - j) = n - (count - (j + 1)) := by omega
      rw [back_succ (by omega), here, blank, List.range_succ_eq_map]
      simp only [ih (j + 1), List.map_cons, List.map_map, List.cons_append, Prod.mk.injEq]
      refine ⟨?_, by omega⟩
      congr 2
      apply List.map_congr_left
      intro i _
      rw [Function.comp_apply, Nat.add_right_comm j 1 i, Nat.add_assoc j i 1]
    case isFalse done =>
      have none_left : count - j = 0 := by omega
      rw [ih j, none_left]
      simp [List.replicate_succ]

private theorem pageAt_eq [Zero β] {cap nList fr count re : Nat} (fits : count ≤ cap)
    (record : Int → β) :
    pageAt cap nList fr count record re =
      { fr := re + min nList (count - re)
        re := re
        count := count
        log := ((List.range (min nList (count - re))).map fun i =>
          record (back cap fr (re + i + 1))) ++ List.replicate (nList - (count - re)) 0 } := by
  have start : (if (fr : Int) - re ≥ 0 then (fr : Int) - re else fr - re + cap) =
      back cap fr re := by
    unfold back
    split <;> split <;> omega
  rw [pageAt]
  simp only [start, fillPage_eq fits]

private theorem shown_pageAt [Zero β] {cap nList fr count re : Nat} (fits : count ≤ cap)
    (record : Int → β) : (pageAt cap nList fr count record re).shown =
      (List.range (min nList (count - re))).map fun i => record (back cap fr (re + i + 1)) := by
  have length : re + min nList (count - re) - re = min nList (count - re) := by omega
  rw [Page.shown, pageAt_eq fits, length]
  rw [List.take_append_of_le_length (by simp), List.take_of_length_le (by simp)]

/-- A page delivers a listing: the entries from its cursor on, then zeros. -/
structure Delivers [Zero β] (nList : Nat) (p : Page β) (listing : List β) : Prop where
  count : p.count = listing.length
  fr : p.fr = p.re + ((listing.drop p.re).take nList).length
  log : p.log = (listing.drop p.re).take nList ++
    List.replicate (nList - ((listing.drop p.re).take nList).length) 0

theorem Delivers.shown [Zero β] {nList : Nat} {p : Page β} {listing : List β}
    (delivers : Delivers nList p listing) : p.shown = (listing.drop p.re).take nList := by
  have length : p.fr - p.re = ((listing.drop p.re).take nList).length := by
    rw [delivers.fr]
    omega
  rw [Page.shown, length, delivers.log, List.take_append_of_le_length (Nat.le_refl _),
    List.take_length]

private theorem drop_take_range (n m k : Nat) (g : Nat → β) :
    (((List.range n).map g).drop k).take m = (List.range (min m (n - k))).map fun i => g (k + i) := by
  apply List.ext_getElem
  · simp
  · intro i left right
    simp

theorem delivers_pageAt [Zero β] {cap nList fr count re : Nat} (fits : count ≤ cap)
    (record : Int → β) : Delivers nList (pageAt cap nList fr count record re)
      ((List.range count).map fun j => record (back cap fr (j + 1))) := by
  rw [pageAt_eq fits]
  refine ⟨?_, ?_, ?_⟩
  · simp
  · simp
  · have rest : nList - (count - re) = nList - min nList (count - re) := by omega
    rw [drop_take_range, List.length_map, List.length_range, rest]

private theorem pages_joined (p n m : Nat) (g : Nat → β) :
    ((List.range m).flatMap fun k => (List.range (min p (n - p * k))).map fun i => g (p * k + i)) =
      (List.range (min n (p * m))).map g := by
  induction m with
  | zero => simp
  | succ m ih =>
    have longer : min n (p * (m + 1)) = min n (p * m) + min p (n - p * m) := by
      rw [Nat.mul_succ]
      omega
    rw [List.range_succ, List.flatMap_append, ih, longer, List.range_add, List.map_append,
      List.map_map, List.flatMap_singleton]
    congr 1
    rcases Nat.lt_or_ge n (p * m) with past | within
    · rw [show n - p * m = 0 by omega, Nat.min_zero]
      rfl
    · rw [Nat.min_eq_right within]
      rfl

section Delivered

variable [Zero β] {cap nList bottom fr count : Nat} {record : Int → β}
  {fetch : Nat → σ → σ} {page : σ → Page β} {I : σ → Prop}

private theorem page_turned (keeps : ∀ cmd t, I t → I (fetch cmd t))
    (reads : ∀ cmd t, I t →
      page (fetch cmd t) = fetchPage cap nList bottom fr count record cmd (page t))
    {s : σ} (start : I s) (k : Nat) (inside : nList * k < count) :
    I ((fetch 1)^[k] (fetch 3 s)) ∧
      page ((fetch 1)^[k] (fetch 3 s)) = pageAt cap nList fr count record (nList * k) := by
  induction k with
  | zero => exact ⟨keeps 3 s start, reads 3 s start⟩
  | succ k ih =>
    rw [Nat.mul_succ] at inside
    obtain ⟨kept, before⟩ := ih (by omega)
    rw [Function.iterate_succ_apply']
    refine ⟨keeps 1 _ kept, ?_⟩
    rw [reads 1 _ kept, before, fetchPage]
    have down : turn nList bottom count 1 (nList * k) = nList * (k + 1) := if_pos inside
    exact congrArg _ down

theorem delivered_eq (keeps : ∀ cmd t, I t → I (fetch cmd t))
    (reads : ∀ cmd t, I t →
      page (fetch cmd t) = fetchPage cap nList bottom fr count record cmd (page t))
    {s : σ} (start : I s) (pos : 0 < nList) (fits : count ≤ cap) :
    delivered fetch page nList s =
      (List.range count).map fun j => record (back cap fr (j + 1)) := by
  have total : (page (fetch 3 s)).count = count := by
    rw [reads 3 s start]
    rfl
  have enough : count ≤ nList * ((count + nList - 1) / nList) := by
    have whole := Nat.div_add_mod (count + nList - 1) nList
    have part := Nat.mod_lt (count + nList - 1) pos
    omega
  have joined := pages_joined nList count ((count + nList - 1) / nList)
    fun j => record (back cap fr (j + 1))
  rw [Nat.min_eq_left enough] at joined
  rw [delivered, total, ← joined]
  apply List.flatMap_congr
  intro k listed
  rw [List.mem_range] at listed
  have inside : nList * k < count := by
    have below := Nat.mul_le_mul_left nList (Nat.succ_le_of_lt listed)
    have whole := Nat.mul_div_le (count + nList - 1) nList
    rw [Nat.mul_succ] at below
    omega
  rw [(page_turned keeps reads start k inside).2, shown_pageAt fits]

end Delivered

private theorem back_slot {cap fr j len : Nat} (write : fr ≤ cap) (same : fr % cap = len % cap)
    (inside : j < cap) (old : j < len) :
    (len - 1 - j) % cap = (back cap fr (j + 1)).toNat := by
  have parts := Nat.div_add_mod len cap
  have below := Nat.mod_lt len (by omega : cap > 0)
  have fr_cases : fr = len % cap ∨ fr = cap ∧ len % cap = 0 := by
    rcases Nat.lt_or_eq_of_le write with lt | rfl
    · left
      rw [← same, Nat.mod_eq_of_lt lt]
    · right
      exact ⟨rfl, by rw [← same, Nat.mod_self]⟩
  have slot : ∀ i k, len - 1 - j = i + cap * k → i < cap → (len - 1 - j) % cap = i := by
    intro i k split_ lt
    rw [split_, Nat.add_mul_mod_self_left, Nat.mod_eq_of_lt lt]
  rcases Nat.lt_or_ge j (len % cap) with recent | earlier
  · rw [slot (len % cap - 1 - j) (len / cap) (by omega) (by omega), back]
    split <;> omega
  · cases turns : len / cap with
    | zero =>
      rw [turns, Nat.mul_zero] at parts
      omega
    | succ k =>
      rw [turns, Nat.mul_succ] at parts
      rw [slot (len % cap + cap - 1 - j) k (by omega) (by omega), back]
      split <;> omega

private theorem back_eq_latest {cap fr count : Nat} {log : Nat → α} {h : List α}
    (holds : Holds cap 0 log h)
    (write : fr ≤ cap) (same : fr % cap = h.length % cap) (counted : count = min h.length cap) :
    (List.range count).map (fun j => log (back cap fr (j + 1)).toNat) =
      (latest count h).reverse := by
  have length : (latest count h).length = count := by
    rw [length_latest]
    omega
  apply List.ext_getElem?
  intro j
  rw [List.getElem?_map]
  rcases Nat.lt_or_ge j count with inside | outside
  · have here : h.length - 1 - j < h.length := by omega
    have entry := holds _ _ (List.getElem?_eq_getElem here) (by omega)
    rw [Nat.zero_add, back_slot write same (by omega) (by omega)] at entry
    rw [List.getElem?_range inside, Option.map_some, entry, List.getElem?_reverse (by omega),
      length, latest, List.getElem?_drop, show h.length - count + (count - 1 - j) =
        h.length - 1 - j by omega, List.getElem?_eq_getElem here]
  · rw [List.getElem?_eq_none (by simpa using outside),
      List.getElem?_eq_none (by rw [List.length_reverse]; omega)]
    rfl

theorem shown_backwards {cap : Nat} {f : Store.Fifo α} {h : List α} (shown : Store.Shows cap f h)
    (pos : 0 < cap) : (List.range f.count).map (fun j => f.log (back cap f.fr (j + 1)).toNat) =
      (latest f.count h).reverse := by
  have write := shown.fr_lt pos
  have same : f.fr % cap = h.length % cap := by rw [Nat.mod_eq_of_lt write, shown.fr]
  exact back_eq_latest shown.holds (Nat.le_of_lt write) same shown.count

end SV300.Log.Listing
