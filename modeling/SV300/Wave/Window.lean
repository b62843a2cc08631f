/- SV300/Wave/Window
   digest: The ring of waveform pages: the page reader fills halves, the wave task copies them. -/

import SV300.Library.Ring
import SV300.Library.Runs

set_option autoImplicit false
set_option relaxedAutoImplicit false

namespace SV300.Wave.Window

open SV300.Library.Ring SV300.Library.Runs

abbrev pgBufCnt : Nat := 200

abbrev pg8kCnt : Nat := 100

/-- A page by its place in the order the pages were read, and how often the ring was reset
before. -/
structure Page where
  no : Nat
  resets : Nat
  deriving DecidableEq

/-- Where readWFB_Data is with a page: before it, the slot being filled, the slot full, the half
reported but its start not yet stored. -/
inductive Prod
  | idle
  | taken (slot : Nat)
  | filled
  | marked
  deriving DecidableEq

/-- Where the wave task is: about to test `halfFull`, past the test, or copying from slot `wr`, with
how many pages had been read when the half it copies was reported. -/
inductive Cons
  | idle
  | claimed
  | copying (wr : Nat) (got : List (Option Page)) (last : Nat)
  deriving DecidableEq

/-- What copyToWaveWindow has assembled. -/
structure Copy where
  last : Nat
  pages : List (Option Page)
  deriving DecidableEq

/-- `WAVE_PGBUF`, a slot being none until its page is complete; the two tasks; how many pages have
been read, how often the ring was reset, how many pages had been read at the last report. -/
structure Sys where
  wb : Nat → Option Page
  fr : Nat
  re : Nat
  count : Nat
  halfFull : Bool
  prod : Prod
  left : Nat
  cons : Cons
  done : Nat
  resets : Nat
  last : Nat
  windows : List Copy

/-- `getWave32kBuf`: the slot is handed to the DMA. -/
def getWave32kBuf (o : Sys) : Sys :=
  { o with
    wb := Function.update o.wb o.fr none
    fr := if pgBufCnt ≤ o.fr + 1 then 0 else o.fr + 1
    count := o.count + 1
    prod := .taken o.fr }

/-- One step of `readWFB_Data`. -/
def readWFB (o : Sys) : Sys :=
  match o.prod with
  | .idle => if o.left = 0 then o else getWave32kBuf o
  | .taken slot =>
    { o with
      wb := Function.update o.wb slot (some ⟨o.done, o.resets⟩)
      prod := .filled
      done := o.done + 1 }
  | .filled =>
    if pgBufCnt / 2 ≤ o.count then
      { o with count := 0, halfFull := true, prod := .marked, last := o.done }
    else { o with prod := .idle, left := o.left - 1 }
  | .marked =>
    { o with re := (o.fr + pgBufCnt / 2) % pgBufCnt, prod := .idle, left := o.left - 1 }

/-- One step of the wave task: its test, the load of `re`, a page of `copyToWaveWindow`, its end. -/
def copyToWaveWindow (o : Sys) : Sys :=
  match o.cons with
  | .idle => if o.halfFull then { o with cons := .claimed } else o
  | .claimed => { o with cons := .copying o.re [] o.last }
  | .copying wr got last =>
    if got.length < pgBufCnt / 2 then
      let wr := if pgBufCnt ≤ wr then 0 else wr
      { o with cons := .copying (wr + 1) (got ++ [o.wb wr]) last }
    else { o with halfFull := false, cons := .idle, windows := o.windows ++ [⟨last, got⟩] }

/-- `meter_scan` waits for its interrupt, with a time limit, and reads eight pages at most. -/
inductive Event
  | timeout (online : Bool)
  | irq
  | read
  | wave
  deriving DecidableEq

/-- The timeout and the interrupt are for a task that is not reading pages. -/
def record (o : Sys) : Event → Sys
  | .timeout online =>
    if o.prod = .idle ∧ o.left = 0 ∧ !online then
      { o with fr := 0, re := 0, resets := o.resets + 1 }
    else o
  | .irq => if o.prod = .idle ∧ o.left = 0 then { o with left := 8 } else o
  | .read => readWFB o
  | .wave => copyToWaveWindow o

/-- `k` pages in the order read, from page `n` on. -/
def inOrder (n resets k : Nat) : List (Option Page) :=
  (List.range k).map fun i => some ⟨n + i, resets⟩

/-- The pages last read when the half was reported, with no reset among them. -/
def Copy.Whole (w : Copy) : Prop :=
  pg8kCnt ≤ w.last ∧ ∃ e, w.pages = inOrder (w.last - pg8kCnt) e pg8kCnt

def Whole (o : Sys) : Prop := ∀ w ∈ o.windows, w.Whole

/-- A half has been reported that the wave task has not begun to copy. -/
def Sys.Pending (o : Sys) : Prop :=
  match o.cons with
  | .idle => o.halfFull = true
  | .claimed => True
  | .copying _ _ _ => False

/-- The wave task has still to copy the slot. -/
def Sys.Awaits (o : Sys) (slot : Nat) : Prop :=
  match o.cons with
  | .copying wr got _ => ∃ i < pg8kCnt - got.length, (wr + i) % pgBufCnt = slot
  | _ => o.Pending ∧ ∃ i < pg8kCnt, (o.re + i) % pgBufCnt = slot

instance (o : Sys) : Decidable o.Pending := by
  unfold Sys.Pending
  split <;> infer_instance

instance (o : Sys) (slot : Nat) : Decidable (o.Awaits slot) := by
  unfold Sys.Awaits
  split <;> infer_instance

/-- No page is read into a slot that the wave task has still to copy. -/
def Timely (o : Sys) : Event → Prop
  | .read => o.prod = .idle → o.left ≠ 0 → ¬ o.Awaits o.fr
  | _ => True

/-- The ring is reset only between halves, with no half pending but the one at slot 0; and the wave
task does not load the start of a half before it is stored. -/
def Steady (o : Sys) : Event → Prop
  | .timeout online =>
    o.prod = .idle → o.left = 0 → online = false → o.count = 0 ∧ (o.Pending → o.re = 0)
  | .wave => o.cons = .claimed → o.prod = .marked → o.re = (o.fr + pgBufCnt / 2) % pgBufCnt
  | _ => True

instance (o : Sys) (e : Event) : Decidable (Timely o e) := by
  unfold Timely
  split <;> infer_instance

instance (o : Sys) (e : Event) : Decidable (Steady o e) := by
  unfold Steady
  split <;> infer_instance

def blank : Sys where
  wb := fun _ => none
  fr := 0
  re := 0
  count := 0
  halfFull := false
  prod := .idle
  left := 0
  cons := .idle
  done := 0
  resets := 0
  last := 0
  windows := []

def Sys.full (o : Sys) : Nat :=
  match o.prod with
  | .taken _ => o.count - 1
  | _ => o.count

def Sys.half (o : Sys) : Nat :=
  if o.prod = .marked then (o.fr + pgBufCnt / 2) % pgBufCnt else o.re

/-- The current half begins at slot `s` and has its pages in order. -/
structure Filling (o : Sys) (s : Nat) : Prop where
  lt : s < pgBufCnt
  fr : o.fr = (s + o.count) % pgBufCnt
  count_le : o.count ≤ pg8kCnt
  full_le : o.full ≤ o.done
  pages : window pgBufCnt o.wb s o.full = inOrder (o.done - o.full) o.resets o.full

/-- What the control point of the page reader says. -/
def At (o : Sys) (s : Nat) : Prop :=
  match o.prod with
  | .idle => o.count < pg8kCnt
  | .taken slot => 1 ≤ o.count ∧ slot = (s + (o.count - 1)) % pgBufCnt ∧ o.wb slot = none
  | .filled => True
  | .marked => o.count = 0

/-- A half from slot `s` on, of the pages before the `last`-th. -/
def Half (wb : Nat → Option Page) (s last : Nat) : Prop :=
  pg8kCnt ≤ last ∧ ∃ e, window pgBufCnt wb s pg8kCnt = inOrder (last - pg8kCnt) e pg8kCnt

/-- What has been copied and what is still to be copied is a half. -/
structure Copying (wb : Nat → Option Page) (wr : Nat) (got : List (Option Page)) (last : Nat) :
    Prop where
  wr_le : wr ≤ pgBufCnt
  got_le : got.length ≤ pg8kCnt
  enough : pg8kCnt ≤ last
  pages : ∃ e, got ++ window pgBufCnt wb wr (pg8kCnt - got.length) =
    inOrder (last - pg8kCnt) e pg8kCnt

structure Inv (o : Sys) : Prop where
  filling : ∃ s, Filling o s ∧ At o s
  pending : o.Pending → Half o.wb o.half o.last
  copying : ∀ wr got last, o.cons = .copying wr got last → Copying o.wb wr got last
  re_le : o.re ≤ pgBufCnt
  windows : Whole o

private theorem inOrder_snoc (n e k : Nat) :
    inOrder n e (k + 1) = inOrder n e k ++ [some ⟨n + k, e⟩] := by
  rw [inOrder, List.range_succ, List.map_append, List.map_singleton, inOrder]

private theorem Half.ne {wb : Nat → Option Page} {s last j : Nat} (half : Half wb s last)
    (open_ : wb j = none) : ∀ i < pg8kCnt, (s + i) % pgBufCnt ≠ j := by
  intro i lt same
  obtain ⟨-, e, pages⟩ := half
  have entry := congrArg (fun l => l[i]?) pages
  simp only [window, inOrder, List.getElem?_map, List.getElem?_range lt, Option.map_some, same,
    open_] at entry
  cases Option.some.inj entry

private theorem Copying.ne {wb : Nat → Option Page} {wr last j : Nat} {got : List (Option Page)}
    (copying : Copying wb wr got last) (open_ : wb j = none) :
    ∀ i < pg8kCnt - got.length, (wr + i) % pgBufCnt ≠ j := by
  intro i lt same
  obtain ⟨e, pages⟩ := copying.pages
  have entry := congrArg (fun l => l[got.length + i]?) pages
  rw [List.getElem?_append_right (Nat.le_add_right _ _), Nat.add_sub_cancel_left] at entry
  simp only [window, inOrder, List.getElem?_map, List.getElem?_range lt,
    List.getElem?_range (show got.length + i < pg8kCnt by omega), Option.map_some, same,
    open_] at entry
  cases Option.some.inj entry

private theorem Half.store {wb : Nat → Option Page} {s last j : Nat} (half : Half wb s last)
    (x : Option Page) (outside : ∀ i < pg8kCnt, (s + i) % pgBufCnt ≠ j) :
    Half (Function.update wb j x) s last := by
  obtain ⟨enough, e, pages⟩ := half
  exact ⟨enough, e, (window_update x outside).trans pages⟩

private theorem Copying.store {wb : Nat → Option Page} {wr last j : Nat} {got : List (Option Page)}
    (copying : Copying wb wr got last) (x : Option Page)
    (outside : ∀ i < pg8kCnt - got.length, (wr + i) % pgBufCnt ≠ j) :
    Copying (Function.update wb j x) wr got last where
  wr_le := copying.wr_le
  got_le := copying.got_le
  enough := copying.enough
  pages := by
    obtain ⟨e, pages⟩ := copying.pages
    exact ⟨e, by rw [window_update x outside, pages]⟩

private theorem next_slot (i : Nat) :
    (if pgBufCnt ≤ i % pgBufCnt + 1 then 0 else i % pgBufCnt + 1) = (i + 1) % pgBufCnt := by
  change (if 200 ≤ i % 200 + 1 then 0 else i % 200 + 1) = (i + 1) % 200
  split_ifs <;> omega

private theorem half_turns {s : Nat} (lt : s < pgBufCnt) :
    ((s + pg8kCnt) % pgBufCnt + pgBufCnt / 2) % pgBufCnt = s := by
  change s < 200 at lt
  change ((s + 100) % 200 + 200 / 2) % 200 = s
  omega

private theorem inv_take {o : Sys} (inv : Inv o) (idle : o.prod = .idle)
    (timely : ¬ o.Awaits o.fr) :
    Inv (getWave32kBuf o) := by
  obtain ⟨s, filling, place⟩ := inv.filling
  rw [At, idle] at place
  have full : o.full = o.count := by rw [Sys.full, idle]
  have half : o.half = o.re := by rw [Sys.half, idle, if_neg nofun]
  have wide : o.count < pgBufCnt := Nat.lt_trans place (by decide)
  constructor
  · refine ⟨s, ?_, ?_⟩
    · constructor
      · exact filling.lt
      · simp only [getWave32kBuf]
        rw [filling.fr, next_slot, Nat.add_assoc]
      · exact place
      · have le := filling.full_le
        rw [full] at le
        exact le
      · have pages := filling.pages
        rw [full] at pages
        change window pgBufCnt (Function.update o.wb o.fr none) s (o.count + 1 - 1) =
          inOrder (o.done - (o.count + 1 - 1)) o.resets (o.count + 1 - 1)
        rw [Nat.add_sub_cancel, window_update, pages]
        intro i lt
        rw [filling.fr]
        exact slot_ne lt (Nat.lt_of_lt_of_le wide (Nat.le_add_left _ _))
    · refine ⟨Nat.le_add_left 1 o.count, ?_, Function.update_self ..⟩
      change o.fr = (s + (o.count + 1 - 1)) % pgBufCnt
      rw [Nat.add_sub_cancel]
      exact filling.fr
  · intro pending
    have old : Half o.wb o.re o.last := half ▸ inv.pending pending
    apply old.store
    intro i lt same
    unfold Sys.Awaits at timely
    cases cons : o.cons with
    | idle =>
      rw [cons] at timely
      exact timely ⟨pending, i, lt, same⟩
    | claimed =>
      rw [cons] at timely
      exact timely ⟨pending, i, lt, same⟩
    | copying wr got last =>
      change Sys.Pending o at pending
      rw [Sys.Pending, cons] at pending
      exact pending
  · intro wr got last cons
    change o.cons = .copying wr got last at cons
    apply (inv.copying wr got last cons).store
    intro i lt same
    rw [Sys.Awaits, cons] at timely
    exact timely ⟨i, lt, same⟩
  · exact inv.re_le
  · exact inv.windows

private theorem inv_fill {o : Sys} (inv : Inv o) {slot : Nat} (taken : o.prod = .taken slot) :
    Inv { o with
      wb := Function.update o.wb slot (some ⟨o.done, o.resets⟩)
      prod := .filled
      done := o.done + 1 } := by
  obtain ⟨s, filling, place⟩ := inv.filling
  rw [At, taken] at place
  obtain ⟨some, here, open_⟩ := place
  have full : o.full = o.count - 1 := by rw [Sys.full, taken]
  have half : o.half = o.re := by rw [Sys.half, taken, if_neg nofun]
  obtain ⟨n, count⟩ : ∃ n, o.count = n + 1 := ⟨o.count - 1, (Nat.sub_add_cancel some).symm⟩
  have full_le := filling.full_le
  have pages := filling.pages
  rw [full, count, Nat.add_sub_cancel] at full_le pages
  rw [count, Nat.add_sub_cancel] at here
  have wide : n < pgBufCnt := by
    have le := filling.count_le
    change o.count ≤ 100 at le
    change n < 200
    omega
  constructor
  · refine ⟨s, ⟨filling.lt, filling.fr, filling.count_le, ?_, ?_⟩, trivial⟩
    · change o.count ≤ o.done + 1
      omega
    · change window pgBufCnt (Function.update o.wb slot _) s o.count =
        inOrder (o.done + 1 - o.count) o.resets o.count
      rw [count, window_snoc, inOrder_snoc, ← here, Function.update_self, window_update, pages]
      · rw [Nat.add_sub_add_right, Nat.sub_add_cancel full_le]
      · intro i lt
        rw [here]
        exact slot_ne lt (Nat.lt_of_lt_of_le wide (Nat.le_add_left _ _))
  · intro pending
    have old : Half o.wb o.re o.last := half ▸ inv.pending pending
    exact old.store _ (old.ne open_)
  · intro wr got last cons
    have old := inv.copying wr got last cons
    exact old.store _ (old.ne open_)
  · exact inv.re_le
  · exact inv.windows

private theorem inv_report {o : Sys} (inv : Inv o) (filled : o.prod = .filled)
    (whole : pgBufCnt / 2 ≤ o.count) :
    Inv { o with count := 0, halfFull := true, prod := .marked, last := o.done } := by
  obtain ⟨s, filling, -⟩ := inv.filling
  have count : o.count = pg8kCnt := Nat.le_antisymm filling.count_le whole
  have full : o.full = pg8kCnt := by rw [Sys.full, filled, count]
  have full_le := filling.full_le
  have pages := filling.pages
  have fr := filling.fr
  rw [full] at full_le pages
  rw [count] at fr
  constructor
  · refine ⟨o.fr, ⟨?_, ?_, Nat.zero_le _, Nat.zero_le _, rfl⟩, rfl⟩
    · rw [fr]
      exact Nat.mod_lt _ (by decide)
    · change o.fr = o.fr % pgBufCnt
      rw [fr, Nat.mod_mod]
  · intro _
    have half : Sys.half { o with count := 0, halfFull := true, prod := .marked, last := o.done } =
        s := by
      change (o.fr + pgBufCnt / 2) % pgBufCnt = s
      rw [fr]
      exact half_turns filling.lt
    rw [half]
    exact ⟨full_le, o.resets, pages⟩
  · exact inv.copying
  · exact inv.re_le
  · exact inv.windows

private theorem inv_readWFB {o : Sys} (inv : Inv o) (timely : Timely o .read) :
    Inv (readWFB o) := by
  obtain ⟨s, filling, place⟩ := inv.filling
  cases prod : o.prod with
  | idle =>
    simp only [readWFB, prod]
    split_ifs with none_left
    · exact inv
    · exact inv_take inv prod (timely prod none_left)
  | taken slot =>
    simp only [readWFB, prod]
    exact inv_fill inv prod
  | filled =>
    simp only [readWFB, prod]
    split_ifs with whole
    · exact inv_report inv prod whole
    · have full : o.full = o.count := by rw [Sys.full, prod]
      have half : o.half = o.re := by rw [Sys.half, prod, if_neg nofun]
      have full_le := filling.full_le
      have pages := filling.pages
      rw [full] at full_le pages
      refine ⟨⟨s, ⟨filling.lt, filling.fr, filling.count_le, full_le, pages⟩, ?_⟩, ?_, inv.copying,
        inv.re_le, inv.windows⟩
      · exact Nat.lt_of_not_le whole
      · exact fun pending => half ▸ inv.pending pending
  | marked =>
    simp only [readWFB, prod]
    have full : o.full = o.count := by rw [Sys.full, prod]
    have half : o.half = (o.fr + pgBufCnt / 2) % pgBufCnt := by rw [Sys.half, prod, if_pos rfl]
    have full_le := filling.full_le
    have pages := filling.pages
    rw [full] at full_le pages
    rw [At, prod] at place
    refine ⟨⟨s, ⟨filling.lt, filling.fr, filling.count_le, full_le, pages⟩, ?_⟩, ?_, inv.copying,
      Nat.le_of_lt (Nat.mod_lt _ (by decide)), inv.windows⟩
    · change o.count < 100
      omega
    · exact fun pending => half ▸ inv.pending pending

private theorem Copying.next {wb : Nat → Option Page} {wr last : Nat} {got : List (Option Page)}
    (copying : Copying wb wr got last) (more : got.length < pgBufCnt / 2) :
    Copying wb ((if pgBufCnt ≤ wr then 0 else wr) + 1)
      (got ++ [wb (if pgBufCnt ≤ wr then 0 else wr)]) last := by
  have slot : (if pgBufCnt ≤ wr then 0 else wr) = wr % pgBufCnt := by
    have le := copying.wr_le
    change wr ≤ 200 at le
    change (if 200 ≤ wr then 0 else wr) = wr % 200
    split_ifs <;> omega
  have shorter : (got ++ [wb (wr % pgBufCnt)]).length = got.length + 1 :=
    List.length_append
  obtain ⟨n, left⟩ : ∃ n, pg8kCnt - got.length = n + 1 :=
    ⟨pg8kCnt - got.length - 1, (Nat.sub_add_cancel (Nat.sub_pos_of_lt more)).symm⟩
  obtain ⟨e, pages⟩ := copying.pages
  rw [slot]
  refine ⟨Nat.mod_lt _ (by decide), ?_, copying.enough, e, ?_⟩
  · rw [shorter]
    exact more
  · rw [shorter, Nat.sub_add_eq, left, Nat.add_sub_cancel, List.append_assoc, List.singleton_append]
    rw [left, window_cons] at pages
    rw [← pages, ← window_mod pgBufCnt wb (wr % pgBufCnt + 1), Nat.mod_add_mod, window_mod]

private theorem Inv.reader {o : Sys} (inv : Inv o) (cons : Cons) (halfFull : Bool)
    (windows : List Copy) :
    ∃ s, Filling { o with cons := cons, halfFull := halfFull, windows := windows } s ∧
      At { o with cons := cons, halfFull := halfFull, windows := windows } s := by
  obtain ⟨s, filling, place⟩ := inv.filling
  exact ⟨s, ⟨filling.lt, filling.fr, filling.count_le, filling.full_le, filling.pages⟩, place⟩

private theorem inv_wave {o : Sys} (inv : Inv o) (steady : Steady o .wave) :
    Inv (copyToWaveWindow o) := by
  cases cons : o.cons with
  | idle =>
    simp only [copyToWaveWindow, cons]
    split_ifs with report
    · refine ⟨inv.reader .claimed o.halfFull o.windows, fun _ => ?_, nofun, inv.re_le, inv.windows⟩
      apply inv.pending
      rw [Sys.Pending, cons]
      exact report
    · exact inv
  | claimed =>
    simp only [copyToWaveWindow, cons]
    have pending := inv.pending (by rw [Sys.Pending, cons]; trivial)
    have half : o.half = o.re := by
      unfold Sys.half
      split_ifs with marked
      · exact (steady cons marked).symm
      · rfl
    rw [half] at pending
    refine ⟨inv.reader (.copying o.re [] o.last) o.halfFull o.windows, nofun, ?_, inv.re_le,
      inv.windows⟩
    rintro wr got last ⟨⟩
    exact ⟨inv.re_le, Nat.zero_le _, pending.1, pending.2⟩
  | copying wr got last =>
    have copying := inv.copying wr got last cons
    by_cases more : got.length < pgBufCnt / 2
    · simp only [copyToWaveWindow, cons, if_pos more]
      refine ⟨inv.reader _ o.halfFull o.windows, nofun, ?_, inv.re_le, inv.windows⟩
      rintro wr' got' last' ⟨⟩
      exact copying.next more
    · simp only [copyToWaveWindow, cons, if_neg more]
      refine ⟨inv.reader _ _ _, nofun, nofun, inv.re_le, ?_⟩
      intro w member
      rcases List.mem_append.mp member with earlier | new
      · exact inv.windows w earlier
      · cases List.mem_singleton.mp new
        obtain ⟨e, pages⟩ := copying.pages
        have all : pg8kCnt - got.length = 0 := Nat.sub_eq_zero_of_le (Nat.le_of_not_lt more)
        refine ⟨copying.enough, e, ?_⟩
        rw [← pages, all]
        exact (List.append_nil got).symm

private theorem inv_reset {o : Sys} (inv : Inv o) (idle : o.prod = .idle) (between : o.count = 0)
    (at_zero : o.Pending → o.re = 0) :
    Inv { o with fr := 0, re := 0, resets := o.resets + 1 } := by
  have full : o.full = 0 := by rw [Sys.full, idle, between]
  have half : o.half = o.re := by rw [Sys.half, idle, if_neg nofun]
  have full' : Sys.full { o with fr := 0, re := 0, resets := o.resets + 1 } = 0 := full
  have half' : Sys.half { o with fr := 0, re := 0, resets := o.resets + 1 } = 0 := by
    rw [Sys.half, idle, if_neg nofun]
  refine ⟨⟨0, ⟨Nat.succ_pos _, ?_, ?_, ?_, ?_⟩, ?_⟩, ?_, inv.copying, Nat.zero_le _, inv.windows⟩
  · change 0 = (0 + o.count) % pgBufCnt
    rw [between]
    rfl
  · change o.count ≤ pg8kCnt
    rw [between]
    exact Nat.zero_le _
  · rw [full']
    exact Nat.zero_le _
  · rw [full']
    rfl
  · rw [At, idle]
    change o.count < pg8kCnt
    rw [between]
    exact Nat.succ_pos _
  · intro pending
    have old := inv.pending pending
    rw [half, at_zero pending] at old
    rw [half']
    exact old

private theorem inv_record {o : Sys} (inv : Inv o) {e : Event} (guard : Timely o e ∧ Steady o e) :
    Inv (record o e) := by
  cases e with
  | timeout online =>
    simp only [record]
    split_ifs with reset
    · obtain ⟨idle, none_left, offline⟩ := reset
      obtain ⟨between, at_zero⟩ := guard.2 idle none_left (by simpa using offline)
      exact inv_reset inv idle between at_zero
    · exact inv
  | irq =>
    simp only [record]
    split_ifs with ready
    · obtain ⟨s, filling, place⟩ := inv.filling
      exact ⟨⟨s, ⟨filling.lt, filling.fr, filling.count_le, filling.full_le, filling.pages⟩, place⟩,
        inv.pending, inv.copying, inv.re_le, inv.windows⟩
    · exact inv
  | read => exact inv_readWFB inv guard.1
  | wave => exact inv_wave inv guard.2

private theorem inv_blank : Inv blank where
  filling := ⟨0, ⟨Nat.succ_pos _, rfl, Nat.zero_le _, Nat.zero_le _, rfl⟩, Nat.succ_pos _⟩
  pending := nofun
  copying := nofun
  re_le := Nat.zero_le _
  windows := nofun

/-- In a run that resets the ring only between halves, every window is a whole half. -/
theorem whole_of_steady (es : List Event) (timely : Along record Timely blank es)
    (steady : Along record Steady blank es) :
    Along record (fun o e => Whole (record o e)) blank es :=
  along_of_invariant (fun _ _ inv guard => inv_record inv guard)
    (fun _ _ inv guard => (inv_record inv guard).windows) inv_blank (timely.and steady)

def reads (n : Nat) : List Event := (List.replicate n (.irq :: List.replicate 25 .read)).flatten

/-- The wave task's test, its load of `re`, a whole copy and its end. -/
def copy : List Event := List.replicate 103 .wave

/-- Both halves read and copied, a timeout while offline between two halves, and the next half. -/
def steadyRun : List Event :=
  reads 13 ++ copy ++ reads 12 ++ copy ++ .timeout false :: reads 13 ++ [.timeout true] ++ copy

theorem steadyRun_whole :
    Along record (fun o e => Whole (record o e)) blank steadyRun ∧
      (run record blank steadyRun).windows.map Copy.last = [100, 200, 300] :=
  ⟨whole_of_steady steadyRun (by decide +kernel) (by decide +kernel), by decide +kernel⟩

/-- Eight pages, a timeout while offline, 92 pages more, and the copy of the half then reported. -/
def unsteadyRun : List Event :=
  .irq :: List.replicate 24 .read ++ .timeout false ::
    ((List.replicate 12 (.irq :: List.replicate 24 .read)).flatten ++ List.replicate 102 .wave)

theorem reset_not_whole :
    ¬ ∀ es : List Event, Along record Timely blank es →
      Along record (fun o e => Whole (record o e)) blank es := by
  intro claim
  have last := ((along_append ..).mp (claim (unsteadyRun ++ [.wave]) (by decide +kernel))).2.1
  -- The half reported begins at slot 192, which no page has been read into.
  have open_ : ∃ w ∈ (run record blank (unsteadyRun ++ [.wave])).windows,
      w.pages[0]? = some none := by
    decide +kernel
  rw [run_append, run_cons, run_nil] at open_
  obtain ⟨w, member, first⟩ := open_
  obtain ⟨-, e, pages⟩ := last w member
  rw [pages] at first
  cases Option.some.inj first

end SV300.Wave.Window
