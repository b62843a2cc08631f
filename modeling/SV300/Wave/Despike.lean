/- SV300/Wave/Despike
   digest: The despike pass over the eight pages just read, and the blocks that it restores. -/

import Mathlib.Data.Real.Basic
import SV300.Library.Checked
import SV300.Library.SpikeRepair

set_option autoImplicit false
set_option relaxedAutoImplicit false

namespace SV300.Wave.Despike

open SV300.Library.Checked SV300.Library.SpikeRepair

/-- `PG_BUF_CNT`. -/
abbrev pgBufCnt : Nat := 200

/-- `wb`: a page has room for 128 words, of which 16 samples of 6 channels are read. -/
abbrev Ring := Grid pgBufCnt 128 Int32

/-- What the pass uses of `WAVE_PGBUF`; `fr` wraps in `getWave32kBuf`, where a page is taken. -/
structure WavePgBuf where
  fr : Fin pgBufCnt
  wb : Ring

/-- The first of the eight pages before `fr`. -/
def base (fr : Fin pgBufCnt) : Int :=
  let base := (fr.val : Int) - 8
  if base < 0 then base + pgBufCnt else base

def ringAt (base : Int) (k : Nat) : Int :=
  let ring := base + (k / 16 : Nat)
  if pgBufCnt ≤ ring then ring - pgBufCnt else ring

def wordAt (c k : Nat) : Int := 6 * (k % 16 : Nat) + c

def threshold (c : Nat) : Int32 := if c % 2 = 1 then 50000 else 80000

abbrev Samples := Cells 128 Int32
abbrev Marks := Cells 128 Bool

def spike (a b d thr : Int32) : Bool :=
  let lo := if a < d then a else d
  let hi := if a < d then d else a
  let med := if b < lo then lo else if hi < b then hi else b
  let dev := b - med
  let dev := if dev < 0 then -dev else dev
  decide (thr < dev)

def readBlock (wb : Ring) (base : Int) (c : Nat) (seq : Samples) : Option Samples :=
  (List.range' 0 128).foldlM (fun seq (k : Nat) => do
    write seq k (← readAt wb (ringAt base k) (wordAt c k))) seq

def markAt (seq : Samples) (thr : Int32) (k : Nat) : Option Bool := do
  let a ← read seq ((k : Int) - 1)
  let b ← read seq k
  let d ← read seq ((k : Int) + 1)
  some (spike a b d thr)

def markBlock (seq : Samples) (thr : Int32) (mk : Marks) : Option Marks := do
  let mk ← write mk 127 false
  let mk ← write mk 0 false
  (List.range' 1 126).foldlM (fun mk (k : Nat) => do write mk k (← markAt seq thr k)) mk

/-- `for (kl = k-1; kl > 0 && mk[kl]; kl--)`, from `kl` on. -/
def searchLeft (mk : Marks) : Nat → Option Nat
  | 0 => some 0
  | kl + 1 => do if ← read mk ((kl : Int) + 1) then searchLeft mk kl else some (kl + 1)

/-- `for (kr = k+1; kr < 127 && mk[kr]; kr++)`, from `kr = 127 - left` on. -/
def searchRight (mk : Marks) : Nat → Option Nat
  | 0 => some 127
  | left + 1 => do
    if ← read mk (126 - (left : Int)) then searchRight mk left else some (126 - left)

/-- `kr - kl == 2 && kl >= 1 && kr <= 126 && !mk[kl-1] && !mk[kr+1]`. -/
def single (mk : Marks) (kl kr : Nat) : Option Bool :=
  if (kr : Int) - kl = 2 ∧ 1 ≤ kl ∧ kr ≤ 126 then do
    if ← read mk ((kl : Int) - 1) then some false
    else some (!(← read mk ((kr : Int) + 1)))
  else some false

/-- The value that four neighbours give; their two sums are sums of ints. -/
def parabola (x₂ x₁ y₁ y₂ : Int32) : Int32 :=
  (((4 : Int64) * (x₁ + y₁).toInt64 - (x₂ + y₂).toInt64) / 6).toInt32

def line (x y : Int32) (kl k kr : Nat) : Int32 :=
  x + ((y - x).toInt64 * (Int64.ofNat k - Int64.ofNat kl) /
    (Int64.ofNat kr - Int64.ofNat kl)).toInt32

def repair (seq : Samples) (mk : Marks) (k : Nat) : Option Int32 := do
  let kl ← searchLeft mk (k - 1)
  let kr ← searchRight mk (126 - k)
  if ← single mk kl kr then
    let x₁ ← read seq kl
    let y₁ ← read seq kr
    let x₂ ← read seq ((kl : Int) - 1)
    let y₂ ← read seq ((kr : Int) + 1)
    some (parabola x₂ x₁ y₁ y₂)
  else
    let x ← read seq kl
    let y ← read seq kr
    some (line x y kl k kr)

def repairWord (base : Int) (c : Nat) (seq : Samples) (mk : Marks) (wb : Ring) (k : Nat) :
    Option Ring := do
  if ← read mk k then writeAt wb (ringAt base k) (wordAt c k) (← repair seq mk k) else some wb

def repairBlock (wb : Ring) (base : Int) (c : Nat) (seq : Samples) (mk : Marks) : Option Ring :=
  (List.range' 1 126).foldlM (repairWord base c seq mk) wb

/-- What `seq` and `mk` hold before they are written. -/
structure Scratch where
  seq : Samples
  marks : Marks

def despikeChannel (junk : Scratch) (base : Int) (wb : Ring) (c : Nat) : Option Ring := do
  let seq ← readBlock wb base c junk.seq
  let mk ← markBlock seq (threshold c) junk.marks
  repairBlock wb base c seq mk

/-- The ring after the pass; none if an index is outside of its array. -/
def despike (junk : Scratch) (q : WavePgBuf) : Option Ring :=
  (List.range 6).foldlM (despikeChannel junk (base q.fr)) q.wb

def place (fr : Fin pgBufCnt) (c : Fin 6) (k : Fin 128) : Fin pgBufCnt × Fin 128 :=
  (⟨(fr.val + 192 + k.val / 16) % pgBufCnt, Nat.mod_lt _ (by decide)⟩,
    ⟨6 * (k.val % 16) + c.val, by omega⟩)

def block (fr : Fin pgBufCnt) (wb : Ring) (c : Fin 6) : Samples :=
  fun k => wb (place fr c k).1 (place fr c k).2

def sample (seq : Samples) (k : Nat) : Int := if h : k < 128 then (seq ⟨k, h⟩).toInt else 0

/-- The samples that the pass flags: the two at the ends never. -/
def flagged (seq : Samples) (thr : Int32) : Marks := fun k =>
  if h : 1 ≤ k.val ∧ k.val < 127 then
    spike (seq ⟨k.val - 1, by omega⟩) (seq k) (seq ⟨k.val + 1, by omega⟩) thr
  else false

/-- The samples of a block that are off `orig`, a polynomial of degree three at most that moves by
less than `thr`, are three apart from each other and from the ends. -/
structure Spiked (thr : Int) (orig seq : Samples) : Prop where
  cubic : ∃ p : Polynomial ℝ, p.natDegree ≤ 3 ∧
    ∀ k : Fin 128, p.eval (k.val : ℝ) = ((orig k).toInt : ℝ)
  smooth : ∀ k, k + 1 < 128 → |sample orig (k + 1) - sample orig k| < thr
  ends : ∀ k, seq k ≠ orig k → 3 ≤ k.val ∧ k.val + 3 ≤ 127
  apart : ∀ j k, seq j ≠ orig j → seq k ≠ orig k → j.val < k.val → j.val + 3 ≤ k.val

/-- A sample that stands out from both neighbours, and that 32 bits do not hide: neither in its
difference from the median nor in a sum of two neighbours. -/
structure Repairable (thr : Int) (seq : Samples) (k : Nat) : Prop where
  left : thr < |sample seq k - sample seq (k - 1)|
  right : thr < |sample seq k - sample seq (k + 1)|
  half : rise (sample seq (k - 1)) (sample seq k) (sample seq (k + 1)) ≠ 2 ^ 31
  whole : rise (sample seq (k - 1)) (sample seq k) (sample seq (k + 1)) + thr < 2 ^ 32
  inner : Fits (sample seq (k - 1) + sample seq (k + 1))
  outer : Fits (sample seq (k - 2) + sample seq (k + 2))

/-- What the pass is to do: no index is outside, words change only where a sample is flagged, and
the blocks above are restored. -/
structure Upholds (junk : Scratch) (q : WavePgBuf) : Prop where
  inside : (despike junk q).isSome = true
  unflagged : ∀ wb, despike junk q = some wb → ∀ page word,
    (∀ (c : Fin 6) k, flagged (block q.fr q.wb c) (threshold c) k = true →
      place q.fr c k ≠ (page, word)) →
    wb page word = q.wb page word
  restores : ∀ wb, despike junk q = some wb → ∀ (c : Fin 6) orig,
    Spiked (threshold c).toInt orig (block q.fr q.wb c) → block q.fr wb c = orig

private theorem threshold_bounds (c : Nat) :
    0 < (threshold c).toInt ∧ (threshold c).toInt < 2 ^ 31 := by
  unfold threshold
  split_ifs <;> decide

private theorem fits_toInt (x : Int32) : Fits x.toInt := ⟨x.le_toInt, x.toInt_lt⟩

private theorem rise_lt (a b d : Int32) : rise a.toInt b.toInt d.toInt < 2 ^ 32 := by
  have le := rise_le_left a.toInt b.toInt d.toInt
  have close : |b.toInt - a.toInt| < 2 ^ 32 := by
    have := fits_toInt a
    have := fits_toInt b
    unfold Fits at *
    rw [abs_lt]
    omega
  exact lt_of_le_of_lt le close

private theorem toInt_med (a b d : Int32) :
    (if b < (if a < d then a else d) then (if a < d then a else d)
      else if (if a < d then d else a) < b then (if a < d then d else a) else b).toInt =
      median a.toInt b.toInt d.toInt := by
  unfold median
  split_ifs <;> simp only [Int32.lt_iff_toInt_lt] at * <;> omega

private theorem toInt_abs (dev : Int32) :
    (if dev < 0 then -dev else dev).toInt =
      if dev.toInt < 0 then (-dev.toInt).bmod (2 ^ 32) else dev.toInt := by
  have sign : dev < 0 ↔ dev.toInt < 0 := Int32.lt_iff_toInt_lt
  rw [apply_ite Int32.toInt, Int32.toInt_neg]
  exact if_congr sign rfl rfl

private theorem spike_iff (a b d : Int32) {thr : Int32} (pos : 0 ≤ thr.toInt) :
    spike a b d thr = true ↔ Seen thr.toInt (rise a.toInt b.toInt d.toInt) := by
  have bound : |b.toInt - median a.toInt b.toInt d.toInt| < 2 ^ 32 := rise_lt a b d
  rw [rise, ← lt_abs_wrap_iff pos thr.toInt_lt bound, spike, decide_eq_true_eq,
    Int32.lt_iff_toInt_lt, toInt_abs, Int32.toInt_sub, toInt_med]

private theorem toInt_parabola (x₂ x₁ y₁ y₂ : Int32) :
    (parabola x₂ x₁ y₁ y₂).toInt =
      ((4 * (x₁.toInt + y₁.toInt).bmod (2 ^ 32) -
        (x₂.toInt + y₂.toInt).bmod (2 ^ 32)).tdiv 6).bmod (2 ^ 32) := by
  have inner := fits_toInt (x₁ + y₁)
  have outer := fits_toInt (x₂ + y₂)
  unfold Fits at inner outer
  have product : ((4 : Int64) * (x₁ + y₁).toInt64).toInt = 4 * (x₁ + y₁).toInt := by
    have four : (4 : Int64).toInt = 4 := rfl
    rw [Int64.toInt_mul, four, Int32.toInt_toInt64]
    exact Int.bmod_eq_of_le_mul_two (by omega) (by omega)
  have difference : ((4 : Int64) * (x₁ + y₁).toInt64 - (x₂ + y₂).toInt64).toInt =
      4 * (x₁ + y₁).toInt - (x₂ + y₂).toInt := by
    rw [Int64.toInt_sub, product, Int32.toInt_toInt64]
    exact Int.bmod_eq_of_le_mul_two (by omega) (by omega)
  have six : (6 : Int64).toInt = 6 := rfl
  rw [parabola, Int64.toInt_toInt32, Int64.toInt_div, difference, six,
    Int.bmod_bmod_of_dvd (by decide), Int32.toInt_add, Int32.toInt_add]

private theorem place_fst (fr : Fin pgBufCnt) (c : Fin 6) (k : Fin 128) :
    ringAt (base fr) k.val = (place fr c k).1.val := by
  have before : fr.val < 200 := fr.isLt
  simp only [ringAt, base, place, pgBufCnt]
  split_ifs <;> omega

private theorem place_snd (fr : Fin pgBufCnt) (c : Fin 6) (k : Fin 128) :
    wordAt c.val k.val = (place fr c k).2.val := by
  simp only [wordAt, place]
  omega

private theorem place_inj {fr : Fin pgBufCnt} {c c' : Fin 6} {k k' : Fin 128}
    (same : place fr c k = place fr c' k') : c = c' ∧ k = k' := by
  have pages := congrArg (fun p => p.1.val) same
  have words := congrArg (fun p => p.2.val) same
  simp only [place, pgBufCnt] at pages words
  refine ⟨Fin.ext ?_, Fin.ext ?_⟩ <;> omega

private theorem readBlock_eq (fr : Fin pgBufCnt) (wb : Ring) (c : Fin 6) (seq : Samples) :
    readBlock wb (base fr) c.val seq = some (block fr wb c) := by
  have filled := foldlM_fill (s := 0) (k := 128) (v := block fr wb c)
    (f := fun k => readAt wb (ringAt (base fr) k) (wordAt c.val k)) (Nat.le_refl 128)
    (fun k _ _ => readAt_at wb (place_fst fr c k) (place_snd fr c k)) seq
  rw [readBlock, filled]
  exact congrArg some (funext fun k => if_pos ⟨Nat.zero_le _, k.isLt⟩)

private theorem markAt_eq (seq : Samples) (thr : Int32) {k : Fin 128}
    (inner : 1 ≤ k.val ∧ k.val < 127) :
    markAt seq thr k = some (flagged seq thr k) := by
  rw [markAt, read_pred seq inner.1 (by omega), read_at seq rfl, read_succ seq (by omega), flagged,
    dif_pos inner]
  rfl

private theorem markBlock_eq (seq : Samples) (thr : Int32) (mk : Marks) :
    markBlock seq thr mk = some (flagged seq thr) := by
  have filled := foldlM_fill (s := 1) (k := 126) (v := flagged seq thr) (by decide)
    (fun k low high => markAt_eq seq thr ⟨low, high⟩)
  rw [markBlock, write_at mk (i := 127) (k := 127) rfl, some_bind,
    write_at _ (i := 0) (k := 0) rfl, some_bind, filled]
  refine congrArg some (funext fun k => ?_)
  split_ifs with inner
  · rfl
  · have mark : flagged seq thr k = false := dif_neg inner
    rw [mark]
    rcases (by omega : k.val = 0 ∨ k.val = 127) with first | last
    · rw [Fin.ext first (b := 0), Function.update_self]
    · rw [Fin.ext last (b := 127), Function.update_of_ne (by decide), Function.update_self]

private theorem searchLeft_some (mk : Marks) {k : Nat} (inside : k < 128) :
    ∃ kl ≤ k, searchLeft mk k = some kl := by
  induction k with
  | zero => exact ⟨0, Nat.le_refl 0, rfl⟩
  | succ k ih =>
    obtain ⟨kl, le, found⟩ := ih (Nat.lt_of_succ_lt inside)
    rw [searchLeft, read_succ mk inside, some_bind]
    cases mk ⟨k + 1, inside⟩ with
    | false => exact ⟨k + 1, Nat.le_refl _, rfl⟩
    | true => exact ⟨kl, Nat.le_succ_of_le le, found⟩

private theorem searchRight_some (mk : Marks) {left : Nat} (inside : left ≤ 126) :
    ∃ kr, searchRight mk left = some kr ∧ 127 - left ≤ kr ∧ kr ≤ 127 := by
  induction left with
  | zero => exact ⟨127, rfl, Nat.le_refl _, Nat.le_refl _⟩
  | succ left ih =>
    have here : (126 - (left : Int)) = (⟨126 - left, by omega⟩ : Fin 128).val :=
      (Int.ofNat_sub (Nat.le_of_succ_le inside)).symm
    rw [searchRight, read_at mk here, some_bind]
    cases mk ⟨126 - left, by omega⟩ with
    | false => exact ⟨126 - left, rfl, by omega, by omega⟩
    | true =>
      obtain ⟨kr, found, low, high⟩ := ih (Nat.le_of_succ_le inside)
      exact ⟨kr, found, by omega, high⟩

private theorem single_some (mk : Marks) {kl kr : Nat} (inside : kr ≤ 127) :
    ∃ b, single mk kl kr = some b ∧ (b = true → 1 ≤ kl ∧ kr ≤ 126) := by
  unfold single
  split_ifs with near
  · rw [read_pred mk near.2.1 (by omega), read_succ mk (by omega), some_bind]
    split_ifs
    · exact ⟨false, rfl, nofun⟩
    · exact ⟨_, rfl, fun _ => near.2⟩
  · exact ⟨false, rfl, nofun⟩

private theorem repair_some (seq : Samples) (mk : Marks) {k : Nat} (inner : 1 ≤ k ∧ k < 127) :
    ∃ x, repair seq mk k = some x := by
  obtain ⟨kl, le, left⟩ := searchLeft_some mk (k := k - 1) (by omega)
  obtain ⟨kr, right, low, high⟩ := @searchRight_some mk (126 - k) (by omega)
  obtain ⟨b, alone, room⟩ := @single_some mk kl kr high
  rw [repair, left, some_bind, right, some_bind, alone, some_bind]
  have x₁ := read_at seq (i := kl) (k := ⟨kl, by omega⟩) rfl
  have y₁ := read_at seq (i := kr) (k := ⟨kr, by omega⟩) rfl
  rw [x₁, y₁]
  cases b with
  | false => exact ⟨_, rfl⟩
  | true =>
    obtain ⟨first, last⟩ := room rfl
    rw [read_pred seq first (by omega), read_succ seq (by omega)]
    exact ⟨_, rfl⟩

private theorem repair_single (seq : Samples) {mk : Marks} {j : Nat} (inside : j + 4 < 128)
    (clear : mk ⟨j, by omega⟩ = false ∧ mk ⟨j + 1, by omega⟩ = false ∧
      mk ⟨j + 3, by omega⟩ = false ∧ mk ⟨j + 4, inside⟩ = false) :
    repair seq mk (j + 2) = some (parabola (seq ⟨j, by omega⟩) (seq ⟨j + 1, by omega⟩)
      (seq ⟨j + 3, by omega⟩) (seq ⟨j + 4, inside⟩)) := by
  obtain ⟨c₀, c₁, c₃, c₄⟩ := clear
  have left : searchLeft mk (j + 1) = some (j + 1) := by
    rw [searchLeft, read_succ mk (by omega), some_bind, c₁]
    rfl
  have right : searchRight mk (126 - (j + 2)) = some (j + 3) := by
    obtain ⟨rest, more⟩ : ∃ rest, 126 - (j + 2) = rest + 1 := ⟨123 - j, by omega⟩
    have here : (126 - (rest : Int)) = (⟨j + 3, by omega⟩ : Fin 128).val := by
      change _ = ((j + 3 : Nat) : Int)
      omega
    have next : 126 - rest = j + 3 := by omega
    rw [more, searchRight, read_at mk here, some_bind, c₃, next]
    rfl
  have before {α : Type} (a : Cells 128 α) :
      read a (((j + 1 : Nat) : Int) - 1) = some (a ⟨j, by omega⟩) :=
    read_pred a (Nat.le_add_left 1 j) (by omega)
  have after {α : Type} (a : Cells 128 α) :
      read a (((j + 3 : Nat) : Int) + 1) = some (a ⟨j + 4, inside⟩) := read_succ a inside
  have alone : single mk (j + 1) (j + 3) = some true := by
    rw [single, if_pos ⟨by omega, by omega, by omega⟩, before mk, some_bind, c₀, after mk,
      some_bind, c₄]
    rfl
  have start : j + 2 - 1 = j + 1 := rfl
  rw [repair, start, left, some_bind, right, some_bind, alone, some_bind, if_pos rfl,
    read_at seq (k := ⟨j + 1, by omega⟩) rfl, some_bind,
    read_at seq (k := ⟨j + 3, by omega⟩) rfl, some_bind, before seq, some_bind, after seq,
    some_bind]

/-- What the passes of some channels leave: repaired samples where they are flagged, and nothing
else new. -/
structure Passed (fr : Fin pgBufCnt) (cs : List (Fin 6)) (wb after : Ring) : Prop where
  repaired : ∀ c ∈ cs, ∀ k, flagged (block fr wb c) (threshold c) k = true →
    repair (block fr wb c) (flagged (block fr wb c) (threshold c)) k.val =
      some (block fr after c k)
  kept : ∀ p : Fin pgBufCnt × Fin 128,
    (∀ c ∈ cs, ∀ k, flagged (block fr wb c) (threshold c) k = true → place fr c k ≠ p) →
      after p.1 p.2 = wb p.1 p.2

private theorem inner_of_flagged {seq : Samples} {thr : Int32} {k : Fin 128}
    (mark : flagged seq thr k = true) : 1 ≤ k.val ∧ k.val < 127 := by
  by_contra outer
  rw [flagged, dif_neg outer] at mark
  cases mark

private theorem repairWord_eq (fr : Fin pgBufCnt) (c : Fin 6) (seq : Samples) (mk : Marks)
    {k : Fin 128} (inner : 1 ≤ k.val ∧ k.val < 127) (wb : Ring) :
    repairWord (base fr) c.val seq mk wb k.val =
      some (if mk k then wb.put (place fr c k) ((repair seq mk k.val).getD 0) else wb) := by
  obtain ⟨x, value⟩ := repair_some seq mk inner
  rw [repairWord, read_at mk rfl, some_bind, value, some_bind,
    writeAt_at wb (place_fst fr c k) (place_snd fr c k)]
  split_ifs <;> rfl

def innerCells : List (Fin 128) :=
  (List.finRange 128).filter fun k => decide (1 ≤ k.val ∧ k.val < 127)

private theorem mem_innerCells {k : Fin 128} : k ∈ innerCells ↔ 1 ≤ k.val ∧ k.val < 127 := by
  rw [innerCells, List.mem_filter, decide_eq_true_eq, and_iff_right (List.mem_finRange k)]

private theorem map_innerCells : innerCells.map Fin.val = List.range' 1 126 := by decide

private theorem despikeChannel_passed (junk : Scratch) (fr : Fin pgBufCnt) (wb : Ring) (c : Fin 6) :
    ∃ after, despikeChannel junk (base fr) wb c.val = some after ∧ Passed fr [c] wb after := by
  generalize block_eq : block fr wb c = seq
  generalize mark_eq : flagged seq (threshold c) = mk
  have loop := foldlM_some (fun k member => repairWord_eq fr c seq mk (mem_innerCells.mp member)) wb
  have distinct : (innerCells.map (place fr c)).Nodup :=
    ((List.nodup_finRange 128).filter _).map fun j k same => (place_inj same).2
  obtain ⟨placed, kept⟩ := foldl_put mk (fun k => (repair seq mk k.val).getD 0) distinct wb
  rw [← List.foldlM_map, map_innerCells] at loop
  rw [despikeChannel, readBlock_eq, some_bind, markBlock_eq, some_bind, block_eq, mark_eq,
    repairBlock, loop]
  refine ⟨_, rfl, fun c' single k mark => ?_, fun p away => ?_⟩
  · obtain rfl := List.mem_singleton.mp single
    rw [block_eq, mark_eq] at mark ⊢
    have inner := inner_of_flagged (mark_eq ▸ mark)
    obtain ⟨x, value⟩ := repair_some seq mk inner
    rw [block, placed k (mem_innerCells.mpr inner) mark, value, Option.getD_some]
  · have here := away c List.mem_cons_self
    rw [block_eq, mark_eq] at here
    exact kept p fun k _ mark => here k mark

section

variable {fr : Fin pgBufCnt} {cs : List (Fin 6)} {wb after : Ring}

private theorem Passed.unflagged (passed : Passed fr cs wb after) {c : Fin 6} {k : Fin 128}
    (plain : flagged (block fr wb c) (threshold c) k = false) :
    block fr after c k = block fr wb c k := by
  refine passed.kept (place fr c k) fun c' _ k' mark same => ?_
  obtain ⟨rfl, rfl⟩ := place_inj same
  rw [plain] at mark
  cases mark

private theorem Passed.block_eq (passed : Passed fr cs wb after) {c : Fin 6} (other : c ∉ cs) :
    block fr after c = block fr wb c :=
  funext fun k => passed.kept (place fr c k) fun _ inside _ _ same =>
    other ((place_inj same).1 ▸ inside)

private theorem Passed.cons {c : Fin 6} {mid : Ring} (first : Passed fr [c] wb mid)
    (rest : Passed fr cs mid after) (apart : c ∉ cs) : Passed fr (c :: cs) wb after := by
  have same {c' : Fin 6} (inside : c' ∈ cs) : block fr mid c' = block fr wb c' :=
    first.block_eq fun here => apart (List.mem_singleton.mp here ▸ inside)
  refine ⟨fun c' member k mark => ?_, fun p away => ?_⟩
  · rcases List.mem_cons.mp member with rfl | later
    · rw [rest.block_eq apart]
      exact first.repaired c' List.mem_cons_self k mark
    · rw [← same later] at mark ⊢
      exact rest.repaired c' later k mark
  · rw [rest.kept p fun c' inside k mark => ?_, first.kept p fun c' here k mark => ?_]
    · obtain rfl := List.mem_singleton.mp here
      exact away c' List.mem_cons_self k mark
    · rw [same inside] at mark
      exact away c' (List.mem_cons_of_mem c inside) k mark

end

private theorem channels_passed (junk : Scratch) (fr : Fin pgBufCnt) {cs : List (Fin 6)}
    (distinct : cs.Nodup) (wb : Ring) :
    ∃ after, (cs.map Fin.val).foldlM (despikeChannel junk (base fr)) wb = some after ∧
      Passed fr cs wb after := by
  induction cs generalizing wb with
  | nil => exact ⟨wb, rfl, nofun, fun _ _ => rfl⟩
  | cons c cs ih =>
    obtain ⟨apart, rest⟩ := List.nodup_cons.mp distinct
    obtain ⟨mid, pass, first⟩ := despikeChannel_passed junk fr wb c
    obtain ⟨after, passes, others⟩ := ih rest mid
    refine ⟨after, ?_, first.cons others apart⟩
    rw [List.map_cons, List.foldlM_cons, pass]
    exact passes

private theorem despike_passed (junk : Scratch) (q : WavePgBuf) :
    ∃ after, despike junk q = some after ∧ Passed q.fr (List.finRange 6) q.wb after := by
  have channels : (List.finRange 6).map Fin.val = List.range 6 := by decide
  rw [despike, ← channels]
  exact channels_passed junk q.fr (List.nodup_finRange 6) q.wb

private theorem sample_val (seq : Samples) (k : Fin 128) : sample seq k.val = (seq k).toInt :=
  dif_pos k.isLt

private theorem sample_congr {seq orig : Samples} {k : Nat} (inside : k < 128)
    (same : seq ⟨k, inside⟩ = orig ⟨k, inside⟩) : sample seq k = sample orig k := by
  rw [sample, sample, dif_pos inside, dif_pos inside, same]

private theorem flagged_iff (seq : Samples) {thr : Int32} (pos : 0 ≤ thr.toInt) {k : Fin 128}
    (inner : 1 ≤ k.val ∧ k.val < 127) :
    flagged seq thr k = true ↔
      Seen thr.toInt (rise (sample seq (k.val - 1)) (sample seq k.val)
        (sample seq (k.val + 1))) := by
  rw [flagged, dif_pos inner, spike_iff _ _ _ pos, ← sample_val, ← sample_val, ← sample_val]

section

variable {thr : Int32} {orig seq : Samples}

private theorem Spiked.same (spiked : Spiked thr.toInt orig seq) {j k : Fin 128}
    (off : seq j ≠ orig j)
    (other : k.val ≠ j.val) (near : k.val ≤ j.val + 2 ∧ j.val ≤ k.val + 2) : seq k = orig k := by
  by_contra also
  rcases Nat.lt_or_gt_of_ne other with before | behind
  · have := spiked.apart k j also off before
    omega
  · have := spiked.apart j k off also behind
    omega

private theorem Spiked.plain (spiked : Spiked thr.toInt orig seq) (pos : 0 ≤ thr.toInt)
    {k : Fin 128} (good : seq k = orig k) : flagged seq thr k = false := by
  by_contra mark
  rw [Bool.not_eq_false] at mark
  have inner := inner_of_flagged mark
  have seen := ((flagged_iff seq pos inner).mp mark).1
  have here : sample seq k.val = sample orig k.val := sample_congr k.isLt good
  by_cases left : seq ⟨k.val - 1, by omega⟩ = orig ⟨k.val - 1, by omega⟩
  · have before := sample_congr _ left
    have le := rise_le_left (sample seq (k.val - 1)) (sample seq k.val) (sample seq (k.val + 1))
    have small := spiked.smooth (k.val - 1) (by omega)
    rw [Nat.sub_add_cancel inner.1, ← here, ← before] at small
    omega
  · have right : seq ⟨k.val + 1, by omega⟩ = orig ⟨k.val + 1, by omega⟩ :=
      spiked.same left (by simp; omega) (by simp; omega)
    have behind := sample_congr _ right
    have le := rise_le_right (sample seq (k.val - 1)) (sample seq k.val) (sample seq (k.val + 1))
    have small := spiked.smooth k.val (by omega)
    rw [← here, ← behind, abs_sub_comm] at small
    omega

private theorem Spiked.lt_rise_iff (spiked : Spiked thr.toInt orig seq) {k : Fin 128}
    (off : seq k ≠ orig k) :
    thr.toInt < rise (sample seq (k.val - 1)) (sample seq k.val) (sample seq (k.val + 1)) ↔
      thr.toInt < |sample seq k.val - sample seq (k.val - 1)| ∧
        thr.toInt < |sample seq k.val - sample seq (k.val + 1)| := by
  obtain ⟨low, high⟩ := spiked.ends k off
  have before := sample_congr _
    (spiked.same off (k := ⟨k.val - 1, by omega⟩) (by simp; omega) (by simp; omega))
  have behind := sample_congr _
    (spiked.same off (k := ⟨k.val + 1, by omega⟩) (by simp) (by simp; omega))
  refine SV300.Library.SpikeRepair.lt_rise_iff ?_
  have step := spiked.smooth (k.val - 1) (by omega)
  have next := spiked.smooth k.val (by omega)
  rw [Nat.sub_add_cancel (by omega), abs_lt] at step
  rw [abs_lt] at next
  rw [before, behind, abs_le]
  omega

private theorem Spiked.center (spiked : Spiked thr.toInt orig seq) {j : Nat}
    (inside : j + 4 < 128) :
    6 * sample orig (j + 2) = 4 * (sample orig (j + 1) + sample orig (j + 3)) -
      (sample orig j + sample orig (j + 4)) := by
  obtain ⟨p, degree, value⟩ := spiked.cubic
  have at_sample {i : Nat} (small : i < 128) : p.eval (i : ℝ) = (sample orig i : ℝ) := by
    rw [sample, dif_pos small]
    exact value ⟨i, small⟩
  have center := six_center degree ((j + 2 : Nat) : ℝ)
  have x₁ : ((j + 2 : Nat) : ℝ) - 1 = ((j + 1 : Nat) : ℝ) := by push_cast; ring
  have y₁ : ((j + 2 : Nat) : ℝ) + 1 = ((j + 3 : Nat) : ℝ) := by push_cast; ring
  have x₂ : ((j + 2 : Nat) : ℝ) - 2 = (j : ℝ) := by push_cast; ring
  have y₂ : ((j + 2 : Nat) : ℝ) + 2 = ((j + 4 : Nat) : ℝ) := by push_cast; ring
  rw [x₁, y₁, x₂, y₂, at_sample (by omega), at_sample (by omega), at_sample (by omega),
    at_sample (by omega), at_sample inside] at center
  exact_mod_cast center

private theorem Spiked.repair_iff (spiked : Spiked thr.toInt orig seq) (pos : 0 ≤ thr.toInt)
    {j : Nat}
    (inside : j + 4 < 128) (off : seq ⟨j + 2, by omega⟩ ≠ orig ⟨j + 2, by omega⟩) {x : Int32}
    (value : repair seq (flagged seq thr) (j + 2) = some x) :
    x = orig ⟨j + 2, by omega⟩ ↔ Fits (sample seq (j + 1) + sample seq (j + 3)) ∧
      Fits (sample seq j + sample seq (j + 4)) := by
  have good {i : Nat} (small : i < 128) (other : i ≠ j + 2) (near : i ≤ j + 4 ∧ j ≤ i) :
      seq ⟨i, small⟩ = orig ⟨i, small⟩ :=
    spiked.same off other ⟨near.1, by simpa using near.2⟩
  have g₀ := good (i := j) (by omega) (by omega) (by omega)
  have g₁ := good (i := j + 1) (by omega) (by omega) (by omega)
  have g₃ := good (i := j + 3) (by omega) (by omega) (by omega)
  have g₄ := good (i := j + 4) inside (by omega) (by omega)
  rw [repair_single seq inside ⟨spiked.plain pos g₀, spiked.plain pos g₁, spiked.plain pos g₃,
    spiked.plain pos g₄⟩] at value
  rw [← Option.some.inj value, ← Int32.toInt_inj, toInt_parabola, ← sample_val, ← sample_val,
    ← sample_val, ← sample_val, ← sample_val]
  have center := spiked.center inside
  rw [← sample_congr _ g₀, ← sample_congr _ g₁, ← sample_congr _ g₃, ← sample_congr _ g₄] at center
  have bounds (x y : Int32) : -2 ^ 32 ≤ x.toInt + y.toInt ∧ x.toInt + y.toInt < 2 ^ 32 := by
    have := fits_toInt x
    have := fits_toInt y
    unfold Fits at *
    omega
  have fits : Fits (sample orig (j + 2)) := by
    rw [sample, dif_pos (by omega)]
    exact fits_toInt _
  refine center_eq_iff center fits ?_ ?_
  · rw [sample, sample, dif_pos (by omega), dif_pos (by omega)]
    exact bounds _ _
  · rw [sample, sample, dif_pos (by omega), dif_pos (by omega)]
    exact bounds _ _

private theorem Spiked.restored_iff (spiked : Spiked thr.toInt orig seq) (pos : 0 ≤ thr.toInt)
    {k : Fin 128} {x : Int32}
    (repaired : flagged seq thr k = true → repair seq (flagged seq thr) k.val = some x)
    (kept : flagged seq thr k = false → x = seq k) :
    x = orig k ↔ (seq k ≠ orig k → Repairable thr.toInt seq k.val) := by
  by_cases good : seq k = orig k
  · rw [kept (spiked.plain pos good)]
    exact iff_of_true good fun off => absurd good off
  rw [imp_iff_right good]
  obtain ⟨low, high⟩ := spiked.ends k good
  have seen := flagged_iff seq pos (k := k) ⟨by omega, by omega⟩
  cases mark : flagged seq thr k with
  | false =>
    rw [kept mark]
    refine iff_of_false good fun r => ?_
    rw [seen.mpr ⟨(spiked.lt_rise_iff good).mpr ⟨r.left, r.right⟩, r.half, r.whole⟩] at mark
    cases mark
  | true =>
    obtain ⟨i, small⟩ := k
    obtain ⟨j, rfl⟩ := Nat.exists_eq_add_of_le' (Nat.le_of_succ_le low : 2 ≤ i)
    rw [spiked.repair_iff pos (by simp only at high; omega) good (repaired mark)]
    obtain ⟨above, half, whole⟩ := seen.mp mark
    obtain ⟨left, right⟩ := (spiked.lt_rise_iff good).mp above
    exact ⟨fun fits => ⟨left, right, half, whole, fits.1, fits.2⟩, fun r => ⟨r.inner, r.outer⟩⟩

end

private theorem block_restored_iff {junk : Scratch} {q : WavePgBuf} {after : Ring}
    (done : despike junk q = some after) {c : Fin 6} {orig : Samples}
    (spiked : Spiked (threshold c).toInt orig (block q.fr q.wb c)) :
    block q.fr after c = orig ↔ ∀ k, block q.fr q.wb c k ≠ orig k →
      Repairable (threshold c).toInt (block q.fr q.wb c) k.val := by
  obtain ⟨wb, done', passed⟩ := despike_passed junk q
  obtain rfl : wb = after := Option.some.inj (done'.symm.trans done)
  rw [funext_iff]
  refine forall_congr' fun k => ?_
  exact spiked.restored_iff (threshold_bounds c).1.le
    (fun mark => passed.repaired c (List.mem_finRange c) k mark)
    (fun plain => passed.unflagged plain)

/-- For every ring and every position: the pass stays inside its arrays, changes what it flags only,
and restores the blocks just if their spikes can be repaired. -/
theorem despikes_iff (junk : Scratch) (q : WavePgBuf) :
    Upholds junk q ↔ ∀ (c : Fin 6) orig,
      Spiked (threshold c).toInt orig (block q.fr q.wb c) →
        ∀ k, block q.fr q.wb c k ≠ orig k →
          Repairable (threshold c).toInt (block q.fr q.wb c) k.val := by
  obtain ⟨wb, done, passed⟩ := despike_passed junk q
  constructor
  · intro upholds c orig spiked
    exact (block_restored_iff done spiked).mp (upholds.restores wb done c orig spiked)
  · intro repairable
    refine ⟨by rw [done]; rfl, fun after done' page word away => ?_,
      fun after done' c orig spiked => ?_⟩
    · obtain rfl : wb = after := Option.some.inj (done.symm.trans done')
      exact passed.kept (page, word) fun c _ k mark => away c k mark
    · exact (block_restored_iff done' spiked).mpr (repairable c orig spiked)

/-- A ring of zeros with the least word for the 51st sample of the first channel. -/
def hidden : WavePgBuf where
  fr := 8
  wb := fun page word => if page = 3 ∧ word = 12 then Int32.minValue else 0

def blank : Scratch := ⟨fun _ => 0, fun _ => false⟩

private theorem block_hidden : block hidden.fr hidden.wb 0 =
    fun k => if k = 50 then Int32.minValue else 0 := by
  refine funext fun k => ?_
  have words : ∀ k : Fin 128, ((place 8 0 k).1 = 3 ∧ (place 8 0 k).2 = 12) ↔ k = 50 := by decide
  exact if_congr (words k) rfl rfl

private theorem hidden_off {k : Fin 128}
    (off : (if k = 50 then Int32.minValue else 0) ≠ (0 : Int32)) : k = 50 := by
  by_contra other
  exact off (if_neg other)

private theorem hidden_spiked :
    Spiked (threshold (0 : Fin 6).val).toInt (fun _ => 0) (block hidden.fr hidden.wb 0) := by
  rw [block_hidden]
  constructor
  · exact ⟨0, by simp, fun k => by simp⟩
  · intro k inside
    rw [sample, sample, dif_pos inside, dif_pos (by omega)]
    decide
  · intro k off
    rw [hidden_off off]
    decide
  · intro j k offj offk less
    rw [hidden_off offj, hidden_off offk] at less
    exact absurd less (lt_irrefl _)

/-- The difference from the median is 2 ^ 31, whose word is negative both ways. -/
theorem hidden_not_upheld : ¬ Upholds blank hidden := by
  intro upholds
  obtain ⟨wb, done, -⟩ := despike_passed blank hidden
  have restored := upholds.restores wb done 0 _ hidden_spiked
  have repairable := (block_restored_iff done hidden_spiked).mp restored 50
  rw [block_hidden] at repairable
  have half := (repairable (by decide)).half
  have values : sample (fun k => if k = 50 then Int32.minValue else 0) 49 = 0 ∧
      sample (fun k => if k = 50 then Int32.minValue else 0) 50 = -2 ^ 31 ∧
      sample (fun k => if k = 50 then Int32.minValue else 0) 51 = 0 := by decide
  change rise (sample _ 49) (sample _ 50) (sample _ 51) ≠ 2 ^ 31 at half
  rw [values.1, values.2.1, values.2.2] at half
  exact half (by decide)

end SV300.Wave.Despike
