/- SV300/Library/RadixTwo
   digest: The in-place radix-2 transform: bit reversal, butterflies and the sums they compute. -/

import Mathlib.Algebra.BigOperators.Intervals
import Mathlib.Algebra.BigOperators.Ring.Finset
import Mathlib.Data.List.Nodup
import Mathlib.Tactic.LinearCombination
import Mathlib.Tactic.Ring

set_option autoImplicit false
set_option relaxedAutoImplicit false

namespace SV300.Library.RadixTwo

section Places

variable {ι α β : Type*} [DecidableEq ι]

/-- Steps that each read and write only the places of their own key may be taken in any order:
every place ends as its one step leaves it. -/
private theorem foldl_places {f : ι → (α → β) → α → β} {key : α → ι} {steps : List ι}
    (once : steps.Nodup) (frame : ∀ i ∈ steps, ∀ v p, key p ≠ i → f i v p = v p)
    (own : ∀ i ∈ steps, ∀ v w p, key p = i → (∀ q, key q = i → v q = w q) → f i v p = f i w p)
    (v : α → β) (p : α) :
    steps.foldl (fun v i => f i v) v p = if key p ∈ steps then f (key p) v p else v p := by
  induction steps generalizing v with
  | nil => rfl
  | cons i steps ih =>
    obtain ⟨absent, rest⟩ := List.nodup_cons.mp once
    have later := ih rest (fun j member => frame j (List.mem_cons_of_mem i member))
      (fun j member => own j (List.mem_cons_of_mem i member)) (f i v)
    rw [List.foldl_cons, later]
    by_cases here : key p = i
    · have done : key p ∉ steps := here ▸ absent
      rw [if_neg done, if_pos (here ▸ List.mem_cons_self), here]
    · by_cases member : key p ∈ steps
      · rw [if_pos member, if_pos (List.mem_cons_of_mem i member)]
        refine own (key p) (List.mem_cons_of_mem i member) _ _ p rfl fun q same => ?_
        exact frame i List.mem_cons_self v q (same ▸ here)
      · have neither : key p ∉ i :: steps := fun absurd' =>
          (List.mem_cons.mp absurd').elim here member
        rw [if_neg member, if_neg neither]
        exact frame i List.mem_cons_self v p here

end Places

def rev : ℕ → ℕ → ℕ
  | 0, _ => 0
  | l + 1, i => i % 2 * 2 ^ l + rev l (i / 2)

private theorem rev_lt (l i : ℕ) : rev l i < 2 ^ l := by
  induction l generalizing i with
  | zero => exact Nat.one_pos
  | succ l ih =>
    have rest := ih (i / 2)
    have bit : i % 2 = 0 ∨ i % 2 = 1 := by omega
    rw [rev, pow_succ]
    rcases bit with zero | one
    · rw [zero]
      omega
    · rw [one]
      omega

private theorem rev_even (l i : ℕ) : rev (l + 1) (2 * i) = rev l i := by
  rw [rev, Nat.mul_mod_right, Nat.zero_mul, Nat.zero_add, Nat.mul_div_cancel_left i (by decide)]

private theorem rev_odd (l i : ℕ) : rev (l + 1) (2 * i + 1) = 2 ^ l + rev l i := by
  have bit : (2 * i + 1) % 2 = 1 := by omega
  have half : (2 * i + 1) / 2 = i := by omega
  rw [rev, bit, half, Nat.one_mul]

private theorem rev_high (l i : ℕ) : rev (l + 1) i = 2 * rev l (i % 2 ^ l) + i / 2 ^ l % 2 := by
  induction l generalizing i with
  | zero =>
    simp only [rev, pow_zero, Nat.mul_one, Nat.div_one]
    omega
  | succ l ih =>
    have low : i % 2 ^ (l + 1) % 2 = i % 2 := Nat.mod_mod_of_dvd i (dvd_pow_self 2 l.succ_ne_zero)
    have mid : i % 2 ^ (l + 1) / 2 = i / 2 % 2 ^ l := by
      rw [pow_succ', Nat.mod_mul_right_div_self]
    have top : i / 2 / 2 ^ l = i / 2 ^ (l + 1) := by
      rw [Nat.div_div_eq_div_mul, ← pow_succ']
    rw [rev, ih (i / 2), rev, low, mid, top]
    ring

private theorem rev_rev {l i : ℕ} (small : i < 2 ^ l) : rev l (rev l i) = i := by
  induction l generalizing i with
  | zero => exact (Nat.lt_one_iff.mp small).symm
  | succ l ih =>
    have half : i / 2 < 2 ^ l := by
      rw [pow_succ] at small
      omega
    have rest := rev_lt l (i / 2)
    have bit : i % 2 < 2 := Nat.mod_lt i (by decide)
    have low : rev (l + 1) i % 2 ^ l = rev l (i / 2) := by
      rw [rev, Nat.add_comm, Nat.add_mul_mod_self_right, Nat.mod_eq_of_lt rest]
    have high : rev (l + 1) i / 2 ^ l % 2 = i % 2 := by
      rw [rev, Nat.add_comm, Nat.add_mul_div_right _ _ (Nat.two_pow_pos l), Nat.div_eq_of_lt rest,
        Nat.zero_add, Nat.mod_eq_of_lt bit]
    rw [rev_high, low, high, ih half]
    omega

private theorem rev_zero (l : ℕ) : rev l 0 = 0 := by
  induction l with
  | zero => rfl
  | succ l ih => rw [rev, Nat.zero_mod, Nat.zero_mul, Nat.zero_div, ih]

theorem rev_wider {l i : ℕ} (small : i < 2 ^ l) (more : ℕ) :
    rev (l + more) i = rev l i * 2 ^ more := by
  induction l generalizing i with
  | zero =>
    obtain rfl : i = 0 := Nat.lt_one_iff.mp small
    rw [rev_zero, rev_zero, Nat.zero_mul]
  | succ l ih =>
    have half : i / 2 < 2 ^ l := by
      rw [pow_succ] at small
      omega
    rw [Nat.succ_add, rev, rev, ih half, Nat.add_mul, pow_add]
    ring

theorem shift_iterate (l r i : ℕ) :
    (fun s : ℕ × ℕ => (s.1 * 2 + s.2 % 2, s.2 / 2))^[l] (r, i) =
      (r * 2 ^ l + rev l i, i / 2 ^ l) := by
  induction l generalizing r i with
  | zero => simp [rev]
  | succ l ih =>
    rw [Function.iterate_succ_apply, ih, rev, Nat.div_div_eq_div_mul, ← pow_succ']
    congr 1
    ring

section Reorder

variable {β : Type*}

def exchange (i j : ℕ) (v : ℕ → β) : ℕ → β :=
  Function.update (Function.update v i (v j)) j (v i)

theorem exchange_apply (i j : ℕ) (v : ℕ → β) (p : ℕ) :
    exchange i j v p = if p = j then v i else if p = i then v j else v p := by
  simp only [exchange, Function.update_apply]

/-- The loop that exchanges every place with its reversed one, once. -/
def reorder (l : ℕ) (v : ℕ → β) : ℕ → β :=
  (List.range (2 ^ l)).foldl (fun v i => if i < rev l i then exchange i (rev l i) v else v) v

private theorem reorder_apply (l : ℕ) (v : ℕ → β) {p : ℕ} (small : p < 2 ^ l) :
    reorder l v p = v (rev l p) := by
  -- The step of a pair is that of its smaller member.
  let key : ℕ → ℕ := fun p => if p < 2 ^ l then min p (rev l p) else p
  let step : ℕ → (ℕ → β) → ℕ → β := fun i v => if i < rev l i then exchange i (rev l i) v else v
  have pair : ∀ i < 2 ^ l, ∀ p, i < rev l i → (p = i ∨ p = rev l i) → key p = i := by
    intro i small p less place
    rcases place with rfl | rfl
    · simp only [key, small, if_true]
      omega
    · simp only [key, rev_lt, if_true, rev_rev small]
      omega
  have frame : ∀ i ∈ List.range (2 ^ l), ∀ (v : ℕ → β) p, key p ≠ i → step i v p = v p := by
    intro i member v p other
    have inside := List.mem_range.mp member
    simp only [step]
    split
    · rename_i less
      have notFirst : p ≠ i := fun same => other (pair i inside p less (.inl same))
      have notSecond : p ≠ rev l i := fun same => other (pair i inside p less (.inr same))
      rw [exchange_apply, if_neg notSecond, if_neg notFirst]
    · rfl
  have own : ∀ i ∈ List.range (2 ^ l), ∀ (v w : ℕ → β) p, key p = i →
      (∀ q, key q = i → v q = w q) → step i v p = step i w p := by
    intro i member v w p same agree
    have inside := List.mem_range.mp member
    simp only [step]
    split
    · rename_i less
      have first := agree i (pair i inside i less (.inl rfl))
      have second := agree (rev l i) (pair i inside _ less (.inr rfl))
      rw [exchange_apply, exchange_apply, first, second, agree p same]
    · exact agree p same
  have placed := foldl_places (List.nodup_range (n := 2 ^ l)) frame own v p
  have within : key p ∈ List.range (2 ^ l) := by
    simp only [key, small, if_true]
    exact List.mem_range.mpr (by omega)
  rw [if_pos within] at placed
  refine placed.trans ?_
  simp only [key, small, if_true, step]
  rcases Nat.lt_trichotomy p (rev l p) with less | same | greater
  · rw [min_eq_left less.le, if_pos less, exchange_apply]
    split
    · rename_i absurd'
      exact absurd absurd' less.ne
    · rw [if_pos rfl]
  · rw [min_eq_left same.le, if_neg same.not_lt]
    exact congrArg v same
  · rw [min_eq_right greater.le, rev_rev small, if_pos greater, exchange_apply, if_pos rfl]

end Reorder

section Butterflies

variable {R : Type*} [CommRing R]

/-- One butterfly on the places `j` and `l`. -/
def butterfly (tw : R) (j l : ℕ) (v : ℕ → R) : ℕ → R :=
  Function.update (Function.update v l (v j - tw * v l)) j (v j + tw * v l)

theorem butterfly_apply {j l : ℕ} (tw : R) (v : ℕ → R) (p : ℕ) :
    butterfly tw j l v p =
      if p = j then v j + tw * v l else if p = l then v j - tw * v l else v p := by
  simp only [butterfly, Function.update_apply]

/-- The butterflies of one size: `blocks` blocks of twice `half` places. -/
def stage (tw : ℕ → R) (blocks half : ℕ) (v : ℕ → R) : ℕ → R :=
  (List.range blocks).foldl (fun v b =>
    (List.range half).foldl (fun v t =>
      butterfly (tw t) (b * (2 * half) + t) (b * (2 * half) + t + half) v) v) v

private def pairKey (half p : ℕ) : ℕ × ℕ := (p / (2 * half), p % (2 * half) % half)

private theorem tile {d q r : ℕ} (small : r < d) : (q * d + r) / d = q ∧ (q * d + r) % d = r := by
  have positive : 0 < d := by omega
  rw [Nat.add_comm, Nat.add_mul_div_right _ _ positive, Nat.div_eq_of_lt small, Nat.zero_add,
    Nat.add_mul_mod_self_right, Nat.mod_eq_of_lt small]
  exact ⟨rfl, rfl⟩

private theorem pairKey_low {half b t : ℕ} (small : t < half) :
    pairKey half (b * (2 * half) + t) = (b, t) := by
  obtain ⟨block, offset⟩ := tile (q := b) (show t < 2 * half by omega)
  rw [pairKey, block, offset, Nat.mod_eq_of_lt small]

private theorem pairKey_high {half b t : ℕ} (small : t < half) :
    pairKey half (b * (2 * half) + t + half) = (b, t) := by
  obtain ⟨block, offset⟩ := tile (q := b) (show t + half < 2 * half by omega)
  rw [Nat.add_assoc, pairKey, block, offset, Nat.add_mod_right, Nat.mod_eq_of_lt small]

private theorem stage_apply (tw : ℕ → R) {blocks half b t : ℕ} (v : ℕ → R) (inside : b < blocks)
    (small : t < half) :
    let j := b * (2 * half) + t
    stage tw blocks half v j = v j + tw t * v (j + half) ∧
      stage tw blocks half v (j + half) = v j - tw t * v (j + half) := by
  intro j
  let step : ℕ × ℕ → (ℕ → R) → ℕ → R := fun i v =>
    butterfly (tw i.2) (i.1 * (2 * half) + i.2) (i.1 * (2 * half) + i.2 + half) v
  let steps : List (ℕ × ℕ) := (List.range blocks).product (List.range half)
  have flat : stage tw blocks half v = steps.foldl (fun v i => step i v) v := by
    simp only [stage, steps, step, List.product, List.foldl_flatMap, List.foldl_map]
  have once : steps.Nodup := List.nodup_range.product List.nodup_range
  have offset : ∀ i ∈ steps, i.2 < half := fun i member =>
    List.mem_range.mp (List.mem_product.mp member).2
  have frame : ∀ i ∈ steps, ∀ (v : ℕ → R) p, pairKey half p ≠ i → step i v p = v p := by
    intro i member v p other
    have notLow : p ≠ i.1 * (2 * half) + i.2 := fun same =>
      other (same ▸ pairKey_low (offset i member))
    have notHigh : p ≠ i.1 * (2 * half) + i.2 + half := fun same =>
      other (same ▸ pairKey_high (offset i member))
    simp only [step]
    rw [butterfly_apply, if_neg notLow, if_neg notHigh]
  have own : ∀ i ∈ steps, ∀ (v w : ℕ → R) p, pairKey half p = i →
      (∀ q, pairKey half q = i → v q = w q) → step i v p = step i w p := by
    intro i member v w p same agree
    have low := agree _ (pairKey_low (b := i.1) (offset i member))
    have high := agree _ (pairKey_high (b := i.1) (offset i member))
    simp only [step]
    rw [butterfly_apply, butterfly_apply, low, high, agree p same]
  have member : (b, t) ∈ steps :=
    List.mem_product.mpr ⟨List.mem_range.mpr inside, List.mem_range.mpr small⟩
  have placed := foldl_places once frame own v
  have notSame : j + half ≠ j := by omega
  constructor
  · rw [flat, placed j, pairKey_low small, if_pos member]
    simp only [step]
    rw [butterfly_apply, if_pos rfl]
  · rw [flat, placed (j + half), pairKey_high small, if_pos member]
    simp only [step]
    rw [butterfly_apply, if_neg notSame, if_pos rfl]

private theorem sum_even_odd (g : ℕ → R) (m : ℕ) : ∑ j ∈ Finset.range (2 * m), g j =
    ∑ j ∈ Finset.range m, g (2 * j) + ∑ j ∈ Finset.range m, g (2 * j + 1) := by
  induction m with
  | zero => simp
  | succ m ih =>
    rw [Nat.mul_succ, Finset.sum_range_succ, Finset.sum_range_succ, ih, Finset.sum_range_succ,
      Finset.sum_range_succ]
    ring

def dft (w : R) (n : ℕ) (x : ℕ → R) (k : ℕ) : R := ∑ j ∈ Finset.range n, x j * w ^ (j * k)

def stages (w : R) (l : ℕ) (p : ℕ) (v : ℕ → R) : ℕ → R :=
  (List.range p).foldl (fun v p =>
    stage (fun t => w ^ (t * 2 ^ (l - p - 1))) (2 ^ (l - p - 1)) (2 ^ p) v) v

/-- After `p` stages each block of `2 ^ p` places holds the transform of every `2 ^ (l - p)`-th
value, counted from the reversed number of the block. -/
private theorem stages_blocks {w : R} {l : ℕ} (root : w ^ 2 ^ (l - 1) = -1) (x v : ℕ → R)
    (start : ∀ i < 2 ^ l, v i = x (rev l i)) (p : ℕ) (bound : p ≤ l) :
    ∀ b < 2 ^ (l - p), ∀ k < 2 ^ p, stages w l p v (b * 2 ^ p + k) =
      ∑ j ∈ Finset.range (2 ^ p),
        x (j * 2 ^ (l - p) + rev (l - p) b) * w ^ (2 ^ (l - p) * (j * k)) := by
  induction p with
  | zero =>
    intro b inside k small
    have first : k = 0 := by simpa using small
    subst first
    have value := start b (by simpa using inside)
    simp [stages, value]
  | succ p ih =>
    have blocks := ih (by omega)
    obtain ⟨q, split⟩ : ∃ q, l - p = q + 1 := ⟨l - p - 1, by omega⟩
    have next : l - (p + 1) = q := by omega
    have here : l - p - 1 = q := by omega
    have total : q + p = l - 1 := by omega
    rw [split] at blocks
    rw [next]
    intro b inside k small
    have twice : 2 ^ (p + 1) = 2 * 2 ^ p := pow_succ' 2 p
    have wide : 2 ^ (q + 1) = 2 * 2 ^ q := pow_succ' 2 q
    have step : stages w l (p + 1) v = stage (fun t => w ^ (t * 2 ^ q)) (2 ^ q) (2 ^ p)
        (stages w l p v) := by
      simp only [stages, List.range_succ, List.foldl_append, List.foldl_cons, List.foldl_nil, here]
    have turn : w ^ (2 ^ q * 2 ^ p) = -1 := by rw [← pow_add, total, root]
    have whole : w ^ (2 * 2 ^ q * 2 ^ p) = 1 := by
      rw [show 2 * 2 ^ q * 2 ^ p = 2 ^ q * 2 ^ p + 2 ^ q * 2 ^ p by ring, pow_add, turn]
      ring
    rw [step, twice, sum_even_odd]
    -- The two halves of a block come from the blocks `2 * b` and `2 * b + 1` of the stage before.
    have halves : ∀ t < 2 ^ p,
        stages w l p v (b * (2 * 2 ^ p) + t) = ∑ j ∈ Finset.range (2 ^ p),
          x (2 * j * 2 ^ q + rev q b) * w ^ (2 * 2 ^ q * (j * t)) ∧
        stages w l p v (b * (2 * 2 ^ p) + t + 2 ^ p) = ∑ j ∈ Finset.range (2 ^ p),
          x ((2 * j + 1) * 2 ^ q + rev q b) * w ^ (2 * 2 ^ q * (j * t)) := by
      intro t smallT
      have even := blocks (2 * b) (by omega) t smallT
      have odd := blocks (2 * b + 1) (by omega) t smallT
      rw [rev_even] at even
      rw [rev_odd] at odd
      constructor
      · rw [show b * (2 * 2 ^ p) + t = 2 * b * 2 ^ p + t by ring, even]
        refine Finset.sum_congr rfl fun j _ => ?_
        rw [wide, show j * (2 * 2 ^ q) = 2 * j * 2 ^ q by ring]
      · rw [show b * (2 * 2 ^ p) + t + 2 ^ p = (2 * b + 1) * 2 ^ p + t by ring, odd]
        refine Finset.sum_congr rfl fun j _ => ?_
        rw [wide, show j * (2 * 2 ^ q) + (2 ^ q + rev q b) = (2 * j + 1) * 2 ^ q + rev q b by ring]
    by_cases low : k < 2 ^ p
    · obtain ⟨lower, -⟩ := stage_apply (fun t => w ^ (t * 2 ^ q)) (stages w l p v) inside low
      obtain ⟨even, odd⟩ := halves k low
      rw [lower, even, odd, Finset.mul_sum]
      congr 1
      · refine Finset.sum_congr rfl fun j _ => ?_
        congr 2
        ring
      · refine Finset.sum_congr rfl fun j _ => ?_
        rw [show 2 ^ q * ((2 * j + 1) * k) = k * 2 ^ q + 2 * 2 ^ q * (j * k) by ring, pow_add]
        ring
    · obtain ⟨t, rfl⟩ : ∃ t, k = t + 2 ^ p := ⟨k - 2 ^ p, by omega⟩
      have smallT : t < 2 ^ p := by omega
      obtain ⟨-, upper⟩ := stage_apply (fun t => w ^ (t * 2 ^ q)) (stages w l p v) inside smallT
      obtain ⟨even, odd⟩ := halves t smallT
      rw [← Nat.add_assoc, upper, even, odd, sub_eq_add_neg, ← neg_mul, Finset.mul_sum]
      congr 1
      · refine Finset.sum_congr rfl fun j _ => ?_
        rw [show 2 ^ q * (2 * j * (t + 2 ^ p)) = 2 * 2 ^ q * (j * t) + 2 * 2 ^ q * 2 ^ p * j by ring,
          pow_add, pow_mul w (2 * 2 ^ q * 2 ^ p) j, whole, one_pow, mul_one]
      · refine Finset.sum_congr rfl fun j _ => ?_
        rw [show 2 ^ q * ((2 * j + 1) * (t + 2 ^ p)) = t * 2 ^ q + 2 ^ q * 2 ^ p +
          2 * 2 ^ q * (j * t) + 2 * 2 ^ q * 2 ^ p * j by ring, pow_add, pow_add, pow_add, turn,
          pow_mul w (2 * 2 ^ q * 2 ^ p) j, whole, one_pow]
        ring

/-- Bit reversal and all stages compute the transform, for a root whose half power is minus one. -/
theorem transform_eq_dft {w : R} {l : ℕ} (root : w ^ 2 ^ (l - 1) = -1) (x : ℕ → R) {k : ℕ}
    (small : k < 2 ^ l) : stages w l l (reorder l x) k = dft w (2 ^ l) x k := by
  have blocks := stages_blocks root x (reorder l x) (fun i inside => reorder_apply l x inside) l
    le_rfl 0 (Nat.two_pow_pos _) k small
  rw [Nat.zero_mul, Nat.zero_add] at blocks
  rw [blocks, dft]
  refine Finset.sum_congr rfl fun j _ => ?_
  simp [rev]

end Butterflies

end SV300.Library.RadixTwo
