/- SV300/Library/BitCrc
   digest: The shift register of a reflected CRC: its linearity, its table and the bursts it sees. -/

import Mathlib.Data.List.GetD
import Mathlib.Logic.Function.Iterate
import SV300.Library.TableCrc

set_option autoImplicit false
set_option relaxedAutoImplicit false

namespace SV300.Library.BitCrc

open SV300.Library.TableCrc (step crc)

variable {w : Nat}

/-- The lowest bit is shifted out; a one feeds the polynomial back. -/
def shift (poly x : BitVec w) : BitVec w :=
  if x.getLsbD 0 then (x >>> 1) ^^^ poly else x >>> 1

def shifts (poly : BitVec w) (n : Nat) (x : BitVec w) : BitVec w := (shift poly)^[n] x

/-- The bytewise form: a byte is added to the low end, and eight bits are shifted out. -/
def byteStep (poly c : BitVec w) (b : UInt8) : BitVec w :=
  shifts poly 8 (c ^^^ b.toBitVec.setWidth w)

def crcBytes (poly init : BitVec w) (bs : List UInt8) : BitVec w := bs.foldl (byteStep poly) init

/-- The bitwise form: a bit is added to the lowest one, which is shifted out. -/
def bitStep (poly c : BitVec w) (b : Bool) : BitVec w :=
  shift poly (c ^^^ (BitVec.ofBool b).setWidth w)

def crcBits (poly init : BitVec w) (bs : List Bool) : BitVec w := bs.foldl (bitStep poly) init

/-- The bits of a byte in the order in which they enter the register. -/
def bitsOf (b : UInt8) : List Bool := (List.range 8).map b.toBitVec.getLsbD

def bits (bs : List UInt8) : List Bool := bs.flatMap bitsOf

variable {poly : BitVec w}

private theorem shifts_succ (n : Nat) (x : BitVec w) :
    shifts poly (n + 1) x = shifts poly n (shift poly x) :=
  Function.iterate_succ_apply (shift poly) n x

private theorem crcBits_append (c : BitVec w) (as bs : List Bool) :
    crcBits poly c (as ++ bs) = crcBits poly (crcBits poly c as) bs :=
  List.foldl_append

private theorem shift_xor (x y : BitVec w) :
    shift poly (x ^^^ y) = shift poly x ^^^ shift poly y := by
  unfold shift
  rw [BitVec.getLsbD_xor, BitVec.ushiftRight_xor_distrib]
  cases x.getLsbD 0 <;> cases y.getLsbD 0
  · rfl
  · exact BitVec.xor_assoc _ _ _
  · simp only [Bool.xor_false, if_true, Bool.false_eq_true, if_false]
    ac_rfl
  · -- the polynomial is fed back twice
    simp only [Bool.xor_self, Bool.false_eq_true, if_false, if_true]
    have twice : (x >>> 1 ^^^ poly) ^^^ (y >>> 1 ^^^ poly) =
        (x >>> 1 ^^^ y >>> 1) ^^^ (poly ^^^ poly) := by ac_rfl
    rw [twice, BitVec.xor_self, BitVec.xor_zero]

private theorem shifts_xor (n : Nat) (x y : BitVec w) :
    shifts poly n (x ^^^ y) = shifts poly n x ^^^ shifts poly n y := by
  induction n generalizing x y with
  | zero => rfl
  | succ n ih => rw [shifts_succ, shifts_succ, shifts_succ, shift_xor, ih]

private theorem shifts_high {n : Nat} {x : BitVec w} (clear : ∀ i < n, x.getLsbD i = false) :
    shifts poly n x = x >>> n := by
  induction n generalizing x with
  | zero => rfl
  | succ n ih =>
    have low : x.getLsbD 0 = false := clear 0 (Nat.succ_pos n)
    have moved : ∀ i < n, (x >>> 1).getLsbD i = false := by
      intro i below
      rw [BitVec.getLsbD_ushiftRight]
      exact clear (1 + i) (by omega)
    rw [shifts_succ, shift, low, if_neg Bool.false_ne_true, ih moved, Nat.add_comm,
      BitVec.shiftRight_add]

private theorem shift_up {x : BitVec w} (room : x.getLsbD (w - 1) = false) :
    shift poly (x <<< 1) = x := by
  have low : (x <<< 1).getLsbD 0 = false := by simp
  rw [shift, low, if_neg Bool.false_ne_true]
  apply BitVec.eq_of_getLsbD_eq
  intro i inside
  rw [BitVec.getLsbD_ushiftRight, BitVec.getLsbD_shiftLeft]
  by_cases last : i = w - 1
  · have out : ¬ 1 + i < w := by omega
    rw [last, room, ← last, decide_eq_false out, Bool.false_and, Bool.false_and]
  · have fits : 1 + i < w := by omega
    simp [fits]

private theorem shift_inj (high : poly.getLsbD (w - 1) = true) {x y : BitVec w}
    (same : shift poly x = shift poly y) : x = y := by
  have zero : shift poly (x ^^^ y) = 0#w := by rw [shift_xor, same, BitVec.xor_self]
  have bounded : w - 1 < w := by
    by_contra none
    rw [BitVec.getLsbD_of_ge poly (w - 1) (by omega)] at high
    cases high
  have last : (x ^^^ y).getLsbD 0 = false := by
    by_contra one
    rw [shift, if_pos (eq_true_of_ne_false one)] at zero
    have bit := congrArg (fun z => z.getLsbD (w - 1)) zero
    rw [BitVec.getLsbD_xor, BitVec.getLsbD_ushiftRight, high, BitVec.getLsbD_of_ge _ _ (by omega),
      BitVec.getLsbD_zero] at bit
    cases bit
  rw [shift, last, if_neg Bool.false_ne_true] at zero
  have none : x ^^^ y = 0#w := by
    apply BitVec.eq_of_getLsbD_eq
    intro i _
    rw [BitVec.getLsbD_zero]
    cases i with
    | zero => exact last
    | succ i =>
      have bit := congrArg (fun z => z.getLsbD i) zero
      rw [BitVec.getLsbD_ushiftRight, BitVec.getLsbD_zero, Nat.add_comm] at bit
      exact bit
  exact BitVec.xor_eq_zero_iff.mp none

private theorem shifts_inj (high : poly.getLsbD (w - 1) = true) {n : Nat} {x y : BitVec w}
    (same : shifts poly n x = shifts poly n y) : x = y :=
  (Function.Injective.iterate (fun _ _ => shift_inj high) n) same

theorem crcBits_inj (high : poly.getLsbD (w - 1) = true) {x y : BitVec w} {bs : List Bool}
    (same : crcBits poly x bs = crcBits poly y bs) : x = y := by
  induction bs generalizing x y with
  | nil => exact same
  | cons b bs ih => exact (BitVec.xor_left_inj _).mp (shift_inj high (ih same))

/-- A block of bits as a number, its first bit lowest. -/
def pack : List Bool → BitVec w
  | [] => 0#w
  | b :: bs => (BitVec.ofBool b).setWidth w ^^^ (pack bs <<< 1)

private theorem getLsbD_pack {bs : List Bool} (i : Nat) (inside : i < w) :
    (pack bs : BitVec w).getLsbD i = bs.getD i false := by
  induction bs generalizing i with
  | nil => simp [pack]
  | cons b bs ih =>
    rw [pack, BitVec.getLsbD_xor, BitVec.getLsbD_setWidth, BitVec.getLsbD_shiftLeft]
    cases i with
    | zero => simp [inside]
    | succ i => simp [inside, ih i (by omega)]

private theorem crcBits_pack {bs : List Bool} (short : bs.length ≤ w) (c : BitVec w) :
    crcBits poly c bs = shifts poly bs.length (c ^^^ pack bs) := by
  induction bs generalizing c with
  | nil => exact (BitVec.xor_zero).symm
  | cons b bs ih =>
    have fewer : bs.length + 1 ≤ w := short
    have room : (pack bs : BitVec w).getLsbD (w - 1) = false := by
      rw [getLsbD_pack _ (by omega), List.getD_eq_getElem?_getD, List.getElem?_eq_none (by omega), Option.getD_none]
    have first : shift poly (c ^^^ pack (b :: bs)) = bitStep poly c b ^^^ pack bs := by
      rw [pack, ← BitVec.xor_assoc, shift_xor, shift_up room, bitStep]
    rw [List.length_cons, shifts_succ, first, ← ih (by omega)]
    rfl

private theorem block_inj (high : poly.getLsbD (w - 1) = true) {c : BitVec w} {as bs : List Bool}
    (length : as.length = bs.length) (short : bs.length ≤ w)
    (same : crcBits poly c as = crcBits poly c bs) : as = bs := by
  rw [crcBits_pack (length ▸ short), crcBits_pack short, length] at same
  have numbers := (BitVec.xor_right_inj c).mp (shifts_inj high same)
  apply List.ext_getElem length
  intro i below below'
  have bit := congrArg (fun z => z.getLsbD i) numbers
  rwa [getLsbD_pack i (by omega), getLsbD_pack i (by omega), List.getD_eq_getElem _ _ below,
    List.getD_eq_getElem _ _ below'] at bit

private theorem length_bitsOf (b : UInt8) : (bitsOf b).length = 8 := rfl

theorem length_bits (bs : List UInt8) : (bits bs).length = 8 * bs.length := by
  induction bs with
  | nil => rfl
  | cons b bs ih =>
    rw [bits, List.flatMap_cons, List.length_append, length_bitsOf, List.length_cons]
    change 8 + (bits bs).length = _
    omega

private theorem pack_bitsOf (b : UInt8) : (pack (bitsOf b) : BitVec w) = b.toBitVec.setWidth w := by
  apply BitVec.eq_of_getLsbD_eq
  intro i inside
  rw [getLsbD_pack i inside, BitVec.getLsbD_setWidth, decide_eq_true inside, Bool.true_and, bitsOf]
  by_cases below : i < 8
  · rw [List.getD_eq_getElem _ _ (by simpa using below), List.getElem_map, List.getElem_range]
  · rw [List.getD_eq_getElem?_getD, List.getElem?_eq_none (by simpa using below),
      BitVec.getLsbD_of_ge _ _ (by omega)]
    rfl

private theorem byteStep_bits (wide : 8 ≤ w) (c : BitVec w) (b : UInt8) :
    byteStep poly c b = crcBits poly c (bitsOf b) := by
  rw [crcBits_pack wide, pack_bitsOf]
  rfl

theorem crcBytes_bits (wide : 8 ≤ w) (c : BitVec w) (bs : List UInt8) :
    crcBytes poly c bs = crcBits poly c (bits bs) := by
  induction bs generalizing c with
  | nil => rfl
  | cons b bs ih =>
    rw [bits, List.flatMap_cons, crcBits_append, ← byteStep_bits wide]
    exact ih _

theorem step_eq {poly : BitVec 16} {table : UInt8 → UInt16}
    (entries : ∀ i, (table i).toBitVec = shifts poly 8 (i.toBitVec.setWidth 16)) (c : UInt16)
    (b : UInt8) : (step table c b).toBitVec = byteStep poly c.toBitVec b := by
  -- the low byte goes through the table, the high byte moves down
  have low : ((c.toUInt8 ^^^ b).toBitVec.setWidth 16 : BitVec 16) =
      (c.toBitVec.setWidth 8).setWidth 16 ^^^ b.toBitVec.setWidth 16 := by
    rw [UInt8.toBitVec_xor, BitVec.setWidth_xor]
    rfl
  have parts : c.toBitVec ^^^ b.toBitVec.setWidth 16 =
      (c.toUInt8 ^^^ b).toBitVec.setWidth 16 ^^^
        (c.toBitVec ^^^ (c.toBitVec.setWidth 8).setWidth 16) := by
    rw [low]
    have twice : ∀ x y z : BitVec 16, (y ^^^ z) ^^^ (x ^^^ y) = (x ^^^ z) ^^^ (y ^^^ y) :=
      fun x y z => by ac_rfl
    rw [twice, BitVec.xor_self, BitVec.xor_zero]
  have clear : ∀ i < 8, (c.toBitVec ^^^ (c.toBitVec.setWidth 8).setWidth 16).getLsbD i = false := by
    intro i below
    have inside : i < 16 := by omega
    simp [below, inside]
  have high : (c.toBitVec ^^^ (c.toBitVec.setWidth 8).setWidth 16) >>> 8 = c.toBitVec >>> 8 := by
    rw [BitVec.ushiftRight_xor_distrib]
    have gone : ((c.toBitVec.setWidth 8).setWidth 16 : BitVec 16) >>> 8 = 0#16 := by
      apply BitVec.eq_of_getLsbD_eq
      intro i _
      simp
    rw [gone, BitVec.xor_zero]
  rw [byteStep, parts, shifts_xor, ← entries, shifts_high clear, high, step, UInt16.toBitVec_xor,
    BitVec.xor_comm]
  rfl

theorem crc_eq {poly : BitVec 16} {table : UInt8 → UInt16}
    (entries : ∀ i, (table i).toBitVec = shifts poly 8 (i.toBitVec.setWidth 16)) (c : UInt16)
    (bs : List UInt8) : (crc table c bs).toBitVec = crcBytes poly c.toBitVec bs := by
  induction bs generalizing c with
  | nil => rfl
  | cons b bs ih =>
    rw [crcBytes, List.foldl_cons, ← step_eq entries]
    exact ih _

/-- Two strings of one length that differ, and only within `n` bits in a row. -/
structure Burst (n : Nat) (as bs : List Bool) : Prop where
  differ : as ≠ bs
  length : as.length = bs.length
  within : ∃ start, ∀ i, as[i]? ≠ bs[i]? → start ≤ i ∧ i < start + n

theorem burst_bytes (front old new back : List UInt8) (differ : bits old ≠ bits new)
    (length : old.length = new.length) :
    Burst (8 * old.length) (bits (front ++ (old ++ back))) (bits (front ++ (new ++ back))) := by
  have split_ : ∀ s : List UInt8, bits (front ++ (s ++ back)) = bits front ++ (bits s ++ bits back) :=
    fun s => by rw [bits, List.flatMap_append, List.flatMap_append]; rfl
  have same : (bits old).length = (bits new).length := by rw [length_bits, length_bits, length]
  have start : (bits front).length = 8 * front.length := length_bits front
  have size : (bits old).length = 8 * old.length := length_bits old
  rw [split_, split_]
  refine ⟨fun equal => differ ?_, by simp only [List.length_append, same], 8 * front.length, ?_⟩
  · exact (List.append_inj (List.append_cancel_left equal) same).1
  · intro i differs
    by_contra outside
    apply differs
    by_cases before : i < (bits front).length
    · rw [List.getElem?_append_left before, List.getElem?_append_left before]
    · have behind : ∀ s : List UInt8, (bits s).length = (bits old).length →
          (bits front ++ (bits s ++ bits back))[i]? =
            (bits back)[i - (bits front).length - (bits old).length]? := by
        intro s length
        rw [List.getElem?_append_right (by omega), List.getElem?_append_right (by omega), length]
      rw [behind old rfl, behind new same.symm]

theorem crcBits_burst (high : poly.getLsbD (w - 1) = true) {n : Nat} (short : n ≤ w)
    {as bs : List Bool} (burst : Burst n as bs) (c : BitVec w) :
    crcBits poly c as ≠ crcBits poly c bs := by
  intro same
  obtain ⟨start, within⟩ := burst.within
  have outside : ∀ i, i < start ∨ start + n ≤ i → as[i]? = bs[i]? := by
    intro i out
    by_contra differs
    have := within i differs
    omega
  have front : as.take start = bs.take start := by
    apply List.ext_getElem?
    intro i
    by_cases before : i < start
    · rw [List.getElem?_take_of_lt before, List.getElem?_take_of_lt before, outside i (.inl before)]
    · rw [List.getElem?_take_eq_none (by omega), List.getElem?_take_eq_none (by omega)]
  have back : (as.drop start).drop n = (bs.drop start).drop n := by
    apply List.ext_getElem?
    intro i
    rw [List.drop_drop, List.drop_drop, List.getElem?_drop, List.getElem?_drop]
    exact outside _ (.inr (by omega))
  have parts : ∀ l : List Bool, l = l.take start ++ ((l.drop start).take n ++ (l.drop start).drop n) :=
    fun l => by rw [List.take_append_drop, List.take_append_drop]
  have sizes : ((as.drop start).take n).length = ((bs.drop start).take n).length := by
    rw [List.length_take, List.length_take, List.length_drop, List.length_drop, burst.length]
  rw [parts as, parts bs, crcBits_append, crcBits_append, crcBits_append, crcBits_append, front,
    back] at same
  have middle := block_inj high sizes (Nat.le_trans (List.length_take_le _ _) short)
    (crcBits_inj high same)
  apply burst.differ
  rw [parts as, parts bs, front, middle, back]

end SV300.Library.BitCrc
