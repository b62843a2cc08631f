/- SV300/Library/ByteCodec
   digest: Fixed-length byte codecs are bijections, closed under pairs, vectors and relabelling. -/

import Mathlib.Data.Fin.Tuple.Basic
import Mathlib.Logic.Equiv.Basic
import Mathlib.Tactic.Ring

set_option autoImplicit false
set_option relaxedAutoImplicit false

namespace SV300.Library.ByteCodec

/-- A type whose values are exactly the byte lists of one length. -/
structure Codec (α : Type) where
  size : Nat
  encode : α → List UInt8
  decode : List UInt8 → α
  length_encode : ∀ a, (encode a).length = size
  decode_encode : ∀ a, decode (encode a) = a
  encode_decode : ∀ l, l.length = size → encode (decode l) = l

attribute [simp] Codec.length_encode Codec.decode_encode

theorem Codec.encode_injective {α : Type} (c : Codec α) : Function.Injective c.encode := by
  intro a b same
  have back := congrArg c.decode same
  simpa using back

/-- The `w` bytes of a natural, least significant first. -/
def leBytes : Nat → Nat → List UInt8
  | 0, _ => []
  | w + 1, n => UInt8.ofNat n :: leBytes w (n / 256)

/-- The natural a little-endian byte list stands for. -/
def leNat : List UInt8 → Nat
  | [] => 0
  | b :: bs => b.toNat + 256 * leNat bs

@[simp] theorem length_leBytes (w n : Nat) : (leBytes w n).length = w := by
  induction w generalizing n with
  | zero => rfl
  | succ w ih => simp [leBytes, ih]

private theorem leNat_lt (l : List UInt8) : leNat l < 256 ^ l.length := by
  induction l with
  | nil => simp [leNat]
  | cons b bs ih =>
    have hb : b.toNat < 256 := b.toNat_lt
    simp only [leNat, List.length_cons, Nat.pow_succ]
    omega

private theorem leNat_leBytes {w n : Nat} (hn : n < 256 ^ w) : leNat (leBytes w n) = n := by
  induction w generalizing n with
  | zero => simp at hn; simp [leBytes, leNat, hn]
  | succ w ih =>
    have hq : n / 256 < 256 ^ w := by
      rw [Nat.pow_succ] at hn
      exact Nat.div_lt_of_lt_mul (by omega)
    simp only [leBytes, leNat, ih hq, UInt8.toNat_ofNat']
    omega

private theorem leBytes_leNat (l : List UInt8) : leBytes l.length (leNat l) = l := by
  induction l with
  | nil => rfl
  | cons b bs ih =>
    have hb : b.toNat < 256 := b.toNat_lt
    simp only [List.length_cons, leBytes, leNat, List.cons.injEq]
    refine ⟨?_, ?_⟩
    · apply UInt8.toNat_inj.mp
      simp only [UInt8.toNat_ofNat']
      omega
    · rw [show (b.toNat + 256 * leNat bs) / 256 = leNat bs by omega, ih]

/-- A machine word of `w` bytes, given by its value below `256 ^ w`. -/
def word {α : Type} (w : Nat) (toNat : α → Nat) (ofNat : Nat → α)
    (bounded : ∀ a, toNat a < 256 ^ w) (left : ∀ a, ofNat (toNat a) = a)
    (right : ∀ n, n < 256 ^ w → toNat (ofNat n) = n) : Codec α where
  size := w
  encode a := leBytes w (toNat a)
  decode l := ofNat (leNat l)
  length_encode a := length_leBytes w (toNat a)
  decode_encode a := by rw [leNat_leBytes (bounded a), left]
  encode_decode l hl := by
    subst hl
    rw [right _ (leNat_lt l), leBytes_leNat]

def u16 : Codec UInt16 :=
  word 2 UInt16.toNat UInt16.ofNat (fun a => a.toNat_lt) (fun a => UInt16.ofNat_toNat)
    (fun n hn => by simp only [UInt16.toNat_ofNat']; omega)

def u32 : Codec UInt32 :=
  word 4 UInt32.toNat UInt32.ofNat (fun a => a.toNat_lt) (fun a => UInt32.ofNat_toNat)
    (fun n hn => by simp only [UInt32.toNat_ofNat']; omega)

def u64 : Codec UInt64 :=
  word 8 UInt64.toNat UInt64.ofNat (fun a => a.toNat_lt) (fun a => UInt64.ofNat_toNat)
    (fun n hn => by simp only [UInt64.toNat_ofNat']; omega)

def zeros (n : Nat) : { bs : List UInt8 // bs.length = n } :=
  ⟨List.replicate n 0, List.length_replicate⟩

def raw (n : Nat) : Codec { bs : List UInt8 // bs.length = n } where
  size := n
  encode a := a.val
  decode l := if length : l.length = n then ⟨l, length⟩ else zeros n
  length_encode a := a.property
  decode_encode a := dif_pos a.property
  encode_decode l length := by rw [dif_pos length]

def unit {α : Type} [Unique α] : Codec α where
  size := 0
  encode _ := []
  decode _ := default
  length_encode _ := rfl
  decode_encode a := (Unique.eq_default a).symm
  encode_decode _ hl := (List.length_eq_zero_iff.mp hl).symm

def pair {α β : Type} (c : Codec α) (d : Codec β) : Codec (α × β) where
  size := c.size + d.size
  encode a := c.encode a.1 ++ d.encode a.2
  decode l := (c.decode (l.take c.size), d.decode (l.drop c.size))
  length_encode a := by simp
  decode_encode a := by
    have front : (c.encode a.1 ++ d.encode a.2).take c.size = c.encode a.1 :=
      List.take_left' (c.length_encode a.1)
    have back : (c.encode a.1 ++ d.encode a.2).drop c.size = d.encode a.2 :=
      List.drop_left' (c.length_encode a.1)
    simp only [front, back, Codec.decode_encode]
  encode_decode l hl := by
    have front := c.encode_decode (l.take c.size) (by simp; omega)
    have back := d.encode_decode (l.drop c.size) (by simp; omega)
    simp only [front, back, List.take_append_drop]

def relabel {α β : Type} (c : Codec α) (e : β ≃ α) : Codec β where
  size := c.size
  encode b := c.encode (e b)
  decode l := e.symm (c.decode l)
  length_encode b := c.length_encode (e b)
  decode_encode b := by simp
  encode_decode l hl := by rw [Equiv.apply_symm_apply, c.encode_decode l hl]

/-- A nonempty family splits into its head and its tail. -/
def consEquiv (α : Type) (n : Nat) : (Fin (n + 1) → α) ≃ α × (Fin n → α) where
  toFun f := (f 0, Fin.tail f)
  invFun p := Fin.cons p.1 p.2
  left_inv f := Fin.cons_self_tail f
  right_inv p := by simp

/-- An array of `n` values, laid out in index order. -/
def array {α : Type} (c : Codec α) : (n : Nat) → Codec (Fin n → α)
  | 0 => unit
  | n + 1 => relabel (pair c (array c n)) (consEquiv α n)

theorem size_array {α : Type} (c : Codec α) (n : Nat) : (array c n).size = n * c.size := by
  induction n with
  | zero => simp [array, unit]
  | succ n ih =>
    simp only [array, relabel, pair, ih]
    ring

end SV300.Library.ByteCodec
