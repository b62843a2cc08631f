/- SV300/Energy/Fram
   digest: The two FRAM copies of the energy record, their writer, their loader and power cuts. -/

import SV300.Library.ByteStore
import SV300.Energy.Record

set_option autoImplicit false
set_option relaxedAutoImplicit false

namespace SV300.Energy.Fram

open SV300.Library.ByteStore
open SV300.Crc (gencrcModbus)
open SV300.Energy.Record

/-- The FRAM: its bytes when the present operation began and the byte writes sent to it since. -/
structure Device where
  base : Store
  sent : Writes

/-- What the device holds once every write has reached it. -/
def Device.cells (f : Device) : Store := apply f.sent f.base

def Device.write (f : Device) (ws : Writes) : Device := { f with sent := f.sent ++ ws }

/-- The device after the operation, or after a power loss that let only `k` bytes through. -/
def Device.supply (f : Device) : Option Nat → Device
  | none => ⟨f.cells, []⟩
  | some k => ⟨apply (f.sent.take k) f.base, []⟩

@[simp] theorem Device.cells_write (f : Device) (ws : Writes) :
    (f.write ws).cells = apply ws f.cells :=
  apply_append f.sent ws f.base

theorem Device.write_supply (f : Device) (ws : Writes) :
    (f.supply none).write ws = ⟨f.cells, ws⟩ := rfl

@[simp] theorem Device.cells_supply_none (f : Device) : (f.supply none).cells = f.cells := rfl

@[simp] theorem Device.cells_mk (s : Store) (ws : Writes) : (Device.mk s ws).cells = apply ws s :=
  rfl

theorem Device.cells_supply_some (s : Store) (ws : Writes) (k : Nat) :
    ((Device.mk s ws).supply (some k)).cells = apply (ws.take k) s := rfl

/-- The transfers of one `FramWrite`: at most 256 bytes each. -/
def framPieces (off : Nat) (bs : List UInt8) : List (Nat × List UInt8) :=
  if bs = [] then [] else (off, bs.take 256) :: framPieces (off + 256) (bs.drop 256)
termination_by bs.length
decreasing_by
  rename_i nonempty
  have := List.length_pos_iff.mpr nonempty
  simp only [List.length_drop]
  omega

/-- The byte writes of `FramWrite`. -/
def framWrite (off : Nat) (bs : List UInt8) : Writes :=
  (framPieces off bs).flatMap fun p => block p.1 p.2

private theorem framWrite_eq_block (off : Nat) (bs : List UInt8) :
    framWrite off bs = block off bs := by
  fun_induction framPieces off bs with
  | case1 => simp [framWrite, framPieces, block]
  | case2 off bs nonempty ih =>
      rw [framWrite, framPieces, if_neg nonempty, List.flatMap_cons]
      rw [framWrite] at ih
      rw [ih]
      rcases Nat.lt_or_ge bs.length 256 with short | long
      · rw [List.take_of_length_le (by omega), List.drop_eq_nil_of_le (by omega)]
        simp [block]
      · have front : (bs.take 256).length = 256 := by simp; omega
        calc block off (bs.take 256) ++ block (off + 256) (bs.drop 256)
            = block off (bs.take 256) ++ block (off + (bs.take 256).length) (bs.drop 256) := by
              rw [front]
          _ = block off (bs.take 256 ++ bs.drop 256) := (block_append off _ _).symm
          _ = block off bs := by rw [List.take_append_drop]

abbrev egyNvrOs1 : Nat := 0
abbrev egyNvrOs2 : Nat := 4096
/-- Where earlier firmware kept its second copy; it lies inside the present first copy's end. -/
abbrev egyNvrOsLegacy : Nat := 512

/-- The byte writes of `storeEnergyNVR`: copy 1, then copy 2. -/
def storeEnergyNVR (r : EnergyNvram) : Writes :=
  framWrite egyNvrOs1 (image r) ++ framWrite egyNvrOs2 (image r)

def firstCopy (s : Store) : List UInt8 := read s egyNvrOs1 recordSize

def secondCopy (s : Store) : List UInt8 := read s egyNvrOs2 recordSize

def legacyCopy (s : Store) : List UInt8 := read s egyNvrOsLegacy recordSize

@[simp] theorem length_firstCopy (s : Store) : (firstCopy s).length = recordSize :=
  length_read s _ _

@[simp] theorem length_secondCopy (s : Store) : (secondCopy s).length = recordSize :=
  length_read s _ _

@[simp] theorem length_storeEnergyNVR (r : EnergyNvram) :
    (storeEnergyNVR r).length = 2 * recordSize := by
  simp only [storeEnergyNVR, framWrite_eq_block, List.length_append, length_block,
    length_image, Nat.two_mul]

private theorem take_storeEnergyNVR (r : EnergyNvram) (k : Nat) :
    (storeEnergyNVR r).take k = block egyNvrOs1 ((image r).take k) ++
      block egyNvrOs2 ((image r).take (k - recordSize)) := by
  simp only [storeEnergyNVR, framWrite_eq_block]
  rw [List.take_append, take_block, take_block, length_block, length_image]

private theorem take_length_le (r : EnergyNvram) (k : Nat) :
    ((image r).take k).length ≤ recordSize := by
  rw [List.length_take, length_image]
  exact Nat.min_le_right _ _

private theorem drop_length_take (r : EnergyNvram) (k : Nat) {old : List UInt8}
    (full : old.length = recordSize) :
    old.drop ((image r).take k).length = old.drop k := by
  rw [List.length_take, length_image]
  rcases Nat.le_total k recordSize with short | long
  · rw [Nat.min_eq_left short]
  · rw [Nat.min_eq_right long, List.drop_eq_nil_of_le (by omega), List.drop_eq_nil_of_le (by omega)]

theorem firstCopy_cut (r : EnergyNvram) (k : Nat) (s : Store) :
    firstCopy (apply ((storeEnergyNVR r).take k) s) =
      (image r).take k ++ (firstCopy s).drop k := by
  have small := take_length_le r k
  have apart : egyNvrOs1 + recordSize ≤ egyNvrOs2 := by decide
  rw [take_storeEnergyNVR, apply_append, firstCopy,
    read_apply_disjoint _ _ _ _ _ (.inl apart), read_apply_prefix _ _ _ _ small,
    drop_length_take r k (length_read s _ _)]
  rfl

theorem secondCopy_cut (r : EnergyNvram) (k : Nat) (s : Store) :
    secondCopy (apply ((storeEnergyNVR r).take k) s) =
      (image r).take (k - recordSize) ++ (secondCopy s).drop (k - recordSize) := by
  have before := take_length_le r k
  have small := take_length_le r (k - recordSize)
  have apart : egyNvrOs1 + recordSize ≤ egyNvrOs2 := by decide
  rw [take_storeEnergyNVR, apply_append, secondCopy, read_apply_prefix _ _ _ _ small,
    read_apply_disjoint _ _ _ _ _ (.inr (by omega)),
    drop_length_take r (k - recordSize) (length_read s _ _)]
  rfl

theorem firstCopy_cut_beyond (r : EnergyNvram) {k : Nat} (s : Store) (beyond : recordSize ≤ k) :
    firstCopy (apply ((storeEnergyNVR r).take k) s) = image r := by
  rw [firstCopy_cut, List.take_of_length_le (by rwa [length_image]),
    List.drop_eq_nil_of_le (by rwa [length_firstCopy]), List.append_nil]

theorem secondCopy_cut_inside (r : EnergyNvram) {k : Nat} (s : Store) (inside : k ≤ recordSize) :
    secondCopy (apply ((storeEnergyNVR r).take k) s) = secondCopy s := by
  rw [secondCopy_cut, Nat.sub_eq_zero_of_le inside, List.take_zero, List.drop_zero,
    List.nil_append]

theorem all_written (r : EnergyNvram) :
    (storeEnergyNVR r).take (2 * recordSize) = storeEnergyNVR r :=
  List.take_of_length_le (length_storeEnergyNVR r).le

theorem firstCopy_store (r : EnergyNvram) (s : Store) :
    firstCopy (apply (storeEnergyNVR r) s) = image r := by
  have cut := firstCopy_cut_beyond r (k := 2 * recordSize) s (by decide)
  rwa [all_written] at cut

theorem secondCopy_store (r : EnergyNvram) (s : Store) :
    secondCopy (apply (storeEnergyNVR r) s) = image r := by
  have cut := secondCopy_cut r (2 * recordSize) s
  rwa [all_written, List.take_of_length_le (by rw [length_image]; decide),
    List.drop_eq_nil_of_le (by rw [length_secondCopy]; decide), List.append_nil] at cut

def pieceBytes (r : EnergyNvram) (i : Fin 5) : List UInt8 := ((image r).drop (256 * i)).take 256

def writePiece (off : Nat) (r : EnergyNvram) (i : Fin 5) : Writes :=
  block (off + 256 * i) (pieceBytes r i)

private theorem framPieces_drop (off : Nat) (r : EnergyNvram) {n : Nat} (more : n < 5) :
    framPieces (off + 256 * n) ((image r).drop (256 * n)) =
      (off + 256 * n, pieceBytes r ⟨n, more⟩) ::
        framPieces (off + 256 * (n + 1)) ((image r).drop (256 * (n + 1))) := by
  have nonempty : (image r).drop (256 * n) ≠ [] := by
    intro empty
    have length := congrArg List.length empty
    rw [List.length_drop, length_image, List.length_nil] at length
    have size : recordSize = 1168 := rfl
    omega
  rw [framPieces, if_neg nonempty, List.drop_drop, pieceBytes, Nat.mul_succ, Nat.add_assoc]

private theorem framPieces_image (off : Nat) (r : EnergyNvram) :
    framPieces off (image r) =
      (List.finRange 5).map fun i => (off + 256 * i.val, pieceBytes r i) := by
  have last : framPieces (off + 256 * 5) ((image r).drop (256 * 5)) = [] := by
    rw [framPieces, if_pos (List.drop_eq_nil_of_le (by rw [length_image]; decide))]
  have first : framPieces off (image r) = framPieces (off + 256 * 0) ((image r).drop (256 * 0)) :=
    rfl
  rw [first, framPieces_drop off r (by decide : 0 < 5), framPieces_drop off r (by decide : 1 < 5),
    framPieces_drop off r (by decide : 2 < 5), framPieces_drop off r (by decide : 3 < 5),
    framPieces_drop off r (by decide : 4 < 5), last]
  rfl

theorem framWrite_pieces (off : Nat) (r : EnergyNvram) :
    framWrite off (image r) = (List.finRange 5).flatMap (writePiece off r) := by
  rw [framWrite, framPieces_image, List.flatMap_map]
  rfl

private theorem length_pieceBytes (r : EnergyNvram) (i : Fin 5) :
    (pieceBytes r i).length = min 256 (recordSize - 256 * i) := by
  rw [pieceBytes, List.length_take, List.length_drop, length_image]

theorem firstCopy_piece {r : EnergyNvram} {s : Store} (i : Fin 5)
    (done : (firstCopy s).take (256 * i) = (image r).take (256 * i)) :
    (firstCopy (apply (writePiece egyNvrOs1 r i) s)).take (256 * (i + 1)) =
      (image r).take (256 * (i + 1)) := by
  have length := length_pieceBytes r i
  have size : recordSize = 1168 := rfl
  have fits : 256 * i.val + (pieceBytes r i).length ≤ recordSize := by omega
  have grown : (image r).take (256 * (i + 1)) = (image r).take (256 * i) ++ pieceBytes r i := by
    rw [pieceBytes, Nat.mul_succ, List.take_add]
  rw [firstCopy, writePiece, read_apply_within _ _ _ _ _ fits]
  change ((firstCopy s).take (256 * i) ++ pieceBytes r i ++ _).take _ = _
  rw [done, ← grown]
  rcases Nat.lt_or_ge recordSize (256 * (i + 1)) with whole | part
  · have tail : recordSize ≤ 256 * i.val + (pieceBytes r i).length := by omega
    rw [List.drop_eq_nil_of_le (by rw [length_read]; exact tail), List.append_nil, List.take_take,
      Nat.min_self]
  · exact List.take_left' (by rw [List.length_take, length_image, Nat.min_eq_left part])

theorem firstCopy_whole {r : EnergyNvram} {s : Store}
    (done : (firstCopy s).take (256 * 5) = (image r).take (256 * 5)) : firstCopy s = image r := by
  rwa [List.take_of_length_le (by rw [length_firstCopy]; decide),
    List.take_of_length_le (by rw [length_image]; decide)] at done

theorem firstCopy_piece2 (r : EnergyNvram) (s : Store) (i : Fin 5) :
    firstCopy (apply (writePiece egyNvrOs2 r i) s) = firstCopy s :=
  read_apply_disjoint _ _ _ _ _ (.inl (by
    have apart : egyNvrOs1 + recordSize ≤ egyNvrOs2 := by decide
    omega))

theorem read_between_cut (r : EnergyNvram) (k : Nat) (s : Store) (off n : Nat)
    (lo : recordSize ≤ off) (hi : off + n ≤ egyNvrOs2) :
    read (apply ((storeEnergyNVR r).take k) s) off n = read s off n := by
  have before := take_length_le r k
  rw [take_storeEnergyNVR, apply_append, read_apply_disjoint _ _ _ _ _ (.inl hi),
    read_apply_disjoint _ _ _ _ _ (.inr ((Nat.zero_add _).le.trans (before.trans lo)))]

theorem legacyCopy_eq (s : Store) :
    legacyCopy s = (firstCopy s).drop egyNvrOsLegacy ++ read s recordSize egyNvrOsLegacy := by
  have inside : (firstCopy s).drop 512 = read s 512 656 := by
    rw [firstCopy, show recordSize = 512 + 656 from rfl, read_append,
      List.drop_left' (length_read s _ _)]
  rw [legacyCopy, show recordSize = 656 + 512 from rfl, read_append, inside]

def maxEreg64 : UInt64 := 99999999999

def accept (bs : List UInt8) : Option EnergyNvram :=
  if gencrcModbus bs = 0 then some (ofImage bs) else none

/-- The loader's tests on a record that passed the CRC: the magic and every 64-bit counter. -/
def Loadable (r : EnergyNvram) : Prop :=
  r.magic = energyNvramMagic ∧ ∀ id, ∀ c ∈ Cell.all, r.ereg64 id c ≤ maxEreg64

instance (r : EnergyNvram) : Decidable (Loadable r) :=
  inferInstanceAs (Decidable (_ ∧ _))

theorem loadable_stamp {now : UInt32} {r : EnergyNvram} (ok : Loadable r) :
    Loadable (stamp now r) :=
  ok

/-- `loadEnergyNVR`: copy 1, else copy 2, else the legacy place; a record that fails the later
tests is refused without trying another copy. -/
def loadEnergyNVR (s : Store) : Option EnergyNvram :=
  (((accept (firstCopy s)).or (accept (secondCopy s))).or (accept (legacyCopy s))).bind
    fun r => if Loadable r then some r else none

theorem accept_image {r : EnergyNvram} (ok : CrcOk r) : accept (image r) = some r := by
  have zero : gencrcModbus (image r) = 0 := ok
  rw [accept, if_pos zero, ofImage_image]

/-- The loader returns what the first intact copy holds, when that record is loadable. -/
theorem loadEnergyNVR_eq {s : Store} {r : EnergyNvram}
    (intact : (accept (firstCopy s)).or (accept (secondCopy s)) = some r) (ok : Loadable r) :
    loadEnergyNVR s = some r := by
  rw [loadEnergyNVR, intact, Option.some_or, Option.bind_some, if_pos ok]

theorem loadEnergyNVR_eq_none {s : Store} (first : gencrcModbus (firstCopy s) ≠ 0)
    (second : gencrcModbus (secondCopy s) ≠ 0) (legacy : gencrcModbus (legacyCopy s) ≠ 0) :
    loadEnergyNVR s = none := by
  rw [loadEnergyNVR, accept, accept, accept, if_neg first, if_neg second, if_neg legacy]
  rfl

/-- An intact first copy that is not loadable is refused, whatever the second copy holds. -/
theorem loadEnergyNVR_refused {s : Store} {r : EnergyNvram} (copy : firstCopy s = image r)
    (crc : CrcOk r) (bad : ¬ Loadable r) : loadEnergyNVR s = none := by
  rw [loadEnergyNVR, copy, accept_image crc, Option.some_or, Option.some_or, Option.bind_some,
    if_neg bad]

theorem loadEnergyNVR_first {s : Store} {r : EnergyNvram} (copy : firstCopy s = image r)
    (crc : CrcOk r) (ok : Loadable r) : loadEnergyNVR s = some r :=
  loadEnergyNVR_eq (by rw [copy, accept_image crc, Option.some_or]) ok

theorem loadable_of_loadEnergyNVR {s : Store} {r : EnergyNvram} (h : loadEnergyNVR s = some r) :
    Loadable r := by
  obtain ⟨found, -, checked⟩ := Option.bind_eq_some_iff.mp h
  split at checked
  · rename_i ok
    exact Option.some.inj checked ▸ ok
  · cases checked

end SV300.Energy.Fram
