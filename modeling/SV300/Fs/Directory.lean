/- SV300/Fs/Directory
   digest: Files found by mask in the flat file system, and the search for the oldest of them. -/

import SV300.Library.Rotation

set_option autoImplicit false
set_option relaxedAutoImplicit false

namespace SV300.Fs.Directory

open SV300.Library.Rotation

/-- A file of the flat file system: the directory of its path is the head of its name. -/
structure File (C : Type) where
  name : List Char
  body : C
  deriving DecidableEq

/-- A search mask with one `*`, between `before` and `after`. -/
structure Mask where
  before : List Char
  after : List Char

def Mask.hits (m : Mask) (name : List Char) : Bool :=
  m.before.isPrefixOf name && m.after.isSuffixOf (name.drop m.before.length)

variable {C : Type}

def ffind (m : Mask) (files : List (File C)) : List (File C) := files.filter fun f => m.hits f.name

def fdelete (name : List Char) (files : List (File C)) : List (File C) :=
  files.filter fun f => decide (f.name ≠ name)

/-- The program flash is of 16 MiB; a file's length stays within it. -/
def flash : Nat := 16 * 1024 * 1024

section Search

variable (size : C → Nat) (key : List Char → Int) (limit : Int)

def total (files : List (File C)) : Nat := (files.map fun f => size f.body).sum

/-- The files of the flash: no two of one name, and they fit. -/
structure Dir where
  files : List (File C)
  distinct : (files.map File.name).Nodup
  fits : total size files ≤ flash

def Dir.remove (d : Dir size) (name : List Char) : Dir size where
  files := fdelete name d.files
  distinct := (List.filter_sublist.map File.name).nodup d.distinct
  fits := le_trans (List.Sublist.sum_le_sum (List.filter_sublist.map _) fun _ _ => Nat.zero_le _)
    d.fits

/-- The variables of a search for the oldest file; `totalSize` counts every file seen. -/
structure Search where
  found : Bool
  oldestKey : Int
  oldestName : List Char
  oldestSize : UInt32
  totalSize : UInt32

def Search.start (oldestKey : Int) : Search where
  found := false
  oldestKey := oldestKey
  oldestName := []
  oldestSize := 0
  totalSize := 0

/-- One found file.  Its size counts; where its key is below `limit` it is the oldest yet if its key
is less than the oldest's. -/
def Search.visit (s : Search) (f : File C) : Search :=
  let s := { s with totalSize := s.totalSize + UInt32.ofNat (size f.body) }
  if limit ≤ key f.name then s
  else if !s.found || decide (key f.name < s.oldestKey) then
    { s with
      oldestKey := key f.name
      oldestName := f.name
      oldestSize := UInt32.ofNat (size f.body)
      found := true }
  else s

def findOldest (oldestKey : Int) (files : List (File C)) : Search :=
  files.foldl (Search.visit size key limit) (Search.start oldestKey)

def rule : Rule (File C) (List Char) Int where
  name := File.name
  key f := key f.name
  old f := decide (key f.name < limit)

/-- A search's variables tell of the oldest file and of the sizes. -/
structure Search.Tells (s : Search) (files : List (File C)) : Prop where
  found : s.found = ((rule (C := C) key limit).oldest files).isSome
  oldest : ∀ f, (rule key limit).oldest files = some f →
    s.oldestKey = key f.name ∧ s.oldestName = f.name ∧ s.oldestSize = UInt32.ofNat (size f.body)
  total : s.totalSize = UInt32.ofNat (total size files)

private theorem oldest_concat (files : List (File C)) (f : File C) :
    (rule key limit).oldest (files ++ [f]) =
      if limit ≤ key f.name then (rule key limit).oldest files
      else match (rule key limit).oldest files with
        | none => some f
        | some c => if key f.name < key c.name then some f else some c := by
  unfold Rule.oldest
  rw [List.filter_append]
  by_cases young : limit ≤ key f.name
  · have out : [f].filter (rule key limit).old = [] := by simp [rule, young]
    rw [out, List.append_nil, if_pos young]
  · have kept : [f].filter (rule key limit).old = [f] := by simp [rule, not_le.mp young]
    rw [kept, List.argmin_concat, if_neg young]
    cases (files.filter (rule key limit).old).argmin (rule key limit).key <;> rfl

private theorem total_concat (files : List (File C)) (f : File C) :
    total size (files ++ [f]) = total size files + size f.body := by
  simp [total]

variable {size key limit} in
theorem Search.Tells.visit {s : Search} {files : List (File C)}
    (tells : s.Tells size key limit files) (f : File C) :
    (s.visit size key limit f).Tells size key limit (files ++ [f]) := by
  have sum : s.totalSize + UInt32.ofNat (size f.body) =
      UInt32.ofNat (Directory.total size (files ++ [f])) := by
    rw [tells.total, total_concat, UInt32.ofNat_add]
  have next := oldest_concat key limit files f
  unfold Search.visit
  by_cases young : limit ≤ key f.name
  · rw [if_pos young] at next ⊢
    exact ⟨next ▸ tells.found, next ▸ tells.oldest, sum⟩
  rw [if_neg young] at next ⊢
  cases seen : (rule key limit).oldest files with
  | none =>
    rw [seen] at next
    have first : s.found = false := by rw [tells.found, seen]; rfl
    simp only [first, Bool.not_false, Bool.true_or, if_true]
    refine ⟨by rw [next]; rfl, fun g hg => ?_, sum⟩
    obtain rfl : f = g := Option.some.inj (next.symm.trans hg)
    exact ⟨rfl, rfl, rfl⟩
  | some c =>
    obtain ⟨atKey, atName, atSize⟩ := tells.oldest c seen
    have later : s.found = true := by rw [tells.found, seen]; rfl
    simp only [seen] at next
    simp only [later, Bool.not_true, Bool.false_or, atKey, decide_eq_true_eq]
    by_cases less : key f.name < key c.name
    · rw [if_pos less] at next ⊢
      refine ⟨by rw [next]; rfl, fun g hg => ?_, sum⟩
      obtain rfl : f = g := Option.some.inj (next.symm.trans hg)
      exact ⟨rfl, rfl, rfl⟩
    · rw [if_neg less] at next ⊢
      refine ⟨by rw [next]; rfl, fun g hg => ?_, sum⟩
      obtain rfl : c = g := Option.some.inj (next.symm.trans hg)
      exact ⟨rfl, atName, atSize⟩

theorem findOldest_tells (oldestKey : Int) (files : List (File C)) :
    (findOldest size key limit oldestKey files).Tells size key limit files := by
  induction files using List.reverseRecOn with
  | nil => exact ⟨rfl, nofun, rfl⟩
  | append_singleton files f ih =>
    rw [findOldest, List.foldl_append]
    exact ih.visit f

variable {size} in
theorem total_le_of_sublist {part files : List (File C)} (sub : part.Sublist files) :
    total size part ≤ total size files :=
  List.Sublist.sum_le_sum (sub.map _) fun _ _ => Nat.zero_le _

end Search

end SV300.Fs.Directory
