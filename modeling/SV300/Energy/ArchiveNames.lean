/- SV300/Energy/ArchiveNames
   digest: The names of energy files, the month read from an archive's, and the rotation by it. -/

import SV300.Clock
import SV300.Fs.CaptureRotation
import SV300.Library.Decimal
import SV300.Library.Runs

set_option autoImplicit false
set_option relaxedAutoImplicit false

namespace SV300.Energy.ArchiveNames

open SV300.Clock
open SV300.Fs.CaptureRotation (Layout)
open SV300.Fs.Directory (File fdelete)
open SV300.Library.Decimal
open SV300.Library.Runs

def sysDir : Layout → List Char
  | .flat => "sys".toList
  | .fat => "\\system".toList

def logEgyDir : Layout → List Char
  | .flat => "egy".toList
  | .fat => "\\log_egy".toList

def tempFile : Layout → List Char
  | .flat => "_temp.$$$".toList
  | .fat => "\\temp.$$$".toList

def egyArchFile (l : Layout) : List Char := logEgyDir l ++ l.dirsep ++ "egy".toList

/-- `%s%04d%02d_m%d.d`, for the day that began at `ts`. -/
def egyArchName (l : Layout) (ts : UInt32) (id : Nat) : List Char :=
  egyArchFile l ++ pad 4 (uLocalTime ts).tmYear ++ pad 2 (uLocalTime ts).tmMon ++ "_m".toList ++
    dec id ++ ".d".toList

def energyFile (l : Layout) : List Char := sysDir l ++ l.dirsep ++ "energy.d".toList

def energyLogFile0 (l : Layout) : List Char := sysDir l ++ l.dirsep ++ "egy_log0.d".toList

def energyLogFile1 (l : Layout) : List Char := sysDir l ++ l.dirsep ++ "egy_log1.d".toList

/-- The first meter's names have no channel: `%s_egy_log%d_m%d.d` are the others'. -/
def getEnergyLogFileName (l : Layout) (id sel : Nat) : List Char :=
  if id = 0 then if sel = 0 then energyLogFile0 l else energyLogFile1 l
  else sysDir l ++ l.dirsep ++ "egy_log".toList ++ dec sel ++ "_m".toList ++ dec id ++ ".d".toList

/-- `%s_egy15_%d_m%d.d`. -/
def getEnergyLog15FileName (l : Layout) (id sel : Nat) : List Char :=
  sysDir l ++ l.dirsep ++ "egy15_".toList ++ dec sel ++ "_m".toList ++ dec id ++ ".d".toList

/-- The files of energies that are no archives. -/
inductive EnergyFile
  | registers
  | hourly (id sel : Nat)
  | quarters (id sel : Nat)
  | temp

def EnergyFile.path (l : Layout) : EnergyFile → List Char
  | .registers => energyFile l
  | .hourly id sel => getEnergyLogFileName l id sel
  | .quarters id sel => getEnergyLog15FileName l id sel
  | .temp => logEgyDir l ++ tempFile l

def EnergyFile.dir (l : Layout) : EnergyFile → List Char
  | .temp => logEgyDir l
  | _ => sysDir l

/-- The six digits behind `egy`, where `_` ends them. -/
def archToken (name : List Char) : Option Nat :=
  let p := name.drop 3
  if "egy".toList.isPrefixOf name && (p.take 6).all isDigit && decide (p[6]? = some '_') then
    some (value (p.take 6))
  else none

def egyArchNameKey : List Char → Nat
  | [] => 0
  | c :: p =>
    match archToken (c :: p) with
    | some key => key
    | none => egyArchNameKey p

/-- What a search comes upon, by the names that `info.name` gives.  The mask is `egy*.d` in the
folder of archives; which paths a file system takes for it is left open. -/
def ffind (l : Layout) (takes : List Char → Bool) (files : List (File Nat)) : List (File Nat) :=
  match l with
  | .flat => files.filter fun f => takes f.name
  | .fat =>
    let folder := logEgyDir .fat ++ Layout.fat.dirsep
    (files.filter fun f => takes f.name && folder.isPrefixOf f.name).map fun f =>
      ⟨f.name.drop folder.length, f.body⟩

def fsPathFromFind (l : Layout) (dir name : List Char) : List Char :=
  match l with
  | .flat => name
  | .fat => dir ++ l.dirsep ++ name

structure Search where
  found : Bool
  oldestKey : Nat
  oldestName : List Char
  totalSize : UInt32

def Search.visit (s : Search) (info : File Nat) : Search :=
  let key := egyArchNameKey info.name
  if key = 0 then s
  else
    let s := { s with totalSize := s.totalSize + UInt32.ofNat info.body }
    if !s.found || decide (key < s.oldestKey) then
      { s with oldestKey := key, oldestName := info.name, found := true }
    else s

def findOldestEgyArch (found : List (File Nat)) : Search :=
  found.foldl Search.visit ⟨false, 0xFFFFFFFF, [], 0⟩

def flashLogBudgetEgy : UInt32 := 1024 * 1024

/-- What the file system does: which paths a search takes, which can be deleted, and whether a path
can be opened among the files there are. -/
structure FileSystem where
  takes : List Char → Bool
  deletes : List Char → Bool
  opens : List Char → List (File Nat) → Bool

/-- The loop, in `fuel` rounds at most. -/
def budgetLoop (l : Layout) (fs : FileSystem) : Nat → List (File Nat) → Option (List (File Nat))
  | 0, _ => none
  | fuel + 1, files =>
    let s := findOldestEgyArch (ffind l fs.takes files)
    let path := fsPathFromFind l (logEgyDir l) s.oldestName
    if !s.found then some files
    else if s.totalSize ≤ flashLogBudgetEgy then some files
    else if fs.deletes path then budgetLoop l fs fuel (fdelete path files)
    else some files

def trimEgyArchBudget (l : Layout) (fs : FileSystem) (files : List (File Nat)) : List (File Nat) :=
  (budgetLoop l fs (files.length + 1) files).getD files

def trimEgyArchAge (l : Layout) (fs : FileSystem) (cutoffKey : UInt32) (files : List (File Nat)) :
    List (File Nat) :=
  let s := findOldestEgyArch (ffind l fs.takes files)
  let path := fsPathFromFind l (logEgyDir l) s.oldestName
  if cutoffKey = 0 then files
  else if !s.found then files
  else if cutoffKey.toNat ≤ egyArchNameKey s.oldestName then files
  else if fs.deletes path then fdelete path files
  else files

/-- `fopen` in mode `ab`, `fwrite` and `fclose`. -/
def append (path : List Char) (bytes : Nat) (files : List (File Nat)) : List (File Nat) :=
  if path ∈ files.map File.name then
    files.map fun f => if f.name = path then ⟨path, f.body + bytes⟩ else f
  else files ++ [⟨path, bytes⟩]

/-- `sizeof(ENERGY_LOG15)`. -/
def energyLog15Size : Nat := 1552

/-- A day that is done, and what its archiving meets. -/
structure Day where
  ts : UInt32
  id : Nat
  cutoffKey : UInt32
  fs : FileSystem

/-- A day is appended to its month's file; a failed `fopen` is tried again with archives trimmed. -/
def archiveEnergyLog15Day (l : Layout) (files : List (File Nat)) (day : Day) : List (File Nat) :=
  if day.ts = 0 then files
  else
    let temp := logEgyDir l ++ tempFile l
    let path := egyArchName l day.ts day.id
    let files := if day.fs.opens temp files then append temp 0 files else files
    let files := if day.fs.opens path files then files else trimEgyArchBudget l day.fs files
    let files := if day.fs.opens path files then append path energyLog15Size files else files
    trimEgyArchAge l day.fs day.cutoffKey (trimEgyArchBudget l day.fs files)

private theorem egyArchNameKey_plain {name : List Char} (plain : 'e' ∉ name) :
    egyArchNameKey name = 0 := by
  induction name with
  | nil => rfl
  | cons c p ih =>
    rw [List.mem_cons, not_or] at plain
    have none : archToken (c :: p) = none := by
      have other : "egy".toList.isPrefixOf (c :: p) = false := by
        change (('e' == c) && "gy".toList.isPrefixOf p) = false
        rw [beq_eq_false_iff_ne.mpr plain.1, Bool.false_and]
      rw [archToken, other]
      rfl
    rw [egyArchNameKey, none]
    exact ih plain.2

private theorem egyArchNameKey_tail (sel id : Nat) :
    egyArchNameKey (dec sel ++ "_m".toList ++ dec id ++ ".d".toList) = 0 := by
  refine egyArchNameKey_plain ?_
  have numeral (n : Nat) : 'e' ∉ dec n := fun inside => absurd (dec_isDigit n _ inside) (by decide)
  simp [numeral]

private theorem egyArchNameKey_token {ds : List Char} (digits : ∀ c ∈ ds, isDigit c = true)
    (six : ds.length = 6) (tail : List Char) :
    egyArchNameKey ("egy".toList ++ (ds ++ '_' :: tail)) = value ds := by
  have token : archToken ("egy".toList ++ (ds ++ '_' :: tail)) = some (value ds) := by
    have behind : ("egy".toList ++ (ds ++ '_' :: tail)).drop 3 = ds ++ '_' :: tail := rfl
    have key : (ds ++ '_' :: tail).take 6 = ds := by rw [← six, List.take_left]
    have mark : (ds ++ '_' :: tail)[6]? = some '_' := by
      rw [List.getElem?_append_right six.le, six]
      rfl
    have head : "egy".toList.isPrefixOf ("egy".toList ++ (ds ++ '_' :: tail)) = true := rfl
    have whole : ds.all isDigit = true := List.all_eq_true.mpr digits
    rw [archToken, behind, key, mark, head, whole]
    rfl
  change (match archToken ("egy".toList ++ (ds ++ '_' :: tail)) with
    | some key => key
    | none => egyArchNameKey ("gy".toList ++ (ds ++ '_' :: tail))) = value ds
  rw [token]

theorem egyArchNameKey_name (l : Layout) (ts : UInt32) (id : Nat) :
    egyArchNameKey (egyArchName l ts id) =
        (uLocalTime ts).tmYear * 100 + (uLocalTime ts).tmMon ∧
      egyArchNameKey ((egyArchName l ts id).drop (logEgyDir l ++ l.dirsep).length) =
        (uLocalTime ts).tmYear * 100 + (uLocalTime ts).tmMon := by
  obtain ⟨year, mon, -⟩ : (uLocalTime ts).tmYear < 10 ^ 4 ∧ (uLocalTime ts).tmMon < 10 ^ 2 ∧ _ :=
    uLocalTime_bounds ts
  have digits : ∀ c ∈ pad 4 (uLocalTime ts).tmYear ++ pad 2 (uLocalTime ts).tmMon,
      isDigit c = true := by
    intro c inside
    rcases List.mem_append.mp inside with high | low
    · exact pad_isDigit _ _ c high
    · exact pad_isDigit _ _ c low
  have key := egyArchNameKey_token digits (by rw [List.length_append, pad_length, pad_length])
    ('m' :: (dec id ++ ".d".toList))
  rw [value_append, value_pad year, value_pad mon, pad_length] at key
  have name : egyArchName l ts id = logEgyDir l ++ l.dirsep ++ ("egy".toList ++
      (pad 4 (uLocalTime ts).tmYear ++ pad 2 (uLocalTime ts).tmMon ++
        '_' :: 'm' :: (dec id ++ ".d".toList))) := by
    simp [egyArchName, egyArchFile]
  rw [name, List.drop_left, key]
  refine ⟨?_, rfl⟩
  cases l <;> exact key

theorem egyArchNameKey_other (l : Layout) (f : EnergyFile) :
    egyArchNameKey (f.path l) = 0 ∧
      egyArchNameKey ((f.path l).drop (f.dir l ++ l.dirsep).length) = 0 := by
  cases f with
  | registers => cases l <;> decide
  | temp => cases l <;> decide
  | hourly id sel =>
    have tail := egyArchNameKey_tail sel id
    rw [EnergyFile.path, getEnergyLogFileName]
    split_ifs
    · cases l <;> exact ⟨rfl, rfl⟩
    · cases l <;> exact ⟨rfl, rfl⟩
    · simp only [List.append_assoc] at tail ⊢
      cases l <;> exact ⟨tail, tail⟩
  | quarters id sel =>
    have tail := egyArchNameKey_tail sel id
    rw [EnergyFile.path, getEnergyLog15FileName]
    simp only [List.append_assoc] at tail ⊢
    cases l <;> exact ⟨tail, tail⟩

private theorem findOldestEgyArch_found {files : List (File Nat)}
    (found : (findOldestEgyArch files).found = true) :
    egyArchNameKey (findOldestEgyArch files).oldestName ≠ 0 ∧
      (findOldestEgyArch files).oldestName ∈ files.map File.name := by
  induction files using List.reverseRecOn with
  | nil => cases found
  | append_singleton files info ih =>
    have step : findOldestEgyArch (files ++ [info]) = (findOldestEgyArch files).visit info := by
      rw [findOldestEgyArch, List.foldl_append]
      rfl
    rw [List.map_append, List.map_singleton, List.mem_append, List.mem_singleton]
    rw [step] at found ⊢
    unfold Search.visit at found ⊢
    dsimp only at found ⊢
    split_ifs at found ⊢ with zero first
    · exact ⟨(ih found).1, .inl (ih found).2⟩
    · exact ⟨zero, .inr rfl⟩
    · exact ⟨(ih found).1, .inl (ih found).2⟩

private theorem ffind_path {l : Layout} {takes : List Char → Bool} {files : List (File Nat)}
    {name : List Char} (inside : name ∈ (ffind l takes files).map File.name) :
    fsPathFromFind l (logEgyDir l) name ∈ files.map File.name ∧
      egyArchNameKey (fsPathFromFind l (logEgyDir l) name) = egyArchNameKey name := by
  obtain ⟨info, found, rfl⟩ := List.mem_map.mp inside
  cases l with
  | flat => exact ⟨List.mem_map_of_mem (List.mem_filter.mp found).1, rfl⟩
  | fat =>
    obtain ⟨f, taken, rfl⟩ := List.mem_map.mp found
    obtain ⟨there, hit⟩ := List.mem_filter.mp taken
    obtain ⟨rest, path⟩ := List.isPrefixOf_iff_prefix.mp (Bool.and_eq_true_iff.mp hit).2
    have back : fsPathFromFind .fat (logEgyDir .fat)
        (f.name.drop (logEgyDir .fat ++ Layout.fat.dirsep).length) = f.name := by
      rw [← path, List.drop_left]
      rfl
    refine ⟨?_, rfl⟩
    rw [back]
    exact List.mem_map_of_mem there

private theorem oldest_path {l : Layout} {takes : List Char → Bool} {files : List (File Nat)}
    (found : (findOldestEgyArch (ffind l takes files)).found = true) :
    fsPathFromFind l (logEgyDir l) (findOldestEgyArch (ffind l takes files)).oldestName ∈
        files.map File.name ∧
      egyArchNameKey (fsPathFromFind l (logEgyDir l)
        (findOldestEgyArch (ffind l takes files)).oldestName) ≠ 0 := by
  obtain ⟨key, inside⟩ := findOldestEgyArch_found found
  obtain ⟨there, same⟩ := ffind_path inside
  exact ⟨there, same ▸ key⟩

private theorem mem_fdelete {f : File Nat} {path : List Char} {files : List (File Nat)}
    (inside : f ∈ files) (other : f.name ≠ path) : f ∈ fdelete path files :=
  List.mem_filter.mpr ⟨inside, decide_eq_true other⟩

private theorem fdelete_length {path : List Char} {files : List (File Nat)}
    (there : path ∈ files.map File.name) : (fdelete path files).length < files.length := by
  obtain ⟨f, inside, rfl⟩ := List.mem_map.mp there
  exact List.length_filter_lt_length_iff_exists.mpr ⟨f, inside, by simp⟩

private theorem budgetLoop_keeps (l : Layout) (fs : FileSystem) {fuel : Nat}
    {files : List (File Nat)} (fueled : files.length < fuel) :
    ∃ left, budgetLoop l fs fuel files = some left ∧
      ∀ f ∈ files, egyArchNameKey f.name = 0 → f ∈ left := by
  induction fuel generalizing files with
  | zero => exact absurd fueled (Nat.not_lt_zero _)
  | succ fuel ih =>
    rw [budgetLoop]
    cases found : (findOldestEgyArch (ffind l fs.takes files)).found with
    | false => exact ⟨files, rfl, fun f inside _ => inside⟩
    | true =>
      obtain ⟨there, key⟩ := oldest_path found
      rw [Bool.not_true, if_neg Bool.false_ne_true]
      split_ifs
      · exact ⟨files, rfl, fun f inside _ => inside⟩
      · have fewer := fdelete_length there
        obtain ⟨left, ends, kept⟩ := ih (Nat.lt_of_lt_of_le fewer (Nat.lt_succ_iff.mp fueled))
        refine ⟨left, ends, fun f inside none => kept f (mem_fdelete inside ?_) none⟩
        rintro same
        exact key (same ▸ none)
      · exact ⟨files, rfl, fun f inside _ => inside⟩

private theorem trimEgyArchBudget_keeps (l : Layout) (fs : FileSystem) {files : List (File Nat)}
    {f : File Nat} (inside : f ∈ files) (none : egyArchNameKey f.name = 0) :
    f ∈ trimEgyArchBudget l fs files := by
  obtain ⟨left, ends, kept⟩ := budgetLoop_keeps l fs (Nat.lt_succ_self files.length)
  rw [trimEgyArchBudget, ends]
  exact kept f inside none

private theorem trimEgyArchAge_keeps (l : Layout) (fs : FileSystem) (cutoffKey : UInt32)
    {files : List (File Nat)} {f : File Nat} (inside : f ∈ files)
    (none : egyArchNameKey f.name = 0) : f ∈ trimEgyArchAge l fs cutoffKey files := by
  rw [trimEgyArchAge]
  split_ifs with _ lost
  · exact inside
  · exact inside
  · exact inside
  · have found : (findOldestEgyArch (ffind l fs.takes files)).found = true := by simpa using lost
    refine mem_fdelete inside fun same => (oldest_path found).2 ?_
    rw [← same, none]
  · exact inside

private theorem append_keeps {path : List Char} {bytes : Nat} {files : List (File Nat)}
    {f : File Nat}
    (inside : f ∈ files) (same : f.name = path → bytes = 0) : f ∈ append path bytes files := by
  unfold append
  split_ifs
  · refine List.mem_map.mpr ⟨f, inside, ?_⟩
    split_ifs with here
    · rw [same here, ← here, Nat.add_zero]
    · rfl
  · exact List.mem_append_left _ inside

private theorem egyArchNameKey_pos {l : Layout} {ts : UInt32} (set : ts ≠ 0) (id : Nat) :
    egyArchNameKey (egyArchName l ts id) ≠ 0 := by
  have month : (uLocalTime ts).tmMon ≠ 0 := by
    rw [uLocalTime, if_neg set]
    exact Nat.succ_ne_zero _
  rw [(egyArchNameKey_name l ts id).1]
  omega

private theorem archiveEnergyLog15Day_keeps (l : Layout) (day : Day) {files : List (File Nat)}
    {f : File Nat} (inside : f ∈ files) (none : egyArchNameKey f.name = 0) :
    f ∈ archiveEnergyLog15Day l files day := by
  rw [archiveEnergyLog15Day]
  by_cases unset : day.ts = 0
  · rw [if_pos unset]
    exact inside
  rw [if_neg unset]
  have other : f.name = egyArchName l day.ts day.id → energyLog15Size = 0 := fun same =>
    absurd none (same ▸ egyArchNameKey_pos unset day.id)
  have either {c : Prop} [Decidable c] {some rest : List (File Nat)} (yes : f ∈ some)
      (no : f ∈ rest) : f ∈ if c then some else rest := by
    split_ifs
    · exact yes
    · exact no
  extract_lets temp path made trimmed written
  have in_made : f ∈ made := either (append_keeps inside fun _ => rfl) inside
  have in_trimmed : f ∈ trimmed :=
    either in_made (trimEgyArchBudget_keeps l day.fs in_made none)
  have in_written : f ∈ written := either (append_keeps in_trimmed other) in_trimmed
  exact trimEgyArchAge_keeps l day.fs day.cutoffKey
    (trimEgyArchBudget_keeps l day.fs in_written none) none

theorem archived_keeps (l : Layout) (days : List Day) {files : List (File Nat)} {f : File Nat}
    (inside : f ∈ files) (none : egyArchNameKey f.name = 0) :
    f ∈ run (archiveEnergyLog15Day l) files days :=
  always_run (I := fun files => f ∈ files)
    (fun _ day there => archiveEnergyLog15Day_keeps l day there none) inside days

end SV300.Energy.ArchiveNames
