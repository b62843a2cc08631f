/- SV300/Fs/AgeKeys
   digest: The date that the rotations read from a file name is the date the name was made for. -/

import SV300.Energy.ArchiveNames
import SV300.Quality.Trim
import SV300.Trend.Names

set_option autoImplicit false
set_option relaxedAutoImplicit false

namespace SV300.Fs.AgeKeys

open SV300.Clock
open SV300.Energy.ArchiveNames
open SV300.Fs.CaptureRotation (Layout)
open SV300.Fs.Directory (File)
open SV300.Library.Decimal
open SV300.Library.Runs
open SV300.Quality.Trim
open SV300.Trend.Names hiding trendFile getTrendFile

def logTrendDir : Layout → List Char
  | .flat => "trd".toList
  | .fat => "\\log_trend".toList

def logPqDir : Layout → List Char
  | .flat => "pq".toList
  | .fat => "\\log_pq".toList

def trendFile (l : Layout) : List Char := logTrendDir l ++ l.dirsep ++ "trd".toList

def getTrendFile (l : Layout) (tod : Tm) (mid : Fin 3) (g : Fin 4) : List Char :=
  if mid = 0 then
    trendFile l ++ [digit g, '_'] ++ pad 4 tod.tmYear ++ pad 2 tod.tmMon ++ ['V', digit 0] ++
      ".d".toList
  else
    trendFile l ++ [digit g, '_'] ++ pad 4 tod.tmYear ++ pad 2 tod.tmMon ++ ['M', digit mid] ++
      ".d".toList

def qlFile (l : Layout) : List Char := logPqDir l ++ l.dirsep ++ "ql_".toList

def qwFile (l : Layout) : List Char := logPqDir l ++ l.dirsep ++ "qw_".toList

/-- `%s%s_m%d.d`. -/
def getQualLogFN (l : Layout) (sysTick1s : UInt32) (startDay : Int) (id : Nat) : List Char :=
  qlFile l ++ getQualStartDate sysTick1s startDay ++ "_m".toList ++ dec id ++ ".d".toList

def getQualWeekFN (l : Layout) (sysTick1s : UInt32) (startDay : Int) (id : Nat) : List Char :=
  qwFile l ++ getQualStartDate sysTick1s startDay ++ "_m".toList ++ dec id ++ ".d".toList

def forms (l : Layout) (dir path : List Char) : List (List Char) :=
  [path, path.drop (dir ++ l.dirsep).length]

private theorem mem_forms {l : Layout} {dir path : List Char} {P : List Char → Prop}
    (whole : P path) (bare : P (path.drop (dir ++ l.dirsep).length)) :
    ∀ name ∈ forms l dir path, P name := by
  intro name inside
  rcases List.mem_cons.mp inside with rfl | inside
  · exact whole
  · exact List.mem_singleton.mp inside ▸ bare

/-- A date, of the numbers that a name has room for, as every date of the clock is. -/
def Date : Type := { tod : Tm // Fits tod }

private theorem trend_key (l : Layout) (tod : Date) (mid : Fin 3) (g : Fin 4) :
    ∀ name ∈ forms l (logTrendDir l) (getTrendFile l tod.1 mid g),
      parseTrendMonthKey name = currentKey tod.1 := by
  have key := parseTrendMonthKey_stem tod.2.year tod.2.mon mid g ".d".toList
  have path : getTrendFile l tod.1 mid g =
      logTrendDir l ++ l.dirsep ++ ("trd".toList ++ (stem tod.1 mid g ++ ".d".toList)) := by
    unfold getTrendFile stem trendFile
    split_ifs with first
    · simp [first]
    · simp
  rw [path]
  refine mem_forms ?_ (by rw [List.drop_left]; exact key)
  cases l <;> exact key

private theorem backup_key (l : Layout) (tod : Date) (mid : Fin 3) (g : Fin 4) :
    ∀ front ∈ [[], logTrendDir l ++ l.dirsep],
      parseTrendMonthKey (front ++ getTrendBackupFile tod.1 mid g) = currentKey tod.1 := by
  have key := parseTrendMonthKey_stem tod.2.year tod.2.mon mid g
    (['_'] ++ pad 2 tod.1.tmMday ++ ".d".toList)
  intro front member
  rw [getTrendBackupFile_eq, List.append_assoc]
  rcases List.mem_cons.mp member with rfl | member
  · exact key
  · rw [List.mem_singleton.mp member]
    cases l <;> exact key

def monthKey (t : Tm) : Nat := t.tmYear * 100 + t.tmMon

def dateKey (t : Tm) : Nat := t.tmYear * 10000 + t.tmMon * 100 + t.tmMday

private theorem parseDateKey8_name {t : Tm} (fits : Fits t) (tail : List Char) {name : List Char}
    (skipped : markedKey name = markedKey ('_' :: (dateText t ++ '_' :: tail))) :
    parseDateKey8 name = dateKey t := by
  rw [parseDateKey8, skipped, markedKey_date]
  exact value_dateText fits.year fits.mon fits.mday

private theorem qual_key (l : Layout) {q : List Char} (log : q = "ql_".toList ∨ q = "qw_".toList)
    {t : Tm} (fits : Fits t) (id : Nat) :
    ∀ name ∈ forms l (logPqDir l) (logPqDir l ++ l.dirsep ++ q ++ dateText t ++ "_m".toList ++
      dec id ++ ".d".toList), parseDateKey8 name = dateKey t := by
  have path : logPqDir l ++ l.dirsep ++ q ++ dateText t ++ "_m".toList ++ dec id ++ ".d".toList =
      logPqDir l ++ l.dirsep ++ (q ++ (dateText t ++ '_' :: 'm' :: (dec id ++ ".d".toList))) := by
    simp
  rw [path]
  have key {name : List Char} (skipped : markedKey name = _) : parseDateKey8 name = dateKey t :=
    parseDateKey8_name fits ('m' :: (dec id ++ ".d".toList)) skipped
  refine mem_forms ?_ ?_
  · cases l <;> rcases log with rfl | rfl <;> exact key rfl
  · rw [List.drop_left]
    rcases log with rfl | rfl <;> exact key rfl

/-- The key that a rotation parses is the date a name was made for, with the folder ahead or not; no
other file of energies has one, and the rotation of archives leaves each such file as it is. -/
structure KeysTell (l : Layout) : Prop where
  trend : ∀ (tod : Date) (mid : Fin 3) (g : Fin 4),
    ∀ name ∈ forms l (logTrendDir l) (getTrendFile l tod.1 mid g),
      parseTrendMonthKey name = monthKey tod.1
  backup : ∀ (tod : Date) (mid : Fin 3) (g : Fin 4), ∀ front ∈ [[], logTrendDir l ++ l.dirsep],
    parseTrendMonthKey (front ++ getTrendBackupFile tod.1 mid g) = monthKey tod.1
  qualLog : ∀ sysTick1s startDay id,
    ∀ name ∈ forms l (logPqDir l) (getQualLogFN l sysTick1s startDay id),
      parseDateKey8 name = dateKey (startOfWeek sysTick1s startDay)
  qualWeek : ∀ sysTick1s startDay id,
    ∀ name ∈ forms l (logPqDir l) (getQualWeekFN l sysTick1s startDay id),
      parseDateKey8 name = dateKey (startOfWeek sysTick1s startDay)
  archive : ∀ ts id, ∀ name ∈ forms l (logEgyDir l) (egyArchName l ts id),
    egyArchNameKey name = monthKey (uLocalTime ts)
  other : ∀ f : EnergyFile, ∀ name ∈ forms l (f.dir l) (f.path l), egyArchNameKey name = 0
  kept : ∀ (f : EnergyFile) (files : List (File Nat)) (days : List Day),
    ∀ file ∈ files, file.name = f.path l → file ∈ run (archiveEnergyLog15Day l) files days

theorem keys_tell (l : Layout) : KeysTell l where
  trend := trend_key l
  backup := backup_key l
  qualLog _ _ id := qual_key l (.inl rfl) (fits_uLocalTime _) id
  qualWeek _ _ id := qual_key l (.inr rfl) (fits_uLocalTime _) id
  archive ts id := mem_forms (egyArchNameKey_name l ts id).1 (egyArchNameKey_name l ts id).2
  other f := mem_forms (egyArchNameKey_other l f).1 (egyArchNameKey_other l f).2
  kept f _ days _ inside same :=
    archived_keeps l days inside (same ▸ (egyArchNameKey_other l f).1)

example : egyArchNameKey "egy_egy202609_m1.d".toList = 202609 ∧
    egyArchNameKey "sys_egy15_0_m1.d".toList = 0 := by decide

end SV300.Fs.AgeKeys
