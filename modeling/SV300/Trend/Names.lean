/- SV300/Trend/Names
   digest: The names of the monthly trend files and of their backups, and the month read from them. -/

import SV300.Clock
import SV300.Fs.Directory
import SV300.Library.Decimal
import SV300.Library.Literals

set_option autoImplicit false
set_option relaxedAutoImplicit false

namespace SV300.Trend.Names

open SV300.Clock SV300.Fs.Directory SV300.Library.Decimal

def trendFile : List Char := "trd_trd".toList

/-- The mask of the search: the directory's prefix stands before `trd`. -/
def mask : Mask := ⟨"trd_trd".toList, ".d".toList⟩

/-- `%s%d_%04d%02dV%d.d` for the first meter, `%s%d_%04d%02dM%d.d` for the others. -/
def getTrendFile (tod : Tm) (mid : Fin 3) (g : Fin 4) : List Char :=
  if mid = 0 then
    trendFile ++ [digit g, '_'] ++ pad 4 tod.tmYear ++ pad 2 tod.tmMon ++ ['V', digit 0] ++
      ".d".toList
  else
    trendFile ++ [digit g, '_'] ++ pad 4 tod.tmYear ++ pad 2 tod.tmMon ++ ['M', digit mid] ++
      ".d".toList

/-- `trd%d_%04d%02dV%d_%02d.d` and `trd%d_%04d%02dM%d_%02d.d`. -/
def getTrendBackupFile (tod : Tm) (mid : Fin 3) (g : Fin 4) : List Char :=
  if mid = 0 then
    "trd".toList ++ [digit g, '_'] ++ pad 4 tod.tmYear ++ pad 2 tod.tmMon ++ ['V', digit 0] ++
      ['_'] ++ pad 2 tod.tmMday ++ ".d".toList
  else
    "trd".toList ++ [digit g, '_'] ++ pad 4 tod.tmYear ++ pad 2 tod.tmMon ++ ['M', digit mid] ++
      ['_'] ++ pad 2 tod.tmMday ++ ".d".toList

/-- The number that a place of the name writes, as its character; the terminator ends the name. -/
def place (p : List Char) (i : Nat) : Int := ((p.getD i (Char.ofNat 0)).toNat : Int) - 48

/-- The year and month behind the first `_` that a digit follows. -/
def parseTrendMonthKey : List Char → Int
  | [] => 999999
  | c :: p =>
    if c = '_' ∧ (p.head?.any isDigit) = true then
      (place p 0 * 1000 + place p 1 * 100 + place p 2 * 10 + place p 3) * 100 +
        (place p 4 * 10 + place p 5)
    else parseTrendMonthKey p

def currentKey (tod : Tm) : Int := tod.tmYear * 100 + tod.tmMon

/-- `getTrendMonthKeys`: the month before January is December of the year before. -/
def lastMonthKey (tod : Tm) : Int :=
  if (tod.tmMon : Int) - 1 < 1 then ((tod.tmYear : Int) - 1) * 100 + 12
  else tod.tmYear * 100 + (tod.tmMon - 1)

/-- The group, the year, the month and the meter, as both names write them. -/
def stem (tod : Tm) (mid : Fin 3) (g : Fin 4) : List Char :=
  [digit g, '_'] ++ pad 4 tod.tmYear ++ pad 2 tod.tmMon ++
    [if mid = 0 then 'V' else 'M', digit mid]

private theorem getTrendFile_eq (tod : Tm) (mid : Fin 3) (g : Fin 4) :
    getTrendFile tod mid g = trendFile ++ stem tod mid g ++ ".d".toList := by
  unfold getTrendFile stem
  split_ifs with first
  · simp [first]
  · simp

theorem getTrendBackupFile_eq (tod : Tm) (mid : Fin 3) (g : Fin 4) :
    getTrendBackupFile tod mid g =
      "trd".toList ++ stem tod mid g ++ (['_'] ++ pad 2 tod.tmMday ++ ".d".toList) := by
  unfold getTrendBackupFile stem
  split_ifs with first
  · simp [first]
  · simp

private theorem stem_length (tod : Tm) (mid : Fin 3) (g : Fin 4) :
    (stem tod mid g).length = 10 := by
  simp [stem, pad_length]

private theorem digit_ne_mark (n : Nat) : digit n ≠ '_' := by
  intro same
  have digits := (digit_cases n).1
  rw [same] at digits
  exact absurd digits (by decide)

private theorem place_digit (n : Nat) : ((digit n).toNat : Int) - 48 = n % 10 := by
  have every : ∀ d : Fin 10, (((Char.ofNat (48 + d)).toNat : Int) - 48) = d := by decide
  exact every ⟨n % 10, Nat.mod_lt n (by decide)⟩

theorem parseTrendMonthKey_stem {tod : Tm} (year : tod.tmYear < 10000) (mon : tod.tmMon < 100)
    (mid : Fin 3) (g : Fin 4) (tail : List Char) :
    parseTrendMonthKey (stem tod mid g ++ tail) = currentKey tod := by
  have group : digit g.val ≠ '_' := digit_ne_mark g
  have first : isDigit (digit (tod.tmYear / 10 / 10 / 10)) = true := (digit_cases _).1
  simp only [stem, pad, List.nil_append, List.cons_append, parseTrendMonthKey, group, false_and,
    if_false, List.head?_cons, Option.any_some, first, and_self, if_true, place,
    List.getD_cons_zero, List.getD_cons_succ, place_digit, currentKey]
  omega

theorem parseTrendMonthKey_backup {tod : Tm} (year : tod.tmYear < 10000) (mon : tod.tmMon < 100)
    (mid : Fin 3) (g : Fin 4) :
    parseTrendMonthKey (getTrendBackupFile tod mid g) = currentKey tod := by
  rw [getTrendBackupFile_eq, List.append_assoc]
  exact parseTrendMonthKey_stem year mon mid g _

theorem mask_hits_file (tod : Tm) (mid : Fin 3) (g : Fin 4) :
    mask.hits (getTrendFile tod mid g) = true := by
  rw [getTrendFile_eq, Mask.hits, Bool.and_eq_true, List.isPrefixOf_iff_prefix,
    List.isSuffixOf_iff_suffix]
  refine ⟨⟨stem tod mid g ++ ".d".toList, (List.append_assoc _ _ _).symm⟩, stem tod mid g, ?_⟩
  rw [List.append_assoc]
  rfl

theorem mask_hits_backup (tod : Tm) (mid : Fin 3) (g : Fin 4) :
    mask.hits (getTrendBackupFile tod mid g) = false := by
  rw [getTrendBackupFile_eq, Mask.hits, Bool.and_eq_false_iff, ← Bool.not_eq_true,
    List.isPrefixOf_iff_prefix]
  left
  rintro ⟨rest, same⟩
  have fourth : '_' = digit g := congrArg (fun name => name.getD 3 'd') same
  exact digit_ne_mark g fourth.symm

theorem file_ne_backup (tod tod' : Tm) (mid mid' : Fin 3) (g g' : Fin 4) :
    getTrendFile tod mid g ≠ getTrendBackupFile tod' mid' g' := by
  intro same
  have hit := mask_hits_file tod mid g
  rw [same, mask_hits_backup] at hit
  cases hit

/-- The fields of a date that names write. -/
structure Fits (tod : Tm) : Prop where
  year : tod.tmYear < 10000
  mon : tod.tmMon < 100
  mday : tod.tmMday < 100

theorem fits_uLocalTime (utc : UInt32) : Fits (uLocalTime utc) :=
  let ⟨year, mon, mday⟩ := uLocalTime_bounds utc
  ⟨year, mon, mday⟩

private theorem digit_inj {n m : Nat} (small : n < 10) (small' : m < 10)
    (same : digit n = digit m) :
    n = m := by
  have values := congrArg digitValue same
  rw [(digit_cases n).2, (digit_cases m).2] at values
  omega

private theorem stem_inj {tod tod' : Tm} (fits : Fits tod) (fits' : Fits tod') {mid mid' : Fin 3}
    {g g' : Fin 4} (same : stem tod mid g = stem tod' mid' g') :
    tod.tmYear = tod'.tmYear ∧ tod.tmMon = tod'.tmMon ∧ mid = mid' ∧ g = g' := by
  unfold stem at same
  obtain ⟨front, last⟩ := List.append_inj same (by simp [pad_length])
  obtain ⟨front, mons⟩ := List.append_inj front (by simp [pad_length])
  obtain ⟨front, years⟩ := List.append_inj front (by simp)
  have group : digit g = digit g' := (List.cons.inj front).1
  have meter : digit mid = digit mid' := by simpa using (List.cons.inj last).2
  exact ⟨pad_inj fits.year fits'.year years, pad_inj fits.mon fits'.mon mons,
    Fin.ext (digit_inj (by omega) (by omega) meter),
    Fin.ext (digit_inj (by omega) (by omega) group)⟩

theorem getTrendFile_inj {tod tod' : Tm} (fits : Fits tod) (fits' : Fits tod') {mid mid' : Fin 3}
    {g g' : Fin 4} (same : getTrendFile tod mid g = getTrendFile tod' mid' g') :
    tod.tmYear = tod'.tmYear ∧ tod.tmMon = tod'.tmMon ∧ mid = mid' ∧ g = g' := by
  rw [getTrendFile_eq, getTrendFile_eq, List.append_assoc, List.append_assoc] at same
  have stems := (List.append_inj (List.append_cancel_left same)
    (by rw [stem_length, stem_length])).1
  exact stem_inj fits fits' stems

end SV300.Trend.Names
