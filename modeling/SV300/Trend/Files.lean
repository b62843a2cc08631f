/- SV300/Trend/Files
   digest: The trend files: their header and records, what writes and renames them, and the trimming. -/

import SV300.Trend.Names

set_option autoImplicit false
set_option relaxedAutoImplicit false

namespace SV300.Trend.Files

open SV300.Clock SV300.Fs.Directory SV300.Library.Rotation SV300.Trend.Names

/-- `TREND_INFO`, the header of a file. -/
structure TrendInfo where
  ts : UInt32
  type : UInt16
  version : UInt16
  channel : Fin 16 → UInt16

/-- A file holds headers and records, each of 72 bytes. -/
inductive Item (R : Type)
  | info (i : TrendInfo)
  | rcrd (r : R)

variable {R : Type}

abbrev Store (R : Type) := List (File (List (Item R)))

def bytes (items : List (Item R)) : Nat := 72 * items.length

def budgetTrend : Nat := 3000 * 1024

def findOldestTrendLog (tod : Tm) (files : Store R) : Search :=
  findOldest bytes parseTrendMonthKey (lastMonthKey tod) 999999 (ffind mask files)

/-- The loop for at most `fuel` rounds; `none` if it has not ended by then. -/
def trimLoop (tod : Tm) : Nat → Store R → Option (Store R)
  | 0, _ => none
  | fuel + 1, files =>
    let s := findOldestTrendLog tod files
    if !s.found then some files
    else if s.totalSize.toNat ≤ budgetTrend then some files
    else trimLoop tod fuel (fdelete s.oldestName files)

/-- Each round deletes a file, so the files are rounds enough. -/
def trimTrendLogBudget (tod : Tm) (files : Store R) : Store R :=
  (trimLoop tod (files.length + 1) files).getD files

private theorem trimLoop_sublist {tod : Tm} {fuel : Nat} {files left : Store R}
    (ends : trimLoop tod fuel files = some left) : left.Sublist files := by
  induction fuel generalizing files with
  | zero => cases ends
  | succ fuel ih =>
    rw [trimLoop] at ends
    split_ifs at ends
    · exact Option.some.inj ends ▸ .refl _
    · exact Option.some.inj ends ▸ .refl _
    · exact (ih ends).trans List.filter_sublist

theorem trimTrendLogBudget_sublist (tod : Tm) (files : Store R) :
    (trimTrendLogBudget tod files).Sublist files := by
  rw [trimTrendLogBudget]
  cases ends : trimLoop tod (files.length + 1) files with
  | none => exact .refl _
  | some left => exact trimLoop_sublist ends

/-- A file found is opened to append the record, one not found is written with a header. -/
def writeRcrd (fn : List Char) (info : TrendInfo) (row : R) (files : Store R) : Store R :=
  if files.any fun f => decide (f.name = fn) then
    files.map fun f => if f.name = fn then { f with body := f.body ++ [.rcrd row] } else f
  else files ++ [⟨fn, [.info info, .rcrd row]⟩]

/-- `frename`; where the new name is taken, `replaces` tells whether its file goes. -/
def frename (replaces : Bool) (fn fnew : List Char) (files : Store R) : Store R :=
  if files.any fun f => decide (f.name = fn) then
    if files.any fun f => decide (f.name = fnew) then
      if replaces then
        (fdelete fnew files).map fun f => if f.name = fn then { f with name := fnew } else f
      else files
    else files.map fun f => if f.name = fn then { f with name := fnew } else f
  else files

def keyOf (f : File (List (Item R))) : Int := parseTrendMonthKey f.name

/-- The files found by the mask and of a month before the last. -/
def monthRule (tod : Tm) : Rule (File (List (Item R))) (List Char) Int where
  name := File.name
  key := keyOf
  old f := mask.hits f.name && decide (keyOf f < lastMonthKey tod)

def monthly (files : Store R) : Nat := total bytes (ffind mask files)

def enough (files : Store R) : Bool := decide (monthly files ≤ budgetTrend)

private theorem oldest_ffind (tod : Tm) (files : Store R) :
    (rule parseTrendMonthKey (lastMonthKey tod)).oldest (ffind mask files) =
      (monthRule tod).oldest files := by
  unfold Rule.oldest ffind
  rw [List.filter_filter]
  exact congrArg (List.argmin keyOf) (List.filter_congr fun f _ => Bool.and_comm _ _)

theorem trimLoop_eq_trim (tod : Tm) (fuel : Nat) {files : Store R}
    (fits : total bytes files < 2 ^ 32) :
    trimLoop tod fuel files = (monthRule tod).trim enough fuel files := by
  induction fuel generalizing files with
  | zero => rfl
  | succ fuel ih =>
    have tells := findOldest_tells bytes parseTrendMonthKey (lastMonthKey tod) 999999
      (ffind mask files)
    have found : (findOldestTrendLog tod files).found = _ := tells.found
    have sum : (findOldestTrendLog tod files).totalSize.toNat = monthly files := by
      have part : monthly files ≤ total bytes files := total_le_of_sublist List.filter_sublist
      rw [findOldestTrendLog, tells.total]
      exact UInt32.toNat_ofNat_of_lt' (lt_of_le_of_lt part fits)
    rw [trimLoop, Rule.trim]
    rw [oldest_ffind] at found
    cases seen : (monthRule tod).oldest files with
    | none =>
      rw [seen] at found
      simp [found]
    | some f =>
      rw [seen] at found
      have name : (findOldestTrendLog tod files).oldestName = f.name :=
        (tells.oldest f ((oldest_ffind tod files).trans seen)).2.1
      have fewer : total bytes (fdelete f.name files) < 2 ^ 32 :=
        lt_of_le_of_lt (total_le_of_sublist List.filter_sublist) fits
      simp only [found, sum, name, enough, Option.isSome_some, Bool.not_true, Bool.false_eq_true,
        if_false, decide_eq_true_eq]
      rw [ih fewer]
      rfl

end SV300.Trend.Files
