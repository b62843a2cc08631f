/- SV300/Quality/Trim
   digest: The rotation of power-quality files deletes the oldest ones before the current week. -/

import Mathlib.Data.List.TakeWhile
import SV300.Clock
import SV300.Fs.Directory
import SV300.Library.Decimal

set_option autoImplicit false
set_option relaxedAutoImplicit false

namespace SV300.Quality.Trim

open SV300.Clock SV300.Fs.Directory SV300.Library.Decimal SV300.Library.Rotation

def noKey : Nat := 99999999

def digits8 (p : List Char) : List Char := (p.takeWhile isDigit).take 8

/-- The date behind the first `_` that eight digits follow. -/
def markedKey : List Char → Option Nat
  | [] => none
  | c :: p =>
    if c = '_' ∧ (p.head?.any isDigit) = true ∧ (digits8 p).length = 8 then some (value (digits8 p))
    else markedKey p

/-- The date of a file name, or of a text that is a date itself. -/
def parseDateKey8 (name : List Char) : Nat :=
  match markedKey name with
  | some key => key
  | none => if (digits8 name).length = 8 then value (digits8 name) else noKey

/-- The first day of the week: `startDay` of the report's setting, or Sunday if it is no day. -/
def startOfWeek (sysTick1s : UInt32) (startDay : Int) : Tm :=
  let sd : Int := if startDay < 0 ∨ 6 < startDay then 0 else startDay
  let back := ((tmWday sysTick1s - sd + 7) % 7).toNat
  uLocalTime (sysTick1s - UInt32.ofNat back * 24 * 3600)

/-- `%04d%02d%02d`. -/
def dateText (t : Tm) : List Char := pad 4 t.tmYear ++ pad 2 t.tmMon ++ pad 2 t.tmMday

def getQualStartDate (sysTick1s : UInt32) (startDay : Int) : List Char :=
  dateText (startOfWeek sysTick1s startDay)

private theorem dateText_isDigit (t : Tm) : ∀ c ∈ dateText t, isDigit c = true := by
  intro c hc
  rw [dateText, List.mem_append, List.mem_append] at hc
  rcases hc with (hc | hc) | hc <;> exact pad_isDigit _ _ c hc

private theorem dateText_length (t : Tm) : (dateText t).length = 8 := by
  simp only [dateText, List.length_append, pad_length]

theorem value_dateText {t : Tm} (year : t.tmYear < 10 ^ 4) (mon : t.tmMon < 10 ^ 2)
    (mday : t.tmMday < 10 ^ 2) :
    value (dateText t) = t.tmYear * 10000 + t.tmMon * 100 + t.tmMday := by
  rw [dateText, value_append, value_append, value_pad year, value_pad mon, value_pad mday,
    pad_length, pad_length]
  omega

theorem markedKey_date (t : Tm) (tail : List Char) :
    markedKey ('_' :: (dateText t ++ '_' :: tail)) = some (value (dateText t)) := by
  have digits := dateText_isDigit t
  have whole : digits8 (dateText t ++ '_' :: tail) = dateText t := by
    rw [digits8, List.takeWhile_append_of_pos digits]
    have stop : ('_' :: tail).takeWhile isDigit = [] := rfl
    rw [stop, List.append_nil, List.take_of_length_le (dateText_length t).le]
  have first : ((dateText t ++ '_' :: tail).head?.any isDigit) = true := by
    cases text : dateText t with
    | nil => exact absurd (text ▸ dateText_length t) (by decide)
    | cons c p => exact digits c (text ▸ List.mem_cons_self)
  rw [markedKey, whole, dateText_length, if_pos ⟨rfl, first, rfl⟩]

private theorem digits8_value (p : List Char) : value (digits8 p) < 10 ^ 8 := by
  have digits : ∀ c ∈ digits8 p, isDigit c = true := fun c hc =>
    List.mem_takeWhile_imp (List.mem_of_mem_take hc)
  have short : (digits8 p).length ≤ 8 := List.length_take_le 8 _
  exact lt_of_lt_of_le (value_lt digits) (Nat.pow_le_pow_right (by decide) short)

private theorem parseDateKey8_lt (name : List Char) : parseDateKey8 name < 10 ^ 8 := by
  have marked : ∀ p key, markedKey p = some key → key < 10 ^ 8 := by
    intro p
    induction p with
    | nil => exact fun key h => nomatch h
    | cons c p ih =>
      intro key
      rw [markedKey]
      split_ifs
      · rintro ⟨⟩
        exact digits8_value p
      · exact ih key
  rw [parseDateKey8]
  split
  · exact marked name _ ‹_›
  · split_ifs
    · exact digits8_value name
    · decide

example : parseDateKey8 "pq_ql1_20260628_m1.d".toList = 20260628 ∧
    parseDateKey8 "pq_qw1_temp.d".toList = noKey := by decide

abbrev Drive := Dir (C := Nat) id

def maskQl : Mask := ⟨"pq_ql".toList, ".d".toList⟩

def maskQw : Mask := ⟨"pq_qw".toList, ".d".toList⟩

def budgetPq : Nat := 11500 * 1024

def pqTrimMax : Nat := 8

/-- What one pass under the lock meets: the clock, the setting and what `fdelete` returns. -/
structure Pass where
  sysTick1s : UInt32
  startDay : Int
  deletes : Bool

def Pass.currentKey (p : Pass) : Nat := parseDateKey8 (getQualStartDate p.sysTick1s p.startDay)

def keyOf (name : List Char) : Int := parseDateKey8 name

def qualLogs (d : Drive) : List (File Nat) := ffind maskQl d.files ++ ffind maskQw d.files

def findOldestQualLog (p : Pass) (d : Drive) : Search :=
  findOldest id keyOf p.currentKey noKey (qualLogs d)

/-- One search and one deletion at most; the flag says whether a file was deleted. -/
def trimQualLogStep (cutoffKey : UInt32) (p : Pass) (d : Drive) : Drive × Bool :=
  let s := findOldestQualLog p d
  let heavy := decide (budgetPq < s.totalSize.toNat)
  let aged := decide (cutoffKey ≠ 0) &&
    decide (UInt32.ofNat (parseDateKey8 s.oldestName) < cutoffKey)
  if !s.found || (!heavy && !aged) then (d, false)
  else if p.deletes then (d.remove id s.oldestName, true)
  else (d, false)

/-- A turn of the loop: what other tasks make of the files before its pass. -/
structure Turn extends Pass where
  others : Drive → Drive

/-- A pass that was made. -/
structure Visit where
  pass : Pass
  before : Drive
  after : Drive
  more : Bool

/-- The loop from turn `n` on with `k` turns left: its passes and the files it leaves. -/
def trimLoop (cutoffKey : UInt32) (turn : Nat → Turn) : Nat → Nat → Drive → List Visit × Drive
  | 0, _, d => ([], d)
  | k + 1, n, d =>
    let before := (turn n).others d
    let (after, more) := trimQualLogStep cutoffKey (turn n).toPass before
    let visit : Visit := ⟨(turn n).toPass, before, after, more⟩
    if more then
      let (visits, left) := trimLoop cutoffKey turn k (n + 1) after
      (visit :: visits, left)
    else ([visit], after)

def trimQualLogs (cutoffKey : UInt32) (turn : Nat → Turn) (d : Drive) : List Visit × Drive :=
  trimLoop cutoffKey turn pqTrimMax 0 d

/-- The lock is held throughout; `fopen` tells whether the file opens. -/
def pqFopenLocked (fopen : Drive → Bool) (pass : Nat → Pass) (d : Drive) : List Visit × Drive :=
  if fopen d then ([], d) else trimLoop 0 (fun n => ⟨pass n, id⟩) pqTrimMax 0 d

/-- A file that the search counts. -/
def Counted (d : Drive) (f : File Nat) : Prop :=
  f ∈ d.files ∧ (maskQl.hits f.name = true ∨ maskQw.hits f.name = true)

/-- A counted file from before the current week. -/
def Deletable (p : Pass) (d : Drive) (f : File Nat) : Prop :=
  Counted d f ∧ parseDateKey8 f.name < p.currentKey

/-- No deletable file has an earlier key. -/
def Oldest (p : Pass) (d : Drive) (f : File Nat) : Prop :=
  Deletable p d f ∧ ∀ g, Deletable p d g → parseDateKey8 f.name ≤ parseDateKey8 g.name

def pqSize (d : Drive) : Nat := total id (qualLogs d)

private theorem mem_qualLogs {d : Drive} {f : File Nat} : f ∈ qualLogs d ↔ Counted d f := by
  rw [qualLogs, List.mem_append, ffind, ffind, List.mem_filter, List.mem_filter, ← and_or_left]
  rfl

private theorem pqSize_lt (d : Drive) : pqSize d < 2 ^ 32 := by
  have ql : total id (ffind maskQl d.files) ≤ flash :=
    (total_le_of_sublist List.filter_sublist).trans d.fits
  have qw : total id (ffind maskQw d.files) ≤ flash :=
    (total_le_of_sublist List.filter_sublist).trans d.fits
  have sum : pqSize d = total id (ffind maskQl d.files) + total id (ffind maskQw d.files) := by
    simp only [pqSize, qualLogs, total, List.map_append, List.sum_append]
  have small : flash + flash < 2 ^ 32 := by decide
  omega

theorem findOldestQualLog_spec (p : Pass) (d : Drive) :
    (findOldestQualLog p d).totalSize.toNat = pqSize d ∧
      ((findOldestQualLog p d).found = false ∧ (∀ f, ¬ Deletable p d f) ∨
        (findOldestQualLog p d).found = true ∧
          ∃ f, Oldest p d f ∧ (findOldestQualLog p d).oldestName = f.name) := by
  have tells := findOldest_tells (C := Nat) id keyOf p.currentKey noKey (qualLogs d)
  refine ⟨?_, ?_⟩
  · rw [findOldestQualLog, tells.total]
    exact UInt32.toNat_ofNat_of_lt' (pqSize_lt d)
  have deletable {g : File Nat} : Deletable p d g ↔
      g ∈ qualLogs d ∧ (rule (C := Nat) keyOf p.currentKey).old g = true := by
    rw [Deletable, mem_qualLogs]
    simp [rule, keyOf]
  rw [findOldestQualLog, tells.found]
  cases seen : (rule (C := Nat) keyOf p.currentKey).oldest (qualLogs d) with
  | none =>
    refine .inl ⟨rfl, fun f gone => ?_⟩
    obtain ⟨inside, old⟩ := deletable.mp gone
    simp [Rule.oldest_none.mp seen f inside] at old
  | some f =>
    refine .inr ⟨rfl, f, ⟨deletable.mpr (Rule.oldest_mem seen), fun g gone => ?_⟩,
      (tells.oldest f seen).2.1⟩
    obtain ⟨inside, old⟩ := deletable.mp gone
    exact Int.ofNat_le.mp (Rule.oldest_le seen inside old)

/-- A pass that goes on deleted the oldest of the files that it may delete, and no other file. -/
def Visit.DeletesOldest (v : Visit) : Prop :=
  ∃ f, Oldest v.pass v.before f ∧ v.before.files.Perm (f :: v.after.files)

/-- Why a pass deletes nothing. -/
def Visit.Done (cutoffKey : UInt32) (v : Visit) : Prop :=
  (pqSize v.before ≤ budgetPq ∧
      ∀ f, Deletable v.pass v.before f → cutoffKey.toNat ≤ parseDateKey8 f.name) ∨
    (∀ f, ¬ Deletable v.pass v.before f) ∨
    (∃ f, Oldest v.pass v.before f ∧ v.pass.deletes = false)

/-- What one pass does to the files. -/
structure Visit.Sound (cutoffKey : UInt32) (v : Visit) : Prop where
  deletes : v.more = true → v.DeletesOldest
  keeps : v.more = false → v.after = v.before ∧ v.Done cutoffKey

private theorem remove_perm {d : Drive} {f : File Nat} (inside : f ∈ d.files) :
    d.files.Perm (f :: (d.remove id f.name).files) :=
  (rule (C := Nat) keyOf 0).perm_without d.distinct inside

private theorem cutoff_le_of_not_aged {cutoffKey : UInt32} {name : List Char}
    (fresh : (decide (cutoffKey ≠ 0) &&
      decide (UInt32.ofNat (parseDateKey8 name) < cutoffKey)) = false) :
    cutoffKey.toNat ≤ parseDateKey8 name := by
  have small := parseDateKey8_lt name
  by_cases zero : cutoffKey = 0
  · rw [zero]
    exact Nat.zero_le _
  · simp only [zero, ne_eq, not_false_eq_true, decide_true, Bool.true_and,
      decide_eq_false_iff_not] at fresh
    rw [UInt32.lt_iff_toNat_lt, UInt32.toNat_ofNat_of_lt' (lt_trans small (by decide))] at fresh
    exact Nat.not_lt.mp fresh

private theorem trimQualLogStep_sound (cutoffKey : UInt32) (p : Pass) (d : Drive) :
    Visit.Sound cutoffKey
      ⟨p, d, (trimQualLogStep cutoffKey p d).1, (trimQualLogStep cutoffKey p d).2⟩ := by
  obtain ⟨sum, ⟨lost, none⟩ | ⟨found, f, oldest, name⟩⟩ := findOldestQualLog_spec p d
  · have nothing : trimQualLogStep cutoffKey p d = (d, false) := by
      simp [trimQualLogStep, lost]
    rw [nothing]
    exact ⟨nofun, fun _ => ⟨rfl, .inr (.inl none)⟩⟩
  unfold trimQualLogStep
  simp only [found, sum, name, Bool.not_true, Bool.false_or]
  split_ifs with rest deletes
  · rw [Bool.and_eq_true, Bool.not_eq_true', Bool.not_eq_true', decide_eq_false_iff_not,
      Nat.not_lt] at rest
    refine ⟨nofun, fun _ => ⟨rfl, .inl ⟨rest.1, fun g gone => ?_⟩⟩⟩
    exact (cutoff_le_of_not_aged rest.2).trans (oldest.2 g gone)
  · exact ⟨fun _ => ⟨f, oldest, remove_perm oldest.1.1.1⟩, nofun⟩
  · exact ⟨nofun, fun _ => ⟨rfl, .inr (.inr ⟨f, oldest, Bool.not_eq_true _ ▸ deletes⟩)⟩⟩

/-- How a loop of passes ends. -/
def Ended (cutoffKey : UInt32) (visits : List Visit) (left : Drive) : Prop :=
  (∃ v, visits.getLast? = some v ∧ v.more = false ∧ left = v.after ∧ v.Done cutoffKey) ∨
    (∀ v ∈ visits, v.more = true) ∧ visits.length = pqTrimMax

/-- The passes and what the other tasks do before them are all that happens to the files. -/
def Linked (turn : Nat → Turn) : Nat → Drive → List Visit → Drive → Prop
  | _, d, [], left => left = d
  | n, d, v :: visits, left =>
    v.pass = (turn n).toPass ∧ v.before = (turn n).others d ∧
      Linked turn (n + 1) v.after visits left

private theorem trimLoop_sound (cutoffKey : UInt32) (turn : Nat → Turn) (k n : Nat) (d : Drive) :
    (∀ v ∈ (trimLoop cutoffKey turn k n d).1, v.Sound cutoffKey) ∧
      (trimLoop cutoffKey turn k n d).1.length ≤ k := by
  induction k generalizing n d with
  | zero => exact ⟨nofun, Nat.le_refl 0⟩
  | succ k ih =>
    have first := trimQualLogStep_sound cutoffKey (turn n).toPass ((turn n).others d)
    rw [trimLoop]
    cases more : (trimQualLogStep cutoffKey (turn n).toPass ((turn n).others d)).2 with
    | false =>
      rw [more] at first
      simp only [more, Bool.false_eq_true, if_false, List.mem_singleton, forall_eq,
        List.length_singleton]
      exact ⟨first, Nat.succ_pos k⟩
    | true =>
      rw [more] at first
      obtain ⟨sound, short⟩ := ih (n + 1)
        (trimQualLogStep cutoffKey (turn n).toPass ((turn n).others d)).1
      simp only [more, if_true, List.mem_cons, forall_eq_or_imp, List.length_cons]
      exact ⟨⟨first, sound⟩, Nat.succ_le_succ short⟩

private theorem trimLoop_ends (cutoffKey : UInt32) (turn : Nat → Turn) (k n : Nat) (d : Drive) :
    (∃ v, (trimLoop cutoffKey turn k n d).1.getLast? = some v ∧ v.more = false ∧
        (trimLoop cutoffKey turn k n d).2 = v.after) ∨
      (∀ v ∈ (trimLoop cutoffKey turn k n d).1, v.more = true) ∧
        (trimLoop cutoffKey turn k n d).1.length = k := by
  induction k generalizing n d with
  | zero => exact .inr ⟨nofun, rfl⟩
  | succ k ih =>
    rw [trimLoop]
    cases more : (trimQualLogStep cutoffKey (turn n).toPass ((turn n).others d)).2 with
    | false =>
      simp only [more, Bool.false_eq_true, if_false]
      exact .inl ⟨_, rfl, rfl, rfl⟩
    | true =>
      simp only [more, if_true]
      rcases ih (n + 1) (trimQualLogStep cutoffKey (turn n).toPass ((turn n).others d)).1 with
        ⟨v, last, stop, left⟩ | ⟨all, full⟩
      · refine .inl ⟨v, ?_, stop, left⟩
        rw [List.getLast?_cons, last]
        rfl
      · refine .inr ⟨?_, by rw [List.length_cons, full]⟩
        simpa only [List.mem_cons, forall_eq_or_imp, true_and] using all

private theorem trimLoop_linked (cutoffKey : UInt32) (turn : Nat → Turn) (k n : Nat) (d : Drive) :
    Linked turn n d (trimLoop cutoffKey turn k n d).1 (trimLoop cutoffKey turn k n d).2 := by
  induction k generalizing n d with
  | zero => rfl
  | succ k ih =>
    rw [trimLoop]
    cases more : (trimQualLogStep cutoffKey (turn n).toPass ((turn n).others d)).2 with
    | false =>
      simp only [more, Bool.false_eq_true, if_false]
      exact ⟨rfl, rfl, rfl⟩
    | true =>
      simp only [more, if_true]
      exact ⟨rfl, rfl, ih (n + 1) _⟩

/-- What a loop over at most eight passes is to do. -/
structure Trims (cutoffKey : UInt32) (turn : Nat → Turn) (d : Drive) (visits : List Visit)
    (left : Drive) : Prop where
  linked : Linked turn 0 d visits left
  sound : ∀ v ∈ visits, v.Sound cutoffKey
  short : visits.length ≤ pqTrimMax
  ended : Ended cutoffKey visits left

private theorem trimLoop_trims (cutoffKey : UInt32) (turn : Nat → Turn) (d : Drive) :
    Trims cutoffKey turn d (trimLoop cutoffKey turn pqTrimMax 0 d).1
      (trimLoop cutoffKey turn pqTrimMax 0 d).2 where
  linked := trimLoop_linked cutoffKey turn pqTrimMax 0 d
  sound := (trimLoop_sound cutoffKey turn pqTrimMax 0 d).1
  short := (trimLoop_sound cutoffKey turn pqTrimMax 0 d).2
  ended := by
    rcases trimLoop_ends cutoffKey turn pqTrimMax 0 d with ⟨v, last, stop, left⟩ | full
    · have inside := List.mem_of_getLast? last
      have sound := (trimLoop_sound cutoffKey turn pqTrimMax 0 d).1 v inside
      exact .inl ⟨v, last, stop, left, (sound.keeps stop).2⟩
    · exact .inr full

/-- Whatever the files, the cut-off, the clock and the other tasks: each pass deletes only the
oldest of the counted files from before the current week, and the loop ends after eight deletions
or with nothing left to do, nothing left to delete or a failed deletion.  So does the one that
follows a failed `fopen`. -/
theorem trims_oldest_before_week :
    (∀ cutoffKey turn d,
      Trims cutoffKey turn d (trimQualLogs cutoffKey turn d).1 (trimQualLogs cutoffKey turn d).2) ∧
    (∀ fopen pass d,
      if fopen d = true then pqFopenLocked fopen pass d = ([], d)
      else Trims 0 (fun n => ⟨pass n, id⟩) d (pqFopenLocked fopen pass d).1
        (pqFopenLocked fopen pass d).2) := by
  refine ⟨fun cutoffKey turn d => trimLoop_trims cutoffKey turn d, fun fopen pass d => ?_⟩
  unfold pqFopenLocked
  split_ifs
  · rfl
  · exact trimLoop_trims 0 _ d

/-- Two old files, one of the current week and one that has no date. -/
def someFiles : Drive where
  files :=
    [⟨"pq_ql1_20260628_m1.d".toList, 200⟩, ⟨"pq_qw1_20260301_m1.d".toList, 100⟩,
      ⟨"pq_qw1_temp.d".toList, 50⟩, ⟨"pq_ql1_20260101_m1.d".toList, 300⟩]
  distinct := by decide
  fits := by decide

/-- On the first of July both go, the older one first. -/
example :
    let trimmed := trimQualLogs 20260601 (fun _ => ⟨⟨1782864000, 0, true⟩, id⟩) someFiles
    trimmed.1.map (fun v => v.after.files.length) = [3, 2, 2] ∧
      trimmed.2.files.map File.name =
        ["pq_ql1_20260628_m1.d".toList, "pq_qw1_temp.d".toList] := by
  decide +kernel

end SV300.Quality.Trim
