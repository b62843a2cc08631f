/- SV300/Trend/Budget
   digest: When the trimming of the trend files keeps all of them, backups included, in the budget. -/

import Mathlib.Data.List.Nodup
import SV300.Trend.Files

set_option autoImplicit false
set_option relaxedAutoImplicit false

namespace SV300.Trend.Budget

open SV300.Clock SV300.Fs.Directory SV300.Library.Rotation SV300.Trend.Names SV300.Trend.Files

variable {R : Type}

/-- What the steps of `appendTrendRcrd` and `checkTrendHeader` make of the files, each at its own
time; what is written fits the flash. -/
inductive Produced : Store R → Prop
  | empty : Produced []
  | write {files : Store R} (utc : UInt32) (mid : Fin 3) (g : Fin 4) (info : TrendInfo) (row : R) :
      Produced files →
      total bytes (writeRcrd (getTrendFile (uLocalTime utc) mid g) info row files) ≤ flash →
      Produced (writeRcrd (getTrendFile (uLocalTime utc) mid g) info row files)
  | rename {files : Store R} (utc later : UInt32) (mid : Fin 3) (g : Fin 4) (replaces : Bool) :
      Produced files →
      Produced (frename replaces (getTrendFile (uLocalTime utc) mid g)
        (getTrendBackupFile (uLocalTime later) mid g) files)
  | trim {files : Store R} (utc : UInt32) :
      Produced files → Produced (trimTrendLogBudget (uLocalTime utc) files)

/-- What holds of the files at all times. -/
structure Kept (files : Store R) : Prop where
  distinct : (files.map File.name).Nodup
  fits : total bytes files ≤ flash

private theorem Kept.sublist {part files : Store R} (kept : Kept files) (sub : part.Sublist files) :
    Kept part where
  distinct := (sub.map File.name).nodup kept.distinct
  fits := (total_le_of_sublist sub).trans kept.fits

private theorem any_name_iff {files : Store R} {fn : List Char} :
    (files.any fun f => decide (f.name = fn)) = true ↔ fn ∈ files.map File.name := by
  rw [List.any_eq_true, List.mem_map]
  simp only [decide_eq_true_eq]

private theorem writeRcrd_distinct {files : Store R} (distinct : (files.map File.name).Nodup)
    (fn : List Char) (info : TrendInfo) (row : R) :
    ((writeRcrd fn info row files).map File.name).Nodup := by
  unfold writeRcrd
  split_ifs with there
  · have same : (files.map fun f =>
        if f.name = fn then { f with body := f.body ++ [Item.rcrd row] } else f).map File.name =
        files.map File.name := by
      rw [List.map_map]
      refine List.map_congr_left fun f _ => ?_
      rw [Function.comp_apply]
      split_ifs <;> rfl
    rw [same]
    exact distinct
  · rw [any_name_iff] at there
    rw [List.map_append, List.nodup_append]
    refine ⟨distinct, List.nodup_singleton _, fun name inside last new same => ?_⟩
    rw [List.map_singleton, List.mem_singleton] at new
    rw [same, new] at inside
    exact there inside

private theorem Kept.renamed {files : Store R} (kept : Kept files) {fn fnew : List Char}
    (absent : fnew ∉ files.map File.name) :
    Kept (files.map fun f => if f.name = fn then { f with name := fnew } else f) where
  distinct := by
    have names : (files.map fun f => if f.name = fn then { f with name := fnew } else f).map
        File.name = (files.map File.name).map fun name => if name = fn then fnew else name := by
      rw [List.map_map, List.map_map]
      refine List.map_congr_left fun f _ => ?_
      simp only [Function.comp_apply]
      split_ifs <;> rfl
    rw [names]
    refine List.Nodup.map_on (fun x hx y hy same => ?_) kept.distinct
    split_ifs at same with atx aty aty
    · rw [atx, aty]
    · exact absurd (same ▸ hy) absent
    · exact absurd (same ▸ hx) absent
    · exact same
  fits := by
    have sizes : total bytes (files.map fun f =>
        if f.name = fn then { f with name := fnew } else f) = total bytes files := by
      unfold total
      rw [List.map_map]
      refine congrArg List.sum (List.map_congr_left fun f _ => ?_)
      rw [Function.comp_apply]
      split_ifs <;> rfl
    exact sizes.le.trans kept.fits

private theorem Kept.frename {files : Store R} (kept : Kept files) (replaces : Bool)
    (fn fnew : List Char) : Kept (frename replaces fn fnew files) := by
  unfold Files.frename
  split_ifs with there taken replace
  · refine (kept.sublist List.filter_sublist).renamed fun inside => ?_
    obtain ⟨f, kept, name⟩ := List.mem_map.mp inside
    exact of_decide_eq_true (List.mem_filter.mp kept).2 name
  · exact kept
  · exact kept.renamed fun inside => taken (any_name_iff.mpr inside)
  · exact kept

private theorem flash_lt : flash < 2 ^ 32 := by decide

private theorem Kept.word {files : Store R} (kept : Kept files) : total bytes files < 2 ^ 32 :=
  lt_of_le_of_lt kept.fits flash_lt

private theorem trimLoop_ends {files : Store R} (kept : Kept files) (tod : Tm) {fuel : Nat}
    (fueled : files.length < fuel) :
    ∃ n, trimLoop tod fuel files = some ((monthRule tod).rest n files) ∧
      (∀ k < n, enough ((monthRule tod).rest k files) = false) ∧
      ((monthRule tod).oldest ((monthRule tod).rest n files) = none ∨
        enough ((monthRule tod).rest n files) = true) := by
  rw [trimLoop_eq_trim tod fuel kept.word]
  exact Rule.trim_eq_rest enough fueled

private theorem Kept.trim {files : Store R} (kept : Kept files) (tod : Tm) :
    Kept (trimTrendLogBudget tod files) := by
  obtain ⟨n, ends, -, -⟩ := trimLoop_ends kept tod (Nat.lt_succ_self files.length)
  rw [trimTrendLogBudget, ends]
  exact kept.sublist (Rule.rest_sublist n files)

private theorem Produced.kept {files : Store R} (produced : Produced files) : Kept files := by
  induction produced with
  | empty => exact ⟨List.nodup_nil, Nat.zero_le _⟩
  | write utc mid g info row _ fits ih => exact ⟨writeRcrd_distinct ih.distinct _ info row, fits⟩
  | rename utc later mid g replaces _ ih => exact ih.frename replaces _ _
  | trim utc _ ih => exact ih.trim _

def backups (files : Store R) : Store R := files.filter fun f => !mask.hits f.name

private theorem monthly_add_backups (files : Store R) :
    monthly files + total bytes (backups files) = total bytes files := by
  induction files with
  | nil => rfl
  | cons f files ih =>
    unfold monthly backups ffind total at ih ⊢
    cases hit : mask.hits f.name
    · rw [List.filter_cons_of_neg (by simp [hit]), List.filter_cons_of_pos (by simp [hit])]
      simp only [List.map_cons, List.sum_cons]
      omega
    · rw [List.filter_cons_of_pos (by simp [hit]), List.filter_cons_of_neg (by simp [hit])]
      simp only [List.map_cons, List.sum_cons]
      omega

private theorem backups_rest (tod : Tm) (n : Nat) (files : Store R) :
    backups ((monthRule tod).rest n files) = backups files := by
  induction n generalizing files with
  | zero => rfl
  | succ n ih =>
    rw [Rule.rest]
    cases seen : (monthRule tod).oldest files with
    | none => rfl
    | some a =>
      have hit : mask.hits a.name = true := (Bool.and_eq_true_iff.mp (Rule.oldest_mem seen).2).1
      rw [ih, backups, Rule.without, List.filter_filter]
      refine List.filter_congr fun f _ => ?_
      cases missed : mask.hits f.name
      · have differs : f.name ≠ a.name := fun same => by simp [same, hit] at missed
        rw [Bool.not_false, Bool.true_and]
        exact decide_eq_true differs
      · rfl

private theorem total_rest (tod : Tm) (n : Nat) (files : Store R) :
    total bytes ((monthRule tod).rest n files) =
      monthly ((monthRule tod).rest n files) + total bytes (backups files) := by
  rw [← monthly_add_backups, backups_rest]

private theorem monthly_rest_le (tod : Tm) {m n : Nat} (le : m ≤ n) (files : Store R) :
    monthly ((monthRule tod).rest n files) ≤ monthly ((monthRule tod).rest m files) :=
  total_le_of_sublist ((Rule.rest_antitone le files).filter _)

private theorem lastMonthKey_lt (tod : Tm) : lastMonthKey tod ≤ currentKey tod := by
  unfold lastMonthKey currentKey
  split_ifs <;> omega

/-- What trimming is to do: `gone` is deleted and `left` stays.  Nothing of this month or the last
goes, the oldest month goes first, and at the end all fits or nothing older is left. -/
structure Settled (tod : Tm) (files gone left : Store R) : Prop where
  parts : files.Perm (gone ++ left)
  before : ∀ a ∈ gone, keyOf a < lastMonthKey tod ∧ keyOf a < currentKey tod
  sorted : gone.Pairwise fun a b => keyOf a ≤ keyOf b
  oldestFirst : ∀ a ∈ gone, ∀ b ∈ left, keyOf a ≤ keyOf b
  within : total bytes left ≤ budgetTrend ∨ ∀ b ∈ left, lastMonthKey tod ≤ keyOf b

/-- The loop ends and does so. -/
def Trimmed (tod : Tm) (files : Store R) : Prop :=
  ∃ gone left, (∀ fuel, files.length < fuel → trimLoop tod fuel files = some left) ∧
    Settled tod files gone left

/-- The backups do no harm.  `rest n` are the files with the oldest `n` deletable ones gone, of
those that the mask finds. -/
structure Harmless (tod : Tm) (files : Store R) : Prop where
  order : ∀ n a, (monthRule tod).oldest ((monthRule tod).rest n files) = some a →
    budgetTrend < monthly ((monthRule tod).rest n files) →
    ∀ b ∈ backups files, keyOf a ≤ keyOf b
  room : ∀ n a, (monthRule tod).oldest ((monthRule tod).rest n files) = some a →
    monthly ((monthRule tod).rest n files) ≤ budgetTrend →
    monthly ((monthRule tod).rest n files) + total bytes (backups files) ≤ budgetTrend
  last : (∀ n a, (monthRule tod).oldest ((monthRule tod).rest n files) = some a →
      budgetTrend < monthly ((monthRule tod).rest n files)) →
    ∀ n, (monthRule tod).oldest ((monthRule tod).rest n files) = none →
      (∀ b ∈ backups files, lastMonthKey tod ≤ keyOf b) ∨
        monthly ((monthRule tod).rest n files) + total bytes (backups files) ≤ budgetTrend

/-- Where the loop ends: every rest before is over the budget and the last one is the first that
holds nothing deletable or is not. -/
structure EndsAt (tod : Tm) (files : Store R) (n : Nat) : Prop where
  loop : ∀ fuel, files.length < fuel →
    trimLoop tod fuel files = some ((monthRule tod).rest n files)
  above : ∀ k < n, budgetTrend < monthly ((monthRule tod).rest k files)
  stop : (monthRule tod).oldest ((monthRule tod).rest n files) = none ∨
    monthly ((monthRule tod).rest n files) ≤ budgetTrend

private theorem trimLoop_mono {tod : Tm} {fuel more : Nat} {files left : Store R}
    (ends : trimLoop tod fuel files = some left) (le : fuel ≤ more) :
    trimLoop tod more files = some left := by
  induction fuel generalizing more files with
  | zero => cases ends
  | succ fuel ih =>
    cases more with
    | zero => exact absurd le (Nat.not_succ_le_zero fuel)
    | succ more =>
      rw [trimLoop] at ends ⊢
      split_ifs at ends ⊢
      · exact ends
      · exact ends
      · exact ih ends (Nat.succ_le_succ_iff.mp le)

private theorem endsAt {files : Store R} (kept : Kept files) (tod : Tm) :
    ∃ n, EndsAt tod files n := by
  obtain ⟨n, ends, above, stop⟩ := trimLoop_ends kept tod (Nat.lt_succ_self files.length)
  refine ⟨n, fun fuel fueled => trimLoop_mono ends fueled, fun k below => ?_, ?_⟩
  · exact Nat.not_le.mp (of_decide_eq_false (above k below))
  · exact stop.imp id fun small => of_decide_eq_true small

section

variable {tod : Tm} {files : Store R} {n : Nat}

private theorem oldest_facts {a : File (List (Item R))} {k : Nat}
    (seen : (monthRule tod).oldest ((monthRule tod).rest k files) = some a) :
    a ∈ (monthRule tod).rest k files ∧ keyOf a < lastMonthKey tod := by
  obtain ⟨inside, old⟩ := Rule.oldest_mem seen
  exact ⟨inside, of_decide_eq_true (Bool.and_eq_true_iff.mp old).2⟩

private theorem EndsAt.lt_of_over (ends : EndsAt tod files n) {k : Nat} {a : File (List (Item R))}
    (seen : (monthRule tod).oldest ((monthRule tod).rest k files) = some a)
    (exceeds : budgetTrend < monthly ((monthRule tod).rest k files)) : k < n := by
  by_contra past
  have le : n ≤ k := Nat.not_lt.mp past
  rcases ends.stop with none | small
  · rw [Rule.rest_stays none le, none] at seen
    cases seen
  · exact absurd ((monthly_rest_le tod le files).trans small) (Nat.not_le.mpr exceeds)

private theorem EndsAt.le_of_within (ends : EndsAt tod files n) {k : Nat}
    (small : monthly ((monthRule tod).rest k files) ≤ budgetTrend) : n ≤ k := by
  by_contra before
  exact absurd small (Nat.not_le.mpr (ends.above k (Nat.not_le.mp before)))

private theorem passed_by (tod : Tm) {f : File (List (Item R))}
    (missed : mask.hits f.name = false) :
    (monthRule tod).old f = false := by
  simp only [monthRule, missed, Bool.false_and]

private theorem rest_cases (k : Nat) {b : File (List (Item R))}
    (inside : b ∈ (monthRule tod).rest k files) :
    lastMonthKey tod ≤ keyOf b ∨ (monthRule tod).old b = true ∨ b ∈ backups files := by
  cases hit : mask.hits b.name
  · refine .inr (.inr (List.mem_filter.mpr ⟨(Rule.rest_sublist k files).subset inside, ?_⟩))
    rw [hit]
    rfl
  · by_cases young : lastMonthKey tod ≤ keyOf b
    · exact .inl young
    · refine .inr (.inl ?_)
      simp only [monthRule, hit, Bool.true_and]
      exact decide_eq_true (Int.not_le.mp young)

private theorem backup_mem_rest (k : Nat) {b : File (List (Item R))} (inside : b ∈ backups files) :
    b ∈ (monthRule tod).rest k files := by
  rw [← backups_rest tod k files] at inside
  exact (List.mem_filter.mp inside).1

private theorem settled_of_harmless (kept : Kept files) (ends : EndsAt tod files n)
    (harmless : Harmless tod files) :
    Settled tod files ((monthRule tod).gone n files) ((monthRule tod).rest n files) where
  parts := Rule.gone_perm_rest n kept.distinct
  before a gone := by
    have old := (Rule.gone_old n files a gone).2
    have early : keyOf a < lastMonthKey tod :=
      of_decide_eq_true (Bool.and_eq_true_iff.mp old).2
    exact ⟨early, lt_of_lt_of_le early (lastMonthKey_lt tod)⟩
  sorted := Rule.gone_sorted (r := monthRule tod) n files
  oldestFirst a gone b inside := by
    obtain ⟨k, below, seen⟩ := Rule.mem_gone_iff.mp gone
    rcases rest_cases n inside with young | old | backup
    · exact (oldest_facts seen).2.le.trans young
    · exact Rule.gone_le_rest n files a gone b inside old
    · exact harmless.order k a seen (ends.above k below) b backup
  within := by
    rw [total_rest]
    cases seen : (monthRule tod).oldest ((monthRule tod).rest n files) with
    | some a =>
      have small := ends.stop.resolve_left (by rw [seen]; exact Option.some_ne_none a)
      exact .inl (harmless.room n a seen small)
    | none =>
      have exceeds : ∀ k a, (monthRule tod).oldest ((monthRule tod).rest k files) = some a →
          budgetTrend < monthly ((monthRule tod).rest k files) := by
        intro k a at_k
        by_contra small
        rw [Rule.rest_stays seen (ends.le_of_within (Nat.not_lt.mp small)), seen] at at_k
        cases at_k
      rcases harmless.last exceeds n seen with young | small
      · refine .inr fun b inside => ?_
        rcases rest_cases n inside with late | old | backup
        · exact late
        · rw [Rule.oldest_none.mp seen b inside] at old
          cases old
        · exact young b backup
      · exact .inl small

private theorem harmless_of_settled (kept : Kept files) (ends : EndsAt tod files n)
    {gone : Store R} (settled : Settled tod files gone ((monthRule tod).rest n files)) :
    Harmless tod files where
  order k a seen exceeds b backup := by
    have both := settled.parts.symm.trans
      (Rule.gone_perm_rest (r := monthRule tod) n kept.distinct)
    have same : gone.Perm ((monthRule tod).gone n files) := (List.perm_append_right_iff _).mp both
    have inside := Rule.mem_gone_iff.mpr ⟨k, ends.lt_of_over seen exceeds, seen⟩
    exact settled.oldestFirst a (same.mem_iff.mpr inside) b (backup_mem_rest n backup)
  room k a seen small := by
    have le := ends.le_of_within small
    obtain ⟨inside, early⟩ := oldest_facts seen
    rcases settled.within with fits | late
    · rw [total_rest] at fits
      exact (Nat.add_le_add_right (monthly_rest_le tod le files) _).trans fits
    · exact absurd (late a ((Rule.rest_antitone le files).subset inside)) (Int.not_le.mpr early)
  last exceeds k none := by
    have stop : (monthRule tod).oldest ((monthRule tod).rest n files) = .none := by
      rcases ends.stop with none | small
      · exact none
      · cases seen : (monthRule tod).oldest ((monthRule tod).rest n files) with
        | none => rfl
        | some a => exact absurd small (Nat.not_le.mpr (exceeds n a seen))
    have same : (monthRule tod).rest k files = (monthRule tod).rest n files := by
      rcases Nat.le_total n k with le | le
      · exact Rule.rest_stays stop le
      · exact (Rule.rest_stays none le).symm
    rw [same]
    rcases settled.within with fits | late
    · exact .inr (by rwa [total_rest] at fits)
    · exact .inl fun b backup => late b (backup_mem_rest n backup)

end

/-- In every directory that appending and checking can make, and at any time, the trimming does what
it is to do exactly where the backups do no harm. -/
theorem trims_iff_harmless {files : Store R} (produced : Produced files) (utc : UInt32) :
    Trimmed (uLocalTime utc) files ↔ Harmless (uLocalTime utc) files := by
  obtain ⟨n, ends⟩ := endsAt produced.kept (uLocalTime utc)
  constructor
  · rintro ⟨gone, left, loop, settled⟩
    obtain rfl : (monthRule (uLocalTime utc)).rest n files = left := by
      have one := loop _ (Nat.lt_succ_self files.length)
      rw [ends.loop _ (Nat.lt_succ_self files.length)] at one
      exact Option.some.inj one
    exact harmless_of_settled produced.kept ends settled
  · exact fun harmless => ⟨_, _, ends.loop, settled_of_harmless produced.kept ends harmless⟩

def someInfo : TrendInfo := ⟨0, 1, 0, fun _ => 0⟩

/-- A month's file of `k + 1` records. -/
def filled (utc : UInt32) (k : Nat) : Store Unit :=
  [⟨getTrendFile (uLocalTime utc) 0 0, .info someInfo :: List.replicate (k + 1) (.rcrd ())⟩]

private theorem total_single (name : List Char) (items : List (Item R)) :
    total bytes [⟨name, items⟩] = 72 * items.length := by
  simp [total, bytes]

private theorem frename_single {fn fnew : List Char} (free : fn ≠ fnew) (items : List (Item R)) :
    frename false fn fnew [⟨fn, items⟩] = [⟨fnew, items⟩] := by
  simp [frename, free]

private theorem bytes_filled (utc : UInt32) (k : Nat) :
    total bytes (filled utc k) = 72 * (k + 2) := by
  rw [filled, total_single, List.length_cons, List.length_replicate]

private theorem produced_filled (utc : UInt32) (k : Nat) (fits : 72 * (k + 2) ≤ flash) :
    Produced (filled utc k) := by
  induction k with
  | zero => exact .write utc 0 0 someInfo () .empty (bytes_filled utc 0 ▸ fits)
  | succ k ih =>
    have next : writeRcrd (getTrendFile (uLocalTime utc) 0 0) someInfo () (filled utc k) =
        filled utc (k + 1) := by
      simp [writeRcrd, filled, List.replicate_succ']
    have before : 72 * (k + 2) ≤ flash := le_trans (by omega) fits
    exact next ▸ .write utc 0 0 someInfo () (ih before)
      (next.symm ▸ (bytes_filled utc (k + 1)).le.trans fits)

private theorem harmless_of_no_backups {tod : Tm} {files : Store R} (none_ : backups files = []) :
    Harmless tod files where
  order n a seen exceeds b inside := by
    rw [none_] at inside
    cases inside
  room n a seen small := by
    rw [none_]
    exact small
  last exceeds n seen := by
    refine .inl fun b inside => ?_
    rw [none_] at inside
    cases inside

/-- November's file with `k + 1` records and one of the next March. -/
def twoMonths (k : Nat) : Store Unit :=
  filled 1700000000 k ++ [⟨getTrendFile (uLocalTime 1710000000) 0 0, [.info someInfo, .rcrd ()]⟩]

private theorem bytes_twoMonths (k : Nat) : total bytes (twoMonths k) = 72 * (k + 2) + 144 := by
  have sum : total bytes (twoMonths k) = total bytes (filled 1700000000 k) + 144 := by
    simp [twoMonths, total, bytes]
  rw [sum, bytes_filled]

private theorem produced_twoMonths {k : Nat} (fits : 72 * (k + 2) + 144 ≤ flash) :
    Produced (twoMonths k) := by
  have apart : getTrendFile (uLocalTime 1700000000) 0 0 ≠
      getTrendFile (uLocalTime 1710000000) 0 0 := by
    intro same
    have mon := (getTrendFile_inj (fits_uLocalTime _) (fits_uLocalTime _) same).2.1
    exact absurd mon (by decide +kernel)
  have next : writeRcrd (getTrendFile (uLocalTime 1710000000) 0 0) someInfo ()
      (filled 1700000000 k) = twoMonths k := by
    simp [writeRcrd, filled, twoMonths, apart]
  have before : 72 * (k + 2) ≤ flash := le_trans (Nat.le_add_right _ 144) fits
  exact next ▸ .write 1710000000 0 0 someInfo () (produced_filled 1700000000 k before)
    (next.symm ▸ (bytes_twoMonths k).le.trans fits)

private theorem backups_twoMonths (k : Nat) : backups (twoMonths k) = [] := by
  rw [backups, List.filter_eq_nil_iff]
  intro f inside
  have hit : mask.hits f.name = true := by
    rcases List.mem_append.mp inside with old | new
    · rw [List.mem_singleton.mp old]
      exact mask_hits_file _ 0 0
    · rw [List.mem_singleton.mp new]
      exact mask_hits_file _ 0 0
  simp [hit]

/-- More than the budget, of which November goes. -/
theorem twoMonths_trimmed :
    budgetTrend < total bytes (twoMonths 42999) ∧
      Trimmed (uLocalTime 1710000000) (twoMonths 42999) := by
  refine ⟨?_, (trims_iff_harmless (produced_twoMonths (by decide)) 1710000000).mpr
    (harmless_of_no_backups (backups_twoMonths 42999))⟩
  rw [bytes_twoMonths]
  decide

/-- November's file grows to 43 000 records and is renamed; in the next March it stays, over the
budget and out of the search's sight. -/
theorem backup_over_budget :
    ∃ files : Store Unit, Produced files ∧ ¬ Trimmed (uLocalTime 1710000000) files := by
  let fnew := getTrendBackupFile (uLocalTime 1700000000) 0 0
  let left : Store Unit := [⟨fnew, .info someInfo :: List.replicate (42999 + 1) (.rcrd ())⟩]
  have renamed : Produced left := by
    have old := produced_filled 1700000000 42999 (by decide)
    have moved : frename false (getTrendFile (uLocalTime 1700000000) 0 0) fnew
        (filled 1700000000 42999) = left := frename_single (file_ne_backup _ _ 0 0 0 0) _
    exact moved ▸ old.rename 1700000000 1700000000 0 0 false
  refine ⟨left, renamed, ?_⟩
  rintro ⟨gone, stays, loop, settled⟩
  have unseen : (monthRule (uLocalTime 1710000000)).oldest left = none := by
    refine Rule.oldest_none.mpr fun f inside => ?_
    obtain rfl := List.mem_singleton.mp inside
    exact passed_by _ (mask_hits_backup _ 0 0)
  obtain rfl : left = stays := by
    have first := loop 2 (Nat.lt_succ_self 1)
    rw [trimLoop_eq_trim _ _ renamed.kept.word, Rule.trim, unseen] at first
    exact Option.some.inj first
  rcases settled.within with small | late
  · rw [total_single, List.length_cons, List.length_replicate] at small
    exact absurd small (by decide)
  · have key := late _ (List.mem_singleton_self _)
    rw [keyOf, parseTrendMonthKey_backup (fits_uLocalTime _).year (fits_uLocalTime _).mon] at key
    exact absurd key (by decide +kernel)

end SV300.Trend.Budget
