/- SV300/Trend/Record
   digest: Trend recording while clock, settings and restarts come as they like. -/

import SV300.Library.Runs
import SV300.Trend.Files

set_option autoImplicit false
set_option relaxedAutoImplicit false

namespace SV300.Trend.Record

open SV300.Clock SV300.Fs.Directory SV300.Library.Runs SV300.Trend.Names SV300.Trend.Files

variable {V : Type} [Zero V]

/-- `TREND_DEF`, the setting of a group. -/
structure TrendDef where
  active : UInt16
  interval : UInt16
  version : UInt16
  chan : Fin 16 → UInt16

/-- The values that a meter's channels have now; `none` where `almTbl` has no source. -/
abbrev Table (V : Type) := UInt16 → Option V

/-- `TREND_RECORD`.  Beside it stands what it was sampled from: the month, the channels and the
values they had. -/
structure Row (V : Type) where
  ts : UInt32
  type : UInt16
  valid : UInt16
  pen : Fin 16 → V
  month : Nat × Nat
  chans : Fin 16 → UInt16
  table : Table V

/-- Where the file task stands. -/
inductive Micro
  | poll
  | trim
  | check (mid : Fin 3) (g : Fin 4)
  | rename (mid : Fin 3) (g : Fin 4) (fn : List Char)
  | sample (mid : Fin 3) (g : Fin 4)
  | append (mid : Fin 3) (g : Fin 4)

/-- `lost` collects the records of files that a renamed one took the place of. -/
structure State (V : Type) where
  utc : UInt32
  trend : Fin 3 → Fin 4 → TrendDef
  lastmin : Int
  trdOnMin : Fin 3 → Fin 4 → UInt16
  row : Fin 3 → Fin 4 → Row V
  trdInf : Fin 3 → Fin 4 → TrendInfo
  store : Store (Row V)
  lost : List (Row V)
  todo : List Micro

/-- The clock moves, a setting changes, the meter restarts with its settings, or the file task takes
its next step while the channels have these values. -/
inductive Event (V : Type)
  | clock (utc : UInt32)
  | configure (mid : Fin 3) (g : Fin 4) (d : TrendDef)
  | reboot (trend : Fin 3 → Fin 4 → TrendDef)
  | work (table : Fin 3 → Table V)

def put {α : Type} (f : Fin 3 → Fin 4 → α) (mid : Fin 3) (g : Fin 4) (a : α) : Fin 3 → Fin 4 → α :=
  fun m h => if m = mid ∧ h = g then a else f m h

def each (p : Fin 3 → Fin 4 → Micro) : List Micro :=
  (List.finRange 3).flatMap fun mid => (List.finRange 4).map fun g => p mid g

def noRow : Row V where
  ts := 0
  type := 0
  valid := 0
  pen _ := 0
  month := (0, 0)
  chans _ := 0
  table _ := none

def noInfo : TrendInfo := ⟨0, 0, 0, fun _ => 0⟩

/-- The memory after a start; `checkTrendHeader` is to run first. -/
def boot (utc : UInt32) (trend : Fin 3 → Fin 4 → TrendDef) (store : Store (Row V))
    (lost : List (Row V)) : State V where
  utc := utc
  trend := trend
  lastmin := -1
  trdOnMin _ _ := 0
  row _ _ := noRow
  trdInf _ _ := noInfo
  store := store
  lost := lost
  todo := .trim :: each .check

def trdTime : List Nat := [1, 2, 3, 5, 10, 15, 20, 30, 60]

def itv (d : TrendDef) : Nat := trdTime.getD d.interval.toNat 60

def maxAlarmCh : Nat := 124

/-- The source of a channel's value, where it has one. -/
def source (table : Table V) (chan : UInt16) : Option V :=
  if chan.toNat < maxAlarmCh then table chan else none

def getTrendData (s : State V) (mid : Fin 3) (g : Fin 4) (table : Table V) : State V :=
  let chan := (s.trend mid g).chan
  let r := s.row mid g
  { s with
    row := put s.row mid g
      { ts := s.utc
        type := r.type
        valid := 1
        pen := fun i => if chan i = 0 then 0 else (source table (chan i)).getD (r.pen i)
        month := yearMonth s.utc
        chans := chan
        table := table } }

/-- The count of minutes of fast recording after this one. -/
def onMin (s : State V) (mid : Fin 3) (g : Fin 4) : UInt16 :=
  if itv (s.trend mid g) < 10 then s.trdOnMin mid g + 1 else 0

def expires (s : State V) (mid : Fin 3) (g : Fin 4) : Bool := decide (60 < onMin s mid g)

def due (s : State V) (mid : Fin 3) (g : Fin 4) : Bool :=
  decide ((s.trend mid g).active ≠ 0) && !expires s mid g &&
    decide (tmMin s.utc % itv (s.trend mid g) = 0)

def sample (s : State V) (mid : Fin 3) (g : Fin 4) (table : Table V) : State V :=
  if (s.trend mid g).active = 0 then { s with trdOnMin := put s.trdOnMin mid g 0 }
  else if expires s mid g then
    { s with
      trend := put s.trend mid g { s.trend mid g with active := 0 }
      trdOnMin := put s.trdOnMin mid g 0 }
  else
    let s' := { s with trdOnMin := put s.trdOnMin mid g (onMin s mid g) }
    if due s mid g then getTrendData s' mid g table else s'

/-- `appendTrendRcrd` for a valid row; the trimming follows. -/
def append (s : State V) (mid : Fin 3) (g : Fin 4) : State V :=
  if (s.row mid g).valid = 0 then s
  else
    let fn := getTrendFile (uLocalTime s.utc) mid g
    let d := s.trend mid g
    let info : TrendInfo := ⟨s.utc, 1, d.version, d.chan⟩
    { s with
      trdInf := if s.store.any fun f => decide (f.name = fn) then s.trdInf
        else put s.trdInf mid g info
      store := writeRcrd fn info (s.row mid g) s.store
      row := put s.row mid g { s.row mid g with valid := 0 }
      todo := .trim :: s.todo }

def header (f : File (List (Item (Row V)))) : Option TrendInfo :=
  match f.body.head? with
  | some (.info i) => some i
  | _ => none

/-- Reads the header of the group's file; a header of other channels asks for a backup. -/
def check (s : State V) (mid : Fin 3) (g : Fin 4) : State V :=
  if (s.trend mid g).active = 0 then s
  else
    let fn := getTrendFile (uLocalTime s.utc) mid g
    match s.store.find? fun f => decide (f.name = fn) with
    | none => s
    | some f =>
      let inf := (header f).getD (s.trdInf mid g)
      { s with
        trdInf := put s.trdInf mid g inf
        todo := if ∀ j, inf.channel j = (s.trend mid g).chan j then s.todo
          else .rename mid g fn :: s.todo }

def recordsOf (fn : List Char) (store : Store (Row V)) : List (Row V) :=
  (store.filter fun f => decide (f.name = fn)).flatMap fun f =>
    f.body.filterMap fun
      | .info _ => none
      | .rcrd r => some r

def overwritten (replaces : Bool) (fn fnew : List Char) (store : Store (Row V)) : List (Row V) :=
  if replaces && store.any fun f => decide (f.name = fn) then recordsOf fnew store else []

def rename (replaces : Bool) (s : State V) (mid : Fin 3) (g : Fin 4) (fn : List Char) : State V :=
  let fnew := getTrendBackupFile (uLocalTime s.utc) mid g
  { s with
    store := frename replaces fn fnew s.store
    lost := s.lost ++ overwritten replaces fn fnew s.store }

def trendTick (s : State V) : State V :=
  if s.lastmin = tmMin s.utc then s
  else { s with lastmin := tmMin s.utc, todo := each .sample ++ each .append }

def act (replaces : Bool) (table : Fin 3 → Table V) (s : State V) : Micro → State V
  | .poll => trendTick s
  | .trim => { s with store := trimTrendLogBudget (uLocalTime s.utc) s.store }
  | .check mid g => check s mid g
  | .rename mid g fn => rename replaces s mid g fn
  | .sample mid g => sample s mid g (table mid)
  | .append mid g => append s mid g

/-- With nothing left to do the task looks at the clock again. -/
def State.next (s : State V) : Micro := s.todo.headD .poll

/-- `replaces` tells whether the file system's rename takes the place of a file of the new name. -/
def step (replaces : Bool) (s : State V) : Event V → State V
  | .clock utc => { s with utc := utc }
  | .configure mid g d => { s with trend := put s.trend mid g d }
  | .reboot trend => boot s.utc trend s.store s.lost
  | .work table => act replaces table { s with todo := s.todo.tail } s.next

def pick (table : Table V) (chan : UInt16) : V :=
  if chan = 0 then 0 else (source table chan).getD 0

/-- A name of the month, a file's or a backup's. -/
def OfMonth (name : List Char) (month : Nat × Nat) : Prop :=
  ∃ utc mid g, yearMonth utc = month ∧
    (name = getTrendFile (uLocalTime utc) mid g ∨ name = getTrendBackupFile (uLocalTime utc) mid g)

/-- One header, then records of the name's month whose pens hold the header's channels. -/
def RightFile (f : File (List (Item (Row V)))) : Prop :=
  ∃ (info : TrendInfo) (rows : List (Row V)) (month : Nat × Nat),
    f.body = .info info :: rows.map .rcrd ∧ OfMonth f.name month ∧
    ∀ r ∈ rows, r.month = month ∧ ∀ j, r.pen j = pick r.table (info.channel j)

structure Right (s : State V) : Prop where
  files : ∀ f ∈ s.store, RightFile f
  lost : s.lost = []

/-- A row holds the values of the channels it was sampled from. -/
def Sampled (r : Row V) : Prop := ∀ j, r.pen j = pick r.table (r.chans j)

structure Law (s : State V) : Prop extends Right s where
  rows : ∀ mid g, (s.row mid g).valid ≠ 0 → Sampled (s.row mid g)

/-- The task's step does no harm: a channel that is sampled has a source or an empty pen, a row is
appended in its month, under a header of its channels, and a rename finds its month unchanged and
takes no file's place. -/
def QuietAt (replaces : Bool) (s : State V) (table : Fin 3 → Table V) : Micro → Prop
  | .sample mid g => due s mid g = true → ∀ j, (s.trend mid g).chan j ≠ 0 →
      (source (table mid) ((s.trend mid g).chan j)).isNone = true → (s.row mid g).pen j = 0
  | .append mid g => (s.row mid g).valid ≠ 0 →
      (s.row mid g).month = yearMonth s.utc ∧
      (∀ f ∈ s.store, f.name = getTrendFile (uLocalTime s.utc) mid g →
        (header f).all (fun i => decide (∀ j, i.channel j = (s.row mid g).chans j)) = true) ∧
      ((∀ f ∈ s.store, f.name ≠ getTrendFile (uLocalTime s.utc) mid g) →
        ∀ j, (s.trend mid g).chan j = (s.row mid g).chans j)
  | .rename mid g fn => fn = getTrendFile (uLocalTime s.utc) mid g ∧
      (replaces = true → ∀ f ∈ s.store, f.name ≠ getTrendBackupFile (uLocalTime s.utc) mid g)
  | _ => True

def Quiet (replaces : Bool) (s : State V) : Event V → Prop
  | .work table => QuietAt replaces s table s.next
  | _ => True

private theorem OfMonth.of_file {utc : UInt32} {mid : Fin 3} {g : Fin 4} {month : Nat × Nat}
    (ofMonth : OfMonth (getTrendFile (uLocalTime utc) mid g) month) : yearMonth utc = month := by
  obtain ⟨named, mid', g', rfl, same | same⟩ := ofMonth
  · obtain ⟨year, mon, -, -⟩ := getTrendFile_inj (fits_uLocalTime utc) (fits_uLocalTime named) same
    exact Prod.ext year mon
  · exact absurd same (file_ne_backup _ _ _ _ _ _)

private theorem getTrendData_sampled (s : State V) (mid : Fin 3) (g : Fin 4) (table : Table V)
    (quiet : ∀ j, (s.trend mid g).chan j ≠ 0 →
      (source table ((s.trend mid g).chan j)).isNone = true → (s.row mid g).pen j = 0) :
    Sampled ((getTrendData s mid g table).row mid g) := by
  intro j
  simp only [getTrendData, put, and_self, if_true, pick]
  split_ifs with unused
  · rfl
  · cases there : source table ((s.trend mid g).chan j) with
    | some v => rfl
    | none => exact quiet j unused (by rw [there]; rfl)

private theorem put_other {α : Type} {f : Fin 3 → Fin 4 → α} {mid m : Fin 3} {g h : Fin 4} {a : α}
    (other : ¬(m = mid ∧ h = g)) : put f mid g a m h = f m h := if_neg other

private theorem Law.sample {s : State V} (law : Law s) {mid : Fin 3} {g : Fin 4}
    {table : Fin 3 → Table V} {replaces : Bool}
    (quiet : QuietAt replaces s table (.sample mid g)) : Law (sample s mid g (table mid)) := by
  unfold Record.sample
  split_ifs with off heavy now
  · exact ⟨⟨law.files, law.lost⟩, law.rows⟩
  · exact ⟨⟨law.files, law.lost⟩, law.rows⟩
  · refine ⟨⟨law.files, law.lost⟩, fun m h valid => ?_⟩
    by_cases here : m = mid ∧ h = g
    · obtain ⟨rfl, rfl⟩ := here
      exact getTrendData_sampled _ _ _ _ (quiet now)
    · simp only [getTrendData, put_other here] at valid ⊢
      exact law.rows m h valid
  · exact ⟨⟨law.files, law.lost⟩, law.rows⟩

private theorem RightFile.add {f : File (List (Item (Row V)))} (right : RightFile f) {r : Row V}
    (month : ∀ m, OfMonth f.name m → r.month = m)
    (pens : ∀ i, header f = some i → ∀ j, r.pen j = pick r.table (i.channel j)) :
    RightFile { f with body := f.body ++ [.rcrd r] } := by
  obtain ⟨info, rows, ym, body, ofMonth, all⟩ := right
  refine ⟨info, rows ++ [r], ym, by simp [body], ofMonth, fun x inside => ?_⟩
  rcases List.mem_append.mp inside with old | new
  · exact all x old
  · obtain rfl := List.mem_singleton.mp new
    exact ⟨month ym ofMonth, pens info (by simp [header, body])⟩

private theorem Law.append {s : State V} (law : Law s) {mid : Fin 3} {g : Fin 4}
    {table : Fin 3 → Table V} {replaces : Bool}
    (quiet : QuietAt replaces s table (.append mid g)) : Law (append s mid g) := by
  unfold Record.append
  split_ifs with empty
  · exact law
  obtain ⟨month, old, new⟩ := quiet empty
  have sampled := law.rows mid g empty
  refine ⟨⟨?_, law.lost⟩, fun m h valid => ?_⟩
  · intro f inside
    simp only [writeRcrd] at inside
    split_ifs at inside with there
    · obtain ⟨f, before, rfl⟩ := List.mem_map.mp inside
      split_ifs with named
      · refine (law.files f before).add (fun m ofMonth => ?_) fun i top j => ?_
        · rw [month]
          exact OfMonth.of_file (named ▸ ofMonth)
        · have same := old f before named
          rw [top] at same
          rw [of_decide_eq_true same j]
          exact sampled j
      · exact law.files f before
    · rcases List.mem_append.mp inside with before | last
      · exact law.files f before
      · obtain rfl := List.mem_singleton.mp last
        have absent : ∀ f ∈ s.store, f.name ≠ getTrendFile (uLocalTime s.utc) mid g := by
          intro f before named
          exact there (List.any_eq_true.mpr ⟨f, before, decide_eq_true named⟩)
        refine ⟨_, [s.row mid g], yearMonth s.utc, rfl, ⟨s.utc, mid, g, rfl, .inl rfl⟩,
          fun r only => ?_⟩
        obtain rfl := List.mem_singleton.mp only
        refine ⟨month, fun j => ?_⟩
        change (s.row mid g).pen j = pick (s.row mid g).table ((s.trend mid g).chan j)
        rw [new absent j]
        exact sampled j
  · by_cases here : m = mid ∧ h = g
    · obtain ⟨rfl, rfl⟩ := here
      simp [put] at valid
    · simp only [put_other here] at valid ⊢
      exact law.rows m h valid

private theorem RightFile.renamed {f : File (List (Item (Row V)))} (right : RightFile f)
    {utc : UInt32}
    {mid : Fin 3} {g : Fin 4} (named : f.name = getTrendFile (uLocalTime utc) mid g) :
    RightFile { f with name := getTrendBackupFile (uLocalTime utc) mid g } := by
  obtain ⟨info, rows, month, body, ofMonth, all⟩ := right
  exact ⟨info, rows, month, body, ⟨utc, mid, g, OfMonth.of_file (named ▸ ofMonth), .inr rfl⟩, all⟩

private theorem Law.rename {s : State V} (law : Law s) {mid : Fin 3} {g : Fin 4} {fn : List Char}
    {table : Fin 3 → Table V} {replaces : Bool}
    (quiet : QuietAt replaces s table (.rename mid g fn)) :
    Law (rename replaces s mid g fn) := by
  obtain ⟨rfl, free⟩ := quiet
  have moved : ∀ {files : Store (Row V)}, (∀ f ∈ files, RightFile f) →
      ∀ f ∈ files.map fun f =>
        if f.name = getTrendFile (uLocalTime s.utc) mid g then
          { f with name := getTrendBackupFile (uLocalTime s.utc) mid g }
        else f, RightFile f := by
    intro files right f inside
    obtain ⟨f, before, rfl⟩ := List.mem_map.mp inside
    split_ifs with named
    · exact (right f before).renamed named
    · exact right f before
  refine ⟨⟨?_, ?_⟩, law.rows⟩
  · simp only [Record.rename, frename]
    split_ifs with there taken replace
    · exact moved fun f inside => law.files f (List.mem_filter.mp inside).1
    · exact law.files
    · exact moved law.files
    · exact law.files
  · simp only [Record.rename, law.lost, List.nil_append, overwritten]
    split_ifs with takes
    · rw [Bool.and_eq_true] at takes
      have none : (s.store.filter fun f =>
          decide (f.name = getTrendBackupFile (uLocalTime s.utc) mid g)) = [] := by
        refine List.filter_eq_nil_iff.mpr fun f inside => ?_
        rw [decide_eq_true_eq]
        exact free takes.1 f inside
      rw [recordsOf, none]
      rfl
    · rfl

private theorem Law.act {s : State V} (law : Law s) {table : Fin 3 → Table V} {replaces : Bool}
    {m : Micro} (quiet : QuietAt replaces s table m) : Law (act replaces table s m) := by
  cases m with
  | poll =>
    rw [Record.act, trendTick]
    split_ifs
    · exact law
    · exact ⟨⟨law.files, law.lost⟩, law.rows⟩
  | trim =>
    have fewer := trimTrendLogBudget_sublist (uLocalTime s.utc) s.store
    exact ⟨⟨fun f inside => law.files f (fewer.subset inside), law.lost⟩, law.rows⟩
  | check mid g =>
    simp only [Record.act, Record.check]
    split_ifs
    · exact law
    · split
      · exact law
      · exact ⟨⟨law.files, law.lost⟩, law.rows⟩
  | rename mid g fn => exact law.rename quiet
  | sample mid g => exact law.sample quiet
  | append mid g => exact law.append quiet

private theorem Law.boot {store : Store (Row V)} (files : ∀ f ∈ store, RightFile f) (utc : UInt32)
    (trend : Fin 3 → Fin 4 → TrendDef) : Law (boot utc trend store []) where
  files := files
  lost := rfl
  rows _ _ valid := absurd rfl valid

private theorem Law.step {replaces : Bool} {s : State V} (e : Event V) (law : Law s)
    (quiet : Quiet replaces s e) : Law (step replaces s e) := by
  cases e with
  | clock utc => exact ⟨⟨law.files, law.lost⟩, law.rows⟩
  | configure mid g d => exact ⟨⟨law.files, law.lost⟩, law.rows⟩
  | reboot trend =>
    rw [Record.step, law.lost]
    exact Law.boot law.files s.utc trend
  | work table =>
    have tail : Law { s with todo := s.todo.tail } := ⟨⟨law.files, law.lost⟩, law.rows⟩
    refine tail.act ?_
    -- the steps read nothing of what is left to do
    change QuietAt replaces s table s.next at quiet
    generalize s.next = m at quiet ⊢
    cases m <;> exact quiet

/-- In every run whose steps are all quiet, from right files on, the files stay right and no rename
takes a record away. -/
theorem records_of_quiet {replaces : Bool} {store : Store (Row V)}
    (files : ∀ f ∈ store, RightFile f) (utc : UInt32) (trend : Fin 3 → Fin 4 → TrendDef)
    (es : List (Event V)) (quiet : Along (step replaces) (Quiet replaces) (boot utc trend store []) es) :
    Right (run (step replaces) (boot utc trend store []) es) :=
  (invariant_run (I := Law) (fun _ e law quiet => law.step e quiet) (Law.boot files utc trend)
    quiet).toRight

instance quietAtDecidable [DecidableEq V] (replaces : Bool) (s : State V)
    (table : Fin 3 → Table V) : ∀ m, Decidable (QuietAt replaces s table m)
  | .poll | .trim | .check _ _ => .isTrue trivial
  | .sample mid g => inferInstanceAs (Decidable (due s mid g = true → ∀ j : Fin 16,
      (s.trend mid g).chan j ≠ 0 →
      (source (table mid) ((s.trend mid g).chan j)).isNone = true → (s.row mid g).pen j = 0))
  | .append mid g => inferInstanceAs (Decidable ((s.row mid g).valid ≠ 0 →
      (s.row mid g).month = yearMonth s.utc ∧
      (∀ f ∈ s.store, f.name = getTrendFile (uLocalTime s.utc) mid g →
        (header f).all (fun i => decide (∀ j, i.channel j = (s.row mid g).chans j)) = true) ∧
      ((∀ f ∈ s.store, f.name ≠ getTrendFile (uLocalTime s.utc) mid g) →
        ∀ j : Fin 16, (s.trend mid g).chan j = (s.row mid g).chans j)))
  | .rename mid g fn => inferInstanceAs (Decidable (fn = getTrendFile (uLocalTime s.utc) mid g ∧
      (replaces = true → ∀ f ∈ s.store, f.name ≠ getTrendBackupFile (uLocalTime s.utc) mid g)))

instance quietDecidable [DecidableEq V] (replaces : Bool) (s : State V) :
    ∀ e, Decidable (Quiet replaces s e)
  | .clock _ | .configure _ _ _ | .reboot _ => .isTrue trivial
  | .work table => quietAtDecidable replaces s table s.next

/-- The first meter's first group records one channel each minute. -/
def oneGroup (chan : UInt16) : Fin 3 → Fin 4 → TrendDef := fun mid g =>
  if mid = 0 ∧ g = 0 then ⟨1, 0, 0, fun j => if j = 0 then chan else 0⟩
  else ⟨0, 0, 0, fun _ => 0⟩

/-- The task works on while each channel's value is its number. -/
def works (n : Nat) : List (Event Nat) :=
  List.replicate n (.work fun _ chan => some chan.toNat)

/-- A minute is recorded after a restart, and another one after it. -/
theorem two_minutes_right :
    Right (run (step true) (boot 1700000000 (oneGroup 2) [] [])
      (works 39 ++ .clock 1700000060 :: works 26)) :=
  records_of_quiet (fun f inside => absurd inside List.not_mem_nil) 1700000000 (oneGroup 2) _
    (by decide +kernel)

/-- The pens of the first channel are those of the header. -/
def firstPens (f : File (List (Item (Row Nat)))) : Bool :=
  (header f).all fun i => f.body.all fun
    | .info _ => true
    | .rcrd r => decide (r.pen 0 = pick r.table (i.channel 0))

private theorem RightFile.firstPens {f : File (List (Item (Row Nat)))} (right : RightFile f) :
    firstPens f = true := by
  obtain ⟨info, rows, month, body, -, all⟩ := right
  simp only [Record.firstPens, header, body, List.head?_cons, Option.all_some, List.all_cons,
    Bool.true_and, List.all_map, List.all_eq_true]
  exact fun r inside => decide_eq_true ((all r inside).2 0)

/-- The channel changes while the group is recorded: the next record goes under the old header. -/
theorem changed_channel_not_right :
    ¬ Right (run (step true) (boot 1700000000 (oneGroup 2) [] [])
      (works 39 ++ .configure 0 0 (oneGroup 3 0 0) :: .clock 1700000060 :: works 26)) := by
  intro right
  have all : (run (step true) (boot 1700000000 (oneGroup 2) [] [])
      (works 39 ++ .configure 0 0 (oneGroup 3 0 0) :: .clock 1700000060 :: works 26)).store.all
      firstPens = true :=
    List.all_eq_true.mpr fun f inside => (right.files f inside).firstPens
  revert all
  decide +kernel

end SV300.Trend.Record
