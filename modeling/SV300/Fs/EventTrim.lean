/- SV300/Fs/EventTrim
   digest: The monthly file of events, appended to, trimmed to its newest records and cut short. -/

import SV300.Clock
import SV300.Fs.CaptureRotation
import SV300.Library.FileRewrite
import SV300.Library.FixedRecords

set_option autoImplicit false
set_option relaxedAutoImplicit false

namespace SV300.Fs.EventTrim

open SV300.Clock
open SV300.Fs.CaptureRotation (Layout)
open SV300.Library.Decimal
open SV300.Library.FileRewrite
open SV300.Library.FixedRecords
open SV300.Library.Ring
open SV300.Library.Runs

/-- `sizeof(EVENT_LOG)`. -/
def eventLogSize : Nat := 24

def eventLogCap : Nat := 1024

abbrev EventLog := Record UInt8 eventLogSize

abbrev Path := List Char

abbrev Files := Disk Path UInt8

/-- `EVENT_LIST_FILE`. -/
def eventListFile : Layout → Path
  | .flat => "evt_elog0_".toList
  | .fat => "\\event\\elog0_".toList

/-- What the file system and the heap answer while a message is served. -/
structure Answers where
  opensAppend : Bool
  finds : Bool
  opensRead : Bool
  seeks : Bool
  allocates : Bool
  reads : Bool
  opensWrite : Bool

def Answers.trims (a : Answers) : Bool :=
  a.finds && a.opensRead && a.seeks && a.allocates && a.reads && a.opensWrite

def Answers.works (a : Answers) : Bool := a.opensAppend && a.trims

/-- A message of `pushEvent` in mode `ab`: the date names the file. -/
structure Message where
  tod : Tm
  elog : EventLog
  answers : Answers

/-- `%s%04d%02d.d`. -/
def Message.fname (l : Layout) (m : Message) : Path :=
  eventListFile l ++ pad 4 m.tod.tmYear ++ pad 2 m.tod.tmMon ++ ".d".toList

/-- The writes of the trim: none at each of its exits, else the kept bytes in place of the file.
Lengths stay within the flash, far below 2^32. -/
def trimFixedRecordFileFs (path : Path) (recSize keepCount : Nat) (a : Answers) (d : Files) :
    List (Op Path UInt8) :=
  match d path with
  | none => []
  | some bs =>
    let keepBytes := recSize * keepCount
    let copyOffset := bs.length - keepBytes
    let buf := (bs.drop copyOffset).take keepBytes
    if !a.finds then []
    else if bs.length ≤ keepBytes then []
    else if !a.opensRead then []
    else if !a.seeks then []
    else if !a.allocates then []
    else if !a.reads then []
    else if a.opensWrite then rewrite path buf
    else []

/-- `fopen` in mode `ab`, which makes an absent file, and `fwrite`. -/
def appendRecord (path : Path) (payload : List UInt8) (d : Files) : List (Op Path UInt8) :=
  (if d path = none then [.truncate path] else []) ++ payload.map (.append path)

/-- The writes of the last branch of `FS_task`. -/
def fsWrite (l : Layout) (d : Files) (m : Message) : List (Op Path UInt8) :=
  if m.answers.opensAppend then
    let written := appendRecord (m.fname l) m.elog.1 d
    if (eventListFile l).isPrefixOf (m.fname l) then
      written ++ trimFixedRecordFileFs (m.fname l) eventLogSize eventLogCap m.answers
        (run apply d written)
    else written
  else []

def serve (l : Layout) (d : Files) (m : Message) : Files := run apply d (fsWrite l d m)

/-- The power is lost after `j` of the message's writes. -/
def cut (l : Layout) (d : Files) (m : Message) (j : Nat) : Files :=
  run apply d ((fsWrite l d m).take j)

def noFiles : Files := fun _ => none

def content (d : Files) (f : Path) : List UInt8 := (d f).getD []

def appended (l : Layout) (f : Path) (ms : List Message) : List EventLog :=
  (ms.filter fun m => m.answers.opensAppend && decide (m.fname l = f)).map Message.elog

/-- What holds of a message served after others, and of the power lost after `j` of its writes. -/
structure Upholds (l : Layout) (past : List Message) (m : Message) (j : Nat) : Prop where
  newest : (∀ p ∈ past ++ [m], p.answers.works = true) → ∀ f,
    content (run (serve l) noFiles (past ++ [m])) f =
      file (latest eventLogCap (appended l f (past ++ [m])))
  failed : m.answers.opensAppend = true → m.answers.trims = false →
    serve l (run (serve l) noFiles past) m = run apply (run (serve l) noFiles past)
      (appendRecord (m.fname l) m.elog.1 (run (serve l) noFiles past))
  others : ∀ f, f ≠ m.fname l →
    cut l (run (serve l) noFiles past) m j f = run (serve l) noFiles past f
  kept : Holds (content (cut l (run (serve l) noFiles past) m j) (m.fname l))
    (latest (eventLogCap - 1) (appended l (m.fname l) past))

/-- A message whose record takes the file above the cap and whose trim takes no exit. -/
structure Rewrites (l : Layout) (d : Files) (m : Message) : Prop where
  works : m.answers.works = true
  above : eventLogSize * eventLogCap < (content d (m.fname l)).length + eventLogSize

/-- The file is rewritten, and the power is lost between its truncation and the last of the bytes
that it had. -/
structure Lossy (l : Layout) (d : Files) (m : Message) (j : Nat) : Prop where
  rewrites : Rewrites l d m
  truncated : eventLogSize < j
  early : j ≤ eventLogSize + eventLogSize * (eventLogCap - 1)

private theorem fname_isPrefixOf (l : Layout) (m : Message) :
    (eventListFile l).isPrefixOf (m.fname l) = true := by
  rw [List.isPrefixOf_iff_prefix, Message.fname, List.append_assoc, List.append_assoc]
  exact List.prefix_append _ _

private theorem trimFixedRecordFileFs_eq {path : Path} {d : Files} {bs : List UInt8}
    (held : d path = some bs) (recSize keepCount : Nat) (a : Answers) :
    trimFixedRecordFileFs path recSize keepCount a d =
      if a.trims = true ∧ recSize * keepCount < bs.length then
        rewrite path (bs.drop (bs.length - recSize * keepCount))
      else [] := by
  have whole : (bs.drop (bs.length - recSize * keepCount)).take (recSize * keepCount) =
      bs.drop (bs.length - recSize * keepCount) := by
    refine List.take_of_length_le ?_
    rw [List.length_drop]
    omega
  rw [trimFixedRecordFileFs, held]
  simp only [whole]
  rcases Nat.lt_or_ge (recSize * keepCount) bs.length with above | within
  · rw [if_neg (Nat.not_le.mpr above)]
    simp only [above, and_true]
    obtain ⟨_, finds, opensRead, seeks, allocates, reads, opensWrite⟩ := a
    cases finds <;> cases opensRead <;> cases seeks <;> cases allocates <;> cases reads <;> rfl
  · rw [if_pos within, ite_self, if_neg fun both => Nat.not_lt.mpr within both.2]

private theorem appendRecord_elsewhere (d : Files) {path f : Path} (other : f ≠ path)
    (bs : List UInt8) : ∀ o ∈ appendRecord path bs d, o.file ≠ f := by
  intro o member
  rcases List.mem_append.mp member with made | written
  · split_ifs at made with absent
    · rw [List.mem_singleton.mp made]
      exact other.symm
    · cases made
  · obtain ⟨b, -, rfl⟩ := List.mem_map.mp written
    exact other.symm

private theorem content_appendRecord (d : Files) (path : Path) (bs : List UInt8) (j : Nat) :
    content (run apply d ((appendRecord path bs d).take j)) path =
      content d path ++ bs.take (j - if d path = none then 1 else 0) := by
  unfold content appendRecord
  by_cases absent : d path = none
  · rw [if_pos absent, if_pos absent, absent]
    cases j with
    | zero => rw [List.take_zero, run_nil, absent, Nat.zero_sub, List.take_zero, List.append_nil]
    | succ j =>
      have made := run_rewrite d path (bs.take j)
      rw [← take_rewrite] at made
      rw [List.singleton_append, Nat.add_sub_cancel]
      exact congrArg (Option.getD · []) made
  · obtain ⟨cs, held⟩ := Option.ne_none_iff_exists'.mp absent
    rw [if_neg absent, if_neg absent, List.nil_append, ← List.map_take, run_appends held, held,
      Nat.sub_zero]
    rfl

private theorem length_appendRecord (d : Files) (path : Path) (bs : List UInt8) :
    (appendRecord path bs d).length = (if d path = none then 1 else 0) + bs.length := by
  rw [appendRecord, List.length_append, List.length_map]
  split_ifs <;> rfl

theorem run_appendRecord (d : Files) (path : Path) (bs : List UInt8) :
    run apply d (appendRecord path bs d) path = some (content d path ++ bs) := by
  unfold appendRecord content
  by_cases absent : d path = none
  · rw [if_pos absent, absent, List.singleton_append]
    exact run_rewrite d path bs
  · obtain ⟨cs, held⟩ := Option.ne_none_iff_exists'.mp absent
    rw [if_neg absent, List.nil_append, run_appends held, held]
    rfl

private theorem fsWrite_closed {l : Layout} {d : Files} {m : Message}
    (closed : m.answers.opensAppend = false) : fsWrite l d m = [] := by
  rw [fsWrite, closed]
  rfl

private theorem fsWrite_opened {l : Layout} {d : Files} {m : Message}
    (opened : m.answers.opensAppend = true) :
    fsWrite l d m = appendRecord (m.fname l) m.elog.1 d ++
      if m.answers.trims = true ∧ eventLogSize * eventLogCap <
          (content d (m.fname l) ++ m.elog.1).length then
        rewrite (m.fname l) ((content d (m.fname l) ++ m.elog.1).drop
          ((content d (m.fname l) ++ m.elog.1).length - eventLogSize * eventLogCap))
      else [] := by
  rw [fsWrite, if_pos opened, fname_isPrefixOf, if_pos rfl,
    trimFixedRecordFileFs_eq (run_appendRecord d (m.fname l) m.elog.1)]

private theorem fsWrite_calm {l : Layout} {d : Files} {m : Message}
    (opened : m.answers.opensAppend = true) (calm : ¬ Rewrites l d m) :
    fsWrite l d m = appendRecord (m.fname l) m.elog.1 d := by
  have below : ¬ (m.answers.trims = true ∧ eventLogSize * eventLogCap <
      (content d (m.fname l) ++ m.elog.1).length) := by
    rintro ⟨trims, above⟩
    rw [List.length_append, m.elog.2] at above
    exact calm ⟨by rw [Answers.works, opened, trims]; rfl, above⟩
  rw [fsWrite_opened opened, if_neg below, List.append_nil]

private theorem Rewrites.opened {l : Layout} {d : Files} {m : Message} (r : Rewrites l d m) :
    m.answers.opensAppend = true :=
  (Bool.and_eq_true_iff.mp r.works).1

private theorem Rewrites.fsWrite_eq {l : Layout} {d : Files} {m : Message} (r : Rewrites l d m)
    {rs : List EventLog} (held : content d (m.fname l) = file rs) :
    fsWrite l d m = appendRecord (m.fname l) m.elog.1 d ++
      rewrite (m.fname l) (file (latest eventLogCap (rs ++ [m.elog]))) := by
  have above := r.above
  have trims : m.answers.trims = true := (Bool.and_eq_true_iff.mp r.works).2
  have length : (content d (m.fname l) ++ m.elog.1).length =
      (content d (m.fname l)).length + eventLogSize := by
    rw [List.length_append, m.elog.2]
  rw [fsWrite_opened r.opened, if_pos ⟨trims, length ▸ above⟩, held, ← file_concat, drop_file]

private theorem Rewrites.full {l : Layout} {d : Files} {m : Message} (r : Rewrites l d m)
    {rs : List EventLog} (held : content d (m.fname l) = file rs) :
    d (m.fname l) ≠ none ∧ eventLogCap ≤ rs.length := by
  have above := r.above
  rw [held, length_file, ← Nat.mul_succ] at above
  have full : eventLogCap ≤ rs.length := Nat.le_of_lt_succ (Nat.lt_of_mul_lt_mul_left above)
  refine ⟨fun absent => ?_, full⟩
  have empty : file rs = [] := by rw [← held, content, absent]; rfl
  have none : rs.length = 0 := by
    have length := length_file rs
    rw [empty, List.length_nil] at length
    rcases Nat.mul_eq_zero.mp length.symm with zero | zero
    · exact absurd zero (by decide)
    · exact zero
  exact absurd (none ▸ full) (by decide)

private theorem fsWrite_elsewhere (l : Layout) (d : Files) (m : Message) {f : Path}
    (other : f ≠ m.fname l) : ∀ o ∈ fsWrite l d m, o.file ≠ f := by
  intro o member
  cases opened : m.answers.opensAppend with
  | false =>
    rw [fsWrite_closed opened] at member
    cases member
  | true =>
    rw [fsWrite_opened opened] at member
    rcases List.mem_append.mp member with written | trimmed
    · exact appendRecord_elsewhere d other _ o written
    · split_ifs at trimmed
      · rw [file_of_mem_rewrite trimmed]
        exact other.symm
      · cases trimmed

private theorem serve_elsewhere (l : Layout) (d : Files) (m : Message) {f : Path}
    (other : f ≠ m.fname l) : serve l d m f = d f :=
  run_elsewhere (fsWrite_elsewhere l d m other) d

private theorem cut_elsewhere (l : Layout) (d : Files) (m : Message) (j : Nat) {f : Path}
    (other : f ≠ m.fname l) : cut l d m j f = d f :=
  run_elsewhere (fun o member => fsWrite_elsewhere l d m other o (List.mem_of_mem_take member)) d

section

variable {l : Layout} {d : Files} {m : Message} {rs : List EventLog}

private theorem Rewrites.content_serve (r : Rewrites l d m)
    (held : content d (m.fname l) = file rs) :
    content (serve l d m) (m.fname l) = file (latest eventLogCap (rs ++ [m.elog])) := by
  rw [content, serve, r.fsWrite_eq held, run_append, run_rewrite, Option.getD_some]

private theorem content_serve_calm (opened : m.answers.opensAppend = true) (calm : ¬ Rewrites l d m)
    (held : content d (m.fname l) = file rs) :
    content (serve l d m) (m.fname l) = file (rs ++ [m.elog]) := by
  rw [content, serve, fsWrite_calm opened calm, run_appendRecord, held, file_concat,
    Option.getD_some]

private theorem short_of_calm (works : m.answers.works = true) (calm : ¬ Rewrites l d m)
    (held : content d (m.fname l) = file rs) : rs.length < eventLogCap := by
  have below : ¬ eventLogSize * eventLogCap < (content d (m.fname l)).length + eventLogSize :=
    fun above => calm ⟨works, above⟩
  rw [held, length_file, ← Nat.mul_succ] at below
  by_contra full
  exact below (Nat.mul_lt_mul_of_pos_left (by omega) (by decide))

end

/-- The file holds whole records: the newest ones, and no fewer than the cap keeps. -/
def Tracks (d : Files) (f : Path) (h : List EventLog) : Prop :=
  ∃ rs, content d f = file rs ∧ Tail eventLogCap rs h

private theorem appended_concat (l : Layout) (f : Path) (past : List Message) (m : Message) :
    appended l f (past ++ [m]) = appended l f past ++
      if m.answers.opensAppend = true ∧ m.fname l = f then [m.elog] else [] := by
  rw [appended, List.filter_append, List.map_append, ← appended]
  congr 1
  by_cases taken : m.answers.opensAppend = true ∧ m.fname l = f
  · rw [if_pos taken, List.filter_cons_of_pos (by simp [taken])]
    rfl
  · rw [if_neg taken, List.filter_cons_of_neg (by simpa using taken)]
    rfl

private theorem serve_idle {l : Layout} {d : Files} {m : Message} {f : Path}
    (idle : ¬ (m.answers.opensAppend = true ∧ m.fname l = f)) : serve l d m f = d f := by
  by_cases here : f = m.fname l
  · have closed : m.answers.opensAppend = false :=
      Bool.not_eq_true _ ▸ fun opened => idle ⟨opened, here.symm⟩
    rw [serve, fsWrite_closed closed, run_nil]
  · exact serve_elsewhere l d m here

private theorem Tracks.serve {l : Layout} {d : Files} {m : Message} {f : Path} {past : List Message}
    (tracks : Tracks d f (appended l f past)) :
    Tracks (serve l d m) f (appended l f (past ++ [m])) := by
  obtain ⟨rs, held, tail⟩ := tracks
  rw [appended_concat]
  by_cases taken : m.answers.opensAppend = true ∧ m.fname l = f
  · obtain ⟨opened, rfl⟩ := taken
    rw [if_pos ⟨opened, rfl⟩]
    by_cases r : Rewrites l d m
    · exact ⟨_, r.content_serve held, (tail.concat m.elog).newest⟩
    · exact ⟨_, content_serve_calm opened r held, tail.concat m.elog⟩
  · rw [if_neg taken, List.append_nil]
    refine ⟨rs, ?_, tail⟩
    rw [content, serve_idle taken]
    exact held

theorem tracks_run (l : Layout) (f : Path) (past : List Message) :
    Tracks (run (serve l) noFiles past) f (appended l f past) := by
  induction past using List.reverseRecOn with
  | nil => exact ⟨[], rfl, .refl _ []⟩
  | append_singleton past m ih =>
    rw [run_append]
    exact ih.serve

theorem newest_run (l : Layout) (f : Path) {past : List Message}
    (works : ∀ p ∈ past, p.answers.works = true) :
    content (run (serve l) noFiles past) f = file (latest eventLogCap (appended l f past)) := by
  induction past using List.reverseRecOn with
  | nil =>
    have none : (appended l f []).length ≤ eventLogCap := Nat.zero_le _
    rw [latest_of_short none]
    rfl
  | append_singleton past m ih =>
    have held := ih fun p member => works p (List.mem_append_left _ member)
    have mine : m.answers.works = true := works m (by simp)
    have tail := (Tail.refl eventLogCap (appended l f past)).newest
    rw [run_append, run_cons, run_nil, appended_concat]
    by_cases taken : m.answers.opensAppend = true ∧ m.fname l = f
    · obtain ⟨opened, rfl⟩ := taken
      rw [if_pos ⟨opened, rfl⟩, ← (tail.concat m.elog).latest_eq le_rfl]
      by_cases r : Rewrites l (run (serve l) noFiles past) m
      · exact r.content_serve held
      · have short := short_of_calm mine r held
        rw [content_serve_calm opened r held]
        refine congrArg file (latest_of_short ?_).symm
        rw [List.length_append]
        exact short
    · rw [if_neg taken, List.append_nil, content, serve_idle taken]
      exact held

section

variable {l : Layout} {d : Files} {m : Message} {rs : List EventLog}

private theorem cut_calm (calm : ¬ Rewrites l d m) (held : content d (m.fname l) = file rs)
    (j : Nat) :
    ∃ back, content (cut l d m j) (m.fname l) = file rs ++ back := by
  cases opened : m.answers.opensAppend with
  | false =>
    refine ⟨[], ?_⟩
    rw [cut, fsWrite_closed opened, List.take_nil, run_nil, held, List.append_nil]
  | true =>
    rw [cut, fsWrite_calm opened calm, content_appendRecord, held]
    exact ⟨_, rfl⟩

/-- Up to the truncation what the file had stays in it; from then on it holds what is written of the
records that the cap keeps. -/
private theorem Rewrites.content_cut (r : Rewrites l d m) (held : content d (m.fname l) = file rs)
    (j : Nat) :
    content (cut l d m j) (m.fname l) =
      if j ≤ eventLogSize then file rs ++ m.elog.1.take j
      else (file (latest eventLogCap (rs ++ [m.elog]))).take (j - eventLogSize - 1) := by
  have present := (r.full held).1
  have length : (appendRecord (m.fname l) m.elog.1 d).length = eventLogSize := by
    rw [length_appendRecord, if_neg present, Nat.zero_add, m.elog.2]
  rw [cut, r.fsWrite_eq held, List.take_append, run_append, length]
  split_ifs with early
  · rw [Nat.sub_eq_zero_of_le early, List.take_zero, run_nil, content_appendRecord, held,
      if_neg present, Nat.sub_zero]
  · obtain ⟨k, late⟩ : ∃ k, j - eventLogSize = k + 1 := ⟨j - eventLogSize - 1, by omega⟩
    rw [late, take_rewrite, content, run_rewrite, Nat.add_sub_cancel, Option.getD_some]

private theorem latest_cap_concat (full : eventLogCap ≤ rs.length) (x : EventLog) :
    latest eventLogCap (rs ++ [x]) = latest (eventLogCap - 1) rs ++ [x] := by
  have pos : 0 < eventLogCap := by decide
  have first : (rs ++ [x]).length - eventLogCap = rs.length - (eventLogCap - 1) := by
    rw [List.length_append, List.length_singleton]
    omega
  rw [latest, first, List.drop_append_of_le_length (Nat.sub_le _ _), latest]

private theorem Rewrites.holds_iff (r : Rewrites l d m) (held : content d (m.fname l) = file rs)
    (j : Nat) :
    Holds (content (cut l d m j) (m.fname l)) (latest (eventLogCap - 1) rs) ↔
      ¬ (eventLogSize < j ∧ j ≤ eventLogSize + eventLogSize * (eventLogCap - 1)) := by
  have full := (r.full held).2
  have older : (latest (eventLogCap - 1) rs).length = eventLogCap - 1 := by
    rw [length_latest]
    omega
  rw [r.content_cut held, latest_cap_concat full, file_concat]
  split_ifs with early
  · refine iff_of_true (holds_latest _ rs _) ?_
    omega
  constructor
  · rintro holds ⟨truncated, within⟩
    have length := holds.length
    rw [older, List.length_take] at length
    omega
  · intro spared
    have past : (file (latest (eventLogCap - 1) rs)).length ≤ j - eventLogSize - 1 := by
      rw [length_file, older]
      omega
    rw [List.take_append, List.take_of_length_le past]
    exact ⟨[], _, by rw [file_nil, List.nil_append]⟩

end

theorem kept_run (l : Layout) (f : Path) (past : List Message) :
    ∃ rs, content (run (serve l) noFiles past) f = file rs ∧
      latest (eventLogCap - 1) (appended l f past) = latest (eventLogCap - 1) rs := by
  obtain ⟨rs, held, tail⟩ := tracks_run l f past
  exact ⟨rs, held, (tail.latest_eq (Nat.sub_le _ _)).symm⟩

private theorem Lossy.not_upholds {l : Layout} {past : List Message} {m : Message} {j : Nat}
    (lossy : Lossy l (run (serve l) noFiles past) m j) : ¬ Upholds l past m j := by
  intro upholds
  obtain ⟨rs, held, same⟩ := kept_run l (m.fname l) past
  have kept := upholds.kept
  rw [same] at kept
  exact (lossy.rewrites.holds_iff held j).mp kept ⟨lossy.truncated, lossy.early⟩

/-- Every message after any others, whatever fails and wherever the power is lost: the files are as
the law has them unless the power is lost in a rewrite before the file's own records are back. -/
theorem newest_kept_iff (l : Layout) (past : List Message) (m : Message) (j : Nat) :
    Upholds l past m j ↔ ¬ Lossy l (run (serve l) noFiles past) m j := by
  refine ⟨fun upholds lossy => lossy.not_upholds upholds, fun spared => ?_⟩
  refine ⟨fun works f => newest_run l f works, fun opened fails => ?_,
    fun f other => cut_elsewhere l _ m j other, ?_⟩
  · rw [serve, fsWrite_calm opened fun r => ?_]
    have trims := (Bool.and_eq_true_iff.mp r.works).2
    rw [fails] at trims
    cases trims
  · obtain ⟨rs, held, same⟩ := kept_run l (m.fname l) past
    rw [same]
    by_cases r : Rewrites l (run (serve l) noFiles past) m
    · exact (r.holds_iff held j).mpr fun inside => spared ⟨r, inside.1, inside.2⟩
    · obtain ⟨back, content⟩ := cut_calm r held j
      rw [content]
      exact holds_latest _ rs back

/-- An event of July 2026 whose message is served without a failure. -/
def zeroMessage : Message where
  tod := ⟨2026, 7, 1⟩
  elog := ⟨List.replicate eventLogSize 0, List.length_replicate⟩
  answers := ⟨true, true, true, true, true, true, true⟩

private theorem appended_replicate (l : Layout) {m : Message}
    (opened : m.answers.opensAppend = true)
    (n : Nat) : appended l (m.fname l) (List.replicate n m) = List.replicate n m.elog := by
  rw [appended, List.filter_replicate_of_pos (by simp [opened]), List.map_replicate]

/-- The month has its 1024 records; the power is lost right after the file is truncated for the
next one. -/
theorem truncated_not_upheld :
    ¬ Upholds .flat (List.replicate eventLogCap zeroMessage) zeroMessage (eventLogSize + 1) := by
  refine Lossy.not_upholds ⟨⟨rfl, ?_⟩, Nat.lt_succ_self _, ?_⟩
  · have works : ∀ p ∈ List.replicate eventLogCap zeroMessage, p.answers.works = true := by
      intro p member
      rw [List.eq_of_mem_replicate member]
      rfl
    rw [newest_run .flat _ works, appended_replicate .flat rfl, length_file, length_latest,
      List.length_replicate, Nat.min_self]
    decide
  · decide

end SV300.Fs.EventTrim
