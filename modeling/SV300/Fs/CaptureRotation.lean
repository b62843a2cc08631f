/- SV300/Fs/CaptureRotation
   digest: The two groups of capture files, of which FS_task keeps the most recent hundred each. -/

import SV300.Fs.CaptureName
import SV300.Fs.Directory
import SV300.Library.Newest
import SV300.Library.Runs
import SV300.Rms.HalfCycles

set_option autoImplicit false
set_option relaxedAutoImplicit false

namespace SV300.Fs.CaptureRotation

open SV300.Detect.PqEvent (EventType)
open SV300.Fs.CaptureName
open SV300.Fs.Directory (File Mask fdelete)
open SV300.Fs.Wave (getTrgFileName)
open SV300.Library.Decimal
open SV300.Library.Newest
open SV300.Library.Runs

/-- The two builds: folders are heads of names in a flat file system, or real ones. -/
inductive Layout
  | flat | fat
  deriving DecidableEq

namespace Layout

/-- `TRG_PQ_DIR`. -/
def trgPqDir : Layout → List Char
  | flat => "tpq".toList
  | fat => "\\trg_pq".toList

def dirsep : Layout → List Char
  | flat => "_".toList
  | fat => "\\".toList

/-- `TRG_PQ_PREFIX_STR`. -/
def trgPqPrefix (l : Layout) : List Char := l.trgPqDir ++ l.dirsep

end Layout

inductive Group
  | W | D
  deriving DecidableEq

def Group.letter : Group → List Char
  | W => "W".toList
  | D => "D".toList

/-- `TRG_PQ_W_PREFIX` and `TRG_PQ_D_PREFIX`. -/
def groupPrefix (l : Layout) (g : Group) : List Char := l.trgPqPrefix ++ g.letter

/-- `TRG_PQ_W_MASK` and `TRG_PQ_D_MASK`. -/
def groupMask (l : Layout) (g : Group) : Mask := ⟨groupPrefix l g, ".d".toList⟩

/-- `CAP_W_FX` and `CAP_D_FX`. -/
def capFx : Group → List (List Char)
  | .W => ["WSAG_".toList, "WSWL_".toList, "WOC_".toList, "WINT_".toList]
  | .D => ["DSAG_".toList, "DSWL_".toList, "DOC_".toList, "DINT_".toList]

def capKeepEvents : Nat := 100

def capStripDir (l : Layout) (nm : List Char) : List Char :=
  if l.trgPqPrefix.isPrefixOf nm then nm.drop l.trgPqPrefix.length else nm

def capNameInGroup (l : Layout) (nm : List Char) (fx : List (List Char)) : Bool :=
  fx.any fun f => f.isPrefixOf (capStripDir l nm)

/-- From the first digit on; the whole name if there is none. -/
def capTsPart (nm : List Char) : List Char :=
  match nm.dropWhile fun c => !isDigit c with
  | [] => nm
  | p => p

variable {C : Type}

/-- `info.name`: the whole name in the flat file system, the name in its folder in the other. -/
def infoName (l : Layout) (path : List Char) : Option (List Char) :=
  match l with
  | .flat => some path
  | .fat =>
    let name := path.drop l.trgPqPrefix.length
    if '\\' ∈ name then none else some name

/-- The names that `ffind` gives one after the other, for a mask in the folder of captures. -/
def ffind (l : Layout) (mask : Mask) (files : List (File C)) : List (List Char) :=
  (files.map File.name).filterMap fun path => if mask.hits path then infoName l path else none

/-- Paths are compared character by character. -/
instance pathLawfulBEq : LawfulBEq (List Char) := inferInstance

/-- `fopen` in mode `wb`, `fwrite` and `fclose`: a new file, or new contents of one. -/
def rewrite (path : List Char) (body : C) (files : List (File C)) : List (File C) :=
  if path ∈ files.map File.name then files.map fun f => if f.name = path then ⟨path, body⟩ else f
  else files ++ [⟨path, body⟩]

/-- The order in which a search comes upon the files. -/
structure Listing (C : Type) where
  order : List (File C) → List (File C)
  perm : ∀ files, (order files).Perm files

/-- The variables of the search in `trimCaptureGroup`. -/
structure Search where
  oldest : List Char
  count : Nat
  found : Bool

def Search.visit (l : Layout) (fx : List (List Char)) (s : Search) (nm : List Char) : Search :=
  if !capNameInGroup l nm fx then s
  else
    { oldest := if !s.found || decide (capTsPart nm < capTsPart s.oldest) then nm else s.oldest
      count := s.count + 1
      found := true }

def search (l : Layout) (fx : List (List Char)) (names : List (List Char)) : Search :=
  names.foldl (Search.visit l fx) ⟨[], 0, false⟩

def oldestPath (l : Layout) (dir oldest : List Char) : List Char :=
  if l.trgPqPrefix.isPrefixOf oldest then oldest else dir ++ l.dirsep ++ oldest

def trimCaptureGroup (l : Layout) (o : Listing C) (mask : Mask) (dir : List Char)
    (fx : List (List Char)) (keepN : Nat) (files : List (File C)) : List (File C) :=
  let s := search l fx (ffind l mask (o.order files))
  if s.found && decide (s.count > keepN) then fdelete (oldestPath l dir s.oldest) files else files

/-- The last branch of `FS_task`, for a message with a payload in mode `wb`. -/
def fsWrite (l : Layout) (o : Listing C) (opened : Bool) (fname : List Char) (payload : C)
    (files : List (File C)) : List (File C) :=
  if opened then
    let files := rewrite fname payload files
    if (groupPrefix l .W).isPrefixOf fname then
      trimCaptureGroup l o (groupMask l .W) l.trgPqDir (capFx .W) capKeepEvents files
    else if (groupPrefix l .D).isPrefixOf fname then
      trimCaptureGroup l o (groupMask l .D) l.trgPqDir (capFx .D) capKeepEvents files
    else files
  else files

inductive Kind
  | sag | swell | oc | intr
  deriving DecidableEq

/-- What `wavePreCaptureLF` and `RMSCapture` put between the folder and the time. -/
def kindName : Group → Kind → List Char
  | .W, .sag => "WSAG_".toList
  | .W, .swell => "WSWL_".toList
  | .W, .oc => "WOC_".toList
  | .W, .intr => "WINT_".toList
  | .D, .sag => "DSAG_".toList
  | .D, .swell => "DSWL_".toList
  | .D, .oc => "DOC_".toList
  | .D, .intr => "DINT_".toList

def title (l : Layout) (g : Group) (k : Kind) : String :=
  String.ofList (l.trgPqPrefix ++ kindName g k)

/-- A capture: its group, the kind of its event and the event's time. -/
structure Capture where
  group : Group
  kind : Kind
  ts : UInt64
  timely : Timely ts
  deriving DecidableEq

def Capture.time (c : Capture) : Nat := c.ts.toNat

def Capture.path (l : Layout) (c : Capture) : List Char :=
  (getTrgFileName (title l c.group c.kind) c.ts).toList

def kindOf : EventType → Kind
  | .E_SAG => .sag
  | .E_SWELL => .swell
  | .E_OC => .oc
  | .E_sINTR | .E_lINTR => .intr

def Capture.name (c : Capture) : List Char := kindName c.group c.kind ++ stamp c.ts

variable {l : Layout} {g : Group} {c : Capture}

private theorem path_eq (l : Layout) (c : Capture) : c.path l = l.trgPqPrefix ++ c.name := by
  rw [Capture.path, getTrgFileName_toList, title, String.toList_ofList, List.append_assoc]
  rfl

private theorem path_ahead (l : Layout) (c : Capture) :
    l.trgPqPrefix.isPrefixOf (c.path l) = true := by
  rw [path_eq, List.isPrefixOf_iff_prefix]
  exact List.prefix_append _ _

private theorem kindName_cases (g : Group) (k : Kind) :
    kindName g k ∈ capFx g ∧ (∃ rest, kindName g k = g.letter ++ rest) ∧
      (kindName g k).all (fun c => !isDigit c) = true ∧ '\\' ∉ kindName g k := by
  refine ⟨?_, ⟨(kindName g k).drop 1, ?_⟩, ?_, ?_⟩ <;> cases g <;> cases k <;> decide

private theorem kindName_apart {g h : Group} {j k : Kind}
    (part : (kindName g j).isPrefixOf (kindName h k) = true) : g = h ∧ j = k := by
  revert part
  cases g <;> cases h <;> cases j <;> cases k <;> decide

private theorem path_inj {c d : Capture} (same : c.path l = d.path l) : c = d := by
  rw [path_eq, path_eq] at same
  have names : kindName c.group c.kind ++ stamp c.ts = kindName d.group d.kind ++ stamp d.ts :=
    List.append_cancel_left same
  have kinds : c.group = d.group ∧ c.kind = d.kind := by
    rcases List.prefix_or_prefix_of_prefix ⟨_, names⟩ ⟨_, rfl⟩ with part | part
    · exact kindName_apart (List.isPrefixOf_iff_prefix.mpr part)
    · exact (kindName_apart (List.isPrefixOf_iff_prefix.mpr part)).imp Eq.symm Eq.symm
  rw [kinds.1, kinds.2] at names
  have times := stamp_inj c.timely d.timely (List.append_cancel_left names)
  cases c
  cases d
  simp_all

private theorem groupPrefix_path (l : Layout) (c : Capture) (g : Group) :
    (groupPrefix l g).isPrefixOf (c.path l) = decide (g = c.group) := by
  obtain ⟨_, ⟨rest, letter⟩, _⟩ := kindName_cases c.group c.kind
  rw [path_eq, Capture.name, letter, groupPrefix, Bool.eq_iff_iff, List.isPrefixOf_iff_prefix,
    List.prefix_append_right_inj, decide_eq_true_eq]
  cases g <;> cases c.group <;> simp [Group.letter]

private theorem groupMask_hits (l : Layout) (c : Capture) :
    (groupMask l c.group).hits (c.path l) = true := by
  obtain ⟨_, ⟨rest, letter⟩, _⟩ := kindName_cases c.group c.kind
  obtain ⟨early, suffix⟩ := stamp_suffix c.ts
  have tail : (c.path l).drop (groupPrefix l c.group).length = rest ++ stamp c.ts := by
    rw [path_eq, Capture.name, letter, groupPrefix, List.append_assoc, ← List.append_assoc]
    exact List.drop_left
  rw [Mask.hits, Bool.and_eq_true]
  refine ⟨(groupPrefix_path l c _).trans (decide_eq_true rfl), ?_⟩
  rw [List.isSuffixOf_iff_suffix]
  show ".d".toList <:+ (c.path l).drop (groupPrefix l c.group).length
  rw [tail]
  exact (stamp_suffix c.ts).trans (List.suffix_append _ _)

/-- What `info.name` is for a capture. -/
def Capture.info (l : Layout) (c : Capture) : List Char :=
  match l with
  | .flat => c.path .flat
  | .fat => c.name

private theorem infoName_path (l : Layout) (c : Capture) :
    infoName l (c.path l) = some (c.info l) := by
  cases l with
  | flat => rfl
  | fat =>
    have rest : (c.path .fat).drop Layout.fat.trgPqPrefix.length = c.name := by
      rw [path_eq, List.drop_left]
    have plain : '\\' ∉ c.name := by
      rw [Capture.name, List.mem_append, not_or]
      exact ⟨(kindName_cases _ _).2.2.2, stamp_plain c.ts⟩
    rw [infoName, rest, if_neg plain]
    rfl

private theorem name_inside (c : Capture) : Layout.fat.trgPqPrefix.isPrefixOf c.name = false := by
  rw [Capture.name]
  cases c.group <;> cases c.kind <;> rfl

private theorem capStripDir_info (l : Layout) (c : Capture) :
    capStripDir l (c.info l) = c.name := by
  cases l with
  | flat => rw [capStripDir, Capture.info, if_pos (path_ahead .flat c), path_eq, List.drop_left]
  | fat => rw [capStripDir, Capture.info, name_inside, if_neg Bool.false_ne_true]

private theorem capNameInGroup_info (l : Layout) (c : Capture) :
    capNameInGroup l (c.info l) (capFx c.group) = true := by
  rw [capNameInGroup, capStripDir_info, List.any_eq_true]
  refine ⟨kindName c.group c.kind, (kindName_cases _ _).1, ?_⟩
  rw [List.isPrefixOf_iff_prefix]
  exact List.prefix_append _ _

private theorem capTsPart_append {ahead : List Char}
    (letters : ahead.all (fun c => !isDigit c) = true)
    (ts : UInt64) : capTsPart (ahead ++ stamp ts) = stamp ts := by
  obtain ⟨c, rest, first, digit⟩ := stamp_digit ts
  have passed : (ahead ++ stamp ts).dropWhile (fun c => !isDigit c) = stamp ts := by
    rw [List.dropWhile_append_of_pos (List.all_eq_true.mp letters), first,
      List.dropWhile_cons_of_neg (by rw [digit]; decide)]
  rw [capTsPart, passed, first]

private theorem capTsPart_info (l : Layout) (c : Capture) : capTsPart (c.info l) = stamp c.ts := by
  have letters := (kindName_cases c.group c.kind).2.2.1
  cases l with
  | flat =>
    rw [Capture.info, path_eq, Capture.name, ← List.append_assoc]
    refine capTsPart_append ?_ c.ts
    rw [List.all_append, letters, Bool.and_true]
    decide
  | fat => exact capTsPart_append letters c.ts

private theorem oldestPath_info (l : Layout) (c : Capture) :
    oldestPath l l.trgPqDir (c.info l) = c.path l := by
  cases l with
  | flat => rw [oldestPath, Capture.info, if_pos (path_ahead .flat c)]
  | fat =>
    rw [oldestPath, Capture.info, name_inside, if_neg Bool.false_ne_true, path_eq]
    rfl

def members (l : Layout) (fx names : List (List Char)) : List (List Char) :=
  names.filter fun nm => capNameInGroup l nm fx

/-- The search has seen the names. -/
structure Seen (l : Layout) (fx names : List (List Char)) (s : Search) : Prop where
  count : s.count = (members l fx names).length
  found : s.found = false → members l fx names = []
  oldest : s.found = true → s.oldest ∈ members l fx names ∧
    ∀ nm ∈ members l fx names, ¬ capTsPart nm < capTsPart s.oldest

theorem Seen.visit {fx names : List (List Char)} {s : Search} (seen : Seen l fx names s)
    (nm : List Char) : Seen l fx (names ++ [nm]) (s.visit l fx nm) := by
  have next : members l fx (names ++ [nm]) =
      members l fx names ++ bif capNameInGroup l nm fx then [nm] else [] := by
    rw [members, List.filter_append, List.filter_singleton]
    rfl
  unfold Search.visit
  cases member : capNameInGroup l nm fx with
  | false =>
    rw [member, cond_false, List.append_nil] at next
    exact ⟨next ▸ seen.count, next ▸ seen.found, next ▸ seen.oldest⟩
  | true =>
    rw [member, cond_true] at next
    refine ⟨?_, nofun, fun _ => ?_⟩
    · rw [next, List.length_append, ← seen.count]
      rfl
    · rw [next]
      cases before : s.found with
      | false =>
        rw [seen.found before]
        refine ⟨List.mem_singleton.mpr rfl, fun x inside => ?_⟩
        rw [List.mem_singleton.mp inside]
        exact List.lt_irrefl _
      | true =>
        obtain ⟨inside, least⟩ := seen.oldest before
        by_cases older : capTsPart nm < capTsPart s.oldest
        · simp only [Bool.not_true, Bool.false_or, decide_eq_true older, if_true]
          refine ⟨List.mem_append_right _ (List.mem_singleton.mpr rfl), fun x inside earlier => ?_⟩
          rcases List.mem_append.mp inside with old | new
          · exact least x old (List.lt_trans earlier older)
          · rw [List.mem_singleton.mp new] at earlier
            exact List.lt_irrefl _ earlier
        · simp only [Bool.not_true, Bool.false_or, decide_eq_false older, if_neg Bool.false_ne_true]
          refine ⟨List.mem_append_left _ inside, fun x inside => ?_⟩
          rcases List.mem_append.mp inside with old | new
          · exact least x old
          · rwa [List.mem_singleton.mp new]

private theorem search_seen (l : Layout) (fx names : List (List Char)) :
    Seen l fx names (search l fx names) := by
  induction names using List.reverseRecOn with
  | nil => exact ⟨rfl, fun _ => rfl, nofun⟩
  | append_singleton names nm ih =>
    rw [search, List.foldl_append]
    exact ih.visit nm

def names (files : List (File C)) : List (List Char) := files.map File.name

def ofGroup (ever : Finset Capture) (g : Group) : Finset Capture := ever.filter fun c => c.group = g

def held (l : Layout) (ever : Finset Capture) (files : List (File C)) (g : Group) :
    Finset Capture :=
  ever.filter fun c => c.group = g ∧ c.path l ∈ names files

/-- A path that the rotation of a group counts. -/
def Counted (l : Layout) (g : Group) (path : List Char) : Prop :=
  (groupMask l g).hits path = true ∧
    ∃ nm, infoName l path = some nm ∧ capNameInGroup l nm (capFx g) = true

/-- No two files have one name, and what the rotation counts are captures. -/
structure Known (l : Layout) (ever : Finset Capture) (files : List (File C)) : Prop where
  distinct : (names files).Nodup
  counted : ∀ path ∈ names files, ∀ g, Counted l g path → ∃ c ∈ ever, c.group = g ∧ c.path l = path

variable {ever : Finset Capture} {files : List (File C)}

private theorem mem_held {d : Capture} :
    d ∈ held l ever files g ↔ d ∈ ever ∧ d.group = g ∧ d.path l ∈ names files :=
  Finset.mem_filter

private theorem counted_path (l : Layout) (c : Capture) (g : Group) :
    Counted l g (c.path l) ↔ g = c.group := by
  constructor
  · rintro ⟨hits, _⟩
    have ahead := (Bool.and_eq_true_iff.mp hits).1
    exact of_decide_eq_true ((groupPrefix_path l c g).symm.trans ahead)
  · rintro rfl
    exact ⟨groupMask_hits l c, c.info l, infoName_path l c, capNameInGroup_info l c⟩

private theorem info_inj {c d : Capture} (same : c.info l = d.info l) : c = d := by
  cases l with
  | flat => exact path_inj same
  | fat => exact path_inj (l := .fat) (by rw [path_eq, path_eq]; exact congrArg _ same)

def shown (l : Layout) (o : Listing C) (g : Group) (files : List (File C)) : List (List Char) :=
  members l (capFx g) (ffind l (groupMask l g) (o.order files))

private theorem infoName_inj {p q nm : List Char} (hitp : (groupMask l g).hits p = true)
    (hitq : (groupMask l g).hits q = true) (infop : infoName l p = some nm)
    (infoq : infoName l q = some nm) : p = q := by
  have folder {r : List Char} (hit : (groupMask l g).hits r = true) : l.trgPqPrefix <+: r :=
    (List.prefix_append _ _).trans (List.isPrefixOf_iff_prefix.mp (Bool.and_eq_true_iff.mp hit).1)
  cases l with
  | flat => exact Option.some.inj (infop.trans infoq.symm)
  | fat =>
    obtain ⟨restp, rfl⟩ := folder hitp
    obtain ⟨restq, rfl⟩ := folder hitq
    rw [infoName, List.drop_left] at infop infoq
    split_ifs at infop infoq
    rw [Option.some.inj infop, Option.some.inj infoq]

private theorem mem_ffind {mask : Mask} {nm : List Char} :
    nm ∈ ffind l mask files ↔
      ∃ path ∈ names files, mask.hits path = true ∧ infoName l path = some nm := by
  rw [ffind, List.mem_filterMap]
  refine exists_congr fun path => and_congr_right fun _ => ?_
  cases mask.hits path <;> simp

private theorem shown_nodup (known : Known l ever files) (o : Listing C) (g : Group) :
    (shown l o g files).Nodup := by
  have distinct : (names (o.order files)).Nodup :=
    ((o.perm files).map File.name).nodup_iff.mpr known.distinct
  refine List.Nodup.filter _ (distinct.filterMap fun p q nm inp inq => ?_)
  rw [Option.mem_def] at inp inq
  split_ifs at inp inq with hitp hitq
  exact infoName_inj hitp hitq inp inq

private theorem mem_shown (known : Known l ever files) (o : Listing C) {nm : List Char} :
    nm ∈ shown l o g files ↔ ∃ c ∈ held l ever files g, c.info l = nm := by
  have same (path : List Char) : path ∈ names (o.order files) ↔ path ∈ names files :=
    ((o.perm files).map File.name).mem_iff
  rw [shown, members, List.mem_filter, mem_ffind]
  constructor
  · rintro ⟨⟨path, inside, hits, info⟩, member⟩
    obtain ⟨c, old, group, rfl⟩ :=
      known.counted path ((same path).mp inside) g ⟨hits, nm, info, member⟩
    refine ⟨c, mem_held.mpr ⟨old, group, (same _).mp inside⟩, ?_⟩
    exact Option.some.inj ((infoName_path l c).symm.trans info)
  · rintro ⟨c, inside, rfl⟩
    obtain ⟨_, rfl, file⟩ := mem_held.mp inside
    exact ⟨⟨c.path l, (same _).mpr file, groupMask_hits l c, infoName_path l c⟩,
      capNameInGroup_info l c⟩

private theorem shown_length (known : Known l ever files) (o : Listing C) (g : Group) :
    (shown l o g files).length = (held l ever files g).card := by
  have image : (shown l o g files).toFinset = (held l ever files g).image (Capture.info l) := by
    ext nm
    rw [List.mem_toFinset, mem_shown known, Finset.mem_image]
  rw [← List.toFinset_card_of_nodup (shown_nodup known o g), image,
    Finset.card_image_of_injOn fun _ _ _ _ => info_inj]

/-- The rotation deletes an oldest capture of its group if there are too many, and nothing else. -/
theorem trimCaptureGroup_spec (known : Known l ever files) (o : Listing C) (g : Group)
    (keepN : Nat) :
    (held l ever files g).card ≤ keepN ∧
        trimCaptureGroup l o (groupMask l g) l.trgPqDir (capFx g) keepN files = files ∨
      keepN < (held l ever files g).card ∧
        ∃ x ∈ held l ever files g, (∀ b ∈ held l ever files g, x.time ≤ b.time) ∧
          trimCaptureGroup l o (groupMask l g) l.trgPqDir (capFx g) keepN files =
            fdelete (x.path l) files := by
  have seen := search_seen l (capFx g) (ffind l (groupMask l g) (o.order files))
  have count := seen.count.trans (shown_length known o g)
  rw [trimCaptureGroup]
  generalize search l (capFx g) (ffind l (groupMask l g) (o.order files)) = t at *
  by_cases excess : (held l ever files g).card > keepN
  · have found : t.found = true := by
      by_contra none
      have empty := seen.found (Bool.eq_false_iff.mpr none)
      rw [← shown_length known o g, shown, empty] at excess
      exact Nat.not_lt_zero _ excess
    obtain ⟨inside, least⟩ := seen.oldest found
    obtain ⟨x, kept, info⟩ := (mem_shown known o).mp inside
    refine .inr ⟨excess, x, kept, fun b other => ?_, ?_⟩
    · by_contra later
      have before := stamp_lt x.timely (Nat.lt_of_not_le later)
      refine least _ ((mem_shown known o).mpr ⟨b, other, rfl⟩) ?_
      rwa [← info, capTsPart_info, capTsPart_info]
    · rw [found, count, decide_eq_true excess, Bool.and_self, if_pos rfl, ← info, oldestPath_info]
  · refine .inl ⟨Nat.le_of_not_lt excess, if_neg ?_⟩
    rw [count, decide_eq_false excess, Bool.and_false]
    exact Bool.false_ne_true

/-- Of an over-current in January and a sag in September the former goes. -/
example :
    (trimCaptureGroup .fat ⟨id, fun _ => .refl _⟩ (groupMask .fat .W) (Layout.trgPqDir .fat)
      (capFx .W) 1
      [⟨"\\trg_pq\\WSAG_20260920T101112_003.d".toList, 1⟩,
        ⟨"\\trg_pq\\WOC_20260101T000000_000.d".toList, 2⟩,
        ⟨"\\trg_pq\\DOC_20250101T000000_000.d".toList, 3⟩]).map File.body = [1, 3] := by
  decide

private theorem names_rewrite_eq (path : List Char) (payload : C) (files : List (File C)) :
    names (rewrite path payload files) =
      if path ∈ names files then names files else names files ++ [path] := by
  unfold rewrite names
  split_ifs
  · rw [List.map_map]
    refine List.map_congr_left fun f _ => ?_
    by_cases same : f.name = path
    · rw [Function.comp_apply, if_pos same, same]
    · rw [Function.comp_apply, if_neg same]
  · exact List.map_append

private theorem names_rewrite {path : List Char} (payload : C) {p : List Char} :
    p ∈ names (rewrite path payload files) ↔ p = path ∨ p ∈ names files := by
  rw [names_rewrite_eq]
  split_ifs with old
  · exact ⟨.inr, fun either => either.elim (fun same => same ▸ old) id⟩
  · rw [List.mem_append, List.mem_singleton, or_comm]

private theorem rewrite_nodup (distinct : (names files).Nodup) (path : List Char) (payload : C) :
    (names (rewrite path payload files)).Nodup := by
  rw [names_rewrite_eq]
  split_ifs with old
  · exact distinct
  · exact List.nodup_append.mpr ⟨distinct, List.nodup_singleton path, fun p inside q last same =>
      old (List.mem_singleton.mp last ▸ same ▸ inside)⟩

private theorem names_fdelete {path p : List Char} :
    p ∈ names (fdelete path files) ↔ p ≠ path ∧ p ∈ names files := by
  unfold names fdelete
  simp only [List.mem_map, List.mem_filter, decide_eq_true_eq]
  constructor
  · rintro ⟨f, ⟨inside, other⟩, rfl⟩
    exact ⟨other, f, inside, rfl⟩
  · rintro ⟨other, f, inside, rfl⟩
    exact ⟨f, ⟨inside, other⟩, rfl⟩

theorem Known.rewrite (known : Known l ever files) (c : Capture) (payload : C) :
    Known l (insert c ever) (rewrite (c.path l) payload files) where
  distinct := rewrite_nodup known.distinct _ _
  counted p inside g member := by
    rcases (names_rewrite payload).mp inside with same | old
    · rw [same] at member
      exact ⟨c, Finset.mem_insert_self c ever, ((counted_path l c g).mp member).symm, same.symm⟩
    · obtain ⟨d, before, rest⟩ := known.counted p old g member
      exact ⟨d, Finset.mem_insert_of_mem before, rest⟩

theorem Known.fdelete (known : Known l ever files) (path : List Char) :
    Known l ever (fdelete path files) where
  distinct := (List.filter_sublist.map File.name).nodup known.distinct
  counted p inside := known.counted p (names_fdelete.mp inside).2

private theorem held_rewrite (c : Capture) (payload : C) (g : Group) :
    held l (insert c ever) (rewrite (c.path l) payload files) g =
      if c.group = g then insert c (held l ever files g) else held l ever files g := by
  ext d
  rw [mem_held, Finset.mem_insert, names_rewrite]
  by_cases same : d = c
  · subst same
    by_cases group : d.group = g
    · rw [if_pos group]
      exact iff_of_true ⟨.inl rfl, group, .inl rfl⟩ (Finset.mem_insert_self d _)
    · rw [if_neg group]
      exact iff_of_false (fun all => group all.2.1) fun inside => group (mem_held.mp inside).2.1
  · have apart : d.path l ≠ c.path l := fun paths => same (path_inj paths)
    have here : d ∈ (if c.group = g then insert c (held l ever files g) else held l ever files g) ↔
        d ∈ held l ever files g := by
      split_ifs
      · rw [Finset.mem_insert, or_iff_right same]
      · rfl
    rw [here, mem_held, or_iff_right same, or_iff_right apart]

private theorem held_fdelete (x : Capture) (g : Group) :
    held l ever (fdelete (x.path l) files) g = (held l ever files g).erase x := by
  ext d
  have apart : d.path l ≠ x.path l ↔ d ≠ x :=
    not_congr ⟨path_inj, fun same => congrArg _ same⟩
  rw [mem_held, Finset.mem_erase, mem_held, names_fdelete, apart]
  constructor
  · rintro ⟨old, group, other, file⟩
    exact ⟨other, old, group, file⟩
  · rintro ⟨other, old, group, file⟩
    exact ⟨old, group, other, file⟩

private theorem ofGroup_insert (c : Capture) (g : Group) :
    ofGroup (insert c ever) g =
      if c.group = g then insert c (ofGroup ever g) else ofGroup ever g := by
  unfold ofGroup
  exact Finset.filter_insert _ _ _

private theorem group_of_insert {c x : Capture}
    (inside : x ∈ insert c (held l ever files c.group)) :
    x.group = c.group := by
  rcases Finset.mem_insert.mp inside with rfl | kept
  · rfl
  · exact (mem_held.mp kept).2.1

private theorem mem_rewrite {path : List Char} {payload : C} {f : File C}
    (inside : f ∈ rewrite path payload files) : f ∈ files ∨ f = ⟨path, payload⟩ := by
  unfold rewrite at inside
  split_ifs at inside
  · obtain ⟨e, old, rfl⟩ := List.mem_map.mp inside
    split_ifs
    · exact .inr rfl
    · exact .inl old
  · exact (List.mem_append.mp inside).imp_right List.mem_singleton.mp

private theorem mem_rewrite_of_ne {path : List Char} {payload : C} {f : File C} (inside : f ∈ files)
    (other : f.name ≠ path) : f ∈ rewrite path payload files := by
  unfold rewrite
  split_ifs
  · exact List.mem_map.mpr ⟨f, inside, if_neg other⟩
  · exact List.mem_append_left _ inside

/-- All captures since the start and the files of those that are kept. -/
structure Sys (C : Type) where
  files : List (File C)
  ever : Finset Capture

/-- A message for a capture: whether its file opens, and the order of the search that follows. -/
structure Write (C : Type) where
  capture : Capture
  payload : C
  opened : Bool
  listing : Listing C

def step (l : Layout) (s : Sys C) (w : Write C) : Sys C where
  files := fsWrite l w.listing w.opened (w.capture.path l) w.payload s.files
  ever := if w.opened then insert w.capture s.ever else s.ever

structure Inv (l : Layout) (s : Sys C) : Prop where
  known : Known l s.ever s.files
  newest : ∀ g, Keeps capKeepEvents Capture.time (ofGroup s.ever g) (held l s.ever s.files g)

/-- A message keeps the most recent captures of each group; it deletes no file but a capture of its
own group, and writes none but its own. -/
structure Law (l : Layout) (s : Sys C) (w : Write C) : Prop where
  newest : ∀ g, Keeps capKeepEvents Capture.time (ofGroup (step l s w).ever g)
    (held l (step l s w).ever (step l s w).files g)
  all : ∀ c : Capture, c.path l ∈ names (step l s w).files → c ∈ (step l s w).ever
  others : ∀ f ∈ s.files, (∀ c : Capture, c.group = w.capture.group → c.path l ≠ f.name) →
    f ∈ (step l s w).files
  own : ∀ f ∈ (step l s w).files, f ∈ s.files ∨ f = ⟨w.capture.path l, w.payload⟩

private theorem fsWrite_path (l : Layout) (o : Listing C) (c : Capture) (payload : C)
    (files : List (File C)) :
    fsWrite l o true (c.path l) payload files =
      trimCaptureGroup l o (groupMask l c.group) l.trgPqDir (capFx c.group) capKeepEvents
        (rewrite (c.path l) payload files) := by
  unfold fsWrite
  rw [groupPrefix_path, groupPrefix_path]
  cases c.group <;> rfl

private theorem step_cases {s : Sys C} (known : Known l s.ever s.files) (w : Write C) :
    step l s w = s ∨
      (∃ all, all = insert w.capture (held l s.ever s.files w.capture.group) ∧
        (all.card ≤ capKeepEvents ∧
            step l s w = ⟨rewrite (w.capture.path l) w.payload s.files,
              insert w.capture s.ever⟩ ∨
          capKeepEvents < all.card ∧ ∃ x ∈ all, (∀ b ∈ all, x.time ≤ b.time) ∧
            step l s w = ⟨fdelete (x.path l) (rewrite (w.capture.path l) w.payload s.files),
              insert w.capture s.ever⟩)) := by
  unfold step
  cases w.opened with
  | false => exact .inl rfl
  | true =>
    refine .inr ⟨_, rfl, ?_⟩
    have spec := trimCaptureGroup_spec (known.rewrite w.capture w.payload) w.listing
      w.capture.group capKeepEvents
    rw [held_rewrite, if_pos rfl, ← fsWrite_path] at spec
    rcases spec with ⟨room, same⟩ | ⟨excess, x, inside, oldest, gone⟩
    · exact .inl ⟨room, by rw [same]; rfl⟩
    · exact .inr ⟨excess, x, inside, oldest, by rw [gone]; rfl⟩

private theorem inv_step {s : Sys C} (inv : Inv l s) (w : Write C) : Inv l (step l s w) := by
  have known := inv.known.rewrite w.capture w.payload
  rcases step_cases inv.known w with
    same | ⟨all, rfl, ⟨room, same⟩ | ⟨excess, x, inside, oldest, same⟩⟩
  · rwa [same]
  · rw [same]
    refine ⟨known, fun g => ?_⟩
    rw [ofGroup_insert, held_rewrite]
    split_ifs with group
    · subst group
      exact (inv.newest _).add room
    · exact inv.newest g
  · rw [same]
    refine ⟨known.fdelete _, fun g => ?_⟩
    rw [held_fdelete, ofGroup_insert, held_rewrite]
    split_ifs with group
    · subst group
      exact (inv.newest _).exchange excess inside oldest
    · have other : x ∉ held l s.ever s.files g := fun here =>
        group ((group_of_insert inside).symm.trans (mem_held.mp here).2.1)
      rw [Finset.erase_eq_of_notMem other]
      exact inv.newest g

theorem Known.all {s : Sys C} (known : Known l s.ever s.files) {c : Capture}
    (file : c.path l ∈ names s.files) : c ∈ s.ever := by
  obtain ⟨d, old, _, paths⟩ := known.counted _ file c.group ((counted_path l c _).mpr rfl)
  exact path_inj paths ▸ old

private theorem step_others {s : Sys C} (known : Known l s.ever s.files) (w : Write C) {f : File C}
    (inside : f ∈ s.files)
    (foreign : ∀ c : Capture, c.group = w.capture.group → c.path l ≠ f.name) :
    f ∈ (step l s w).files := by
  have stays : f ∈ rewrite (w.capture.path l) w.payload s.files :=
    mem_rewrite_of_ne inside (foreign w.capture rfl).symm
  rcases step_cases known w with same | ⟨all, rfl, ⟨_, same⟩ | ⟨_, x, kept, _, same⟩⟩
  · rwa [same]
  · rwa [same]
  · rw [same]
    exact List.mem_filter.mpr ⟨stays, decide_eq_true (foreign x (group_of_insert kept)).symm⟩

private theorem step_own {s : Sys C} (known : Known l s.ever s.files) (w : Write C) {f : File C}
    (inside : f ∈ (step l s w).files) :
    f ∈ s.files ∨ f = ⟨w.capture.path l, w.payload⟩ := by
  rcases step_cases known w with same | ⟨all, rfl, ⟨_, same⟩ | ⟨_, x, _, _, same⟩⟩
  · exact .inl (same ▸ inside)
  · rw [same] at inside
    exact mem_rewrite inside
  · rw [same] at inside
    exact mem_rewrite (List.mem_filter.mp inside).1

private theorem law_of_inv {s : Sys C} (inv : Inv l s) (w : Write C) : Law l s w where
  newest := (inv_step inv w).newest
  all _ := (inv_step inv w).known.all
  others _ := step_others inv.known w
  own _ := step_own inv.known w

/-- A folder of captures: its files, of which those that the rotation counts are captures, at most
as many in each group as are kept. -/
structure Content (l : Layout) (C : Type) where
  files : List (File C)
  captures : Finset Capture
  known : Known l captures files
  present : ∀ c ∈ captures, c.path l ∈ names files
  few : ∀ g, (ofGroup captures g).card ≤ capKeepEvents

def start (d : Content l C) : Sys C := ⟨d.files, d.captures⟩

private theorem inv_start (d : Content l C) : Inv l (start d) where
  known := d.known
  newest g := by
    have whole : held l d.captures d.files g = ofGroup d.captures g :=
      Finset.filter_congr fun c inside => and_iff_left (d.present c inside)
    rw [start, whole]
    exact keeps_self (d.few g)

/-- Whatever the folder holds at first and whichever captures are written, after each write the
hundred most recent captures of each group are kept and no other file is deleted. -/
theorem most_recent_kept (d : Content l C) (ws : List (Write C)) :
    Along (step l) (Law l) (start d) ws :=
  along_always (I := Inv l) (fun _ w inv => inv_step inv w) (fun _ w inv => law_of_inv inv w)
    (inv_start d) ws

private theorem names_append (files more : List (File C)) :
    names (files ++ more) = names files ++ names more :=
  List.map_append

private theorem names_captures (l : Layout) (captures : List Capture) (body : C) :
    names (captures.map fun c => (⟨c.path l, body⟩ : File C)) = captures.map (Capture.path l) := by
  unfold names
  simp only [List.map_map, Function.comp_def]

/-- A folder of captures, with files of other kinds beside them. -/
def folder (l : Layout) (captures : List Capture) (once : captures.Nodup)
    (few : ∀ g, (ofGroup ⟨captures, once⟩ g).card ≤ capKeepEvents) (body : C)
    (others : List (File C)) (distinct : (names others).Nodup)
    (apart : ∀ path ∈ names others, ∀ g, ¬ Counted l g path) : Content l C where
  files := captures.map (fun c => ⟨c.path l, body⟩) ++ others
  captures := ⟨captures, once⟩
  known := by
    refine ⟨?_, ?_⟩
    · rw [names_append, names_captures, List.nodup_append]
      refine ⟨once.map fun _ _ => path_inj, distinct, ?_⟩
      rintro p inside q other rfl
      obtain ⟨c, _, rfl⟩ := List.mem_map.mp inside
      exact apart _ other c.group ((counted_path l c _).mpr rfl)
    · intro path inside g counted
      rw [names_append, names_captures] at inside
      rcases List.mem_append.mp inside with capture | other
      · obtain ⟨c, here, rfl⟩ := List.mem_map.mp capture
        exact ⟨c, here, ((counted_path l c g).mp counted).symm, rfl⟩
      · exact absurd counted (apart path other g)
  present c inside := by
    rw [names_append, names_captures]
    exact List.mem_append_left _ (List.mem_map_of_mem inside)
  few := few

/-- The capture of an event so many seconds into the year. -/
def captureAt (g : Group) (k : Kind) (second : Fin 1000) : Capture where
  group := g
  kind := k
  ts := UInt64.ofNat (1767225600000 + 1000 * second.val)
  timely := by
    have small : 1767225600000 + 1000 * second.val < 2 ^ 32 * 1000 := by omega
    rw [Timely, UInt64.toNat_ofNat_of_lt' (lt_trans small (by decide))]
    exact small

def note : File Nat := ⟨"\\trg_pq\\WNOTE.d".toList, 7⟩

private theorem note_uncounted (g : Group) : ¬ Counted .fat g note.name := by
  rintro ⟨_, nm, info, member⟩
  cases info
  cases g <;> exact absurd member (by decide)

private theorem note_foreign (c : Capture) : c.path .fat ≠ note.name :=
  fun same => note_uncounted c.group (same ▸ (counted_path .fat c c.group).mpr rfl)

/-- A hundred sags' waves, a swell's half cycles, and a file whose name only begins like theirs. -/
def fullFolder : Content .fat Nat :=
  folder .fat ((List.range 100).map (fun i => captureAt .W .sag (Fin.ofNat 1000 i)) ++
      [captureAt .D .swell 0]) (by decide +kernel)
    (by intro g; cases g <;> decide +kernel) 0 [note] (List.nodup_singleton _)
    (fun _ inside g => List.mem_singleton.mp inside ▸ note_uncounted g)

def writeOf (c : Capture) : Write Nat := ⟨c, 1, true, ⟨id, fun _ => .refl _⟩⟩

/-- One wave more than are kept, of an interruption, and one more file of half cycles. -/
def twoWrites : List (Write Nat) :=
  [writeOf (captureAt .W .intr 500), writeOf (captureAt .D .intr 500)]

/-- The oldest of 101 waves goes; the half cycles and the other file stay. -/
theorem oldest_wave_deleted :
    let last := run (step .fat) (start fullFolder) twoWrites
    (captureAt .W .sag 0).path .fat ∉ names last.files ∧
      (captureAt .D .swell 0).path .fat ∈ names last.files ∧
      (captureAt .D .intr 500).path .fat ∈ names last.files ∧ note ∈ last.files := by
  intro last
  obtain ⟨first, second, -⟩ := most_recent_kept fullFolder twoWrites
  have ever : last.ever = insert (captureAt .D .intr 500)
      (insert (captureAt .W .intr 500) fullFolder.captures) := rfl
  have waves : Keeps capKeepEvents Capture.time (ofGroup last.ever .W)
      (held .fat last.ever last.files .W) := second.newest .W
  have cycles : Keeps capKeepEvents Capture.time (ofGroup last.ever .D)
      (held .fat last.ever last.files .D) := second.newest .D
  rw [ever] at waves cycles
  have old : captureAt .W .sag 0 ∉ held .fat last.ever last.files .W :=
    waves.oldest_gone (by decide +kernel) (by decide +kernel)
  have all := cycles.all (by decide +kernel)
  have stored (c : Capture) (inside : c ∈ ofGroup last.ever .D) : c.path .fat ∈ names last.files := by
    rw [ever, ← all] at inside
    exact (mem_held.mp inside).2.2
  refine ⟨fun file => old (mem_held.mpr ⟨?_, rfl, file⟩), stored _ ?_, stored _ ?_, ?_⟩
  · rw [ever]
    decide +kernel
  · rw [ever]
    decide +kernel
  · rw [ever]
    decide +kernel
  · have here : note ∈ fullFolder.files :=
      List.mem_append_right _ (List.mem_singleton.mpr rfl)
    exact second.others note (first.others note here fun c _ => note_foreign c)
      fun c _ => note_foreign c

end SV300.Fs.CaptureRotation
