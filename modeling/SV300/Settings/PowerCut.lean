/- SV300/Settings/PowerCut
   digest: The save-settings command, cut short at any byte, and what the next boot loads. -/

import SV300.Library.ByteCodec
import SV300.Library.FileRewrite
import SV300.Library.Literals

set_option autoImplicit false
set_option relaxedAutoImplicit false

namespace SV300.Settings.PowerCut

open SV300.Library.ByteCodec SV300.Library.FileRewrite SV300.Library.Runs

abbrev Bytes := List UInt8
abbrev Channel := Fin 3

def channels : List Channel := [0, 1, 2]

/-- `SETTING_FILE`, `ALARM_DEF_FILE`, `PQE_DEF_FILE`. -/
inductive File
  | settings
  | alarmDef
  | pqeDef
  deriving DecidableEq

/-- `sizeof(SETTINGS)`, the registers 7110 to 7787. -/
abbrev settingsSize : Nat := 1356

/-- The offset of `comm.layoutVer`, register 7159. -/
abbrev layoutAt : Nat := 98

def settingsLayoutVer : UInt16 := 0x2610

/-- `sizeof(ALARM_DEF)`. -/
abbrev alarmDefSize : Nat := 392

/-- The registers from `pqevt` up to `almSet`. -/
abbrev pqeSize : Nat := 308

def alarmDefMagic : UInt32 := 0x414c4d44
def pqeDefMagic : UInt32 := 0x50514544

/-- What the command saves. -/
structure Memory where
  setting : Bytes
  almSet : Channel → Bytes
  pqevt : Channel → Bytes
  setting_length : setting.length = settingsSize
  almSet_length : ∀ id, (almSet id).length = alarmDefSize
  pqevt_length : ∀ id, (pqevt id).length = pqeSize

def layoutVer (db : Bytes) : UInt16 := u16.decode ((db.drop layoutAt).take 2)

/-- `db.comm.layoutVer = SETTINGS_LAYOUT_VER`. -/
def fixLayoutVer (db : Bytes) : Bytes :=
  db.take layoutAt ++ u16.encode settingsLayoutVer ++ db.drop (layoutAt + 2)

def defFile (magic : UInt32) (blocks : Channel → Bytes) : Bytes :=
  u32.encode magic ++ channels.flatMap blocks

def contents (m : Memory) : File → Bytes
  | .settings => fixLayoutVer m.setting
  | .alarmDef => defFile alarmDefMagic m.almSet
  | .pqeDef => defFile pqeDefMagic m.pqevt

def store (opens : File → Bool) (m : Memory) (f : File) : List (Op File UInt8) :=
  if opens f then rewrite f (contents m f) else []

def saveSettings (opens : File → Bool) (m : Memory) : List (Op File UInt8) :=
  store opens m .settings

def storeAlarmDef (opens : File → Bool) (m : Memory) : List (Op File UInt8) :=
  store opens m .alarmDef

def storePqeDef (opens : File → Bool) (m : Memory) : List (Op File UInt8) :=
  store opens m .pqeDef

/-- The command of `FS_task`; what it then stores in the FRAM is in no file. -/
def saveCommand (opens : File → Bool) (m : Memory) : List (Op File UInt8) :=
  saveSettings opens m ++ storeAlarmDef opens m ++ storePqeDef opens m

/-- A boot: the factory defaults, what the loader does to the settings whatever it has read, and
what is in memory before the two files of definitions are loaded. -/
structure Boot where
  defaults : Bytes
  finish : Bytes → Bytes
  almSet : Channel → Bytes
  pqevt : Channel → Bytes
  almSet_length : ∀ id, (almSet id).length = alarmDefSize
  pqevt_length : ∀ id, (pqevt id).length = pqeSize

/-- `loadSettings`: whether the file was good, and the settings. -/
def loadSettings (b : Boot) : Option Bytes → Bool × Bytes
  | none => (false, b.finish b.defaults)
  | some db =>
    if db.length ≠ settingsSize then (false, b.finish b.defaults)
    else if layoutVer db ≠ settingsLayoutVer then (false, b.finish b.defaults)
    else (true, b.finish db)

/-- The loop of the loaders over the channels, `short` telling what a short read leaves. -/
def loadBlocks (size : Nat) (short : Bytes → Bytes → Bytes) :
    List Channel → Bytes → (Channel → Bytes) → Bool × (Channel → Bytes)
  | [], _, ram => (true, ram)
  | id :: ids, bs, ram =>
    if bs.length < size then (false, Function.update ram id (short bs (ram id)))
    else loadBlocks size short ids (bs.drop size) (Function.update ram id (bs.take size))

def loadDef (magic : UInt32) (size : Nat) (short : Bytes → Bytes → Bytes) (ram : Channel → Bytes) :
    Option Bytes → Bool × (Channel → Bytes)
  | none => (false, ram)
  | some bs =>
    if bs.length < 4 ∨ u32.decode (bs.take 4) ≠ magic then (false, ram)
    else loadBlocks size short channels (bs.drop 4) ram

/-- `loadAlarmDef` reads a channel into a copy first. -/
def loadAlarmDef (b : Boot) : Option Bytes → Bool × (Channel → Bytes) :=
  loadDef alarmDefMagic alarmDefSize (fun _ old => old) b.almSet

/-- `loadPqeDef` reads it into place. -/
def loadPqeDef (b : Boot) : Option Bytes → Bool × (Channel → Bytes) :=
  loadDef pqeDefMagic pqeSize (fun bs old => bs ++ old.drop bs.length) b.pqevt

/-- The files before the command, each as some memory was saved; those of definitions may not have
been saved yet. -/
structure Saved where
  memory : File → Option Memory
  settings : (memory .settings).isSome

def Saved.disk (s : Saved) : Disk File UInt8 := fun f => (s.memory f).map fun m => contents m f

/-- The disk after `j` of the operations of the command. -/
def cut (s : Saved) (opens : File → Bool) (m : Memory) (j : Nat) : Disk File UInt8 :=
  run apply s.disk ((saveCommand opens m).take j)

def completed (s : Saved) (opens : File → Bool) (m : Memory) : Disk File UInt8 :=
  run apply s.disk (saveCommand opens m)

/-- The next boot loads each file as before the command or as after it, and the settings never from
the factory defaults. -/
structure Kept (b : Boot) (s : Saved) (opens : File → Bool) (m : Memory) (j : Nat) : Prop where
  good : (loadSettings b (cut s opens m j .settings)).1 = true
  settings : loadSettings b (cut s opens m j .settings) = loadSettings b (s.disk .settings) ∨
    loadSettings b (cut s opens m j .settings) = loadSettings b (completed s opens m .settings)
  alarmDef : loadAlarmDef b (cut s opens m j .alarmDef) = loadAlarmDef b (s.disk .alarmDef) ∨
    loadAlarmDef b (cut s opens m j .alarmDef) = loadAlarmDef b (completed s opens m .alarmDef)
  pqeDef : loadPqeDef b (cut s opens m j .pqeDef) = loadPqeDef b (s.disk .pqeDef) ∨
    loadPqeDef b (cut s opens m j .pqeDef) = loadPqeDef b (completed s opens m .pqeDef)

def start (opens : File → Bool) (m : Memory) : File → Nat
  | .settings => 0
  | .alarmDef => (saveSettings opens m).length
  | .pqeDef => (saveSettings opens m ++ storeAlarmDef opens m).length

/-- The power is lost after the file is opened and `k` bytes of it written, but not all. -/
def Inside (opens : File → Bool) (m : Memory) (j : Nat) (f : File) (k : Nat) : Prop :=
  opens f = true ∧ j = start opens m f + 1 + k ∧ k < (contents m f).length

/-- The power is not lost inside a file; at most inside a file of definitions that there was not
before, while what has been written of it that would be loaded is in memory anyway. -/
structure Intact (b : Boot) (s : Saved) (opens : File → Bool) (m : Memory) (j : Nat) : Prop where
  settings : ∀ k, ¬ Inside opens m j .settings k
  alarmDef : ∀ k, Inside opens m j .alarmDef k → s.memory .alarmDef = none ∧
    ∀ id : Channel, 4 + (id.val + 1) * alarmDefSize ≤ k → m.almSet id = b.almSet id
  pqeDef : ∀ k, Inside opens m j .pqeDef k → s.memory .pqeDef = none ∧
    ∀ id : Channel, (m.pqevt id).take (k - 4 - id.val * pqeSize) =
      (b.pqevt id).take (k - 4 - id.val * pqeSize)

theorem length_fixLayoutVer {db : Bytes} (full : db.length = settingsSize) :
    (fixLayoutVer db).length = settingsSize := by
  have two : (u16.encode settingsLayoutVer).length = 2 := u16.length_encode _
  change db.length = 1356 at full
  change (db.take 98 ++ u16.encode settingsLayoutVer ++ db.drop 100).length = 1356
  rw [List.length_append, List.length_append, List.length_take, List.length_drop, two]
  omega

private theorem layoutVer_fixLayoutVer {db : Bytes} (full : db.length = settingsSize) :
    layoutVer (fixLayoutVer db) = settingsLayoutVer := by
  have two : (u16.encode settingsLayoutVer).length = 2 := u16.length_encode _
  have head : (db.take layoutAt).length = layoutAt := by
    rw [List.length_take, full]
    rfl
  rw [layoutVer, fixLayoutVer, List.append_assoc, List.drop_left' head, ← two, List.take_left',
    u16.decode_encode]
  rfl

private theorem loadSettings_saved (b : Boot) (m : Memory) :
    loadSettings b (some (contents m .settings)) = (true, b.finish (contents m .settings)) := by
  have size := length_fixLayoutVer m.setting_length
  have layout := layoutVer_fixLayoutVer m.setting_length
  simp only [loadSettings, contents, size, layout, ne_eq, not_true_eq_false, if_false]

private theorem loadSettings_cut (b : Boot) (m : Memory) {k : Nat}
    (short : k < (contents m .settings).length) :
    (loadSettings b (some ((contents m .settings).take k))).1 = false := by
  have size := length_fixLayoutVer m.setting_length
  have less : ((contents m .settings).take k).length ≠ settingsSize := by
    rw [List.length_take, Nat.min_eq_left (Nat.le_of_lt short), ← size]
    exact Nat.ne_of_lt short
  simp only [loadSettings, if_pos less]

section Blocks

variable {size : Nat} {short : Bytes → Bytes → Bytes} {blocks : Channel → Bytes}

private theorem length_blocks (len : ∀ id, (blocks id).length = size) (ids : List Channel) :
    (ids.flatMap blocks).length = ids.length * size := by
  induction ids with
  | nil => simp
  | cons id ids ih =>
    rw [List.flatMap_cons, List.length_append, len, ih, List.length_cons, Nat.succ_mul,
      Nat.add_comm]

private theorem loadBlocks_other {ids : List Channel} {id : Channel} (other : id ∉ ids) (bs : Bytes)
    (ram : Channel → Bytes) : (loadBlocks size short ids bs ram).2 id = ram id := by
  induction ids generalizing bs ram with
  | nil => rfl
  | cons a ids ih =>
    have apart : id ≠ a := fun same => other (same ▸ List.mem_cons_self)
    rw [loadBlocks]
    split_ifs
    · exact Function.update_of_ne apart ..
    · rw [ih fun later => other (List.mem_cons_of_mem a later), Function.update_of_ne apart]

theorem loadBlocks_done (ids : List Channel) (bs : Bytes) (ram : Channel → Bytes) :
    (loadBlocks size short ids bs ram).1 = decide (ids.length * size ≤ bs.length) := by
  induction ids generalizing bs ram with
  | nil =>
    rw [List.length_nil, Nat.zero_mul]
    rfl
  | cons id ids ih =>
    rw [loadBlocks, List.length_cons, Nat.succ_mul]
    split_ifs with within
    · exact (decide_eq_false (by omega)).symm
    · rw [ih, List.length_drop]
      exact decide_eq_decide.mpr (by omega)

theorem loadBlocks_apply {ids : List Channel} (distinct : ids.Nodup) {i : Nat} {id : Channel}
    (here : ids[i]? = some id) (bs : Bytes) (ram : Channel → Bytes) :
    (loadBlocks size short ids bs ram).2 id =
      if (i + 1) * size ≤ bs.length then (bs.drop (i * size)).take size
      else if i * size ≤ bs.length then short (bs.drop (i * size)) (ram id)
      else ram id := by
  induction ids generalizing i bs ram with
  | nil => cases here
  | cons a ids ih =>
    obtain ⟨absent, rest⟩ := List.nodup_cons.mp distinct
    rw [loadBlocks]
    rcases Nat.lt_or_ge bs.length size with within | past
    · rw [if_pos within]
      dsimp only
      cases i with
      | zero =>
        cases here
        rw [Function.update_self, if_neg (by omega), if_pos (by omega), Nat.zero_mul, List.drop_zero]
      | succ i =>
        have apart : id ≠ a := fun same => absent (same ▸ List.mem_of_getElem? here)
        have beyond : size ≤ (i + 1) * size := Nat.le_mul_of_pos_left size (Nat.succ_pos i)
        rw [Function.update_of_ne apart, if_neg, if_neg (by omega)]
        rw [Nat.succ_mul]
        omega
    · rw [if_neg (Nat.not_lt.mpr past)]
      cases i with
      | zero =>
        cases here
        rw [loadBlocks_other absent, Function.update_self, if_pos (by omega), Nat.zero_mul,
          List.drop_zero]
      | succ i =>
        have apart : id ≠ a := fun same => absent (same ▸ List.mem_of_getElem? here)
        rw [ih rest here, Function.update_of_ne apart, List.length_drop, List.drop_drop,
          Nat.add_comm size, ← Nat.succ_mul]
        have whole : (i + 1) * size ≤ bs.length - size ↔ (i + 1 + 1) * size ≤ bs.length := by
          rw [Nat.succ_mul (i + 1)]
          omega
        have begun : i * size ≤ bs.length - size ↔ (i + 1) * size ≤ bs.length := by
          rw [Nat.succ_mul i]
          omega
        simp only [whole, begun, Nat.succ_eq_add_one]

private theorem drop_blocks (len : ∀ id, (blocks id).length = size) {ids : List Channel} {i : Nat}
    {id : Channel} (here : ids[i]? = some id) :
    (ids.flatMap blocks).drop (i * size) = blocks id ++ (ids.drop (i + 1)).flatMap blocks := by
  induction ids generalizing i with
  | nil => cases here
  | cons a ids ih =>
    cases i with
    | zero =>
      cases here
      rw [Nat.zero_mul, List.drop_zero, List.flatMap_cons, Nat.zero_add, List.drop_succ_cons,
        List.drop_zero]
    | succ i =>
      rw [List.flatMap_cons, Nat.succ_mul, Nat.add_comm, ← List.drop_drop, List.drop_left' (len a),
        ih here, List.drop_succ_cons]

private theorem loadBlocks_take (len : ∀ id, (blocks id).length = size) {ids : List Channel}
    (distinct : ids.Nodup) {i : Nat} {id : Channel} (here : ids[i]? = some id) (k : Nat)
    (ram : Channel → Bytes) :
    (loadBlocks size short ids ((ids.flatMap blocks).take k) ram).2 id =
      if (i + 1) * size ≤ k then blocks id
      else if i * size ≤ k then short ((blocks id).take (k - i * size)) (ram id)
      else ram id := by
  have inside : (i + 1) * size ≤ ids.length * size :=
    Nat.mul_le_mul_right size (List.getElem?_eq_some_iff.mp here).1
  have next : (i + 1) * size = i * size + size := Nat.succ_mul i size
  rw [loadBlocks_apply distinct here, List.length_take, length_blocks len, List.drop_take,
    drop_blocks len here]
  have whole : (i + 1) * size ≤ min k (ids.length * size) ↔ (i + 1) * size ≤ k := by omega
  have begun : i * size ≤ min k (ids.length * size) ↔ i * size ≤ k := by omega
  simp only [whole, begun]
  split_ifs with all some
  · rw [List.take_take, Nat.min_eq_left (by omega), List.take_left' (len id)]
  · rw [List.take_append_of_le_length (by rw [len]; omega)]
  · rfl

end Blocks

theorem channels_get (id : Channel) : channels[id.val]? = some id := by
  revert id
  decide

section Definitions

variable {magic : UInt32} {size : Nat} {short : Bytes → Bytes → Bytes} {blocks : Channel → Bytes}

theorem length_defFile (len : ∀ id, (blocks id).length = size) :
    (defFile magic blocks).length = 4 + 3 * size := by
  have four : (u32.encode magic).length = 4 := u32.length_encode _
  rw [defFile, List.length_append, four, length_blocks len]
  rfl

private theorem loadDef_take (ram : Channel → Bytes) {k : Nat} (past : 4 ≤ k) :
    loadDef magic size short ram (some ((defFile magic blocks).take k)) =
      loadBlocks size short channels ((channels.flatMap blocks).take (k - 4)) ram := by
  have four : (u32.encode magic).length = 4 := u32.length_encode _
  have head : ((defFile magic blocks).take k).take 4 = u32.encode magic := by
    rw [List.take_take, Nat.min_eq_left past, defFile, List.take_left' four]
  have tail : ((defFile magic blocks).take k).drop 4 = (channels.flatMap blocks).take (k - 4) := by
    rw [List.drop_take, defFile, List.drop_left' four]
  have long : ¬ ((defFile magic blocks).take k).length < 4 := by
    rw [List.length_take, defFile, List.length_append, four]
    omega
  simp only [loadDef, head, tail, long, u32.decode_encode, ne_eq, not_true_eq_false, or_self,
    if_false]

theorem loadDef_saved (len : ∀ id, (blocks id).length = size) (ram : Channel → Bytes) :
    loadDef magic size short ram (some (defFile magic blocks)) = (true, blocks) := by
  have whole : (defFile magic blocks).take (4 + 3 * size) = defFile magic blocks := by
    rw [← length_defFile len, List.take_length]
  have all : (channels.flatMap blocks).take (4 + 3 * size - 4) = channels.flatMap blocks := by
    rw [Nat.add_sub_cancel_left]
    exact List.take_of_length_le (Nat.le_of_eq (length_blocks len channels))
  rw [← whole, loadDef_take ram (Nat.le_add_right ..), all]
  have done : (loadBlocks size short channels (channels.flatMap blocks) ram).1 = true := by
    rw [loadBlocks_done, length_blocks len]
    exact decide_eq_true (Nat.le_refl _)
  refine Prod.ext done ?_
  ext1 id
  have taken := @loadBlocks_take size short blocks len channels (by decide) id.val id
    (channels_get id) (3 * size) ram
  rw [Nat.add_sub_cancel_left] at all
  have fits : (id.val + 1) * size ≤ 3 * size := Nat.mul_le_mul_right size id.isLt
  rw [all, if_pos fits] at taken
  exact taken

private theorem loadDef_short (len : ∀ id, (blocks id).length = size) (ram : Channel → Bytes)
    {k : Nat} (less : k < (defFile magic blocks).length) :
    (loadDef magic size short ram (some ((defFile magic blocks).take k))).1 = false := by
  rw [length_defFile len] at less
  rcases Nat.lt_or_ge k 4 with within | past
  · have few : ((defFile magic blocks).take k).length < 4 := by
      rw [List.length_take]
      omega
    simp only [loadDef, few, true_or, if_true]
  · rw [loadDef_take ram past, loadBlocks_done, List.length_take, length_blocks len]
    change decide (3 * size ≤ _) = false
    exact decide_eq_false (by omega)

private theorem loadDef_none_iff (len : ∀ id, (blocks id).length = size) (ram : Channel → Bytes)
    {k : Nat} (less : k < (defFile magic blocks).length) :
    loadDef magic size short ram (some ((defFile magic blocks).take k)) =
        loadDef magic size short ram none ↔
      4 ≤ k → ∀ id : Channel,
        (if (id.val + 1) * size ≤ k - 4 then blocks id
          else if id.val * size ≤ k - 4 then
            short ((blocks id).take (k - 4 - id.val * size)) (ram id)
          else ram id) = ram id := by
  have failed := @loadDef_short magic size short blocks len ram k less
  rcases Nat.lt_or_ge k 4 with within | past
  · have few : ((defFile magic blocks).take k).length < 4 := by
      rw [List.length_take]
      omega
    refine ⟨fun _ past => absurd past (Nat.not_le.mpr within), fun _ => ?_⟩
    simp only [loadDef, few, true_or, if_true]
  · rw [loadDef_take ram past] at failed ⊢
    have memory := fun id : Channel =>
      @loadBlocks_take size short blocks len channels (by decide) id.val id (channels_get id)
        (k - 4) ram
    constructor
    · intro same _ id
      rw [← memory id, same]
      rfl
    · intro same
      refine Prod.ext failed ?_
      ext1 id
      rw [memory id]
      exact same past id

end Definitions

section Cut

variable {s : Saved} {opens : File → Bool} {m : Memory} {j : Nat} {f : File}

private theorem file_of_mem_store {o : Op File UInt8} (member : o ∈ store opens m f) :
    o.file = f := by
  rw [store] at member
  split_ifs at member
  · exact file_of_mem_rewrite member
  · cases member

private theorem saveCommand_split (opens : File → Bool) (m : Memory) (f : File) :
    ∃ before after, saveCommand opens m = before ++ store opens m f ++ after ∧
      before.length = start opens m f ∧ (∀ o ∈ before, o.file ≠ f) ∧ ∀ o ∈ after, o.file ≠ f := by
  have other : ∀ g, g ≠ f → ∀ o ∈ store opens m g, o.file ≠ f := by
    intro g differ o member
    rw [file_of_mem_store member]
    exact differ
  cases f with
  | settings =>
    refine ⟨[], storeAlarmDef opens m ++ storePqeDef opens m, List.append_assoc .., rfl, nofun, ?_⟩
    intro o member
    rcases List.mem_append.mp member with alarm | pqe
    · exact other .alarmDef nofun o alarm
    · exact other .pqeDef nofun o pqe
  | alarmDef =>
    exact ⟨saveSettings opens m, storePqeDef opens m, rfl, rfl, other .settings nofun,
      other .pqeDef nofun⟩
  | pqeDef =>
    refine ⟨saveSettings opens m ++ storeAlarmDef opens m, [], (List.append_nil _).symm, rfl, ?_,
      nofun⟩
    intro o member
    rcases List.mem_append.mp member with settings | alarm
    · exact other .settings nofun o settings
    · exact other .alarmDef nofun o alarm

private theorem cut_opened (opened : opens f = true) : cut s opens m j f =
    if j ≤ start opens m f then s.disk f
    else some ((contents m f).take (j - start opens m f - 1)) := by
  obtain ⟨before, after, split_, len, other_before, other_after⟩ := saveCommand_split opens m f
  rw [cut, split_, store, if_pos opened, run_cut s.disk f _ other_before other_after, len]

private theorem completed_opened (opened : opens f = true) :
    completed s opens m f = some (contents m f) := by
  obtain ⟨before, after, split_, -, -, other_after⟩ := saveCommand_split opens m f
  rw [completed, split_, store, if_pos opened, run_append, run_elsewhere other_after, run_append,
    run_rewrite]

private theorem cut_closed (closed : opens f = false) : cut s opens m j f = s.disk f := by
  obtain ⟨before, after, split_, -, other_before, other_after⟩ := saveCommand_split opens m f
  apply run_elsewhere
  intro o member
  have among := List.mem_of_mem_take member
  rw [split_, store, closed, if_neg Bool.false_ne_true, List.append_nil] at among
  rcases List.mem_append.mp among with early | late
  · exact other_before o early
  · exact other_after o late

private theorem cut_inside {k : Nat} (inside : Inside opens m j f k) :
    cut s opens m j f = some ((contents m f).take k) := by
  obtain ⟨opened, rfl, -⟩ := inside
  rw [cut_opened opened, if_neg (by omega)]
  congr 2
  omega

private theorem cut_outside (outside : ∀ k, ¬ Inside opens m j f k) :
    cut s opens m j f = s.disk f ∨ cut s opens m j f = completed s opens m f := by
  cases opened : opens f with
  | false => exact .inl (cut_closed opened)
  | true =>
    rw [cut_opened opened, completed_opened opened]
    split_ifs with before
    · exact .inl rfl
    · refine .inr (congrArg some (List.take_of_length_le ?_))
      by_contra within
      exact outside (j - start opens m f - 1) ⟨opened, by omega, Nat.lt_of_not_le within⟩

end Cut

private theorem loadSettings_old (b : Boot) (s : Saved) :
    (loadSettings b (s.disk .settings)).1 = true := by
  obtain ⟨m, there⟩ := Option.isSome_iff_exists.mp s.settings
  rw [Saved.disk, there, Option.map_some, loadSettings_saved]

private theorem loadSettings_new (b : Boot) (s : Saved) (opens : File → Bool) (m : Memory) :
    (loadSettings b (completed s opens m .settings)).1 = true := by
  cases opened : opens .settings with
  | false =>
    have whole : completed s opens m = cut s opens m (saveCommand opens m).length := by
      rw [completed, cut, List.take_length]
    rw [whole, cut_closed opened]
    exact loadSettings_old b s
  | true => rw [completed_opened opened, loadSettings_saved]

section Definitions

variable {s : Saved} {opens : File → Bool} {m : Memory} {j : Nat} {f : File} {magic : UInt32}
  {size : Nat} {short : Bytes → Bytes → Bytes} {blocks : Memory → Channel → Bytes}

/-- A file of definitions loads as before the command or as after it exactly if the cut is not in
it, or there was none and what is read of it changes nothing. -/
private theorem loadDef_iff (file : ∀ n, contents n f = defFile magic (blocks n))
    (len : ∀ n id, (blocks n id).length = size) (ram : Channel → Bytes) :
    (loadDef magic size short ram (cut s opens m j f) =
        loadDef magic size short ram (s.disk f) ∨
      loadDef magic size short ram (cut s opens m j f) =
        loadDef magic size short ram (completed s opens m f)) ↔
    ∀ k, Inside opens m j f k → s.memory f = none ∧
      (4 ≤ k → ∀ id : Channel,
        (if (id.val + 1) * size ≤ k - 4 then blocks m id
          else if id.val * size ≤ k - 4 then
            short ((blocks m id).take (k - 4 - id.val * size)) (ram id)
          else ram id) = ram id) := by
  constructor
  · intro loads k inside
    have less := inside.2.2
    rw [file] at less
    have failed := @loadDef_short magic size short (blocks m) (len m) ram k less
    rw [cut_inside inside, completed_opened inside.1, file] at loads
    rcases loads with old | new
    · cases there : s.memory f with
      | none =>
        rw [Saved.disk, there] at old
        exact ⟨rfl, (loadDef_none_iff (len m) ram less).mp old⟩
      | some n =>
        rw [Saved.disk, there, Option.map_some, file n, loadDef_saved (len n)] at old
        rw [old] at failed
        cases failed
    · rw [loadDef_saved (len m)] at new
      rw [new] at failed
      cases failed
  · intro intact
    by_cases some : ∃ k, Inside opens m j f k
    · obtain ⟨k, inside⟩ := some
      obtain ⟨absent, same⟩ := intact k inside
      have less := inside.2.2
      rw [file] at less
      refine .inl ?_
      rw [cut_inside inside, file, Saved.disk, absent]
      exact (loadDef_none_iff (len m) ram less).mpr same
    · rcases cut_outside (s := s) (not_exists.mp some) with old | new
      · exact .inl (congrArg _ old)
      · exact .inr (congrArg _ new)

end Definitions

private theorem settings_iff (b : Boot) (s : Saved) (opens : File → Bool) (m : Memory) (j : Nat) :
    ((loadSettings b (cut s opens m j .settings)).1 = true ∧
      (loadSettings b (cut s opens m j .settings) = loadSettings b (s.disk .settings) ∨
        loadSettings b (cut s opens m j .settings) =
          loadSettings b (completed s opens m .settings))) ↔
    ∀ k, ¬ Inside opens m j .settings k := by
  constructor
  · intro ⟨good, _⟩ k inside
    rw [cut_inside inside, loadSettings_cut b m inside.2.2] at good
    cases good
  · intro outside
    rcases cut_outside (s := s) outside with old | new
    · rw [old]
      exact ⟨loadSettings_old b s, .inl rfl⟩
    · rw [new]
      exact ⟨loadSettings_new b s opens m, .inr rfl⟩

private theorem alarmDef_iff (b : Boot) (s : Saved) (opens : File → Bool) (m : Memory) (j : Nat) :
    (loadAlarmDef b (cut s opens m j .alarmDef) = loadAlarmDef b (s.disk .alarmDef) ∨
      loadAlarmDef b (cut s opens m j .alarmDef) =
        loadAlarmDef b (completed s opens m .alarmDef)) ↔
    ∀ k, Inside opens m j .alarmDef k → s.memory .alarmDef = none ∧
      ∀ id : Channel, 4 + (id.val + 1) * alarmDefSize ≤ k → m.almSet id = b.almSet id := by
  refine (loadDef_iff (fun _ => rfl) Memory.almSet_length b.almSet).trans ?_
  refine forall_congr' fun k => imp_congr_right fun _ => and_congr_right fun _ => ?_
  constructor
  · intro same id whole
    have read := same (Nat.le_trans (Nat.le_add_right ..) whole) id
    rwa [if_pos (Nat.le_sub_of_add_le' whole)] at read
  · intro same past id
    split_ifs with whole
    · exact same id (by omega)
    · rfl
    · rfl

private theorem short_eq_iff (new old : Bytes) (n : Nat) (within : n ≤ new.length) :
    new.take n ++ old.drop (new.take n).length = old ↔ new.take n = old.take n := by
  rw [List.length_take, Nat.min_eq_left within]
  constructor
  · intro same
    have head := congrArg (List.take n) same
    rwa [List.take_left' (by rw [List.length_take, Nat.min_eq_left within])] at head
  · intro same
    rw [same, List.take_append_drop]

private theorem pqeDef_iff (b : Boot) (s : Saved) (opens : File → Bool) (m : Memory) (j : Nat) :
    (loadPqeDef b (cut s opens m j .pqeDef) = loadPqeDef b (s.disk .pqeDef) ∨
      loadPqeDef b (cut s opens m j .pqeDef) = loadPqeDef b (completed s opens m .pqeDef)) ↔
    ∀ k, Inside opens m j .pqeDef k → s.memory .pqeDef = none ∧
      ∀ id : Channel, (m.pqevt id).take (k - 4 - id.val * pqeSize) =
        (b.pqevt id).take (k - 4 - id.val * pqeSize) := by
  refine (loadDef_iff (fun _ => rfl) Memory.pqevt_length b.pqevt).trans ?_
  refine forall_congr' fun k => imp_congr_right fun _ => and_congr_right fun _ => ?_
  have each : 4 ≤ k → ∀ id : Channel,
      ((if (id.val + 1) * pqeSize ≤ k - 4 then m.pqevt id
        else if id.val * pqeSize ≤ k - 4 then
          (m.pqevt id).take (k - 4 - id.val * pqeSize) ++ (b.pqevt id).drop
            ((m.pqevt id).take (k - 4 - id.val * pqeSize)).length
        else b.pqevt id) = b.pqevt id ↔
      (m.pqevt id).take (k - 4 - id.val * pqeSize) =
        (b.pqevt id).take (k - 4 - id.val * pqeSize)) := by
    intro past id
    have new := m.pqevt_length id
    have old := b.pqevt_length id
    split_ifs with whole begun
    · have all : pqeSize ≤ k - 4 - id.val * pqeSize := by
        rw [Nat.succ_mul] at whole
        omega
      rw [List.take_of_length_le (by rwa [new]), List.take_of_length_le (by rwa [old])]
    · apply short_eq_iff
      rw [Nat.succ_mul] at whole
      omega
    · have none_ : k - 4 - id.val * pqeSize = 0 := by omega
      rw [none_, List.take_zero, List.take_zero]
      exact iff_of_true rfl rfl
  constructor
  · intro same id
    rcases Nat.lt_or_ge k 4 with within | past
    · have none_ : k - 4 - id.val * pqeSize = 0 := by omega
      rw [none_, List.take_zero, List.take_zero]
    · exact (each past id).mp (same past id)
  · exact fun same past id => (each past id).mpr (same id)

/-- The next boot loads old or new exactly if the power is not lost inside a file. -/
theorem kept_iff (b : Boot) (s : Saved) (opens : File → Bool) (m : Memory) (j : Nat) :
    Kept b s opens m j ↔ Intact b s opens m j := by
  constructor
  · intro kept
    exact ⟨(settings_iff b s opens m j).mp ⟨kept.good, kept.settings⟩,
      (alarmDef_iff b s opens m j).mp kept.alarmDef, (pqeDef_iff b s opens m j).mp kept.pqeDef⟩
  · intro intact
    obtain ⟨good, settings⟩ := (settings_iff b s opens m j).mpr intact.settings
    exact ⟨good, settings, (alarmDef_iff b s opens m j).mpr intact.alarmDef,
      (pqeDef_iff b s opens m j).mpr intact.pqeDef⟩

def zeroMemory : Memory where
  setting := List.replicate settingsSize 0
  almSet := fun _ => List.replicate alarmDefSize 0
  pqevt := fun _ => List.replicate pqeSize 0
  setting_length := List.length_replicate
  almSet_length := fun _ => List.length_replicate
  pqevt_length := fun _ => List.length_replicate

def zeroBoot : Boot where
  defaults := List.replicate settingsSize 0
  finish := id
  almSet := zeroMemory.almSet
  pqevt := zeroMemory.pqevt
  almSet_length := zeroMemory.almSet_length
  pqevt_length := zeroMemory.pqevt_length

/-- The power is lost as soon as the settings file is opened. -/
theorem truncated_not_kept : ¬ Kept zeroBoot ⟨fun _ => some zeroMemory, rfl⟩ (fun _ => true)
    zeroMemory 1 := by
  intro kept
  have good := kept.good
  have emptied : cut ⟨fun _ => some zeroMemory, rfl⟩ (fun _ => true) zeroMemory 1 .settings =
      some [] :=
    cut_opened rfl
  rw [emptied] at good
  cases good

end SV300.Settings.PowerCut
