/- SV300/Settings/Loads
   digest: When the loaders of the definition files load all channels or leave all as they were. -/

import SV300.Settings.PowerCut

set_option autoImplicit false
set_option relaxedAutoImplicit false

namespace SV300.Settings.Loads

open SV300.Library.ByteCodec SV300.Settings.PowerCut

def part (size : Nat) (bs : Bytes) (id : Channel) : Bytes := (bs.drop (4 + id.val * size)).take size

/-- The loader takes the magic number. -/
def Headed (magic : UInt32) (bs : Bytes) : Prop := 4 ≤ bs.length ∧ u32.decode (bs.take 4) = magic

/-- A load that fails changes no channel; one that succeeds gives each its part of the file. -/
structure AllOrNothing (size : Nat) (ram : Channel → Bytes) (file : Option Bytes)
    (r : Bool × (Channel → Bytes)) : Prop where
  failed : r.1 = false → r.2 = ram
  loaded : r.1 = true → ∃ bs, file = some bs ∧
    ∀ id, (part size bs id).length = size ∧ r.2 id = part size bs id

/-- A file with the magic number that is too short for three channels. -/
def Short (magic : UInt32) (size : Nat) (file : Option Bytes) (bs : Bytes) : Prop :=
  file = some bs ∧ Headed magic bs ∧ bs.length < 4 + 3 * size

/-- The whole parts of such a file are in memory already. -/
def AlarmHarmless (b : Boot) (file : Option Bytes) : Prop :=
  ∀ bs, Short alarmDefMagic alarmDefSize file bs →
    ∀ id, (part alarmDefSize bs id).length = alarmDefSize → part alarmDefSize bs id = b.almSet id

/-- Its bytes are. -/
def PqeHarmless (b : Boot) (file : Option Bytes) : Prop :=
  ∀ bs, Short pqeDefMagic pqeSize file bs → ∀ id, part pqeSize bs id <+: b.pqevt id

private theorem length_part (size : Nat) (bs : Bytes) (id : Channel) :
    (part size bs id).length = min size (bs.length - (4 + id.val * size)) := by
  rw [part, List.length_take, List.length_drop]

section Definitions

variable {magic : UInt32} {size : Nat} {short : Bytes → Bytes → Bytes} {ram : Channel → Bytes}

private theorem loadDef_headed {bs : Bytes} (headed : Headed magic bs) :
    loadDef magic size short ram (some bs) =
      loadBlocks size short channels (bs.drop 4) ram := by
  have read : ¬ (bs.length < 4 ∨ u32.decode (bs.take 4) ≠ magic) := by
    rintro (few | other)
    · exact absurd headed.1 (Nat.not_le.mpr few)
    · exact other headed.2
  exact if_neg read

private theorem loadDef_unheaded {bs : Bytes} (unheaded : ¬ Headed magic bs) :
    loadDef magic size short ram (some bs) = (false, ram) := by
  apply if_pos
  by_contra read
  obtain ⟨enough, same⟩ := not_or.mp read
  exact unheaded ⟨Nat.not_lt.mp enough, not_not.mp same⟩

private theorem loadDef_apply {bs : Bytes} (headed : Headed magic bs) (id : Channel) :
    (loadDef magic size short ram (some bs)).2 id =
      if 4 + (id.val + 1) * size ≤ bs.length then part size bs id
      else if 4 + id.val * size ≤ bs.length then short (part size bs id) (ram id)
      else ram id := by
  have four := headed.1
  have next : (id.val + 1) * size = id.val * size + size := Nat.succ_mul ..
  have whole : (id.val + 1) * size ≤ bs.length - 4 ↔ 4 + (id.val + 1) * size ≤ bs.length := by omega
  have begun : id.val * size ≤ bs.length - 4 ↔ 4 + id.val * size ≤ bs.length := by omega
  rw [loadDef_headed headed, loadBlocks_apply (by decide) (channels_get id), List.length_drop,
    List.drop_drop]
  simp only [whole, begun]
  split_ifs with all some
  · rfl
  · rw [part, List.take_of_length_le]
    rw [List.length_drop]
    omega
  · rfl

private theorem loadDef_done {bs : Bytes} (headed : Headed magic bs) :
    (loadDef magic size short ram (some bs)).1 = decide (4 + 3 * size ≤ bs.length) := by
  have four := headed.1
  rw [loadDef_headed headed, loadBlocks_done, List.length_drop]
  change decide (3 * size ≤ bs.length - 4) = _
  exact decide_eq_decide.mpr (by omega)

private theorem allOrNothing_iff_short (file : Option Bytes) :
    AllOrNothing size ram file (loadDef magic size short ram file) ↔
      ∀ bs, Short magic size file bs → ∀ id,
        (if 4 + (id.val + 1) * size ≤ bs.length then part size bs id
          else if 4 + id.val * size ≤ bs.length then short (part size bs id) (ram id)
          else ram id) = ram id := by
  constructor
  · rintro law bs ⟨rfl, headed, few⟩ id
    have failed : (loadDef magic size short ram (some bs)).1 = false := by
      rw [loadDef_done headed]
      exact decide_eq_false (Nat.not_le.mpr few)
    rw [← loadDef_apply headed, law.failed failed]
  · intro same
    cases file with
    | none => exact ⟨fun _ => rfl, nofun⟩
    | some bs =>
      by_cases headed : Headed magic bs
      · rcases Nat.lt_or_ge bs.length (4 + 3 * size) with few | all
        · constructor
          · intro _
            ext1 id
            rw [loadDef_apply headed, same bs ⟨rfl, headed, few⟩ id]
          · intro done
            rw [loadDef_done headed, decide_eq_true_iff] at done
            exact absurd done (Nat.not_le.mpr few)
        · constructor
          · intro failed
            rw [loadDef_done headed, decide_eq_false_iff_not] at failed
            exact absurd all failed
          · intro _
            refine ⟨bs, rfl, fun id => ?_⟩
            have last : (id.val + 1) * size ≤ 3 * size := Nat.mul_le_mul_right size id.isLt
            have next : (id.val + 1) * size = id.val * size + size := Nat.succ_mul ..
            rw [loadDef_apply headed, if_pos (by omega), length_part]
            exact ⟨Nat.min_eq_left (by omega), rfl⟩
      · rw [loadDef_unheaded headed]
        exact ⟨fun _ => rfl, nofun⟩

end Definitions

private theorem alarm_iff (b : Boot) (file : Option Bytes) :
    AllOrNothing alarmDefSize b.almSet file (loadAlarmDef b file) ↔ AlarmHarmless b file := by
  refine (allOrNothing_iff_short file).trans ?_
  refine forall_congr' fun bs => imp_congr_right fun short => forall_congr' fun id => ?_
  have four := short.2.1.1
  have next : (id.val + 1) * alarmDefSize = id.val * alarmDefSize + alarmDefSize := Nat.succ_mul ..
  have some : 0 < alarmDefSize := by decide
  have whole : (part alarmDefSize bs id).length = alarmDefSize ↔
      4 + (id.val + 1) * alarmDefSize ≤ bs.length := by
    rw [length_part]
    omega
  rw [whole]
  split_ifs with all some
  · exact (imp_iff_right all).symm
  · exact iff_of_true rfl fun all' => absurd all' all
  · exact iff_of_true rfl fun all' => absurd all' all

private theorem pqe_iff (b : Boot) (file : Option Bytes) :
    AllOrNothing pqeSize b.pqevt file (loadPqeDef b file) ↔ PqeHarmless b file := by
  refine (allOrNothing_iff_short file).trans ?_
  refine forall_congr' fun bs => imp_congr_right fun short => forall_congr' fun id => ?_
  have four := short.2.1.1
  have next : (id.val + 1) * pqeSize = id.val * pqeSize + pqeSize := Nat.succ_mul ..
  have length := length_part pqeSize bs id
  split_ifs with all some
  · have full : (part pqeSize bs id).length = (b.pqevt id).length := by
      rw [b.pqevt_length, length]
      omega
    exact ⟨fun same => same ▸ List.prefix_rfl, fun head => head.eq_of_length full⟩
  · exact List.prefix_iff_eq_append.symm
  · have none_ : part pqeSize bs id = [] := List.length_eq_zero_iff.mp (by omega)
    rw [none_]
    exact iff_of_true rfl List.nil_prefix

/-- Both loaders are all or nothing exactly if what they take from a short file is in memory. -/
theorem loads_all_or_nothing_iff (b : Boot) (alarm pqe : Option Bytes) :
    (AllOrNothing alarmDefSize b.almSet alarm (loadAlarmDef b alarm) ∧
      AllOrNothing pqeSize b.pqevt pqe (loadPqeDef b pqe)) ↔
    AlarmHarmless b alarm ∧ PqeHarmless b pqe :=
  and_congr (alarm_iff b alarm) (pqe_iff b pqe)

/-- The magic number and the first byte of a channel. -/
def tornFile : Bytes := u32.encode pqeDefMagic ++ [1]

/-- The first byte of the first channel is overwritten, and the load fails. -/
theorem torn_file_changes_memory :
    ¬ AllOrNothing pqeSize zeroBoot.pqevt (some tornFile) (loadPqeDef zeroBoot (some tornFile)) := by
  rw [pqe_iff]
  intro harmless
  have short : Short pqeDefMagic pqeSize (some tornFile) tornFile :=
    ⟨rfl, ⟨by decide, by decide⟩, by decide⟩
  obtain ⟨rest, same⟩ := harmless tornFile short 0
  have first : (1 : UInt8) ∈ part pqeSize tornFile 0 := by decide
  have held : (1 : UInt8) ∈ zeroBoot.pqevt 0 := same ▸ List.mem_append_left rest first
  exact absurd (List.eq_of_mem_replicate held) (by decide)

end SV300.Settings.Loads
