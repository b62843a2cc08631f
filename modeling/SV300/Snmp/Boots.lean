/- SV300/Snmp/Boots
   digest: The boot counter of SNMPv3 over boots and power losses while its file is rewritten. -/

import SV300.Library.ByteCodec
import SV300.Library.FileRewrite

set_option autoImplicit false
set_option relaxedAutoImplicit false

namespace SV300.Snmp.Boots

open SV300.Library.ByteCodec SV300.Library.FileRewrite SV300.Library.Runs

def snmpBootsMagic : UInt32 := 0x534E4D42

def lastBoots : UInt32 := 0x7FFFFFFF

/-- The file `snmp.d`. -/
abbrev Content := Option (List UInt8)

/-- The counter that `snmpCfgLoad` takes from the file; zero if it is missing, short or another. -/
def snmpCfgLoad : Content → UInt32
  | none => 0
  | some bs =>
    if 8 ≤ bs.length ∧ u32.decode (bs.take 4) = snmpBootsMagic then
      u32.decode ((bs.drop 4).take 4)
    else 0

def increment (engineBoots : UInt32) : UInt32 :=
  if engineBoots < lastBoots then engineBoots + 1 else engineBoots

/-- `SNMP_BOOTS`. -/
def bootsFile (engineBoots : UInt32) : List UInt8 :=
  u32.encode snmpBootsMagic ++ u32.encode engineBoots

/-- What `snmpCfgNextBoots` does to the file, if it can be opened. -/
def snmpCfgNextBoots (opens : Bool) (engineBoots : UInt32) : List (Op Unit UInt8) :=
  if opens then rewrite () (bootsFile (increment engineBoots)) else []

/-- The file after `j` of these operations. -/
def cut (c : Content) (opens : Bool) (j : Nat) : Content :=
  run apply (fun _ => c) ((snmpCfgNextBoots opens (snmpCfgLoad c)).take j) ()

def updated (c : Content) (opens : Bool) : Content :=
  run apply (fun _ => c) (snmpCfgNextBoots opens (snmpCfgLoad c)) ()

/-- The file and the values used so far. -/
structure Sys where
  file : Content
  used : List UInt32

/-- A boot that goes through, or one that loses power after `j` operations on the file. -/
inductive Event
  | boot (opens : Bool)
  | lost (opens : Bool) (j : Nat)

def record (o : Sys) : Event → Sys
  | .boot opens =>
    { file := updated o.file opens
      used := o.used ++ [increment (snmpCfgLoad o.file)] }
  | .lost opens j => { o with file := cut o.file opens j }

/-- Each value is above all earlier ones, until it sticks. -/
def Rising (used : List UInt32) : Prop :=
  used.Pairwise fun a b => a < b ∨ (a = lastBoots ∧ b = lastBoots)

instance (used : List UInt32) : Decidable (Rising used) := by
  unfold Rising
  infer_instance

/-- The file is opened and not all of it written. -/
def Inside (opens : Bool) (j : Nat) : Prop := opens = true ∧ 1 ≤ j ∧ j < 9

/-- A value that is used is in range, and stored or the last one; and the power is not lost inside
the file, but before any value is used. -/
def Quiet (o : Sys) : Event → Prop
  | .boot opens => snmpCfgLoad o.file ≤ lastBoots ∧
    (opens = true ∨ increment (snmpCfgLoad o.file) = lastBoots)
  | .lost opens j => Inside opens j → o.used = []

private theorem snmpCfgLoad_bootsFile (v : UInt32) : snmpCfgLoad (some (bootsFile v)) = v := by
  have magic : (bootsFile v).take 4 = u32.encode snmpBootsMagic := List.take_left' rfl
  have value : (bootsFile v).drop 4 = u32.encode v := List.drop_left' rfl
  have full : 8 ≤ (bootsFile v).length := Nat.le_refl 8
  rw [snmpCfgLoad, if_pos ⟨full, by rw [magic, u32.decode_encode]⟩, value]
  exact u32.decode_encode v

private theorem updated_opens (c : Content) :
    updated c true = some (bootsFile (increment (snmpCfgLoad c))) :=
  run_rewrite ..

private theorem cut_opens (c : Content) (j : Nat) :
    cut c true j = if j = 0 then c
      else some ((bootsFile (increment (snmpCfgLoad c))).take (j - 1)) := by
  have whole := @run_cut Unit UInt8 _ (fun _ => c) () (bootsFile (increment (snmpCfgLoad c))) [] []
    nofun nofun j
  rw [List.nil_append, List.append_nil] at whole
  rw [cut, snmpCfgNextBoots, if_pos rfl, whole]
  simp only [List.length_nil, Nat.le_zero_eq, Nat.sub_zero]

private theorem cut_closed (c : Content) (j : Nat) : cut c false j = c := by
  rw [cut, snmpCfgNextBoots, if_neg Bool.false_ne_true, List.take_nil, run_nil]

private theorem cut_outside (c : Content) {opens : Bool} {j : Nat} (outside : ¬ Inside opens j) :
    cut c opens j = c ∨ cut c opens j = some (bootsFile (increment (snmpCfgLoad c))) := by
  cases opens with
  | false => exact .inl (cut_closed c j)
  | true =>
    rw [cut_opens]
    split_ifs with zero
    · exact .inl rfl
    · refine .inr (congrArg some (List.take_of_length_le ?_))
      have past : ¬ j < 9 := fun few => outside ⟨rfl, Nat.pos_of_ne_zero zero, few⟩
      change 8 ≤ j - 1
      omega

private theorem increment_le {v : UInt32} (le : v ≤ lastBoots) : increment v ≤ lastBoots := by
  unfold increment
  split_ifs with less
  · exact UInt32.le_iff_toNat_le.mpr (by
      have bound := UInt32.lt_iff_toNat_lt.mp less
      rw [UInt32.toNat_add]
      change v.toNat < 2147483647 at bound
      change (v.toNat + 1) % 2 ^ 32 ≤ 2147483647
      omega)
  · exact le

private theorem lt_increment {v : UInt32} (le : v ≤ lastBoots) :
    v < increment v ∨ v = lastBoots := by
  unfold increment
  split_ifs with less
  · refine .inl (UInt32.lt_iff_toNat_lt.mpr ?_)
    have bound := UInt32.lt_iff_toNat_lt.mp less
    rw [UInt32.toNat_add]
    change v.toNat < 2147483647 at bound
    change v.toNat < (v.toNat + 1) % 2 ^ 32
    omega
  · exact .inr (UInt32.le_antisymm le (UInt32.not_lt.mp less))

private theorem increment_last : increment lastBoots = lastBoots := by decide

/-- The next value is above all that were used, or they are at the last one. -/
structure Inv (o : Sys) : Prop where
  le : o.used ≠ [] → snmpCfgLoad o.file ≤ lastBoots
  below : ∀ a ∈ o.used, a < increment (snmpCfgLoad o.file) ∨
    (a ≤ lastBoots ∧ increment (snmpCfgLoad o.file) = lastBoots)
  rising : Rising o.used

private theorem below_stored {v a : UInt32} (le : v ≤ lastBoots) (below : a ≤ v) :
    a < increment v ∨ (a ≤ lastBoots ∧ increment v = lastBoots) := by
  rcases lt_increment le with less | rfl
  · exact .inl (UInt32.lt_of_le_of_lt below less)
  · exact .inr ⟨below, increment_last⟩

private theorem Inv.used_le {o : Sys} (inv : Inv o) {a : UInt32} (member : a ∈ o.used) :
    a ≤ increment (snmpCfgLoad o.file) := by
  rcases inv.below a member with less | ⟨le, last⟩
  · exact UInt32.le_of_lt less
  · rw [last]
    exact le

private theorem inv_boot {o : Sys} (inv : Inv o) {opens : Bool} (quiet : Quiet o (.boot opens)) :
    Inv (record o (.boot opens)) := by
  have next := increment_le quiet.1
  have rising : Rising (o.used ++ [increment (snmpCfgLoad o.file)]) := by
    refine List.pairwise_append.mpr ⟨inv.rising, List.pairwise_singleton .., ?_⟩
    intro a member b new
    rw [List.mem_singleton.mp new]
    rcases inv.below a member with less | ⟨le, last⟩
    · exact .inl less
    · rw [last]
      rcases UInt32.lt_or_eq_of_le le with less | same
      · exact .inl less
      · exact .inr ⟨same, rfl⟩
  have used_le : ∀ a ∈ o.used ++ [increment (snmpCfgLoad o.file)],
      a ≤ increment (snmpCfgLoad o.file) := by
    intro a member
    rcases List.mem_append.mp member with earlier | new
    · exact inv.used_le earlier
    · rw [List.mem_singleton.mp new]
      exact UInt32.le_refl _
  cases opens with
  | true =>
    have load : snmpCfgLoad (updated o.file true) = increment (snmpCfgLoad o.file) := by
      rw [updated_opens, snmpCfgLoad_bootsFile]
    refine ⟨fun _ => load ▸ next, fun a member => ?_, rising⟩
    change a < increment (snmpCfgLoad (updated o.file true)) ∨ _ ∧
      increment (snmpCfgLoad (updated o.file true)) = _
    rw [load]
    exact below_stored next (used_le a member)
  | false =>
    have last := quiet.2.resolve_left Bool.false_ne_true
    exact ⟨fun _ => quiet.1, fun a member => .inr ⟨last ▸ used_le a member, last⟩, rising⟩

private theorem inv_lost {o : Sys} (inv : Inv o) {opens : Bool} {j : Nat}
    (quiet : Quiet o (.lost opens j)) : Inv (record o (.lost opens j)) := by
  by_cases inside : Inside opens j
  · have empty : o.used = [] := quiet inside
    refine ⟨fun some => absurd empty some, fun a member => ?_, inv.rising⟩
    · change a ∈ o.used at member
      rw [empty] at member
      cases member
  · rcases cut_outside o.file inside with same | stored
    · have unchanged : record o (.lost opens j) = o := by rw [record, same]
      rw [unchanged]
      exact inv
    · have load : snmpCfgLoad (cut o.file opens j) = increment (snmpCfgLoad o.file) := by
        rw [stored, snmpCfgLoad_bootsFile]
      refine ⟨fun some => load ▸ increment_le (inv.le some), fun a member => ?_, inv.rising⟩
      have next := increment_le (inv.le (List.ne_nil_of_mem member))
      change a < increment (snmpCfgLoad (cut o.file opens j)) ∨ _ ∧
        increment (snmpCfgLoad (cut o.file opens j)) = _
      rw [load]
      exact below_stored next (inv.used_le member)

private theorem inv_record {o : Sys} (inv : Inv o) {e : Event} (quiet : Quiet o e) :
    Inv (record o e) := by
  cases e with
  | boot opens => exact inv_boot inv quiet
  | lost opens j => exact inv_lost inv quiet

/-- In a quiet run the values used rise. -/
theorem rising_of_quiet (file : Content) (es : List Event)
    (quiet : Along record Quiet ⟨file, []⟩ es) : Rising (run record ⟨file, []⟩ es).used := by
  have start : Inv ⟨file, []⟩ := ⟨fun some => absurd rfl some, nofun, List.Pairwise.nil⟩
  exact (invariant_run (I := Inv) (P := Quiet) (fun _ _ inv step => inv_record inv step) start
    quiet).rising

/-- Three boots, the second of which loses power before it opens the file. -/
theorem early_loss_rising :
    Rising (run record ⟨none, []⟩ [.boot true, .lost true 0, .boot true]).used :=
  rising_of_quiet none _ ⟨⟨by decide, .inl rfl⟩, nofun, ⟨by decide, .inl rfl⟩, trivial⟩

/-- The power is lost with the file empty, and the next boot uses the first value again. -/
theorem emptied_not_rising :
    ¬ Rising (run record ⟨none, []⟩ [.boot true, .lost true 1, .boot true]).used := by
  decide

end SV300.Snmp.Boots
