/- SV300/Settings/Comm
   digest: The communication settings and the normalization that brings them into their ranges. -/

import Mathlib.Data.List.OfFn
import Mathlib.Data.List.TakeWhile
import Mathlib.Data.UInt

set_option autoImplicit false
set_option relaxedAutoImplicit false

namespace SV300.Settings.Comm

/-- A `char` array with one byte for the terminator. -/
abbrev Chars (n : Nat) := Fin (n + 1) → UInt8

/-- `COMM_STR_S` and `COMM_STR_L`, without the terminator. -/
abbrev commStrS : Nat := 31
abbrev commStrL : Nat := 63

def text {n : Nat} (s : Chars n) : List UInt8 := (List.ofFn s).takeWhile (· ≠ 0)

def Terminated {n : Nat} (s : Chars n) : Prop := ∃ i, s i = 0

def commStrTerm {n : Nat} (s : Chars n) : Chars n := Function.update s (Fin.last n) 0

def strcpy {n : Nat} (s : Chars n) (t : List UInt8) : Chars n := fun i => (t ++ [0]).getD i (s i)

/-- `"SV300"` and `"public"`. -/
def hostName : List UInt8 := [83, 86, 51, 48, 48]
def community : List UInt8 := [112, 117, 98, 108, 105, 99]

def strDefault {n : Nat} (t : List UInt8) (s : Chars n) : Chars n :=
  if s ⟨0, n.succ_pos⟩ = 0 then strcpy s t else s

/-- `COMM_CFG` without its reserved words. -/
@[ext] structure CommCfg where
  dhcpEn : UInt16
  ip0 : Fin 4 → UInt16
  sm0 : Fin 4 → UInt16
  gw0 : Fin 4 → UInt16
  dns0 : Fin 4 → UInt16
  host : Chars commStrS
  mbTcpEn : UInt16
  tcpPort : UInt16
  devId : UInt16
  layoutVer : UInt16
  mqttEn : UInt16
  mqttPort : UInt16
  mqttInterval : UInt16
  mqttQos : UInt16
  mqttRetain : UInt16
  mqttKeepAlive : UInt16
  mqttTls : UInt16
  mqttFormat : UInt16
  mqttHost : Chars commStrL
  mqttClientId : Chars commStrS
  mqttUser : Chars commStrS
  mqttPass : Chars commStrS
  mqttTopic : Chars commStrL
  snmpEn : UInt16
  snmpVer : UInt16
  trapEn : UInt16
  trapIp : Fin 4 → UInt16
  snmpCommunity : Chars commStrS
  snmpContact : Chars commStrS
  snmpLocation : Chars commStrS
  snmpV3User : Chars commStrS
  snmpV3AuthPass : Chars commStrS
  snmpV3PrivPass : Chars commStrS
  useSntp : UInt16
  sntpInterval : UInt16
  timezone : Int16
  sntpServer : Chars commStrS

/-- A value above the largest one becomes the default. -/
def above (most dflt x : UInt16) : UInt16 := if x > most then dflt else x

def unset (dflt x : UInt16) : UInt16 := if x = 0 then dflt else x

def intervalNormalize (x : UInt16) : UInt16 :=
  if x = 0 then 30 else if x < 10 then 10 else if x > 300 then 300 else x

def timezoneNormalize (x : Int16) : Int16 := if x < -720 ∨ x > 840 then 540 else x

/-- Either flag of SNMP is no flag. -/
def SnmpBad (c : CommCfg) : Prop := c.snmpEn > 1 ∨ c.trapEn > 1

instance (c : CommCfg) : Decidable (SnmpBad c) := inferInstanceAs (Decidable (_ ∨ _))

def commCfgNormalize (c : CommCfg) : CommCfg :=
  { c with
    host := strDefault hostName (commStrTerm c.host)
    mqttHost := commStrTerm c.mqttHost
    mqttClientId := commStrTerm c.mqttClientId
    mqttUser := commStrTerm c.mqttUser
    mqttPass := commStrTerm c.mqttPass
    mqttTopic := commStrTerm c.mqttTopic
    snmpCommunity := strDefault community (commStrTerm c.snmpCommunity)
    snmpContact := commStrTerm c.snmpContact
    snmpLocation := commStrTerm c.snmpLocation
    snmpV3User := commStrTerm c.snmpV3User
    snmpV3AuthPass := commStrTerm c.snmpV3AuthPass
    snmpV3PrivPass := commStrTerm c.snmpV3PrivPass
    sntpServer := commStrTerm c.sntpServer
    dhcpEn := above 1 1 c.dhcpEn
    mbTcpEn := above 1 1 c.mbTcpEn
    tcpPort := unset 502 c.tcpPort
    devId := unset 1 c.devId
    mqttEn := above 1 0 c.mqttEn
    mqttPort := unset 1883 c.mqttPort
    mqttInterval := intervalNormalize c.mqttInterval
    mqttQos := above 1 0 c.mqttQos
    mqttRetain := above 1 0 c.mqttRetain
    mqttKeepAlive := unset 60 c.mqttKeepAlive
    mqttTls := 0
    mqttFormat := 0
    snmpEn := if SnmpBad c then 0 else c.snmpEn
    trapEn := if SnmpBad c then 0 else c.trapEn
    trapIp := if SnmpBad c then fun _ => 0 else c.trapIp
    snmpVer := above 2 0 c.snmpVer
    useSntp := above 1 0 c.useSntp
    timezone := timezoneNormalize c.timezone }

inductive Number
  | dhcpEn | mbTcpEn | tcpPort | devId | layoutVer | mqttEn | mqttPort | mqttInterval | mqttQos
  | mqttRetain | mqttKeepAlive | mqttTls | mqttFormat | snmpEn | snmpVer | trapEn | useSntp
  | sntpInterval | timezone
  deriving DecidableEq

def number (c : CommCfg) : Number → Int
  | .dhcpEn => c.dhcpEn.toNat
  | .mbTcpEn => c.mbTcpEn.toNat
  | .tcpPort => c.tcpPort.toNat
  | .devId => c.devId.toNat
  | .layoutVer => c.layoutVer.toNat
  | .mqttEn => c.mqttEn.toNat
  | .mqttPort => c.mqttPort.toNat
  | .mqttInterval => c.mqttInterval.toNat
  | .mqttQos => c.mqttQos.toNat
  | .mqttRetain => c.mqttRetain.toNat
  | .mqttKeepAlive => c.mqttKeepAlive.toNat
  | .mqttTls => c.mqttTls.toNat
  | .mqttFormat => c.mqttFormat.toNat
  | .snmpEn => c.snmpEn.toNat
  | .snmpVer => c.snmpVer.toNat
  | .trapEn => c.trapEn.toNat
  | .useSntp => c.useSntp.toNat
  | .sntpInterval => c.sntpInterval.toNat
  | .timezone => c.timezone.toInt

/-- The smallest and the largest value; the whole type where no range is documented. -/
def range : Number → Int × Int
  | .dhcpEn | .mbTcpEn | .mqttEn | .mqttQos | .mqttRetain | .snmpEn | .trapEn | .useSntp => (0, 1)
  | .tcpPort | .mqttPort | .mqttKeepAlive => (1, 65535)
  | .devId => (1, 247)
  | .mqttInterval => (10, 300)
  | .mqttTls | .mqttFormat => (0, 0)
  | .snmpVer => (0, 2)
  | .timezone => (-720, 840)
  | .layoutVer | .sntpInterval => (0, 65535)

inductive Str
  | host | mqttHost | mqttClientId | mqttUser | mqttPass | mqttTopic | snmpCommunity | snmpContact
  | snmpLocation | snmpV3User | snmpV3AuthPass | snmpV3PrivPass | sntpServer
  deriving DecidableEq

/-- The size of a string field, without the terminator. -/
def size : Str → Nat
  | .mqttHost | .mqttTopic => commStrL
  | _ => commStrS

def str (c : CommCfg) : (f : Str) → Chars (size f)
  | .host => c.host
  | .mqttHost => c.mqttHost
  | .mqttClientId => c.mqttClientId
  | .mqttUser => c.mqttUser
  | .mqttPass => c.mqttPass
  | .mqttTopic => c.mqttTopic
  | .snmpCommunity => c.snmpCommunity
  | .snmpContact => c.snmpContact
  | .snmpLocation => c.snmpLocation
  | .snmpV3User => c.snmpV3User
  | .snmpV3AuthPass => c.snmpV3AuthPass
  | .snmpV3PrivPass => c.snmpV3PrivPass
  | .sntpServer => c.sntpServer

inductive Addr
  | ip0 | sm0 | gw0 | dns0 | trapIp
  deriving DecidableEq

def addr (c : CommCfg) : Addr → Fin 4 → UInt16
  | .ip0 => c.ip0
  | .sm0 => c.sm0
  | .gw0 => c.gw0
  | .dns0 => c.dns0
  | .trapIp => c.trapIp

/-- A number lies in its range. -/
def NumberOk (c : CommCfg) (f : Number) : Prop :=
  (range f).1 ≤ number c f ∧ number c f ≤ (range f).2

/-- A string is terminated; the host name and the community are not empty. -/
def StrOk (c : CommCfg) (f : Str) : Prop :=
  Terminated (str c f) ∧ (f = .host ∨ f = .snmpCommunity → text (str c f) ≠ [])

section Strings

variable {n : Nat}

private theorem terminated_commStrTerm (s : Chars n) : Terminated (commStrTerm s) :=
  ⟨Fin.last n, Function.update_self ..⟩

private theorem commStrTerm_of_last {s : Chars n} (last : s (Fin.last n) = 0) :
    commStrTerm s = s := by
  rw [commStrTerm, ← last, Function.update_eq_self]

@[simp] theorem commStrTerm_commStrTerm (s : Chars n) :
    commStrTerm (commStrTerm s) = commStrTerm s :=
  commStrTerm_of_last (Function.update_self ..)

private theorem text_commStrTerm {s : Chars n} (terminated : Terminated s) :
    text (commStrTerm s) = text s := by
  have front : (fun i : Fin n => commStrTerm s i.castSucc) = fun i : Fin n => s i.castSucc :=
    funext fun i => Function.update_of_ne (Fin.castSucc_lt_last i).ne _ _
  have last : commStrTerm s (Fin.last n) = 0 := Function.update_self ..
  unfold text
  rw [List.ofFn_succ_last, List.ofFn_succ_last, front, last, List.takeWhile_append,
    List.takeWhile_append]
  split
  · rename_i unbroken
    -- no byte before the last is zero, so the last one is
    have zero : s (Fin.last n) = 0 := by
      obtain ⟨i, zero⟩ := terminated
      by_contra other
      have inner : i ≠ Fin.last n := fun same => other (same ▸ zero)
      have whole := (List.takeWhile_eq_self_iff).mp (List.takeWhile_prefix _ |>.eq_of_length unbroken)
      have member : s (i.castPred inner).castSucc ∈ List.ofFn fun i : Fin n => s i.castSucc :=
        List.mem_ofFn.mpr ⟨_, rfl⟩
      rw [Fin.castSucc_castPred] at member
      have nonzero := whole _ member
      rw [zero] at nonzero
      simp at nonzero
    rw [zero]
  · rfl

private theorem text_eq_nil_iff (s : Chars n) : text s = [] ↔ s 0 = 0 := by
  unfold text
  rw [List.ofFn_succ, List.takeWhile_cons]
  by_cases zero : s 0 = 0
  · simp [zero]
  · simp [zero]

private theorem strcpy_last {s : Chars n} {t : List UInt8} (room : t.length < n) :
    strcpy s t (Fin.last n) = s (Fin.last n) := by
  rw [strcpy, List.getD_eq_getElem?_getD, List.getElem?_eq_none, Option.getD_none]
  rw [List.length_append, List.length_singleton, Fin.val_last]
  omega

private theorem strcpy_zero {s : Chars n} {t : List UInt8} (some : t.getD 0 0 ≠ 0) :
    strcpy s t 0 = t.getD 0 0 := by
  cases t with
  | nil => exact absurd rfl some
  | cons c t => rfl

/-- The rule for a string that may not be empty: the default is not, and stays. -/
structure Filled (n : Nat) (t : List UInt8) : Prop where
  room : t.length < n
  some : t.getD 0 0 ≠ 0

variable {t : List UInt8}

private theorem strDefault_zero (filled : Filled n t) (s : Chars n) : strDefault t s 0 ≠ 0 := by
  unfold strDefault
  split
  · rw [strcpy_zero filled.some]
    exact filled.some
  · assumption

private theorem strDefault_last (filled : Filled n t) {s : Chars n} (last : s (Fin.last n) = 0) :
    strDefault t s (Fin.last n) = 0 := by
  unfold strDefault
  split
  · rw [strcpy_last filled.room, last]
  · exact last

private theorem strDefault_of_some {s : Chars n} (some : s 0 ≠ 0) : strDefault t s = s :=
  if_neg some

private theorem strDefault_again (filled : Filled n t) (s : Chars n) :
    strDefault t (commStrTerm (strDefault t (commStrTerm s))) = strDefault t (commStrTerm s) := by
  have last : strDefault t (commStrTerm s) (Fin.last n) = 0 :=
    strDefault_last filled (Function.update_self ..)
  rw [commStrTerm_of_last last, strDefault_of_some (strDefault_zero filled _)]

private theorem strDefault_ok (filled : Filled n t) (s : Chars n) :
    Terminated (strDefault t (commStrTerm s)) ∧ text (strDefault t (commStrTerm s)) ≠ [] := by
  refine ⟨⟨Fin.last n, strDefault_last filled (Function.update_self ..)⟩, ?_⟩
  rw [Ne, text_eq_nil_iff]
  exact strDefault_zero filled _

private theorem text_strDefault {s : Chars n} (terminated : Terminated s) (some : text s ≠ []) :
    text (strDefault t (commStrTerm s)) = text s := by
  have kept := text_commStrTerm terminated
  rw [← kept, Ne, text_eq_nil_iff] at some
  rw [strDefault_of_some some, kept]

end Strings

private theorem filled_hostName : Filled commStrS hostName := ⟨by decide, by decide⟩

private theorem filled_community : Filled commStrS community := ⟨by decide, by decide⟩

/-- A rule brings every value into a range and leaves those in it. -/
structure Brings {α : Type} (ok : α → Prop) (rule : α → α) : Prop where
  into : ∀ x, ok (rule x)
  kept : ∀ x, ok x → rule x = x

private theorem Brings.again {α : Type} {ok : α → Prop} {rule : α → α} (brings : Brings ok rule)
    (x : α) :
    rule (rule x) = rule x :=
  brings.kept _ (brings.into x)

/-- The words from `least` to `most`. -/
def Between (least most : Int) (x : UInt16) : Prop := least ≤ x.toNat ∧ (x.toNat : Int) ≤ most

private theorem brings_above {most dflt : UInt16} (small : dflt ≤ most) :
    Brings (Between 0 most.toNat) (above most dflt) := by
  constructor
  · intro x
    unfold above Between
    split
    · exact ⟨Int.natCast_nonneg _, by exact_mod_cast UInt16.le_iff_toNat_le.mp small⟩
    · rename_i low
      exact ⟨Int.natCast_nonneg _,
        by exact_mod_cast UInt16.le_iff_toNat_le.mp (UInt16.not_lt.mp low)⟩
  · rintro x ⟨_, low⟩
    apply if_neg
    rw [gt_iff_lt, UInt16.lt_iff_toNat_lt]
    omega

private theorem brings_unset {dflt : UInt16} (some : dflt ≠ 0) :
    Brings (Between 1 65535) (unset dflt) := by
  have positive : ∀ x : UInt16, x ≠ 0 → Between 1 65535 x := by
    intro x apart
    have bounded := x.toNat_lt
    have pos : x.toNat ≠ 0 := fun zero => apart (UInt16.toNat_inj.mp zero)
    unfold Between
    omega
  constructor
  · intro x
    unfold unset
    split
    · exact positive dflt some
    · exact positive x ‹_›
  · rintro x ⟨low, _⟩
    apply if_neg
    rintro rfl
    exact absurd low (by decide)

private theorem brings_intervalNormalize : Brings (Between 10 300) intervalNormalize := by
  constructor
  · intro x
    unfold intervalNormalize Between
    split_ifs with zero low high
    · decide
    · decide
    · decide
    · rw [UInt16.lt_iff_toNat_lt] at low
      rw [gt_iff_lt, UInt16.lt_iff_toNat_lt] at high
      have ten : (10 : UInt16).toNat = 10 := rfl
      have most : (300 : UInt16).toNat = 300 := rfl
      omega
  · rintro x ⟨low, high⟩
    have zero : x ≠ 0 := by
      rintro rfl
      exact absurd low (by decide)
    have above : ¬ x < 10 := by
      rw [UInt16.lt_iff_toNat_lt]
      have ten : (10 : UInt16).toNat = 10 := rfl
      omega
    have below : ¬ x > 300 := by
      rw [gt_iff_lt, UInt16.lt_iff_toNat_lt]
      have most : (300 : UInt16).toNat = 300 := rfl
      omega
    rw [intervalNormalize, if_neg zero, if_neg above, if_neg below]

private theorem brings_timezoneNormalize :
    Brings (fun x : Int16 => (-720 : Int) ≤ x.toInt ∧ x.toInt ≤ 840) timezoneNormalize := by
  have least : ∀ x : Int16, x < -720 ↔ x.toInt < -720 := fun x => Int16.lt_iff_toInt_lt
  have most : ∀ x : Int16, x > 840 ↔ 840 < x.toInt := fun x => Int16.lt_iff_toInt_lt
  constructor
  · intro x
    unfold timezoneNormalize
    split
    · decide
    · rename_i inside
      rw [least, most] at inside
      omega
  · rintro x ⟨low, high⟩
    apply if_neg
    rw [least, most]
    omega

private theorem not_snmpBad_iff (c : CommCfg) :
    ¬ SnmpBad c ↔ NumberOk c .snmpEn ∧ NumberOk c .trapEn := by
  have small : ∀ x : UInt16, ¬ x > 1 ↔ (0 : Int) ≤ x.toNat ∧ (x.toNat : Int) ≤ 1 := by
    intro x
    rw [gt_iff_lt, UInt16.lt_iff_toNat_lt]
    have one : (1 : UInt16).toNat = 1 := rfl
    omega
  rw [SnmpBad, not_or, small, small]
  rfl

private theorem not_snmpBad_again (c : CommCfg) : ¬ SnmpBad (commCfgNormalize c) := by
  by_cases bad : SnmpBad c
  · have zero : (commCfgNormalize c).snmpEn = 0 ∧ (commCfgNormalize c).trapEn = 0 :=
      ⟨if_pos bad, if_pos bad⟩
    rw [SnmpBad, zero.1, zero.2]
    decide
  · have same : (commCfgNormalize c).snmpEn = c.snmpEn ∧ (commCfgNormalize c).trapEn = c.trapEn :=
      ⟨if_neg bad, if_neg bad⟩
    unfold SnmpBad at bad ⊢
    rwa [same.1, same.2]

private theorem commCfgNormalize_again (c : CommCfg) :
    commCfgNormalize (commCfgNormalize c) = commCfgNormalize c := by
  have good := not_snmpBad_again c
  generalize same : commCfgNormalize c = d at good
  have flags : (if SnmpBad d then 0 else d.snmpEn) = d.snmpEn ∧
      (if SnmpBad d then 0 else d.trapEn) = d.trapEn ∧
      (if SnmpBad d then fun _ => 0 else d.trapIp) = d.trapIp :=
    ⟨if_neg good, if_neg good, if_neg good⟩
  have again : commCfgNormalize d = { commCfgNormalize d with
      snmpEn := d.snmpEn, trapEn := d.trapEn, trapIp := d.trapIp } := by
    ext1
    all_goals first | rfl | exact flags.1 | exact flags.2.1 | exact flags.2.2
  rw [again, ← same]
  ext1
  all_goals first
    | rfl
    | exact commStrTerm_commStrTerm _
    | exact strDefault_again filled_hostName _
    | exact strDefault_again filled_community _
    | exact (brings_above (by decide)).again _
    | exact (brings_unset (by decide)).again _
    | exact brings_intervalNormalize.again _
    | exact brings_timezoneNormalize.again _

private theorem number_into (c : CommCfg) (f : Number)
    (known : f = .devId → number c .devId ≤ 247) :
    NumberOk (commCfgNormalize c) f := by
  have whole : ∀ x : UInt16, Between 0 65535 x := by
    intro x
    have bounded := x.toNat_lt
    unfold Between
    omega
  cases f with
  | dhcpEn => exact (brings_above (by decide)).into c.dhcpEn
  | mbTcpEn => exact (brings_above (by decide)).into c.mbTcpEn
  | tcpPort => exact (brings_unset (by decide)).into c.tcpPort
  | devId =>
    have small : (c.devId.toNat : Int) ≤ 247 := known rfl
    refine ⟨((brings_unset (by decide)).into c.devId).1, ?_⟩
    change ((unset 1 c.devId).toNat : Int) ≤ 247
    unfold unset
    split
    · decide
    · exact small
  | layoutVer => exact whole c.layoutVer
  | mqttEn => exact (brings_above (by decide)).into c.mqttEn
  | mqttPort => exact (brings_unset (by decide)).into c.mqttPort
  | mqttInterval => exact brings_intervalNormalize.into c.mqttInterval
  | mqttQos => exact (brings_above (by decide)).into c.mqttQos
  | mqttRetain => exact (brings_above (by decide)).into c.mqttRetain
  | mqttKeepAlive => exact (brings_unset (by decide)).into c.mqttKeepAlive
  | mqttTls => exact ⟨le_rfl, le_rfl⟩
  | mqttFormat => exact ⟨le_rfl, le_rfl⟩
  | snmpEn => exact ((not_snmpBad_iff _).mp (not_snmpBad_again c)).1
  | snmpVer => exact (brings_above (by decide)).into c.snmpVer
  | trapEn => exact ((not_snmpBad_iff _).mp (not_snmpBad_again c)).2
  | useSntp => exact (brings_above (by decide)).into c.useSntp
  | sntpInterval => exact whole c.sntpInterval
  | timezone => exact brings_timezoneNormalize.into c.timezone

private theorem number_kept {c : CommCfg} {f : Number} (ok : NumberOk c f)
    (joint : f = .snmpEn ∨ f = .trapEn → ¬ SnmpBad c) :
    number (commCfgNormalize c) f = number c f := by
  have words : ∀ {x y : UInt16}, x = y → (x.toNat : Int) = y.toNat := fun same => by rw [same]
  cases f with
  | dhcpEn => exact words ((brings_above (by decide)).kept c.dhcpEn ok)
  | mbTcpEn => exact words ((brings_above (by decide)).kept c.mbTcpEn ok)
  | tcpPort => exact words ((brings_unset (by decide)).kept c.tcpPort ok)
  | devId =>
    have all : Between 1 65535 c.devId := ⟨ok.1, le_trans ok.2 (by decide)⟩
    exact words ((brings_unset (by decide)).kept c.devId all)
  | layoutVer => rfl
  | mqttEn => exact words ((brings_above (by decide)).kept c.mqttEn ok)
  | mqttPort => exact words ((brings_unset (by decide)).kept c.mqttPort ok)
  | mqttInterval => exact words (brings_intervalNormalize.kept c.mqttInterval ok)
  | mqttQos => exact words ((brings_above (by decide)).kept c.mqttQos ok)
  | mqttRetain => exact words ((brings_above (by decide)).kept c.mqttRetain ok)
  | mqttKeepAlive => exact words ((brings_unset (by decide)).kept c.mqttKeepAlive ok)
  | mqttTls => exact le_antisymm ok.1 ok.2
  | mqttFormat => exact le_antisymm ok.1 ok.2
  | snmpEn => exact words (if_neg (joint (.inl rfl)))
  | snmpVer => exact words ((brings_above (by decide)).kept c.snmpVer ok)
  | trapEn => exact words (if_neg (joint (.inr rfl)))
  | useSntp => exact words ((brings_above (by decide)).kept c.useSntp ok)
  | sntpInterval => rfl
  | timezone =>
    have same := brings_timezoneNormalize.kept c.timezone ok
    exact congrArg Int16.toInt same

private theorem str_into (c : CommCfg) (f : Str) : StrOk (commCfgNormalize c) f := by
  cases f with
  | host =>
    have ok := strDefault_ok filled_hostName c.host
    exact ⟨ok.1, fun _ => ok.2⟩
  | snmpCommunity =>
    have ok := strDefault_ok filled_community c.snmpCommunity
    exact ⟨ok.1, fun _ => ok.2⟩
  | _ => exact ⟨terminated_commStrTerm _, fun named => absurd named (by decide)⟩

private theorem str_kept {c : CommCfg} {f : Str} (ok : StrOk c f) :
    text (str (commCfgNormalize c) f) = text (str c f) := by
  cases f with
  | host => exact text_strDefault ok.1 (ok.2 (.inl rfl))
  | snmpCommunity => exact text_strDefault ok.1 (ok.2 (.inr rfl))
  | _ => exact text_commStrTerm ok.1

private theorem addr_kept {c : CommCfg} {f : Addr} (joint : f = .trapIp → ¬ SnmpBad c) :
    addr (commCfgNormalize c) f = addr c f := by
  cases f with
  | trapIp => exact if_neg (joint rfl)
  | _ => rfl

/-- The normalization is idempotent, leaves what is in its range, the SNMP group if both of its
flags are flags, and brings every field into its range, the device id if it was at most 247. -/
theorem commCfgNormalize_spec (c : CommCfg) :
    commCfgNormalize (commCfgNormalize c) = commCfgNormalize c ∧
      (∀ f, NumberOk c f → (f = .snmpEn ∨ f = .trapEn → ¬ SnmpBad c) →
        number (commCfgNormalize c) f = number c f) ∧
      (∀ f, StrOk c f → text (str (commCfgNormalize c) f) = text (str c f)) ∧
      (∀ f, (f = .trapIp → ¬ SnmpBad c) → addr (commCfgNormalize c) f = addr c f) ∧
      (∀ f, (f = .devId → number c .devId ≤ 247) → NumberOk (commCfgNormalize c) f) ∧
      ∀ f, StrOk (commCfgNormalize c) f :=
  ⟨commCfgNormalize_again c, fun _ => number_kept, fun _ => str_kept, fun _ => addr_kept,
    number_into c, str_into c⟩

/-- Every field by itself: kept where it is in its range, and in its range afterwards. -/
structure Separate (c : CommCfg) : Prop where
  again : commCfgNormalize (commCfgNormalize c) = commCfgNormalize c
  numbers : ∀ f, NumberOk c f → number (commCfgNormalize c) f = number c f
  strings : ∀ f, StrOk c f → text (str (commCfgNormalize c) f) = text (str c f)
  addresses : ∀ f, addr (commCfgNormalize c) f = addr c f
  numbersOk : ∀ f, NumberOk (commCfgNormalize c) f
  stringsOk : ∀ f, StrOk (commCfgNormalize c) f

/-- Cleared settings with the two flags of SNMP given. -/
def flagged (snmpEn trapEn : UInt16) : CommCfg :=
  { dhcpEn := 0, ip0 := 0, sm0 := 0, gw0 := 0, dns0 := 0, host := 0, mbTcpEn := 0, tcpPort := 0,
    devId := 0, layoutVer := 0, mqttEn := 0, mqttPort := 0, mqttInterval := 0, mqttQos := 0,
    mqttRetain := 0, mqttKeepAlive := 0, mqttTls := 0, mqttFormat := 0, mqttHost := 0,
    mqttClientId := 0, mqttUser := 0, mqttPass := 0, mqttTopic := 0, snmpEn := snmpEn, snmpVer := 0,
    trapEn := trapEn, trapIp := 0, snmpCommunity := 0, snmpContact := 0, snmpLocation := 0,
    snmpV3User := 0, snmpV3AuthPass := 0, snmpV3PrivPass := 0, useSntp := 0, sntpInterval := 0,
    timezone := 0, sntpServer := 0 }

/-- With 2 as the flag of the agent the trap, which is on, is switched off. -/
theorem trap_not_separate : ¬ Separate (flagged 2 1) := by
  intro separate
  have same := separate.numbers .trapEn (by unfold NumberOk; decide)
  exact absurd same (by decide)

end SV300.Settings.Comm
