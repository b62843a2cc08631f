/- SV300/Web/Snmp
   digest: The SNMP texts set over the web: what a request may store and what the reply shows. -/

import SV300.Library.Runs
import SV300.Modbus.Map
import SV300.Web.Body

set_option autoImplicit false
set_option relaxedAutoImplicit false

namespace SV300.Web.Snmp

open SV300.Library.Json
open SV300.Library.Runs
open SV300.Modbus.Map
open SV300.Web.Body
open SV300.Web.Form (cstr)
open SV300.Web.Session (bytes)

inductive Item
  | community
  | contact
  | location
  | v3user
  | v3auth
  | v3priv
  deriving DecidableEq

def Item.key : Item → List Char
  | .community => "community".toList
  | .contact => "contact".toList
  | .location => "location".toList
  | .v3user => "v3user".toList
  | .v3auth => "v3auth".toList
  | .v3priv => "v3priv".toList

def items : List Item := [.community, .contact, .location, .v3user, .v3auth, .v3priv]

/-- The first register of a text; each has sixteen, two characters in one, the low byte first. -/
def Item.addr : Item → Nat
  | .community => 7300
  | .contact => 7316
  | .location => 7332
  | .v3user => 7348
  | .v3auth => 7364
  | .v3priv => 7380

/-- `COMM_STR_S`. -/
abbrev commStrS : Nat := 32

/-- A byte of the first channel's memory, counted from a register. -/
def byteAt (s : State) (addr k : Nat) : UInt8 :=
  if k % 2 = 0 then (s.meter 0 (addr + k / 2)).toUInt8 else (s.meter 0 (addr + k / 2) >>> 8).toUInt8

def pack (lo hi : UInt8) : UInt16 := hi.toUInt16 <<< 8 ||| lo.toUInt16

/-- A byte of what is stored from a register on, or else of what was there. -/
def newByte (s : State) (addr : Nat) (bs : List UInt8) (k : Nat) : UInt8 :=
  (bs[k]?).getD (byteAt s addr k)

def putBytes (s : State) (addr : Nat) (bs : List UInt8) : State :=
  let new := newByte s addr bs
  { s with meter := Function.update s.meter 0 fun off =>
      if addr ≤ off then pack (new (2 * (off - addr))) (new (2 * (off - addr) + 1))
      else s.meter 0 off }

/-- `strcpy` to a register. -/
def strcpy (s : State) (addr : Nat) (t : List Char) : State := putBytes s addr (bytes t ++ [0])

/-- The C string from a register on.  It is followed to the end of the settings. -/
def textAt (s : State) (addr : Nat) : List Char :=
  ((List.range (2 * (mbadP1SettingEnd - addr))).map fun k =>
    Char.ofNat (byteAt s addr k).toNat).takeWhile (· ≠ '\x00')

def textOf (s : State) (i : Item) : List Char := textAt s i.addr

inductive Refusal
  | asciiOnly
  | badCommunity
  | badUser
  | badPassword
  | userRequired
  | authRequired
  deriving DecidableEq

abbrev bodySize : Nat := 320

def Parsed.fails (p : Parsed) (test : List Char → Bool) : Bool :=
  match p with
  | .text t => !test t
  | _ => false

def named (t : List Char) : Bool := !t.isEmpty && !t.contains ' '

abbrev Texts := Item → List Char

/-- What `apiSnmpSet` refuses of the texts parsed from a body, where these are stored. -/
def refusal (a : Texts) (p : Item → Parsed) : Option Refusal :=
  if items.any fun i => p i = .malformed then some .asciiOnly
  else if Parsed.fails (p .community) named then some .badCommunity
  else if Parsed.fails (p .v3user) named then some .badUser
  else if Parsed.fails (p .v3auth) (8 ≤ ·.length) || Parsed.fails (p .v3priv) (8 ≤ ·.length) then
    some .badPassword
  else if (p .v3auth ≠ .absent ∨ p .v3priv ≠ .absent) ∧ p .v3user = .absent ∧ a .v3user = [] then
    some .userRequired
  else if p .v3priv ≠ .absent ∧ p .v3auth = .absent ∧ a .v3auth = [] then some .authRequired
  else none

def storeItem (p : Item → Parsed) (s : State) (i : Item) : State :=
  match p i with
  | .text t => strcpy s i.addr t
  | _ => s

def storeItems (p : Item → Parsed) (s : State) (is : List Item) : State := is.foldl (storeItem p) s

def parse (body : List Char) (i : Item) : Parsed := jsonStr body i.key commStrS

/-- `apiSnmpSet` for an administrator, its body read. -/
def apiSnmpSet (s : State) (body : List Char) : State × Option Refusal :=
  match refusal (textOf s) (parse body) with
  | some r => (s, some r)
  | none => (storeItems (parse body) s items, none)

/-- `snprintf` into the reply's buffer of 160 bytes. -/
def snprintf (t : List Char) : List Char := t.take 159

def flag (b : Bool) : List Char := if b then "true".toList else "false".toList

/-- `apiSnmpGet`. -/
def apiSnmpGet (s : State) : List Char :=
  snprintf ("\x7b\"ok\":true,\"commDefault\":".toList ++ flag (textOf s .community = "public".toList) ++
    ",\"contact\":\"".toList ++ textOf s .contact ++ "\",".toList) ++
  snprintf ("\"location\":\"".toList ++ textOf s .location ++ "\",".toList) ++
  snprintf ("\"v3user\":\"".toList ++ textOf s .v3user ++ "\",\"v3auth\":".toList ++
    flag (textOf s .v3auth ≠ []) ++ ",\"v3priv\":".toList ++ flag (textOf s .v3priv ≠ []) ++
    "\x7d".toList)

private theorem pack_bytes (lo hi : UInt8) :
    (pack lo hi).toUInt8 = lo ∧ (pack lo hi >>> 8).toUInt8 = hi := by
  have low := lo.toNat_lt
  have high := hi.toNat_lt
  have value : (pack lo hi).toNat = hi.toNat * 256 + lo.toNat := by
    have shifted : (hi.toUInt16 <<< 8).toNat = hi.toNat <<< 8 := by
      rw [UInt16.toNat_shiftLeft, UInt8.toNat_toUInt16]
      change hi.toNat <<< 8 % 2 ^ 16 = _
      rw [Nat.shiftLeft_eq]
      omega
    rw [pack, UInt16.toNat_or, shifted, UInt8.toNat_toUInt16,
      ← Nat.shiftLeft_add_eq_or_of_lt (by omega : lo.toNat < 2 ^ 8), Nat.shiftLeft_eq]
  constructor
  · apply UInt8.toNat_inj.mp
    rw [UInt16.toNat_toUInt8, value]
    omega
  · apply UInt8.toNat_inj.mp
    rw [UInt16.toNat_toUInt8, UInt16.toNat_shiftRight, value]
    change (hi.toNat * 256 + lo.toNat) >>> 8 % 256 = hi.toNat
    rw [Nat.shiftRight_eq_div_pow]
    omega

private theorem unpack (w : UInt16) : pack w.toUInt8 (w >>> 8).toUInt8 = w := by
  have range := w.toNat_lt
  apply UInt16.toNat_inj.mp
  have low : (w.toUInt8).toNat = w.toNat % 256 := UInt16.toNat_toUInt8 w
  have high : ((w >>> 8).toUInt8).toNat = w.toNat / 256 := by
    rw [UInt16.toNat_toUInt8, UInt16.toNat_shiftRight]
    change w.toNat >>> 8 % 256 = _
    rw [Nat.shiftRight_eq_div_pow]
    omega
  have shifted : ((w >>> 8).toUInt8.toUInt16 <<< 8).toNat = (w.toNat / 256) <<< 8 := by
    rw [UInt16.toNat_shiftLeft, UInt8.toNat_toUInt16, high]
    change (w.toNat / 256) <<< 8 % 2 ^ 16 = _
    rw [Nat.shiftLeft_eq]
    omega
  rw [pack, UInt16.toNat_or, shifted, UInt8.toNat_toUInt16, low,
    ← Nat.shiftLeft_add_eq_or_of_lt (by omega : w.toNat % 256 < 2 ^ 8), Nat.shiftLeft_eq]
  omega

private theorem byteAt_putBytes (s : State) (addr : Nat) (bs : List UInt8) (k : Nat) :
    byteAt (putBytes s addr bs) addr k = (bs[k]?).getD (byteAt s addr k) := by
  have word : (putBytes s addr bs).meter 0 (addr + k / 2) =
      pack (newByte s addr bs (2 * (k / 2))) (newByte s addr bs (2 * (k / 2) + 1)) := by
    rw [putBytes]
    dsimp only
    rw [Function.update_self, if_pos (Nat.le_add_right _ _), Nat.add_sub_cancel_left]
  rw [byteAt, word]
  split_ifs with even
  · rw [(pack_bytes _ _).1, show 2 * (k / 2) = k by omega, newByte]
  · rw [(pack_bytes _ _).2, show 2 * (k / 2) + 1 = k by omega, newByte]

private theorem putBytes_other (s : State) (addr : Nat) (bs : List UInt8) {off : Nat}
    (beyond : off < addr ∨ bs.length ≤ 2 * (off - addr)) :
    (putBytes s addr bs).meter 0 off = s.meter 0 off := by
  rw [putBytes]
  dsimp only
  rw [Function.update_self]
  split_ifs with reached
  · have first : bs[2 * (off - addr)]? = none := List.getElem?_eq_none (by omega)
    have second : bs[2 * (off - addr) + 1]? = none := List.getElem?_eq_none (by omega)
    have even : 2 * (off - addr) % 2 = 0 := by omega
    have odd : ¬ (2 * (off - addr) + 1) % 2 = 0 := by omega
    rw [newByte, newByte, first, second, Option.getD_none, Option.getD_none, byteAt, byteAt, if_pos even, if_neg odd,
      show addr + 2 * (off - addr) / 2 = off by omega,
      show addr + (2 * (off - addr) + 1) / 2 = off by omega, unpack]
  · rfl

/-- A text in its registers, with the zero that ends it. -/
structure Holds (s : State) (i : Item) (t : List Char) : Prop where
  short : t.length < commStrS
  plain : ∀ c ∈ t, allowed c = true
  stored : ∀ k ≤ t.length, byteAt s i.addr k = ((bytes t ++ [0])[k]?).getD 0

private theorem allowed_range {c : Char} (good : allowed c = true) :
    32 ≤ c.toNat ∧ c.toNat ≤ 126 ∧ c ≠ '"' ∧ c ≠ '\\' := by
  simpa [allowed, and_assoc] using good

private theorem char_of_byte {c : Char} (good : allowed c = true) :
    Char.ofNat (UInt8.ofNat c.toNat).toNat = c := by
  have range := allowed_range good
  rw [UInt8.toNat_ofNat', Nat.mod_eq_of_lt (by omega), Char.ofNat_toNat]

private theorem addr_le (i : Item) : 7300 ≤ i.addr ∧ i.addr + 16 ≤ 7396 := by
  cases i <;> decide

private theorem addr_apart {i j : Item} (other : i ≠ j) :
    i.addr + 16 ≤ j.addr ∨ j.addr + 16 ≤ i.addr := by
  revert other
  cases i <;> cases j <;> decide

private theorem Holds.textOf {s : State} {i : Item} {t : List Char} (holds : Holds s i t) :
    textOf s i = t := by
  obtain ⟨short, plain, stored⟩ := holds
  have room := addr_le i
  obtain ⟨m, enough⟩ : ∃ m, 2 * (mbadP1SettingEnd - i.addr) = t.length + (m + 1) := by
    have last : mbadP1SettingEnd = 7788 := rfl
    have size : commStrS = 32 := rfl
    exact ⟨2 * (mbadP1SettingEnd - i.addr) - t.length - 1, by omega⟩
  rw [Snmp.textOf, textAt, enough, List.range_add, List.map_append]
  have front : ((List.range t.length).map fun k => Char.ofNat (byteAt s i.addr k).toNat) = t := by
    apply List.ext_getElem
    · rw [List.length_map, List.length_range]
    · intro k below inside
      have byte := stored k (Nat.le_of_lt inside)
      rw [List.getElem?_append_left (by simpa [bytes] using inside)] at byte
      have char : byteAt s i.addr k = UInt8.ofNat t[k].toNat := by
        simpa [bytes, List.getElem?_eq_getElem inside] using byte
      rw [List.getElem_map, List.getElem_range, char, char_of_byte (plain _ (List.getElem_mem inside))]
  have zero : Char.ofNat (byteAt s i.addr t.length).toNat = '\x00' := by
    have byte := stored t.length (Nat.le_refl _)
    rw [List.getElem?_append_right (by simp [bytes])] at byte
    simp only [bytes, List.length_map, Nat.sub_self, List.getElem?_cons_zero, Option.getD_some] at byte
    rw [byte]
    rfl
  have passes : ∀ c ∈ t, decide (c ≠ '\x00') = true := by
    intro c inside
    have range := allowed_range (plain c inside)
    refine decide_eq_true fun nul => ?_
    rw [nul] at range
    exact absurd range.1 (by decide)
  rw [front, List.takeWhile_append_of_pos passes, List.range_succ_eq_map, List.map_cons,
    List.map_cons, List.takeWhile_cons_of_neg (by simpa using zero), List.append_nil]

private theorem holds_strcpy (s : State) (i : Item) {t : List Char} (short : t.length < commStrS)
    (plain : ∀ c ∈ t, allowed c = true) : Holds (strcpy s i.addr t) i t where
  short := short
  plain := plain
  stored k le := by
    have there : k < (bytes t ++ [0]).length := by simpa [bytes] using Nat.lt_succ_of_le le
    rw [strcpy, byteAt_putBytes, List.getElem?_eq_getElem there, Option.getD_some, Option.getD_some]

private theorem Holds.strcpy {s : State} {i j : Item} {t u : List Char} (holds : Holds s i t)
    (other : i ≠ j) (short : u.length < commStrS) : Holds (strcpy s j.addr u) i t where
  short := holds.short
  plain := holds.plain
  stored k le := by
    have small : t.length < 32 := holds.short
    have fits : u.length < 32 := short
    have apart := addr_apart other
    have same : (Snmp.strcpy s j.addr u).meter 0 (i.addr + k / 2) = s.meter 0 (i.addr + k / 2) := by
      apply putBytes_other
      have length : (bytes u ++ [0]).length = u.length + 1 := by simp [bytes]
      omega
    rw [byteAt, same]
    exact holds.stored k le

def Represents (s : State) (a : Texts) : Prop := ∀ i, Holds s i (a i)

/-- What a request that is not refused makes of the texts. -/
def Texts.update (a : Texts) (p : Item → Parsed) : Texts := fun i =>
  match p i with
  | .text t => t
  | _ => a i

/-- The texts that a request can carry. -/
def Carried (p : Item → Parsed) : Prop :=
  ∀ i t, p i = .text t → t.length < commStrS ∧ ∀ c ∈ t, allowed c = true

private theorem copyText_allowed {room : Nat} {t u : List Char}
    (copied : copyText room t = some u) :
    u.length ≤ room ∧ ∀ c ∈ u, allowed c = true := by
  induction t generalizing room u with
  | nil => cases copied
  | cons c t ih =>
    rw [copyText] at copied
    split_ifs at copied with quote bad
    · obtain rfl := Option.some.inj copied
      exact ⟨Nat.zero_le _, fun c inside => absurd inside List.not_mem_nil⟩
    · obtain ⟨v, rest, rfl⟩ := Option.map_eq_some_iff.mp copied
      obtain ⟨short, good⟩ := ih rest
      rw [not_or, Bool.not_eq_false] at bad
      refine ⟨by rw [List.length_cons]; omega, fun d inside => ?_⟩
      rcases List.mem_cons.mp inside with rfl | later
      · exact bad.1
      · exact good d later

private theorem carried_parse (body : List Char) : Carried (parse body) := by
  intro i t parsed
  rw [parse, jsonStr] at parsed
  split at parsed
  · cases parsed
  · cases parsed
  split at parsed
  · rename_i rest _
    cases copied : copyText (commStrS - 1) rest with
    | none =>
      rw [copied] at parsed
      cases parsed
    | some u =>
      rw [copied] at parsed
      obtain rfl := Parsed.text.inj parsed
      obtain ⟨short, good⟩ := copyText_allowed copied
      exact ⟨Nat.lt_of_le_of_lt short (by decide), good⟩
  · cases parsed

private theorem represents_storeItem {s : State} {a : Texts} {p : Item → Parsed}
    (carried : Carried p) (represents : Represents s a) (j : Item) :
    Represents (storeItem p s j) fun i => if i = j then a.update p i else a i := by
  intro i
  by_cases same : i = j
  · subst same
    simp only [if_true, storeItem, Texts.update]
    cases parsed : p i with
    | text t => exact holds_strcpy s i (carried i t parsed).1 (carried i t parsed).2
    | absent => exact represents i
    | malformed => exact represents i
  · simp only [same, if_false, storeItem]
    cases parsed : p j with
    | text t => exact (represents i).strcpy same (carried j t parsed).1
    | absent => exact represents i
    | malformed => exact represents i

private theorem represents_storeItems {s : State} {a : Texts} {p : Item → Parsed}
    (carried : Carried p) (represents : Represents s a) (is : List Item) :
    Represents (storeItems p s is) fun i => if i ∈ is then a.update p i else a i := by
  induction is generalizing s a with
  | nil => simpa [storeItems] using represents
  | cons j is ih =>
    have later := ih (represents_storeItem carried represents j)
    have same : (fun i => if i ∈ is then
          Texts.update (fun i => if i = j then a.update p i else a i) p i
        else if i = j then a.update p i else a i) =
        fun i => if i ∈ j :: is then a.update p i else a i := by
      funext i
      by_cases first : i = j
      · simp only [first, Texts.update, List.mem_cons, true_or, if_true]
        split_ifs <;> cases p j <;> rfl
      · simp only [first, Texts.update, List.mem_cons, false_or, if_false]
    rw [same] at later
    exact later

def Texts.post (a : Texts) (body : List Char) : Texts :=
  if refusal a (parse body) = none then a.update (parse body) else a

private theorem Represents.textOf {s : State} {a : Texts} (represents : Represents s a) :
    Snmp.textOf s = a := funext fun i => (represents i).textOf

private theorem Represents.post {s : State} {a : Texts} (represents : Represents s a)
    (body : List Char) :
    Represents (apiSnmpSet s body).1 (a.post body) := by
  rw [apiSnmpSet, represents.textOf, Texts.post]
  cases refused : refusal a (parse body) with
  | some r => exact represents
  | none =>
    have every (i : Item) : i ∈ items := by cases i <;> decide
    have stored := represents_storeItems (carried_parse body) represents items
    simp only [every, if_true] at stored
    rw [if_pos rfl]
    exact stored

/-- What the texts are to be for a request to be safe: names without blanks, passwords of eight
characters, no password without a user and no privacy without authentication. -/
structure Secure (a : Texts) : Prop where
  community : named (a .community) = true
  user : a .v3user = [] ∨ named (a .v3user) = true
  auth : a .v3auth = [] ∨ 8 ≤ (a .v3auth).length
  priv : a .v3priv = [] ∨ 8 ≤ (a .v3priv).length
  authUser : a .v3auth ≠ [] → a .v3user ≠ []
  privAuth : a .v3priv ≠ [] → a .v3auth ≠ []

private theorem named_ne_nil {t : List Char} (good : named t = true) : t ≠ [] := by
  rintro rfl
  exact absurd good (by decide)

/-- What a request that is not refused has passed. -/
structure Passed (a : Texts) (p : Item → Parsed) : Prop where
  wellFormed : ∀ i, p i ≠ .malformed
  community : ∀ t, p .community = .text t → named t = true
  user : ∀ t, p .v3user = .text t → named t = true
  auth : ∀ t, p .v3auth = .text t → 8 ≤ t.length
  priv : ∀ t, p .v3priv = .text t → 8 ≤ t.length
  authUser : p .v3auth ≠ .absent ∨ p .v3priv ≠ .absent → p .v3user = .absent → a .v3user ≠ []
  privAuth : p .v3priv ≠ .absent → p .v3auth = .absent → a .v3auth ≠ []

private theorem passed_of_refusal {a : Texts} {p : Item → Parsed} (accepted : refusal a p = none) :
    Passed a p := by
  unfold refusal at accepted
  split_ifs at accepted with malformed community user password userless authless
  rw [Bool.not_eq_true] at malformed community user password
  rw [Bool.or_eq_false_iff] at password
  have tested {q : Parsed} {test : List Char → Bool} (passes : Parsed.fails q test = false)
      (t : List Char) (here : q = .text t) : test t = true := by
    rw [here, Parsed.fails, Bool.not_eq_false'] at passes
    exact passes
  refine ⟨fun i bad => ?_, tested community, tested user,
    fun t here => of_decide_eq_true (tested password.1 t here),
    fun t here => of_decide_eq_true (tested password.2 t here),
    fun present absent empty => userless ⟨present, absent, empty⟩,
    fun present absent empty => authless ⟨present, absent, empty⟩⟩
  have every : i ∈ items := by cases i <;> decide
  rw [List.any_eq_false] at malformed
  exact malformed i every (decide_eq_true bad)

private theorem Secure.update {a : Texts} (secure : Secure a) {p : Item → Parsed}
    (passed : Passed a p) :
    Secure (a.update p) := by
  have text {i : Item} (absent : p i ≠ .absent) : ∃ t, p i = .text t := by
    cases here : p i with
    | absent => exact absurd here absent
    | malformed => exact absurd here (passed.wellFormed i)
    | text t => exact ⟨t, rfl⟩
  have given {i : Item} {t : List Char} (here : p i = .text t) : a.update p i = t := by
    rw [Texts.update, here]
  have kept {i : Item} (here : p i = .absent) : a.update p i = a i := by
    rw [Texts.update, here]
  have user (needed : a .v3user ≠ [] ∨ p .v3user ≠ .absent) : a.update p .v3user ≠ [] := by
    by_cases absent : p .v3user = .absent
    · rw [kept absent]
      exact needed.resolve_right (not_not.mpr absent)
    · obtain ⟨t, here⟩ := text absent
      rw [given here]
      exact named_ne_nil (passed.user t here)
  have auth (needed : a .v3auth ≠ [] ∨ p .v3auth ≠ .absent) : a.update p .v3auth ≠ [] := by
    by_cases absent : p .v3auth = .absent
    · rw [kept absent]
      exact needed.resolve_right (not_not.mpr absent)
    · obtain ⟨t, here⟩ := text absent
      rw [given here]
      have long := passed.auth t here
      rintro rfl
      exact absurd long (by decide)
  constructor
  · by_cases absent : p .community = .absent
    · exact (kept absent).symm ▸ secure.community
    · obtain ⟨t, here⟩ := text absent
      exact (given here).symm ▸ passed.community t here
  · by_cases absent : p .v3user = .absent
    · exact (kept absent).symm ▸ secure.user
    · obtain ⟨t, here⟩ := text absent
      exact .inr ((given here).symm ▸ passed.user t here)
  · by_cases absent : p .v3auth = .absent
    · exact (kept absent).symm ▸ secure.auth
    · obtain ⟨t, here⟩ := text absent
      exact .inr ((given here).symm ▸ passed.auth t here)
  · by_cases absent : p .v3priv = .absent
    · exact (kept absent).symm ▸ secure.priv
    · obtain ⟨t, here⟩ := text absent
      exact .inr ((given here).symm ▸ passed.priv t here)
  · intro set
    apply user
    by_cases absent : p .v3auth = .absent
    · exact .inl (secure.authUser ((kept absent) ▸ set))
    · by_cases unnamed : p .v3user = .absent
      · exact .inl (passed.authUser (.inl absent) unnamed)
      · exact .inr unnamed
  · intro set
    apply auth
    by_cases absent : p .v3priv = .absent
    · exact .inl (secure.privAuth ((kept absent) ▸ set))
    · by_cases plain : p .v3auth = .absent
      · exact .inl (passed.privAuth absent plain)
      · exact .inr plain

private theorem Secure.post {a : Texts} (secure : Secure a) (body : List Char) :
    Secure (a.post body) := by
  rw [Texts.post]
  split_ifs with accepted
  · exact secure.update (passed_of_refusal accepted)
  · exact secure

def members (a : Texts) : List Member :=
  [⟨"ok".toList, "true".toList⟩, ⟨"commDefault".toList, flag (a .community = "public".toList)⟩,
    ⟨"contact".toList, quoted (a .contact)⟩, ⟨"location".toList, quoted (a .location)⟩,
    ⟨"v3user".toList, quoted (a .v3user)⟩, ⟨"v3auth".toList, flag (a .v3auth ≠ [])⟩,
    ⟨"v3priv".toList, flag (a .v3priv ≠ [])⟩]

private theorem flag_reads (b : Bool) : Reads (flag b) true := by
  intro first stack
  have inside := List.suffix_refl stack
  cases b
  · exact ⟨.after, rfl, .cons inside rfl (.cons inside rfl (.cons inside rfl (.cons inside rfl
      (.cons inside rfl (.nil inside)))))⟩
  · exact ⟨.after, rfl, .cons inside rfl (.cons inside rfl (.cons inside rfl (.cons inside rfl
      (.nil inside))))⟩

private theorem flag_length (b : Bool) : (flag b).length ≤ 5 := by
  cases b <;> decide

private theorem apiSnmpGet_eq {s : State} {a : Texts} (represents : Represents s a) :
    apiSnmpGet s = objText (members a) := by
  have short (i : Item) : (a i).length < 32 := (represents i).short
  have flags := flag_length
  have uncut {t : List Char} (fits : t.length ≤ 159) : snprintf t = t := List.take_of_length_le fits
  rw [apiSnmpGet, represents.textOf, uncut, uncut, uncut]
  · simp only [objText, members, commas, Member.write, quoted, List.map_cons, List.map_nil,
      List.append_assoc, List.cons_append]
    rfl
  all_goals
    simp only [List.length_append]
    have one := flags (decide (a .v3auth ≠ []))
    have two := flags (decide (a .v3priv ≠ []))
    have three := flags (decide (a .community = "public".toList))
    have user := short .v3user
    have contact := short .contact
    have location := short .location
    have texts : "\x7b\"ok\":true,\"commDefault\":".toList.length = 25 ∧
        ",\"contact\":\"".toList.length = 12 ∧ "\",".toList.length = 2 ∧
        "\"location\":\"".toList.length = 12 ∧ "\"v3user\":\"".toList.length = 10 ∧
        "\",\"v3auth\":".toList.length = 11 ∧ ",\"v3priv\":".toList.length = 10 ∧
        "\x7d".toList.length = 1 := by decide
    omega

private theorem apiSnmpGet_accepted {s : State} {a : Texts} (represents : Represents s a) :
    accepts (apiSnmpGet s) = true := by
  have plain (i : Item) : Plain (a i) := by
    intro c inside
    have range := allowed_range ((represents i).plain c inside)
    exact ⟨range.2.2.1, range.2.2.2, range.1⟩
  have every : ∀ m ∈ members a, Plain m.key ∧ Reads m.text true := by
    simp only [members, List.forall_mem_cons, List.not_mem_nil, false_implies, implies_true,
      and_true]
    refine ⟨⟨by decide, flag_reads true⟩, ⟨by decide, flag_reads _⟩,
      ⟨by decide, quoted_string (plain _)⟩, ⟨by decide, quoted_string (plain _)⟩,
      ⟨by decide, quoted_string (plain _)⟩, ⟨by decide, flag_reads _⟩, ⟨by decide, flag_reads _⟩⟩
  rw [apiSnmpGet_eq represents]
  exact accepts_of_reads (@objText_reads (fun _ => true) (members a) (List.cons_ne_nil _ _) every)

private theorem strcpy_other (s : State) {i : Item} {t : List Char} (short : t.length < commStrS)
    (ch : Channel) {off : Nat} (outside : ch ≠ 0 ∨ off < 7300 ∨ 7396 ≤ off) :
    (strcpy s i.addr t).meter ch off = s.meter ch off := by
  by_cases first : ch = 0
  · subst first
    have beyond := outside.resolve_left (not_not.mpr rfl)
    have place := addr_le i
    have fits : t.length < 32 := short
    have length : (bytes t ++ [0]).length = t.length + 1 := by simp [bytes]
    exact putBytes_other s i.addr _ (by omega)
  · exact congrFun (Function.update_of_ne first _ _) off

private theorem apiSnmpSet_other (s : State) (body : List Char) (ch : Channel) {off : Nat}
    (outside : ch ≠ 0 ∨ off < 7300 ∨ 7396 ≤ off) :
    (apiSnmpSet s body).1.meter ch off = s.meter ch off := by
  have item (s : State) (i : Item) :
      (storeItem (parse body) s i).meter ch off = s.meter ch off := by
    rw [storeItem]
    split
    · rename_i t parsed
      exact strcpy_other s (carried_parse body i t parsed).1 ch outside
    · rfl
  have every (is : List Item) (s : State) :
      (storeItems (parse body) s is).meter ch off = s.meter ch off := by
    induction is generalizing s with
    | nil => rfl
    | cons i is ih => exact (ih (storeItem (parse body) s i)).trans (item s i)
  rw [apiSnmpSet]
  cases refusal (textOf s) (parse body) with
  | some r => rfl
  | none => exact every items s

def post (s : State) (body : List Char) : State := (apiSnmpSet s body).1

/-- Whatever is posted to registers that hold secure texts, they hold secure texts afterwards, those
of the accepted requests; no other register has changed, and the reply is a JSON text of them. -/
theorem posts_secure {s : State} {a : Texts} (represents : Represents s a) (secure : Secure a)
    (bodies : List (List Char)) :
    let t := run post s bodies
    let b := run Texts.post a bodies
    Represents t b ∧ Secure b ∧ apiSnmpGet t = objText (members b) ∧
      accepts (apiSnmpGet t) = true ∧
      ∀ ch off, ch ≠ 0 ∨ off < 7300 ∨ 7396 ≤ off → t.meter ch off = s.meter ch off := by
  have free : Along post (fun _ _ => True) s bodies := along_of_forall (fun _ _ => trivial) s
  have held : Represents (run post s bodies) (run Texts.post a bodies) :=
    simulation_run (fun s a body held _ => held.post body) represents free
  refine ⟨held, always_run (fun a body secure => secure.post body) secure bodies,
    apiSnmpGet_eq held, apiSnmpGet_accepted held, fun ch off outside => ?_⟩
  exact always_run (I := fun t => t.meter ch off = s.meter ch off)
    (fun t body same => (apiSnmpSet_other t body ch outside).trans same) rfl bodies

def Texts.factory : Texts
  | .community => "public".toList
  | _ => []

def zeros : State where
  gMeterReady := true
  meter _ _ := 0
  pMeterSnap _ _ := 0
  wvblk _ _ := 0
  psmpMap _ := 0
  utc := (0, 0)
  sysTick1s := 0
  cmdQ := .empty

def factory : State := strcpy zeros 7300 "public".toList

private theorem represents_factory : Represents factory Texts.factory := by
  intro i
  by_cases first : i = .community
  · subst first
    exact holds_strcpy _ .community (by decide) (List.all_eq_true.mp (by decide))
  · have empty : Holds zeros i [] := by
      refine ⟨by decide, List.all_eq_true.mp (by decide), fun k le => ?_⟩
      obtain rfl : k = 0 := Nat.le_zero.mp le
      rfl
    have held : Holds factory i [] := empty.strcpy first (by decide)
    cases i <;> first | exact held | exact absurd rfl first

private theorem secure_factory : Secure Texts.factory :=
  ⟨by decide, .inl rfl, .inl rfl, .inl rfl, fun set => absurd rfl set, fun set => absurd rfl set⟩

/-- A user with a password, then a request for privacy whose password is too short. -/
theorem posts_secure_factory :
    let bodies := ["\x7b\"v3user\":\"ops\",\"v3auth\":\"12345678\"\x7d".toList,
      "\x7b\"v3priv\":\"1234\"\x7d".toList]
    let s := factory
    let t := run post s bodies
    let b := run Texts.post Texts.factory bodies
    Represents t b ∧ Secure b ∧ apiSnmpGet t = objText (members b) ∧
      accepts (apiSnmpGet t) = true ∧
      ∀ ch off, ch ≠ 0 ∨ off < 7300 ∨ 7396 ≤ off → t.meter ch off = s.meter ch off :=
  posts_secure represents_factory secure_factory _

end SV300.Web.Snmp
