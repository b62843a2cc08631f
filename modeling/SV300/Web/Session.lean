/- SV300/Web/Session
   digest: The web server's signed session tokens, how long they are accepted, and its key file. -/

import Mathlib.Data.UInt
import SV300.Library.Hexadecimal

set_option autoImplicit false
set_option relaxedAutoImplicit false

namespace SV300.Web.Session

open SV300.Library.Hexadecimal

inductive Role
  | none
  | viewer
  | admin
  deriving DecidableEq

/-- `ROLE_NONE`, `ROLE_VIEWER` and `ROLE_ADMIN`. -/
def Role.code : Role → Nat
  | .none => 0
  | .viewer => 1
  | .admin => 2

/-- HMAC over SHA-1, of a key and a message: the twenty bytes of the digest. -/
abbrev Mac := List UInt8 → List UInt8 → Fin 20 → UInt8

abbrev webTokLen : Nat := 26

/-- `WEB_SESS_TTL`, eight hours. -/
abbrev webSessTtl : UInt32 := 28800

def bytes (cs : List Char) : List UInt8 := cs.map fun c => UInt8.ofNat c.toNat

/-- `webSign`: the first eight bytes of the digest of the ten characters, in hexadecimal. -/
def webSign (mac : Mac) (key : List UInt8) (head : List Char) : List Char :=
  (List.finRange 8).flatMap fun i =>
    let d := (mac key (bytes (head.take 10)) (i.castLE (by decide))).toNat
    [hexDigit (d / 16), hexDigit (d % 16)]

/-- The signed part of a token: two digits of the role and eight of the expiry. -/
def head (role : Role) (exp : UInt32) : List Char := hexPad 2 role.code ++ hexPad 8 exp.toNat

/-- `webMakeToken` at tick `now`. -/
def webMakeToken (mac : Mac) (key : List UInt8) (now : UInt32) (role : Role) : List Char :=
  head role (now + webSessTtl) ++ webSign mac key (head role (now + webSessTtl))

/-- `hexParse`, from the digits read before. -/
def hexParse (v : UInt32) : List Char → Option UInt32
  | [] => some v
  | c :: t => (hexVal c).bind fun d => hexParse (v <<< 4 ||| UInt32.ofNat d) t

/-- The expiry lies ahead, as a signed difference. -/
def Live (exp now : UInt32) : Prop := 0 < (exp - now).toInt32

instance (exp now : UInt32) : Decidable (Live exp now) := inferInstanceAs (Decidable (_ < _))

/-- `webVerifyToken` at tick `now`. -/
def webVerifyToken (mac : Mac) (key : List UInt8) (now : UInt32) (tok : List Char) : Role :=
  if tok.length ≠ webTokLen then .none
  else
    match hexParse 0 (tok.take 2), hexParse 0 ((tok.drop 2).take 8) with
    | some role, some exp =>
      if role ≠ 1 ∧ role ≠ 2 then .none
      else if webSign mac key (tok.take 10) ≠ (tok.drop 10).take 16 then .none
      else if ¬ Live exp now then .none
      else if role = 2 then .admin else .viewer
    | _, _ => .none

@[simp] theorem webSign_length (mac : Mac) (key : List UInt8) (cs : List Char) :
    (webSign mac key cs).length = 16 := by
  simp [webSign, List.length_flatMap]

@[simp] theorem head_length (role : Role) (exp : UInt32) : (head role exp).length = 10 := by
  simp [head]

@[simp] theorem webMakeToken_length (mac : Mac) (key : List UInt8) (now : UInt32) (role : Role) :
    (webMakeToken mac key now role).length = webTokLen := by
  simp [webMakeToken]

private theorem webSign_cases (mac : Mac) (key : List UInt8) (cs : List Char) :
    ∀ c ∈ webSign mac key cs, c ∈ "0123456789abcdef".toList := by
  intro c inside
  obtain ⟨i, -, here⟩ := List.mem_flatMap.mp inside
  rcases List.mem_cons.mp here with rfl | low
  · exact hexDigit_cases _
  · exact List.mem_singleton.mp low ▸ hexDigit_cases _

theorem webMakeToken_cases (mac : Mac) (key : List UInt8) (now : UInt32) (role : Role) :
    ∀ c ∈ webMakeToken mac key now role, c ∈ "0123456789abcdef".toList := by
  intro c inside
  rcases List.mem_append.mp inside with signed | sign
  · rcases List.mem_append.mp signed with code | exp
    · exact hexPad_cases _ _ c code
    · exact hexPad_cases _ _ c exp
  · exact webSign_cases mac key _ c sign

private theorem shift_or (v : UInt32) {d : Nat} (digit : d < 16) :
    v <<< 4 ||| UInt32.ofNat d = UInt32.ofNat (16 * v.toNat + d) := by
  apply UInt32.toNat_inj.mp
  have range : v.toNat < 2 ^ 32 := v.toNat_lt
  have shifted : (v <<< 4).toNat = (v.toNat % 2 ^ 28) <<< 4 := by
    rw [UInt32.toNat_shiftLeft, Nat.shiftLeft_eq, Nat.shiftLeft_eq]
    change v.toNat * 2 ^ 4 % 2 ^ 32 = _
    omega
  rw [UInt32.toNat_or, shifted, UInt32.toNat_ofNat', UInt32.toNat_ofNat',
    Nat.mod_eq_of_lt (by omega : d < 2 ^ 32), ← Nat.shiftLeft_add_eq_or_of_lt digit,
    Nat.shiftLeft_eq]
  omega

private theorem hexParse_eq (n : Nat) (t : List Char) :
    hexParse (UInt32.ofNat n) t = (hexFrom n t).map UInt32.ofNat := by
  induction t generalizing n with
  | nil => rfl
  | cons c t ih =>
    rw [hexParse, hexFrom]
    cases digit : hexVal c with
    | none => rfl
    | some d =>
      have same : UInt32.ofNat (16 * (UInt32.ofNat n).toNat + d) = UInt32.ofNat (16 * n + d) := by
        apply UInt32.toNat_inj.mp
        simp only [UInt32.toNat_ofNat']
        omega
      rw [Option.bind_some, Option.bind_some, shift_or _ (hexVal_lt digit), same]
      exact ih _

private theorem hexParse_hexPad (w n : Nat) :
    hexParse 0 (hexPad w n) = some (UInt32.ofNat (n % 16 ^ w)) := by
  have zero : (0 : UInt32) = UInt32.ofNat 0 := rfl
  rw [zero, hexParse_eq, hexFrom_hexPad, Nat.zero_mul, Nat.zero_add]
  rfl

private theorem live_iff (exp now : UInt32) :
    Live exp now ↔ 0 < (exp - now).toNat ∧ (exp - now).toNat < 2 ^ 31 := by
  have range := (exp - now).toNat_lt
  have value : (exp - now).toInt32.toInt = ((exp - now).toNat : Int).bmod (2 ^ 32) :=
    BitVec.toInt_eq_toNat_bmod (exp - now).toBitVec
  rw [Live, Int32.lt_iff_toInt_lt, value, Int32.toInt_zero]
  unfold Int.bmod
  dsimp only
  split_ifs <;> omega

/-- A token is accepted for eight hours, and on a clock that has been set back behind its issue by
less than half the clock's range less eight hours. -/
theorem live_issued (issued now : UInt32) :
    Live (issued + webSessTtl) now ↔
      (now - issued).toNat < 28800 ∨ 2 ^ 31 + 28800 < (now - issued).toNat := by
  have one := issued.toNat_lt
  have two := now.toNat_lt
  have ttl : webSessTtl.toNat = 28800 := rfl
  rw [live_iff, UInt32.toNat_sub, UInt32.toNat_sub, UInt32.toNat_add, ttl]
  omega

private theorem code_lt (role : Role) : role.code < 16 ^ 2 := by
  cases role <;> decide

/-- What `webVerifyToken` accepts. -/
structure Accepts (mac : Mac) (key : List UInt8) (now : UInt32) (tok : List Char) (role : Role)
    (exp : UInt32) : Prop where
  known : role ≠ .none
  length : tok.length = webTokLen
  code : hexParse 0 (tok.take 2) = some (UInt32.ofNat role.code)
  expiry : hexParse 0 ((tok.drop 2).take 8) = some exp
  signed : tok.drop 10 = webSign mac key (tok.take 10)
  live : Live exp now

private theorem sign_part {tok : List Char} (length : tok.length = webTokLen) :
    (tok.drop 10).take 16 = tok.drop 10 :=
  List.take_of_length_le (by rw [List.length_drop, length]; exact Nat.le_refl 16)

private theorem webVerifyToken_of_accepts {mac : Mac} {key : List UInt8} {now exp : UInt32}
    {tok : List Char} {role : Role} (accepts : Accepts mac key now tok role exp) :
    webVerifyToken mac key now tok = role := by
  obtain ⟨known, length, code, expiry, signed, live⟩ := accepts
  rw [webVerifyToken, if_neg (not_not.mpr length), code, expiry, sign_part length, signed]
  cases role with
  | none => exact absurd rfl known
  | viewer => simp [Role.code, live]
  | admin => simp [Role.code, live]

theorem accepts_of_webVerifyToken {mac : Mac} {key : List UInt8} {now : UInt32}
    {tok : List Char} (known : webVerifyToken mac key now tok ≠ .none) :
    ∃ exp, Accepts mac key now tok (webVerifyToken mac key now tok) exp := by
  have result : ∀ {role : Role}, webVerifyToken mac key now tok = role → role ≠ .none →
      ∃ exp, Accepts mac key now tok role exp := by
    intro role verified known
    by_cases length : tok.length = webTokLen
    swap
    · rw [webVerifyToken, if_pos length] at verified
      exact absurd verified.symm known
    rw [webVerifyToken, if_neg (not_not.mpr length)] at verified
    split at verified
    · rename_i code exp readCode readExp
      split_ifs at verified with roles sign live isAdmin
      · exact absurd verified.symm known
      · exact absurd verified.symm known
      · subst verified
        refine ⟨exp, known, length, ?_, readExp, ?_, live⟩
        · rw [readCode, isAdmin]
          rfl
        · rw [← sign_part length, not_not.mp sign]
      · subst verified
        refine ⟨exp, known, length, ?_, readExp, ?_, live⟩
        · have viewer : code = 1 := by
            by_contra other
            exact roles ⟨other, isAdmin⟩
          rw [readCode, viewer]
          rfl
        · rw [← sign_part length, not_not.mp sign]
      · exact absurd verified.symm known
    · exact absurd verified.symm known
  exact result rfl known

private theorem head_parts (role : Role) (exp : UInt32) (rest : List Char) :
    (head role exp ++ rest).take 2 = hexPad 2 role.code ∧
      ((head role exp ++ rest).drop 2).take 8 = hexPad 8 exp.toNat ∧
      (head role exp ++ rest).take 10 = head role exp ∧ (head role exp ++ rest).drop 10 = rest := by
  have two : (hexPad 2 role.code).length = 2 := hexPad_length _ _
  have eight : (hexPad 8 exp.toNat).length = 8 := hexPad_length _ _
  refine ⟨?_, ?_, List.take_left' (head_length role exp), List.drop_left' (head_length role exp)⟩
  · rw [head, List.append_assoc, List.take_left' two]
  · rw [head, List.append_assoc, List.drop_left' two, List.take_left' eight]

private theorem hexParse_code (role : Role) :
    hexParse 0 (hexPad 2 role.code) = some (UInt32.ofNat role.code) := by
  rw [hexParse_hexPad, Nat.mod_eq_of_lt (code_lt role)]

private theorem hexParse_exp (exp : UInt32) : hexParse 0 (hexPad 8 exp.toNat) = some exp := by
  have small : exp.toNat < 16 ^ 8 := exp.toNat_lt
  rw [hexParse_hexPad, Nat.mod_eq_of_lt small, UInt32.ofNat_toNat]

private theorem code_injective {r s : Role} (same : UInt32.ofNat r.code = UInt32.ofNat s.code) :
    r = s := by
  cases r <;> cases s <;> first | rfl | exact absurd same (by decide)

theorem webVerifyToken_signed (mac : Mac) (key : List UInt8) (now exp : UInt32) {role : Role}
    (known : role ≠ .none) :
    webVerifyToken mac key now (head role exp ++ webSign mac key (head role exp)) =
      if Live exp now then role else .none := by
  obtain ⟨code, expiry, front, back⟩ := head_parts role exp (webSign mac key (head role exp))
  have length : (head role exp ++ webSign mac key (head role exp)).length = webTokLen := by
    rw [List.length_append, head_length, webSign_length]
  split_ifs with live
  · exact webVerifyToken_of_accepts ⟨known, length, by rw [code, hexParse_code],
      by rw [expiry, hexParse_exp], by rw [back, front], live⟩
  · by_contra accepted
    obtain ⟨exp', accepts⟩ := accepts_of_webVerifyToken accepted
    have same : exp' = exp := by
      have read := accepts.expiry
      rw [expiry, hexParse_exp] at read
      exact (Option.some.inj read).symm
    exact live (same ▸ accepts.live)

/-- Whatever token is accepted with a signed head of the server's own has its role and expiry. -/
theorem accepts_head {mac : Mac} {key : List UInt8} {now exp exp' : UInt32} {tok : List Char}
    {role role' : Role} (accepts : Accepts mac key now tok role exp)
    (own : tok.take 10 = head role' exp') : role = role' ∧ exp = exp' := by
  have text : tok = head role' exp' ++ tok.drop 10 := by rw [← own, List.take_append_drop]
  obtain ⟨code, expiry, -, -⟩ := head_parts role' exp' (tok.drop 10)
  rw [← text] at code expiry
  have readCode := accepts.code
  have readExp := accepts.expiry
  rw [code, hexParse_code] at readCode
  rw [expiry, hexParse_exp] at readExp
  exact ⟨code_injective (Option.some.inj readCode).symm, (Option.some.inj readExp).symm⟩

/-- `WEB_KEY_LEN`. -/
abbrev webKeyLen : Nat := 16

/-- One step of `webRand`. -/
def webRand (state : UInt32) : UInt32 :=
  let x := state ^^^ (state <<< 13)
  let x := x ^^^ (x >>> 17)
  x ^^^ (x <<< 5)

def randKey : Nat → UInt32 → List UInt8
  | 0, _ => []
  | n + 1, state => (webRand state >>> 13).toUInt8 :: randKey n (webRand state)

@[simp] theorem randKey_length (n : Nat) (state : UInt32) : (randKey n state).length = n := by
  induction n generalizing state with
  | zero => rfl
  | succ n ih => rw [randKey, List.length_cons, ih]

/-- What the file system does at a start, and the state `webRandSeed` has left. -/
structure Start where
  opens : Bool
  /-- The bytes written of a new key; none where the file cannot be opened for writing. -/
  wrote : Option Nat
  seed : UInt32

/-- The key the server signs with and its file. -/
structure Keys where
  webKey : List UInt8
  file : Option (List UInt8)

/-- What `fread` gets of the file. -/
def Start.read (b : Start) (file : Option (List UInt8)) : List UInt8 :=
  if b.opens then (file.getD []).take webKeyLen else []

/-- `webKeyLoad`: the file's key, or a new one that is saved. -/
def webKeyLoad (b : Start) (file : Option (List UInt8)) : Keys :=
  if (b.read file).length = webKeyLen then ⟨b.read file, file⟩
  else
    let key := randKey webKeyLen b.seed
    ⟨key, match b.wrote with
      | none => file
      | some n => some (key.take n)⟩

/-- The file holds the key in use. -/
def Saved (k : Keys) : Prop := ∃ file, k.file = some file ∧ file.take webKeyLen = k.webKey ∧
  k.webKey.length = webKeyLen

theorem webKeyLoad_saved {k : Keys} (saved : Saved k) {b : Start} (opens : b.opens = true) :
    webKeyLoad b k.file = k := by
  obtain ⟨file, holds, front, length⟩ := saved
  have read : b.read k.file = k.webKey := by
    rw [Start.read, if_pos opens, holds, Option.getD_some, front]
  rw [webKeyLoad, read, if_pos length]

/-- A start leaves the key saved if it found one or could save its own. -/
theorem saved_webKeyLoad {b : Start} {file : Option (List UInt8)}
    (stores : (b.read file).length = webKeyLen ∨ ∃ n, b.wrote = some n ∧ webKeyLen ≤ n) :
    Saved (webKeyLoad b file) := by
  rw [webKeyLoad]
  split_ifs with found
  · have opens : b.opens = true := by
      by_contra closed
      rw [Start.read, if_neg closed] at found
      cases found
    rw [Start.read, if_pos opens] at found ⊢
    cases file with
    | none => cases found
    | some bytes => exact ⟨bytes, rfl, rfl, found⟩
  · obtain ⟨n, wrote, enough⟩ := stores.resolve_left found
    have all : (randKey webKeyLen b.seed).take n = randKey webKeyLen b.seed :=
      List.take_of_length_le (by rw [randKey_length]; exact enough)
    refine ⟨randKey webKeyLen b.seed, ?_, ?_, randKey_length _ _⟩
    · simp only [wrote, all]
    · exact List.take_of_length_le (by rw [randKey_length])

end SV300.Web.Session
