/- SV300/Web/Firmware
   digest: The upload of a firmware image into a file, its check, and what a cut-off upload leaves. -/

import SV300.Library.ByteCodec
import SV300.Library.Runs
import SV300.Library.Stream

set_option autoImplicit false
set_option relaxedAutoImplicit false

namespace SV300.Web.Firmware

open SV300.Library.ByteCodec (leNat)
open SV300.Library.Runs
open SV300.Library.Stream

/-- `usrApp.bin`, if there is one. -/
abbrev File := Option (List UInt8)

/-- What the file system does for a request: whether it is mounted and opens the file for reading
and for writing, and the bytes it has room for. -/
structure Volume where
  mounted : Bool
  reads : Bool
  opens : Bool
  room : Nat

inductive Fault
  | noFile
  | badSize
  | unread
  | unsigned
  deriving DecidableEq

/-- The code that `fwCheckUsrApp` returns. -/
def Fault.code : Fault → Int
  | .noFile => -1
  | .badSize => -2
  | .unread => -3
  | .unsigned => -4

abbrev leastSize : Nat := 1024
abbrev mostSize : Nat := 1024 * 1024

abbrev appSign : Nat := 0x5a5a5a5a

/-- `hdr[7]` of the header of 32 bytes. -/
def signWord (image : List UInt8) : Nat := leNat ((image.take 32).drop 28)

/-- `fwCheckUsrApp`: the image's size, or what is wrong with it. -/
def fwCheckUsrApp (v : Volume) (f : File) : Except Fault Nat :=
  if v.mounted then
    match f with
    | none => .error .noFile
    | some image =>
      if image.length < leastSize ∨ mostSize < image.length then .error .badSize
      else if v.reads then
        if (image.take 32).length ≠ 32 then .error .unread
        else if signWord image ≠ appSign then .error .unsigned
        else .ok image.length
      else .error .noFile
  else .error .noFile

/-- Bytes of `s_fwUpBuf`. -/
abbrev fwUpBuf : Nat := 1024

/-- The loop of `apiFwUpload`: what is written to the file, and what is still to come at its end. -/
def uploadLoop : Nat → Nat → Nat → List (List UInt8) → List UInt8 × Nat
  | 0, left, _, _ => ([], left)
  | fuel + 1, left, room, s =>
    if left = 0 then ([], 0)
    else
      let r := receive (min left fwUpBuf) s
      if r.1.isEmpty then ([], left)
      else if room < r.1.length then (r.1.take room, left)
      else
        let rest := uploadLoop fuel (left - r.1.length) (room - r.1.length) r.2
        (r.1 ++ rest.1, rest.2)

inductive UploadReply
  | badSize
  | openFailed
  | failed
  | stored (size : Nat) (check : Except Fault Nat)

/-- `apiFwUpload` for an administrator: a body of `total` bytes announced, arriving as `s`. -/
def apiFwUpload (v : Volume) (total : Nat) (s : List (List UInt8)) (f : File) :
    File × UploadReply :=
  if total < leastSize ∨ mostSize < total then (f, .badSize)
  else if v.opens then
    let r := uploadLoop total total v.room s
    if r.2 = 0 then (some r.1, .stored total (fwCheckUsrApp v (some r.1)))
    else (none, .failed)
  else (f, .openFailed)

/-- The power fails in an upload: the file keeps the first `kept` of the bytes written. -/
def uploadCut (v : Volume) (total : Nat) (s : List (List UInt8)) (kept : Nat) (f : File) : File :=
  if total < leastSize ∨ mostSize < total then f
  else if v.opens then some ((uploadLoop total total v.room s).1.take kept)
  else f

/-- A valid upload: its body arrives in full and has room. -/
def Complete (v : Volume) (total : Nat) (s : List (List UInt8)) : Prop :=
  leastSize ≤ total ∧ total ≤ mostSize ∧ v.opens = true ∧ total ≤ (arrived s).length ∧
    total ≤ v.room

theorem fwCheckUsrApp_ok {v : Volume} {f : File} {n : Nat} :
    fwCheckUsrApp v f = .ok n ↔
      v.mounted = true ∧ v.reads = true ∧ ∃ image, f = some image ∧ image.length = n ∧
        leastSize ≤ n ∧ n ≤ mostSize ∧ signWord image = appSign := by
  unfold fwCheckUsrApp
  constructor
  · intro ok
    by_cases mounted : v.mounted = true
    swap
    · rw [if_neg mounted] at ok
      cases ok
    rw [if_pos mounted] at ok
    cases f with
    | none => cases ok
    | some image =>
      dsimp only at ok
      by_cases size : image.length < leastSize ∨ mostSize < image.length
      · rw [if_pos size] at ok
        cases ok
      rw [if_neg size] at ok
      by_cases reads : v.reads = true
      swap
      · rw [if_neg reads] at ok
        cases ok
      rw [if_pos reads] at ok
      split at ok
      · cases ok
      split at ok
      · cases ok
      rename_i sign
      obtain rfl := Except.ok.inj ok
      exact ⟨mounted, reads, image, rfl, rfl, by omega, by omega, not_not.mp sign⟩
  · rintro ⟨mounted, reads, image, rfl, rfl, least, most, sign⟩
    have header : (image.take 32).length = 32 := by
      rw [List.length_take]
      have : (32 : Nat) ≤ leastSize := by decide
      omega
    rw [if_pos mounted]
    dsimp only
    rw [if_neg (by omega), if_pos reads, if_neg (not_not.mpr header), if_neg (not_not.mpr sign)]

private theorem signWord_begins {part image : List UInt8} (begins : part <+: image)
    (long : 32 ≤ part.length) : signWord part = signWord image := by
  obtain ⟨rest, rfl⟩ := begins
  rw [signWord, signWord, List.take_append_of_le_length long]

/-- The check does not tell an image from a long enough beginning of it. -/
theorem fwCheckUsrApp_begins {v : Volume} {part image : List UInt8} {n : Nat}
    (ok : fwCheckUsrApp v (some image) = .ok n) (begins : part <+: image) :
    fwCheckUsrApp v (some part) = .ok part.length ↔ leastSize ≤ part.length := by
  obtain ⟨mounted, reads, _, same, rfl, -, most, sign⟩ := fwCheckUsrApp_ok.mp ok
  obtain rfl := Option.some.inj same
  have shorter := begins.length_le
  constructor
  · intro passes
    obtain ⟨-, -, _, here, -, least, -, -⟩ := fwCheckUsrApp_ok.mp passes
    exact least
  · intro least
    have header : (32 : Nat) ≤ leastSize := by decide
    refine fwCheckUsrApp_ok.mpr ⟨mounted, reads, part, rfl, rfl, least, le_trans shorter most, ?_⟩
    rw [signWord_begins begins (le_trans header least), sign]

end SV300.Web.Firmware
