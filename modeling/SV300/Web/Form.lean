/- SV300/Web/Form
   digest: The web server's reading of bodies, cookies and form fields, and the login they decide. -/

import Mathlib.Data.List.TakeWhile
import SV300.Library.Stream
import SV300.Web.Session

set_option autoImplicit false
set_option relaxedAutoImplicit false

namespace SV300.Web.Form

open SV300.Library.Hexadecimal
open SV300.Library.Stream
open SV300.Web.Session

def cstr (cs : List Char) : List Char := cs.takeWhile (· ≠ '\x00')

/-- `webReadBody` into a buffer of `max` bytes. -/
def webReadBody (max contentLength : Nat) (stream : List (List Char)) : List Char :=
  let len := if max ≤ contentLength then max - 1 else contentLength
  cstr (readAll len len len stream)

/-- `cookieToken`'s way through the header: at a place where a name may begin, or on the way to the
next semicolon. -/
def cookieScan (max : Nat) : Bool → List Char → List Char
  | _, [] => []
  | true, c :: t =>
    if c = ' ' ∨ c = ';' then cookieScan max true t
    else if "sid=".toList.isPrefixOf (c :: t) then
      (((c :: t).drop 4).takeWhile fun c => c ≠ ';' ∧ c ≠ ' ').take (max - 1)
    else cookieScan max false t
  | false, c :: t => cookieScan max (c = ';') t

def cookieToken (max : Nat) (cookie : List Char) : List Char := cookieScan max true cookie

/-- `hex2`; any other character counts as zero. -/
def hex2 (c : Char) : Nat := (hexVal c).getD 0

/-- A field's text decoded into a buffer with room for so many characters. -/
def decode : Nat → List Char → List Char
  | 0, _ => []
  | _ + 1, [] => []
  | room + 1, c :: t =>
    if c = '&' then []
    else
      match c, t with
      | '%', a :: b :: t => Char.ofNat (hex2 a * 16 + hex2 b) :: decode room t
      | '+', t => ' ' :: decode room t
      | c, t => c :: decode room t

/-- `formField`'s way through the body: at the beginning of a field or within one. -/
def fieldScan (key : List Char) (max : Nat) : Bool → List Char → Option (List Char)
  | _, [] => none
  | true, c :: t =>
    if (key ++ ['=']).isPrefixOf (c :: t) then
      some (decode (max - 1) ((c :: t).drop (key.length + 1)))
    else fieldScan key max (c = '&') t
  | false, c :: t => fieldScan key max (c = '&') t

/-- `formField`; without the field the buffer is left empty. -/
def formField (body key : List Char) (max : Nat) : List Char :=
  (fieldScan key max true body).getD []

/-- The accounts `apiLogin` knows. -/
def accountRole (user pass : List Char) : Role :=
  if user = "ntek".toList ∧ pass = "0300".toList then .admin
  else if user = "sv300".toList ∧ pass = "0000".toList then .viewer
  else .none

/-- The role that the body of a login asks for, `none` if it is refused. -/
def loginRole (body : List Char) : Role :=
  accountRole (cstr (formField body "username".toList 40)) (cstr (formField body "password".toList 40))

example : loginRole "username=%6Etek&password=0300".toList = .admin ∧
    loginRole "password=0000&username=sv300".toList = .viewer ∧
    loginRole "username=ntek&password=0000".toList = .none := by decide

private theorem webReadBody_eq {max : Nat} (room : 0 < max) (contentLength : Nat)
    (stream : List (List Char)) :
    webReadBody max contentLength stream =
      cstr ((arrived stream).take (min contentLength (max - 1))) := by
  have len : (if max ≤ contentLength then max - 1 else contentLength) =
      min contentLength (max - 1) := by
    split_ifs <;> omega
  rw [webReadBody, len]
  rcases Nat.eq_zero_or_pos (min contentLength (max - 1)) with none | some
  · rw [none]
    rfl
  · rw [readAll_eq some (Nat.le_refl _)]

private theorem cstr_of_plain {cs : List Char} (plain : '\x00' ∉ cs) : cstr cs = cs := by
  rw [cstr, List.takeWhile_eq_self_iff]
  intro c inside
  exact decide_eq_true fun zero => plain (zero ▸ inside)

private theorem cstr_take (n : Nat) (cs : List Char) : cstr (cs.take n) = (cstr cs).take n := by
  induction cs generalizing n with
  | nil => rw [List.take_nil, cstr, List.takeWhile_nil, List.take_nil]
  | cons c cs ih =>
    cases n with
    | zero => rfl
    | succ n =>
      have tail := ih n
      unfold cstr at tail ⊢
      rw [List.take_succ_cons, List.takeWhile_cons, List.takeWhile_cons]
      split_ifs with more
      · rw [tail, List.take_succ_cons]
      · rfl

theorem split_unique {sep : Char} {a b s t : List Char} (left : sep ∉ a) (right : sep ∉ b)
    (same : a ++ sep :: s = b ++ sep :: t) : a = b := by
  have front {u v : List Char} (free : sep ∉ u) : (u ++ sep :: v).takeWhile (· ≠ sep) = u := by
    have passes : ∀ c ∈ u, decide (c ≠ sep) = true := by
      intro c inside
      exact decide_eq_true fun here => free (here ▸ inside)
    rw [List.takeWhile_append_of_pos passes, List.takeWhile_cons_of_neg (by simp),
      List.append_nil]
  rw [← front (v := s) left, same, front right]

private theorem prefix_before {sep : Char} {p a b : List Char} (free : sep ∉ p)
    (begins : p <+: a ++ sep :: b) : p <+: a := by
  rcases List.prefix_or_prefix_of_prefix begins (List.prefix_append a (sep :: b)) with here | past
  · exact here
  · obtain ⟨r, rfl⟩ := past
    cases r with
    | nil => rw [List.append_nil]
    | cons c r =>
      have next := (List.prefix_append_right_inj a).mp begins
      obtain ⟨rfl, -⟩ := List.cons_prefix_cons.mp next
      exact absurd (List.mem_append_right a List.mem_cons_self) free

/-- Another cookie of the header. -/
structure Other (cs : List Char) : Prop where
  whole : ';' ∉ cs
  named : ¬ "sid=".toList <+: cs.dropWhile (· = ' ')

private theorem cookieScan_within {max : Nat} {cs : List Char} (whole : ';' ∉ cs)
    (rest : List Char) :
    cookieScan max false (cs ++ ';' :: rest) = cookieScan max true rest := by
  induction cs with
  | nil => rfl
  | cons c cs ih =>
    have here : decide (c = ';') = false :=
      decide_eq_false fun same => whole (same ▸ List.mem_cons_self)
    rw [List.cons_append, cookieScan, here]
    exact ih fun inside => whole (List.mem_cons_of_mem c inside)

private theorem cookieScan_other (max : Nat) {cs : List Char} (other : Other cs)
    (rest : List Char) :
    cookieScan max true (cs ++ ';' :: rest) = cookieScan max true rest := by
  induction cs with
  | nil => rfl
  | cons c cs ih =>
    obtain ⟨whole, named⟩ := other
    have tail : ';' ∉ cs := fun inside => whole (List.mem_cons_of_mem c inside)
    rw [List.cons_append, cookieScan]
    by_cases blank : c = ' '
    · rw [if_pos (.inl blank)]
      refine ih ⟨tail, fun begins => named ?_⟩
      rw [List.dropWhile_cons_of_pos (p := fun x => decide (x = ' ')) (decide_eq_true blank)]
      exact begins
    · have other : ¬ (c = ' ' ∨ c = ';') :=
        fun either => either.elim blank fun same => whole (same ▸ List.mem_cons_self)
      have fails : ¬ "sid=".toList.isPrefixOf (c :: (cs ++ ';' :: rest)) = true := by
        rw [List.isPrefixOf_iff_prefix, ← List.cons_append]
        intro begins
        apply named
        rw [List.dropWhile_cons_of_neg (by simpa using blank)]
        exact prefix_before (by decide) begins
      rw [if_neg other, if_neg fails]
      exact cookieScan_within tail rest

/-- The header a browser sends: the cookies one after the other. -/
def cookieHeader (before : List (List Char)) (sid : List Char) (after : List Char) : List Char :=
  before.flatMap (· ++ "; ".toList) ++ ("sid=".toList ++ (sid ++ after))

theorem cookieToken_header {max : Nat} {before : List (List Char)} (others : ∀ o ∈ before, Other o)
    {sid after : List Char} (plain : ∀ c ∈ sid, c ≠ ';' ∧ c ≠ ' ') (fits : sid.length < max)
    (ends : after = [] ∨ ∃ t, after = ';' :: t) :
    cookieToken max (cookieHeader before sid after) = sid := by
  have passed : cookieToken max (cookieHeader before sid after) =
      cookieScan max true ("sid=".toList ++ (sid ++ after)) := by
    rw [cookieToken, cookieHeader]
    induction before with
    | nil => rfl
    | cons o before ih =>
      have here := cookieScan_other max (others o List.mem_cons_self)
        (' ' :: (before.flatMap (· ++ "; ".toList) ++ ("sid=".toList ++ (sid ++ after))))
      have later := ih fun o inside => others o (List.mem_cons_of_mem _ inside)
      rw [List.flatMap_cons, List.append_assoc, List.append_assoc]
      exact here.trans later
  have value : (sid ++ after).takeWhile (fun c => c ≠ ';' ∧ c ≠ ' ') = sid := by
    rw [List.takeWhile_append_of_pos fun c inside => decide_eq_true (plain c inside)]
    rcases ends with rfl | ⟨t, rfl⟩
    · exact List.append_nil sid
    · exact (congrArg _ rfl).trans (List.append_nil sid)
  rw [passed]
  change ((sid ++ after).takeWhile _).take (max - 1) = sid
  rw [value, List.take_of_length_le (by omega)]

/-- The ways a browser writes a character of a field. -/
inductive Written : Char → List Char → Prop
  | plain {c : Char} (free : c ∉ "%+&=\x00".toList) : Written c [c]
  | blank : Written ' ' ['+']
  | coded {c a b : Char} {x y : Nat} (high : hexVal a = some x) (low : hexVal b = some y)
      (value : c.toNat = x * 16 + y) : Written c ['%', a, b]

/-- A text and a way to write it. -/
inductive WrittenText : List Char → List Char → Prop
  | nil : WrittenText [] []
  | cons {c : Char} {cs t ts : List Char} (first : Written c t) (rest : WrittenText cs ts) :
      WrittenText (c :: cs) (t ++ ts)

private theorem hexVal_free {a : Char} {x : Nat} (reads : hexVal a = some x) :
    a ∉ "%+&=\x00".toList := by
  intro inside
  have every : ("%+&=\x00".toList.all fun c => (hexVal c).isNone) = true := by decide
  have none : (hexVal a).isNone = true := List.all_eq_true.mp every a inside
  rw [reads] at none
  exact Bool.false_ne_true none

theorem Written.free {c : Char} {t : List Char} (written : Written c t) :
    ∀ d ∈ t, d ∉ "&=\x00".toList := by
  have fewer : ∀ d, d ∈ "&=\x00".toList → d ∈ "%+&=\x00".toList := by
    intro d inside
    exact List.mem_of_mem_drop (i := 2) inside
  intro d inside
  cases written with
  | plain free => exact List.mem_singleton.mp inside ▸ fun bad => free (fewer _ bad)
  | blank =>
    rw [List.mem_singleton.mp inside]
    decide
  | coded high low value =>
    rcases List.mem_cons.mp inside with rfl | inside
    · decide
    rcases List.mem_cons.mp inside with rfl | inside
    · exact fun bad => hexVal_free high (fewer _ bad)
    · exact List.mem_singleton.mp inside ▸ fun bad => hexVal_free low (fewer _ bad)

theorem WrittenText.free {cs t : List Char} (written : WrittenText cs t) :
    ∀ d ∈ t, d ∉ "&=\x00".toList := by
  induction written with
  | nil => exact fun d inside => absurd inside List.not_mem_nil
  | cons first rest ih =>
    exact fun d inside => (List.mem_append.mp inside).elim (first.free d) (ih d)

private theorem decode_end (room : Nat) {rest : List Char}
    (ends : rest = [] ∨ ∃ t, rest = '&' :: t) :
    decode room rest = [] := by
  rcases ends with rfl | ⟨t, rfl⟩ <;> cases room <;> rfl

private theorem decode_written {c : Char} {t : List Char} (written : Written c t) (room : Nat)
    (rest : List Char) : decode (room + 1) (t ++ rest) = c :: decode room rest := by
  cases written with
  | plain free =>
    have one : c ≠ '%' ∧ c ≠ '+' ∧ c ≠ '&' :=
      ⟨fun h => free (h ▸ by decide), fun h => free (h ▸ by decide), fun h => free (h ▸ by decide)⟩
    simp [decode, one.1, one.2.1, one.2.2]
  | blank => rfl
  | coded high low value =>
    rename_i a b x y
    have decoded : Char.ofNat (hex2 a * 16 + hex2 b) = c := by
      rw [hex2, hex2, high, low, Option.getD_some, Option.getD_some, ← value, Char.ofNat_toNat]
    rw [← decoded]
    rfl

private theorem decode_writtenText {cs t : List Char} (written : WrittenText cs t) (room : Nat)
    {rest : List Char} (ends : rest = [] ∨ ∃ t, rest = '&' :: t) :
    decode room (t ++ rest) = cs.take room := by
  induction written generalizing room with
  | nil => exact (decode_end room ends).trans List.take_nil.symm
  | cons first _ ih =>
    cases room with
    | zero => rfl
    | succ room => rw [List.append_assoc, decode_written first, ih, List.take_succ_cons]

/-- A field of a form: its name, its value, and the text the value is written as. -/
structure Field where
  name : List Char
  value : List Char
  text : List Char
  named : ∀ c ∈ name, c ∉ "&=\x00".toList
  written : WrittenText value text

private theorem named_of_all {name : List Char}
    (all : (name.all fun c => decide (c ∉ "&=\x00".toList)) = true) :
    ∀ c ∈ name, c ∉ "&=\x00".toList :=
  fun c inside => of_decide_eq_true (List.all_eq_true.mp all c inside)

def Field.write (f : Field) : List Char := f.name ++ '=' :: f.text

def formBody : List Field → List Char
  | [] => []
  | [f] => f.write
  | f :: g :: fs => f.write ++ '&' :: formBody (g :: fs)

theorem Field.free (f : Field) {c : Char} (bad : c ∈ "&=\x00".toList) :
    c ∉ f.name ∧ c ∉ f.text :=
  ⟨fun inside => f.named c inside bad, fun inside => f.written.free c inside bad⟩

theorem Field.whole (f : Field) : '&' ∉ f.write ∧ '\x00' ∉ f.write := by
  have amp := f.free (c := '&') (by decide)
  have nul := f.free (c := '\x00') (by decide)
  constructor <;> simp only [Field.write, List.mem_append, List.mem_cons, not_or]
  · exact ⟨amp.1, by decide, amp.2⟩
  · exact ⟨nul.1, by decide, nul.2⟩

/-- What follows a field: the end of the body or an ampersand. -/
def After (rest : List Char) : Prop := rest = [] ∨ ∃ t, rest = '&' :: t

private theorem fieldScan_within (key : List Char) (max : Nat) {cs : List Char} (whole : '&' ∉ cs)
    (rest : List Char) :
    fieldScan key max false (cs ++ '&' :: rest) = fieldScan key max true rest ∧
      fieldScan key max false cs = none := by
  induction cs with
  | nil => exact ⟨rfl, rfl⟩
  | cons c cs ih =>
    have here : decide (c = '&') = false :=
      decide_eq_false fun same => whole (same ▸ List.mem_cons_self)
    have tail := ih fun inside => whole (List.mem_cons_of_mem c inside)
    rw [List.cons_append, fieldScan, fieldScan, here]
    exact tail

private theorem begins_iff {key : List Char} (keyed : '=' ∉ key) (f : Field) (rest : List Char) :
    (key ++ ['=']).isPrefixOf (f.write ++ rest) = true ↔ f.name = key := by
  rw [List.isPrefixOf_iff_prefix]
  constructor
  · rintro ⟨t, whole⟩
    rw [Field.write, List.append_assoc, List.append_assoc] at whole
    exact (split_unique keyed (f.free (by decide)).1 whole).symm
  · rintro rfl
    exact ⟨f.text ++ rest, by simp [Field.write]⟩

private theorem write_ne_nil (f : Field) : ∃ c cs, f.write = c :: cs := by
  cases named : f.name with
  | nil => exact ⟨'=', f.text, by rw [Field.write, named]; rfl⟩
  | cons c cs => exact ⟨c, cs ++ '=' :: f.text, by rw [Field.write, named]; rfl⟩

private theorem fieldScan_found {key : List Char} (keyed : '=' ∉ key) (max : Nat) {f : Field}
    (same : f.name = key) {rest : List Char} (ends : After rest) :
    fieldScan key max true (f.write ++ rest) = some (f.value.take (max - 1)) := by
  have begins := (begins_iff keyed f rest).mpr same
  have behind : (f.write ++ rest).drop (key.length + 1) = f.text ++ rest := by
    have length : (key ++ ['=']).length = key.length + 1 := by
      rw [List.length_append, List.length_singleton]
    have text : f.write ++ rest = (key ++ ['=']) ++ (f.text ++ rest) := by
      simp [Field.write, same]
    rw [text, ← length, List.drop_left]
  obtain ⟨c, cs, first⟩ := write_ne_nil f
  rw [first, List.cons_append] at begins behind ⊢
  rw [fieldScan, if_pos begins, behind, decode_writtenText f.written _ ends]

private theorem fieldScan_passed {key : List Char} (keyed : '=' ∉ key) (max : Nat) {f : Field}
    (other : f.name ≠ key) (rest : List Char) :
    fieldScan key max true (f.write ++ '&' :: rest) = fieldScan key max true rest ∧
      fieldScan key max true f.write = none := by
  have fails (rest : List Char) : ¬ (key ++ ['=']).isPrefixOf (f.write ++ rest) = true :=
    fun begins => other ((begins_iff keyed f rest).mp begins)
  have along := fails ('&' :: rest)
  have last := fails []
  have whole := f.whole.1
  obtain ⟨c, cs, first⟩ := write_ne_nil f
  rw [List.append_nil] at last
  rw [first] at along last whole ⊢
  have here : decide (c = '&') = false :=
    decide_eq_false fun same => whole (same ▸ List.mem_cons_self)
  have tail := fieldScan_within key max
    (fun inside => whole (List.mem_cons_of_mem c inside)) rest
  rw [List.cons_append] at along ⊢
  rw [fieldScan, fieldScan, if_neg along, if_neg last, here]
  exact tail

/-- The value of the first field of a name; the empty text without one. -/
def valueOf (key : List Char) (fs : List Field) : List Char :=
  ((fs.find? fun f => f.name = key).map Field.value).getD []

private theorem fieldScan_formBody {key : List Char} (keyed : '=' ∉ key) (max : Nat)
    (fs : List Field)
    {tail : List Char} (ends : After tail) (read : tail = [] ∨ ∃ f ∈ fs, f.name = key) :
    fieldScan key max true (formBody fs ++ tail) =
      (fs.find? fun f => f.name = key).map fun f => f.value.take (max - 1) := by
  induction fs with
  | nil =>
    rcases read with rfl | ⟨f, inside, -⟩
    · rfl
    · cases inside
  | cons f fs ih =>
    by_cases same : f.name = key
    · rw [List.find?_cons_of_pos (p := fun f : Field => f.name = key) (decide_eq_true same)]
      cases fs with
      | nil => exact fieldScan_found keyed max same ends
      | cons g fs =>
        rw [formBody, List.append_assoc]
        exact fieldScan_found keyed max same (.inr ⟨_, rfl⟩)
    · rw [List.find?_cons_of_neg (p := fun f : Field => f.name = key) (by simpa using same)]
      have later : tail = [] ∨ ∃ g ∈ fs, g.name = key := by
        rcases read with none | ⟨g, inside, named⟩
        · exact .inl none
        · rcases List.mem_cons.mp inside with rfl | inside
          · exact absurd named same
          · exact .inr ⟨g, inside, named⟩
      cases fs with
      | nil =>
        rcases later with rfl | ⟨g, inside, -⟩
        · rw [List.append_nil]
          exact (fieldScan_passed keyed max same []).2
        · cases inside
      | cons g fs =>
        rw [formBody, List.append_assoc]
        exact (fieldScan_passed keyed max same _).1.trans (ih later)

private theorem formBody_append {front : List Field} (some : front ≠ []) (rest : List Field) :
    ∃ tail, After tail ∧ formBody (front ++ rest) = formBody front ++ tail := by
  induction front with
  | nil => exact absurd rfl some
  | cons f front ih =>
    cases front with
    | nil =>
      cases rest with
      | nil => exact ⟨[], .inl rfl, (List.append_nil _).symm⟩
      | cons g rest => exact ⟨'&' :: formBody (g :: rest), .inr ⟨_, rfl⟩, rfl⟩
    | cons g front =>
      obtain ⟨tail, ends, text⟩ := ih (List.cons_ne_nil g front)
      refine ⟨tail, ends, ?_⟩
      rw [List.cons_append, List.cons_append, formBody, ← List.cons_append, text, formBody,
        List.append_assoc, List.cons_append]

theorem After.take {tail : List Char} (ends : After tail) (n : Nat) : After (tail.take n) := by
  rcases ends with rfl | ⟨t, rfl⟩
  · exact .inl List.take_nil
  · cases n with
    | zero => exact .inl rfl
    | succ n => exact .inr ⟨t.take n, rfl⟩

private theorem writtenText_plain {t : List Char}
    (plain : (t.all fun c => decide (c ∉ "%+&=\x00".toList)) = true) : WrittenText t t := by
  induction t with
  | nil => exact .nil
  | cons c t ih =>
    rw [List.all_cons, Bool.and_eq_true] at plain
    exact .cons (.plain (of_decide_eq_true plain.1)) (ih plain.2)

/-- The first field of each name lies in the part of the form that there is room for, where the form
is longer than that. -/
def Within (room : Nat) (names : List (List Char)) (fs : List Field) : Prop :=
  (formBody fs).length ≤ room ∨ ∃ front rest, fs = front ++ rest ∧ (formBody front).length ≤ room ∧
    ∀ key ∈ names, ∃ f ∈ front, f.name = key

private theorem formField_formBody {names : List (List Char)} {room : Nat} {fs : List Field}
    (within : Within room names fs) {key : List Char} (asked : key ∈ names) (keyed : '=' ∉ key)
    (max : Nat) :
    formField ((formBody fs).take room) key max = (valueOf key fs).take (max - 1) := by
  have scan : fieldScan key max true ((formBody fs).take room) =
      (fs.find? fun f => f.name = key).map fun f => f.value.take (max - 1) := by
    rcases within with short | ⟨front, rest, rfl, fits, named⟩
    · have whole := fieldScan_formBody keyed max fs (.inl rfl) (.inl rfl)
      rwa [List.append_nil, ← List.take_of_length_le short] at whole
    · obtain ⟨f, inside, same⟩ := named key asked
      obtain ⟨tail, ends, text⟩ := formBody_append (List.ne_nil_of_mem inside) rest
      have here : ∃ g, front.find? (fun f => f.name = key) = some g := by
        rw [← Option.isSome_iff_exists, List.find?_isSome]
        exact ⟨f, inside, decide_eq_true same⟩
      obtain ⟨g, found⟩ := here
      rw [text, List.take_append, List.take_of_length_le fits,
        fieldScan_formBody keyed max front (ends.take _) (.inr ⟨f, inside, same⟩),
        List.find?_append, found, Option.some_or]
  rw [formField, scan, valueOf]
  cases fs.find? fun f => f.name = key with
  | none => exact List.take_nil.symm
  | some f => rfl

private theorem formBody_plain (fs : List Field) : '\x00' ∉ formBody fs := by
  induction fs with
  | nil => exact List.not_mem_nil
  | cons f fs ih =>
    cases fs with
    | nil => exact f.whole.2
    | cons g fs =>
      intro inside
      rcases List.mem_append.mp inside with here | later
      · exact f.whole.2 here
      · rcases List.mem_cons.mp later with amp | later
        · exact absurd amp (by decide)
        · exact ih later

private theorem take_eq_iff {n : Nat} {t : List Char} (short : t.length < n) (cs : List Char) :
    cs.take n = t ↔ cs = t := by
  constructor
  · intro same
    rcases Nat.lt_or_ge cs.length n with fits | long
    · rwa [List.take_of_length_le fits.le] at same
    · have length := congrArg List.length same
      rw [List.length_take, Nat.min_eq_left long] at length
      omega
  · rintro rfl
    exact List.take_of_length_le short.le

def loginFields : List (List Char) := ["username".toList, "password".toList]

/-- A login is decided by the first user name and password of the form, however the form is written
and however it arrives, where the 191 bytes that are read hold the two. -/
theorem loginRole_form {fs : List Field} (within : Within 191 loginFields fs)
    {stream : List (List Char)} (sent : arrived stream = formBody fs) :
    loginRole (webReadBody 192 (formBody fs).length stream) =
      accountRole (cstr (valueOf "username".toList fs)) (cstr (valueOf "password".toList fs)) := by
  have read : webReadBody 192 (formBody fs).length stream = (formBody fs).take 191 := by
    rw [webReadBody_eq (by decide), sent, cstr_take, cstr_of_plain (formBody_plain fs)]
    rcases Nat.le_total (formBody fs).length 191 with short | long
    · rw [Nat.min_eq_left short, List.take_length, List.take_of_length_le short]
    · rw [Nat.min_eq_right long]
  rw [read, loginRole, formField_formBody within (by decide) (by decide),
    formField_formBody within (by decide) (by decide), cstr_take, cstr_take]
  have cut (t cs : List Char) (small : t.length < 40 - 1) : cs.take (40 - 1) = t ↔ cs = t :=
    take_eq_iff small cs
  simp only [accountRole, cut _ _ (show "ntek".toList.length < 40 - 1 by decide),
    cut _ _ (show "0300".toList.length < 40 - 1 by decide),
    cut _ _ (show "sv300".toList.length < 40 - 1 by decide),
    cut _ _ (show "0000".toList.length < 40 - 1 by decide)]

/-- A form with one field before the two, whose values hold a blank and a coded character. -/
def sampleFields : List Field :=
  [⟨"go".toList, "a b".toList, "a+b".toList, named_of_all (by decide),
      .cons (.plain (by decide)) (.cons .blank (.cons (.plain (by decide)) .nil))⟩,
    ⟨"username".toList, "ntek".toList, "n%74ek".toList, named_of_all (by decide),
      .cons (.plain (by decide)) (.cons (.coded (x := 7) (y := 4) rfl rfl rfl)
        (writtenText_plain (t := "ek".toList) (by decide)))⟩,
    ⟨"password".toList, "0300".toList, "0300".toList, named_of_all (by decide),
      writtenText_plain (by decide)⟩]

/-- The fields, and one behind them that there is no room for. -/
def sampleForm : List Field :=
  sampleFields ++ [⟨"to".toList, List.replicate 200 'x', List.replicate 200 'x',
    named_of_all (by decide), writtenText_plain (by decide +kernel)⟩]

private theorem sampleForm_within : Within 191 loginFields sampleForm :=
  .inr ⟨sampleFields, _, rfl, by decide, by decide⟩

theorem loginRole_sampleForm :
    loginRole (webReadBody 192 (formBody sampleForm).length
        ["go=a+b&user".toList, "name=n%74ek&password=0300&to=".toList, List.replicate 200 'x']) =
      accountRole (cstr (valueOf "username".toList sampleForm))
        (cstr (valueOf "password".toList sampleForm)) :=
  loginRole_form sampleForm_within (by decide +kernel)

end SV300.Web.Form
