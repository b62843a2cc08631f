/- SV300/Web/Body
   digest: The web server's search for a key in a JSON body, and what it finds in an object. -/

import SV300.Library.Json
import SV300.Web.Form

set_option autoImplicit false
set_option relaxedAutoImplicit false

namespace SV300.Web.Body

open SV300.Library.Decimal
open SV300.Library.Json
open SV300.Web.Form

/-- The text from the first occurrence of a pattern on. -/
def strstr (pat : List Char) : List Char → Option (List Char)
  | [] => if pat.isEmpty then some [] else none
  | c :: t => if pat.isPrefixOf (c :: t) then some (c :: t) else strstr pat t

/-- The text from the first occurrence of a character on. -/
def strchr (c : Char) : List Char → Option (List Char)
  | [] => none
  | d :: t => if d = c then some (d :: t) else strchr c t

/-- Where the two readers of a value begin: nothing without the key, and within that nothing without
a colon behind it. -/
def behindKey (body key : List Char) : Option (Option (List Char)) :=
  (strstr (quoted key) body).map fun p => (strchr ':' (p.drop (key.length + 2))).map (List.drop 1)

def isBlank (c : Char) : Bool := c ∈ [' ', '\t', '\n', '\x0b', '\x0c', '\r']

/-- The number that the digits at the beginning of a text stand for. -/
def magnitude (t : List Char) : Nat := value (t.takeWhile isDigit)

/-- The C library's `strtoul` to base ten, of 32 bits. -/
def strtoul (t : List Char) : UInt32 :=
  let word (negative : Bool) (v : Nat) : UInt32 :=
    if 2 ^ 32 ≤ v then 0xffffffff else if negative then 0 - UInt32.ofNat v else UInt32.ofNat v
  match t.dropWhile isBlank with
  | [] => 0
  | c :: t =>
    if c = '-' then word true (magnitude t)
    else if c = '+' then word false (magnitude t)
    else word false (magnitude (c :: t))

/-- `jsonNum`. -/
def jsonNum (body key : List Char) : UInt32 :=
  match behindKey body key with
  | some (some t) => strtoul t
  | _ => 0

inductive Parsed
  | absent
  | malformed
  | text (s : List Char)
  deriving DecidableEq

def allowed (c : Char) : Bool := 0x20 ≤ c.toNat && c.toNat ≤ 0x7e && c ≠ '"' && c ≠ '\\'

/-- The characters of a value up to its quote, with room for so many. -/
def copyText : Nat → List Char → Option (List Char)
  | _, [] => none
  | room, c :: t =>
    if c = '"' then some []
    else if allowed c = false ∨ room = 0 then none
    else (copyText (room - 1) t).map (c :: ·)

/-- `jsonStr` into a buffer of `size` bytes. -/
def jsonStr (body key : List Char) (size : Nat) : Parsed :=
  match behindKey body key with
  | none => .absent
  | some none => .malformed
  | some (some t) =>
    match t.dropWhile (· = ' ') with
    | '"' :: t => (copyText (size - 1) t).elim .malformed .text
    | _ => .malformed

/-- The text of `cmd` or `type`: from the next quote behind the colon, cut to the buffer. -/
def quotedText (body key : List Char) (size : Nat) : List Char :=
  match (strstr (quoted key) body).bind (strchr ':') |>.bind (strchr '"') with
  | some (_ :: t) => (t.takeWhile (· ≠ '"')).take (size - 1)
  | _ => []

inductive Value
  | str (s : List Char)
  | num (t : List Char)
  deriving DecidableEq

def Value.write : Value → List Char
  | .str s => quoted s
  | .num t => t

/-- A value that a body can hold: a string without quotes, or a number's text. -/
def Value.Fits : Value → Prop
  | .str s => '"' ∉ s
  | .num t => '"' ∉ t ∧ ':' ∉ t

structure Entry where
  key : List Char
  value : Value
  keyFits : '"' ∉ key ∧ ':' ∉ key
  valueFits : value.Fits

def Entry.member (e : Entry) : Member := ⟨e.key, e.value.write⟩

def object (es : List Entry) : List Char := objText (es.map Entry.member)

/-- What the search for a key finds in an object: the value behind the first string that is the key,
be it a key or a value, and the entries after it. -/
def lookup (key : List Char) : List Entry → Option (Option (Value × List Entry))
  | [] => none
  | e :: es =>
    if e.key = key then some (some (e.value, es))
    else if e.value = .str key then some (es.head?.map fun f => (f.value, es.tail))
    else lookup key es

def behind (es : List Entry) : List Char :=
  match es with
  | [] => ['}']
  | e :: es => ',' :: (commas ((e :: es).map fun e => e.member.write) ++ ['}'])

/-- A name that a search can be for; the buffer for the pattern has room for 17 characters of it. -/
structure Name (key : List Char) : Prop where
  whole : '"' ∉ key
  begins : ∀ c ∈ key.head?, c ∉ ":,\x7d".toList
  some : key ≠ []
  short : key.length ≤ 17

private theorem entry_text (e : Entry) (es : List Entry) :
    commas ((e :: es).map fun e => e.member.write) ++ ['}'] =
      quoted e.key ++ ':' :: (e.value.write ++ behind es) := by
  cases es with
  | nil => simp [commas, Entry.member, Member.write, behind]
  | cons f fs => simp [commas, Entry.member, Member.write, behind]

section Search

variable {key : List Char}

private theorem strstr_skip {t : List Char} (free : '"' ∉ t) (rest : List Char) :
    strstr (quoted key) (t ++ rest) = strstr (quoted key) rest := by
  induction t with
  | nil => rfl
  | cons c t ih =>
    have other : c ≠ '"' := fun same => free (same ▸ List.mem_cons_self)
    have fails : ¬ (quoted key).isPrefixOf (c :: (t ++ rest)) = true := by
      rw [List.isPrefixOf_iff_prefix, quoted, List.cons_prefix_cons]
      exact fun both => other both.1.symm
    rw [List.cons_append, strstr, if_neg fails]
    exact ih fun inside => free (List.mem_cons_of_mem c inside)

private theorem strstr_close (name : Name key) {c : Char} (ends : c ∈ ":,\x7d".toList)
    (rest : List Char) :
    strstr (quoted key) ('"' :: c :: rest) = strstr (quoted key) (c :: rest) := by
  obtain ⟨-, begins, some, -⟩ := name
  cases key with
  | nil => exact absurd rfl some
  | cons d key =>
    have fails : ¬ (quoted (d :: key)).isPrefixOf ('"' :: c :: rest) = true := by
      rw [List.isPrefixOf_iff_prefix, quoted, List.cons_prefix_cons, List.cons_append,
        List.cons_prefix_cons]
      rintro ⟨-, rfl, -⟩
      exact begins d rfl ends
    rw [strstr, if_neg fails]

private theorem strstr_quoted (name : Name key) {s : List Char} (whole : '"' ∉ s) {c : Char}
    (ends : c ∈ ":,\x7d".toList) (rest : List Char) :
    strstr (quoted key) (quoted s ++ c :: rest) =
      if s = key then some (quoted key ++ c :: rest) else strstr (quoted key) (c :: rest) := by
  have text : quoted s ++ c :: rest = '"' :: (s ++ '"' :: c :: rest) := by simp [quoted]
  split_ifs with same
  · have begins : (quoted key).isPrefixOf (quoted s ++ c :: rest) = true := by
      rw [List.isPrefixOf_iff_prefix, same]
      exact List.prefix_append _ _
    rw [text] at begins
    rw [text, strstr, if_pos begins, ← text, same]
  · have fails : ¬ (quoted key).isPrefixOf ('"' :: (s ++ '"' :: c :: rest)) = true := by
      rw [List.isPrefixOf_iff_prefix]
      rintro ⟨t, here⟩
      rw [quoted, List.cons_append, List.append_assoc] at here
      exact same (split_unique name.whole whole (List.cons.inj here).2).symm
    rw [text, strstr, if_neg fails, strstr_skip whole, strstr_close name ends]

private theorem behind_begins (es : List Entry) :
    ∃ c rest, behind es = c :: rest ∧ c ∈ ",\x7d".toList := by
  cases es with
  | nil => exact ⟨'}', [], rfl, by decide⟩
  | cons e es => exact ⟨',', _, rfl, by decide⟩

private theorem ends_of_mem {c : Char} (inside : c ∈ ",\x7d".toList) : c ∈ ":,\x7d".toList :=
  List.mem_of_mem_drop (i := 1) inside

private theorem strstr_char {c : Char} (other : c ≠ '"') (rest : List Char) :
    strstr (quoted key) (c :: rest) = strstr (quoted key) rest :=
  strstr_skip (t := [c]) (fun inside => other (List.mem_singleton.mp inside).symm) rest

private theorem strstr_value (name : Name key) {v : Value} (fits : v.Fits) (es : List Entry) :
    strstr (quoted key) (v.write ++ behind es) =
      if v = .str key then some (quoted key ++ behind es)
      else strstr (quoted key) (behind es) := by
  obtain ⟨c, rest, text, ends⟩ := behind_begins es
  cases v with
  | str s =>
    rw [text, Value.write, strstr_quoted name fits (ends_of_mem ends)]
    simp only [Value.str.injEq]
  | num t => rw [if_neg (by simp), Value.write, strstr_skip fits.1]

private theorem strstr_entries (name : Name key) (es : List Entry) :
    strstr (quoted key) (behind es) = match es with
      | [] => none
      | e :: es =>
        if e.key = key then some (quoted key ++ ':' :: (e.value.write ++ behind es))
        else if e.value = .str key then some (quoted key ++ behind es)
        else strstr (quoted key) (behind es) := by
  cases es with
  | nil =>
    have none : strstr (quoted key) [] = none := rfl
    rw [behind, strstr_char (by decide), none]
  | cons e es =>
    have value := strstr_value name e.valueFits es
    rw [behind, strstr_char (by decide), entry_text,
      strstr_quoted name e.keyFits.1 (by decide), strstr_char (by decide), value]

private theorem strchr_append {c : Char} {t : List Char} (free : c ∉ t) (rest : List Char) :
    strchr c (t ++ c :: rest) = some (c :: rest) ∧ strchr c t = none := by
  induction t with
  | nil => exact ⟨if_pos rfl, rfl⟩
  | cons d t ih =>
    have other : d ≠ c := fun same => free (same ▸ List.mem_cons_self)
    obtain ⟨first, second⟩ := ih fun inside => free (List.mem_cons_of_mem d inside)
    rw [List.cons_append, strchr, strchr, if_neg other, if_neg other]
    exact ⟨first, second⟩

private theorem drop_quoted (rest : List Char) :
    (quoted key ++ rest).drop (key.length + 2) = rest := by
  have length : (quoted key).length = key.length + 2 := by simp [quoted]
  rw [← length, List.drop_left]

private theorem behindKey_behind (name : Name key) (es : List Entry) :
    behindKey (behind es) key =
      (lookup key es).map (Option.map fun v => v.1.write ++ behind v.2) := by
  induction es with
  | nil =>
    rw [behindKey, strstr_entries name]
    rfl
  | cons e es ih =>
    rw [behindKey, strstr_entries name]
    dsimp only
    rw [lookup]
    split_ifs with named valued
    · rw [Option.map_some, drop_quoted, strchr, if_pos rfl]
      rfl
    · rw [Option.map_some, drop_quoted]
      cases es with
      | nil => rfl
      | cons f fs =>
        have colon : ':' ∉ ',' :: quoted f.key := by
          simp only [quoted, List.mem_cons, List.mem_append, not_or]
          exact ⟨by decide, by decide, f.keyFits.2, by decide, by simp⟩
        have text : behind (f :: fs) =
            (',' :: quoted f.key) ++ ':' :: (f.value.write ++ behind fs) := by
          rw [behind, entry_text, List.cons_append]
        rw [text, (strchr_append colon _).1]
        rfl
    · exact ih

end Search

private theorem behindKey_object {key : List Char} (name : Name key) (es : List Entry) :
    behindKey (object es) key =
      (lookup key es).map (Option.map fun v => v.1.write ++ behind v.2) := by
  rw [← behindKey_behind name]
  have same : strstr (quoted key) (object es) = strstr (quoted key) (behind es) := by
    rw [object, objText, List.map_map]
    cases es with
    | nil => rw [strstr_char (by decide)]; rfl
    | cons e es => rw [behind, strstr_char (by decide), strstr_char (by decide)]; rfl
  rw [behindKey, behindKey, same]

/-- What `jsonStr` makes of a value. -/
def Value.parsed (size : Nat) : Value → Parsed
  | .str s => if s.length ≤ size - 1 ∧ s.all allowed = true then .text s else .malformed
  | .num _ => .malformed

private theorem lookup_fits {key : List Char} {es : List Entry} {v : Value × List Entry}
    (here : lookup key es = some (some v)) : v.1.Fits := by
  induction es with
  | nil => cases here
  | cons e es ih =>
    rw [lookup] at here
    split_ifs at here
    · obtain rfl := Option.some.inj (Option.some.inj here)
      exact e.valueFits
    · cases es with
      | nil => cases here
      | cons f fs =>
        obtain rfl := Option.some.inj (Option.some.inj here)
        exact f.valueFits
    · exact ih here

private theorem takeWhile_before {p : Char → Bool} {c : Char} (stops : p c = false)
    (t rest : List Char) :
    (t ++ c :: rest).takeWhile p = t.takeWhile p := by
  induction t with
  | nil => exact List.takeWhile_cons_of_neg (by rw [stops]; decide)
  | cons d t ih => rw [List.cons_append, List.takeWhile_cons, List.takeWhile_cons, ih]

/-- `strtoul` of a value: a string is no number. -/
def Value.number : Value → UInt32
  | .str _ => 0
  | .num t => strtoul t

private theorem value_dec (n : Nat) : value (dec n) = n := by
  induction n using dec.induct with
  | case1 n small =>
    rw [dec, if_pos small, value, List.foldl_cons, List.foldl_nil, (digit_cases n).2]
    omega
  | case2 n large ih =>
    rw [dec, if_neg large, value_concat, ih, (digit_cases n).2]
    omega

/-- A number is read as it was written. -/
theorem strtoul_dec (n : UInt32) : strtoul (dec n.toNat) = n := by
  have digits : (dec n.toNat).takeWhile isDigit = dec n.toNat :=
    List.takeWhile_eq_self_iff.mpr (dec_isDigit n.toNat)
  have small : ¬ 2 ^ 32 ≤ n.toNat := Nat.not_le.mpr n.toNat_lt
  have whole : magnitude (dec n.toNat) = n.toNat := by rw [magnitude, digits, value_dec]
  cases text : dec n.toNat with
  | nil =>
    rw [text] at whole
    have zero : n = 0 := UInt32.toNat_inj.mp whole.symm
    rw [zero]
    rfl
  | cons c t =>
    have digit : isDigit c = true := dec_isDigit n.toNat c (text ▸ List.mem_cons_self)
    have other : isBlank c = false ∧ c ≠ '-' ∧ c ≠ '+' := by
      refine ⟨?_, ?_, ?_⟩
      · by_contra blank
        rw [Bool.not_eq_false, isBlank, decide_eq_true_eq] at blank
        have every : ([' ', '\t', '\n', '\x0b', '\x0c', '\r'].all fun d => !isDigit d) = true := by
          decide
        have none : (!isDigit c) = true := List.all_eq_true.mp every c blank
        rw [digit] at none
        exact Bool.false_ne_true none
      all_goals
        rintro rfl
        exact absurd digit (by decide)
    rw [text] at whole
    rw [strtoul, List.dropWhile_cons_of_neg (by rw [other.1]; decide)]
    simp only [other.2.1, other.2.2, if_false, whole, small, Bool.false_eq_true, UInt32.ofNat_toNat]

private theorem strstr_begins {pat body p : List Char} (found : strstr pat body = some p) :
    pat <+: p := by
  induction body with
  | nil =>
    rw [strstr] at found
    split_ifs at found with empty
    obtain rfl := Option.some.inj found
    rw [List.isEmpty_iff.mp empty]
  | cons c t ih =>
    rw [strstr] at found
    split_ifs at found with begins
    · obtain rfl := Option.some.inj found
      exact List.isPrefixOf_iff_prefix.mp begins
    · exact ih found

private theorem strchr_skip {c : Char} {t : List Char} (free : c ∉ t) (rest : List Char) :
    strchr c (t ++ rest) = strchr c rest := by
  induction t with
  | nil => rfl
  | cons d t ih =>
    have other : d ≠ c := fun same => free (same ▸ List.mem_cons_self)
    rw [List.cons_append, strchr, if_neg other]
    exact ih fun inside => free (List.mem_cons_of_mem d inside)

private theorem strchr_begins {c : Char} {t u : List Char} (found : strchr c t = some u) :
    u = c :: u.drop 1 := by
  induction t with
  | nil => cases found
  | cons d t ih =>
    rw [strchr] at found
    split_ifs at found with same
    · obtain rfl := Option.some.inj found
      rw [same]
      rfl
    · exact ih found

/-- The text that the search finds is taken up to its quote, cut to the buffer. -/
theorem quotedText_object {key : List Char} (name : Name key) (plain : ':' ∉ key) {es rest : List Entry}
    {s : List Char} (found : lookup key es = some (some (.str s, rest))) (size : Nat) :
    quotedText (object es) key size = s.take (size - 1) := by
  have whole : '"' ∉ s := lookup_fits found
  have seen := behindKey_object name es
  rw [found, behindKey] at seen
  obtain ⟨p, place, behindKey⟩ := Option.map_eq_some_iff.mp seen
  obtain ⟨u, colon, after⟩ := Option.map_eq_some_iff.mp behindKey
  obtain ⟨r, rfl⟩ := strstr_begins place
  have free : ':' ∉ quoted key := by simpa [quoted] using plain
  have text : u = ':' :: ((Value.str s).write ++ behind rest) := by
    rw [strchr_begins colon, after]
  rw [drop_quoted] at colon
  have opened : ':' :: ((Value.str s).write ++ behind rest) = [':'] ++ '"' :: (s ++ '"' :: behind rest) := by
    simp [Value.write, quoted]
  have quote : strchr '"' ([':'] ++ '"' :: (s ++ '"' :: behind rest)) =
      some ('"' :: (s ++ '"' :: behind rest)) := (strchr_append (by decide) _).1
  rw [quotedText, place, Option.bind_some, strchr_skip free, colon, Option.bind_some, text, opened,
    quote]
  have cut : (s ++ '"' :: behind rest).takeWhile (· ≠ '"') = s := by
    rw [takeWhile_before (by simp), List.takeWhile_eq_self_iff]
    exact fun c inside => decide_eq_true fun same => whole (same ▸ inside)
  exact congrArg _ cut

/-- Without such a value the first entry of the key is found. -/
theorem lookup_own {key : List Char} {es fs : List Entry} {e : Entry}
    (before : ∀ f ∈ es, f.key ≠ key ∧ f.value ≠ .str key) (own : e.key = key) :
    lookup key (es ++ e :: fs) = some (some (e.value, fs)) := by
  induction es with
  | nil => exact if_pos own
  | cons f es ih =>
    obtain ⟨named, valued⟩ := before f List.mem_cons_self
    rw [List.cons_append, lookup, if_neg named, if_neg valued]
    exact ih fun g inside => before g (List.mem_cons_of_mem f inside)

end SV300.Web.Body
