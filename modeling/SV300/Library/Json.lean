/- SV300/Library/Json
   digest: A reader of JSON texts, texts put together of members and elements, and their prefixes. -/

import Mathlib.Data.List.Induction
import SV300.Library.Decimal

set_option autoImplicit false
set_option relaxedAutoImplicit false

namespace SV300.Library.Json

open SV300.Library.Decimal

/-- How far a number has come. -/
inductive Num | minus | zero | int | point | frac | e | sign | exp
  deriving DecidableEq

def numStart (c : Char) : Option Num :=
  if c = '-' then some .minus
  else if c = '0' then some .zero
  else if isDigit c then some .int
  else none

def numStep : Num → Char → Option Num
  | .minus, c => if c = '0' then some .zero else if isDigit c then some .int else none
  | .zero, c => if c = '.' then some .point else if c = 'e' ∨ c = 'E' then some .e else none
  | .int, c =>
    if isDigit c then some .int
    else if c = '.' then some .point
    else if c = 'e' ∨ c = 'E' then some .e
    else none
  | .point, c => if isDigit c then some .frac else none
  | .frac, c =>
    if isDigit c then some .frac else if c = 'e' ∨ c = 'E' then some .e else none
  | .e, c => if c = '+' ∨ c = '-' then some .sign else if isDigit c then some .exp else none
  | .sign, c => if isDigit c then some .exp else none
  | .exp, c => if isDigit c then some .exp else none

def Num.final : Num → Bool
  | .zero | .int | .frac | .exp => true
  | _ => false

/-- Within a string: its own characters, an escape, or digits left of a `\u` escape. -/
inductive Esc | plain | escape | hex (left : Nat)
  deriving DecidableEq

def isHex (c : Char) : Bool :=
  isDigit c || (decide ('a' ≤ c) && decide (c ≤ 'f')) || (decide ('A' ≤ c) && decide (c ≤ 'F'))

def strStep : Esc → Char → Option Esc
  | .plain, c => if c = '\\' then some .escape else if c.toNat < 32 then none else some .plain
  | .escape, c =>
    if c = 'u' then some (.hex 3)
    else if c ∈ ['"', '\\', '/', 'b', 'f', 'n', 'r', 't'] then some .plain
    else none
  | .hex left, c =>
    if isHex c then (match left with
      | 0 => some .plain
      | left + 1 => some (.hex left))
    else none

inductive Bracket | arr | obj
  deriving DecidableEq

/-- What comes next.  `first` is set right behind an opening bracket. -/
inductive Want
  | value (first : Bool)
  | key (first : Bool)
  | colon
  | after
  | num (n : Num)
  | str (isKey : Bool) (e : Esc)
  | lit (rest : List Char)
  deriving DecidableEq

inductive Move | keep | push (b : Bracket) | pop

def isSpace (c : Char) : Bool := c = ' ' || c = '\t' || c = '\n' || c = '\r'

/-- Behind a value: a comma or the bracket that closes the innermost open one. -/
def nextAfter (top : Option Bracket) (c : Char) : Option (Want × Move) :=
  if isSpace c then some (.after, .keep)
  else if c = ',' then
    match top with
    | some .arr => some (.value false, .keep)
    | some .obj => some (.key false, .keep)
    | none => none
  else if c = ']' ∧ top = some .arr ∨ c = '}' ∧ top = some .obj then some (.after, .pop)
  else none

def next (w : Want) (top : Option Bracket) (c : Char) : Option (Want × Move) :=
  match w with
  | .value first =>
    if isSpace c then some (w, .keep)
    else if c = '"' then some (.str false .plain, .keep)
    else if c = '[' then some (.value true, .push .arr)
    else if c = '{' then some (.key true, .push .obj)
    else if c = ']' ∧ first = true ∧ top = some .arr then some (.after, .pop)
    else if c = 't' then some (.lit ['r', 'u', 'e'], .keep)
    else if c = 'f' then some (.lit ['a', 'l', 's', 'e'], .keep)
    else if c = 'n' then some (.lit ['u', 'l', 'l'], .keep)
    else (numStart c).map fun n => (.num n, .keep)
  | .key first =>
    if isSpace c then some (w, .keep)
    else if c = '"' then some (.str true .plain, .keep)
    else if c = '}' ∧ first = true ∧ top = some .obj then some (.after, .pop)
    else none
  | .colon =>
    if isSpace c then some (w, .keep) else if c = ':' then some (.value false, .keep) else none
  | .after => nextAfter top c
  | .num n =>
    match numStep n c with
    | some n => some (.num n, .keep)
    | none => if n.final then nextAfter top c else none
  | .str isKey e =>
    if e = .plain ∧ c = '"' then some (if isKey then .colon else .after, .keep)
    else (strStep e c).map fun e => (.str isKey e, .keep)
  | .lit rest =>
    match rest with
    | x :: more =>
      if c = x then some (if more = [] then .after else .lit more, .keep) else none
    | [] => none

structure Reader where
  want : Want
  stack : List Bracket
  deriving DecidableEq

def Move.apply : Move → List Bracket → List Bracket
  | .keep, stack => stack
  | .push b, stack => b :: stack
  | .pop, stack => stack.tail

def step (s : Reader) (c : Char) : Option Reader :=
  (next s.want s.stack.head? c).map fun r => ⟨r.1, r.2.apply s.stack⟩

def read (s : Reader) : List Char → Option Reader
  | [] => some s
  | c :: t => (step s c).bind fun s => read s t

def Want.closed : Want → Bool
  | .after => true
  | .num n => n.final
  | _ => false

/-- A JSON text: one value, with white space around it. -/
def accepts (t : List Char) : Bool :=
  match read ⟨.value false, []⟩ t with
  | some s => s.want.closed && s.stack.isEmpty
  | none => false

example : accepts "[\x7b\"a\":-0.50\x7d,[1e3,null]] ".toList = true ∧
    accepts "[nan]".toList = false ∧ accepts "[01]".toList = false := by decide

private theorem read_append (s : Reader) (a b : List Char) :
    read s (a ++ b) = (read s a).bind fun s => read s b := by
  induction a generalizing s with
  | nil => rfl
  | cons c a ih =>
    rw [List.cons_append, read, read, Option.bind_assoc]
    exact congrArg _ (funext ih)

/-- While it reads, the reader leaves the brackets of `base` open. -/
def Above (base : List Bracket) (s : Reader) : List Char → Prop
  | [] => base <:+ s.stack
  | c :: t => base <:+ s.stack ∧ ∀ s', step s c = some s' → Above base s' t

theorem Above.start {base : List Bracket} {s : Reader} {t : List Char} (above : Above base s t) :
    base <:+ s.stack := by
  cases t with
  | nil => exact above
  | cons c t => exact above.1

private theorem Above.append {base : List Bracket} {s : Reader} {a b : List Char}
    (above : Above base s a)
    (then_ : ∀ s', read s a = some s' → Above base s' b) : Above base s (a ++ b) := by
  induction a generalizing s with
  | nil => exact then_ s rfl
  | cons c a ih =>
    refine ⟨above.1, fun s' next => ih (above.2 s' next) fun u rest => then_ u ?_⟩
    rw [read, next]
    exact rest

theorem Above.take {base : List Bracket} {s u : Reader} {t : List Char} (above : Above base s t)
    (k : Nat) (here : read s (t.take k) = some u) : base <:+ u.stack := by
  induction t generalizing s k with
  | nil =>
    rw [List.take_nil] at here
    exact Option.some.inj here ▸ above
  | cons c t ih =>
    cases k with
    | zero => exact Option.some.inj here ▸ above.1
    | succ k =>
      rw [List.take_succ_cons, read] at here
      cases first : step s c with
      | none =>
        rw [first] at here
        cases here
      | some s' =>
        rw [first] at here
        exact ih (above.2 s' first) k here

/-- A reading that ends in `r`, above `base`. -/
structure Path (base : List Bracket) (s : Reader) (t : List Char) (r : Option Reader) : Prop where
  reads : read s t = r
  above : Above base s t

private theorem Path.append {base : List Bracket} {s s' : Reader} {r : Option Reader}
    {a b : List Char}
    (first : Path base s a (some s')) (second : Path base s' b r) : Path base s (a ++ b) r where
  reads := by
    rw [read_append, first.reads]
    exact second.reads
  above := first.above.append fun u here => by
    rw [first.reads] at here
    exact Option.some.inj here ▸ second.above

private theorem Path.dead {base : List Bracket} {s : Reader} {a : List Char}
    (first : Path base s a none) (b : List Char) : Path base s (a ++ b) none where
  reads := by
    rw [read_append, first.reads]
    rfl
  above := first.above.append fun u here => by
    rw [first.reads] at here
    cases here

theorem Path.nil {base : List Bracket} {s : Reader} (inside : base <:+ s.stack) :
    Path base s [] (some s) := ⟨rfl, inside⟩

theorem Path.cons {base : List Bracket} {s s' : Reader} {r : Option Reader} {c : Char}
    {t : List Char} (inside : base <:+ s.stack) (here : step s c = some s')
    (rest : Path base s' t r) : Path base s (c :: t) r where
  reads := by
    rw [read, here]
    exact rest.reads
  above := ⟨inside, fun u next => by
    rw [here] at next
    exact Option.some.inj next ▸ rest.above⟩

private theorem Path.stuck {base : List Bracket} {s : Reader} {c : Char} (t : List Char)
    (inside : base <:+ s.stack) (here : step s c = none) : Path base s (c :: t) none where
  reads := by
    rw [read, here]
    rfl
  above := ⟨inside, fun u next => by
    rw [here] at next
    cases next⟩

private theorem Above.weaken {base part : List Bracket} (sub : part <:+ base) {s : Reader}
    {t : List Char} (above : Above base s t) : Above part s t := by
  induction t generalizing s with
  | nil => exact sub.trans above
  | cons c t ih => exact ⟨sub.trans above.1, fun s' next => ih (above.2 s' next)⟩

private theorem Path.weaken {base part : List Bracket} (sub : part <:+ base) {s : Reader}
    {t : List Char} {r : Option Reader} (path : Path base s t r) : Path part s t r :=
  ⟨path.reads, path.above.weaken sub⟩

/-- A text read to the end of a value if `ok`, and not at all otherwise. -/
def Ends (base : List Bracket) (s : Reader) (t : List Char) (stack : List Bracket) (ok : Bool) :
    Prop :=
  if ok = true then ∃ w : Want, w.closed = true ∧ Path base s t (some ⟨w, stack⟩)
  else Path base s t none

/-- A text that is a value, or is none and stops the reader; wherever a value may stand. -/
def Reads (t : List Char) (ok : Bool) : Prop :=
  ∀ first stack, Ends stack ⟨.value first, stack⟩ t stack ok

private theorem Ends.weaken {base part : List Bracket} (sub : part <:+ base) {s : Reader}
    {t : List Char} {stack : List Bracket} {ok : Bool} (ends : Ends base s t stack ok) :
    Ends part s t stack ok := by
  unfold Ends at ends ⊢
  split_ifs at ends ⊢
  · obtain ⟨w, closed, path⟩ := ends
    exact ⟨w, closed, path.weaken sub⟩
  · exact ends.weaken sub

theorem Ends.before {base stack : List Bracket} {s s' : Reader} {a t : List Char} {ok : Bool}
    (first : Path base s a (some s')) (rest : Ends base s' t stack ok) :
    Ends base s (a ++ t) stack ok := by
  unfold Ends at rest ⊢
  split_ifs at rest ⊢
  · obtain ⟨w, closed, path⟩ := rest
    exact ⟨w, closed, first.append path⟩
  · exact first.append rest

private theorem Ends.and {base mid stack : List Bracket} {s : Reader} {a t : List Char}
    {ok more : Bool} (first : Ends base s a mid ok)
    (rest : ∀ w : Want, w.closed = true → Ends base ⟨w, mid⟩ t stack more) :
    Ends base s (a ++ t) stack (ok && more) := by
  cases ok with
  | false => exact first.dead t
  | true =>
    obtain ⟨w, closed, path⟩ := first
    exact Ends.before path (rest w closed)

theorem stops_first {c : Char} (t : List Char)
    (stops : ∀ first stack, step ⟨.value first, stack⟩ c = none) : Reads (c :: t) false :=
  fun first stack => .stuck t (List.suffix_refl stack) (stops first stack)

theorem stops_second {c d : Char} {w : Want} (t : List Char)
    (begins : ∀ first stack, step ⟨.value first, stack⟩ c = some ⟨w, stack⟩)
    (stops : ∀ stack, step ⟨w, stack⟩ d = none) : Reads (c :: d :: t) false :=
  fun first stack => .cons (List.suffix_refl stack) (begins first stack)
    (.stuck t (List.suffix_refl stack) (stops stack))

private theorem step_closed {w : Want} (closed : w.closed = true) (stack : List Bracket) {c : Char}
    (ends : c = ',' ∨ c = ']' ∨ c = '}') : step ⟨w, stack⟩ c = step ⟨.after, stack⟩ c := by
  cases w with
  | after => rfl
  | num n =>
    have final : n.final = true := closed
    have stops : numStep n c = none := by
      rcases ends with rfl | rfl | rfl <;> cases n <;> decide
    simp only [step, next, stops, final, if_true]
  | value first => cases closed
  | key first => cases closed
  | colon => cases closed
  | str isKey e => cases closed
  | lit rest => cases closed

def numRead (n : Num) : List Char → Option Num
  | [] => some n
  | c :: t => (numStep n c).bind fun n => numRead n t

theorem numRead_append (n : Num) (a b : List Char) :
    numRead n (a ++ b) = (numRead n a).bind fun n => numRead n b := by
  induction a generalizing n with
  | nil => rfl
  | cons c a ih =>
    rw [List.cons_append, numRead, numRead, Option.bind_assoc]
    exact congrArg _ (funext ih)

private theorem path_num {n n' : Num} {t : List Char} (reads : numRead n t = some n')
    (stack : List Bracket) : Path stack ⟨.num n, stack⟩ t (some ⟨.num n', stack⟩) := by
  induction t generalizing n with
  | nil =>
    obtain rfl := Option.some.inj reads
    exact .nil (List.suffix_refl stack)
  | cons c t ih =>
    rw [numRead] at reads
    cases here : numStep n c with
    | none =>
      rw [here] at reads
      cases reads
    | some m =>
      rw [here] at reads
      refine .cons (List.suffix_refl stack) ?_ (ih reads)
      simp only [step, next, here, Option.map_some, Move.apply]

private theorem numStart_other {c : Char} {n : Num} (begins : numStart c = some n) :
    c ∉ [' ', '\t', '\n', '\r', '"', '[', '{', ']', 't', 'f', 'n'] := by
  intro inside
  have every : ([' ', '\t', '\n', '\r', '"', '[', '{', ']', 't', 'f', 'n'].all fun d =>
      numStart d = none) = true := by decide
  have none := of_decide_eq_true (List.all_eq_true.mp every c inside)
  rw [none] at begins
  cases begins

private theorem step_numStart {c : Char} {n : Num} (begins : numStart c = some n) (first : Bool)
    (stack : List Bracket) :
    step ⟨.value first, stack⟩ c = some ⟨.num n, stack⟩ := by
  have other := numStart_other begins
  simp only [List.mem_cons, List.not_mem_nil, or_false, not_or] at other
  obtain ⟨a, b, d, e, quote, arr, obj, close, t, f, nul⟩ := other
  simp [step, next, isSpace, a, b, d, e, quote, arr, obj, close, t, f, nul, begins, Move.apply]

theorem reads_number {c : Char} {t : List Char} {n n' : Num} (begins : numStart c = some n)
    (rest : numRead n t = some n') (final : n'.final = true) : Reads (c :: t) true := by
  intro first stack
  refine ⟨.num n', final, .cons (List.suffix_refl stack) (step_numStart begins first stack) ?_⟩
  exact path_num rest stack

private theorem numStep_digit (n : Nat) : numStep .int (digit n) = some .int ∧
    numStep .point (digit n) = some .frac ∧ numStep .frac (digit n) = some .frac := by
  have isDigit := (digit_cases n).1
  simp only [numStep, isDigit, if_true, and_self]

private theorem digit_pos {n : Nat} (small : n < 10) : digit n = '0' ↔ n = 0 := by
  have every : ∀ d : Fin 10, digit d = '0' ↔ d.val = 0 := by decide
  exact every ⟨n, small⟩

theorem dec_reads (n : Nat) : ∃ c t, dec n = c :: t ∧ isDigit c = true ∧
    (n = 0 ∧ c = '0' ∧ t = [] ∨ n ≠ 0 ∧ c ≠ '0' ∧ numRead .int t = some .int) := by
  induction n using Nat.strongRecOn with
  | ind n ih =>
    rw [dec]
    split_ifs with small
    · refine ⟨digit n, [], rfl, (digit_cases n).1, ?_⟩
      by_cases zero : n = 0
      · exact .inl ⟨zero, (digit_pos small).mpr zero, rfl⟩
      · exact .inr ⟨zero, fun same => zero ((digit_pos small).mp same), rfl⟩
    · obtain ⟨c, t, text, isDigit, ⟨zero, -⟩ | ⟨-, nonzero, rest⟩⟩ := ih (n / 10) (by omega)
      · omega
      · refine ⟨c, t ++ [digit n], by rw [text, List.cons_append], isDigit,
          .inr ⟨by omega, nonzero, ?_⟩⟩
        rw [numRead_append, rest]
        simp only [Option.bind_some, numRead, (numStep_digit n).1]

def signed (negative : Bool) (t : List Char) : List Char := if negative then '-' :: t else t

private theorem signed_dec_reads (negative : Bool) (n : Nat) (tail : List Char) {final : Num}
    (rest : numRead .zero tail = some final ∧ numRead .int tail = some final)
    (ends : final.final = true) : Reads (signed negative (dec n ++ tail)) true := by
  obtain ⟨c, t, text, isDigit, ⟨-, rfl, rfl⟩ | ⟨-, nonzero, digits⟩⟩ := dec_reads n
  · rw [text]
    cases negative with
    | false => exact reads_number rfl rest.1 ends
    | true => exact reads_number (n := .minus) rfl rest.1 ends
  · have more : numRead .int (t ++ tail) = some final := by
      rw [numRead_append, digits]
      exact rest.2
    have other : c ≠ '-' := by
      rintro rfl
      cases isDigit
    rw [text]
    cases negative with
    | false =>
      refine reads_number (n := .int) ?_ more ends
      simp only [numStart, other, nonzero, isDigit, if_true, if_false]
    | true =>
      refine reads_number (c := '-') (n := .minus) rfl ?_ ends
      rw [List.cons_append, numRead]
      simp only [numStep, nonzero, isDigit, if_true, if_false]
      exact more

theorem dec_number (n : Nat) : Reads (dec n) true := by
  obtain ⟨c, t, text, isDigit, ⟨-, rfl, rfl⟩ | ⟨-, nonzero, digits⟩⟩ := dec_reads n
  · rw [text]
    exact reads_number rfl rfl rfl
  · have other : c ≠ '-' := by
      rintro rfl
      cases isDigit
    rw [text]
    refine reads_number (n := .int) ?_ digits rfl
    simp only [numStart, other, nonzero, isDigit, if_true, if_false]

private theorem pad_frac (w n : Nat) : numRead .point (pad (w + 1) n) = some .frac := by
  induction w generalizing n with
  | zero => simp only [pad, List.nil_append, numRead, (numStep_digit n).2.1, Option.bind_some]
  | succ w ih =>
    rw [pad, numRead_append, ih]
    simp only [Option.bind_some, numRead, (numStep_digit n).2.2]

theorem fraction_number (negative : Bool) (n w m : Nat) :
    Reads (signed negative (dec n ++ '.' :: pad (w + 1) m)) true :=
  @signed_dec_reads negative n _ .frac ⟨pad_frac w m, pad_frac w m⟩ rfl

/-- Nothing in the string needs an escape. -/
def Plain (t : List Char) : Prop := ∀ c ∈ t, c ≠ '"' ∧ c ≠ '\\' ∧ 32 ≤ c.toNat

instance (t : List Char) : Decidable (Plain t) := List.decidableBAll _ t

theorem plain_append {a b : List Char} (left : Plain a) (right : Plain b) : Plain (a ++ b) :=
  fun c inside => (List.mem_append.mp inside).elim (left c) (right c)

theorem plain_dec (n : Nat) : Plain (dec n) := by
  have every : ∀ d : Fin 10, Plain [Char.ofNat (48 + d)] := by decide
  have one (n : Nat) : Plain [digit n] := every ⟨n % 10, Nat.mod_lt n (by decide)⟩
  induction n using Nat.strongRecOn with
  | ind n ih =>
    rw [dec]
    split_ifs
    · exact one n
    · exact plain_append (ih _ (by omega)) (one n)

def quoted (t : List Char) : List Char := '"' :: (t ++ ['"'])

private theorem path_plain {t : List Char} (plain : Plain t) (isKey : Bool) (stack : List Bracket) :
    Path stack ⟨.str isKey .plain, stack⟩ (t ++ ['"'])
      (some ⟨if isKey then .colon else .after, stack⟩) := by
  induction t with
  | nil => exact .cons (List.suffix_refl stack) rfl (.nil (List.suffix_refl stack))
  | cons c t ih =>
    obtain ⟨quote, slash, printable⟩ := plain c List.mem_cons_self
    refine .cons (List.suffix_refl stack) ?_ (ih fun d inside =>
      plain d (List.mem_cons_of_mem c inside))
    simp [step, next, strStep, quote, slash, Nat.not_lt.mpr printable, Move.apply]

theorem quoted_string {t : List Char} (plain : Plain t) : Reads (quoted t) true := by
  intro first stack
  exact ⟨.after, rfl, .cons (List.suffix_refl stack) rfl (path_plain plain false stack)⟩

private theorem quoted_key {t : List Char} (plain : Plain t) (first : Bool) (stack : List Bracket) :
    Path stack ⟨.key first, stack⟩ (quoted t) (some ⟨.colon, stack⟩) :=
  .cons (List.suffix_refl stack) rfl (path_plain plain true stack)

def commas : List (List Char) → List Char
  | [] => []
  | [x] => x
  | x :: y :: xs => x ++ ',' :: commas (y :: xs)

/-- A member of an object: its key and the text of its value. -/
structure Member where
  key : List Char
  text : List Char

def Member.write (m : Member) : List Char := quoted m.key ++ ':' :: m.text

def objText (ms : List Member) : List Char := '{' :: (commas (ms.map Member.write) ++ ['}'])

def arrText (vs : List (List Char)) : List Char := '[' :: (commas vs ++ [']'])

private theorem ends_close {stack : List Bracket} {w : Want} (closed : w.closed = true) :
    Ends stack ⟨w, .obj :: stack⟩ ['}'] stack true ∧
      Ends stack ⟨w, .arr :: stack⟩ [']'] stack true := by
  have inside (b : Bracket) : stack <:+ b :: stack := List.suffix_cons b stack
  constructor
  · refine ⟨.after, rfl, .cons (inside _) ?_ (.nil (List.suffix_refl stack))⟩
    rw [step_closed closed _ (.inr (.inr rfl))]
    rfl
  · refine ⟨.after, rfl, .cons (inside _) ?_ (.nil (List.suffix_refl stack))⟩
    rw [step_closed closed _ (.inr (.inl rfl))]
    rfl

private theorem member_ends {m : Member} {ok : Bool} (plain : Plain m.key) (reads : Reads m.text ok)
    (first : Bool) (stack : List Bracket) :
    Ends stack ⟨.key first, stack⟩ m.write stack ok :=
  .before (quoted_key plain first stack) <|
    .before (a := [':']) (.cons (List.suffix_refl stack) rfl (.nil (List.suffix_refl stack)))
      (reads false stack)

private theorem members_end {ok : Member → Bool} {ms : List Member} (some : ms ≠ [])
    (reads : ∀ m ∈ ms, Plain m.key ∧ Reads m.text (ok m)) (first : Bool) (stack : List Bracket) :
    Ends (.obj :: stack) ⟨.key first, .obj :: stack⟩ (commas (ms.map Member.write))
      (.obj :: stack) (ms.all ok) := by
  induction ms generalizing first with
  | nil => exact absurd rfl some
  | cons m ms ih =>
    obtain ⟨plain, text⟩ := reads m List.mem_cons_self
    have head := member_ends plain text first (.obj :: stack)
    cases ms with
    | nil => simpa [commas] using head
    | cons n ms =>
      rw [List.all_cons]
      refine head.and fun w closed => ?_
      refine .before (a := [',']) (.cons (List.suffix_refl _) ?_ (.nil (List.suffix_refl _)))
        (ih (List.cons_ne_nil n ms) (fun x inside => reads x (List.mem_cons_of_mem m inside)) false)
      rw [step_closed closed _ (.inl rfl)]
      rfl

theorem objText_reads {ok : Member → Bool} {ms : List Member} (some : ms ≠ [])
    (reads : ∀ m ∈ ms, Plain m.key ∧ Reads m.text (ok m)) : Reads (objText ms) (ms.all ok) := by
  intro first stack
  have inner := (members_end some reads true stack).weaken (List.suffix_cons .obj stack)
  have whole := inner.and fun w closed => (ends_close closed).1
  rw [Bool.and_true] at whole
  have opened : step ⟨.value first, stack⟩ '{' = .some ⟨.key true, .obj :: stack⟩ := rfl
  exact .before (a := ['{'])
    (.cons (List.suffix_refl stack) opened (.nil (List.suffix_cons .obj stack))) whole

private theorem elements_end {ok : List Char → Bool} {vs : List (List Char)} (some : vs ≠ [])
    (reads : ∀ v ∈ vs, Reads v (ok v)) (first : Bool) (stack : List Bracket) :
    Ends (.arr :: stack) ⟨.value first, .arr :: stack⟩ (commas vs) (.arr :: stack)
      (vs.all ok) := by
  induction vs generalizing first with
  | nil => exact absurd rfl some
  | cons v vs ih =>
    have head := reads v List.mem_cons_self first (.arr :: stack)
    cases vs with
    | nil => simpa [commas] using head
    | cons x vs =>
      rw [List.all_cons]
      refine head.and fun w closed => ?_
      refine .before (a := [',']) (.cons (List.suffix_refl _) ?_ (.nil (List.suffix_refl _)))
        (ih (List.cons_ne_nil x vs) (fun y inside => reads y (List.mem_cons_of_mem v inside)) false)
      rw [step_closed closed _ (.inl rfl)]
      rfl

theorem accepts_of_reads {t : List Char} {ok : Bool} (reads : Reads t ok) : accepts t = ok := by
  have here := reads false []
  cases ok with
  | true =>
    obtain ⟨w, closed, path⟩ := here
    rw [accepts, path.reads]
    simp only [closed, List.isEmpty_nil, Bool.and_self]
  | false => rw [accepts, Path.reads here]

private theorem arrText_reads {ok : List Char → Bool} {vs : List (List Char)} (some : vs ≠ [])
    (reads : ∀ v ∈ vs, Reads v (ok v)) : Reads (arrText vs) (vs.all ok) := by
  intro first stack
  have inner := (elements_end some reads true stack).weaken (List.suffix_cons .arr stack)
  have whole := inner.and fun w closed => (ends_close closed).2
  rw [Bool.and_true] at whole
  have opened : step ⟨.value first, stack⟩ '[' = .some ⟨.value true, .arr :: stack⟩ := rfl
  exact .before (a := ['['])
    (.cons (List.suffix_refl stack) opened (.nil (List.suffix_cons .arr stack))) whole

/-- The reader takes the text as a value or stops in it. -/
def Settled (t : List Char) : Prop := Reads t (accepts t)

theorem Reads.settled {t : List Char} {ok : Bool} (reads : Reads t ok) : Settled t := by
  rw [Settled, accepts_of_reads reads]
  exact reads

theorem objText_settled {ms : List Member} (some : ms ≠ [])
    (parts : ∀ m ∈ ms, Plain m.key ∧ Settled m.text) :
    Settled (objText ms) ∧ accepts (objText ms) = ms.all fun m => accepts m.text := by
  have whole := @objText_reads (fun m => accepts m.text) ms some parts
  exact ⟨whole.settled, accepts_of_reads whole⟩

theorem arrText_settled {vs : List (List Char)} (some : vs ≠ []) (parts : ∀ v ∈ vs, Settled v) :
    Settled (arrText vs) ∧ accepts (arrText vs) = vs.all accepts := by
  have whole := @arrText_reads accepts vs some parts
  exact ⟨whole.settled, accepts_of_reads whole⟩

theorem commas_cons (x : List Char) (xs : List (List Char)) :
    commas (x :: xs) = x ++ xs.flatMap (',' :: ·) := by
  induction xs generalizing x with
  | nil => rw [commas, List.flatMap_nil, List.append_nil]
  | cons y ys ih => rw [commas, ih, List.flatMap_cons, List.cons_append]

theorem not_accepts_take {ok : List Char → Bool} {vs : List (List Char)} (some : vs ≠ [])
    (reads : ∀ v ∈ vs, Reads v (ok v)) {k : Nat} (short : k < (arrText vs).length) :
    accepts ((arrText vs).take k) = false := by
  cases k with
  | zero => rfl
  | succ k =>
    have fewer : k ≤ (commas vs).length := by
      simp only [arrText, List.length_cons, List.length_append, List.length_nil] at short
      omega
    have open_ : step ⟨.value false, []⟩ '[' = .some ⟨.value true, [.arr]⟩ := rfl
    have above : Above [.arr] ⟨.value true, [.arr]⟩ (commas vs) := by
      have inner := elements_end some reads true []
      unfold Ends at inner
      split_ifs at inner
      · obtain ⟨w, -, path⟩ := inner
        exact path.above
      · exact inner.above
    rw [arrText, List.take_succ_cons, List.take_append_of_le_length fewer, accepts, read, open_]
    simp only [Option.bind_some]
    split
    · rename_i s here
      have inside := above.take k here
      cases stack : s.stack with
      | nil =>
        rw [stack] at inside
        exact absurd (List.suffix_nil.mp inside) (List.cons_ne_nil _ _)
      | cons b bs => rw [List.isEmpty_cons, Bool.and_false]
    · rfl

end SV300.Library.Json
