/- SV300/Mqtt/Payload
   digest: The MQTT payload is a whole JSON array as long as it fits and its numbers are finite. -/

import SV300.Library.Binary32
import SV300.Library.Json
import SV300.Feeder.Payload

set_option autoImplicit false
set_option relaxedAutoImplicit false

namespace SV300.Mqtt

open SV300.Energy.Registers
open Library.Binary32 Library.Decimal Library.Json
open Feeder (SmpChannel Row feederRow notUsed maxCh)

def payloadMax : Nat := 4096

def ap (buf t : List Char) : List Char :=
  if payloadMax - 1 ≤ buf.length then buf else (buf ++ t).take (payloadMax - 1)

/-- What `%f` writes with so many decimals. -/
def printed (places : Nat) : Printed → List Char
  | .number s u => signed s (dec (u / 10 ^ places) ++ '.' :: pad places (u % 10 ^ places))
  | .inf s => signed s "inf".toList
  | .nan => "nan".toList

def hexDigit (n : Nat) : Char := Char.ofNat (if n % 16 < 10 then 48 + n % 16 else 55 + n % 16)

/-- `%02X` of a byte. -/
def hex2 (n : Nat) : List Char := [hexDigit (n / 16), hexDigit n]

/-- `,"key":text` -/
def item (key text : List Char) : List Char := ",\"".toList ++ key ++ "\":".toList ++ text

/-- The key `f<n>_name`. -/
def key (n : Nat) (name : String) : List Char := "f".toList ++ dec n ++ "_".toList ++ name.toList

variable {F : Type}

/-- What one payload is made of. -/
structure Snapshot (F : Type) where
  ch : Nat → SmpChannel F
  temp : F
  sysTick1s : UInt32
  timezone : Int
  fwVer : UInt16

def Snapshot.utc (s : Snapshot F) : UInt32 := s.sysTick1s - UInt32.ofInt (s.timezone * 60)

section
variable (decode : F → Decoded)

def float (places : Nat) (x : F) : List Char := printed places (fixed places (decode x))

def tsText (utc : UInt32) : List Char := dec utc.toNat ++ "000".toList

def versionText (fw : UInt16) : List Char :=
  "V".toList ++ hex2 (fw.toNat / 256 % 256) ++ ".".toList ++ hex2 (fw.toNat % 256)

def commonText (s : Snapshot F) (frequency : F) (nf : Nat) : List Char :=
  "[\x7b\"ts\":".toList ++ tsText s.utc ++ ",\"values\":\x7b\"version\":\"".toList ++
    versionText s.fwVer ++ "\"".toList ++ item "f_type".toList "\"common\"".toList ++
    item "frequency".toList (float decode 3 frequency) ++
    item "temperature".toList (float decode 1 s.temp) ++ item "n_feeder".toList (dec nf) ++
    "\x7d\x7d".toList

def phaseTexts (n : Nat) (name : String) (xs : List F) : List (List Char) :=
  xs.mapIdx fun k x => item (key n name ++ dec (k + 1)) (float decode 3 x)

def rowTexts (utc : UInt32) (row : Row F) : List (List Char) :=
  let n := row.number
  [",\x7b\"ts\":".toList ++ tsText utc ++ ",\"values\":\x7b\"".toList ++ key n "type" ++
      "\":\"".toList ++ row.ftype.toList ++ "\"".toList] ++
    phaseTexts decode n "volt" row.volt ++ phaseTexts decode n "amp" row.amp ++
    [item (key n "watt") (float decode 3 row.watt) ++ item (key n "var") (float decode 3 row.var) ++
        item (key n "VA") (float decode 3 row.VA) ++ item (key n "PF") (float decode 3 row.PF),
      item (key n "kwh_imp") (dec row.kwh_imp.toNat) ++
        item (key n "kvarh_imp") (dec row.kvarh_imp.toNat) ++
        item (key n "kvah") (dec row.kvah.toNat),
      item (key n "unbal") (float decode 3 row.unbal) ++
        item (key n "thd") (float decode 3 row.thd) ++ "\x7d\x7d".toList]

variable [Single F]

def prints (s : Snapshot F) : List (List Char) :=
  let p := Feeder.buildPayload s.ch
  [commonText decode s p.frequency p.n_feeder] ++ p.rows.flatMap (rowTexts decode s.utc) ++
    ["]".toList]

def buildPayload (s : Snapshot F) : List Char := (prints decode s).foldl ap []

end

/-- A JSON object with a time stamp and values, among them a type. -/
def IsObject (typeKey : List Char) (t : List Char) : Prop :=
  accepts t = true ∧ ∃ ts type values, t = objText [⟨"ts".toList, ts⟩, ⟨"values".toList, objText values⟩] ∧
    ⟨typeKey, quoted type⟩ ∈ values

def usedFeeders (s : Snapshot F) : List Nat :=
  (List.range maxCh).filter fun f => (s.ch f).cbType ≠ notUsed

/-- A JSON text that is an array of a common object and an object for each used feeder. -/
structure Complete (s : Snapshot F) (t : List Char) : Prop where
  accepted : accepts t = true
  objects : ∃ common rows, t = arrText (common :: rows) ∧ IsObject "f_type".toList common ∧
    List.Forall₂ (fun f row => IsObject (key (f + 1) "type") row) (usedFeeders s) rows

private theorem take_take_append (n : Nat) (a b : List Char) :
    (a.take n ++ b).take n = (a ++ b).take n := by
  rcases Nat.le_total a.length n with fits | exceeds
  · rw [List.take_of_length_le fits]
  · have cut : n ≤ (a.take n).length := by
      rw [List.length_take]
      omega
    rw [List.take_append_of_le_length cut, List.take_append_of_le_length exceeds, List.take_take,
      Nat.min_self]

private theorem ap_eq (buf t : List Char) (bound : buf.length ≤ payloadMax - 1) :
    ap buf t = (buf ++ t).take (payloadMax - 1) := by
  unfold ap
  split_ifs with full
  · rw [List.take_append_of_le_length full, List.take_of_length_le bound]
  · rfl

private theorem foldl_ap (ts : List (List Char)) (buf : List Char)
    (bound : buf.length ≤ payloadMax - 1) :
    ts.foldl ap buf = (buf ++ ts.flatten).take (payloadMax - 1) := by
  induction ts generalizing buf with
  | nil => rw [List.foldl_nil, List.flatten_nil, List.append_nil, List.take_of_length_le bound]
  | cons t ts ih =>
    rw [List.foldl_cons, ap_eq buf t bound, ih _ (List.length_take_le _ _), take_take_append,
      List.flatten_cons, List.append_assoc]

private theorem item_eq (k t : List Char) : item k t = ',' :: Member.write ⟨k, t⟩ := by
  simp [item, Member.write, quoted]

private theorem objText_cons (m : Member) (ms : List Member) :
    objText (m :: ms) =
      '{' :: (m.write ++ (ms.flatMap fun m => item m.key m.text) ++ ['}']) := by
  simp only [objText, List.map_cons, commas_cons, List.flatMap_map, item_eq]

section
variable (decode : F → Decoded)

def commonMembers (s : Snapshot F) (frequency : F) (nf : Nat) : List Member :=
  [⟨"version".toList, quoted (versionText s.fwVer)⟩, ⟨"f_type".toList, quoted "common".toList⟩,
    ⟨"frequency".toList, float decode 3 frequency⟩,
    ⟨"temperature".toList, float decode 1 s.temp⟩, ⟨"n_feeder".toList, dec nf⟩]

def phaseMembers (n : Nat) (name : String) (xs : List F) : List Member :=
  xs.mapIdx fun k x => ⟨key n name ++ dec (k + 1), float decode 3 x⟩

def rowMembers (row : Row F) : List Member :=
  let n := row.number
  ⟨key n "type", quoted row.ftype.toList⟩ ::
    (phaseMembers decode n "volt" row.volt ++ phaseMembers decode n "amp" row.amp ++
      [⟨key n "watt", float decode 3 row.watt⟩, ⟨key n "var", float decode 3 row.var⟩,
        ⟨key n "VA", float decode 3 row.VA⟩, ⟨key n "PF", float decode 3 row.PF⟩,
        ⟨key n "kwh_imp", dec row.kwh_imp.toNat⟩, ⟨key n "kvarh_imp", dec row.kvarh_imp.toNat⟩,
        ⟨key n "kvah", dec row.kvah.toNat⟩, ⟨key n "unbal", float decode 3 row.unbal⟩,
        ⟨key n "thd", float decode 3 row.thd⟩])

def object (utc : UInt32) (values : List Member) : List Char :=
  objText [⟨"ts".toList, tsText utc⟩, ⟨"values".toList, objText values⟩]

def objects [Single F] (s : Snapshot F) : List (List Char) :=
  let p := Feeder.buildPayload s.ch
  object s.utc (commonMembers decode s p.frequency p.n_feeder) ::
    p.rows.map fun row => object s.utc (rowMembers decode row)

private theorem object_eq (utc : UInt32) (m : Member) (ms : List Member) :
    object utc (m :: ms) = "\x7b\"ts\":".toList ++ tsText utc ++ ",\"values\":\x7b".toList ++
      m.write ++ (ms.flatMap fun m => item m.key m.text) ++ "\x7d\x7d".toList := by
  rw [object, objText_cons, objText_cons]
  simp [item, Member.write, quoted]

private theorem commonText_eq (s : Snapshot F) (frequency : F) (nf : Nat) :
    commonText decode s frequency nf =
      '[' :: object s.utc (commonMembers decode s frequency nf) := by
  unfold commonText commonMembers
  rw [object_eq]
  simp [item, Member.write, quoted]

private theorem phaseTexts_flatten (n : Nat) (name : String) (xs : List F) :
    (phaseTexts decode n name xs).flatten =
      (phaseMembers decode n name xs).flatMap fun m => item m.key m.text := by
  rw [phaseTexts, phaseMembers, List.flatMap_def]
  congr 1
  apply List.ext_getElem
  · simp
  · intro i lower upper
    simp

private theorem rowTexts_flatten (utc : UInt32) (row : Row F) :
    (rowTexts decode utc row).flatten = ',' :: object utc (rowMembers decode row) := by
  rw [rowMembers, object_eq, rowTexts]
  simp [phaseTexts_flatten, Member.write, quoted]

private theorem prints_flatten [Single F] (s : Snapshot F) :
    (prints decode s).flatten = arrText (objects decode s) := by
  have rows (rs : List (Row F)) : (rs.flatMap (rowTexts decode s.utc)).flatten =
      (rs.map fun row => object s.utc (rowMembers decode row)).flatMap (',' :: ·) := by
    induction rs with
    | nil => rfl
    | cons row rs ih =>
      rw [List.flatMap_cons, List.flatten_append, rowTexts_flatten, ih, List.map_cons,
        List.flatMap_cons]
  simp only [prints, objects, arrText, commas_cons, List.flatten_append, List.flatten_cons,
    List.flatten_nil, rows, commonText_eq]
  simp

private theorem buildPayload_eq [Single F] (s : Snapshot F) :
    buildPayload decode s = (arrText (objects decode s)).take (payloadMax - 1) := by
  rw [buildPayload, foldl_ap _ [] (Nat.zero_le _), prints_flatten, List.nil_append]

end

def finite : Decoded → Bool
  | .finite .. => true
  | .infinite _ | .nan => false

private theorem printed_reads (places : Nat) (d : Decoded) :
    Reads (printed (places + 1) (fixed (places + 1) d)) (finite d) := by
  cases d with
  | finite s m => exact fraction_number s _ places _
  | nan => exact stops_second (c := 'n') (d := 'a') ['n'] (fun _ _ => rfl) fun _ => rfl
  | infinite s =>
    cases s with
    | false => exact stops_first (c := 'i') ['n', 'f'] fun _ _ => rfl
    | true => exact stops_second (c := '-') (d := 'i') ['n', 'f'] (fun _ _ => rfl) fun _ => rfl

private theorem tsText_reads (utc : UInt32) : Reads (tsText utc) (decide (utc ≠ 0)) := by
  obtain ⟨c, t, text, isDigit, ⟨zero, rfl, rfl⟩ | ⟨set, nonzero, digits⟩⟩ := dec_reads utc.toNat
  · have none : utc = 0 := UInt32.toNat_inj.mp zero
    rw [tsText, text, none]
    exact stops_second (c := '0') (d := '0') ['0', '0'] (fun _ _ => rfl) fun _ => rfl
  · have other : utc ≠ 0 := fun none => set (none ▸ rfl)
    have begins : numStart c = some .int := by
      have minus : c ≠ '-' := by
        rintro rfl
        cases isDigit
      simp only [numStart, minus, nonzero, isDigit, if_true, if_false]
    have rest : numRead .int (t ++ "000".toList) = some .int := by
      rw [numRead_append, digits]
      rfl
    rw [decide_eq_true other, tsText, text]
    exact reads_number begins rest rfl

private theorem plain_key (n : Nat) {name : String} (plain : Plain name.toList) :
    Plain (key n name) :=
  plain_append (plain_append (plain_append (by decide) (plain_dec n)) (by decide)) plain

private theorem plain_version (fw : UInt16) : Plain (versionText fw) := by
  have every : ∀ d : Fin 16, Plain [hexDigit d] := by decide
  have one (n : Nat) : Plain [hexDigit n] := by
    have same : hexDigit n = hexDigit (n % 16) := by rw [hexDigit, hexDigit, Nat.mod_mod]
    rw [same]
    exact every ⟨n % 16, Nat.mod_lt n (by decide)⟩
  have two (n : Nat) : Plain (hex2 n) := plain_append (one (n / 16)) (one n)
  exact plain_append (plain_append (plain_append (by decide) (two _)) (by decide)) (two _)

private theorem plain_feederType (w : Feeder.WiringMode) : Plain (Feeder.feederType w).toList := by
  unfold Feeder.feederType
  split_ifs <;> decide

section
variable (decode : F → Decoded)

private theorem float_settled (places : Nat) (x : F) :
    Settled (float decode (places + 1) x) ∧
      accepts (float decode (places + 1) x) = finite (decode x) :=
  ⟨(printed_reads places (decode x)).settled, accepts_of_reads (printed_reads places (decode x))⟩

/-- A list of members that are read or stop the reader. -/
def Sound (ms : List Member) : Prop := ∀ m ∈ ms, Plain m.key ∧ Settled m.text

private theorem sound_phases (n : Nat) {name : String} (plain : Plain name.toList) (xs : List F) :
    Sound (phaseMembers decode n name xs) := by
  intro m inside
  obtain ⟨i, lower, rfl⟩ := List.mem_mapIdx.mp inside
  exact ⟨plain_append (plain_key n plain) (plain_dec _), (float_settled decode 2 _).1⟩

private theorem all_phases (n : Nat) (name : String) (xs : List F) :
    ((phaseMembers decode n name xs).all fun m => accepts m.text) =
      xs.all fun x => finite (decode x) := by
  have shifted (f : Nat → List Char) : ((xs.mapIdx fun k x => Member.mk (f k) (float decode 3 x)).all
      fun m => accepts m.text) = xs.all fun x => finite (decode x) := by
    induction xs generalizing f with
    | nil => rfl
    | cons x xs ih =>
      rw [List.mapIdx_cons, List.all_cons, List.all_cons, (float_settled decode 2 x).2,
        ih fun k => f (k + 1)]
  exact shifted fun k => key n name ++ dec (k + 1)

private theorem sound_common (s : Snapshot F) (frequency : F) (nf : Nat) :
    Sound (commonMembers decode s frequency nf) ∧
      ((commonMembers decode s frequency nf).all fun m => accepts m.text) =
        (finite (decode frequency) && finite (decode s.temp)) := by
  have version := quoted_string (plain_version s.fwVer)
  have type : Reads (quoted "common".toList) true := quoted_string (by decide)
  have freq := float_settled decode 2 frequency
  have temp := float_settled decode 0 s.temp
  have number := dec_number nf
  constructor
  · simp only [Sound, commonMembers, List.forall_mem_cons]
    exact ⟨⟨by decide, version.settled⟩, ⟨by decide, type.settled⟩, ⟨by decide, freq.1⟩,
      ⟨by decide, temp.1⟩, ⟨by decide, number.settled⟩, nofun⟩
  · simp only [commonMembers, List.all_cons, List.all_nil, accepts_of_reads version,
      accepts_of_reads type, freq.2, temp.2, accepts_of_reads number, Bool.true_and, Bool.and_true]

def values (row : Row F) : List F :=
  row.volt ++ row.amp ++ [row.watt, row.var, row.VA, row.PF, row.unbal, row.thd]

private theorem sound_row {row : Row F} (plain : Plain row.ftype.toList) :
    Sound (rowMembers decode row) ∧ ((rowMembers decode row).all fun m => accepts m.text) =
      (values row).all fun x => finite (decode x) := by
  have type := quoted_string plain
  have number (x : UInt32) := dec_number x.toNat
  have value (x : F) := float_settled decode 2 x
  have named {name : String} (plain : Plain name.toList) := plain_key row.number plain
  constructor
  · simp only [Sound, rowMembers, List.forall_mem_cons, List.forall_mem_append]
    refine ⟨⟨named (by decide), type.settled⟩, ⟨sound_phases decode _ (by decide) _,
      sound_phases decode _ (by decide) _⟩, ⟨named (by decide), (value _).1⟩,
      ⟨named (by decide), (value _).1⟩, ⟨named (by decide), (value _).1⟩,
      ⟨named (by decide), (value _).1⟩, ⟨named (by decide), (number _).settled⟩,
      ⟨named (by decide), (number _).settled⟩, ⟨named (by decide), (number _).settled⟩,
      ⟨named (by decide), (value _).1⟩, ⟨named (by decide), (value _).1⟩, nofun⟩
  · have counters (x : UInt32) : accepts (dec x.toNat) = true := accepts_of_reads (number x)
    have floats (x : F) : accepts (float decode 3 x) = finite (decode x) := (value x).2
    simp only [rowMembers, values, List.all_cons, List.all_append, List.all_nil, all_phases,
      accepts_of_reads type, counters, floats, Bool.true_and, Bool.and_true]

private theorem object_settled (utc : UInt32) {ms : List Member} (some : ms ≠ [])
    (sound : Sound ms) :
    Settled (object utc ms) ∧
      accepts (object utc ms) = (decide (utc ≠ 0) && ms.all fun m => accepts m.text) := by
  have stamp := tsText_reads utc
  obtain ⟨inner, text⟩ := objText_settled some sound
  have parts : ∀ m ∈ [Member.mk "ts".toList (tsText utc), ⟨"values".toList, objText ms⟩],
      Plain m.key ∧ Settled m.text := by
    simp only [List.forall_mem_cons]
    exact ⟨⟨by decide, stamp.settled⟩, ⟨by decide, inner⟩, nofun⟩
  obtain ⟨whole, all⟩ := objText_settled (List.cons_ne_nil _ _) parts
  refine ⟨whole, all.trans ?_⟩
  rw [List.all_cons, List.all_cons, List.all_nil, accepts_of_reads stamp, text, Bool.and_true]

/-- The characters of one feeder's object, and of the comma before it. -/
def rowSize (utc : UInt32) (row : Row F) : Nat :=
  let n := (dec row.number).length
  let width (x : F) := (float decode 3 x).length
  let figures (x : UInt32) := (dec x.toNat).length
  127 + 10 * n + figures utc + row.ftype.toList.length +
    (row.volt.mapIdx fun k x => 10 + n + (dec (k + 1)).length + width x).sum +
    (row.amp.mapIdx fun k x => 9 + n + (dec (k + 1)).length + width x).sum +
    width row.watt + width row.var + width row.VA + width row.PF + figures row.kwh_imp +
    figures row.kvarh_imp + figures row.kvah + width row.unbal + width row.thd

variable [Single F]

def size (s : Snapshot F) : Nat :=
  let p := Feeder.buildPayload s.ch
  100 + (dec s.utc.toNat).length + (float decode 3 p.frequency).length +
    (float decode 1 s.temp).length + (dec p.n_feeder).length +
    (p.rows.map (rowSize decode s.utc)).sum

private theorem item_length (k t : List Char) : (item k t).length = 4 + k.length + t.length := by
  simp [item]
  omega

private theorem key_length (n : Nat) (name : String) :
    (key n name).length = 2 + (dec n).length + name.toList.length := by
  simp [key]
  omega

omit [Single F] in
private theorem phaseTexts_length (n : Nat) (name : String) (xs : List F) :
    (phaseTexts decode n name xs).flatten.length =
      (xs.mapIdx fun k x => 6 + name.toList.length + (dec n).length + (dec (k + 1)).length +
        (float decode 3 x).length).sum := by
  rw [List.length_flatten, phaseTexts]
  congr 1
  apply List.ext_getElem
  · simp only [List.length_map, List.length_mapIdx]
  · intro i lower upper
    simp only [List.getElem_map, List.getElem_mapIdx, List.length_append, item_length, key_length]
    omega

omit [Single F] in
private theorem rowTexts_length (utc : UInt32) (row : Row F) :
    (rowTexts decode utc row).flatten.length = rowSize decode utc row := by
  unfold rowTexts rowSize tsText
  simp only [List.flatten_append, List.flatten_cons, List.flatten_nil, List.length_append,
    phaseTexts_length, item_length, key_length, List.length_nil, String.reduceToList,
    List.length_cons, Nat.reduceAdd]
  omega

omit [Single F] in
private theorem commonText_length (s : Snapshot F) (frequency : F) (nf : Nat) :
    (commonText decode s frequency nf).length =
      99 + (dec s.utc.toNat).length + (float decode 3 frequency).length +
        (float decode 1 s.temp).length + (dec nf).length := by
  unfold commonText tsText versionText
  simp [hex2, item]
  omega

private theorem arrText_length (s : Snapshot F) :
    (arrText (objects decode s)).length = size decode s := by
  have rows (rs : List (Row F)) : (rs.flatMap (rowTexts decode s.utc)).flatten.length =
      (rs.map (rowSize decode s.utc)).sum := by
    induction rs with
    | nil => rfl
    | cons row rs ih =>
      rw [List.flatMap_cons, List.flatten_append, List.length_append, rowTexts_length, ih,
        List.map_cons, List.sum_cons]
  rw [← prints_flatten]
  unfold prints size
  dsimp only
  rw [List.flatten_append, List.flatten_append, List.length_append, List.length_append, rows,
    List.flatten_singleton, List.flatten_singleton, commonText_length]
  have close : "]".toList.length = 1 := rfl
  omega

/-- The numbers with decimals that the payload carries. -/
def reported (s : Snapshot F) : List F :=
  let p := Feeder.buildPayload s.ch
  p.frequency :: s.temp :: p.rows.flatMap values

private theorem feederRow_ftype {f : Nat} {d : SmpChannel F} {row : Row F}
    (here : feederRow f d = some row) : Plain row.ftype.toList := by
  by_cases used : d.cbType = notUsed
  · cases (if_pos used).symm.trans here
  · cases (if_neg used).symm.trans here
    exact plain_feederType d.cbType

private theorem objects_settled (s : Snapshot F) : (∀ v ∈ objects decode s, Settled v) ∧
    ((objects decode s).all accepts = true ↔
      s.utc ≠ 0 ∧ ∀ x ∈ reported s, finite (decode x) = true) := by
  have row : ∀ row ∈ (Feeder.buildPayload s.ch).rows,
      Settled (object s.utc (rowMembers decode row)) ∧
        accepts (object s.utc (rowMembers decode row)) =
          (decide (s.utc ≠ 0) && (values row).all fun x => finite (decode x)) := by
    intro row inside
    obtain ⟨f, -, here⟩ := List.mem_filterMap.mp inside
    obtain ⟨sound, all⟩ := sound_row decode (feederRow_ftype here)
    have some : rowMembers decode row ≠ [] := List.cons_ne_nil _ _
    obtain ⟨settled, text⟩ := object_settled s.utc some sound
    exact ⟨settled, text.trans (congrArg _ all)⟩
  obtain ⟨sound, all⟩ := sound_common decode s (Feeder.buildPayload s.ch).frequency
    (Feeder.buildPayload s.ch).n_feeder
  have some : commonMembers decode s (Feeder.buildPayload s.ch).frequency
      (Feeder.buildPayload s.ch).n_feeder ≠ [] := List.cons_ne_nil _ _
  obtain ⟨common, text⟩ := object_settled s.utc some sound
  constructor
  · rw [objects, List.forall_mem_cons, List.forall_mem_map]
    exact ⟨common, fun r inside => (row r inside).1⟩
  · rw [objects, List.all_cons, text.trans (congrArg _ all), Bool.and_eq_true, List.all_map,
      List.all_eq_true]
    simp only [reported, List.forall_mem_cons, List.mem_flatMap, Bool.and_eq_true,
      decide_eq_true_eq]
    constructor
    · rintro ⟨⟨set, freq, temp⟩, rest⟩
      refine ⟨set, freq, temp, ?_⟩
      rintro x ⟨r, inside, member⟩
      have each := (row r inside).2.symm.trans (rest r inside)
      rw [Bool.and_eq_true, List.all_eq_true] at each
      exact each.2 x member
    · rintro ⟨set, freq, temp, rest⟩
      refine ⟨⟨set, freq, temp⟩, fun r inside => ((row r inside).2.trans ?_)⟩
      rw [Bool.and_eq_true, List.all_eq_true]
      exact ⟨decide_eq_true set, fun x member => rest x ⟨r, inside, member⟩⟩

private theorem isObject_row {f : Nat} {d : SmpChannel F} {row : Row F} (utc : UInt32)
    (here : feederRow f d = some row)
    (accepted : accepts (object utc (rowMembers decode row)) = true) :
    IsObject (key (f + 1) "type") (object utc (rowMembers decode row)) := by
  rw [← Feeder.number_feederRow here]
  exact ⟨accepted, tsText utc, row.ftype.toList, rowMembers decode row, rfl, List.mem_cons_self⟩

private theorem rows_forall (s : Snapshot F) (accepted : ∀ row ∈ (Feeder.buildPayload s.ch).rows,
      accepts (object s.utc (rowMembers decode row)) = true) :
    List.Forall₂ (fun f row => IsObject (key (f + 1) "type") row) (usedFeeders s)
      ((Feeder.buildPayload s.ch).rows.map fun row => object s.utc (rowMembers decode row)) := by
  unfold usedFeeders
  unfold Feeder.buildPayload at accepted ⊢
  dsimp only at accepted ⊢
  revert accepted
  induction List.range maxCh with
  | nil => exact fun _ => .nil
  | cons f fs ih =>
    by_cases used : (s.ch f).cbType = notUsed
    · have here : feederRow f (s.ch f) = none := if_pos used
      rw [List.filter_cons_of_neg (by simp [used])]
      simp only [List.filterMap_cons, here]
      exact ih
    · obtain ⟨row, here, -⟩ := Feeder.feederRow_some f used
      rw [List.filter_cons_of_pos (by simp [used])]
      simp only [List.filterMap_cons, here, List.map_cons, List.forall_mem_cons]
      exact fun ⟨first, rest⟩ => .cons (isObject_row decode s.utc here first) (ih rest)

/-- The published text is JSON exactly when the tick has a time, no number is infinite or nan, and
the array is shorter than the buffer. -/
private theorem accepts_iff (s : Snapshot F) : accepts (buildPayload decode s) = true ↔
    s.utc ≠ 0 ∧ (∀ x ∈ reported s, finite (decode x) = true) ∧ size decode s < payloadMax := by
  obtain ⟨settled, all⟩ := objects_settled decode s
  have some : objects decode s ≠ [] := List.cons_ne_nil _ _
  obtain ⟨-, whole⟩ := arrText_settled some settled
  have length := arrText_length decode s
  have limit : payloadMax = 4096 := rfl
  rw [buildPayload_eq]
  by_cases fits : size decode s < payloadMax
  · rw [List.take_of_length_le (by omega), whole, all]
    exact ⟨fun ⟨set, finite⟩ => ⟨set, finite, fits⟩, fun ⟨set, finite, _⟩ => ⟨set, finite⟩⟩
  · have cut := not_accepts_take some settled (k := payloadMax - 1) (by omega)
    rw [cut]
    exact ⟨fun accepted => absurd accepted Bool.false_ne_true, fun ⟨_, _, less⟩ => absurd less fits⟩

/-- A JSON text is complete, and it is one exactly under the condition of `accepts_iff`. -/
theorem complete_iff (s : Snapshot F) : Complete s (buildPayload decode s) ↔
    s.utc ≠ 0 ∧ (∀ x ∈ reported s, finite (decode x) = true) ∧ size decode s < payloadMax := by
  rw [← accepts_iff]
  constructor
  · exact Complete.accepted
  · intro accepted
    obtain ⟨set, finite, fits⟩ := (accepts_iff decode s).mp accepted
    have all := (objects_settled decode s).2.mpr ⟨set, finite⟩
    rw [objects, List.all_cons, Bool.and_eq_true, List.all_map, List.all_eq_true] at all
    rw [← arrText_length] at fits
    have uncut : buildPayload decode s = arrText (objects decode s) := by
      rw [buildPayload_eq]
      exact List.take_of_length_le (Nat.le_sub_one_of_lt fits)
    refine ⟨accepted, _, _, uncut, ?_, rows_forall decode s all.2⟩
    exact ⟨all.1, _, "common".toList, _, rfl, List.mem_cons_of_mem _ List.mem_cons_self⟩

end

/-- Exact numbers, and nan for a division by zero. -/
instance : Single (Option Rat) where
  zero := some 0
  add := Option.map₂ (· + ·)
  sub := Option.map₂ (· - ·)
  neg := Option.map (- ·)
  mul := Option.map₂ (· * ·)
  div x y := if y = some 0 then none else Option.map₂ (· / ·) x y
  intCast n := some n
  lt x y := (Option.map₂ (fun a b => decide (a < b)) x y).getD false = true
  decLt _ _ := inferInstanceAs (Decidable (_ = true))
  trunc x := min (⌊x.getD 0⌋.toNat) (2 ^ 31 - 1)
  trunc_lt x := by omega

def decodeExact : Option Rat → Decoded
  | some q => .finite (decide (q < 0)) (q.num.natAbs * 2 ^ 149 / q.den)
  | none => .nan

/-- One 1P3W feeder whose currents are all zero.  Its imbalance is relative to their mean. -/
def idle : Snapshot (Option Rat) where
  ch f := if f = 0 then
      { SmpChannel.zero with
        cbType := Feeder.wm1LL2CT
        Iunb := (0 - 0) / 0 * ((100 : Int) : Option Rat) }
    else SmpChannel.zero
  temp := 0
  sysTick1s := 1790000000
  timezone := 540
  fwVer := 0x0105

theorem idle_not_complete : ¬ Complete idle (buildPayload decodeExact idle) := by
  intro complete
  have numbers := ((accepts_iff decodeExact idle).mp complete.accepted).2.1
  have imbalance : none ∈ reported idle := by decide +kernel
  cases numbers none imbalance

end SV300.Mqtt
