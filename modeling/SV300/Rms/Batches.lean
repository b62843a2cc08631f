/- SV300/Rms/Batches
   digest: The double-buffered RMS samples: readRmsAngle fills a batch of five, calcRmsAngle averages. -/

import Mathlib.Data.UInt
import SV300.Energy.Registers
import SV300.Library.Runs

set_option autoImplicit false
set_option relaxedAutoImplicit false

namespace SV300.Rms.Batches

open SV300.Energy.Registers SV300.Library.Runs

abbrev Phase := Fin 3

/-- The registers of a sample; the angles are 16 bits wide. -/
inductive Field
  | irms (i : Phase)
  | urms (i : Phase)
  | firms (i : Phase)
  | furms (i : Phase)
  | inrms
  | isrms
  | urms1012 (i : Phase)
  | uAngle (i : Phase)
  | uiAngle (i : Phase)
  | iAngle (i : Phase)
  deriving DecidableEq

/-- The words of one `METER_REGS`, each field an array of six. -/
abbrev Regs := Field → Nat → UInt32

abbrev Slot := Field × Nat

def eachPhase : List Phase := [0, 1, 2]

/-- The order in which `readRmsAngle` stores a sample. -/
def storeOrder : List Field :=
  eachPhase.flatMap (fun i => [.irms i, .urms i, .firms i, .furms i]) ++ [.inrms, .isrms] ++
    eachPhase.map .urms1012 ++ eachPhase.map .uAngle ++ eachPhase.map .uiAngle ++
    eachPhase.map .iAngle

/-- Ten words from the start of `inrms`: its six, then four of `isrms`. -/
def inrmsTen : List Slot :=
  (List.range 6).map (Prod.mk .inrms) ++ (List.range 4).map (Prod.mk .isrms)

def isrmsTen : List Slot :=
  (List.range 6).map (Prod.mk .isrms) ++ (List.range 4).map (Prod.mk (.urms1012 0))

def five (f : Field) : List Slot := (List.range 5).map (Prod.mk f)

/-- Voltages, then currents, each with its fundamental. -/
def phaseLoads (i : Phase) : List Slot :=
  (List.range 5).flatMap (fun j => [(.urms i, j), (.furms i, j)]) ++ five (.urms1012 i) ++
    (List.range 5).flatMap fun j => [(.irms i, j), (.firms i, j)]

def angleLoads (i : Phase) : List Slot := five (.uAngle i) ++ five (.uiAngle i) ++ five (.iAngle i)

/-- The order in which `calcRmsAngle` loads the words; those of the neutral current if it comes to
them. -/
def loadOrder (neutral : Bool) : List Slot :=
  eachPhase.flatMap phaseLoads ++ (if neutral then inrmsTen ++ isrmsTen else []) ++
    eachPhase.flatMap angleLoads

/-- The scales, thresholds and trigonometry of one channel. -/
structure Scales (F : Type) where
  pickupVoltRaw : F
  inoload : F
  vscale : F
  iscale : F
  scaleAngle : UInt32 → F
  radians : F → F
  degrees : F → F
  cos : F → F
  sin : F → F
  atan2 : F → F → F
  sumMax : Int

/-- What `calcRmsAngle` averages; the neutral currents before their scaling. -/
structure Averages (F : Type) where
  U : Phase → F
  U1012 : Phase → F
  I : Phase → F
  fU : Phase → F
  fI : Phase → F
  neutral : Option (Int32 × Int32)
  Uangle : Phase → F
  UIangle : Phase → F
  Iangle : Phase → F

/-- A sum of five words and its fifth, in signed arithmetic. -/
def mean (a : Nat → UInt32) : Int32 :=
  (((List.range 5).map a).foldl (fun sum x => sum + x.toInt32) 0) / 5

/-- `average_without_min_max`: the words are compared as unsigned. -/
def averageWithoutMinMax (xs : List UInt32) : Int32 :=
  let first := xs.headD 0
  let min := xs.foldl (fun m x => if x < m then x else m) first
  let max := xs.foldl (fun m x => if m < x then x else m) first
  (xs.sum - min - max).toInt32

section

variable {F : Type} [Single F]

def scaled (limit scale : F) (mean : Int32) : F :=
  let m : F := (mean.toInt : F)
  if m < limit then 0 else m * scale

def getAngle (k : Scales F) (a : Nat → UInt32) : F :=
  let angles := ((List.range 5).map a).map k.scaleAngle
  let x := angles.foldl (fun x a => x + k.cos (k.radians a)) 0
  let y := angles.foldl (fun y a => y + k.sin (k.radians a)) 0
  let n : F := (k.sumMax : F)
  ((360 : Int) : F) - k.degrees (k.atan2 (y / n) (x / n))

/-- The averages of the words of one `METER_REGS`. -/
def averages (k : Scales F) (neutral : Bool) (g : Regs) : Averages F where
  U i := scaled k.pickupVoltRaw k.vscale (mean (g (.urms i)))
  U1012 i := scaled k.pickupVoltRaw k.vscale (mean (g (.urms1012 i)))
  I i := scaled k.inoload k.iscale (mean (g (.irms i)))
  fU i := scaled k.pickupVoltRaw k.vscale (mean (g (.furms i)))
  fI i := scaled k.inoload k.iscale (mean (g (.firms i)))
  neutral :=
    if neutral then
      some (averageWithoutMinMax (inrmsTen.map fun p => g p.1 p.2) / 8,
        averageWithoutMinMax (isrmsTen.map fun p => g p.1 p.2) / 8)
    else none
  Uangle i := getAngle k (g (.uAngle i))
  UIangle i := getAngle k (g (.uiAngle i))
  Iangle i := getAngle k (g (.iAngle i))

end

private theorem mean_congr {a b : Nat → UInt32} (same : ∀ j < 5, a j = b j) : mean a = mean b := by
  have words : (List.range 5).map a = (List.range 5).map b :=
    List.map_congr_left fun j member => same j (List.mem_range.mp member)
  rw [mean, mean, words]

private theorem getAngle_congr {F : Type} [Single F] (k : Scales F) {a b : Nat → UInt32}
    (same : ∀ j < 5, a j = b j) : getAngle k a = getAngle k b := by
  have words : (List.range 5).map a = (List.range 5).map b :=
    List.map_congr_left fun j member => same j (List.mem_range.mp member)
  rw [getAngle, getAngle, words]

private theorem mem_five {f : Field} {j : Nat} (lt : j < 5) : (f, j) ∈ five f :=
  List.mem_map_of_mem (List.mem_range.mpr lt)

private theorem mem_eachPhase (i : Phase) : i ∈ eachPhase := by
  revert i
  decide

section Loads

variable {neutral : Bool} {g h : Regs} (same : ∀ p ∈ loadOrder neutral, g p.1 p.2 = h p.1 p.2)
include same

private theorem phaseLoads_same (i : Phase) : ∀ p ∈ phaseLoads i, g p.1 p.2 = h p.1 p.2 := by
  intro p member
  apply same p
  rw [loadOrder, List.append_assoc]
  exact List.mem_append_left _ (List.mem_flatMap.mpr ⟨i, mem_eachPhase i, member⟩)

private theorem angleLoads_same (i : Phase) : ∀ p ∈ angleLoads i, g p.1 p.2 = h p.1 p.2 := by
  intro p member
  apply same p
  rw [loadOrder]
  exact List.mem_append_right _ (List.mem_flatMap.mpr ⟨i, mem_eachPhase i, member⟩)

private theorem ten_same (come : neutral = true) :
    ∀ p ∈ inrmsTen ++ isrmsTen, g p.1 p.2 = h p.1 p.2 := by
  intro p member
  apply same p
  rw [loadOrder, if_pos come, List.append_assoc]
  exact List.mem_append_right _ (List.mem_append_left _ member)

private theorem urms_same (i : Phase) {j : Nat} (lt : j < 5) :
    g (.urms i) j = h (.urms i) j ∧ g (.furms i) j = h (.furms i) j := by
  have pair : ∀ p ∈ [(Field.urms i, j), (.furms i, j)], g p.1 p.2 = h p.1 p.2 := by
    intro p member
    apply phaseLoads_same same i p
    rw [phaseLoads, List.append_assoc]
    exact List.mem_append_left _ (List.mem_flatMap.mpr ⟨j, List.mem_range.mpr lt, member⟩)
  exact ⟨pair (.urms i, j) (by simp), pair (.furms i, j) (by simp)⟩

private theorem irms_same (i : Phase) {j : Nat} (lt : j < 5) :
    g (.irms i) j = h (.irms i) j ∧ g (.firms i) j = h (.firms i) j := by
  have pair : ∀ p ∈ [(Field.irms i, j), (.firms i, j)], g p.1 p.2 = h p.1 p.2 := by
    intro p member
    apply phaseLoads_same same i p
    rw [phaseLoads]
    exact List.mem_append_right _ (List.mem_flatMap.mpr ⟨j, List.mem_range.mpr lt, member⟩)
  exact ⟨pair (.irms i, j) (by simp), pair (.firms i, j) (by simp)⟩

private theorem urms1012_same (i : Phase) {j : Nat} (lt : j < 5) :
    g (.urms1012 i) j = h (.urms1012 i) j := by
  apply phaseLoads_same same i (.urms1012 i, j)
  rw [phaseLoads]
  exact List.mem_append_left _ (List.mem_append_right _ (mem_five lt))

private theorem angles_same (i : Phase) {j : Nat} (lt : j < 5) :
    g (.uAngle i) j = h (.uAngle i) j ∧ g (.uiAngle i) j = h (.uiAngle i) j ∧
      g (.iAngle i) j = h (.iAngle i) j := by
  have each : ∀ f, (f, j) ∈ angleLoads i → g f j = h f j :=
    fun f member => angleLoads_same same i (f, j) member
  exact ⟨each _ (List.mem_append_left _ (List.mem_append_left _ (mem_five lt))),
    each _ (List.mem_append_left _ (List.mem_append_right _ (mem_five lt))),
    each _ (List.mem_append_right _ (mem_five lt))⟩

private theorem averages_congr {F : Type} [Single F] (k : Scales F) :
    averages k neutral g = averages k neutral h := by
  have inrms : neutral = true → inrmsTen.map (fun p => g p.1 p.2) =
      inrmsTen.map fun p => h p.1 p.2 := fun come =>
    List.map_congr_left fun p member => ten_same same come p (List.mem_append_left _ member)
  have isrms : neutral = true → isrmsTen.map (fun p => g p.1 p.2) =
      isrmsTen.map fun p => h p.1 p.2 := fun come =>
    List.map_congr_left fun p member => ten_same same come p (List.mem_append_right _ member)
  simp only [averages, Averages.mk.injEq]
  refine ⟨?_, ?_, ?_, ?_, ?_, ?_, ?_, ?_, ?_⟩
  · ext i
    rw [mean_congr fun j lt => (urms_same same i lt).1]
  · ext i
    rw [mean_congr fun j lt => urms1012_same same i lt]
  · ext i
    rw [mean_congr fun j lt => (irms_same same i lt).1]
  · ext i
    rw [mean_congr fun j lt => (urms_same same i lt).2]
  · ext i
    rw [mean_congr fun j lt => (irms_same same i lt).2]
  · split_ifs with come
    · rw [inrms come, isrms come]
    · rfl
  · ext i
    rw [getAngle_congr k fun j lt => (angles_same same i lt).1]
  · ext i
    rw [getAngle_congr k fun j lt => (angles_same same i lt).2.1]
  · ext i
    rw [getAngle_congr k fun j lt => (angles_same same i lt).2.2]

end Loads

/-- Where `readRmsAngle` is: the fields of the sample still to be stored in a buffer at `ix`. -/
inductive Prod
  | idle
  | storing (b : Bool) (ix : Nat) (todo : List Field)

/-- Where Metering_Task is: before its test of `rmsCalcF`, past it, past its reset, or in
`calcRmsAngle`, with the words still to be loaded, those loaded and the batches complete when it
began. -/
inductive Cons
  | idle
  | seen
  | ready
  | loading (b neutral : Bool) (todo : List Slot) (got : Regs) (batches : Nat)

structure Result (F : Type) where
  batches : Nat
  neutral : Bool
  values : Averages F

/-- The two buffers with their indices and flags, the two tasks, how many samples are complete and
what has been calculated. -/
structure Sys (F : Type) where
  sr : Bool → Regs
  ix : Bool → Nat
  fr : Bool
  re : Bool
  rmsCalcF : Bool
  rmsInit : Bool
  prod : Prod
  cons : Cons
  samples : Nat
  results : List (Result F)

inductive Event
  | sample
  | metering (neutral : Bool)

def Regs.set (g : Regs) (p : Slot) (v : UInt32) : Regs :=
  fun f j => if f = p.1 ∧ j = p.2 then v else g f j

section Machine

variable {F : Type} [Single F] (k : Scales F) (chip : Nat → Field → UInt32)

/-- One step of `readRmsAngle`, which reads `chip n` as sample `n`. -/
def readRmsAngle (o : Sys F) : Sys F :=
  match o.prod with
  | .idle => { o with prod := .storing o.fr (o.ix o.fr) storeOrder }
  | .storing b ix (f :: rest) =>
    { o with
      sr := Function.update o.sr b ((o.sr b).set (f, ix) (chip o.samples f))
      prod := .storing b ix rest }
  | .storing b ix [] =>
    if 5 ≤ ix + 1 then
      { o with
        ix := Function.update o.ix b 0
        fr := !o.fr
        rmsCalcF := true
        prod := .idle
        samples := o.samples + 1 }
    else { o with ix := Function.update o.ix b (ix + 1), prod := .idle, samples := o.samples + 1 }

/-- One step of Metering_Task with `calcRmsAngle`.  Whether this comes to the neutral current hangs
on a variable that is not initialized. -/
def calcRmsAngle (o : Sys F) (neutral : Bool) : Sys F :=
  match o.cons with
  | .idle => if o.rmsCalcF then { o with cons := .seen } else o
  | .seen => { o with rmsCalcF := false, cons := .ready }
  | .ready =>
    if o.rmsInit then
      { o with cons := .loading o.re neutral (loadOrder neutral) (fun _ _ => 0) (o.samples / 5) }
    else { o with rmsInit := true, re := !o.re, cons := .idle }
  | .loading b neutral (p :: rest) got batches =>
    { o with cons := .loading b neutral rest (got.set p (o.sr b p.1 p.2)) batches }
  | .loading _ neutral [] got batches =>
    { o with
      re := !o.re
      cons := .idle
      results := o.results ++ [⟨batches, neutral, averages k neutral got⟩] }

def record (o : Sys F) : Event → Sys F
  | .sample => readRmsAngle chip o
  | .metering neutral => calcRmsAngle k o neutral

end Machine

/-- The words of a batch; the sixth of each array is never written. -/
def batch (chip : Nat → Field → UInt32) (b : Nat) : Regs :=
  fun f j => if j < 5 then chip (5 * b + j) f else 0

variable {F : Type} [Single F] {k : Scales F} {chip : Nat → Field → UInt32}

/-- The averages are those of the batch completed last when they were begun. -/
def Result.Right (r : Result F) (k : Scales F) (chip : Nat → Field → UInt32) : Prop :=
  1 ≤ r.batches ∧ r.values = averages k r.neutral (batch chip (r.batches - 1))

def Right (k : Scales F) (chip : Nat → Field → UInt32) (o : Sys F) : Prop :=
  ∀ r ∈ o.results, r.Right k chip

/-- `calcRmsAngle` begins on the buffer that is not being filled, and `readRmsAngle` stores no word
that it has still to load. -/
def Quiet (o : Sys F) : Event → Prop
  | .sample =>
    match o.prod, o.cons with
    | .storing b ix (f :: _), .loading c _ todo _ _ => b = c → (f, ix) ∉ todo
    | _, _ => True
  | .metering _ =>
    match o.cons with
    | .ready => o.rmsInit = true → o.re ≠ o.fr
    | _ => True

instance (o : Sys F) (e : Event) : Decidable (Quiet o e) := by
  unfold Quiet
  split
  · split <;> infer_instance
  · split <;> infer_instance

def blank : Sys F where
  sr := fun _ _ _ => 0
  ix := fun _ => 0
  fr := false
  re := false
  rmsCalcF := false
  rmsInit := false
  prod := .idle
  cons := .idle
  samples := 0
  results := []

structure Inv (k : Scales F) (chip : Nat → Field → UInt32) (o : Sys F) : Prop where
  ix_fr : o.ix o.fr = o.samples % 5
  ix_other : o.ix (!o.fr) = 0
  storing : ∀ b ix todo, o.prod = .storing b ix todo → b = o.fr ∧ ix = o.samples % 5 ∧
    ∀ f, f ∈ todo ∨ o.sr o.fr f ix = chip o.samples f
  filled : ∀ f, ∀ j < o.samples % 5, o.sr o.fr f j = chip (5 * (o.samples / 5) + j) f
  sixth : ∀ b f j, 5 ≤ j → o.sr b f j = 0
  complete : 5 ≤ o.samples → o.sr (!o.fr) = batch chip (o.samples / 5 - 1)
  due : 5 ≤ o.samples ∨ o.rmsCalcF = false ∧ o.cons = .idle
  loading : ∀ b neutral todo got n, o.cons = .loading b neutral todo got n → 1 ≤ n ∧
    (∀ p ∈ todo, o.sr b p.1 p.2 = batch chip (n - 1) p.1 p.2) ∧
    ∀ p ∈ loadOrder neutral, p ∈ todo ∨ got p.1 p.2 = batch chip (n - 1) p.1 p.2
  right : Right k chip o

theorem mem_storeOrder (f : Field) : f ∈ storeOrder := by
  cases f with
  | inrms => decide
  | isrms => decide
  | irms i => revert i; decide
  | urms i => revert i; decide
  | firms i => revert i; decide
  | furms i => revert i; decide
  | urms1012 i => revert i; decide
  | uAngle i => revert i; decide
  | uiAngle i => revert i; decide
  | iAngle i => revert i; decide

@[simp] theorem Regs.set_here (g : Regs) (f : Field) (j : Nat) (v : UInt32) :
    g.set (f, j) v f j = v :=
  if_pos ⟨rfl, rfl⟩

private theorem Regs.set_other (g : Regs) {p q : Slot} (v : UInt32) (other : q ≠ p) :
    g.set p v q.1 q.2 = g q.1 q.2 :=
  if_neg fun both => other (Prod.ext both.1 both.2)

private theorem inv_store {o : Sys F} (inv : Inv k chip o) {b : Bool} {ix : Nat} {f : Field}
    {rest : List Field} (prod : o.prod = .storing b ix (f :: rest)) (quiet : Quiet o .sample) :
    Inv k chip { o with
      sr := Function.update o.sr b ((o.sr b).set (f, ix) (chip o.samples f))
      prod := .storing b ix rest } := by
  obtain ⟨rfl, rfl, stored⟩ := inv.storing b ix _ prod
  have lt : o.samples % 5 < 5 := Nat.mod_lt _ (Nat.succ_pos 4)
  constructor
  · exact inv.ix_fr
  · exact inv.ix_other
  · rintro c jx todo ⟨⟩
    refine ⟨rfl, rfl, fun g => ?_⟩
    dsimp only
    rw [Function.update_self]
    by_cases here : g = f
    · subst here
      exact .inr (Regs.set_here ..)
    · rw [Regs.set_other (q := (g, o.samples % 5)) _ _ fun same => here (congrArg Prod.fst same)]
      rcases stored g with later | before
      · exact .inl ((List.mem_cons.mp later).resolve_left here)
      · exact .inr before
  · intro g j less
    dsimp only
    rw [Function.update_self, Regs.set_other (q := (g, j))]
    · exact inv.filled g j less
    · intro same
      exact absurd (congrArg Prod.snd same) (Nat.ne_of_lt less)
  · intro c g j high
    dsimp only
    by_cases same : c = o.fr
    · subst same
      rw [Function.update_self, Regs.set_other (q := (g, j))]
      · exact inv.sixth _ g j high
      · intro here
        exact absurd (congrArg Prod.snd here) (Nat.ne_of_gt (Nat.lt_of_lt_of_le lt high))
    · rw [Function.update_of_ne same]
      exact inv.sixth c g j high
  · intro some
    dsimp only
    rw [Function.update_of_ne (by cases o.fr <;> nofun)]
    exact inv.complete some
  · exact inv.due
  · intro c neutral todo got n cons
    obtain ⟨one, ahead, loaded⟩ := inv.loading c neutral todo got n cons
    refine ⟨one, fun p member => ?_, loaded⟩
    dsimp only at cons ⊢
    rw [← ahead p member]
    by_cases same : c = o.fr
    · subst same
      rw [Function.update_self, Regs.set_other]
      rintro rfl
      simp only [Quiet, prod, cons] at quiet
      exact quiet trivial member
    · rw [Function.update_of_ne same]
  · exact inv.right

private theorem inv_complete {o : Sys F} (inv : Inv k chip o) {b : Bool} {ix : Nat}
    (prod : o.prod = .storing b ix []) (fifth : 5 ≤ ix + 1) :
    Inv k chip { o with
      ix := Function.update o.ix b 0
      fr := !o.fr
      rmsCalcF := true
      prod := .idle
      samples := o.samples + 1 } := by
  obtain ⟨rfl, rfl, stored⟩ := inv.storing b ix _ prod
  have last : o.samples % 5 = 4 := by omega
  have next : (o.samples + 1) % 5 = 0 := by omega
  have more : (o.samples + 1) / 5 - 1 = o.samples / 5 := by omega
  constructor
  · dsimp only
    rw [Function.update_of_ne (by cases o.fr <;> nofun), inv.ix_other, next]
  · dsimp only
    rw [Bool.not_not, Function.update_self]
  · nofun
  · intro f j less
    dsimp only at less
    omega
  · exact inv.sixth
  · intro _
    dsimp only
    rw [Bool.not_not, more]
    funext f j
    rw [batch]
    split_ifs with less
    · by_cases fourth : j = 4
      · subst fourth
        rcases stored f with later | here
        · cases later
        · rw [last] at here
          have place : 5 * (o.samples / 5) + 4 = o.samples := by omega
          rw [here, place]
      · exact inv.filled f j (by omega)
    · exact inv.sixth o.fr f j (Nat.le_of_not_lt less)
  · exact .inl (by dsimp only; omega)
  · exact inv.loading
  · exact inv.right

private theorem inv_advance {o : Sys F} (inv : Inv k chip o) {b : Bool} {ix : Nat}
    (prod : o.prod = .storing b ix []) (more : ¬ 5 ≤ ix + 1) :
    Inv k chip { o with
      ix := Function.update o.ix b (ix + 1), prod := .idle, samples := o.samples + 1 } := by
  obtain ⟨rfl, rfl, stored⟩ := inv.storing b ix _ prod
  have next : (o.samples + 1) % 5 = o.samples % 5 + 1 := by omega
  have same : (o.samples + 1) / 5 = o.samples / 5 := by omega
  constructor
  · dsimp only
    rw [Function.update_self, next]
  · dsimp only
    rw [Function.update_of_ne (by cases o.fr <;> nofun)]
    exact inv.ix_other
  · nofun
  · intro f j less
    dsimp only at less ⊢
    rw [same]
    by_cases fresh : j = o.samples % 5
    · subst fresh
      rcases stored f with later | here
      · cases later
      · have place : 5 * (o.samples / 5) + o.samples % 5 = o.samples := by omega
        rw [here, place]
    · exact inv.filled f j (by omega)
  · exact inv.sixth
  · intro some
    dsimp only at some ⊢
    rw [same]
    exact inv.complete (by omega)
  · rcases inv.due with enough | idle
    · exact .inl (Nat.le_succ_of_le enough)
    · exact .inr idle
  · exact inv.loading
  · exact inv.right

private theorem inv_sample {o : Sys F} (inv : Inv k chip o) (quiet : Quiet o .sample) :
    Inv k chip (readRmsAngle chip o) := by
  cases prod : o.prod with
  | idle =>
    simp only [readRmsAngle, prod]
    refine ⟨inv.ix_fr, inv.ix_other, ?_, inv.filled, inv.sixth, inv.complete, inv.due, inv.loading,
      inv.right⟩
    rintro b ix todo ⟨⟩
    exact ⟨rfl, inv.ix_fr, fun f => .inl (mem_storeOrder f)⟩
  | storing b ix todo =>
    cases todo with
    | cons f rest =>
      simp only [readRmsAngle, prod]
      exact inv_store inv prod quiet
    | nil =>
      simp only [readRmsAngle, prod]
      split_ifs with fifth
      · exact inv_complete inv prod fifth
      · exact inv_advance inv prod fifth

private theorem Inv.enough {o : Sys F} (inv : Inv k chip o) (busy : o.cons ≠ .idle) :
    5 ≤ o.samples := by
  rcases inv.due with enough | ⟨-, idle⟩
  · exact enough
  · exact absurd idle busy

private theorem inv_begin {o : Sys F} (inv : Inv k chip o) {neutral : Bool} (cons : o.cons = .ready)
    (differ : o.re ≠ o.fr) :
    Inv k chip { o with
      cons := .loading o.re neutral (loadOrder neutral) (fun _ _ => 0) (o.samples / 5) } := by
  have enough : 5 ≤ o.samples := inv.enough (by rw [cons]; nofun)
  have other : o.re = !o.fr := Bool.eq_not.mpr differ
  refine ⟨inv.ix_fr, inv.ix_other, inv.storing, inv.filled, inv.sixth, inv.complete, .inl enough,
    ?_, inv.right⟩
  rintro b n todo got m ⟨⟩
  refine ⟨by omega, fun p _ => ?_, fun p member => .inl member⟩
  dsimp only
  rw [other, inv.complete enough]

private theorem inv_load {o : Sys F} (inv : Inv k chip o) {b neutral : Bool} {p : Slot}
    {rest : List Slot}
    {got : Regs} {n : Nat} (cons : o.cons = .loading b neutral (p :: rest) got n) :
    Inv k chip { o with cons := .loading b neutral rest (got.set p (o.sr b p.1 p.2)) n } := by
  obtain ⟨one, ahead, loaded⟩ := inv.loading b neutral _ got n cons
  refine ⟨inv.ix_fr, inv.ix_other, inv.storing, inv.filled, inv.sixth, inv.complete,
    .inl (inv.enough (by rw [cons]; nofun)), ?_, inv.right⟩
  rintro b' n' todo got' m' ⟨⟩
  refine ⟨one, fun q member => ahead q (List.mem_cons_of_mem p member), fun q member => ?_⟩
  by_cases here : q = p
  · subst here
    exact .inr ((Regs.set_here ..).trans (ahead q List.mem_cons_self))
  · rw [Regs.set_other _ _ here]
    rcases loaded q member with later | before
    · exact .inl ((List.mem_cons.mp later).resolve_left here)
    · exact .inr before

private theorem inv_finish {o : Sys F} (inv : Inv k chip o) {b neutral : Bool} {got : Regs}
    {n : Nat} (cons : o.cons = .loading b neutral [] got n) :
    Inv k chip { o with
      re := !o.re
      cons := .idle
      results := o.results ++ [⟨n, neutral, averages k neutral got⟩] } := by
  obtain ⟨one, -, loaded⟩ := inv.loading b neutral _ got n cons
  refine ⟨inv.ix_fr, inv.ix_other, inv.storing, inv.filled, inv.sixth, inv.complete,
    .inl (inv.enough (by rw [cons]; nofun)), nofun, ?_⟩
  intro r member
  rcases List.mem_append.mp member with earlier | new
  · exact inv.right r earlier
  · cases List.mem_singleton.mp new
    refine ⟨one, averages_congr (fun p there => ?_) k⟩
    rcases loaded p there with later | before
    · cases later
    · exact before

private theorem inv_calc {o : Sys F} (inv : Inv k chip o) {neutral : Bool}
    (quiet : Quiet o (.metering neutral)) :
    Inv k chip (calcRmsAngle k o neutral) := by
  cases cons : o.cons with
  | idle =>
    simp only [calcRmsAngle, cons]
    split_ifs with flag
    · refine ⟨inv.ix_fr, inv.ix_other, inv.storing, inv.filled, inv.sixth, inv.complete, ?_, nofun,
        inv.right⟩
      rcases inv.due with enough | ⟨clear, -⟩
      · exact .inl enough
      · rw [flag] at clear
        cases clear
    · exact inv
  | seen =>
    simp only [calcRmsAngle, cons]
    exact ⟨inv.ix_fr, inv.ix_other, inv.storing, inv.filled, inv.sixth, inv.complete,
      .inl (inv.enough (by rw [cons]; nofun)), nofun, inv.right⟩
  | ready =>
    simp only [calcRmsAngle, cons]
    split_ifs with init
    · simp only [Quiet, cons] at quiet
      exact inv_begin inv cons (quiet init)
    · exact ⟨inv.ix_fr, inv.ix_other, inv.storing, inv.filled, inv.sixth, inv.complete,
        .inl (inv.enough (by rw [cons]; nofun)), nofun, inv.right⟩
  | loading b n todo got m =>
    cases todo with
    | cons p rest =>
      simp only [calcRmsAngle, cons]
      exact inv_load inv cons
    | nil =>
      simp only [calcRmsAngle, cons]
      exact inv_finish inv cons

private theorem inv_record {o : Sys F} (inv : Inv k chip o) {e : Event} (quiet : Quiet o e) :
    Inv k chip (record k chip o e) := by
  cases e with
  | sample => exact inv_sample inv quiet
  | metering neutral => exact inv_calc inv quiet

private theorem inv_blank (k : Scales F) (chip : Nat → Field → UInt32) :
    Inv k chip (blank : Sys F) where
  ix_fr := rfl
  ix_other := rfl
  storing := nofun
  filled := fun _ j less => absurd less (Nat.not_lt_zero j)
  sixth := fun _ _ _ _ => rfl
  complete := fun enough => absurd enough (Nat.not_succ_le_zero 4)
  due := .inr ⟨rfl, rfl⟩
  loading := nofun
  right := nofun

/-- In a quiet run all averages are those of the last complete batch. -/
theorem right_of_quiet (k : Scales F) (chip : Nat → Field → UInt32) (es : List Event)
    (quiet : Along (record k chip) Quiet blank es) :
    Along (record k chip) (fun o e => Right k chip (record k chip o e)) blank es :=
  along_of_invariant (fun _ _ inv step => inv_record inv step)
    (fun _ _ inv step => (inv_record inv step).right) (inv_blank k chip) quiet

/-- Scales of one and sample `n` with all its words `n`. -/
def unitScales : Scales Rat where
  pickupVoltRaw := 1
  inoload := 1
  vscale := 1
  iscale := 1
  scaleAngle := fun a => (a.toNat : Int)
  radians := id
  degrees := id
  cos := id
  sin := id
  atan2 := fun y _ => y
  sumMax := 5

def countChip (n : Nat) (_ : Field) : UInt32 := UInt32.ofNat n

/-- The steps of `n` samples. -/
def sampled (n : Nat) : List Event := List.replicate (28 * n) .sample

/-- Steps of Metering_Task: three discard a batch, 124 average one. -/
def metered (n : Nat) : List Event := List.replicate n (.metering false)

def inStep : List Event := sampled 5 ++ metered 3 ++ sampled 5 ++ metered 124

theorem inStep_right : Along (record unitScales countChip)
    (fun o e => Right unitScales countChip (record unitScales countChip o e)) blank inStep :=
  right_of_quiet unitScales countChip inStep (by decide +kernel)

/-- Two batches are complete before the second calculation. -/
def late : List Event := sampled 5 ++ metered 3 ++ sampled 10 ++ metered 123

theorem late_not_right :
    ¬ ∀ (k : Scales Rat) (chip : Nat → Field → UInt32) (es : List Event),
      Along (record k chip) (fun o e => Right k chip (record k chip o e)) blank es := by
  intro claim
  have last := ((along_append ..).mp
    (claim unitScales countChip (late ++ [.metering false]))).2.1
  -- The averages are those of samples 5 to 9, while samples 10 to 14 are complete.
  have older : ∃ r ∈ (run (record unitScales countChip) blank (late ++ [.metering false])).results,
      r.batches = 3 ∧ r.neutral = false ∧ r.values.U 0 = 7 := by
    decide +kernel
  rw [run_append, run_cons, run_nil] at older
  obtain ⟨r, member, batches, neutral, seven⟩ := older
  obtain ⟨-, values⟩ := last r member
  rw [values, batches, neutral] at seven
  have twelve : (averages unitScales false (batch countChip (3 - 1))).U 0 = 12 := by decide +kernel
  rw [twelve] at seven
  exact absurd seven (by decide)

end SV300.Rms.Batches
