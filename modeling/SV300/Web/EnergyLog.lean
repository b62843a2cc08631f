/- SV300/Web/EnergyLog
   digest: The web view of the hourly energy log against the values that were recorded. -/

import Mathlib.Data.List.Forall2
import SV300.Library.Binary32
import SV300.Library.Runs
import SV300.Energy.SlotLog

set_option autoImplicit false
set_option relaxedAutoImplicit false

namespace SV300.Web.EnergyLog

open SV300.Library.Binary32
open SV300.Library.Runs
open SV300.Clock (uLocalTime)
open SV300.Energy.Record
open SV300.Energy.SlotLog

/-- The low or the high half of a 32-bit value in memory. -/
def half (x : UInt32) (i : Nat) : UInt16 := if i = 0 then x.toUInt16 else (x >>> 16).toUInt16

def quantityAt : Nat → Quantity
  | 0 => .kwh
  | 1 => .kvarhImport
  | 2 => .kvarhExport
  | _ => .kvah

/-- The 200 words of an `ENERGY_LOG`: timestamp and slots.  The last six words are reserved, magic
and CRC; the readers below do not reach them and they are left zero. -/
def dayWord (d : DayLog) (w : Nat) : UInt16 :=
  if w < 2 then half d.ts w
  else if w < 194 then half (d.egy ((w - 2) / 8) (quantityAt ((w - 2) % 8 / 2))) (w % 2)
  else 0

/-- `(uint16_t *)&meter[i].elog[0]`: the two logs one behind the other. -/
def elogWord (elog : Fin 2 → DayLog) (w : Nat) : UInt16 :=
  if w < 200 then dayWord (elog 0) w else dayWord (elog 1) (w - 200)

def dword (lo hi : UInt16) : UInt32 := lo.toUInt32 ||| (hi.toUInt32 <<< 16)

/-- `w2f`: the bits of two words read as a float. -/
def w2f (lo hi : UInt16) : Decoded := decode (dword lo hi)

/-- The number of channels shown, `getHwCh` capped at the size of the array. -/
def webNch (hwCh : Nat) : Nat := min hwCh 3

def webChannels (hwCh : Nat) : List Channel :=
  (List.finRange 3).filter fun id => id.val < webNch hwCh

def hours : List Nat := List.range 24

/-- One channel's object of the reply.  Its two totals, sums of the values, are not modelled. -/
structure ChannelReply where
  n : Nat
  last_ts : UInt32
  this_ts : UInt32
  last : List Printed
  this : List Printed

/-- `apiEnergyLog`; the source takes the first log for yesterday and the second for today. -/
def apiEnergyLog (hwCh : Nat) (elog : Channel → Fin 2 → DayLog) : List ChannelReply :=
  (webChannels hwCh).map fun i =>
    let E := elogWord (elog i)
    { n := i.val + 1
      last_ts := dword (E 0) (E 1)
      this_ts := dword (E 200) (E 201)
      last := hours.map fun k => fixed 2 (w2f (E (2 + 8 * k)) (E (3 + 8 * k)))
      this := hours.map fun k => fixed 2 (w2f (E (202 + 8 * k)) (E (203 + 8 * k))) }

/-- `apiEnergyCsv`: for each hour, each channel's columns `today_kWh` and `last_kWh`. -/
def apiEnergyCsv (hwCh : Nat) (elog : Channel → Fin 2 → DayLog) : List (List (Printed × Printed)) :=
  hours.map fun k => (webChannels hwCh).map fun i =>
    let E := elogWord (elog i)
    (fixed 2 (w2f (E (202 + 8 * k)) (E (203 + 8 * k))),
      fixed 2 (w2f (E (2 + 8 * k)) (E (3 + 8 * k))))

/-- The readings recorded for the hours of today and of yesterday. -/
structure DayBook where
  today : Nat → Reading
  yesterday : Nat → Reading

def DayBook.record (b : DayBook) (hour : Nat) (r : Reading) : DayBook :=
  { b with today := Function.update b.today hour r }

/-- The day is over: today's hours become yesterday's. -/
def DayBook.turn (b : DayBook) : DayBook := ⟨fun _ _ => 0, b.today⟩

/-- A channel's logs with the book of what was recorded. -/
structure Journal where
  logs : Logs
  book : DayBook

/-- The book begins with the hours that the logs hold, loaded from their files or empty. -/
def Journal.opening (l : Logs) : Journal := ⟨l, (l.elog 0).egy, (l.elog 1).egy⟩

/-- One call of `putEnergyLog`. -/
structure Event where
  id : Channel
  now : UInt32
  egyTotal : Reading
  hix : Fin 24

/-- The call, and the value it records: the increase since the last call, for the day that ends
when the day has changed. -/
def Journal.put (j : Journal) (e : Event) : Journal where
  logs := putEnergyLog e.now e.egyTotal e.hix j.logs
  book :=
    let recorded := j.book.record e.hix fun q => e.egyTotal q - j.logs.egyBuf q
    if j.logs.egyTs1D ≠ (uLocalTime e.now).tmMday then recorded.turn else recorded

abbrev State := Channel → Journal

def step (st : State) (e : Event) : State := Function.update st e.id ((st e.id).put e)

def opening (logs : Channel → Logs) : State := fun id => .opening (logs id)

/-- Each printed value is the recorded number, hour by hour. -/
def ShowsHours (printed : List Printed) (recorded : Nat → Reading) : Prop :=
  List.Forall₂ (fun p k => p.Is 2 (recorded k .kwh).toNat) printed hours

/-- The reply shows today's hours as today's and yesterday's as yesterday's. -/
def ReplyRight (hwCh : Nat) (st : State) : Prop :=
  List.Forall₂ (fun r id => ShowsHours r.this (st id).book.today ∧
      ShowsHours r.last (st id).book.yesterday)
    (apiEnergyLog hwCh fun id => (st id).logs.elog) (webChannels hwCh)

/-- So does every row of the CSV. -/
def CsvRight (hwCh : Nat) (st : State) : Prop :=
  List.Forall₂ (fun row k => List.Forall₂ (fun cell id =>
      cell.1.Is 2 ((st id).book.today k .kwh).toNat ∧
        cell.2.Is 2 ((st id).book.yesterday k .kwh).toNat) row (webChannels hwCh))
    (apiEnergyCsv hwCh fun id => (st id).logs.elog) hours

/-- No active energy is recorded for today or yesterday on a channel that is shown. -/
def NothingRecorded (hwCh : Nat) (st : State) : Prop :=
  ∀ id ∈ webChannels hwCh, ∀ k ∈ hours,
    (st id).book.today k .kwh = 0 ∧ (st id).book.yesterday k .kwh = 0

private theorem dword_half (x : UInt32) : dword (half x 0) (half x 1) = x := by
  have small := x.toNat_lt
  apply UInt32.toNat_inj.mp
  simp only [dword, half, if_true, Nat.one_ne_zero, if_false, UInt32.toNat_or,
    UInt16.toNat_toUInt32, UInt32.toNat_toUInt16, UInt32.toNat_shiftLeft, UInt32.toNat_shiftRight]
  have low : x.toNat % 2 ^ 16 < 2 ^ 16 := Nat.mod_lt _ (by omega)
  simp only [UInt32.reduceToNat, Nat.reduceMod, Nat.shiftRight_eq_div_pow]
  have high : x.toNat / 2 ^ 16 % 2 ^ 16 = x.toNat / 2 ^ 16 := by omega
  rw [high, Nat.shiftLeft_eq]
  have fits : x.toNat / 2 ^ 16 * 2 ^ 16 % 2 ^ 32 = x.toNat / 2 ^ 16 * 2 ^ 16 := by omega
  rw [fits, Nat.or_comm, ← Nat.shiftLeft_eq, ← Nat.shiftLeft_add_eq_or_of_lt low,
    Nat.shiftLeft_eq]
  omega

private theorem dayWord_slot (d : DayLog) {k : Nat} (hour : k < 24) :
    dword (dayWord d (2 + 8 * k)) (dayWord d (3 + 8 * k)) = d.egy k .kwh := by
  have slot : (2 + 8 * k - 2) / 8 = k ∧ (2 + 8 * k - 2) % 8 / 2 = 0 ∧ (2 + 8 * k) % 2 = 0 := by
    omega
  have slot' : (3 + 8 * k - 2) / 8 = k ∧ (3 + 8 * k - 2) % 8 / 2 = 0 ∧ (3 + 8 * k) % 2 = 1 := by
    omega
  rw [dayWord, dayWord, if_neg (by omega), if_pos (by omega), if_neg (by omega),
    if_pos (by omega), slot.1, slot.2.1, slot.2.2, slot'.1, slot'.2.1, slot'.2.2]
  exact dword_half _

private theorem elogWord_first (elog : Fin 2 → DayLog) {k : Nat} (hour : k < 24) :
    w2f (elogWord elog (2 + 8 * k)) (elogWord elog (3 + 8 * k)) =
      decode ((elog 0).egy k .kwh) := by
  rw [w2f, elogWord, elogWord, if_pos (by omega), if_pos (by omega), dayWord_slot _ hour]

private theorem elogWord_second (elog : Fin 2 → DayLog) {k : Nat} (hour : k < 24) :
    w2f (elogWord elog (202 + 8 * k)) (elogWord elog (203 + 8 * k)) =
      decode ((elog 1).egy k .kwh) := by
  have low : 202 + 8 * k - 200 = 2 + 8 * k := by omega
  have high : 203 + 8 * k - 200 = 3 + 8 * k := by omega
  rw [w2f, elogWord, elogWord, if_neg (by omega), if_neg (by omega), low, high,
    dayWord_slot _ hour]

/-- The first log is today's and the second one yesterday's. -/
def Journal.Agrees (j : Journal) : Prop :=
  (j.logs.elog 0).egy = j.book.today ∧ (j.logs.elog 1).egy = j.book.yesterday

private theorem agrees_put {j : Journal} (agrees : j.Agrees) (e : Event) : (j.put e).Agrees := by
  obtain ⟨today, yesterday⟩ := agrees
  unfold Journal.put Journal.Agrees putEnergyLog
  dsimp only
  split
  · refine ⟨rfl, ?_⟩
    simp only [egyIoDefer_elog, turnDay, DayLog.put, today, DayBook.turn, DayBook.record]
  · constructor
    · simp only [egyIoDefer_elog, Function.update_self, DayLog.put, today, DayBook.record]
    · have other : (1 : Fin 2) ≠ 0 := by decide
      simp only [egyIoDefer_elog, Function.update_of_ne other, DayBook.record]
      exact yesterday

private theorem agrees_step (st : State) (e : Event) (agrees : ∀ id, (st id).Agrees)
    (id : Channel) :
    (step st e id).Agrees := by
  rw [step]
  by_cases same : id = e.id
  · rw [same, Function.update_self]
    exact agrees_put (agrees e.id) e
  · rw [Function.update_of_ne same]
    exact agrees id

theorem agrees_run (logs : Channel → Logs) (es : List Event) (id : Channel) :
    (run step (opening logs) es id).Agrees :=
  always_run (I := fun st : State => ∀ id, (st id).Agrees) agrees_step (fun _ => ⟨rfl, rfl⟩) es id

/-- The values shown for an hour: each log's bits under the other day's name. -/
def HourRight (j : Journal) (k : Nat) : Prop :=
  (fixed 2 (decode (j.book.yesterday k .kwh))).Is 2 (j.book.today k .kwh).toNat ∧
    (fixed 2 (decode (j.book.today k .kwh))).Is 2 (j.book.yesterday k .kwh).toNat

private theorem first_shown {j : Journal} (agrees : j.Agrees) {k : Nat} (hour : k ∈ hours) :
    w2f (elogWord j.logs.elog (2 + 8 * k)) (elogWord j.logs.elog (3 + 8 * k)) =
      decode (j.book.today k .kwh) := by
  rw [elogWord_first _ (List.mem_range.mp hour), agrees.1]

private theorem second_shown {j : Journal} (agrees : j.Agrees) {k : Nat} (hour : k ∈ hours) :
    w2f (elogWord j.logs.elog (202 + 8 * k)) (elogWord j.logs.elog (203 + 8 * k)) =
      decode (j.book.yesterday k .kwh) := by
  rw [elogWord_second _ (List.mem_range.mp hour), agrees.2]

private theorem replyRight_iff {hwCh : Nat} {st : State} (agrees : ∀ id, (st id).Agrees) :
    ReplyRight hwCh st ↔ ∀ id ∈ webChannels hwCh, ∀ k ∈ hours, HourRight (st id) k := by
  rw [ReplyRight, apiEnergyLog, List.forall₂_map_left_iff, List.forall₂_same]
  refine forall₂_congr fun id _ => ?_
  dsimp only [ShowsHours]
  rw [List.forall₂_map_left_iff, List.forall₂_same, List.forall₂_map_left_iff,
    List.forall₂_same, ← forall₂_and]
  refine forall₂_congr fun k hour => ?_
  rw [second_shown (agrees id) hour, first_shown (agrees id) hour]
  exact Iff.rfl

private theorem csvRight_iff {hwCh : Nat} {st : State} (agrees : ∀ id, (st id).Agrees) :
    CsvRight hwCh st ↔ ∀ k ∈ hours, ∀ id ∈ webChannels hwCh, HourRight (st id) k := by
  rw [CsvRight, apiEnergyCsv, List.forall₂_map_left_iff, List.forall₂_same]
  refine forall₂_congr fun k hour => ?_
  dsimp only
  rw [List.forall₂_map_left_iff, List.forall₂_same]
  refine forall₂_congr fun id _ => ?_
  rw [second_shown (agrees id) hour, first_shown (agrees id) hour]
  exact Iff.rfl

private theorem hourRight_iff (j : Journal) (k : Nat) :
    HourRight j k ↔ j.book.today k .kwh = 0 ∧ j.book.yesterday k .kwh = 0 := by
  rw [HourRight, printed_swapped_iff]
  exact and_comm

/-- After every run of recorded hours and days, the reply and the CSV show what was recorded
exactly when all the active energy recorded for the two days is zero. -/
theorem replies_right_iff_nothing_recorded (logs : Channel → Logs) (hwCh : Nat)
    (es : List Event) :
    (ReplyRight hwCh (run step (opening logs) es) ∧ CsvRight hwCh (run step (opening logs) es)) ↔
      NothingRecorded hwCh (run step (opening logs) es) := by
  have agrees := agrees_run logs es
  generalize run step (opening logs) es = st at agrees ⊢
  rw [replyRight_iff agrees, csvRight_iff agrees]
  constructor
  · rintro ⟨reply, _⟩ id shown k hour
    exact (hourRight_iff (st id) k).mp (reply id shown k hour)
  · intro nothing
    have right : ∀ id ∈ webChannels hwCh, ∀ k ∈ hours, HourRight (st id) k := by
      intro id shown k hour
      exact (hourRight_iff (st id) k).mpr (nothing id shown k hour)
    exact ⟨right, fun k hour id shown => right id shown k hour⟩

/-- Logs that were never written, at midnight of 1 January 2025. -/
def emptyLogs : Logs := initLogs 1735689600 (fun _ => 0) (fun _ => .empty 0) (fun _ => .empty 0)

/-- The hour from midnight ends with 1000 units of active energy. -/
def firstHour : Event := ⟨0, 1735693200, fun _ => 1000, 0⟩

/-- The first hour of the first day is shown as 0.00 under yesterday, and today shows 0.00. -/
theorem first_hour_lost :
    ¬ (ReplyRight 2 (run step (opening fun _ => emptyLogs) [firstHour]) ∧
        CsvRight 2 (run step (opening fun _ => emptyLogs) [firstHour])) ∧
      (run step (opening fun _ => emptyLogs) [firstHour] 0).book.today 0 .kwh = 1000 ∧
      fixed 2 (decode 1000) = .number false 0 := by
  have recorded :
      (run step (opening fun _ => emptyLogs) [firstHour] 0).book.today 0 .kwh = 1000 := by
    decide +kernel
  refine ⟨fun right => ?_, recorded, by decide +kernel⟩
  have hour := (replyRight_iff (agrees_run _ _)).mp right.1 0 (by decide) 0 (by decide)
  have zero := ((hourRight_iff _ _).mp hour).1
  rw [recorded] at zero
  exact absurd zero (by decide)

end SV300.Web.EnergyLog
