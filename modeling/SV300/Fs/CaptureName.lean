/- SV300/Fs/CaptureName
   digest: The names of captures: the text of getTrgFileName, in the order of the event times. -/

import SV300.Calendar
import SV300.Fs.Wave
import SV300.Library.Decimal

set_option autoImplicit false
set_option relaxedAutoImplicit false

namespace SV300.Fs.CaptureName

open SV300.Calendar
open SV300.Clock
open SV300.Fs.Wave (getTrgFileName padded)
open SV300.Library.Decimal

private theorem toList_zeros (k : Nat) : ("".pushn '0' k).toList = List.replicate k '0' := by
  rw [String.pushn_eq_repeat_push]
  induction k with
  | zero => rfl
  | succ k ih => rw [Nat.repeat, String.toList_push, ih, List.replicate_succ']

private theorem toDigits_eq_dec (n : Nat) : Nat.toDigits 10 n = dec n := by
  have each : ∀ d : Fin 10, (d : Nat).digitChar = Char.ofNat (48 + d) := by decide
  have last (m : Nat) : (m % 10).digitChar = digit m := each ⟨m % 10, Nat.mod_lt m (by decide)⟩
  induction n using dec.induct with
  | case1 n small =>
    rw [dec, if_pos small, Nat.toDigits_of_lt_base small, ← last n, Nat.mod_eq_of_lt small]
  | case2 n large ih =>
    rw [dec, if_neg large, Nat.toDigits_of_base_le (by decide) (Nat.le_of_not_lt large), ih, last]

private theorem pad_zero (w : Nat) : pad w 0 = List.replicate w '0' := by
  induction w with
  | zero => rfl
  | succ w ih =>
    rw [pad, Nat.zero_div, ih, List.replicate_succ']
    rfl

private theorem pad_eq_dec {w n : Nat} (fits : n < 10 ^ (w + 1)) :
    pad (w + 1) n = List.replicate (w + 1 - (dec n).length) '0' ++ dec n := by
  induction w generalizing n with
  | zero =>
    have small : n < 10 := fits
    rw [dec, if_pos small]
    rfl
  | succ w ih =>
    rw [pad]
    by_cases small : n < 10
    · have short : dec n = [digit n] := by rw [dec, if_pos small]
      rw [Nat.div_eq_of_lt small, pad_zero, short]
      rfl
    · have fewer : n / 10 < 10 ^ (w + 1) := by
        rw [Nat.pow_succ] at fits
        omega
      have long : dec n = dec (n / 10) ++ [digit n] := by rw [dec, if_neg small]
      rw [ih fewer, long, List.length_append, List.length_singleton, Nat.add_sub_add_right,
        List.append_assoc]

private theorem toList_padded {w n : Nat} (fits : n < 10 ^ (w + 1)) :
    (padded (w + 1) n).toList = pad (w + 1) n := by
  have length : (toString n).length = (dec n).length := by
    rw [← String.length_toList, Nat.toString_eq_repr, Nat.toList_repr, toDigits_eq_dec]
  rw [padded, String.toList_append, toList_zeros, length, Nat.toString_eq_repr, Nat.toList_repr,
    toDigits_eq_dec, pad_eq_dec fits]

/-- What `getTrgFileName` puts after the title. -/
def stamp (ts : UInt64) : List Char :=
  let t := UInt32.ofNat (ts.toNat / 1000)
  let ltm := uLocalTime t
  pad 4 ltm.tmYear ++ (pad 2 ltm.tmMon ++ (pad 2 ltm.tmMday ++ ('T' ::
    (pad 2 (tmHour t) ++ (pad 2 (tmMin t) ++ (pad 2 (t.toNat % 60) ++ ('_' ::
      (pad 3 (ts.toNat % 1000) ++ ".d".toList))))))))

theorem getTrgFileName_toList (title : String) (ts : UInt64) :
    (getTrgFileName title ts).toList = title.toList ++ stamp ts := by
  unfold getTrgFileName stamp
  generalize UInt32.ofNat (ts.toNat / 1000) = t
  obtain ⟨year, mon, mday⟩ := uLocalTime_bounds t
  have hour := tmHour_lt t
  have min := tmMin_lt t
  simp only [String.toList_append, List.append_assoc]
  rw [toList_padded year, toList_padded mon, toList_padded mday, toList_padded (by omega),
    toList_padded (by omega), toList_padded (by omega), toList_padded (by omega)]
  rfl

theorem stamp_digit (ts : UInt64) : ∃ c rest, stamp ts = c :: rest ∧ isDigit c = true := by
  unfold stamp
  dsimp only
  generalize (uLocalTime (UInt32.ofNat (ts.toNat / 1000))).tmYear = y
  have four : 0 < (pad 4 y).length := by rw [pad_length]; decide
  obtain ⟨c, cs, first⟩ := List.exists_cons_of_length_pos four
  rw [first, List.cons_append]
  exact ⟨c, _, rfl, pad_isDigit 4 y c (first ▸ List.mem_cons_self)⟩

theorem stamp_suffix (ts : UInt64) : ".d".toList <:+ stamp ts := by
  unfold stamp
  simp only [← List.append_assoc, ← List.cons_append]
  exact List.suffix_append _ _

theorem stamp_plain (ts : UInt64) : '\\' ∉ stamp ts := by
  have numeral (w n : Nat) : '\\' ∉ pad w n := by
    intro inside
    exact absurd (pad_isDigit w n _ inside) (by decide)
  unfold stamp
  simp only [List.mem_append, List.mem_cons, numeral, false_or]
  decide

/-- The seconds of an event time fit in the clock of seconds. -/
def Timely (ts : UInt64) : Prop := ts.toNat < 2 ^ 32 * 1000

private theorem Timely.seconds {ts : UInt64} (timely : Timely ts) :
    (UInt32.ofNat (ts.toNat / 1000)).toNat = ts.toNat / 1000 := by
  unfold Timely at timely
  exact UInt32.toNat_ofNat_of_lt' (Nat.div_lt_of_lt_mul (by omega : _ < 1000 * 2 ^ 32))

private theorem clock_lt {t u : UInt32} {ms ns : Nat} (day : t.toNat / 86400 = u.toNat / 86400)
    (fits : ns < 1000) (later : t.toNat < u.toNat ∨ t.toNat = u.toNat ∧ ms < ns)
    (us : List Char) :
    'T' :: (pad 2 (tmHour t) ++ (pad 2 (tmMin t) ++ (pad 2 (t.toNat % 60) ++ ('_' ::
        (pad 3 ms ++ us))))) <
      'T' :: (pad 2 (tmHour u) ++ (pad 2 (tmMin u) ++ (pad 2 (u.toNat % 60) ++ ('_' ::
        (pad 3 ns ++ us))))) := by
  have hour := tmHour_lt u
  have min := tmMin_lt u
  have fields : tmHour t < tmHour u ∨ tmHour t = tmHour u ∧ (tmMin t < tmMin u ∨
      tmMin t = tmMin u ∧ (t.toNat % 60 < u.toNat % 60 ∨
        t.toNat % 60 = u.toNat % 60 ∧ ms < ns)) := by
    unfold tmHour tmMin
    omega
  have milli (less : ms < ns) : '_' :: (pad 3 ms ++ us) < '_' :: (pad 3 ns ++ us) :=
    List.cons_lt_cons_iff.mpr (.inr ⟨rfl, pad_append_lt fits (.inl less)⟩)
  refine List.cons_lt_cons_iff.mpr (.inr ⟨rfl, pad_append_lt (by omega) ?_⟩)
  refine fields.imp_right (And.imp_right fun rest => pad_append_lt (by omega) ?_)
  refine rest.imp_right (And.imp_right fun rest => pad_append_lt (by omega) ?_)
  exact rest.imp_right (And.imp_right milli)

theorem stamp_lt {a b : UInt64} (timely : Timely b) (later : a.toNat < b.toNat) :
    stamp a < stamp b := by
  have seconds := timely.seconds
  have before : Timely a := lt_trans later timely
  have earlier := before.seconds
  unfold stamp
  generalize UInt32.ofNat (a.toNat / 1000) = t at *
  generalize UInt32.ofNat (b.toNat / 1000) = u at *
  obtain ⟨year, mon, mday⟩ := uLocalTime_bounds u
  have times : t.toNat < u.toNat ∨ t.toNat = u.toNat ∧ a.toNat % 1000 < b.toNat % 1000 := by
    omega
  have clock (day : t.toNat / 86400 = u.toNat / 86400) :=
    clock_lt day (Nat.mod_lt b.toNat (by decide)) times ".d".toList
  have dates : (uLocalTime t).tmYear < (uLocalTime u).tmYear ∨
      (uLocalTime t).tmYear = (uLocalTime u).tmYear ∧
        ((uLocalTime t).tmMon < (uLocalTime u).tmMon ∨
          (uLocalTime t).tmMon = (uLocalTime u).tmMon ∧
            ((uLocalTime t).tmMday < (uLocalTime u).tmMday ∨
              (uLocalTime t).tmMday = (uLocalTime u).tmMday ∧
                t.toNat / 86400 = u.toNat / 86400)) := by
    have days : t.toNat / 86400 ≤ u.toNat / 86400 := by omega
    rcases Nat.lt_or_eq_of_le days with next | day
    · refine (uLocalTime_lt next).imp_right (And.imp_right fun rest => ?_)
      exact rest.imp_right (And.imp_right .inl)
    by_cases unset : t = 0
    · by_cases none : u = 0
      · rw [unset, none]
        exact .inr ⟨rfl, .inr ⟨rfl, .inr ⟨rfl, rfl⟩⟩⟩
      · exact .inl (unset ▸ uLocalTime_zero_lt none)
    · have set : u ≠ 0 := by
        rintro rfl
        exact unset (UInt32.toNat_inj.mp (by rw [UInt32.toNat_zero] at *; omega))
      have date := uLocalTime_of_day unset set day
      exact .inr ⟨by rw [date], .inr ⟨by rw [date], .inr ⟨by rw [date], day⟩⟩⟩
  refine pad_append_lt year (dates.imp_right (And.imp_right fun rest => pad_append_lt mon ?_))
  refine rest.imp_right (And.imp_right fun rest => pad_append_lt mday ?_)
  exact rest.imp_right (And.imp_right clock)

theorem stamp_inj {a b : UInt64} (timelya : Timely a) (timelyb : Timely b)
    (same : stamp a = stamp b) : a = b := by
  rcases Nat.lt_trichotomy a.toNat b.toNat with before | ts | after
  · exact absurd (same ▸ stamp_lt timelyb before) (List.lt_irrefl _)
  · exact UInt64.toNat_inj.mp ts
  · exact absurd (same ▸ stamp_lt timelya after) (List.lt_irrefl _)

end SV300.Fs.CaptureName
