/- SV300/Modbus/Footprint
   digest: Which memory an accepted multiple-write frame changes, for every start and count. -/

import SV300.Modbus.WritePaths

set_option autoImplicit false
set_option relaxedAutoImplicit false

namespace SV300.Modbus.Footprint

open SV300.Modbus.Map SV300.Modbus.Frame SV300.Modbus.WritePaths SV300.Modbus.ReadPaths

/-- The two settings areas of the first channel. -/
def Settings (off : Nat) : Prop :=
  mbadSetting ≤ off ∧ off < mbadSettingEnd ∨ mbadP1Setting ≤ off ∧ off < mbadP1SettingEnd

/-- The pockets of the other channels. -/
def Pocket (off : Nat) : Prop :=
  mbadEnergyStart ≤ off ∧ off < mbadEnergyU64Start ∨ mbadRwOffStart ≤ off ∧ off < mbadRwOffEnd

def Writable (id : Channel) (off : Nat) : Prop := if id = 0 then Settings off else Pocket off

def fc16 (start count : UInt16) (data : Nat → UInt16) : Request := ⟨16, start, count, data⟩

/-- An accepted frame changes writable words among those it addresses, and of the rest of the state
at most the clock.  The receive counter has been incremented before the frame is looked at. -/
def Framed (fetch : Fetcher) (s : State) (q : Request) (longFrame : Bool) : Prop :=
  let before := countRx s
  let after := modbusSlvProcFrame fetch s q longFrame
  accepted after.2 = true →
    (∀ id off, after.1.meter id off ≠ before.meter id off →
      Writable id off ∧ q.start.toNat ≤ base id + off ∧
        base id + off < q.start.toNat + q.count.toNat) ∧
    { after.1 with meter := before.meter, sysTick1s := before.sysTick1s } = before

/-- The words past the end of the settings area the frame starts in are those already there. -/
def Harmless (s : State) (start count : Nat) (data : Nat → UInt16) : Prop :=
  s.gMeterReady = true → 1 ≤ count → count ≤ 123 → start + count ≤ mbadSetCmd → Settings start →
    ∀ off, start ≤ off → off < start + count → ¬ Settings off →
      data (off - start) = (countRx s).meter 0 off

def frameWords (count : Nat) (data : Nat → UInt16) : List UInt16 := (List.range count).map data

private theorem length_frameWords (count : Nat) (data : Nat → UInt16) :
    (frameWords count data).length = count := by
  simp [frameWords]

private theorem frameWords_get {count : Nat} {data : Nat → UInt16} {i : Nat} (lt : i < count) :
    (frameWords count data)[i]? = some (data i) := by
  simp [frameWords, lt]

private theorem frameWords_none {count : Nat} {data : Nat → UInt16} {i : Nat} (le : count ≤ i) :
    (frameWords count data)[i]? = none := by
  simp [frameWords, le]

variable (fetch : Fetcher) (s : State) (start count : UInt16) (data : Nat → UInt16)
  (longFrame : Bool)

private theorem procFrame_write (ready : s.gMeterReady = true) (least : 1 ≤ count.toNat)
    (most : count.toNat ≤ 123) (small : start.toNat + count.toNat ≤ smbSize) :
    modbusSlvProcFrame fetch s (fc16 start count data) longFrame =
      writeMultipleFrame (countRx s) start count (frameWords count.toNat data) := by
  have still : (countRx s).gMeterReady = true := ready
  have range : ¬ (count.toNat < 1 ∨ 123 < count.toNat) := by omega
  have within : ¬ smbSize < start.toNat + count.toNat := by omega
  have checked : modbusSlvChkFrame 16 start.toNat count.toNat longFrame = none := by
    rw [modbusSlvChkFrame, if_neg (by decide), if_neg (by decide), if_pos rfl, if_neg range,
      if_neg within]
  have read : ¬ ((16 : UInt8) = 3 ∨ (16 : UInt8) = 4) := by decide
  have single : ¬ (16 : UInt8) = 6 := by decide
  dsimp only [modbusSlvProcFrame, fc16]
  rw [if_pos still, checked]
  dsimp only
  rw [if_neg read, if_neg single]
  rfl

private theorem checked_of_accepted
    (ok : accepted (modbusSlvProcFrame fetch s (fc16 start count data) longFrame).2 = true) :
    s.gMeterReady = true ∧ 1 ≤ count.toNat ∧ count.toNat ≤ 123 ∧
      start.toNat + count.toNat ≤ smbSize := by
  cases ready : s.gMeterReady with
  | false =>
    have still : (countRx s).gMeterReady = false := ready
    simp [modbusSlvProcFrame, still, accepted] at ok
  | true =>
    have still : (countRx s).gMeterReady = true := ready
    by_cases range : count.toNat < 1 ∨ 123 < count.toNat
    · have checked : modbusSlvChkFrame 16 start.toNat count.toNat longFrame = some 3 := by
        rw [modbusSlvChkFrame, if_neg (by decide), if_neg (by decide), if_pos rfl, if_pos range]
      simp [modbusSlvProcFrame, fc16, still, checked, accepted] at ok
    · by_cases past : smbSize < start.toNat + count.toNat
      · have checked : modbusSlvChkFrame 16 start.toNat count.toNat longFrame = some 2 := by
          rw [modbusSlvChkFrame, if_neg (by decide), if_neg (by decide), if_pos rfl, if_neg range,
            if_pos past]
        simp [modbusSlvProcFrame, fc16, still, checked, accepted] at ok
      · exact ⟨rfl, by omega, by omega, by omega⟩

variable {s start count data}

private theorem storeWords_changed {t : State} {id j : Channel} {offset off n : Nat}
    (changed : (storeWords t id offset (frameWords n data)).meter j off ≠ t.meter j off) :
    j = id ∧ offset ≤ off ∧ off < offset + n ∧ data (off - offset) ≠ t.meter j off := by
  rw [storeWords_meter] at changed
  split at changed
  case isTrue here =>
    rcases Nat.lt_or_ge (off - offset) n with inside | outside
    · rw [frameWords_get inside] at changed
      exact ⟨here.1, here.2, by omega, changed⟩
    · rw [frameWords_none outside] at changed
      exact absurd rfl changed
  case isFalse => exact absurd rfl changed

private theorem storeWords_addressed {t : State} {id : Channel} {offset off n : Nat}
    (low : offset ≤ off) (high : off < offset + n) :
    (storeWords t id offset (frameWords n data)).meter id off = data (off - offset) := by
  rw [storeWords_meter, if_pos ⟨rfl, low⟩, frameWords_get (by omega)]
  rfl

private theorem writeMultiMem_settings {t : State} {start : Nat} {ws : List UInt16}
    (settings : Settings start) : writeMultiMem t start ws = storeWords t 0 start ws := by
  have map := addresses
  have place : mbadSetting + (start - mbadSetting) = start := by
    rcases settings with low | high <;> omega
  have early : ¬ (mbadSetTs ≤ start ∧ ws.length = 2 ∧ start < mbadSetCmd) := by
    rcases settings with low | high <;> omega
  rw [writeMultiMem, if_neg early, putSettings, place]
  rcases settings with low | high
  · rw [if_pos low]
  · rw [if_neg (by omega), if_pos high]

private theorem writeMultiMem_outside {t : State} {start : Nat} {ws : List UInt16}
    (outside : ¬ Settings start) :
    (writeMultiMem t start ws).meter = t.meter ∧
      { writeMultiMem t start ws with sysTick1s := t.sysTick1s } = t := by
  unfold Settings at outside
  unfold writeMultiMem
  split
  case isTrue => exact ⟨rfl, rfl⟩
  case isFalse =>
    rw [if_neg fun low => outside (.inl low), if_neg fun high => outside (.inr high)]
    exact ⟨rfl, rfl⟩

private theorem pocket_framed {t : State} {id : Channel} {first offset n : Nat} (other : id ≠ 0)
    (place : first = base id + offset) (low : mbadRwOffStart ≤ offset)
    (high : offset + n ≤ mbadRwOffEnd) :
    ∃ u, writeMeterHoldRegs t id offset (frameWords n data) = some u ∧
      (∀ j off, u.meter j off ≠ t.meter j off →
        Writable j off ∧ first ≤ base j + off ∧ base j + off < first + n) ∧
      { u with meter := t.meter, sysTick1s := t.sysTick1s } = t := by
  have valid : meterRwRangeValid offset (frameWords n data).length = true := by
    unfold meterRwRangeValid
    rw [length_frameWords]
    simp only [Bool.or_eq_true, Bool.and_eq_true, decide_eq_true_eq]
    exact .inr ⟨low, high⟩
  refine ⟨_, if_pos valid, fun j off changed => ?_, rfl⟩
  obtain ⟨rfl, lower, upper, -⟩ := storeWords_changed changed
  refine ⟨?_, by omega, by omega⟩
  rw [Writable, if_neg other]
  exact .inr ⟨low.trans lower, upper.trans_le high⟩

private theorem harmless_of_framed
    (framed : Framed fetch s (fc16 start count data) longFrame) :
    Harmless s start.toNat count.toNat data := by
  have map := addresses
  have size : smbSize = 65000 := rfl
  intro ready least most inside settings off low high closed
  have beyond : ¬ mbadSettingM2 ≤ start.toNat := by omega
  have lower : mbadSetting ≤ start.toNat := by
    rcases settings with low | high <;> omega
  have stored : modbusSlvProcFrame fetch s (fc16 start count data) longFrame =
      (storeWords (countRx s) 0 start.toNat (frameWords count.toNat data),
        .echo start count) := by
    rw [procFrame_write fetch s start count data longFrame ready least most (by omega)]
    dsimp only [writeMultipleFrame]
    rw [if_neg beyond, length_frameWords, if_pos ⟨lower, inside⟩,
      writeMultiMem_settings settings]
  dsimp only [Framed] at framed
  rw [stored] at framed
  by_contra differs
  have changed := (framed rfl).1 0 off (by
    rw [storeWords_addressed low high]
    exact differs)
  exact closed changed.1

private theorem framed_of_harmless (harmless : Harmless s start.toNat count.toNat data) :
    Framed fetch s (fc16 start count data) longFrame := by
  have map := addresses
  have first : base 1 = 10000 := rfl
  have zero : base 0 = 0 := rfl
  dsimp only [Framed]
  intro ok
  obtain ⟨ready, least, most, small⟩ := checked_of_accepted fetch s start count data longFrame ok
  rw [procFrame_write fetch s start count data longFrame ready least most small] at ok ⊢
  dsimp only [writeMultipleFrame] at ok ⊢
  rw [length_frameWords] at ok ⊢
  by_cases beyond : mbadSettingM2 ≤ start.toNat
  · rw [if_pos beyond] at ok
    cases ok
  rw [if_neg beyond] at ok ⊢
  by_cases inside : mbadSetting ≤ start.toNat ∧ start.toNat + count.toNat ≤ mbadSetCmd
  · rw [if_pos inside]
    by_cases settings : Settings start.toNat
    · rw [writeMultiMem_settings settings]
      refine ⟨fun id off changed => ?_, rfl⟩
      obtain ⟨rfl, low, high, differs⟩ := storeWords_changed changed
      rw [zero, Nat.zero_add]
      refine ⟨?_, low, high⟩
      by_contra closed
      exact differs (harmless ready least most inside.2 settings off low high closed)
    · obtain ⟨memory, rest⟩ := @writeMultiMem_outside (countRx s) _ (frameWords count.toNat data)
        settings
      refine ⟨fun id off changed => ?_, ?_⟩
      · rw [memory] at changed
        exact absurd rfl changed
      · rw [← memory]
        exact rest
  rw [if_neg inside] at ok ⊢
  by_cases pocket : mbadM1RwStart ≤ start.toNat ∧ start.toNat + count.toNat ≤ mbadM1RwEnd
  · obtain ⟨offset, place⟩ : ∃ offset, start.toNat = base 1 + offset :=
      ⟨start.toNat - 10000, by omega⟩
    have low : mbadRwOffStart ≤ offset := by omega
    have high : offset + count.toNat ≤ mbadRwOffEnd := by omega
    obtain ⟨u, written, framed⟩ :=
      @pocket_framed data (countRx s) 1 _ _ _ (by decide) place low high
    rw [if_pos pocket, show start.toNat - addAde9000M2 = offset by omega, written]
    exact framed
  rw [if_neg pocket] at ok
  by_cases third : mbadM2RwStart ≤ start.toNat ∧ start.toNat + count.toNat ≤ mbadM2RwEnd
  · exact absurd third.1 (by omega)
  · rw [if_neg third] at ok
    cases ok

/-- An accepted frame keeps to the writable words it addresses exactly if what it stores past the
end of the settings area it starts in is there already. -/
theorem framed_iff (fetch : Fetcher) (s : State) (start count : UInt16) (data : Nat → UInt16)
    (longFrame : Bool) :
    Framed fetch s (fc16 start count data) longFrame ↔ Harmless s start.toNat count.toNat data :=
  ⟨harmless_of_framed fetch longFrame, framed_of_harmless fetch longFrame⟩

/-- Two words from the last register of the settings: the second one lands in METER_INFO. -/
theorem straddle_not_framed :
    ¬ Framed noFetch (blank 0 0) (fc16 7049 2 fun _ => 1) false := by
  intro framed
  have harmless := harmless_of_framed noFetch false framed
  have there := harmless rfl (by decide) (by decide) (by decide) (.inl (by decide)) 7050
    (by decide) (by decide) (by unfold Settings; decide)
  exact absurd there (by decide)

end SV300.Modbus.Footprint
