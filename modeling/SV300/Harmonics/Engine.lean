/- SV300/Harmonics/Engine
   digest: The two harmonic engines in exact real arithmetic: Goertzel and the chirp transform. -/

import Mathlib.Analysis.SpecialFunctions.Trigonometric.Basic
import Mathlib.Algebra.Order.Floor.Semiring
import SV300.Library.Literals

set_option autoImplicit false
set_option relaxedAutoImplicit false

namespace SV300.Harmonics.Engine

/-- `db.freq`. -/
inductive Nominal
  | hz60 | hz50
  deriving DecidableEq

def freqHz : Nominal → ℕ
  | .hz60 => 60
  | .hz50 => 50

/-- What is analysed: `sel` 0, 1 and 2. -/
inductive Sel
  | U | Upp | I
  deriving DecidableEq

def nFft : ℕ := 1600
def mFft : ℕ := 4096

/-- `v_harm_gain` in thousandths, the row of 50 Hz before that of 60 Hz. -/
def vHarmGain : List ℕ :=
  [1000, 1000, 997, 996, 994, 991, 989, 986, 983, 980,
    976, 974, 972, 969, 967, 965, 963, 961, 959, 958,
    957, 956, 955, 955, 955, 955, 955, 956, 957, 958,
    959, 960, 962, 964, 966, 967, 969, 971, 973, 975,
    977, 979, 981, 983, 985, 987, 989, 991, 994, 996,
    1000, 1000, 1004, 1004, 1008, 1008, 1012, 1012, 1016, 1016,
    1020, 1020, 1024,
    1000, 999, 996, 994, 990, 987, 984, 981, 977, 974,
    971, 968, 965, 963, 961, 959, 957, 956, 955, 955,
    955, 955, 955, 956, 958, 960, 961, 963, 965, 968,
    969, 972, 975, 976, 979, 981, 983, 986, 988, 991,
    994, 997, 1001, 1005, 1010, 1015, 1020, 1025, 1030, 1032,
    1035, 1040, 1045, 1050, 0, 0, 0, 0, 0, 0,
    0, 0, 0]

/-- `i_harm_gain`, likewise. -/
def iHarmGain : List ℕ :=
  [1000, 1000, 1000, 1001, 1001, 1001, 1002, 1002, 1003, 1004,
    1005, 1007, 1008, 1009, 1010, 1011, 1011, 1013, 1014, 1015,
    1016, 1017, 1019, 1020, 1022, 1024, 1026, 1028, 1031, 1033,
    1036, 1039, 1042, 1045, 1048, 1051, 1054, 1057, 1060, 1063,
    1066, 1069, 1072, 1074, 1078, 1081, 1084, 1087, 1090, 1094,
    1105, 1109, 1113, 1118, 1123, 1128, 1132, 1137, 1141, 1147,
    1157, 1180, 1234,
    1000, 1000, 1000, 1001, 1001, 1002, 1003, 1003, 1004, 1007,
    1008, 1009, 1010, 1011, 1013, 1014, 1015, 1017, 1018, 1020,
    1022, 1025, 1027, 1030, 1033, 1036, 1040, 1043, 1046, 1050,
    1054, 1057, 1061, 1065, 1068, 1072, 1075, 1078, 1082, 1086,
    1090, 1095, 1100, 1105, 1110, 1117, 1123, 1129, 1134, 1138,
    1142, 1146, 1150, 1200, 0, 0, 0, 0, 0, 0,
    0, 0, 0]

/-- The word that an index into the row of a table reads: its rows are 63 words long, and past
the table stands what the linker put there. -/
noncomputable def gain (beyond : Sel → ℝ) (sel : Sel) (nominal : Nominal) (h : ℕ) : ℝ :=
  let table := if sel = .I then iHarmGain else vHarmGain
  let row := if nominal = .hz50 then 0 else 63
  match table[row + h]? with
  | some g => (g : ℝ) / 1000
  | none => beyond sel

/-- The conversion to `uint16_t`; beyond its range C leaves it open. -/
noncomputable def toUint16 (x : ℝ) : UInt16 := UInt16.ofNat ⌊x⌋₊

/-- What an engine returns: the distortion and the words of `HARMONICS`. -/
structure Result where
  thd : ℝ
  pHD : Fin 64 → UInt16

/-- The angle of a harmonic at 8000 samples a second. -/
noncomputable def angle (h : ℕ) (freq : ℝ) : ℝ := 2 * Real.pi * h * freq / 8000

/-- The coefficients kept between calls, with the frequency they are for (0: none yet). -/
structure GzCoeff where
  freqM : ℝ
  cf : ℕ → ℝ
  right : freqM ≠ 0 → ∀ h, cf h = 2 * Real.cos (angle h freqM)

def GzCoeff.zero : GzCoeff := ⟨0, fun _ => 0, fun nonzero => absurd rfl nonzero⟩

/-- They are computed anew only for another frequency. -/
noncomputable def GzCoeff.refresh (g : GzCoeff) (freq : ℝ) : GzCoeff :=
  if g.freqM ≠ freq then ⟨freq, fun h => 2 * Real.cos (angle h freq), fun _ _ => rfl⟩ else g

/-- The state of the recurrences, indexed by the harmonic. -/
structure GzState where
  s1 : ℕ → ℝ
  s2 : ℕ → ℝ

def gzSample (cf : ℕ → ℝ) (x : ℝ) (s : GzState) : GzState :=
  ⟨fun h => x + cf h * s.s1 h - s.s2 h, s.s1⟩

def gzRun (cf : ℕ → ℝ) (sample : ℕ → ℝ) (n : ℕ) : GzState :=
  (List.range n).foldl (fun s i => gzSample cf (sample i) s) ⟨fun _ => 0, fun _ => 0⟩

noncomputable def gzMag (cf : ℕ → ℝ) (s : GzState) (h : ℕ) : ℝ :=
  Real.sqrt (s.s1 h * s.s1 h + s.s2 h * s.s2 h - cf h * s.s1 h * s.s2 h)

/-- The distortion and the words of an engine, from its amplitudes and gains of the orders from 2
up to a last one. -/
noncomputable def distortion (amp gain : ℕ → ℝ) (last : ℕ) : ℝ :=
  Real.sqrt (∑ h ∈ Finset.Icc 2 last, amp h * amp h * gain h * gain h)

noncomputable def report (amp gain : ℕ → ℝ) (last : ℕ) : Result where
  thd := distortion amp gain last
  pHD h :=
    if h.val = 0 then toUint16 (distortion amp gain last * 10000)
    else if h.val = 1 ∨ last < h.val then 0
    else toUint16 (amp h * gain h * 10000)

/-- `FFT_goertzel`: orders 2 to 62, relative to the fundamental. -/
noncomputable def fftGoertzel (beyond : Sel → ℝ) (g : GzCoeff) (sample : ℕ → ℝ) (n : ℕ)
    (freq : ℝ) (sel : Sel) (nominal : Nominal) : GzCoeff × Result :=
  let g := g.refresh freq
  let mag := gzMag g.cf (gzRun g.cf sample n)
  let h1 := if 0 < mag 1 then mag 1 else 1
  (g, report (fun h => mag h / h1) (gain beyond sel nominal) 62)

/-- Two arrays, of real and imaginary parts. -/
structure Arrays where
  re : ℕ → ℝ
  im : ℕ → ℝ

noncomputable def cosRdx (k : ℕ) : ℝ := Real.cos (2 * Real.pi * k / mFft)
noncomputable def sinRdx (k : ℕ) : ℝ := Real.sin (2 * Real.pi * k / mFft)

/-- `init_CZT` reduces the square before it takes the angle. -/
noncomputable def cosCzt (i : ℕ) : ℝ := Real.cos (Real.pi * (i * i % (nFft * 2) : ℕ) / nFft)
noncomputable def sinCzt (i : ℕ) : ℝ := Real.sin (Real.pi * (i * i % (nFft * 2) : ℕ) / nFft)

/-- `ReverseBits` of 32 bits. -/
def reverseBits (val : ℕ) : ℕ :=
  ((List.range 32).foldl (fun s _ => (s.1 * 2 + s.2 % 2, s.2 / 2)) (0, val)).1

/-- How often a number of 32 bits can be halved before it is 1. -/
def levels (n : ℕ) : ℕ :=
  ((List.range 32).foldl (fun s _ => if 1 < s.2 then (s.1 + 1, s.2 / 2) else s) (0, n)).1

def swap (i j : ℕ) (a : ℕ → ℝ) : ℕ → ℝ :=
  Function.update (Function.update a i (a j)) j (a i)

/-- The body of the innermost loop, `l = j + halfsize`. -/
noncomputable def cooleyTukey (k j l : ℕ) (v : Arrays) : Arrays :=
  let tpre := v.re l * cosRdx k + v.im l * sinRdx k
  let tpim := -v.re l * sinRdx k + v.im l * cosRdx k
  { re := Function.update (Function.update v.re l (v.re j - tpre)) j (v.re j + tpre)
    im := Function.update (Function.update v.im l (v.im j - tpim)) j (v.im j + tpim) }

/-- `FFT_radix2`: bit-reversed addressing, then sizes 2, 4, .. n. -/
noncomputable def fftRadix2 (v : Arrays) (n : ℕ) : Arrays :=
  if 2 ^ levels n ≠ n then v
  else
    let v := (List.range n).foldl (fun (v : Arrays) i =>
      let j := reverseBits i / 2 ^ (32 - levels n)
      if i < j then ⟨swap i j v.re, swap i j v.im⟩ else v) v
    (List.range (levels n)).foldl (fun v p =>
      let size := 2 ^ (p + 1)
      let halfsize := size / 2
      let tablestep := n / size
      (List.range (n / size)).foldl (fun v b =>
        (List.range halfsize).foldl (fun v t =>
          cooleyTukey (t * tablestep) (b * size + t) (b * size + t + halfsize) v) v) v) v

/-- `convolve`: the inverse transform is the forward one with the parts exchanged. -/
noncomputable def convolve (x y : Arrays) (n : ℕ) : Arrays :=
  let x := fftRadix2 x n
  let y := fftRadix2 y n
  let product : Arrays :=
    { re := fun i => x.re i * y.re i - x.im i * y.im i
      im := fun i => x.im i * y.re i + x.re i * y.im i }
  let inverse := fftRadix2 ⟨product.im, product.re⟩ n
  ⟨fun i => inverse.im i / n, fun i => inverse.re i / n⟩

/-- `FFT_czt`; the imaginary input is not read. -/
noncomputable def fftCzt (v : Arrays) (n m : ℕ) : Arrays :=
  let a : Arrays :=
    { re := fun i => if i < n then v.re i * cosCzt i else 0
      im := fun i => if i < n then -v.re i * sinCzt i else 0 }
  -- The chirp stands at both ends of the longer array, zeros between.
  let b : Arrays :=
    { re := fun i => if i < n then cosCzt i else if i ≤ m - n then 0 else cosCzt (m - i)
      im := fun i => if i < n then sinCzt i else if i ≤ m - n then 0 else sinCzt (m - i) }
  let c := convolve a b m
  { re := fun i => if i < n then c.re i * cosCzt i + c.im i * sinCzt i else v.re i
    im := fun i => if i < n then -c.re i * sinCzt i + c.im i * cosCzt i else v.im i }

noncomputable def amplitude (v : Arrays) (i : ℕ) : ℝ :=
  Real.sqrt (v.re i * v.re i + v.im i * v.im i)

/-- The largest amplitude of the first `n` bins. -/
noncomputable def largest (v : Arrays) (n : ℕ) : ℝ :=
  (List.range n).foldl (fun max i => if max < amplitude v i then amplitude v i else max) 0

def binOf (nominal : Nominal) (h : ℕ) : ℕ := h * freqHz nominal / 5

/-- `FFT_postproc`: orders 2 to 63, relative to the largest bin; no order reaches the last bin. -/
noncomputable def fftPostproc (beyond : Sel → ℝ) (v : Arrays) (n : ℕ) (sel : Sel)
    (nominal : Nominal) : Result :=
  let max := largest v (n / 2)
  report (fun h => if n / 2 ≤ binOf nominal h then 0 else amplitude v (binOf nominal h) / max)
    (gain beyond sel nominal) 63

/-- `FFT_prepare` leaves the samples as real parts. -/
def prepared (sample : ℕ → ℝ) : Arrays := ⟨sample, fun _ => 0⟩

/-- `FFT_harmonic`: Goertzel at the measured frequency, or the fallback at the nominal one. -/
noncomputable def fftHarmonic (gFftGoertzel : Bool) (beyond : Sel → ℝ) (g : GzCoeff)
    (sample : ℕ → ℝ) (sel : Sel) (nominal : Nominal) (fMeas : ℝ) : GzCoeff × Result :=
  if gFftGoertzel then fftGoertzel beyond g sample nFft fMeas sel nominal
  else (g, fftPostproc beyond (fftCzt (prepared sample) nFft mFft) nFft sel nominal)

end SV300.Harmonics.Engine
