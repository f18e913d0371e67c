import Mathlib.Data.Nat.Log
import Mathlib.Algebra.Order.Ring.Int
import Mathlib.Tactic.Ring
import Mathlib.Tactic.NormNum
import Mathlib.Tactic.Linarith

/-!
# Binary interchange formats with a single NaN

A value keeps its sign, biased exponent and fraction, so the bit pattern and
the value determine each other. Rounding goes to nearest, ties to even. The
exact value of a finite number is the fraction `num / den`; comparisons with
integers and truncation are stated on it.
-/

namespace BinaryFloat

/-- The widths of the fraction and exponent fields. `wide` makes every integer
of at most `fracBits + 1` bits exact. -/
structure Format where
  fracBits : Nat
  expBits : Nat
  frac_pos : 0 < fracBits
  wide : fracBits < 2 ^ (expBits - 1)
  exp_pos : 0 < expBits

namespace Format

variable (F : Format)

/-- The all-ones exponent field, reserved for infinities and NaN. -/
def maxExp : Nat := 2 ^ F.expBits - 1

def bias : Nat := 2 ^ (F.expBits - 1) - 1

/-- The exponent of the unit in the last place of a subnormal number. -/
def minUnit : Int := 1 - F.bias - F.fracBits

theorem maxExp_eq : F.maxExp = 2 * F.bias + 1 := by
  have hpos : 0 < 2 ^ (F.expBits - 1) := by positivity
  have hsucc : 2 ^ F.expBits = 2 * 2 ^ (F.expBits - 1) := by
    rw [← pow_succ', Nat.sub_add_cancel F.exp_pos]
  unfold maxExp bias
  omega

theorem fracBits_le_bias : F.fracBits ≤ F.bias := by
  have h := F.wide
  unfold bias
  omega

theorem maxExp_lt : F.maxExp < 2 ^ F.expBits := by
  have hpos : 0 < 2 ^ F.expBits := by positivity
  unfold maxExp
  omega

end Format

/-- A number of the format. Signed zeros are finite values with zero fields. -/
inductive Value (F : Format)
  | nan
  | inf (neg : Bool)
  | finite (neg : Bool) (exp : Fin F.maxExp) (frac : Fin (2 ^ F.fracBits))
deriving DecidableEq

namespace Value

variable {F : Format}

def signBit (neg : Bool) : Nat := if neg then 1 else 0

/-- The three fields of a bit pattern as one number. -/
def pack (F : Format) (neg : Bool) (exp frac : Nat) : Nat :=
  (signBit neg * 2 ^ F.expBits + exp) * 2 ^ F.fracBits + frac

/-- The bit pattern; NaN is the quiet NaN with no payload. -/
def bits : Value F → Nat
  | .nan => pack F false F.maxExp (2 ^ (F.fracBits - 1))
  | .inf neg => pack F neg F.maxExp 0
  | .finite neg exp frac => pack F neg exp frac

/-- The number a bit pattern stands for; every NaN pattern is the one NaN. -/
def ofBits (n : Nat) : Value F :=
  let frac := n % 2 ^ F.fracBits
  let exp := n / 2 ^ F.fracBits % 2 ^ F.expBits
  let neg := decide (n / 2 ^ F.fracBits / 2 ^ F.expBits % 2 = 1)
  if hexp : exp < F.maxExp then
    .finite neg ⟨exp, hexp⟩ ⟨frac, Nat.mod_lt _ (by positivity)⟩
  else if frac = 0 then .inf neg
  else .nan

theorem pack_fields {neg : Bool} {exp frac : Nat} (hexp : exp < 2 ^ F.expBits)
    (hfrac : frac < 2 ^ F.fracBits) :
    pack F neg exp frac % 2 ^ F.fracBits = frac ∧
      pack F neg exp frac / 2 ^ F.fracBits % 2 ^ F.expBits = exp ∧
      pack F neg exp frac / 2 ^ F.fracBits / 2 ^ F.expBits = signBit neg := by
  have hp : 0 < 2 ^ F.fracBits := by positivity
  have hq : 0 < 2 ^ F.expBits := by positivity
  have hdiv : pack F neg exp frac / 2 ^ F.fracBits = signBit neg * 2 ^ F.expBits + exp := by
    rw [pack, Nat.mul_comm, Nat.mul_add_div hp, Nat.div_eq_of_lt hfrac, Nat.add_zero]
  refine ⟨?_, ?_, ?_⟩
  · rw [pack, Nat.mul_comm, Nat.mul_add_mod, Nat.mod_eq_of_lt hfrac]
  · rw [hdiv, Nat.mul_comm, Nat.mul_add_mod, Nat.mod_eq_of_lt hexp]
  · rw [hdiv, Nat.mul_comm, Nat.mul_add_div hq, Nat.div_eq_of_lt hexp, Nat.add_zero]

theorem signBit_decide (neg : Bool) : decide (signBit neg % 2 = 1) = neg := by
  cases neg <;> rfl

/-- A bit pattern determines the number it was made from. -/
theorem ofBits_bits (v : Value F) : ofBits v.bits = v := by
  have hmax := F.maxExp_lt
  have hp : 0 < 2 ^ F.fracBits := by positivity
  have hhalf : 2 ^ (F.fracBits - 1) < 2 ^ F.fracBits :=
    Nat.pow_lt_pow_right (by omega) (Nat.sub_lt F.frac_pos Nat.one_pos)
  have hhalfpos : 2 ^ (F.fracBits - 1) ≠ 0 := by positivity
  cases v with
  | nan =>
      obtain ⟨hf, he, -⟩ := @pack_fields F false _ _ hmax hhalf
      simp only [ofBits, bits, hf, he, lt_irrefl, dif_neg, not_false_iff, if_neg hhalfpos]
  | inf neg =>
      obtain ⟨hf, he, hs⟩ := @pack_fields F neg _ _ hmax hp
      simp only [ofBits, bits, hf, he, hs, lt_irrefl, dif_neg, not_false_iff, if_true,
        signBit_decide]
  | finite neg exp frac =>
      obtain ⟨hf, he, hs⟩ := @pack_fields F neg _ _ (exp.isLt.trans hmax) frac.isLt
      simp only [ofBits, bits, hf, he, hs, exp.isLt, dif_pos, signBit_decide]

theorem pack_lt {neg : Bool} {exp frac : Nat} (hexp : exp < 2 ^ F.expBits)
    (hfrac : frac < 2 ^ F.fracBits) :
    pack F neg exp frac < 2 ^ (1 + F.expBits + F.fracBits) := by
  have hs : signBit neg ≤ 1 := by cases neg <;> decide
  have hsum : signBit neg * 2 ^ F.expBits + exp + 1 ≤ 2 * 2 ^ F.expBits := by nlinarith
  have hmul := Nat.mul_le_mul_right (2 ^ F.fracBits) hsum
  rw [pack, pow_add, pow_add, pow_one]
  rw [Nat.add_mul _ 1] at hmul
  omega

theorem bits_lt (v : Value F) : v.bits < 2 ^ (1 + F.expBits + F.fracBits) := by
  have hmax := F.maxExp_lt
  cases v with
  | nan =>
      exact pack_lt hmax
        (Nat.pow_lt_pow_right (by omega) (Nat.sub_lt F.frac_pos Nat.one_pos))
  | inf neg => exact pack_lt hmax (by positivity)
  | finite neg exp frac => exact pack_lt (exp.isLt.trans hmax) frac.isLt

/-- The integer significand, with the hidden bit of a normal number. -/
def significand (F : Format) (exp frac : Nat) : Nat :=
  if exp = 0 then frac else 2 ^ F.fracBits + frac

/-- The exponent of the unit in the last place. -/
def unit (F : Format) (exp : Nat) : Int := F.minUnit + (exp - 1 : Nat)

/-- The numerator of the exact value; zero for NaN and the infinities. -/
def num : Value F → Int
  | .finite neg exp frac =>
      let m : Int := significand F exp frac * 2 ^ (unit F exp).toNat
      if neg then -m else m
  | _ => 0

/-- The positive denominator of the exact value. -/
def den : Value F → Nat
  | .finite _ exp _ => 2 ^ (-unit F exp).toNat
  | _ => 1

theorem den_pos (v : Value F) : 0 < v.den := by
  cases v <;> simp [den]

/-- The value above an integer; NaN is above nothing. -/
def gtInt : Value F → Int → Bool
  | .nan, _ => false
  | .inf neg, _ => !neg
  | v, i => decide (v.num > i * v.den)

def ltInt : Value F → Int → Bool
  | .nan, _ => false
  | .inf neg, _ => neg
  | v, i => decide (v.num < i * v.den)

/-- The order of the numbers; NaN is in no relation. -/
def lt : Value F → Value F → Bool
  | .nan, _ | _, .nan => false
  | .inf neg, .inf neg' => neg && !neg'
  | .inf neg, _ => neg
  | _, .inf neg => !neg
  | v, w => decide (v.num * w.den < w.num * v.den)

/-- Truncation towards zero; zero for NaN and the infinities. -/
def trunc (v : Value F) : Int := v.num.tdiv v.den

/-- A finite number whose exact value is an integer. -/
def isInteger : Value F → Bool
  | .finite neg exp frac => decide ((den (.finite neg exp frac : Value F) : Int) ∣
      num (.finite neg exp frac : Value F))
  | _ => false

def isZero : Value F → Bool
  | .finite _ exp frac => decide ((exp : Nat) = 0 ∧ (frac : Nat) = 0)
  | _ => false

/-- Assemble a number from the code whose high part is the biased exponent and
whose low part is the fraction; a carry out of the fraction bumps the exponent. -/
def ofCode (neg : Bool) (code : Nat) : Value F :=
  if h : code / 2 ^ F.fracBits < F.maxExp then
    .finite neg ⟨code / 2 ^ F.fracBits, h⟩
      ⟨code % 2 ^ F.fracBits, Nat.mod_lt _ (by positivity)⟩
  else .inf neg

/-- `m / 2 ^ s` rounded to nearest, ties to even. -/
def roundShift (m s : Nat) : Nat :=
  let q := m / 2 ^ s
  let r := m % 2 ^ s
  if 2 * r < 2 ^ s ∨ (2 * r = 2 ^ s ∧ q % 2 = 0) then q else q + 1

/-- `(-1) ^ neg * m * 2 ^ e` rounded to the format. -/
def round (neg : Bool) (m : Nat) (e : Int) : Value F :=
  if m = 0 then ofCode neg 0
  else
    let u := max (e + Nat.log2 m - F.fracBits) F.minUnit
    let s := if u ≤ e then m * 2 ^ (e - u).toNat else roundShift m (u - e).toNat
    ofCode neg ((u - F.minUnit).toNat * 2 ^ F.fracBits + s)

theorem ofCode_ne_nan (neg : Bool) (code : Nat) : (ofCode neg code : Value F) ≠ .nan := by
  intro h
  unfold ofCode at h
  split at h <;> cases h

theorem round_ne_nan (neg : Bool) (m : Nat) (e : Int) : (round neg m e : Value F) ≠ .nan := by
  unfold round
  split
  · exact ofCode_ne_nan neg 0
  · exact ofCode_ne_nan neg _

/-- The nearest number of the format to an integer. -/
def ofInt (i : Int) : Value F := round (decide (i < 0)) i.natAbs 0

/-- The product with a positive integer, rounded. -/
def scale (k : Nat) : Value F → Value F
  | .finite neg exp frac => round neg (k * significand F exp frac) (unit F exp)
  | v => v

/-- Conversion between formats, by rounding the exact value. -/
def convert {G : Format} : Value F → Value G
  | .nan => .nan
  | .inf neg => .inf neg
  | .finite neg exp frac => round neg (significand F exp frac) (unit F exp)

theorem lt_self (v : Value F) : v.lt v = false := by
  cases v with
  | nan => rfl
  | inf neg => cases neg <;> rfl
  | finite neg exp frac => exact decide_eq_false (lt_irrefl _)

theorem round_zero (neg : Bool) : (round neg 0 0 : Value F).num = 0 ∧
    (round neg 0 0 : Value F).isInteger = true := by
  have hpos : 0 < F.maxExp := by have h := F.maxExp_eq; omega
  have h : (round neg 0 0 : Value F) = .finite neg ⟨0, hpos⟩ ⟨0, by positivity⟩ := by
    simp [round, ofCode, hpos]
  rw [h]
  cases neg <;> simp [num, isInteger, significand]

/-- A magnitude of at most `fracBits + 1` bits is represented exactly, as a
finite number of the given sign. -/
theorem round_exact (neg : Bool) {m : Nat} (hpos : m ≠ 0)
    (hm : m < 2 ^ (F.fracBits + 1)) :
    ∃ exp frac, (round neg m 0 : Value F) = .finite neg exp frac ∧
      (significand F exp frac : Int) * 2 ^ (unit F exp).toNat =
        m * 2 ^ (-unit F exp).toNat := by
  set L := Nat.log2 m with hL
  have hlog : 2 ^ L ≤ m := Nat.log2_self_le hpos
  have hlog' : m < 2 ^ (L + 1) := Nat.lt_log2_self
  have hLF : L ≤ F.fracBits := by
    by_contra h
    have := Nat.pow_le_pow_right (n := 2) (by omega) (show F.fracBits + 1 ≤ L by omega)
    omega
  have hbias := F.fracBits_le_bias
  have hfrac := F.frac_pos
  have hmax := F.maxExp_eq
  have hmin : F.minUnit = 1 - F.bias - F.fracBits := rfl
  have hu : max ((0 : Int) + L - F.fracBits) F.minUnit = L - F.fracBits := by omega
  -- the significand fills the fraction field exactly, hidden bit included
  set s := m * 2 ^ (F.fracBits - L) with hs
  have hslo : 2 ^ F.fracBits ≤ s := by
    calc 2 ^ F.fracBits = 2 ^ L * 2 ^ (F.fracBits - L) := by
          rw [← pow_add, Nat.add_sub_cancel' hLF]
      _ ≤ s := Nat.mul_le_mul_right _ hlog
  have hshi : s < 2 * 2 ^ F.fracBits := by
    calc s < 2 ^ (L + 1) * 2 ^ (F.fracBits - L) :=
          Nat.mul_lt_mul_of_pos_right hlog' (by positivity)
      _ = 2 * 2 ^ F.fracBits := by
          rw [← pow_add, ← pow_succ']
          congr 1
          omega
  set k := ((L : Int) - F.fracBits - F.minUnit).toNat with hk
  have hkval : k = L + F.bias - 1 := by omega
  have hdiv : (k * 2 ^ F.fracBits + s) / 2 ^ F.fracBits = k + 1 := by
    have hp : 0 < 2 ^ F.fracBits := by positivity
    rw [Nat.mul_comm, Nat.mul_add_div hp]
    have : s / 2 ^ F.fracBits = 1 := Nat.div_eq_of_lt_le (by omega) (by omega)
    omega
  have hmod : (k * 2 ^ F.fracBits + s) % 2 ^ F.fracBits = s - 2 ^ F.fracBits := by
    rw [Nat.mul_comm, Nat.mul_add_mod, Nat.mod_eq_sub_mod hslo, Nat.mod_eq_of_lt (by omega)]
  have hround : (round neg m 0 : Value F) = ofCode neg (k * 2 ^ F.fracBits + s) := by
    have hshift : ((0 : Int) - (L - F.fracBits)).toNat = F.fracBits - L := by omega
    simp only [round, if_neg hpos, ← hL, hu]
    rw [if_pos (by omega), hshift]
  have hexp : k + 1 < F.maxExp := by omega
  refine ⟨⟨k + 1, hexp⟩, ⟨s - 2 ^ F.fracBits, by omega⟩, ?_, ?_⟩
  · rw [hround, ofCode, dif_pos (by rw [hdiv]; exact hexp)]
    simp only [hdiv, hmod]
  · have hunit : unit F (k + 1) = L - F.fracBits := by
      unfold unit
      omega
    have hsig : significand F (k + 1) (s - 2 ^ F.fracBits) = s := by
      simp only [significand, Nat.add_eq_zero_iff, one_ne_zero, and_false, if_false]
      omega
    simp only [hunit, hsig]
    have hneg : ((L : Int) - F.fracBits).toNat = 0 := by omega
    have hback : (-((L : Int) - F.fracBits)).toNat = F.fracBits - L := by omega
    rw [hneg, hback, hs]
    push_cast
    ring

/-- An integer of at most `fracBits + 1` bits keeps its exact value. -/
theorem num_ofInt {i : Int} (hi : i.natAbs < 2 ^ (F.fracBits + 1)) :
    (ofInt i : Value F).num = i * (ofInt i : Value F).den := by
  by_cases hz : i.natAbs = 0
  · have h0 : i = 0 := Int.natAbs_eq_zero.mp hz
    subst h0
    simpa [ofInt] using (round_zero (F := F) false).1
  · obtain ⟨exp, frac, hround, heq⟩ := round_exact (decide (i < 0)) hz hi
    rw [ofInt, hround]
    simp only [num, den, heq]
    rcases Int.lt_or_le i 0 with hneg | hpos
    · have habs : ((i.natAbs : Nat) : Int) = -i := Int.ofNat_natAbs_of_nonpos hneg.le
      simp only [hneg, decide_true, if_true, habs]
      push_cast
      ring
    · have habs : ((i.natAbs : Nat) : Int) = i := Int.natAbs_of_nonneg hpos
      simp only [not_lt.mpr hpos, decide_false, Bool.false_eq_true, if_false, habs]
      push_cast
      ring

theorem ofInt_finite {i : Int} (hi : i.natAbs < 2 ^ (F.fracBits + 1)) :
    ∃ neg exp frac, (ofInt i : Value F) = .finite neg exp frac := by
  by_cases hz : i.natAbs = 0
  · have hpos : 0 < F.maxExp := by have h := F.maxExp_eq; omega
    refine ⟨decide (i < 0), ⟨0, hpos⟩, ⟨0, by positivity⟩, ?_⟩
    simp [ofInt, round, hz, ofCode, hpos]
  · obtain ⟨exp, frac, hround, -⟩ := round_exact (decide (i < 0)) hz hi
    exact ⟨_, exp, frac, hround⟩

/-- A finite number whose exact value is the integer. -/
structure Denotes (v : Value F) (i : Int) : Prop where
  finite : ∃ neg exp frac, v = .finite neg exp frac
  num_eq : v.num = i * v.den

namespace Denotes

variable {v : Value F} {i : Int}

theorem trunc (h : v.Denotes i) : v.trunc = i := by
  have hden := v.den_pos
  rw [Value.trunc, h.num_eq]
  exact Int.mul_tdiv_cancel i (by omega)

theorem gtInt (h : v.Denotes i) (j : Int) : v.gtInt j = decide (i > j) := by
  obtain ⟨⟨neg, exp, frac, rfl⟩, hnum⟩ := h
  have hden : (0 : Int) < (den (.finite neg exp frac : Value F) : Int) := by
    exact_mod_cast den_pos _
  simp only [Value.gtInt, hnum, gt_iff_lt, mul_lt_mul_iff_left₀ hden]

theorem ltInt (h : v.Denotes i) (j : Int) : v.ltInt j = decide (i < j) := by
  obtain ⟨⟨neg, exp, frac, rfl⟩, hnum⟩ := h
  have hden : (0 : Int) < (den (.finite neg exp frac : Value F) : Int) := by
    exact_mod_cast den_pos _
  simp only [Value.ltInt, hnum, mul_lt_mul_iff_left₀ hden]

theorem isInteger (h : v.Denotes i) : v.isInteger = true := by
  obtain ⟨⟨neg, exp, frac, rfl⟩, hnum⟩ := h
  simp only [Value.isInteger, hnum, decide_eq_true_eq]
  exact Dvd.intro_left i rfl

end Denotes

theorem denotes_ofInt {i : Int} (hi : i.natAbs < 2 ^ (F.fracBits + 1)) :
    (ofInt i : Value F).Denotes i :=
  ⟨ofInt_finite hi, num_ofInt hi⟩

/-- What is not below an integer is below no smaller one. -/
theorem not_ltInt_of_le {v : Value F} {i j : Int} (hij : j ≤ i) (h : v.ltInt i = false) :
    v.ltInt j = false := by
  cases v with
  | nan => rfl
  | inf neg => exact h
  | finite neg exp frac =>
      have hle := Int.not_lt.mp (of_decide_eq_false h)
      have hmul := mul_le_mul_of_nonneg_right hij
        (Int.natCast_nonneg (den (.finite neg exp frac : Value F)))
      exact decide_eq_false (Int.not_lt.mpr (hmul.trans hle))

/-- Zero of either sign. -/
theorem denotes_zero (neg : Bool) (h : 0 < F.maxExp) (h' : 0 < 2 ^ F.fracBits) :
    (.finite neg ⟨0, h⟩ ⟨0, h'⟩ : Value F).Denotes 0 :=
  ⟨⟨neg, _, _, rfl⟩, by simp [num, significand]⟩

/-- The zeros are the numbers that denote zero. -/
theorem isZero_iff_denotes {v : Value F} : v.isZero = true ↔ v.Denotes 0 := by
  have hunit : ∀ e : Nat, (2 : Int) ^ e ≠ 0 := fun e => by positivity
  cases v with
  | finite neg exp frac =>
      have hsignificand : significand F exp frac = 0 ↔ (exp : Nat) = 0 ∧ (frac : Nat) = 0 := by
        have hpos : 0 < 2 ^ F.fracBits := by positivity
        unfold significand
        split <;> omega
      have hnum : num (.finite neg exp frac : Value F) = 0 ↔ significand F exp frac = 0 := by
        cases neg <;> simp [num, hunit]
      simp only [isZero, decide_eq_true_eq, ← hsignificand, ← hnum]
      exact ⟨fun h => ⟨⟨neg, exp, frac, rfl⟩, by rw [h, zero_mul]⟩, fun h => by
        rw [h.num_eq, zero_mul]⟩
  | nan => exact iff_of_false nofun fun h => by obtain ⟨⟨_, _, _, h⟩, -⟩ := h; cases h
  | inf neg => exact iff_of_false nofun fun h => by obtain ⟨⟨_, _, _, h⟩, -⟩ := h; cases h

/-- An integral number denotes its truncation. -/
theorem denotes_trunc {v : Value F} (h : v.isInteger = true) : v.Denotes v.trunc := by
  cases v with
  | finite neg exp frac =>
      simp only [isInteger, decide_eq_true_eq] at h
      exact ⟨⟨neg, exp, frac, rfl⟩, (Int.tdiv_mul_cancel h).symm⟩
  | nan => cases h
  | inf neg => cases h

/-- What is neither above nor below a range around zero is truncated into it. -/
theorem trunc_mem {v : Value F} {lo hi : Int} (hlo : lo ≤ 0) (hhi : 0 ≤ hi)
    (hgt : v.gtInt hi = false) (hlt : v.ltInt lo = false) : lo ≤ v.trunc ∧ v.trunc ≤ hi := by
  have hden : (0 : Int) < v.den := by exact_mod_cast v.den_pos
  have hnum : lo * v.den ≤ v.num ∧ v.num ≤ hi * v.den := by
    cases v with
    | finite neg exp frac =>
        simp only [gtInt, ltInt, gt_iff_lt, decide_eq_false_iff_not, not_lt] at hgt hlt
        exact ⟨hlt, hgt⟩
    | nan => simp [num, den, hlo, hhi]
    | inf neg => simp [num, den, hlo, hhi]
  have hlower := Int.tdiv_le_tdiv hden hnum.1
  have hupper := Int.tdiv_le_tdiv hden hnum.2
  rw [Int.mul_tdiv_cancel _ hden.ne'] at hlower hupper
  exact ⟨hlower, hupper⟩

def isFinite : Value F → Bool
  | .finite .. => true
  | _ => false

/-- Rounding gives a finite number, or overflows with the sign it was given. -/
theorem round_cases (neg : Bool) (m : Nat) (e : Int) :
    (round neg m e : Value F).isFinite = true ∨ (round neg m e : Value F) = .inf neg := by
  have hcode : ∀ code, (ofCode neg code : Value F).isFinite = true ∨
      (ofCode neg code : Value F) = .inf neg := by
    intro code
    unfold ofCode
    split
    · exact Or.inl rfl
    · exact Or.inr rfl
  unfold round
  split
  · exact hcode 0
  · exact hcode _

/-- The product of a positive number is finite or overflows upwards. -/
theorem scale_cases {v : Value F} (hfinite : v.isFinite = true) (hpos : v.gtInt 0 = true)
    (k : Nat) : (v.scale k).isFinite = true ∨ v.scale k = .inf false := by
  cases v with
  | nan => cases hfinite
  | inf neg => cases hfinite
  | finite neg exp frac =>
      obtain rfl : neg = false := by
        cases neg with
        | false => rfl
        | true =>
            simp only [gtInt, num, Int.zero_mul, gt_iff_lt, decide_eq_true_eq, if_true] at hpos
            exact absurd hpos (not_lt.mpr (by simp only [Left.neg_nonpos_iff]; positivity))
      exact round_cases false _ _

theorem gtInt_zero {v : Value F} {i : Int} (hi : 0 ≤ i) (h : v.gtInt i = true) :
    v.gtInt 0 = true := by
  cases v with
  | nan => cases h
  | inf neg => exact h
  | finite neg exp frac =>
      have hden := den_pos (Value.finite neg exp frac : Value F)
      simp only [gtInt, gt_iff_lt, decide_eq_true_eq, Int.zero_mul] at h ⊢
      exact lt_of_le_of_lt (Int.mul_nonneg hi (Int.natCast_nonneg _)) h

/-- Equal as numbers: the two zeros are one number, and NaN is the same as NaN. -/
def Same (v w : Value F) : Prop :=
  v = w ∨ (v.isFinite = true ∧ w.isFinite = true ∧ v.num * w.den = w.num * v.den)

instance (v w : Value F) : Decidable (Same v w) := by
  unfold Same
  infer_instance

theorem Denotes.isFinite {v : Value F} {i : Int} (h : v.Denotes i) : v.isFinite = true := by
  obtain ⟨⟨neg, exp, frac, rfl⟩, -⟩ := h
  rfl

theorem Denotes.same {v w : Value F} {i : Int} (hv : v.Denotes i) (hw : w.Denotes i) :
    Same v w := by
  refine Or.inr ⟨hv.isFinite, hw.isFinite, ?_⟩
  rw [hv.num_eq, hw.num_eq]
  ring

/-- Only what denotes an integer is the same as the number of that integer. -/
theorem same_ofInt_iff {v : Value F} {i : Int} (h : i.natAbs < 2 ^ (F.fracBits + 1)) :
    Same v (ofInt i) ↔ v.Denotes i := by
  have hint : (ofInt i : Value F).Denotes i := denotes_ofInt h
  constructor
  · rintro (rfl | ⟨hfinite, -, hnum⟩)
    · exact hint
    · have hden : (0 : Int) < (ofInt i : Value F).den := by exact_mod_cast den_pos _
      have hmul : v.num * (ofInt i : Value F).den = i * v.den * (ofInt i : Value F).den := by
        rw [hnum, hint.num_eq]
        ring
      refine ⟨?_, Int.eq_of_mul_eq_mul_right hden.ne' hmul⟩
      cases v with
      | finite neg exp frac => exact ⟨neg, exp, frac, rfl⟩
      | nan => cases hfinite
      | inf neg => cases hfinite
  · intro hv
    exact hv.same hint

/-- The quotient is rounded up at most. -/
theorem div_le_roundShift (m s : Nat) : m / 2 ^ s ≤ roundShift m s := by
  unfold roundShift
  dsimp only
  split <;> omega

/-- Rounding keeps a large integer above every exact one. -/
theorem gtInt_ofInt {n : Nat} {j : Int} (hn : 2 ^ (F.fracBits + 1) ≤ n)
    (hj : j < 2 ^ (F.fracBits + 1)) : (ofInt n : Value F).gtInt j = true := by
  have hpos : n ≠ 0 := by
    have : 0 < 2 ^ (F.fracBits + 1) := by positivity
    omega
  have hlog : F.fracBits + 1 ≤ Nat.log2 n := (Nat.le_log2 hpos).mpr hn
  have hmin : F.minUnit = 1 - F.bias - F.fracBits := rfl
  have hbias := F.fracBits_le_bias
  obtain ⟨u, hu⟩ : ∃ u, u = Nat.log2 n - F.fracBits := ⟨_, rfl⟩
  have hmax : max ((0 : Int) + Nat.log2 n - F.fracBits) F.minUnit = u := by omega
  have hshift : ((u : Int) - 0).toNat = u := by omega
  have hround : (ofInt n : Value F) =
      ofCode false ((u - F.minUnit).toNat * 2 ^ F.fracBits + roundShift n u) := by
    simp only [ofInt, round, Int.natAbs_natCast, if_neg hpos, hmax]
    rw [if_neg (by omega), hshift, decide_eq_false (by omega)]
  -- the quotient still fills the fraction field
  have hquot : 2 ^ F.fracBits ≤ roundShift n u := by
    refine le_trans ?_ (div_le_roundShift n u)
    rw [Nat.le_div_iff_mul_le (by positivity), ← pow_add]
    calc 2 ^ (F.fracBits + u) = 2 ^ Nat.log2 n := by rw [hu, Nat.add_sub_cancel' (by omega)]
      _ ≤ n := Nat.log2_self_le hpos
  have hexp : (u - F.minUnit).toNat + 1 ≤
      ((u - F.minUnit).toNat * 2 ^ F.fracBits + roundShift n u) / 2 ^ F.fracBits := by
    rw [Nat.le_div_iff_mul_le (by positivity), Nat.add_mul, Nat.one_mul]
    omega
  rw [hround, ofCode]
  split
  next hfinite =>
    obtain ⟨e, he⟩ : ∃ e, e = ((u - F.minUnit).toNat * 2 ^ F.fracBits + roundShift n u) /
        2 ^ F.fracBits := ⟨_, rfl⟩
    simp only [← he] at hexp hfinite ⊢
    have hunit : 1 ≤ unit F e := by
      unfold unit
      omega
    have hden : (-unit F e).toNat = 0 := by omega
    simp only [gtInt, num, den, hden, Bool.false_eq_true, if_false, pow_zero, Nat.cast_one,
      mul_one, gt_iff_lt, decide_eq_true_eq]
    refine lt_of_lt_of_le hj ?_
    have hsig : 2 ^ F.fracBits ≤ significand F e
        (((u - F.minUnit).toNat * 2 ^ F.fracBits + roundShift n u) % 2 ^ F.fracBits) := by
      rw [significand, if_neg (by omega)]
      omega
    have htwo : 2 ^ 1 ≤ 2 ^ (unit F e).toNat := Nat.pow_le_pow_right (by omega) (by omega)
    calc (2 : Int) ^ (F.fracBits + 1) = ((2 ^ F.fracBits * 2 ^ 1 : Nat) : Int) := by
          push_cast
          ring
      _ ≤ _ := by exact_mod_cast Nat.mul_le_mul hsig htwo
  next => rfl

end Value

end BinaryFloat
