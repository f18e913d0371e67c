import OpcUaSuite.Lib.BinaryFloat

/-!
# Widening a binary floating-point number

A format with more fraction bits and a wider range of exponents has every number of the
narrower one, subnormal numbers included: conversion there and back is the identity.
-/

namespace BinaryFloat

namespace Value

variable {F G : Format}

/-- An exact quotient is not rounded. -/
theorem roundShift_mul (m s : Nat) : roundShift (m * 2 ^ s) s = m := by
  have hpos : 0 < 2 ^ s := Nat.two_pow_pos s
  simp only [roundShift, Nat.mul_div_cancel _ hpos, Nat.mul_mod_left]
  rw [if_pos (Or.inl (by omega))]

/-- Common trailing zeros do not matter. -/
theorem roundShift_mul_mul (m s k : Nat) : roundShift (m * 2 ^ k) (s + k) = roundShift m s := by
  have hpos : 0 < 2 ^ k := Nat.two_pow_pos k
  simp only [roundShift, pow_add, Nat.mul_div_mul_right _ _ hpos, Nat.mul_mod_mul_right]
  have hless : 2 * (m % 2 ^ s * 2 ^ k) < 2 ^ s * 2 ^ k ↔ 2 * (m % 2 ^ s) < 2 ^ s := by
    rw [← Nat.mul_assoc]
    exact Nat.mul_lt_mul_right hpos
  have hequal : 2 * (m % 2 ^ s * 2 ^ k) = 2 ^ s * 2 ^ k ↔ 2 * (m % 2 ^ s) = 2 ^ s := by
    rw [← Nat.mul_assoc]
    exact Nat.mul_left_inj hpos.ne'
  simp only [hless, hequal]

/-- Rounding depends on the value alone, not on how it is scaled. -/
theorem round_mul_pow (neg : Bool) {m : Nat} (hpos : m ≠ 0) (k : Nat) (e : Int) :
    (round neg (m * 2 ^ k) (e - k) : Value F) = round neg m e := by
  have hpow : 0 < 2 ^ k := Nat.two_pow_pos k
  have hlog : Nat.log2 (m * 2 ^ k) = Nat.log2 m + k := by
    refine (Nat.log2_eq_iff (Nat.mul_ne_zero hpos hpow.ne')).mpr ⟨?_, ?_⟩
    · rw [pow_add]
      exact Nat.mul_le_mul_right _ (Nat.log2_self_le hpos)
    · rw [Nat.add_right_comm, pow_add]
      exact Nat.mul_lt_mul_of_pos_right Nat.lt_log2_self hpow
  have hsame : e - (k : Int) + (Nat.log2 m + k : Nat) - F.fracBits =
      e + Nat.log2 m - F.fracBits := by
    push_cast
    omega
  simp only [round, Nat.mul_ne_zero hpos hpow.ne', if_neg, hpos, hlog, hsame, not_false_iff]
  obtain ⟨u, hu⟩ : ∃ u, u = max (e + Nat.log2 m - F.fracBits) F.minUnit := ⟨_, rfl⟩
  rw [← hu]
  congr 2
  by_cases hsmall : u ≤ e - k
  · have hshift : (e - u).toNat = k + (e - k - u).toNat := by omega
    rw [if_pos hsmall, if_pos (by omega), hshift, pow_add, Nat.mul_assoc]
  · rw [if_neg hsmall]
    by_cases hmiddle : u ≤ e
    · have hsplit : k = (e - u).toNat + (u - (e - k)).toNat := by omega
      have hmul : m * 2 ^ k = m * 2 ^ (e - u).toNat * 2 ^ (u - (e - k)).toNat := by
        rw [Nat.mul_assoc, ← pow_add, ← hsplit]
      rw [if_pos hmiddle, hmul, roundShift_mul]
    · have hsplit : (u - (e - k)).toNat = (u - e).toNat + k := by omega
      rw [if_neg hmiddle, hsplit, roundShift_mul_mul]

theorem ofCode_fields (neg : Bool) {exp frac : Nat} (hexp : exp < F.maxExp)
    (hfrac : frac < 2 ^ F.fracBits) : (ofCode neg (exp * 2 ^ F.fracBits + frac) : Value F) =
      .finite neg ⟨exp, hexp⟩ ⟨frac, hfrac⟩ := by
  have hdiv : (exp * 2 ^ F.fracBits + frac) / 2 ^ F.fracBits = exp := by
    rw [Nat.mul_comm, Nat.mul_add_div (by positivity), Nat.div_eq_of_lt hfrac, Nat.add_zero]
  have hmod : (exp * 2 ^ F.fracBits + frac) % 2 ^ F.fracBits = frac := by
    rw [Nat.mul_comm, Nat.mul_add_mod, Nat.mod_eq_of_lt hfrac]
  simp only [ofCode, hdiv, hmod, hexp, dif_pos]

theorem round_zero_eq (neg : Bool) (e : Int) (hexp : 0 < F.maxExp) (hfrac : 0 < 2 ^ F.fracBits) :
    (round neg 0 e : Value F) = .finite neg ⟨0, hexp⟩ ⟨0, hfrac⟩ := by
  have hcode := @ofCode_fields F neg 0 0 hexp hfrac
  rwa [Nat.zero_mul, Nat.zero_add] at hcode

/-- A number of the format is rounded to itself. -/
theorem round_significand (neg : Bool) (exp : Fin F.maxExp) (frac : Fin (2 ^ F.fracBits)) :
    (round neg (significand F exp frac) (unit F exp) : Value F) = .finite neg exp frac := by
  obtain ⟨exp, hexp⟩ := exp
  obtain ⟨frac, hfrac⟩ := frac
  dsimp only
  by_cases hzero : significand F exp frac = 0
  · obtain ⟨rfl, rfl⟩ : exp = 0 ∧ frac = 0 := by
      have hpos : 0 < 2 ^ F.fracBits := by positivity
      unfold significand at hzero
      split at hzero <;> omega
    rw [hzero, round_zero_eq neg _ hexp hfrac]
  · have hunit : max (unit F exp + Nat.log2 (significand F exp frac) - F.fracBits) F.minUnit =
        unit F exp := by
      by_cases hsub : exp = 0
      · subst hsub
        have hlog : Nat.log2 frac < F.fracBits := by
          have hne : frac ≠ 0 := by simpa [significand] using hzero
          exact (Nat.log2_lt hne).mpr hfrac
        simp only [unit, significand, if_true]
        omega
      · have hlog : Nat.log2 (2 ^ F.fracBits + frac) = F.fracBits := by
          refine (Nat.log2_eq_iff (by positivity)).mpr ⟨Nat.le_add_right _ _, ?_⟩
          rw [pow_succ]
          omega
        simp only [unit, significand, if_neg hsub, hlog]
        omega
    simp only [round, if_neg hzero, hunit, le_refl, if_true, Int.sub_self, Int.toNat_zero, pow_zero,
      Nat.mul_one]
    have hshift : (unit F exp - F.minUnit).toNat = exp - 1 := by
      unfold unit
      omega
    rw [hshift]
    by_cases hsub : exp = 0
    · subst hsub
      simpa only [significand, if_true] using ofCode_fields neg hexp hfrac
    · have hcode : (exp - 1) * 2 ^ F.fracBits + significand F exp frac =
          exp * 2 ^ F.fracBits + frac := by
        obtain ⟨exp, rfl⟩ := Nat.exists_eq_succ_of_ne_zero hsub
        simp only [significand, if_neg hsub, Nat.succ_sub_one, Nat.succ_mul]
        omega
      rw [hcode, ofCode_fields neg hexp hfrac]

/-- A short magnitude well inside the range of the format is represented exactly: its
significand is filled up with zeros. -/
theorem round_short (neg : Bool) {m : Nat} (hpos : m ≠ 0) {e : Int}
    (hlog : Nat.log2 m ≤ G.fracBits) (hlow : G.minUnit + G.fracBits ≤ e)
    (hhigh : e + Nat.log2 m ≤ G.bias) :
    ∃ exp frac k, (round neg m e : Value G) = .finite neg exp frac ∧
      significand G exp frac = m * 2 ^ k ∧ unit G exp = e - (k : Nat) := by
  obtain ⟨L, hL⟩ : ∃ L, L = Nat.log2 m := ⟨_, rfl⟩
  rw [← hL] at hlog hhigh
  have hmin : G.minUnit = 1 - G.bias - G.fracBits := rfl
  have hmax := G.maxExp_eq
  have hmlo : 2 ^ L ≤ m := hL ▸ Nat.log2_self_le hpos
  have hmhi : m < 2 ^ (L + 1) := hL ▸ Nat.lt_log2_self
  -- the significand fills the fraction field exactly, hidden bit included
  obtain ⟨s, hs⟩ : ∃ s, s = m * 2 ^ (G.fracBits - L) := ⟨_, rfl⟩
  have hslo : 2 ^ G.fracBits ≤ s := by
    calc 2 ^ G.fracBits = 2 ^ L * 2 ^ (G.fracBits - L) := by
          rw [← pow_add, Nat.add_sub_cancel' hlog]
      _ ≤ s := hs ▸ Nat.mul_le_mul_right _ hmlo
  have hshi : s < 2 * 2 ^ G.fracBits := by
    calc s < 2 ^ (L + 1) * 2 ^ (G.fracBits - L) :=
          hs ▸ Nat.mul_lt_mul_of_pos_right hmhi (by positivity)
      _ = 2 * 2 ^ G.fracBits := by
          rw [← pow_add, ← pow_succ']
          congr 1
          omega
  obtain ⟨exp, hexp⟩ : ∃ exp : Nat, exp = (e + L + G.bias).toNat := ⟨_, rfl⟩
  have hexplt : exp < G.maxExp := by omega
  have hunit : unit G exp = e - (G.fracBits - L : Nat) := by
    unfold unit
    omega
  have hround : (round neg m e : Value G) = .finite neg ⟨exp, hexplt⟩ ⟨s - 2 ^ G.fracBits, by omega⟩ := by
    have hmaxUnit : max (e + L - G.fracBits) G.minUnit = e + L - G.fracBits := by omega
    have hshift : (e - (e + L - G.fracBits)).toNat = G.fracBits - L := by omega
    have hcode : (e + L - G.fracBits - G.minUnit).toNat * 2 ^ G.fracBits + s =
        exp * 2 ^ G.fracBits + (s - 2 ^ G.fracBits) := by
      have hsucc : exp = (e + L - G.fracBits - G.minUnit).toNat + 1 := by omega
      rw [hsucc, Nat.add_mul, Nat.one_mul]
      omega
    simp only [round, if_neg hpos, ← hL, hmaxUnit]
    rw [if_pos (by omega), hshift, ← hs, hcode, ofCode_fields neg hexplt]
  refine ⟨⟨exp, hexplt⟩, ⟨s - 2 ^ G.fracBits, by omega⟩, G.fracBits - L, hround, ?_, hunit⟩
  have hne : exp ≠ 0 := by omega
  simp only [significand, if_neg hne]
  omega

/-- Converted to a wider format and back, a number is what it was. -/
theorem convert_convert (hfrac : F.fracBits ≤ G.fracBits) (hrange : F.bias + F.fracBits ≤ G.bias)
    (v : Value F) : (convert (convert v : Value G) : Value F) = v := by
  cases v with
  | nan => rfl
  | inf neg => rfl
  | finite neg exp frac =>
      have hG : 0 < G.maxExp := by
        have := G.maxExp_eq
        omega
      change (convert (round neg (significand F exp frac) (unit F exp) : Value G) : Value F) = _
      by_cases hzero : significand F exp frac = 0
      · have hback := round_significand neg exp frac
        rw [hzero, round_zero_eq neg _ (Nat.zero_lt_of_lt exp.isLt) (by positivity)] at hback
        rw [hzero, round_zero_eq neg _ hG (by positivity), ← hback]
        exact round_zero_eq neg _ (Nat.zero_lt_of_lt exp.isLt) (by positivity)
      · have hlog : Nat.log2 (significand F exp frac) ≤ F.fracBits := by
          refine Nat.lt_succ_iff.mp ((Nat.log2_lt hzero).mpr ?_)
          have := frac.isLt
          unfold significand
          split
          · rw [pow_succ]
            omega
          · rw [pow_succ]
            omega
        have hexp := exp.isLt
        have hmaxF := F.maxExp_eq
        have hminF : F.minUnit = 1 - F.bias - F.fracBits := rfl
        have hminG : G.minUnit = 1 - G.bias - G.fracBits := rfl
        have hpos := F.frac_pos
        have hunit : unit F exp = F.minUnit + ((exp : Nat) - 1 : Nat) := rfl
        obtain ⟨exp', frac', k, hround, hsig, hunit'⟩ := @round_short G neg _ hzero (unit F exp)
          (hlog.trans hfrac) (by omega) (by omega)
        rw [hround]
        change (round neg (significand G exp' frac') (unit G exp') : Value F) = _
        rw [hsig, hunit', round_mul_pow neg hzero, round_significand]

end Value

end BinaryFloat
