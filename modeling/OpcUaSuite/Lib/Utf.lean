import OpcUaSuite.Lib.Bytes
import Mathlib.Data.List.Basic

/-!
# UTF-16 strings and their UTF-8 transcription

A string is a list of 16-bit code units, so a surrogate may stand alone. The
encoder replaces a lone surrogate by U+FFFD; the decoder replaces every maximal
ill-formed subpart by U+FFFD and never fails. On well-formed strings the two
are inverse.
-/

namespace Utf

open ByteCodec

/-- UTF-16 code units. -/
abbrev Units := List UInt16

def isHigh (u : Nat) : Bool := 0xd800 ≤ u && u < 0xdc00

def isLow (u : Nat) : Bool := 0xdc00 ≤ u && u < 0xe000

def isSurrogate (c : Nat) : Bool := 0xd800 ≤ c && c < 0xe000

/-- The code point of a surrogate pair. -/
def pair (hi lo : Nat) : Nat := 0x10000 + (hi - 0xd800) * 0x400 + (lo - 0xdc00)

/-- The code points of a string; a lone surrogate stands for itself. -/
def codePoints : Units → List Nat
  | [] => []
  | [u] => [u.toNat]
  | u :: v :: rest =>
      if isHigh u.toNat && isLow v.toNat then pair u.toNat v.toNat :: codePoints rest
      else u.toNat :: codePoints (v :: rest)

/-- The code units of one code point. -/
def unitsOf (c : Nat) : Units :=
  if c < 0x10000 then [UInt16.ofNat c]
  else [UInt16.ofNat (0xd800 + (c - 0x10000) / 0x400),
    UInt16.ofNat (0xdc00 + (c - 0x10000) % 0x400)]

def ofCodePoints (cs : List Nat) : Units := cs.flatMap unitsOf

/-- No surrogate of the string stands alone. -/
def wellFormed (s : Units) : Bool := (codePoints s).all fun c => !isSurrogate c

theorem unitsOf_pair {u v : UInt16} (hu : isHigh u.toNat) (hv : isLow v.toNat) :
    unitsOf (pair u.toNat v.toNat) = [u, v] := by
  simp only [isHigh, isLow, Bool.and_eq_true, decide_eq_true_eq] at hu hv
  have hdiv : ((u.toNat - 0xd800) * 0x400 + (v.toNat - 0xdc00)) / 0x400 = u.toNat - 0xd800 := by
    omega
  have hmod : ((u.toNat - 0xd800) * 0x400 + (v.toNat - 0xdc00)) % 0x400 = v.toNat - 0xdc00 := by
    omega
  have hsub : pair u.toNat v.toNat - 0x10000 =
      (u.toNat - 0xd800) * 0x400 + (v.toNat - 0xdc00) := by
    unfold pair
    omega
  have hbig : ¬pair u.toNat v.toNat < 0x10000 := by
    unfold pair
    omega
  rw [unitsOf, if_neg hbig, hsub, hdiv, hmod, Nat.add_sub_cancel' hu.1,
    Nat.add_sub_cancel' hv.1, UInt16.ofNat_toNat, UInt16.ofNat_toNat]

theorem unitsOf_unit (u : UInt16) : unitsOf u.toNat = [u] := by
  rw [unitsOf, if_pos u.toNat_lt, UInt16.ofNat_toNat]

/-- Splitting a string into code points loses nothing. -/
theorem ofCodePoints_codePoints (s : Units) : ofCodePoints (codePoints s) = s := by
  induction s using codePoints.induct with
  | case1 => rfl
  | case2 u => simp [codePoints, ofCodePoints, unitsOf_unit]
  | case3 u v rest h ih =>
      obtain ⟨hu, hv⟩ := Bool.and_eq_true_iff.mp h
      rw [codePoints, if_pos h, ofCodePoints, List.flatMap_cons, unitsOf_pair hu hv]
      simpa [ofCodePoints] using ih
  | case4 u v rest h ih =>
      rw [codePoints, if_neg h, ofCodePoints, List.flatMap_cons, unitsOf_unit]
      simpa [ofCodePoints] using ih

theorem codePoints_lt (s : Units) : ∀ c ∈ codePoints s, c < 0x110000 := by
  induction s using codePoints.induct with
  | case1 => simp [codePoints]
  | case2 u =>
      have := u.toNat_lt
      simp only [codePoints, List.mem_singleton, forall_eq]
      omega
  | case3 u v rest h ih =>
      simp only [isHigh, isLow, Bool.and_eq_true, decide_eq_true_eq] at h
      rw [codePoints, if_pos (by simp [isHigh, isLow, h])]
      intro c hc
      rcases List.mem_cons.mp hc with hc | hc
      · have hpair : pair u.toNat v.toNat < 0x110000 := by
          unfold pair
          omega
        exact hc ▸ hpair
      · exact ih c hc
  | case4 u v rest h ih =>
      have := u.toNat_lt
      rw [codePoints, if_neg h]
      intro c hc
      rcases List.mem_cons.mp hc with rfl | hc
      · omega
      · exact ih c hc

/-- The UTF-8 bytes of a code point; a surrogate becomes U+FFFD. -/
def encodePoint (c : Nat) : Bytes :=
  if c < 0x80 then [UInt8.ofNat c]
  else if c < 0x800 then [UInt8.ofNat (0xc0 + c / 0x40), UInt8.ofNat (0x80 + c % 0x40)]
  else if isSurrogate c then [0xef, 0xbf, 0xbd]
  else if c < 0x10000 then
    [UInt8.ofNat (0xe0 + c / 0x1000), UInt8.ofNat (0x80 + c / 0x40 % 0x40),
      UInt8.ofNat (0x80 + c % 0x40)]
  else
    [UInt8.ofNat (0xf0 + c / 0x40000), UInt8.ofNat (0x80 + c / 0x1000 % 0x40),
      UInt8.ofNat (0x80 + c / 0x40 % 0x40), UInt8.ofNat (0x80 + c % 0x40)]

def encode (s : Units) : Bytes := (codePoints s).flatMap encodePoint

/-- A multi-byte sequence under way: the continuation bytes still owed, the
bounds of the next one and the bits collected so far. -/
structure Pending where
  owed : Nat
  lower : Nat
  upper : Nat
  acc : Nat

/-- What the first byte of a sequence leads to. -/
inductive Lead
  | point (c : Nat)
  | pending (p : Pending)
  | invalid

def lead (b : Nat) : Lead :=
  if b < 0x80 then .point b
  else if 0xc2 ≤ b ∧ b ≤ 0xdf then .pending ⟨1, 0x80, 0xbf, b - 0xc0⟩
  else if b = 0xe0 then .pending ⟨2, 0xa0, 0xbf, 0⟩
  else if b = 0xed then .pending ⟨2, 0x80, 0x9f, 0xd⟩
  else if 0xe1 ≤ b ∧ b ≤ 0xef then .pending ⟨2, 0x80, 0xbf, b - 0xe0⟩
  else if b = 0xf0 then .pending ⟨3, 0x90, 0xbf, 0⟩
  else if 0xf1 ≤ b ∧ b ≤ 0xf3 then .pending ⟨3, 0x80, 0xbf, b - 0xf0⟩
  else if b = 0xf4 then .pending ⟨3, 0x80, 0x8f, 4⟩
  else .invalid

/-- Decode byte by byte; a byte that cannot continue the sequence under way
ends it with U+FFFD and is looked at again as a first byte. -/
def decodeFrom : Option Pending → Bytes → List Nat
  | none, [] => []
  | some _, [] => [0xfffd]
  | none, b :: bs =>
      match lead b.toNat with
      | .point c => c :: decodeFrom none bs
      | .pending p => decodeFrom (some p) bs
      | .invalid => 0xfffd :: decodeFrom none bs
  | some p, b :: bs =>
      if p.lower ≤ b.toNat ∧ b.toNat ≤ p.upper then
        let acc := p.acc * 0x40 + (b.toNat - 0x80)
        if p.owed ≤ 1 then acc :: decodeFrom none bs
        else decodeFrom (some ⟨p.owed - 1, 0x80, 0xbf, acc⟩) bs
      else
        match lead b.toNat with
        | .point c => 0xfffd :: c :: decodeFrom none bs
        | .pending q => 0xfffd :: decodeFrom (some q) bs
        | .invalid => 0xfffd :: 0xfffd :: decodeFrom none bs

def decode (bs : Bytes) : Units := ofCodePoints (decodeFrom none bs)

theorem toNat_byte {n : Nat} (h : n < 256) : (UInt8.ofNat n).toNat = n := by
  rw [UInt8.toNat_ofNat', Nat.mod_eq_of_lt h]

/-- The last byte owed completes the code point. -/
theorem decodeFrom_last {lo hi acc : Nat} {b : Nat} (hb : b < 256) (hlo : lo ≤ b) (hhi : b ≤ hi)
    (bs : Bytes) : decodeFrom (some ⟨1, lo, hi, acc⟩) (UInt8.ofNat b :: bs) =
      (acc * 0x40 + (b - 0x80)) :: decodeFrom none bs := by
  simp only [decodeFrom, toNat_byte hb]
  rw [if_pos ⟨hlo, hhi⟩, if_pos (Nat.le_refl 1)]

theorem decodeFrom_more {n lo hi acc : Nat} {b : Nat} (hb : b < 256) (hlo : lo ≤ b) (hhi : b ≤ hi)
    (bs : Bytes) : decodeFrom (some ⟨n + 2, lo, hi, acc⟩) (UInt8.ofNat b :: bs) =
      decodeFrom (some ⟨n + 1, 0x80, 0xbf, acc * 0x40 + (b - 0x80)⟩) bs := by
  simp only [decodeFrom, toNat_byte hb]
  rw [if_pos ⟨hlo, hhi⟩, if_neg (by omega)]
  rfl

theorem decodeFrom_lead {b : Nat} {p : Pending} (hb : b < 256) (h : lead b = .pending p)
    (bs : Bytes) : decodeFrom none (UInt8.ofNat b :: bs) = decodeFrom (some p) bs := by
  simp only [decodeFrom, toNat_byte hb, h]

theorem lead_two {c : Nat} (hlo : 0x80 ≤ c) (hhi : c < 0x800) :
    lead (0xc0 + c / 0x40) = .pending ⟨1, 0x80, 0xbf, c / 0x40⟩ := by
  unfold lead
  rw [if_neg (by omega), if_pos (by omega), Nat.add_sub_cancel_left]

/-- The first of three bytes bounds the second so that neither an overlong form
nor a surrogate can follow. -/
theorem lead_three {c : Nat} (hlo : 0x800 ≤ c) (hhi : c < 0x10000)
    (hs : isSurrogate c = false) :
    ∃ lo hi, lead (0xe0 + c / 0x1000) = .pending ⟨2, lo, hi, c / 0x1000⟩ ∧
      lo ≤ 0x80 + c / 0x40 % 0x40 ∧ 0x80 + c / 0x40 % 0x40 ≤ hi := by
  simp only [isSurrogate, Bool.and_eq_false_imp, decide_eq_true_eq, decide_eq_false_iff_not,
    not_lt] at hs
  unfold lead
  rw [if_neg (by omega), if_neg (by omega)]
  by_cases he0 : c / 0x1000 = 0
  · exact ⟨0xa0, 0xbf, by rw [he0]; rfl, by omega, by omega⟩
  by_cases hed : c / 0x1000 = 0xd
  · exact ⟨0x80, 0x9f, by rw [hed]; rfl, by omega, by omega⟩
  refine ⟨0x80, 0xbf, ?_, by omega, by omega⟩
  rw [if_neg (by omega), if_neg (by omega), if_pos (by omega), Nat.add_sub_cancel_left]

theorem lead_four {c : Nat} (hlo : 0x10000 ≤ c) (hhi : c < 0x110000) :
    ∃ lo hi, lead (0xf0 + c / 0x40000) = .pending ⟨3, lo, hi, c / 0x40000⟩ ∧
      lo ≤ 0x80 + c / 0x1000 % 0x40 ∧ 0x80 + c / 0x1000 % 0x40 ≤ hi := by
  unfold lead
  rw [if_neg (by omega), if_neg (by omega), if_neg (by omega), if_neg (by omega),
    if_neg (by omega)]
  by_cases hf0 : c / 0x40000 = 0
  · exact ⟨0x90, 0xbf, by rw [hf0]; rfl, by omega, by omega⟩
  by_cases hf4 : c / 0x40000 = 4
  · exact ⟨0x80, 0x8f, by rw [hf4]; rfl, by omega, by omega⟩
  refine ⟨0x80, 0xbf, ?_, by omega, by omega⟩
  rw [if_neg (by omega), if_pos (by omega), Nat.add_sub_cancel_left]

theorem decodeFrom_encodePoint {c : Nat} (hlt : c < 0x110000) (hs : isSurrogate c = false)
    (bs : Bytes) : decodeFrom none (encodePoint c ++ bs) = c :: decodeFrom none bs := by
  unfold encodePoint
  split_ifs with h1 h2 h3
  · simp only [List.cons_append, List.nil_append, decodeFrom, toNat_byte (show c < 256 by omega),
      lead, if_pos h1]
  · simp only [List.cons_append, List.nil_append]
    rw [decodeFrom_lead (by omega) (lead_two (by omega) h2),
      decodeFrom_last (by omega) (by omega) (by omega)]
    exact congrArg (· :: decodeFrom none bs) (by omega)
  · exact absurd h3 (by rw [hs]; exact Bool.false_ne_true)
  · obtain ⟨lo, hi, hlead, hlo, hhi⟩ := lead_three (by omega) ‹_› hs
    simp only [List.cons_append, List.nil_append]
    rw [decodeFrom_lead (by omega) hlead, decodeFrom_more (by omega) hlo hhi,
      decodeFrom_last (by omega) (by omega) (by omega)]
    exact congrArg (· :: decodeFrom none bs) (by omega)
  · obtain ⟨lo, hi, hlead, hlo, hhi⟩ := lead_four (by omega) hlt
    simp only [List.cons_append, List.nil_append]
    rw [decodeFrom_lead (by omega) hlead, decodeFrom_more (by omega) hlo hhi,
      decodeFrom_more (by omega) (by omega) (by omega),
      decodeFrom_last (by omega) (by omega) (by omega)]
    exact congrArg (· :: decodeFrom none bs) (by omega)

theorem decodeFrom_flatMap {cs : List Nat} (hlt : ∀ c ∈ cs, c < 0x110000)
    (hs : ∀ c ∈ cs, isSurrogate c = false) :
    decodeFrom none (cs.flatMap encodePoint) = cs := by
  induction cs with
  | nil => rfl
  | cons c cs ih =>
      rw [List.flatMap_cons, decodeFrom_encodePoint (hlt c List.mem_cons_self)
        (hs c List.mem_cons_self)]
      exact congrArg (List.cons c) (ih (fun d hd => hlt d (List.mem_cons_of_mem c hd))
        fun d hd => hs d (List.mem_cons_of_mem c hd))

/-- A well-formed string survives its UTF-8 transcription. -/
theorem decode_encode {s : Units} (h : wellFormed s = true) : decode (encode s) = s := by
  have hs : ∀ c ∈ codePoints s, isSurrogate c = false := by
    intro c hc
    simpa using List.all_eq_true.mp h c hc
  rw [decode, encode, decodeFrom_flatMap (codePoints_lt s) hs, ofCodePoints_codePoints]

/-! ## What the decoder returns -/

/-- A code point that is no surrogate. -/
def isScalar (c : Nat) : Bool := c < 0x110000 && !isSurrogate c

theorem isScalar_iff {c : Nat} : isScalar c = true ↔ c < 0xd800 ∨ (0xe000 ≤ c ∧ c < 0x110000) := by
  simp only [isScalar, isSurrogate, Bool.and_eq_true, decide_eq_true_eq, Bool.not_eq_true',
    Bool.and_eq_false_iff, decide_eq_false_iff_not]
  omega

/-- Every way to complete the sequence gives a code point that is no surrogate. -/
structure Pending.Sound (p : Pending) : Prop where
  owed : p.owed = 1 ∨ p.owed = 2 ∨ p.owed = 3
  lower : 0x80 ≤ p.lower
  upper : p.upper ≤ 0xbf
  scalar : (p.acc * 0x40 + (p.upper - 0x80) + 1) * 0x40 ^ (p.owed - 1) ≤ 0xd800 ∨
    (0xe000 ≤ (p.acc * 0x40 + (p.lower - 0x80)) * 0x40 ^ (p.owed - 1) ∧
      (p.acc * 0x40 + (p.upper - 0x80) + 1) * 0x40 ^ (p.owed - 1) ≤ 0x110000)

/-- A first byte stands for a code point or opens a sound sequence. -/
theorem lead_sound (b : Nat) :
    (∀ c, lead b = .point c → isScalar c = true) ∧ (∀ p, lead b = .pending p → p.Sound) := by
  unfold lead
  split_ifs <;> refine ⟨?_, ?_⟩ <;> intro x hx <;> cases hx
  · exact isScalar_iff.mpr (by omega)
  all_goals
    refine ⟨by simp, by simp, by simp, ?_⟩
    simp only [Nat.reducePow, Nat.reduceSub]
    omega

/-- Six more bits stay between the extremes of the sequence. -/
theorem scalar_more {least most acc w : Nat} (hge : least ≤ acc) (hle : acc ≤ most)
    (h : (most + 1) * (0x40 * w) ≤ 0xd800 ∨
      (0xe000 ≤ least * (0x40 * w) ∧ (most + 1) * (0x40 * w) ≤ 0x110000)) :
    (acc * 0x40 + 0x3f + 1) * w ≤ 0xd800 ∨
      (0xe000 ≤ (acc * 0x40 + 0) * w ∧ (acc * 0x40 + 0x3f + 1) * w ≤ 0x110000) := by
  have hupper : (acc * 0x40 + 0x3f + 1) * w ≤ (most + 1) * (0x40 * w) := by
    calc (acc * 0x40 + 0x3f + 1) * w = (acc + 1) * (0x40 * w) := by ring
      _ ≤ (most + 1) * (0x40 * w) := Nat.mul_le_mul_right _ (Nat.succ_le_succ hle)
  have hlower : least * (0x40 * w) ≤ (acc * 0x40 + 0) * w := by
    calc least * (0x40 * w) ≤ acc * (0x40 * w) := Nat.mul_le_mul_right _ hge
      _ = (acc * 0x40 + 0) * w := by ring
  rcases h with h | ⟨h, h'⟩
  · exact Or.inl (hupper.trans h)
  · exact Or.inr ⟨h.trans hlower, hupper.trans h'⟩

/-- The last byte owed completes a code point, any other leaves the rest owed. -/
theorem Pending.Sound.next {p : Pending} (h : p.Sound) {b : Nat} (hlo : p.lower ≤ b)
    (hhi : b ≤ p.upper) :
    if p.owed ≤ 1 then isScalar (p.acc * 0x40 + (b - 0x80)) = true
    else Pending.Sound ⟨p.owed - 1, 0x80, 0xbf, p.acc * 0x40 + (b - 0x80)⟩ := by
  obtain ⟨owed, lower, upper, acc⟩ := p
  obtain ⟨howed, hlower, hupper, hscalar⟩ := h
  dsimp only at howed hlower hupper hscalar hlo hhi ⊢
  -- the bits collected so far lie between the two extremes
  obtain ⟨least, hleast⟩ : ∃ n, n = acc * 0x40 + (lower - 0x80) := ⟨_, rfl⟩
  obtain ⟨most, hmost⟩ : ∃ n, n = acc * 0x40 + (upper - 0x80) := ⟨_, rfl⟩
  obtain ⟨acc', hacc⟩ : ∃ n, n = acc * 0x40 + (b - 0x80) := ⟨_, rfl⟩
  have hge : least ≤ acc' := by omega
  have hle : acc' ≤ most := by omega
  rw [← hleast, ← hmost] at hscalar
  rw [← hacc]
  clear hleast hmost hacc hlower hupper hlo hhi
  rcases howed with rfl | rfl | rfl
  · rw [if_pos (Nat.le_refl 1)]
    exact isScalar_iff.mpr (by omega)
  · rw [if_neg (by omega)]
    have hmore := scalar_more (w := 1) hge hle (by norm_num at hscalar ⊢; exact hscalar)
    exact ⟨by simp, by simp, by simp, by norm_num at hmore ⊢; exact hmore⟩
  · rw [if_neg (by omega)]
    have hmore := scalar_more (w := 0x40) hge hle (by norm_num at hscalar ⊢; exact hscalar)
    exact ⟨by simp, by simp, by simp, by norm_num at hmore ⊢; exact hmore⟩

theorem decodeFrom_scalar (bs : Bytes) (pending : Option Pending)
    (h : ∀ p, pending = some p → p.Sound) :
    ∀ c ∈ decodeFrom pending bs, isScalar c = true := by
  have hfffd : isScalar 0xfffd = true := by decide
  induction bs generalizing pending with
  | nil =>
      cases pending with
      | none => simp [decodeFrom]
      | some p => simp [decodeFrom, hfffd]
  | cons b bs ih =>
      obtain ⟨hpoint, hpending⟩ := lead_sound b.toNat
      have ih_none := ih none (by simp)
      cases pending with
      | none =>
          rw [decodeFrom]
          cases hlead : lead b.toNat with
          | point c => exact List.forall_mem_cons.mpr ⟨hpoint c hlead, ih_none⟩
          | pending p => exact ih (some p) (by rintro q ⟨⟩; exact hpending p hlead)
          | invalid => exact List.forall_mem_cons.mpr ⟨hfffd, ih_none⟩
      | some p =>
          have hsound := h p rfl
          rw [decodeFrom]
          split
          next hmem =>
            have hnext := hsound.next hmem.1 hmem.2
            dsimp only
            split at hnext
            next howed =>
              rw [if_pos howed]
              exact List.forall_mem_cons.mpr ⟨hnext, ih_none⟩
            next howed =>
              rw [if_neg howed]
              exact ih (some _) (by rintro q ⟨⟩; exact hnext)
          next =>
            cases hlead : lead b.toNat with
            | point c =>
                exact List.forall_mem_cons.mpr
                  ⟨hfffd, List.forall_mem_cons.mpr ⟨hpoint c hlead, ih_none⟩⟩
            | pending q =>
                exact List.forall_mem_cons.mpr
                  ⟨hfffd, ih (some q) (by rintro r ⟨⟩; exact hpending q hlead)⟩
            | invalid =>
                exact List.forall_mem_cons.mpr
                  ⟨hfffd, List.forall_mem_cons.mpr ⟨hfffd, ih_none⟩⟩

theorem toNat_unit {n : Nat} (h : n < 0x10000) : (UInt16.ofNat n).toNat = n := by
  rw [UInt16.toNat_ofNat', Nat.mod_eq_of_lt h]

/-- A code point that is no surrogate is read off the front of its units. -/
theorem codePoints_unitsOf {c : Nat} (h : isScalar c = true) (rest : Units) :
    codePoints (unitsOf c ++ rest) = c :: codePoints rest := by
  have hc := isScalar_iff.mp h
  unfold unitsOf
  split_ifs with hsmall
  · have hhigh : isHigh c = false := by
      simp only [isHigh, Bool.and_eq_false_iff, decide_eq_false_iff_not]
      omega
    cases rest with
    | nil => simp [codePoints, toNat_unit hsmall]
    | cons v rest => simp [codePoints, toNat_unit hsmall, hhigh]
  · have hhi := toNat_unit (n := 0xd800 + (c - 0x10000) / 0x400) (by omega)
    have hlo := toNat_unit (n := 0xdc00 + (c - 0x10000) % 0x400) (by omega)
    have hpair : (isHigh (0xd800 + (c - 0x10000) / 0x400) &&
        isLow (0xdc00 + (c - 0x10000) % 0x400)) = true := by
      simp only [isHigh, isLow, Bool.and_eq_true, decide_eq_true_eq]
      omega
    have hval : pair (0xd800 + (c - 0x10000) / 0x400) (0xdc00 + (c - 0x10000) % 0x400) = c := by
      unfold pair
      omega
    simp only [List.cons_append, List.nil_append, codePoints, hhi, hlo, hpair, if_true, hval]

theorem codePoints_ofCodePoints {cs : List Nat} (h : ∀ c ∈ cs, isScalar c = true) :
    codePoints (ofCodePoints cs) = cs := by
  induction cs with
  | nil => rfl
  | cons c cs ih =>
      rw [ofCodePoints, List.flatMap_cons, codePoints_unitsOf (h c List.mem_cons_self)]
      exact congrArg (List.cons c) (ih fun d hd => h d (List.mem_cons_of_mem c hd))

/-- Whatever the bytes, the decoder returns a well-formed string. -/
theorem wellFormed_decode (bs : Bytes) : wellFormed (decode bs) = true := by
  have hscalar := decodeFrom_scalar bs none (by simp)
  rw [wellFormed, decode, codePoints_ofCodePoints hscalar, List.all_eq_true]
  intro c hc
  have h := hscalar c hc
  rw [isScalar, Bool.and_eq_true] at h
  exact h.2

/-! ## How much longer a text may get -/

theorem length_encodePoint_le (c : Nat) : (encodePoint c).length ≤ 4 := by
  unfold encodePoint
  split_ifs <;> simp

/-- A sequence under way has taken a byte at least. -/
theorem length_decodeFrom (bs : Bytes) (pending : Option Pending) :
    ((decodeFrom pending bs).flatMap encodePoint).length ≤
      3 * bs.length + if pending.isSome then 3 else 0 := by
  have hfffd : (encodePoint 0xfffd).length = 3 := rfl
  induction bs generalizing pending with
  | nil => cases pending <;> simp [decodeFrom, hfffd]
  | cons b bs ih =>
      have hnone := ih none
      have hpoint : ∀ c, lead b.toNat = .point c → (encodePoint c).length = 1 := by
        intro c hc
        unfold lead at hc
        split_ifs at hc with hsmall
        cases hc
        rw [encodePoint, if_pos hsmall]
        rfl
      simp only [Option.isSome_none, Bool.false_eq_true, if_false] at hnone
      cases pending with
      | none =>
          rw [decodeFrom]
          cases hlead : lead b.toNat with
          | point c =>
              simp only [List.flatMap_cons, List.length_append, hpoint c hlead, List.length_cons]
              omega
          | pending p =>
              have hsome := ih (some p)
              simp only [Option.isSome_some, if_true] at hsome
              simp only [List.length_cons]
              omega
          | invalid =>
              simp only [List.flatMap_cons, List.length_append, hfffd, List.length_cons]
              omega
      | some p =>
          rw [decodeFrom, Option.isSome_some, if_pos rfl]
          split
          next =>
            dsimp only
            split
            next =>
              have hle := length_encodePoint_le (p.acc * 0x40 + (b.toNat - 0x80))
              simp only [List.flatMap_cons, List.length_append, List.length_cons]
              omega
            next =>
              have hsome := ih (some ⟨p.owed - 1, 0x80, 0xbf, p.acc * 0x40 + (b.toNat - 0x80)⟩)
              simp only [Option.isSome_some, if_true] at hsome
              simp only [List.length_cons]
              omega
          next =>
            cases hlead : lead b.toNat with
            | point c =>
                simp only [List.flatMap_cons, List.length_append, hfffd, hpoint c hlead,
                  List.length_cons]
                omega
            | pending q =>
                have hsome := ih (some q)
                simp only [Option.isSome_some, if_true] at hsome
                simp only [List.flatMap_cons, List.length_append, hfffd, List.length_cons]
                omega
            | invalid =>
                simp only [List.flatMap_cons, List.length_append, hfffd, List.length_cons]
                omega

/-- A text decoded from ill-formed bytes is at most three times as long when it is encoded. -/
theorem length_encode_decode (bs : Bytes) : (encode (decode bs)).length ≤ 3 * bs.length := by
  have hscalar := decodeFrom_scalar bs none (by simp)
  rw [encode, decode, codePoints_ofCodePoints hscalar]
  exact length_decodeFrom bs none

end Utf
