import Mathlib.Data.List.Induction
import Mathlib.Tactic.IntervalCases
import OpcUaSuite.Uadp.Stream

/-!
# What the stream readers recover

Each write method is paired with its read method. Numbers lose the sign of
zero, a Float is rounded, a GUID comes back in upper case; every other value in
range comes back unchanged.
-/

namespace OpcUaSuite.Uadp

open Js ByteCodec BinaryFloat PubSub

theorem reads_bytes (bs : Bytes) : Reads (readBytes bs.length) bs bs := Reads.take _ bs

theorem reads_bytes_of_length {bs : Bytes} {n : Nat} (h : bs.length = n) :
    Reads (readBytes n) bs bs := h ▸ reads_bytes bs

theorem reads_le {k n : Nat} (h : n < 256 ^ k) : Reads (readUInt k) (le k n) n := by
  have hr := Reads.bind_pure (g := ofLe) (reads_bytes_of_length (length_le k n))
  rwa [ofLe_le_of_lt h] at hr

theorem encodes_putUInt (k n : Nat) : Encodes (putUInt k n) (readUInt k) n := by
  unfold putUInt
  split
  next h => exact Encodes.ok (reads_le h)
  next => exact Encodes.error _

/-! ## Numbers -/

/-- The number of an integer between two bounds; zero may carry a minus sign. -/
def IntegerIn (lo hi : Int) (v : JsValue) : Prop :=
  ∃ i : Int, lo ≤ i ∧ i ≤ hi ∧ (v = .num (Double.ofInt i) ∨ (i = 0 ∧ v = .num Double.negZero))

/-- Integers on the wire have one zero. -/
def unsignZero (v : JsValue) : JsValue :=
  if v = .num Double.negZero then .num Double.zero else v

theorem ofInt_ne_negZero {i : Int} (h : i.natAbs < 2 ^ 53) :
    Double.ofInt i ≠ Double.negZero := by
  intro heq
  have htrunc := (Double.denotes_ofInt h).trunc
  rw [heq, Double.denotes_negZero.trunc] at htrunc
  subst htrunc
  exact absurd heq (by decide)

theorem unsignZero_num {i : Int} {v : JsValue} (h : i.natAbs < 2 ^ 53)
    (hv : v = .num (Double.ofInt i) ∨ (i = 0 ∧ v = .num Double.negZero)) :
    unsignZero v = .num (Double.ofInt i) := by
  rcases hv with rfl | ⟨rfl, rfl⟩
  · rw [unsignZero, if_neg]
    simpa using ofInt_ne_negZero h
  · decide

variable {host : Host}

theorem writeInt_denotes {k : Nat} {lo hi i : Int} {d : Double} (hd : d.Denotes i)
    (hlo : lo ≤ i) (hhi : i ≤ hi) :
    writeInt host k lo hi (.num d) = .ok (le k (toTwos k i)) := by
  change (if d.gtInt hi || d.ltInt lo then _ else _) = _
  rw [hd.gtInt, hd.ltInt, if_neg (by simp; omega), hd.trunc]
  rfl

theorem writeInt_number {k : Nat} {lo hi i : Int} {v : JsValue} (hi53 : i.natAbs < 2 ^ 53)
    (hlo : lo ≤ i) (hhi : i ≤ hi)
    (hv : v = .num (Double.ofInt i) ∨ (i = 0 ∧ v = .num Double.negZero)) :
    writeInt host k lo hi v = .ok (le k (toTwos k i)) := by
  rcases hv with rfl | ⟨rfl, rfl⟩
  · exact writeInt_denotes (Double.denotes_ofInt hi53) hlo hhi
  · exact writeInt_denotes Double.denotes_negZero hlo hhi

theorem toTwos_of_nonneg {k : Nat} {i : Int} (hlo : 0 ≤ i) (hhi : i < (256 ^ k : Nat)) :
    (toTwos k i : Int) = i := by
  rw [toTwos, Int.emod_eq_of_lt hlo hhi, Int.toNat_of_nonneg hlo]

/-- An unsigned field of at most four bytes. -/
theorem encodes_unsigned {k : Nat} {v : JsValue} (hk : k ≤ 4)
    (hv : IntegerIn 0 (256 ^ k - 1) v) :
    Encodes (writeUInt host k v) (readNumber k) (unsignZero v) := by
  obtain ⟨i, hlo, hhi, hnum⟩ := hv
  have hpow : (256 : Int) ^ k ≤ 256 ^ 4 := by
    exact_mod_cast Nat.pow_le_pow_right (by omega) hk
  have h53 : i.natAbs < 2 ^ 53 := by omega
  rw [writeUInt, writeInt_number h53 hlo hhi hnum, unsignZero_num h53 hnum]
  have hcast : ((256 ^ k : Nat) : Int) = 256 ^ k := by push_cast; rfl
  have hr := Encodes.map (ε := UadpError) JsValue.nat
    (Encodes.ok (reads_le (toTwos_lt k i)))
  rwa [JsValue.nat, toTwos_of_nonneg hlo (by omega)] at hr

/-- A signed field of at most four bytes. -/
theorem encodes_signed {k : Nat} {lo hi : Int} {v : JsValue} (hk : k ≤ 4)
    (hlo : -(256 ^ k : Nat) ≤ 2 * lo) (hhi : 2 * hi < (256 ^ k : Nat))
    (hv : IntegerIn lo hi v) :
    Encodes (writeInt host k lo hi v) (readSigned k) (unsignZero v) := by
  obtain ⟨i, hloi, hhii, hnum⟩ := hv
  have hpow : 256 ^ k ≤ 256 ^ 4 := Nat.pow_le_pow_right (by omega) hk
  have h53 : i.natAbs < 2 ^ 53 := by omega
  rw [writeInt_number h53 hloi hhii hnum, unsignZero_num h53 hnum]
  have hr := Encodes.map (ε := UadpError) (fun i : Int => JsValue.num (Double.ofInt i))
    (Encodes.map (ofTwos k) (Encodes.ok (reads_le (toTwos_lt k i))))
  rwa [ofTwos_toTwos (by omega) (by omega)] at hr

/-- The integer a BigInt or an integral number stands for. -/
def bigIntOf? : JsValue → Option Int
  | .bigint i => some i
  | .num d => if d.isInteger then some d.trunc else none
  | _ => none

theorem toBigInt_of_some {v : JsValue} {i : Int} (h : bigIntOf? v = some i) :
    host.toBigInt v = .ok i := by
  cases v with
  | bigint j => simpa [bigIntOf?, Host.toBigInt] using h
  | num d =>
      by_cases hd : d.isInteger
      · simpa [bigIntOf?, Host.toBigInt, hd] using h
      · simp [bigIntOf?, hd] at h
  | _ => cases h

theorem encodes_uint64_of {v : JsValue} {i : Int} (h : host.toBigInt v = .ok i) :
    Encodes (writeUInt64LE host v) readUInt64LE (.bigint i) := by
  rw [writeUInt64LE, h]
  change Encodes (writeBigUInt64 i) _ _
  unfold writeBigUInt64
  split
  next hr =>
    have hm := Encodes.map (ε := UadpError) (fun n : Nat => JsValue.bigint n)
      (Encodes.ok (reads_le (k := 8) (n := i.toNat) (by omega)))
    rwa [Int.toNat_of_nonneg hr.1] at hm
  next => exact Encodes.error _

theorem encodes_uint64 {v : JsValue} {i : Int} (h : bigIntOf? v = some i) :
    Encodes (writeUInt64LE host v) readUInt64LE (.bigint i) :=
  encodes_uint64_of (toBigInt_of_some h)

theorem encodes_int64_of {v : JsValue} {i : Int} (h : host.toBigInt v = .ok i) :
    Encodes (writeInt64LE host v) readBigInt64LE (.bigint i) := by
  rw [writeInt64LE, h]
  change Encodes (if -2 ^ 63 ≤ i ∧ i < 2 ^ 63 then _ else _) _ _
  split
  next hr =>
    have hm := Encodes.map (ε := UadpError) JsValue.bigint
      (Encodes.map (ofTwos 8) (Encodes.ok (reads_le (toTwos_lt 8 i))))
    rwa [ofTwos_toTwos (by omega) (by omega)] at hm
  next => exact Encodes.error _

theorem encodes_int64 {v : JsValue} {i : Int} (h : bigIntOf? v = some i) :
    Encodes (writeInt64LE host v) readBigInt64LE (.bigint i) :=
  encodes_int64_of (toBigInt_of_some h)

theorem encodes_float_of {v : JsValue} {d : Double} (h : host.toNumber v = .ok d) :
    Encodes (writeFloatLE host v) readFloatLE (.num (Double.fround d)) := by
  have hlt : (Value.convert d : Single).bits < 256 ^ 4 := Value.bits_lt _
  have hr := Encodes.map (ε := UadpError)
    (fun n => JsValue.num (Value.convert (Value.ofBits n : Single))) (Encodes.ok (reads_le hlt))
  rw [Value.ofBits_bits] at hr
  rw [writeFloatLE, h]
  exact hr

theorem encodes_float (d : Double) :
    Encodes (writeFloatLE host (.num d)) readFloatLE (.num (Double.fround d)) :=
  encodes_float_of rfl

theorem encodes_double_of {v : JsValue} {d : Double} (h : host.toNumber v = .ok d) :
    Encodes (writeDoubleLE host v) readDoubleLE (.num d) := by
  have hlt : d.bits < 256 ^ 8 := Value.bits_lt _
  have hr := Encodes.map (ε := UadpError)
    (fun n => JsValue.num (Value.ofBits n)) (Encodes.ok (reads_le hlt))
  rw [Value.ofBits_bits] at hr
  rw [writeDoubleLE, h]
  exact hr

theorem encodes_double (d : Double) :
    Encodes (writeDoubleLE host (.num d)) readDoubleLE (.num d) :=
  encodes_double_of rfl

theorem encodes_dateTime (ms : Int) :
    Encodes (writeDateTime (.date (some ms))) readDateTime (.date (some ms)) := by
  change Encodes (writeBigUInt64 ((ms + filetimeEpochOffsetMs) * datetimeTicksPerMs)) _ _
  unfold writeBigUInt64
  split
  next hr =>
    have hm := Encodes.map (ε := UadpError)
      (fun n : Nat => JsValue.date (some ((n : Int) / datetimeTicksPerMs - filetimeEpochOffsetMs)))
      (Encodes.ok (reads_le (k := 8)
        (n := ((ms + filetimeEpochOffsetMs) * datetimeTicksPerMs).toNat) (by omega)))
    have hback : (((ms + filetimeEpochOffsetMs) * datetimeTicksPerMs).toNat : Int) /
        datetimeTicksPerMs - filetimeEpochOffsetMs = ms := by
      rw [Int.toNat_of_nonneg hr.1, Int.mul_ediv_cancel _ (by decide)]
      omega
    rwa [hback] at hm
  next => exact Encodes.error _

/-! ## Texts -/

/-- A text that UTF-8 can carry and whose length is not the null marker. -/
def TextInRange (s : JsString) : Prop :=
  Utf.wellFormed s = true ∧ (Utf.encode s).length < nullLength

instance (s : JsString) : Decidable (TextInRange s) := by
  unfold TextInRange
  infer_instance

theorem encodes_string {s : JsString} (h : TextInRange s) :
    Encodes (writeString host (.str s)) readString (.str s) := by
  have hne : (Utf.encode s).length ≠ nullLength := Nat.ne_of_lt h.2
  change Encodes (cat [putUInt 4 (Utf.encode s).length, .ok (Utf.encode s)]) _ _
  refine Encodes.cons (encodes_putUInt 4 _) ?_
  rw [if_neg hne]
  have hm := Encodes.map (ε := UadpError) (fun bs => JsValue.str (Utf.decode bs))
    (Encodes.single (Encodes.ok (reads_bytes (Utf.encode s))))
  rwa [Utf.decode_encode h.1] at hm

theorem encodes_string_null : Encodes (writeString host .null) readString .null := by
  change Encodes (putUInt 4 nullLength) _ _
  have h : Encodes (cat [putUInt 4 nullLength]) readString .null := by
    refine Encodes.cons (encodes_putUInt 4 _) ?_
    rw [if_pos rfl]
    exact Encodes.nil JsValue.null
  constructor
  intro bs hbs
  exact h.reads bs (cat_cons_eq_ok.mpr ⟨bs, [], hbs, rfl, (List.append_nil bs).symm⟩)

/-! ## GUIDs -/

def isHex (u : UInt16) : Bool := (hexDigit? u).isSome

/-- Five groups of 8, 4, 4, 4 and 12 hexadecimal digits. -/
def isGuid (s : JsString) : Bool :=
  match splitOn 45 s with
  | [p0, p1, p2, p3, p4] =>
      p0.length = 8 && p1.length = 4 && p2.length = 4 && p3.length = 4 && p4.length = 12 &&
        (p0 ++ p1 ++ p2 ++ p3 ++ p4).all isHex
  | _ => false

theorem splitOn_ne_nil (sep : UInt16) (s : JsString) : splitOn sep s ≠ [] := by
  induction s with
  | nil => simp [splitOn]
  | cons u rest ih =>
      rw [splitOn]
      split
      · simp
      · split <;> simp

/-- The parts joined by the separator give the text back. -/
theorem intercalate_splitOn (sep : UInt16) (s : JsString) :
    List.intercalate [sep] (splitOn sep s) = s := by
  induction s with
  | nil => simp [splitOn, List.intercalate]
  | cons u rest ih =>
      have hne := splitOn_ne_nil sep rest
      rw [splitOn]
      cases hparts : splitOn sep rest with
      | nil => exact absurd hparts hne
      | cons part parts =>
          rw [hparts] at ih
          split
          next hu => simpa [List.intercalate, hu] using ih
          next hu =>
            cases parts with
            | nil => simpa [List.intercalate] using ih
            | cons q qs => simpa [List.intercalate] using ih

/-- The five parts of a GUID, with their digits. -/
theorem isGuid_parts {s : JsString} (h : isGuid s = true) :
    ∃ p0 p1 p2 p3 p4 : JsString, splitOn 45 s = [p0, p1, p2, p3, p4] ∧
      s = p0 ++ [45] ++ p1 ++ [45] ++ p2 ++ [45] ++ p3 ++ [45] ++ p4 ∧
      p0.length = 8 ∧ p1.length = 4 ∧ p2.length = 4 ∧ p3.length = 4 ∧ p4.length = 12 ∧
      p0.all isHex = true ∧ p1.all isHex = true ∧ p2.all isHex = true ∧
      p3.all isHex = true ∧ p4.all isHex = true := by
  have hjoin := intercalate_splitOn 45 s
  unfold isGuid at h
  split at h
  next p0 p1 p2 p3 p4 hsplit =>
    simp only [Bool.and_eq_true, decide_eq_true_eq, List.all_append] at h
    refine ⟨p0, p1, p2, p3, p4, hsplit, ?_, by tauto⟩
    rw [hsplit] at hjoin
    rw [← hjoin]
    simp [List.intercalate]
  next => cases h

theorem hexDigit_cases {u : UInt16} {d : Nat} (h : hexDigit? u = some d) :
    (48 ≤ u.toNat ∧ u.toNat ≤ 57 ∧ d = u.toNat - 48) ∨
    (97 ≤ u.toNat ∧ u.toNat ≤ 102 ∧ d = u.toNat - 87) ∨
    (65 ≤ u.toNat ∧ u.toNat ≤ 70 ∧ d = u.toNat - 55) := by
  simp only [hexDigit?] at h
  split_ifs at h <;> simp only [Option.some.injEq] at h <;> omega

theorem hexDigit_lt {u : UInt16} {d : Nat} (h : hexDigit? u = some d) : d < 16 := by
  rcases hexDigit_cases h with h | h | h <;> omega

/-- A digit printed in lower case and raised is the digit raised. -/
theorem upperUnit_digit {u : UInt16} {d : Nat} (h : hexDigit? u = some d) :
    upperUnit (UInt16.ofNat (if d < 10 then 48 + d else 87 + d)) = upperUnit u := by
  have hu : ∀ n, u.toNat = n → u = UInt16.ofNat n := by
    rintro n rfl
    exact UInt16.ofNat_toNat.symm
  rcases hexDigit_cases h with ⟨hlo, hhi, rfl⟩ | ⟨hlo, hhi, rfl⟩ | ⟨hlo, hhi, rfl⟩
  all_goals
    generalize hn : u.toNat = n at *
    have heq := hu n rfl
    subst heq
    clear hu h hn
    interval_cases n <;> decide

theorem hexPrefix_append {p q : JsString} (hp : p.all isHex = true) (acc : Nat) :
    hexPrefix acc (p ++ q) = hexPrefix (hexPrefix acc p) q := by
  induction p generalizing acc with
  | nil => rfl
  | cons u p ih =>
      simp only [List.all_cons, Bool.and_eq_true] at hp
      obtain ⟨d, hd⟩ := Option.isSome_iff_exists.mp hp.1
      simp only [List.cons_append, hexPrefix, hd, ih hp.2]

theorem hexPrefix_snoc {p : JsString} {u : UInt16} {d : Nat} (hp : p.all isHex = true)
    (hu : hexDigit? u = some d) (acc : Nat) :
    hexPrefix acc (p ++ [u]) = 16 * hexPrefix acc p + d := by
  rw [hexPrefix_append hp]
  simp only [hexPrefix, hu]

/-- Printing as many digits as were parsed gives them back, up to case. -/
theorem toUpper_hexDigits {p : JsString} (hp : p.all isHex = true) :
    toUpper (hexDigits p.length (hexPrefix 0 p)) = toUpper p := by
  induction p using List.reverseRecOn with
  | nil => rfl
  | append_singleton p u ih =>
      simp only [List.all_append, List.all_cons, List.all_nil, Bool.and_true,
        Bool.and_eq_true] at hp
      obtain ⟨d, hd⟩ := Option.isSome_iff_exists.mp hp.2
      have hlt := hexDigit_lt hd
      have hdiv : (16 * hexPrefix 0 p + d) / 16 = hexPrefix 0 p := by omega
      have hmod : (16 * hexPrefix 0 p + d) % 16 = d := by omega
      have hdigit := upperUnit_digit hd
      rw [hexPrefix_snoc hp.1 hd, List.length_append, List.length_singleton, hexDigits, hdiv, hmod]
      simp only [toUpper, List.map_append, List.map_cons, List.map_nil, hdigit] at ih ⊢
      rw [ih hp.1]

theorem skipPlus_hex {u : UInt16} {p : JsString} (hu : isHex u = true) :
    skipPlus (u :: p) = u :: p := by
  unfold skipPlus
  split
  next h => cases h; cases hu
  next => rfl

theorem skipHexMark_hex {p : JsString} (hp : p.all isHex = true) : skipHexMark p = p := by
  unfold skipHexMark
  split
  next rest => simp [isHex, hexDigit?] at hp
  next rest => simp [isHex, hexDigit?] at hp
  next => rfl

theorem isSpace_hex {u : UInt16} (hu : isHex u = true) : isSpace u = false := by
  obtain ⟨d, hd⟩ := Option.isSome_iff_exists.mp hu
  rcases hexDigit_cases hd with ⟨hlo, hhi, -⟩ | ⟨hlo, hhi, -⟩ | ⟨hlo, hhi, -⟩ <;>
    simp only [isSpace, List.mem_cons, List.not_mem_nil, or_false, decide_eq_false_iff_not] <;>
    omega

theorem parseHex_hex {p : JsString} (hp : p.all isHex = true) (hne : p ≠ []) :
    parseHex p = some (hexPrefix 0 p) := by
  cases p with
  | nil => exact absurd rfl hne
  | cons u p =>
      have hu : isHex u = true := by
        simp only [List.all_cons, Bool.and_eq_true] at hp
        exact hp.1
      have hdrop : (u :: p).dropWhile isSpace = u :: p := by
        rw [List.dropWhile_cons, isSpace_hex hu]
        rfl
      simp only [parseHex, hdrop, skipPlus_hex hu, skipHexMark_hex hp]
      exact if_pos hu

theorem encodes_hexGroup {k : Nat} {p : JsString} (hp : p.all isHex = true) (hne : p ≠ []) :
    Encodes (writeHexGroup k p) (readUInt k) (hexPrefix 0 p) := by
  rw [writeHexGroup, parseHex_hex hp hne]
  exact encodes_putUInt k _

/-- A hexadecimal digit is its own low byte. -/
theorem lowHexDigit?_eq {u : UInt16} {d : Nat} (h : hexDigit? u = some d) :
    lowHexDigit? u = some d := by
  have hsmall : u.toNat < 256 := by
    unfold hexDigit? at h
    dsimp only at h
    split_ifs at h <;> omega
  have hmod : u % 256 = u := by
    apply UInt16.toNat_inj.mp
    rw [UInt16.toNat_mod]
    exact Nat.mod_eq_of_lt hsmall
  rw [lowHexDigit?, hmod, h]

theorem bufferHex_append {p q : JsString} {n : Nat} (hn : p.length = 2 * n)
    (hp : p.all isHex = true) : bufferHex (p ++ q) = bufferHex p ++ bufferHex q := by
  induction n generalizing p with
  | zero =>
      rw [List.length_eq_zero_iff.mp hn]
      rfl
  | succ n ih =>
      match p, hn, hp with
      | u :: v :: p, hn, hp =>
          simp only [List.all_cons, Bool.and_eq_true] at hp
          obtain ⟨d, hd⟩ := Option.isSome_iff_exists.mp hp.1
          obtain ⟨e, he⟩ := Option.isSome_iff_exists.mp hp.2.1
          have hlen : p.length = 2 * n := by
            simp only [List.length_cons] at hn
            omega
          simp only [List.cons_append, bufferHex, lowHexDigit?_eq hd, lowHexDigit?_eq he,
            ih hlen hp.2.2]

theorem length_bufferHex {p : JsString} {n : Nat} (hn : p.length = 2 * n)
    (hp : p.all isHex = true) : (bufferHex p).length = n := by
  induction n generalizing p with
  | zero =>
      rw [List.length_eq_zero_iff.mp hn]
      rfl
  | succ n ih =>
      match p, hn, hp with
      | u :: v :: p, hn, hp =>
          simp only [List.all_cons, Bool.and_eq_true] at hp
          obtain ⟨d, hd⟩ := Option.isSome_iff_exists.mp hp.1
          obtain ⟨e, he⟩ := Option.isSome_iff_exists.mp hp.2.1
          have hlen : p.length = 2 * n := by
            simp only [List.length_cons] at hn
            omega
          simp only [bufferHex, lowHexDigit?_eq hd, lowHexDigit?_eq he, List.length_cons,
            ih hlen hp.2.2]

/-- The bytes of a hexadecimal text print as the text, up to case. -/
theorem toUpper_hexOfBytes {p : JsString} {n : Nat} (hn : p.length = 2 * n)
    (hp : p.all isHex = true) : toUpper (hexOfBytes (bufferHex p)) = toUpper p := by
  induction n generalizing p with
  | zero =>
      rw [List.length_eq_zero_iff.mp hn]
      rfl
  | succ n ih =>
      match p, hn, hp with
      | u :: v :: p, hn, hp =>
          simp only [List.all_cons, Bool.and_eq_true] at hp
          obtain ⟨d, hd⟩ := Option.isSome_iff_exists.mp hp.1
          obtain ⟨e, he⟩ := Option.isSome_iff_exists.mp hp.2.1
          have hlen : p.length = 2 * n := by
            simp only [List.length_cons] at hn
            omega
          have hpair : [u, v].all isHex = true := by simp [hp.1, hp.2.1]
          have hval : hexPrefix 0 [u, v] = 16 * d + e := by simp [hexPrefix, hd, he]
          have hbyte : (UInt8.ofNat (16 * d + e)).toNat = 16 * d + e := by
            have hd16 := hexDigit_lt hd
            have he16 := hexDigit_lt he
            rw [UInt8.toNat_ofNat', Nat.mod_eq_of_lt (by omega)]
          have hfirst := toUpper_hexDigits hpair
          rw [hval] at hfirst
          have hrest := ih hlen hp.2.2
          simp only [toUpper, hexOfBytes, List.length_cons, List.length_nil] at hfirst hrest
          simp only [bufferHex, lowHexDigit?_eq hd, lowHexDigit?_eq he, toUpper, hexOfBytes,
            List.flatMap_cons, List.map_append, hbyte, hfirst, hrest]
          rfl

theorem encodes_guid {s : JsString} (h : isGuid s = true) :
    Encodes (writeGuid (.str s)) readGuid (.str (toUpper s)) := by
  obtain ⟨p0, p1, p2, p3, p4, hsplit, hs, h0, h1, h2, h3, h4, x0, x1, x2, x3, x4⟩ :=
    isGuid_parts h
  have ne_nil : ∀ {p : JsString} {n : Nat}, p.length = n + 1 → p ≠ [] := by
    rintro p n hp rfl
    cases hp
  have hsplit3 : bufferHex (p3 ++ p4) = bufferHex p3 ++ bufferHex p4 :=
    bufferHex_append (n := 2) h3 x3
  have hupper : toUpper s = toUpper (hexDigits 8 (hexPrefix 0 p0) ++ [45] ++
      hexDigits 4 (hexPrefix 0 p1) ++ [45] ++ hexDigits 4 (hexPrefix 0 p2) ++ [45] ++
      hexOfBytes (bufferHex p3) ++ [45] ++ hexOfBytes (bufferHex p4)) := by
    have u0 := toUpper_hexDigits x0
    have u1 := toUpper_hexDigits x1
    have u2 := toUpper_hexDigits x2
    have u3 := toUpper_hexOfBytes (n := 2) h3 x3
    have u4 := toUpper_hexOfBytes (n := 6) h4 x4
    rw [h0] at u0
    rw [h1] at u1
    rw [h2] at u2
    rw [hs]
    simp only [toUpper, List.map_append] at u0 u1 u2 u3 u4 ⊢
    simp only [u0, u1, u2, u3, u4]
  simp only [writeGuid, hsplit, hsplit3]
  refine Encodes.cons (encodes_hexGroup x0 (ne_nil h0)) ?_
  refine Encodes.cons (encodes_hexGroup x1 (ne_nil h1)) ?_
  refine Encodes.cons (encodes_hexGroup x2 (ne_nil h2)) ?_
  refine Encodes.single (Encodes.ok ?_)
  refine Reads.bind (reads_bytes_of_length (length_bufferHex (n := 2) h3 x3)) ?_
  rw [hupper]
  exact Reads.bind_pure (reads_bytes_of_length (length_bufferHex (n := 6) h4 x4))

end OpcUaSuite.Uadp
