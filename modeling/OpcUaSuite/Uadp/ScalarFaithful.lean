import OpcUaSuite.Uadp.VariantRoundTrip

/-!
# Scalars that are published unchanged

`_writeVariantScalar` against `_readVariantScalar` for values of any shape. A
writer that converts its argument publishes whatever the conversion makes of
it, so a value survives when it is one of the type already or is rejected.
-/

namespace OpcUaSuite.Uadp

open Js ByteCodec BinaryFloat PubSub

/-- Numbers are compared as numbers, and an integral number is the value of the
BigInt of the same integer. -/
def SameValue : JsValue → JsValue → Prop
  | .num d, .num e => Value.Same d e
  | .num d, .bigint i => d.isInteger = true ∧ d.trunc = i
  | v, w => v = w

/-- The value that stands for `v` once decoded: a Float is rounded and a GUID is
known up to the case of its letters. -/
def Decodes (t : BuiltInType) (v a : JsValue) : Prop :=
  match t, v with
  | .Float, .num d => a = .num (Double.fround d)
  | .Guid, .str s => ∃ s', a = .str s' ∧ toUpper s' = toUpper s
  | _, v => SameValue v a

/-- The scalar is rejected, or read back by exactly the bytes written. -/
def Faithful (host : Host) (t : BuiltInType) (v : JsValue) : Prop :=
  Recovers (writeVariantScalar host (.number t.ordinal) v) (readVariantScalar t.ordinal)
    (Decodes t v)

/-! ## What each type takes -/

/-- An integral number, or a value whose conversion fails or leaves the range. -/
def WholeOrRejected (host : Host) (lo hi : Int) (v : JsValue) : Prop :=
  (∃ d, v = .num d ∧ d.isInteger = true) ∨
    ∀ d, host.toNumber v = .ok d → (d.gtInt hi || d.ltInt lo) = true

/-- A BigInt or an integral number, or a value whose conversion fails or leaves
the range. -/
def WideOrRejected (host : Host) (lo hi : Int) (v : JsValue) : Prop :=
  (bigIntOf? v).isSome = true ∨ ∀ i, host.toBigInt v = .ok i → i < lo ∨ hi < i

/-- A number, or a value whose conversion fails. -/
def NumberOrRejected (host : Host) (v : JsValue) : Prop :=
  (∃ d, v = .num d) ∨ ∃ e, host.toNumber v = .error e

def TextOrRejected (host : Host) (v : JsValue) : Prop :=
  v = .null ∨
  (∃ s, v = .str s ∧ Utf.wellFormed s = true ∧ (Utf.encode s).length ≠ nullLength) ∨
  (v.isNullish = false ∧ ∀ bytes, host.bufferUtf8 v = .ok bytes → 256 ^ 4 ≤ bytes.length)

/-- A group of a GUID whose number fits its field; no number counts as zero. -/
def groupFits (k : Nat) (p : JsString) : Bool := decide ((parseHex p).getD 0 < 256 ^ k)

/-- Five groups, the first three of which fit their fields. -/
def guidGroupsFit (s : JsString) : Bool :=
  match splitOn 45 s with
  | [p0, p1, p2, _, _] => groupFits 4 p0 && groupFits 2 p1 && groupFits 2 p2
  | _ => false

def GuidOrRejected (v : JsValue) : Prop :=
  ∀ s, v = .str s → guidGroupsFit s = true → isGuid s = true

/-- Only a buffer is accepted, and its length must not be the null marker. -/
def BytesOrRejected (v : JsValue) : Prop :=
  v ≠ .undefined ∧ ∀ bytes, v = .buffer bytes → bytes.length ≠ nullLength

/-- An integral number of 32 bits, or a value whose conversion fails; every other
number is wrapped. -/
def StatusOrRejected (host : Host) (v : JsValue) : Prop :=
  (∃ d, v = .num d ∧ d.isInteger = true ∧ 0 ≤ d.trunc ∧ d.trunc < 2 ^ 32) ∨
    ∃ e, host.toNumber v = .error e

/-- The values a type takes as they are, and the values it rejects. -/
def TakenOrRejected (host : Host) (t : BuiltInType) (v : JsValue) : Prop :=
  match t with
  | .Boolean => ∃ b, v = .bool b
  | .SByte => WholeOrRejected host (-2 ^ 7) (2 ^ 7 - 1) v
  | .Byte => WholeOrRejected host 0 (256 ^ 1 - 1) v
  | .Int16 => WholeOrRejected host (-2 ^ 15) (2 ^ 15 - 1) v
  | .UInt16 => WholeOrRejected host 0 (256 ^ 2 - 1) v
  | .Int32 => WholeOrRejected host (-2 ^ 31) (2 ^ 31 - 1) v
  | .UInt32 => WholeOrRejected host 0 (256 ^ 4 - 1) v
  | .Int64 => WideOrRejected host (-2 ^ 63) (2 ^ 63 - 1) v
  | .UInt64 => WideOrRejected host 0 (2 ^ 64 - 1) v
  | .Float | .Double => NumberOrRejected host v
  | .String => TextOrRejected host v
  | .DateTime => True
  | .Guid => GuidOrRejected v
  | .ByteString => BytesOrRejected v
  | .StatusCode => StatusOrRejected host v

variable {host : Host} {v : JsValue}

/-! ## Numbers -/

theorem writeInt_of_toNumber {k : Nat} {lo hi : Int} {d : Double} (h : host.toNumber v = .ok d) :
    writeInt host k lo hi v =
      if d.gtInt hi || d.ltInt lo then .error (.runtime .rangeError)
      else .ok (le k (toTwos k d.trunc)) := by
  rw [writeInt, h]
  rfl

/-- A value is the same as an integral number only when it is that number. -/
theorem sameValue_trunc {d : Double} (hd : host.toNumber v = .ok d)
    (h53 : d.trunc.natAbs < 2 ^ 53) :
    SameValue v (.num (Double.ofInt d.trunc)) ↔ ∃ d, v = .num d ∧ d.isInteger = true := by
  cases v with
  | num e =>
      cases hd
      change Value.Same d (Value.ofInt d.trunc) ↔ _
      rw [Value.same_ofInt_iff (F := binary64) h53]
      constructor
      · exact fun h => ⟨d, rfl, h.isInteger⟩
      · rintro ⟨e, he, hint⟩
        cases he
        exact Value.denotes_trunc hint
  | _ => simp [SameValue]

/-- The integer types differ in their range and in how the word is read. -/
theorem recovers_int {k : Nat} {lo hi : Int} {r : Reader JsValue} (hlo : lo ≤ 0) (hhi : 0 ≤ hi)
    (hlo53 : -2 ^ 53 < lo) (hhi53 : hi < 2 ^ 53)
    (hr : ∀ i : Int, lo ≤ i → i ≤ hi →
      Reads r (le k (toTwos k i)) (.num (Double.ofInt i))) :
    Recovers (writeInt host k lo hi v) r (SameValue v) ↔ WholeOrRejected host lo hi v := by
  cases hd : host.toNumber v with
  | error e =>
      have herr : writeInt host k lo hi v = .error (.runtime e) := by
        rw [writeInt, hd]
        rfl
      exact iff_of_true (Recovers.of_error herr) (Or.inr fun d h => by rw [hd] at h; cases h)
  | ok d =>
      have hw := @writeInt_of_toNumber host v k lo hi d hd
      cases hout : d.gtInt hi || d.ltInt lo with
      | true =>
          rw [hout, if_pos rfl] at hw
          refine iff_of_true (Recovers.of_error hw) (Or.inr fun e he => ?_)
          rw [hd] at he
          cases he
          exact hout
      | false =>
          obtain ⟨hgt, hlt⟩ := Bool.or_eq_false_iff.mp hout
          obtain ⟨hge, hle⟩ := Value.trunc_mem hlo hhi hgt hlt
          rw [hout, if_neg Bool.false_ne_true] at hw
          rw [Recovers.iff_of_reads hw (hr d.trunc hge hle), sameValue_trunc hd (by omega)]
          refine ⟨Or.inl, fun h => h.resolve_right fun hall => ?_⟩
          rw [hall d hd] at hout
          cases hout

theorem reads_unsigned {k : Nat} {i : Int} (hlo : 0 ≤ i) (hhi : i ≤ 256 ^ k - 1) :
    Reads (readNumber k) (le k (toTwos k i)) (.num (Double.ofInt i)) := by
  have hcast : ((256 ^ k : Nat) : Int) = 256 ^ k := by push_cast; rfl
  have hr := Reads.bind_pure (g := JsValue.nat) (reads_le (toTwos_lt k i))
  rwa [JsValue.nat, toTwos_of_nonneg hlo (by omega)] at hr

theorem reads_signed {k : Nat} {i : Int} (hlo : -(256 ^ k : Nat) ≤ 2 * i)
    (hhi : 2 * i < (256 ^ k : Nat)) :
    Reads (readSigned k) (le k (toTwos k i)) (.num (Double.ofInt i)) := by
  have hr := Reads.bind_pure (g := fun i : Int => JsValue.num (Double.ofInt i))
    (Reads.bind_pure (g := ofTwos k) (reads_le (toTwos_lt k i)))
  rwa [ofTwos_toTwos hlo hhi] at hr

/-- A BigInt read back is the value of a BigInt or of an integral number only. -/
theorem sameValue_bigint {i : Int} (hi : host.toBigInt v = .ok i) :
    SameValue v (.bigint i) ↔ (bigIntOf? v).isSome = true := by
  cases v with
  | num d =>
      by_cases hd : d.isInteger = true
      · simp only [Host.toBigInt, hd, if_true, Except.ok.injEq] at hi
        simp [SameValue, bigIntOf?, hd, hi]
      · simp [SameValue, bigIntOf?, hd]
  | bigint j =>
      cases hi
      simp [SameValue, bigIntOf?]
  | _ => simp [SameValue, bigIntOf?]

theorem recovers_wide {lo hi : Int} {w : Writer} {r : Reader JsValue}
    (herr : ∀ e, host.toBigInt v = .error e → w = .error (.runtime e))
    (hout : ∀ i, host.toBigInt v = .ok i → i < lo ∨ hi < i → w = .error (.runtime .rangeError))
    (hin : ∀ i, host.toBigInt v = .ok i → lo ≤ i → i ≤ hi → ∃ bs, w = .ok bs)
    (hr : ∀ i, host.toBigInt v = .ok i → Encodes w r (.bigint i)) :
    Recovers w r (SameValue v) ↔ WideOrRejected host lo hi v := by
  cases hi' : host.toBigInt v with
  | error e =>
      exact iff_of_true (Recovers.of_error (herr e hi'))
        (Or.inr fun i h => by rw [hi'] at h; cases h)
  | ok i =>
      by_cases hrange : lo ≤ i ∧ i ≤ hi
      · obtain ⟨bs, hbs⟩ := hin i hi' hrange.1 hrange.2
        rw [Recovers.iff_of_encodes hbs (hr i hi'), sameValue_bigint hi']
        refine ⟨Or.inl, fun h => h.resolve_right fun hall => ?_⟩
        have := hall i hi'
        omega
      · refine iff_of_true (Recovers.of_error (hout i hi' (by omega))) (Or.inr fun j hj => ?_)
        rw [hi'] at hj
        cases hj
        omega

theorem recovers_int64 :
    Recovers (writeInt64LE host v) readBigInt64LE (SameValue v) ↔
      WideOrRejected host (-2 ^ 63) (2 ^ 63 - 1) v := by
  apply recovers_wide
  · intro e he
    rw [writeInt64LE, he]
    rfl
  · intro i hi hout
    rw [writeInt64LE, hi]
    exact if_neg (by omega)
  · intro i hi hlo hhi
    rw [writeInt64LE, hi]
    exact ⟨_, if_pos (by omega)⟩
  · exact fun i hi => encodes_int64_of hi

theorem recovers_uint64 :
    Recovers (writeUInt64LE host v) readUInt64LE (SameValue v) ↔
      WideOrRejected host 0 (2 ^ 64 - 1) v := by
  apply recovers_wide
  · intro e he
    rw [writeUInt64LE, he]
    rfl
  · intro i hi hout
    rw [writeUInt64LE, hi]
    exact if_neg (by omega)
  · intro i hi hlo hhi
    rw [writeUInt64LE, hi]
    exact ⟨_, if_pos (by omega)⟩
  · exact fun i hi => encodes_uint64_of hi

/-- A floating-point type publishes the number of every value that has one. -/
theorem recovers_number (host : Host) {w : Writer} {r : Reader JsValue} {P : JsValue → Prop} {g : Double → Double}
    (herr : ∀ e, host.toNumber v = .error e → w = .error (.runtime e))
    (hw : ∀ d, host.toNumber v = .ok d → (∃ bs, w = .ok bs) ∧ Encodes w r (.num (g d)))
    (hP : ∀ d, host.toNumber v = .ok d → (P (.num (g d)) ↔ v = .num d)) :
    Recovers w r P ↔ NumberOrRejected host v := by
  cases hd : host.toNumber v with
  | error e =>
      exact iff_of_true (Recovers.of_error (herr e hd)) (Or.inr ⟨e, hd⟩)
  | ok d =>
      obtain ⟨⟨bs, hbs⟩, hr⟩ := hw d hd
      rw [Recovers.iff_of_encodes hbs hr, hP d hd]
      constructor
      · exact fun h => Or.inl ⟨d, h⟩
      · rintro (⟨e, rfl⟩ | ⟨e, he⟩)
        · cases hd
          rfl
        · rw [hd] at he
          cases he

theorem recovers_float :
    Recovers (writeFloatLE host v) readFloatLE (Decodes .Float v) ↔ NumberOrRejected host v := by
  apply recovers_number host (g := Double.fround)
  · intro e he
    rw [writeFloatLE, he]
    rfl
  · intro d hd
    refine ⟨?_, encodes_float_of hd⟩
    rw [writeFloatLE, hd]
    exact ⟨_, rfl⟩
  · intro d hd
    cases v with
    | num e =>
        cases hd
        simp [Decodes]
    | _ => simp [Decodes, SameValue]

theorem recovers_double :
    Recovers (writeDoubleLE host v) readDoubleLE (SameValue v) ↔ NumberOrRejected host v := by
  apply recovers_number host (g := id)
  · intro e he
    rw [writeDoubleLE, he]
    rfl
  · intro d hd
    refine ⟨?_, encodes_double_of hd⟩
    rw [writeDoubleLE, hd]
    exact ⟨_, rfl⟩
  · intro d hd
    cases v with
    | num e =>
        cases hd
        simp [SameValue, Value.Same]
    | _ => simp [SameValue]

theorem recovers_boolean :
    Recovers (writeBoolean v) readBoolean (SameValue v) ↔ ∃ b, v = .bool b := by
  have hw : ∃ bs, writeBoolean v = .ok bs := by
    unfold writeBoolean putUInt
    cases v.truthy <;> exact ⟨_, rfl⟩
  obtain ⟨bs, hbs⟩ := hw
  rw [Recovers.iff_of_encodes hbs (encodes_boolean rfl)]
  cases v <;> simp [SameValue, JsValue.truthy]

theorem recovers_statusCode :
    Recovers (writeStatusCode host v) (readNumber 4) (SameValue v) ↔ StatusOrRejected host v := by
  cases hd : host.toNumber v with
  | error e =>
      have herr : writeStatusCode host v = .error (.runtime e) := by
        rw [writeStatusCode, Host.toUint32, hd]
        rfl
      exact iff_of_true (Recovers.of_error herr) (Or.inr ⟨e, hd⟩)
  | ok d =>
      have hnonneg : 0 ≤ d.trunc % 2 ^ 32 := Int.emod_nonneg _ (by decide)
      have hlt : d.trunc % 2 ^ 32 < 2 ^ 32 := Int.emod_lt_of_pos _ (by decide)
      have hput : writeStatusCode host v = putUInt 4 (d.trunc % 2 ^ 32).toNat := by
        rw [writeStatusCode, Host.toUint32, hd]
        rfl
      have hw : writeStatusCode host v = .ok (le 4 (d.trunc % 2 ^ 32).toNat) := by
        rw [hput, putUInt, if_pos (by omega)]
      have hr : Encodes (writeStatusCode host v) (readNumber 4)
          (.num (Double.ofInt (d.trunc % 2 ^ 32))) := by
        have hm := Encodes.map JsValue.nat (encodes_putUInt 4 (d.trunc % 2 ^ 32).toNat)
        rw [JsValue.nat, Int.toNat_of_nonneg hnonneg] at hm
        rw [hput]
        exact hm
      rw [Recovers.iff_of_encodes hw hr]
      cases v with
      | num e =>
          cases hd
          change Value.Same d (Value.ofInt (d.trunc % 2 ^ 32)) ↔ _
          rw [Value.same_ofInt_iff (F := binary64) (by simp only [binary64]; omega)]
          constructor
          · intro h
            have htrunc := h.trunc
            exact Or.inl ⟨d, rfl, h.isInteger, by omega, by omega⟩
          · rintro (⟨e, he, hint, hlo, hhi⟩ | ⟨e, he⟩)
            · cases he
              rw [Int.emod_eq_of_lt hlo hhi]
              exact Value.denotes_trunc hint
            · cases he
      | bigint i => cases hd
      | _ => simp [SameValue, StatusOrRejected, hd]

/-! ## Strings and byte strings -/

/-- A length that is the null marker is read as null, before the bytes it counts. -/
theorem not_reads_nullLength {α : Type} {r : Reader α} {body : Bytes} {a b : α}
    (hbody : body.length = nullLength)
    (hnull : ∀ tail, r ⟨0, le 4 nullLength ++ tail⟩ = .ok (b, ⟨4, tail⟩)) :
    ¬ Reads r (le 4 nullLength ++ body) a := by
  intro h
  have heq := (hnull (body ++ [])).symm.trans (List.append_assoc _ _ _ ▸ h.exact 0 [])
  simp only [List.append_nil, Except.ok.injEq, Prod.mk.injEq, Cursor.mk.injEq, List.length_append,
    length_le, hbody] at heq
  exact absurd heq.2.1 (by decide)

theorem putUInt_ok {k n : Nat} (h : n < 256 ^ k) : putUInt k n = .ok (le k n) := if_pos h

theorem putUInt_error {k n : Nat} (h : 256 ^ k ≤ n) :
    putUInt k n = .error (.runtime .rangeError) := if_neg (by omega)

/-- A length and what it counts: rejected, mistaken for null, or read back. -/
theorem recovers_counted {r : Reader JsValue} {body : Bytes} {a : JsValue} {P : JsValue → Prop}
    (hnull : ∀ tail, r ⟨0, le 4 nullLength ++ tail⟩ = .ok (.null, ⟨4, tail⟩))
    (hr : body.length ≠ nullLength → Encodes (cat [putUInt 4 body.length, .ok body]) r a) :
    Recovers (cat [putUInt 4 body.length, .ok body]) r P ↔
      256 ^ 4 ≤ body.length ∨ (body.length ≠ nullLength ∧ P a) := by
  rcases Nat.lt_or_ge body.length (256 ^ 4) with hlt | hge
  · have hw : cat [putUInt 4 body.length, .ok body] =
        (.ok (le 4 body.length ++ (body ++ [])) : Writer) := by
      rw [putUInt_ok hlt]
      rfl
    by_cases hmark : body.length = nullLength
    · refine iff_of_false (fun h => ?_) (by omega)
      obtain ⟨b, hb, -⟩ := h _ hw
      rw [hmark, List.append_nil] at hb
      exact not_reads_nullLength hmark hnull hb
    · rw [Recovers.iff_of_encodes hw (hr hmark)]
      exact ⟨fun h => Or.inr ⟨hmark, h⟩, fun h => (h.resolve_left (by omega)).2⟩
  · have hw : cat [putUInt 4 body.length, .ok body] =
        (.error (.runtime .rangeError) : Writer) := by
      rw [putUInt_error hge]
      rfl
    exact iff_of_true (Recovers.of_error hw) (Or.inl hge)

theorem nullLength_lt : nullLength < 256 ^ 4 := by decide

theorem read_nullLength {α : Type} {f : Nat → Reader α} {b : α}
    (hf : f nullLength = pure b) (tail : Bytes) :
    (readUInt 4 >>= f) ⟨0, le 4 nullLength ++ tail⟩ = .ok (b, ⟨4, tail⟩) := by
  have h := Reads.bind (reads_le nullLength_lt) (f := f) (hf ▸ Reads.pure b)
  simpa using h.exact 0 tail

theorem readString_null (tail : Bytes) :
    readString ⟨0, le 4 nullLength ++ tail⟩ = .ok (.null, ⟨4, tail⟩) :=
  read_nullLength (if_pos rfl) tail

theorem readByteString_null (tail : Bytes) :
    readByteString ⟨0, le 4 nullLength ++ tail⟩ = .ok (.null, ⟨4, tail⟩) :=
  read_nullLength (if_pos rfl) tail

theorem encodes_utf8 {body : Bytes} (h : body.length ≠ nullLength) :
    Encodes (cat [putUInt 4 body.length, .ok body] : Writer) readString
      (.str (Utf.decode body)) := by
  refine Encodes.cons (encodes_putUInt 4 _) ?_
  rw [if_neg h]
  exact Encodes.map (fun bs => JsValue.str (Utf.decode bs))
    (Encodes.single (Encodes.ok (reads_bytes body)))

theorem recovers_nullString (hv : v.isNullish = true) :
    Recovers (writeString host v) readString (SameValue v) ↔ v = .null := by
  have hw : writeString host v = .ok (le 4 nullLength) := by
    rw [writeString, if_pos hv, putUInt_ok nullLength_lt]
  have hr : Reads readString (le 4 nullLength) .null := by
    have h : Encodes (writeString host .null) readString .null := encodes_string_null
    exact h.reads _ (putUInt_ok nullLength_lt)
  rw [Recovers.iff_of_reads hw hr]
  cases v with
  | null => simp [SameValue]
  | undefined => simp [SameValue]
  | _ => cases hv

/-- The text that comes back is the text that went out only when UTF-8 carries it. -/
theorem sameValue_decode {body : Bytes} (h : host.bufferUtf8 v = .ok body) :
    SameValue v (.str (Utf.decode body)) ↔ ∃ s, v = .str s ∧ Utf.wellFormed s = true := by
  cases v with
  | str s =>
      cases h
      constructor
      · intro heq
        refine ⟨s, rfl, ?_⟩
        have hs : s = Utf.decode (Utf.encode s) := by simpa [SameValue] using heq
        rw [hs]
        exact Utf.wellFormed_decode _
      · rintro ⟨s', hs, hwf⟩
        cases hs
        simp [SameValue, Utf.decode_encode hwf]
  | _ => simp [SameValue]

theorem recovers_string :
    Recovers (writeString host v) readString (SameValue v) ↔ TextOrRejected host v := by
  cases hnull : v.isNullish with
  | true =>
      rw [recovers_nullString hnull]
      refine ⟨Or.inl, ?_⟩
      rintro (h | ⟨s, rfl, -⟩ | ⟨h, -⟩)
      · exact h
      · cases hnull
      · rw [hnull] at h
        cases h
  | false =>
      have hne : v ≠ .null := by
        rintro rfl
        cases hnull
      have hw : writeString host v = (do
          let b ← liftRuntime (host.bufferUtf8 v)
          cat [putUInt 4 b.length, .ok b]) := by
        rw [writeString, if_neg (by simp [hnull])]
      cases hb : host.bufferUtf8 v with
      | error e =>
          rw [hb] at hw
          exact iff_of_true (Recovers.of_error hw)
            (Or.inr (Or.inr ⟨hnull, fun bytes h => by rw [hb] at h; cases h⟩))
      | ok body =>
          rw [hb] at hw
          change writeString host v = cat [putUInt 4 body.length, .ok body] at hw
          rw [hw, recovers_counted readString_null encodes_utf8, sameValue_decode hb]
          constructor
          · rintro (hlen | ⟨hlen, s, rfl, hwf⟩)
            · exact Or.inr (Or.inr ⟨hnull, fun bytes h => by rw [hb] at h; cases h; exact hlen⟩)
            · cases hb
              exact Or.inr (Or.inl ⟨s, rfl, hwf, hlen⟩)
          · rintro (h | ⟨s, rfl, hwf, hlen⟩ | ⟨-, hlen⟩)
            · exact absurd h hne
            · cases hb
              exact Or.inr ⟨hlen, s, rfl, hwf⟩
            · exact Or.inl (hlen body hb)

/-- The length of a buffer is written like the length of a string. -/
theorem writeUInt32LE_length (n : Nat) : writeUInt32LE host (.nat n) = putUInt 4 n := by
  change (if (Double.ofInt n).gtInt (256 ^ 4 - 1) || (Double.ofInt n).ltInt 0 then _ else _) = _
  rcases Nat.lt_or_ge n (2 ^ 53) with hsmall | hbig
  · have hden : (Double.ofInt n).Denotes n := Double.denotes_ofInt (by omega)
    rw [hden.gtInt, hden.ltInt, hden.trunc]
    rcases Nat.lt_or_ge n (256 ^ 4) with hlt | hge
    · rw [if_neg (by simp; omega), putUInt_ok hlt, toTwos,
        Int.emod_eq_of_lt (by omega) (by exact_mod_cast hlt), Int.toNat_natCast]
      rfl
    · rw [if_pos (by simp; omega), putUInt_error hge]
  · have hgt : (Double.ofInt n).gtInt (256 ^ 4 - 1) = true :=
      Value.gtInt_ofInt (F := binary64) hbig (by decide)
    rw [hgt, Bool.true_or, if_pos rfl, putUInt_error (by omega)]

theorem recovers_byteString :
    Recovers (writeByteString host v) readByteString (SameValue v) ↔ BytesOrRejected v := by
  have hmark : Reads readByteString (le 4 nullLength) .null :=
    (@encodes_byteString_null host).reads _ (putUInt_ok nullLength_lt)
  have hother : ∀ w : Writer, ∃ e, (cat [w, .error (.runtime .typeError)] : Writer) = .error e := by
    intro w
    cases w with
    | error e => exact ⟨e, rfl⟩
    | ok bs => exact ⟨_, rfl⟩
  cases v with
  | null =>
      rw [Recovers.iff_of_reads (w := writeByteString host .null) (putUInt_ok nullLength_lt) hmark]
      simp [SameValue, BytesOrRejected]
  | undefined =>
      rw [Recovers.iff_of_reads (w := writeByteString host .undefined) (putUInt_ok nullLength_lt)
        hmark]
      simp [SameValue, BytesOrRejected]
  | buffer body =>
      have hw : writeByteString host (.buffer body) = cat [putUInt 4 body.length, .ok body] := by
        rw [← @writeUInt32LE_length host]
        rfl
      have hr : body.length ≠ nullLength →
          Encodes (cat [putUInt 4 body.length, .ok body] : Writer) readByteString
            (.buffer body) := by
        intro hne
        refine Encodes.cons (encodes_putUInt 4 _) ?_
        rw [if_neg hne]
        exact Encodes.single (Encodes.map JsValue.buffer (Encodes.ok (reads_bytes body)))
      rw [hw, recovers_counted readByteString_null hr]
      have hlt := nullLength_lt
      simp only [SameValue, BytesOrRejected, ne_eq, reduceCtorEq, not_false_eq_true,
        JsValue.buffer.injEq, forall_eq', true_and, and_true]
      omega
  | _ =>
      obtain ⟨e, he⟩ := hother (writeUInt32LE host (lengthOf _))
      exact iff_of_true (Recovers.of_error he) (by simp [BytesOrRejected])

/-! ## GUIDs -/

theorem toNat_upperUnit (u : UInt16) :
    (upperUnit u).toNat = if 97 ≤ u.toNat ∧ u.toNat ≤ 122 then u.toNat - 32 else u.toNat := by
  unfold upperUnit
  split
  next h => rw [UInt16.toNat_ofNat', Nat.mod_eq_of_lt (by omega)]
  next => rfl

theorem isHex_iff {u : UInt16} : isHex u = true ↔
    (48 ≤ u.toNat ∧ u.toNat ≤ 57) ∨ (97 ≤ u.toNat ∧ u.toNat ≤ 102) ∨
      (65 ≤ u.toNat ∧ u.toNat ≤ 70) := by
  unfold isHex hexDigit?
  dsimp only
  split_ifs <;> simp <;> omega

theorem isHex_upperUnit (u : UInt16) : isHex (upperUnit u) = isHex u := by
  rw [Bool.eq_iff_iff, isHex_iff, isHex_iff, toNat_upperUnit]
  split_ifs <;> omega

theorem upperUnit_eq_dash {u : UInt16} : upperUnit u = 45 ↔ u = 45 := by
  rw [← UInt16.toNat_inj, ← UInt16.toNat_inj, toNat_upperUnit]
  have hdash : (45 : UInt16).toNat = 45 := rfl
  rw [hdash]
  split_ifs <;> omega

theorem splitOn_toUpper (s : JsString) :
    splitOn 45 (toUpper s) = (splitOn 45 s).map toUpper := by
  induction s with
  | nil => rfl
  | cons u s ih =>
      rw [show toUpper (u :: s) = upperUnit u :: toUpper s from rfl, splitOn, splitOn, ih]
      by_cases hu : u = 45
      · rw [if_pos hu, if_pos (upperUnit_eq_dash.mpr hu)]
        rfl
      · rw [if_neg hu, if_neg (mt upperUnit_eq_dash.mp hu)]
        cases splitOn 45 s <;> rfl

theorem all_isHex_toUpper (s : JsString) : (toUpper s).all isHex = s.all isHex := by
  rw [toUpper, List.all_map]
  congr 1
  funext u
  exact isHex_upperUnit u

/-- Whether a text is a GUID does not depend on the case of its letters. -/
theorem isGuid_toUpper (s : JsString) : isGuid (toUpper s) = isGuid s := by
  have hlen : ∀ p : JsString, (toUpper p).length = p.length := fun p => List.length_map _
  unfold isGuid
  rw [splitOn_toUpper]
  rcases splitOn 45 s with _ | ⟨p0, _ | ⟨p1, _ | ⟨p2, _ | ⟨p3, _ | ⟨p4, _ | ⟨p5, ps⟩⟩⟩⟩⟩⟩ <;>
    simp only [List.map_cons, List.map_nil, hlen, List.all_append, all_isHex_toUpper]

theorem splitOn_hex {p : JsString} (hp : p.all isHex = true) (rest : JsString) :
    splitOn 45 (p ++ 45 :: rest) = p :: splitOn 45 rest ∧ splitOn 45 p = [p] := by
  induction p with
  | nil => exact ⟨by simp [splitOn], rfl⟩
  | cons u p ih =>
      simp only [List.all_cons, Bool.and_eq_true] at hp
      have hu : u ≠ 45 := by
        rintro rfl
        exact absurd hp.1 (by decide)
      obtain ⟨hrest, hend⟩ := ih hp.2
      exact ⟨by rw [List.cons_append, splitOn, if_neg hu, hrest],
        by rw [splitOn, if_neg hu, hend]⟩

theorem isGuid_of_parts {p0 p1 p2 p3 p4 : JsString} (h0 : p0.length = 8) (h1 : p1.length = 4)
    (h2 : p2.length = 4) (h3 : p3.length = 4) (h4 : p4.length = 12)
    (x0 : p0.all isHex = true) (x1 : p1.all isHex = true) (x2 : p2.all isHex = true)
    (x3 : p3.all isHex = true) (x4 : p4.all isHex = true) :
    isGuid (p0 ++ [45] ++ p1 ++ [45] ++ p2 ++ [45] ++ p3 ++ [45] ++ p4) = true := by
  have hsplit : splitOn 45 (p0 ++ [45] ++ p1 ++ [45] ++ p2 ++ [45] ++ p3 ++ [45] ++ p4) =
      [p0, p1, p2, p3, p4] := by
    simp only [List.append_assoc, List.cons_append, List.nil_append]
    rw [(splitOn_hex x0 _).1, (splitOn_hex x1 _).1, (splitOn_hex x2 _).1, (splitOn_hex x3 _).1,
      (splitOn_hex x4 []).2]
  rw [isGuid, hsplit]
  simp [h0, h1, h2, h3, h4, x0, x1, x2, x3, x4]

theorem isHex_digit {d : Nat} (h : d < 16) :
    isHex (UInt16.ofNat (if d < 10 then 48 + d else 87 + d)) = true := by
  interval_cases d <;> decide

theorem hexDigits_spec (k n : Nat) :
    (hexDigits k n).length = k ∧ (hexDigits k n).all isHex = true := by
  induction k generalizing n with
  | zero => exact ⟨rfl, rfl⟩
  | succ k ih =>
      obtain ⟨hlen, hall⟩ := ih (n / 16)
      rw [hexDigits, List.length_append, List.all_append, hlen, hall]
      exact ⟨rfl, by simp [isHex_digit (Nat.mod_lt n (by decide : 0 < 16))]⟩

theorem hexOfBytes_spec (bs : Bytes) :
    (hexOfBytes bs).length = 2 * bs.length ∧ (hexOfBytes bs).all isHex = true := by
  induction bs with
  | nil => exact ⟨rfl, rfl⟩
  | cons b bs ih =>
      obtain ⟨hlen, hall⟩ := hexDigits_spec 2 b.toNat
      rw [hexOfBytes, List.flatMap_cons, List.length_append, List.all_append, hlen, hall,
        ← hexOfBytes, ih.1, ih.2]
      exact ⟨by rw [List.length_cons]; omega, rfl⟩

/-- What `readGuid` returns is a GUID, whatever the bytes. -/
theorem isGuid_digits (d1 d2 d3 : Nat) {tail : Bytes} (h : tail.length = 8) :
    isGuid (hexDigits 8 d1 ++ [45] ++ hexDigits 4 d2 ++ [45] ++ hexDigits 4 d3 ++ [45] ++
      hexOfBytes (tail.take 2) ++ [45] ++ hexOfBytes (tail.drop 2)) = true := by
  have h3 := hexOfBytes_spec (tail.take 2)
  have h4 := hexOfBytes_spec (tail.drop 2)
  apply isGuid_of_parts (hexDigits_spec 8 d1).1 (hexDigits_spec 4 d2).1 (hexDigits_spec 4 d3).1
    _ _ (hexDigits_spec 8 d1).2 (hexDigits_spec 4 d2).2 (hexDigits_spec 4 d3).2 h3.2 h4.2
  · rw [h3.1, List.length_take]
    omega
  · rw [h4.1, List.length_drop]
    omega

theorem takes_uint (k : Nat) : Takes (readUInt k) k :=
  Takes.bind (n := 0) (Takes.take _ k) fun _ => Takes.pure _

theorem takes_guid : Takes readGuid 16 :=
  Takes.bind (m := 4) (n := 12) (takes_uint 4) fun _ =>
    Takes.bind (m := 2) (n := 10) (takes_uint 2) fun _ =>
      Takes.bind (m := 2) (n := 8) (takes_uint 2) fun _ =>
        Takes.bind (m := 2) (n := 6) (Takes.take _ 2) fun _ =>
          Takes.bind (m := 6) (n := 0) (Takes.take _ 6) fun _ => Takes.pure _

/-- Three words and eight bytes are read as the GUID of their digits. -/
theorem reads_guid {d1 d2 d3 : Nat} {tail : Bytes} (h1 : d1 < 256 ^ 4) (h2 : d2 < 256 ^ 2)
    (h3 : d3 < 256 ^ 2) (htail : tail.length = 8) :
    Reads readGuid (le 4 d1 ++ (le 2 d2 ++ (le 2 d3 ++ tail)))
      (.str (toUpper (hexDigits 8 d1 ++ [45] ++ hexDigits 4 d2 ++ [45] ++ hexDigits 4 d3 ++ [45] ++
        hexOfBytes (tail.take 2) ++ [45] ++ hexOfBytes (tail.drop 2)))) := by
  refine (reads_le h1).bind ((reads_le h2).bind ((reads_le h3).bind ?_))
  have hfirst : Reads (readBytes 2) (tail.take 2) (tail.take 2) :=
    reads_bytes_of_length (by rw [List.length_take]; omega)
  have hlast : Reads (readBytes 6) (tail.drop 2) (tail.drop 2) :=
    reads_bytes_of_length (by rw [List.length_drop]; omega)
  have hrest := hfirst.bind (f := fun d4a => do
    let d4b ← readBytes 6
    return JsValue.str (toUpper (hexDigits 8 d1 ++ [45] ++ hexDigits 4 d2 ++ [45] ++
      hexDigits 4 d3 ++ [45] ++ hexOfBytes d4a ++ [45] ++ hexOfBytes d4b))) hlast.bind_pure
  rwa [List.take_append_drop] at hrest

theorem writeHexGroup_eq {k : Nat} {p : JsString} :
    writeHexGroup k p = if groupFits k p then .ok (le k ((parseHex p).getD 0))
      else .error (.runtime .rangeError) := by
  simp [writeHexGroup, putUInt, groupFits]

/-- A text whose groups fit is written as three words and the bytes of the rest. -/
theorem writeGuid_cases (s : JsString) :
    (guidGroupsFit s = false ∧ ∃ e, writeGuid (.str s) = .error e) ∨
    (guidGroupsFit s = true ∧ ∃ d1 d2 d3 tail, d1 < 256 ^ 4 ∧ d2 < 256 ^ 2 ∧ d3 < 256 ^ 2 ∧
      writeGuid (.str s) = .ok (le 4 d1 ++ (le 2 d2 ++ (le 2 d3 ++ tail)))) := by
  by_cases hparts : ∃ p0 p1 p2 p3 p4, splitOn 45 s = [p0, p1, p2, p3, p4]
  · obtain ⟨p0, p1, p2, p3, p4, hsplit⟩ := hparts
    simp only [writeGuid, guidGroupsFit, hsplit]
    rw [writeHexGroup_eq, writeHexGroup_eq, writeHexGroup_eq]
    cases h0 : groupFits 4 p0 with
    | false => exact Or.inl ⟨rfl, _, rfl⟩
    | true =>
        cases h1 : groupFits 2 p1 with
        | false => exact Or.inl ⟨rfl, _, rfl⟩
        | true =>
            cases h2 : groupFits 2 p2 with
            | false => exact Or.inl ⟨rfl, _, rfl⟩
            | true =>
                exact Or.inr ⟨rfl, _, _, _, bufferHex (p3 ++ p4) ++ [],
                  of_decide_eq_true h0, of_decide_eq_true h1, of_decide_eq_true h2, rfl⟩
  · have hfit : guidGroupsFit s = false := by
      unfold guidGroupsFit
      split
      next p0 p1 p2 p3 p4 hsplit => exact absurd ⟨p0, p1, p2, p3, p4, hsplit⟩ hparts
      next => rfl
    have hwrite : writeGuid (.str s) = .error (.encodeInvalidGuid s) := by
      simp only [writeGuid]
      split
      next p0 p1 p2 p3 p4 hsplit => exact absurd ⟨p0, p1, p2, p3, p4, hsplit⟩ hparts
      next => rfl
    exact Or.inl ⟨hfit, _, hwrite⟩

theorem recovers_guid :
    Recovers (writeGuid v) readGuid (Decodes .Guid v) ↔ GuidOrRejected v := by
  cases v with
  | str s =>
      rcases writeGuid_cases s with ⟨hfit, e, he⟩ | ⟨hfit, d1, d2, d3, tail, h1, h2, h3, hw⟩
      · refine iff_of_true (Recovers.of_error he) ?_
        rintro s' ⟨⟩ h
        rw [hfit] at h
        cases h
      · have hiff : GuidOrRejected (.str s) ↔ isGuid s = true := by
          constructor
          · exact fun h => h s rfl hfit
          · rintro h s' ⟨⟩ -
            exact h
        rw [hiff]
        constructor
        · intro h
          obtain ⟨a, ha, hdec⟩ := h _ hw
          have hlen := takes_guid.length_eq ha
          simp only [List.length_append, length_le] at hlen
          have htail : tail.length = 8 := by omega
          obtain ⟨s', rfl, hcase⟩ := hdec
          have heq := ha.unique (reads_guid h1 h2 h3 htail)
          simp only [JsValue.str.injEq] at heq
          rw [← isGuid_toUpper, ← hcase, isGuid_toUpper, heq, isGuid_toUpper]
          exact isGuid_digits d1 d2 d3 htail
        · intro h
          rw [Recovers.iff_of_encodes hw (encodes_guid h)]
          refine ⟨toUpper s, rfl, ?_⟩
          have hidem : ∀ u, upperUnit (upperUnit u) = upperUnit u := by
            intro u
            rw [← UInt16.toNat_inj, toNat_upperUnit, toNat_upperUnit]
            split_ifs <;> omega
          simp [toUpper, hidem]
  | _ =>
      refine iff_of_true (Recovers.of_error rfl) ?_
      rintro s ⟨⟩

theorem recovers_dateTime : Recovers (writeDateTime v) readDateTime (SameValue v) := by
  cases v with
  | date time =>
      cases time with
      | none => exact Recovers.of_error rfl
      | some ms => exact fun bs h => ⟨_, (encodes_dateTime ms).reads bs h, rfl⟩
  | _ => exact Recovers.of_error rfl

/-! ## All types -/

/-- A scalar writer is faithful on the values its type takes and on those it
rejects, and on no other. -/
theorem faithful_iff (host : Host) (t : BuiltInType) (v : JsValue) :
    Faithful host t v ↔ TakenOrRejected host t v := by
  unfold Faithful
  rw [writeVariantScalar_ordinal, readVariantScalar_ordinal]
  cases t with
  | Boolean => exact recovers_boolean
  | SByte =>
      exact recovers_int (by decide) (by decide) (by decide) (by decide)
        fun i hlo hhi => reads_signed (by omega) (by omega)
  | Byte =>
      exact recovers_int (by decide) (by decide) (by decide) (by decide)
        fun i hlo hhi => reads_unsigned hlo hhi
  | Int16 =>
      exact recovers_int (by decide) (by decide) (by decide) (by decide)
        fun i hlo hhi => reads_signed (by omega) (by omega)
  | UInt16 =>
      exact recovers_int (by decide) (by decide) (by decide) (by decide)
        fun i hlo hhi => reads_unsigned hlo hhi
  | Int32 =>
      exact recovers_int (by decide) (by decide) (by decide) (by decide)
        fun i hlo hhi => reads_signed (by omega) (by omega)
  | UInt32 =>
      exact recovers_int (by decide) (by decide) (by decide) (by decide)
        fun i hlo hhi => reads_unsigned hlo hhi
  | Int64 => exact recovers_int64
  | UInt64 => exact recovers_uint64
  | Float => exact recovers_float
  | Double => exact recovers_double
  | String => exact recovers_string
  | DateTime => exact iff_of_true recovers_dateTime trivial
  | Guid => exact recovers_guid
  | ByteString => exact recovers_byteString
  | StatusCode => exact recovers_statusCode

/-- A GUID whose last groups are too short is written as nine bytes, of the
sixteen that are read back. -/
theorem short_guid_shifts :
    writeVariantScalar Host.inert (.number BuiltInType.Guid.ordinal) (.str (js "1-2-3-4-5")) =
        .ok [1, 0, 0, 0, 2, 0, 3, 0, 69] ∧
      ¬ Faithful Host.inert .Guid (.str (js "1-2-3-4-5")) := by
  have hw : writeVariantScalar Host.inert (.number BuiltInType.Guid.ordinal)
      (.str (js "1-2-3-4-5")) = .ok [1, 0, 0, 0, 2, 0, 3, 0, 69] := by decide
  refine ⟨hw, fun h => ?_⟩
  obtain ⟨a, ha, -⟩ := h _ hw
  rw [readVariantScalar_ordinal] at ha
  exact absurd (takes_guid.length_eq ha) (by decide)

end OpcUaSuite.Uadp
