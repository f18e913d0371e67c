import OpcUaSuite.Uadp.Variant

/-!
# What the Variant readers recover

A Variant comes back with its type as an ordinal and each scalar in its normal
form, with one exception: a null of a fixed-width type is written as zero or
false and comes back as such. `Variant.map f` applies `f` to every scalar, so
the decoded value and the normal form are two instances of one function.
-/

namespace OpcUaSuite.Uadp

open Js ByteCodec BinaryFloat PubSub

/-- The values a type can hold, null aside. -/
def ScalarInRange (t : BuiltInType) (v : JsValue) : Prop :=
  match t with
  | .Boolean => ∃ b, v = .bool b
  | .SByte => IntegerIn (-2 ^ 7) (2 ^ 7 - 1) v
  | .Byte => IntegerIn 0 (256 ^ 1 - 1) v
  | .Int16 => IntegerIn (-2 ^ 15) (2 ^ 15 - 1) v
  | .UInt16 => IntegerIn 0 (256 ^ 2 - 1) v
  | .Int32 => IntegerIn (-2 ^ 31) (2 ^ 31 - 1) v
  | .UInt32 | .StatusCode => IntegerIn 0 (256 ^ 4 - 1) v
  | .Int64 => ∃ i, bigIntOf? v = some i ∧ -2 ^ 63 ≤ i ∧ i < 2 ^ 63
  | .UInt64 => ∃ i, bigIntOf? v = some i ∧ 0 ≤ i ∧ i < 2 ^ 64
  | .Float | .Double => ∃ d, v = .num d
  | .String => ∃ s, v = .str s ∧ TextInRange s
  | .DateTime => ∃ ms, v = .date (some ms)
  | .Guid => ∃ s, v = .str s ∧ isGuid s = true
  | .ByteString => ∃ bytes : Bytes, v = .buffer bytes ∧ bytes.length < nullLength

/-- A scalar of a type: null or a value in range. -/
def InRange (t : BuiltInType) (v : JsValue) : Prop := v = .null ∨ ScalarInRange t v

/-- One zero for integers, BigInts for 64-bit integers, a rounded Float, a GUID
in upper case. -/
def normalScalar (t : BuiltInType) (v : JsValue) : JsValue :=
  match t with
  | .SByte | .Byte | .Int16 | .UInt16 | .Int32 | .UInt32 | .StatusCode => unsignZero v
  | .Int64 | .UInt64 =>
      match bigIntOf? v with
      | some i => .bigint i
      | none => v
  | .Float =>
      match v with
      | .num d => .num (Double.fround d)
      | v => v
  | .Guid =>
      match v with
      | .str s => .str (toUpper s)
      | v => v
  | _ => v

/-- What is read where a null was written. -/
def nullOnWire : BuiltInType → JsValue
  | .Boolean => .bool false
  | .SByte | .Byte | .Int16 | .UInt16 | .Int32 | .UInt32 | .Float | .Double | .StatusCode =>
      .num Double.zero
  | _ => .null

/-- The types of fixed width, whose encoding has no room for a null. -/
def coercesNull (t : BuiltInType) : Bool := decide (nullOnWire t ≠ .null)

/-- The scalar that is read where `v` was written. -/
def wireScalar (t : BuiltInType) (v : JsValue) : JsValue :=
  if v = .null then nullOnWire t else normalScalar t v

theorem normalScalar_null (t : BuiltInType) : normalScalar t .null = .null := by
  cases t <;> rfl

theorem wireScalar_eq_normal {t : BuiltInType} {v : JsValue} :
    wireScalar t v = normalScalar t v ↔ (v = .null → coercesNull t = false) := by
  unfold wireScalar
  split
  next h =>
    subst h
    simp [normalScalar_null, coercesNull]
  next h => simp [h]

variable {host : Host}

theorem integerIn_zero {lo hi : Int} (hlo : lo ≤ 0) (hhi : 0 ≤ hi) :
    IntegerIn lo hi (.num Double.zero) :=
  ⟨0, hlo, hhi, Or.inl (by decide)⟩

theorem encodes_boolean {v : JsValue} {b : Bool} (h : v.truthy = b) :
    Encodes (writeBoolean v) readBoolean (.bool b) := by
  subst h
  have hr := Encodes.map (fun n : Nat => JsValue.bool (decide (n ≠ 0)))
    (encodes_putUInt 1 (if v.truthy then 1 else 0))
  have hback : decide ((if v.truthy then 1 else 0) ≠ 0) = v.truthy := by
    cases v.truthy <;> rfl
  rwa [hback] at hr

theorem encodes_byteString {bytes : Bytes} (h : bytes.length < nullLength) :
    Encodes (writeByteString host (.buffer bytes)) readByteString (.buffer bytes) := by
  change Encodes (cat [writeUInt32LE host (.nat bytes.length), .ok bytes]) _ _
  have hlen : IntegerIn 0 (256 ^ 4 - 1) (.nat bytes.length) :=
    ⟨bytes.length, by omega, by simp only [nullLength] at h; omega, Or.inl rfl⟩
  have hwrite : writeUInt32LE host (.nat bytes.length) = putUInt 4 bytes.length := by
    have hlt : bytes.length < 256 ^ 4 := by simp only [nullLength] at h; omega
    rw [writeUInt32LE, writeUInt, JsValue.nat,
      writeInt_denotes (Double.denotes_ofInt (by omega)) (by omega) (by omega), putUInt,
      if_pos hlt, toTwos, Int.emod_eq_of_lt (by omega) (by exact_mod_cast hlt), Int.toNat_natCast]
  rw [hwrite]
  refine Encodes.cons (encodes_putUInt 4 _) ?_
  rw [if_neg (Nat.ne_of_lt h)]
  exact Encodes.single (Encodes.map JsValue.buffer (Encodes.ok (reads_bytes bytes)))

theorem encodes_byteString_null :
    Encodes (writeByteString host .null) readByteString .null := by
  have h : Encodes (cat [putUInt 4 nullLength]) readByteString JsValue.null := by
    refine Encodes.cons (encodes_putUInt 4 _) ?_
    rw [if_pos rfl]
    exact Encodes.nil JsValue.null
  constructor
  intro bs hbs
  exact h.reads bs (cat_cons_eq_ok.mpr ⟨bs, [], hbs, rfl, (List.append_nil bs).symm⟩)

theorem toUint32_denotes {d : Double} {i : Int} (h : d.Denotes i) (hlo : 0 ≤ i)
    (hhi : i < 2 ^ 32) : host.toUint32 (.num d) = .ok i.toNat := by
  change Except.ok (d.trunc % 2 ^ 32).toNat = _
  rw [h.trunc, Int.emod_eq_of_lt hlo hhi]

theorem encodes_statusCode {v : JsValue} (h : IntegerIn 0 (256 ^ 4 - 1) v) :
    Encodes (writeStatusCode host v) (readNumber 4) (unsignZero v) := by
  obtain ⟨i, hlo, hhi, hnum⟩ := h
  have h53 : i.natAbs < 2 ^ 53 := by omega
  have hto : host.toUint32 v = .ok i.toNat := by
    rcases hnum with rfl | ⟨rfl, rfl⟩
    · exact toUint32_denotes (Double.denotes_ofInt h53) hlo (by omega)
    · exact toUint32_denotes Double.denotes_negZero hlo (by omega)
  rw [unsignZero_num h53 hnum, writeStatusCode, hto]
  have hr := Encodes.map JsValue.nat (encodes_putUInt 4 i.toNat)
  rwa [JsValue.nat, Int.toNat_of_nonneg hlo] at hr

/-- A value in range is read back in its normal form. -/
theorem encodes_scalarInRange {t : BuiltInType} {v : JsValue} (h : ScalarInRange t v) :
    Encodes (writeScalar host t v) (readScalar t) (normalScalar t v) := by
  cases t with
  | Boolean =>
      obtain ⟨b, rfl⟩ := h
      exact encodes_boolean rfl
  | SByte => exact encodes_signed (by omega) (by decide) (by decide) h
  | Byte => exact encodes_unsigned (by omega) h
  | Int16 => exact encodes_signed (by omega) (by decide) (by decide) h
  | UInt16 => exact encodes_unsigned (by omega) h
  | Int32 => exact encodes_signed (by omega) (by decide) (by decide) h
  | UInt32 => exact encodes_unsigned (by omega) h
  | Int64 =>
      obtain ⟨i, hi, -⟩ := h
      simp only [normalScalar, hi]
      exact encodes_int64 hi
  | UInt64 =>
      obtain ⟨i, hi, -⟩ := h
      simp only [normalScalar, hi]
      exact encodes_uint64 hi
  | Float =>
      obtain ⟨d, rfl⟩ := h
      exact encodes_float d
  | Double =>
      obtain ⟨d, rfl⟩ := h
      exact encodes_double d
  | String =>
      obtain ⟨s, rfl, hs⟩ := h
      exact encodes_string hs
  | DateTime =>
      obtain ⟨ms, rfl⟩ := h
      exact encodes_dateTime ms
  | Guid =>
      obtain ⟨s, rfl, hs⟩ := h
      exact encodes_guid hs
  | ByteString =>
      obtain ⟨bytes, rfl, hb⟩ := h
      exact encodes_byteString hb
  | StatusCode => exact encodes_statusCode h

/-- A null is rejected, marked as null, or written as the zero of its type. -/
theorem encodes_null (t : BuiltInType) :
    Encodes (writeScalar host t .null) (readScalar t) (nullOnWire t) := by
  cases t with
  | Boolean => exact encodes_boolean rfl
  | SByte =>
      exact @encodes_signed host 1 (-2 ^ 7) (2 ^ 7 - 1) (.num .zero) (by omega) (by decide) (by decide)
        (integerIn_zero (by decide) (by decide))
  | Byte =>
      exact @encodes_unsigned host 1 (.num .zero) (by omega)
        (integerIn_zero (by decide) (by decide))
  | Int16 =>
      exact @encodes_signed host 2 (-2 ^ 15) (2 ^ 15 - 1) (.num .zero) (by omega) (by decide) (by decide)
        (integerIn_zero (by decide) (by decide))
  | UInt16 =>
      exact @encodes_unsigned host 2 (.num .zero) (by omega)
        (integerIn_zero (by decide) (by decide))
  | Int32 =>
      exact @encodes_signed host 4 (-2 ^ 31) (2 ^ 31 - 1) (.num .zero) (by omega) (by decide) (by decide)
        (integerIn_zero (by decide) (by decide))
  | UInt32 =>
      exact @encodes_unsigned host 4 (.num .zero) (by omega)
        (integerIn_zero (by decide) (by decide))
  | Int64 => exact Encodes.error _
  | UInt64 => exact Encodes.error _
  | Float =>
      have h : Encodes (writeFloatLE host .null) readFloatLE (.num (Double.fround .zero)) :=
        @encodes_float host .zero
      rwa [show Double.fround .zero = Double.zero by decide] at h
  | Double => exact @encodes_double host .zero
  | String => exact encodes_string_null
  | DateTime => exact Encodes.error _
  | Guid => exact Encodes.error _
  | ByteString => exact encodes_byteString_null
  | StatusCode =>
      exact @encodes_statusCode host (.num .zero)
        (integerIn_zero (by decide) (by decide))

theorem encodes_scalar {t : BuiltInType} {v : JsValue} (h : InRange t v) :
    Encodes (writeScalar host t v) (readScalar t) (wireScalar t v) := by
  unfold wireScalar
  split
  next hnull =>
    subst hnull
    exact encodes_null t
  next hne => exact encodes_scalarInRange (h.resolve_left hne)

/-! ## Variants -/

/-- The type a Variant names. -/
def typeOf? (dataType : DataTypeRef) : Option BuiltInType :=
  match builtInOf dataType with
  | .number n => BuiltInType.ofOrdinal? n
  | _ => none

/-- The elements of an array, or the scalar itself. -/
def elements : JsValue → List JsValue
  | .array items => items
  | v => [v]

def mapElements (f : JsValue → JsValue) : JsValue → JsValue
  | .array items => .array (items.map f)
  | v => f v

/-- A scalar or a one-dimensional array of a supported type. -/
def VariantInRange (v : Variant) : Prop :=
  v.dimensions = none ∧
    ∃ t, typeOf? v.dataType = some t ∧ ∀ x ∈ elements v.value, InRange t x

/-- The Variant with its type as an ordinal and `f` applied to its scalars. -/
def Variant.map (f : BuiltInType → JsValue → JsValue) (v : Variant) : Variant :=
  match typeOf? v.dataType with
  | some t => ⟨.ordinal t.ordinal, mapElements (f t) v.value, v.dimensions⟩
  | none => v

/-- The scalars of a Variant, with their type. -/
def Variant.scalars (v : Variant) : List (BuiltInType × JsValue) :=
  match typeOf? v.dataType with
  | some t => (elements v.value).map fun x => (t, x)
  | none => []

theorem mapElements_eq_iff {f g : JsValue → JsValue} {v : JsValue} :
    mapElements f v = mapElements g v ↔ ∀ x ∈ elements v, f x = g x := by
  cases v <;> simp [mapElements, elements]

theorem Variant.map_eq_iff {f g : BuiltInType → JsValue → JsValue} {v : Variant} :
    Variant.map f v = Variant.map g v ↔ ∀ p ∈ Variant.scalars v, f p.1 p.2 = g p.1 p.2 := by
  unfold Variant.map Variant.scalars
  cases typeOf? v.dataType with
  | none => simp
  | some t => simp [mapElements_eq_iff]

theorem ofOrdinal?_eq_some {n : Nat} {t : BuiltInType} (h : BuiltInType.ofOrdinal? n = some t) :
    n = t.ordinal := by
  have := List.find?_some h
  simpa using Eq.symm (by simpa using this)

theorem builtInOf_of_typeOf {r : DataTypeRef} {t : BuiltInType} (h : typeOf? r = some t) :
    builtInOf r = .number t.ordinal := by
  unfold typeOf? at h
  split at h
  next n hn => rw [hn, ofOrdinal?_eq_some h]
  next => cases h

theorem writeVariantScalar_ordinal (t : BuiltInType) (v : JsValue) :
    writeVariantScalar host (.number t.ordinal) v = writeScalar host t v := by
  simp only [writeVariantScalar, BuiltInType.ofOrdinal?_ordinal]

theorem readVariantScalar_ordinal (t : BuiltInType) :
    readVariantScalar t.ordinal = readScalar t := by
  simp only [readVariantScalar, BuiltInType.ofOrdinal?_ordinal]

/-- The encoding byte tells the type from the array bit. -/
theorem encodingByte_fields (t : BuiltInType) (b : Bool) :
    (t.ordinal ||| Flags.bit 6 b) ≠ 0 ∧ (t.ordinal ||| Flags.bit 6 b) % 64 = t.ordinal ∧
    (t.ordinal ||| Flags.bit 6 b).testBit 6 = b ∧
    (t.ordinal ||| Flags.bit 6 b).testBit 7 = false := by
  cases t <;> cases b <;> decide

theorem encodes_length (n : Nat) : Encodes (writeLength n) readCount n := by
  unfold writeLength
  split
  next h =>
    have hread : Encodes (putUInt 4 n) (readInt 4) (n : Int) := by
      have hm := Encodes.map (ofTwos 4) (encodes_putUInt 4 n)
      rwa [ofTwos, if_pos (by omega)] at hm
    have hm := Encodes.map Int.toNat hread
    rwa [Int.toNat_natCast] at hm
  next => exact Encodes.error _

theorem bits_ordinal (t : BuiltInType) : (BuiltIn.number t.ordinal).bits = t.ordinal :=
  Nat.mod_eq_of_lt t.ordinal_lt

/-- The scalars of a Variant are written one by one, after the length of an array. -/
theorem encodes_variantValue {t : BuiltInType} {g : JsValue → JsValue} {v : JsValue}
    (h : ∀ x ∈ elements v, Encodes (writeScalar host t x) (readScalar t) (g x)) :
    Encodes (writeVariantValue host (.number t.ordinal) v)
      (readVariantValue t.ordinal (isArray v)) (mapElements g v) := by
  have hscalar : ∀ x ∈ elements v, Encodes (writeVariantScalar host (.number t.ordinal) x)
      (readVariantScalar t.ordinal) (g x) := by
    intro x hx
    rw [writeVariantScalar_ordinal, readVariantScalar_ordinal]
    exact h x hx
  cases v with
  | array items =>
      refine Encodes.cons (encodes_length items.length) ?_
      exact Encodes.map JsValue.array (Encodes.single (Encodes.many hscalar))
  | _ => exact hscalar _ List.mem_cons_self

/-- A Variant is read back once its scalars are. -/
theorem encodes_variantBody_of {dataType : DataTypeRef} {t : BuiltInType} {g : JsValue → JsValue}
    {v : JsValue} (ht : typeOf? dataType = some t)
    (h : ∀ x ∈ elements v, Encodes (writeScalar host t x) (readScalar t) (g x)) :
    Encodes (writeVariantBody host dataType v) readVariant
      (some ⟨.ordinal t.ordinal, mapElements g v, none⟩) := by
  obtain ⟨hne, hmod, hbit, hdims⟩ := encodingByte_fields t (isArray v)
  simp only [writeVariantBody, builtInOf_of_typeOf ht, bits_ordinal]
  refine Encodes.cons (encodes_putUInt 1 _) ?_
  rw [if_neg hne]
  simp only [hmod, hbit, hdims]
  exact Encodes.map (fun value => some (Variant.mk (.ordinal t.ordinal) value none))
    (Encodes.single (encodes_variantValue h))

theorem encodes_variantBody {v : Variant} (h : VariantInRange v) :
    Encodes (writeVariantBody host v.dataType v.value) readVariant
      (some (Variant.map wireScalar v)) := by
  obtain ⟨dataType, value, dimensions⟩ := v
  obtain ⟨rfl, t, ht, hrange⟩ := h
  have hmap : Variant.map wireScalar ⟨dataType, value, none⟩ =
      ⟨.ordinal t.ordinal, mapElements (wireScalar t) value, none⟩ := by
    simp only [Variant.map, ht]
  rw [hmap]
  exact encodes_variantBody_of ht fun x hx => encodes_scalar (hrange x hx)

theorem encodes_emptyVariant : Encodes (writeVariant host none) readVariant none := by
  have h : Encodes (cat [putUInt 1 0]) readVariant (none : Option Variant) := by
    refine Encodes.cons (encodes_putUInt 1 0) ?_
    exact Encodes.nil none
  constructor
  intro bs hbs
  exact h.reads bs (cat_cons_eq_ok.mpr ⟨bs, [], hbs, rfl, (List.append_nil bs).symm⟩)

/-! ## DataValues -/

/-- An absent member, or a value that satisfies `P`. -/
def Optional (P : JsValue → Prop) (v : JsValue) : Prop := v = .undefined ∨ P v

def IsDate (v : JsValue) : Prop := ∃ ms, v = .date (some ms)

structure DataValueInRange (dv : DataValue) : Prop where
  value : ∀ v, dv.value.join = some v → VariantInRange v
  statusCode : Optional (IntegerIn 0 (256 ^ 4 - 1)) dv.statusCode
  sourceTimestamp : Optional IsDate dv.sourceTimestamp
  serverTimestamp : Optional IsDate dv.serverTimestamp
  sourcePicoseconds : Optional (IntegerIn 0 (256 ^ 2 - 1)) dv.sourcePicoseconds
  serverPicoseconds : Optional (IntegerIn 0 (256 ^ 2 - 1)) dv.serverPicoseconds

/-- A null Variant is left out. -/
def DataValue.map (f : BuiltInType → JsValue → JsValue) (dv : DataValue) : DataValue where
  value := dv.value.join.map fun v => some (Variant.map f v)
  statusCode := unsignZero dv.statusCode
  sourceTimestamp := dv.sourceTimestamp
  serverTimestamp := dv.serverTimestamp
  sourcePicoseconds := unsignZero dv.sourcePicoseconds
  serverPicoseconds := unsignZero dv.serverPicoseconds

def DataValue.scalars (dv : DataValue) : List (BuiltInType × JsValue) :=
  match dv.value.join with
  | some v => Variant.scalars v
  | none => []

theorem DataValue.map_eq_iff {f g : BuiltInType → JsValue → JsValue} {dv : DataValue} :
    DataValue.map f dv = DataValue.map g dv ↔
      ∀ p ∈ DataValue.scalars dv, f p.1 p.2 = g p.1 p.2 := by
  unfold DataValue.map DataValue.scalars
  cases dv.value.join with
  | none => simp
  | some v => simpa using Variant.map_eq_iff

/-- An optional member is present exactly when it is not `undefined`. -/
theorem encodes_member {w : JsValue → Writer} {r : Reader JsValue} {P : JsValue → Prop}
    {present : Bool} {v : JsValue} (norm : JsValue → JsValue)
    (hpresent : present = decide (v ≠ .undefined)) (hnorm : norm .undefined = .undefined) (hv : Optional P v)
    (hw : P v → Encodes (w v) r (norm v)) :
    Encodes (opt present (w v)) (readMember present r) (norm v) := by
  subst hpresent
  by_cases hu : v = .undefined
  · subst hu
    rw [hnorm]
    exact Encodes.ok (Reads.pure JsValue.undefined)
  · have hp := hw (hv.resolve_left hu)
    simpa [opt, readMember, hu] using hp

theorem unsignZero_undefined : unsignZero .undefined = .undefined := by decide

theorem encodes_optionalUnsigned {k : Nat} {v : JsValue} {present : Bool} (hk : k ≤ 4)
    (hpresent : present = decide (v ≠ .undefined))
    (h : Optional (IntegerIn 0 (256 ^ k - 1)) v) :
    Encodes (opt present (writeUInt host k v)) (readMember present (readNumber k))
      (unsignZero v) :=
  encodes_member unsignZero hpresent unsignZero_undefined h (encodes_unsigned hk)

theorem truthy_optionalDate {v : JsValue} (h : Optional IsDate v) :
    v.truthy = decide (v ≠ .undefined) := by
  rcases h with rfl | ⟨ms, rfl⟩ <;> rfl

theorem encodes_optionalDate {v : JsValue} {present : Bool} (hpresent : present = v.truthy)
    (h : Optional IsDate v) :
    Encodes (opt present (writeDateTime v)) (readMember present readDateTime) v := by
  refine encodes_member id (hpresent.trans (truthy_optionalDate h)) rfl h ?_
  rintro ⟨ms, rfl⟩
  exact encodes_dateTime ms

theorem testBit_dataValueMask (dv : DataValue) :
    (dataValueMask dv).testBit 0 = dv.value.join.isSome ∧
    (dataValueMask dv).testBit 1 = decide (dv.statusCode ≠ .undefined) ∧
    (dataValueMask dv).testBit 2 = dv.sourceTimestamp.truthy ∧
    (dataValueMask dv).testBit 3 = dv.serverTimestamp.truthy ∧
    (dataValueMask dv).testBit 4 = decide (dv.sourcePicoseconds ≠ .undefined) ∧
    (dataValueMask dv).testBit 5 = decide (dv.serverPicoseconds ≠ .undefined) := by
  simp only [dataValueMask, Nat.testBit_or, Flags.testBit_bit]
  simp

/-- The members around the value are in range. -/
structure StampsInRange (dv : DataValue) : Prop where
  statusCode : Optional (IntegerIn 0 (256 ^ 4 - 1)) dv.statusCode
  sourceTimestamp : Optional IsDate dv.sourceTimestamp
  serverTimestamp : Optional IsDate dv.serverTimestamp
  sourcePicoseconds : Optional (IntegerIn 0 (256 ^ 2 - 1)) dv.sourcePicoseconds
  serverPicoseconds : Optional (IntegerIn 0 (256 ^ 2 - 1)) dv.serverPicoseconds

theorem DataValueInRange.stamps {dv : DataValue} (h : DataValueInRange dv) : StampsInRange dv :=
  ⟨h.statusCode, h.sourceTimestamp, h.serverTimestamp, h.sourcePicoseconds, h.serverPicoseconds⟩

/-- The DataValue a decoder returns around the Variant it read. -/
def decodedDataValue (dv : DataValue) (g : Variant → Variant) : DataValue where
  value := dv.value.join.map fun v => some (g v)
  statusCode := unsignZero dv.statusCode
  sourceTimestamp := dv.sourceTimestamp
  serverTimestamp := dv.serverTimestamp
  sourcePicoseconds := unsignZero dv.sourcePicoseconds
  serverPicoseconds := unsignZero dv.serverPicoseconds

/-- A DataValue is read back once its Variant is. -/
theorem encodes_dataValueBody_of {dv : DataValue} {g : Variant → Variant} (h : StampsInRange dv)
    (hvalue : ∀ v, dv.value.join = some v →
      Encodes (writeVariantBody host v.dataType v.value) readVariant (some (g v))) :
    Encodes (writeDataValueBody host dv) readDataValue (decodedDataValue dv g) := by
  obtain ⟨bit0, bit1, bit2, bit3, bit4, bit5⟩ := testBit_dataValueMask dv
  refine Encodes.cons (encodes_putUInt 1 _) ?_
  refine Encodes.cons (a := dv.value.join.map fun v => some (g v)) ?_ ?_
  · rw [bit0]
    cases hv : dv.value.join with
    | none => exact Encodes.ok (Reads.pure none)
    | some v => exact Encodes.map some (hvalue v hv)
  refine Encodes.cons (encodes_member unsignZero bit1 unsignZero_undefined h.statusCode
    encodes_statusCode) ?_
  refine Encodes.cons (encodes_optionalDate bit2 h.sourceTimestamp) ?_
  refine Encodes.cons (encodes_optionalDate bit3 h.serverTimestamp) ?_
  refine Encodes.cons (encodes_optionalUnsigned (by omega) bit4 h.sourcePicoseconds) ?_
  exact Encodes.map _ (Encodes.single
    (encodes_optionalUnsigned (by omega) bit5 h.serverPicoseconds))

theorem encodes_dataValueBody {dv : DataValue} (h : DataValueInRange dv) :
    Encodes (writeDataValueBody host dv) readDataValue (DataValue.map wireScalar dv) :=
  encodes_dataValueBody_of h.stamps fun v hv => encodes_variantBody (h.value v hv)

/-! ## Fields -/

/-- The field of a DataSetMessage whose encoding is known. -/
def FieldInRange (encoding : FieldEncoding) (field : Field) : Prop :=
  match encoding, field with
  | .rawdata, _ => False
  | _, .null => True
  | .variant, .variant v => VariantInRange v
  | .datavalue, .dataValue dv => DataValueInRange dv
  | _, _ => False

/-- A null DataValue comes back as a DataValue without members. -/
def Field.map (f : BuiltInType → JsValue → JsValue) (encoding : FieldEncoding) : Field → Field
  | .null => if encoding = .datavalue then .dataValue {} else .null
  | .variant v => .variant (Variant.map f v)
  | .dataValue dv => .dataValue (DataValue.map f dv)

def Field.scalars : Field → List (BuiltInType × JsValue)
  | .null => []
  | .variant v => Variant.scalars v
  | .dataValue dv => DataValue.scalars dv

theorem Field.map_eq_iff {f g : BuiltInType → JsValue → JsValue} {encoding : FieldEncoding}
    {field : Field} : Field.map f encoding field = Field.map g encoding field ↔
      ∀ p ∈ Field.scalars field, f p.1 p.2 = g p.1 p.2 := by
  cases field with
  | null => simp [Field.map, Field.scalars]
  | variant v => simpa [Field.map, Field.scalars] using Variant.map_eq_iff
  | dataValue dv => simpa [Field.map, Field.scalars] using DataValue.map_eq_iff

def readField (encoding : FieldEncoding) : Reader Field :=
  match encoding with
  | .variant => readVariantField
  | .datavalue => readDataValueField
  | .rawdata => ByteCodec.Reader.fail fun _ => .rawdataDecodeRequiresMetadata

theorem encodes_field {encoding : FieldEncoding} {name : JsString} {field : Field}
    (h : FieldInRange encoding field) :
    Encodes (writeField host encoding name field) (readField encoding)
      (Field.map wireScalar encoding field) := by
  cases encoding with
  | rawdata => cases h
  | variant =>
      cases field with
      | null => exact Encodes.map Field.ofVariant (@encodes_emptyVariant host)
      | variant v => exact Encodes.map Field.ofVariant (encodes_variantBody h)
      | dataValue dv => cases h
  | datavalue =>
      cases field with
      | null =>
          have hnull := @encodes_dataValueBody host {}
            ⟨(fun _ hv => by cases hv), Or.inl rfl, Or.inl rfl, Or.inl rfl, Or.inl rfl, Or.inl rfl⟩
          exact Encodes.map Field.dataValue hnull
      | variant v => cases h
      | dataValue dv => exact Encodes.map Field.dataValue (encodes_dataValueBody h)

end OpcUaSuite.Uadp
