import OpcUaSuite.Lib.FloatWidening
import OpcUaSuite.Uadp.RoundTrip
import OpcUaSuite.Uadp.ScalarFaithful

/-!
# What is read is written again

Whatever bytes a DataSetMessage was decoded from, encoding it again and decoding the result gives
it back in a canonical form, which drops what the encoder does not write: array dimensions,
picoseconds without a timestamp and null Variants in DataValues.
-/

namespace OpcUaSuite.Uadp

open Js ByteCodec BinaryFloat PubSub

/-! ## Numbers and texts -/

/-- A number read from `k` bytes. -/
def NumberOf (k : Nat) (v : JsValue) : Prop := ∃ m : Nat, m < 256 ^ k ∧ v = .nat m

theorem integerIn_numberOf {k : Nat} {v : JsValue} (h : NumberOf k v) :
    IntegerIn 0 (256 ^ k - 1) v := by
  obtain ⟨m, hm, rfl⟩ := h
  have hcast : ((256 ^ k : Nat) : Int) = 256 ^ k := by push_cast; rfl
  exact ⟨m, Int.natCast_nonneg m, by omega, Or.inl rfl⟩

theorem numberOf_ne_null {k : Nat} {v : JsValue} (h : NumberOf k v) : v ≠ .null := by
  obtain ⟨m, -, rfl⟩ := h
  intro h
  cases h

theorem unsignZero_ofInt {i : Int} (h : i.natAbs < 2 ^ 53) :
    unsignZero (.num (Double.ofInt i)) = .num (Double.ofInt i) :=
  unsignZero_num h (Or.inl rfl)

theorem unsignZero_numberOf {k : Nat} (hk : k ≤ 4) {v : JsValue} (h : NumberOf k v) :
    unsignZero v = v := by
  obtain ⟨m, hm, rfl⟩ := h
  have hpow : 256 ^ k ≤ 256 ^ 4 := Nat.pow_le_pow_right (by omega) hk
  exact unsignZero_ofInt (by omega)

theorem fround_convert (s : Single) : Double.fround (Value.convert s) = Value.convert s :=
  congrArg Value.convert (Value.convert_convert (G := binary64) (by decide) (by decide) s)

theorem upperUnit_upperUnit (u : UInt16) : upperUnit (upperUnit u) = upperUnit u := by
  by_cases hlower : 97 ≤ u.toNat ∧ u.toNat ≤ 122
  · have hnat : (UInt16.ofNat (u.toNat - 32)).toNat = u.toNat - 32 := Utf.toNat_unit (by omega)
    rw [show upperUnit u = UInt16.ofNat (u.toNat - 32) from if_pos hlower]
    exact if_neg (by rw [hnat]; omega)
  · rw [show upperUnit u = u from if_neg hlower]
    exact if_neg hlower

theorem toUpper_toUpper (s : JsString) : toUpper (toUpper s) = toUpper s := by
  rw [toUpper, toUpper, List.map_map]
  exact List.map_congr_left fun u _ => upperUnit_upperUnit u

theorem ofLe_lt (bs : Bytes) : ofLe bs < 256 ^ bs.length := by
  induction bs with
  | nil => exact Nat.one_pos
  | cons b bs ih =>
      have hb := b.toNat_lt
      rw [ofLe, List.length_cons, pow_succ]
      omega

variable {n : Nat} {host : Host}

theorem yields_uint (k : Nat) : YieldsWithin n (readUInt k) (· < 256 ^ k) :=
  YieldsWithin.map ((YieldsWithin.take _ k).mono fun bs hbs => hbs.1 ▸ ofLe_lt bs)

theorem yields_int (k : Nat) :
    YieldsWithin n (readInt k) fun i => ∃ m < 256 ^ k, i = ofTwos k m :=
  YieldsWithin.map ((yields_uint k).mono fun m hm => ⟨m, hm, rfl⟩)

theorem yields_number (k : Nat) : YieldsWithin n (readNumber k) (NumberOf k) :=
  YieldsWithin.map ((yields_uint k).mono fun m hm => ⟨m, hm, rfl⟩)

theorem yields_dateTime : YieldsWithin n readDateTime IsDate :=
  YieldsWithin.map ((yields_uint 8).mono fun _ _ => ⟨_, rfl⟩)

/-- A text of a buffer this short cannot grow to the length that stands for null. -/
theorem textInRange_decode {bs : Bytes} (hn : 3 * n < nullLength) (h : bs.length ≤ n) :
    TextInRange (Utf.decode bs) := by
  have hlength := Utf.length_encode_decode bs
  exact ⟨Utf.wellFormed_decode bs, by omega⟩

theorem yields_string (hn : 3 * n < nullLength) :
    YieldsWithin n readString fun v => v = .null ∨ IsText v := by
  refine YieldsWithin.bind (yields_uint 4) fun len _ => ?_
  split
  next => exact YieldsWithin.pure (Or.inl rfl)
  next =>
    refine YieldsWithin.map ((YieldsWithin.take _ len).mono fun bs hbs => Or.inr ?_)
    exact ⟨_, rfl, textInRange_decode hn (hbs.1 ▸ hbs.2)⟩

theorem yields_guid : YieldsWithin n readGuid fun v =>
    ∃ s, v = .str s ∧ isGuid s = true ∧ toUpper s = s := by
  refine YieldsWithin.bind (yields_uint 4) fun d1 _ => ?_
  refine YieldsWithin.bind (yields_uint 2) fun d2 _ => ?_
  refine YieldsWithin.bind (yields_uint 2) fun d3 _ => ?_
  refine YieldsWithin.bind (YieldsWithin.take _ 2) fun d4a ha => ?_
  refine YieldsWithin.map ((YieldsWithin.take _ 6).mono fun d4b hb => ⟨_, rfl, ?_, ?_⟩)
  · have htail : (d4a ++ d4b).length = 8 := by rw [List.length_append, ha.1, hb.1]
    have hguid := isGuid_digits d1 d2 d3 htail
    rw [List.take_left' ha.1, List.drop_left' ha.1] at hguid
    rw [isGuid_toUpper]
    exact hguid
  · exact toUpper_toUpper _

/-! ## Scalars -/

/-- A scalar of a type that is read back as it is. -/
structure Stable (t : BuiltInType) (v : JsValue) : Prop where
  inRange : InRange t v
  same : wireScalar t v = v

theorem Stable.of_normal {t : BuiltInType} {v : JsValue} (hrange : ScalarInRange t v)
    (hne : v ≠ .null) (hnormal : normalScalar t v = v) : Stable t v :=
  ⟨Or.inr hrange, by rw [wireScalar, if_neg hne, hnormal]⟩

/-- What is read as a scalar is written as it is. -/
theorem yields_scalar (hn : 3 * n < nullLength) (t : BuiltInType) :
    YieldsWithin n (readScalar t) (Stable t) := by
  have hunsigned : ∀ k ≤ 4, YieldsWithin n (readNumber k) fun v =>
      IntegerIn 0 (256 ^ k - 1) v ∧ v ≠ .null ∧ unsignZero v = v := fun k hk =>
    (yields_number k).mono fun v hv =>
      ⟨integerIn_numberOf hv, numberOf_ne_null hv, unsignZero_numberOf hk hv⟩
  have hsigned : ∀ k ≤ 4, YieldsWithin n (readSigned k) fun v =>
      ∃ i : Int, -(256 ^ k : Nat) ≤ 2 * i ∧ 2 * i < (256 ^ k : Nat) ∧ v = .num (Double.ofInt i) ∧
        unsignZero v = v := fun k hk => by
    refine YieldsWithin.map ((yields_int k).mono ?_)
    rintro i ⟨m, hm, rfl⟩
    have hpow : 256 ^ k ≤ 256 ^ 4 := Nat.pow_le_pow_right (by omega) hk
    refine ⟨ofTwos k m, ?_, ?_, rfl, unsignZero_ofInt ?_⟩
    · unfold ofTwos
      split <;> omega
    · unfold ofTwos
      split <;> omega
    · unfold ofTwos
      split <;> omega
  cases t with
  | Boolean =>
      refine YieldsWithin.map ((yields_uint 1).mono fun m _ => ?_)
      exact Stable.of_normal ⟨_, rfl⟩ (by intro h; cases h) rfl
  | Byte => exact (hunsigned 1 (by omega)).mono fun v hv => Stable.of_normal hv.1 hv.2.1 hv.2.2
  | UInt16 => exact (hunsigned 2 (by omega)).mono fun v hv => Stable.of_normal hv.1 hv.2.1 hv.2.2
  | UInt32 => exact (hunsigned 4 (by omega)).mono fun v hv => Stable.of_normal hv.1 hv.2.1 hv.2.2
  | StatusCode => exact (hunsigned 4 (by omega)).mono fun v hv => Stable.of_normal hv.1 hv.2.1 hv.2.2
  | SByte =>
      refine (hsigned 1 (by omega)).mono ?_
      rintro v ⟨i, hlo, hhi, rfl, hsame⟩
      exact Stable.of_normal ⟨i, by omega, by omega, Or.inl rfl⟩ (by intro h; cases h) hsame
  | Int16 =>
      refine (hsigned 2 (by omega)).mono ?_
      rintro v ⟨i, hlo, hhi, rfl, hsame⟩
      exact Stable.of_normal ⟨i, by omega, by omega, Or.inl rfl⟩ (by intro h; cases h) hsame
  | Int32 =>
      refine (hsigned 4 (by omega)).mono ?_
      rintro v ⟨i, hlo, hhi, rfl, hsame⟩
      exact Stable.of_normal ⟨i, by omega, by omega, Or.inl rfl⟩ (by intro h; cases h) hsame
  | Int64 =>
      refine YieldsWithin.map ((yields_int 8).mono ?_)
      rintro i ⟨m, hm, rfl⟩
      refine Stable.of_normal ⟨ofTwos 8 m, rfl, ?_, ?_⟩ (by intro h; cases h) rfl
      · unfold ofTwos
        split <;> omega
      · unfold ofTwos
        split <;> omega
  | UInt64 =>
      refine YieldsWithin.map ((yields_uint 8).mono fun m hm => ?_)
      exact Stable.of_normal ⟨m, rfl, by omega, by omega⟩ (by intro h; cases h) rfl
  | Float =>
      refine YieldsWithin.map ((yields_uint 4).mono fun m _ => ?_)
      exact Stable.of_normal ⟨_, rfl⟩ (by intro h; cases h) (congrArg JsValue.num (fround_convert _))
  | Double =>
      refine YieldsWithin.map ((yields_uint 8).mono fun m _ => ?_)
      exact Stable.of_normal ⟨_, rfl⟩ (by intro h; cases h) rfl
  | String =>
      refine (yields_string hn).mono ?_
      rintro v (rfl | ⟨s, rfl, hs⟩)
      · exact ⟨Or.inl rfl, rfl⟩
      · exact Stable.of_normal ⟨s, rfl, hs⟩ (by intro h; cases h) rfl
  | DateTime =>
      refine yields_dateTime.mono ?_
      rintro v ⟨ms, rfl⟩
      exact Stable.of_normal ⟨ms, rfl⟩ (by intro h; cases h) rfl
  | Guid =>
      refine yields_guid.mono ?_
      rintro v ⟨s, rfl, hguid, hupper⟩
      exact Stable.of_normal ⟨s, rfl, hguid⟩ (by intro h; cases h) (congrArg JsValue.str hupper)
  | ByteString =>
      refine YieldsWithin.bind (yields_uint 4) fun len hlen => ?_
      split
      next => exact YieldsWithin.pure ⟨Or.inl rfl, rfl⟩
      next hne =>
        refine YieldsWithin.map ((YieldsWithin.take _ len).mono fun bs hbs => ?_)
        refine Stable.of_normal ⟨bs, rfl, ?_⟩ (by intro h; cases h) rfl
        omega

/-! ## Variants -/

/-- A Variant as it is read: a known type has its scalars, an unknown one an empty array only. -/
structure ReadVariant (v : Variant) : Prop where
  exists_ordinal : ∃ n < 64, v.dataType = .ordinal n ∧
    ((∃ t, BuiltInType.ofOrdinal? n = some t ∧ ∀ x ∈ elements v.value, Stable t x) ∨
      v.value = .array [])

theorem Stable.elements {t : BuiltInType} {v : JsValue} (h : Stable t v) : elements v = [v] := by
  cases v with
  | array items =>
      rcases h.inRange with hnull | hrange
      · cases hnull
      · cases t <;> simp [ScalarInRange, IntegerIn, bigIntOf?] at hrange
  | _ => rfl

theorem yields_element (hn : 3 * n < nullLength) (ordinal : Nat) :
    YieldsWithin n (readVariantScalar ordinal) fun v =>
      ∃ t, BuiltInType.ofOrdinal? ordinal = some t ∧ Stable t v := by
  unfold readVariantScalar
  split
  next t ht => exact (yields_scalar hn t).mono fun v hv => ⟨t, ht, hv⟩
  next => exact YieldsWithin.fail _

theorem yields_count : YieldsWithin n readCount fun _ => True := by
  exact YieldsWithin.bind (yields_int 4) fun i _ => YieldsWithin.pure trivial

/-- An array of an unknown type is read only when it is empty. -/
theorem yields_variantValue (hn : 3 * n < nullLength) (ordinal : Nat) (array : Bool) :
    YieldsWithin n (readVariantValue ordinal array) fun v =>
      (∃ t, BuiltInType.ofOrdinal? ordinal = some t ∧ ∀ x ∈ elements v, Stable t x) ∨
        v = .array [] := by
  cases array with
  | false =>
      refine (yields_element hn ordinal).mono ?_
      rintro v ⟨t, ht, hv⟩
      refine Or.inl ⟨t, ht, fun x hx => ?_⟩
      rw [hv.elements] at hx
      obtain rfl := List.mem_singleton.mp hx
      exact hv
  | true =>
      refine YieldsWithin.bind yields_count fun len _ =>
        YieldsWithin.map (((yields_element hn ordinal).many len).mono ?_)
      rintro items ⟨-, hitems⟩
      cases items with
      | nil => exact Or.inr rfl
      | cons x items =>
          obtain ⟨t, ht, -⟩ := hitems x List.mem_cons_self
          refine Or.inl ⟨t, ht, fun y hy => ?_⟩
          obtain ⟨t', ht', hy'⟩ := hitems y hy
          rw [ht] at ht'
          cases ht'
          exact hy'

theorem yields_dimensions (hasDims : Bool) :
    YieldsWithin n (readDimensions hasDims) fun _ => True := by
  cases hasDims with
  | false => exact YieldsWithin.pure trivial
  | true =>
      exact YieldsWithin.bind yields_count fun count _ =>
        YieldsWithin.map (((yields_int 4).many count).mono fun _ _ => trivial)

theorem yields_variant (hn : 3 * n < nullLength) :
    YieldsWithin n readVariant fun v => ∀ w, v = some w → ReadVariant w := by
  refine YieldsWithin.bind (yields_uint 1) fun encodingByte _ => ?_
  split
  next =>
    refine YieldsWithin.pure ?_
    intro w hw
    cases hw
  next =>
    refine YieldsWithin.bind (yields_variantValue hn _ _) fun value hvalue => ?_
    refine YieldsWithin.map ((yields_dimensions _).mono fun dimensions _ => ?_)
    rintro w ⟨⟩
    exact ⟨_, Nat.mod_lt _ (by decide), rfl, hvalue⟩

/-- The dimensions of an array are not written. -/
def Variant.canonical (v : Variant) : Variant := { v with dimensions := none }

/-- The encoding byte tells any ordinal from the array bit. -/
theorem arrayByte_fields : ∀ ordinal < 64,
    (ordinal ||| Flags.bit 6 true) ≠ 0 ∧ (ordinal ||| Flags.bit 6 true) % 64 = ordinal ∧
    (ordinal ||| Flags.bit 6 true).testBit 6 = true ∧
    (ordinal ||| Flags.bit 6 true).testBit 7 = false := by
  decide

theorem encodes_emptyArray {ordinal : Nat} (h : ordinal < 64) :
    Encodes (writeVariantBody host (.ordinal ordinal) (.array [])) readVariant
      (some ⟨.ordinal ordinal, .array [], none⟩) := by
  cases ordinal with
  | zero => exact Encodes.error _
  | succ k =>
      obtain ⟨hne, hmod, hbit, hdims⟩ := arrayByte_fields (k + 1) h
      have hbits : (BuiltIn.number (k + 1)).bits = k + 1 := Nat.mod_eq_of_lt h
      simp only [writeVariantBody, builtInOf, hbits, isArray]
      refine Encodes.cons (encodes_putUInt 1 _) ?_
      rw [if_neg hne]
      simp only [hmod, hbit, hdims]
      refine Encodes.map (fun value => some (Variant.mk (.ordinal (k + 1)) value none))
        (Encodes.single ?_)
      refine Encodes.cons (encodes_length 0) ?_
      exact Encodes.map JsValue.array (Encodes.single (Encodes.nil []))

/-- A Variant that was read is read back without its dimensions. -/
theorem encodes_readVariant {v : Variant} (h : ReadVariant v) :
    Encodes (writeVariantBody host v.dataType v.value) readVariant (some (Variant.canonical v)) := by
  obtain ⟨ordinal, hlt, htype, ⟨t, ht, hstable⟩ | hempty⟩ := h.exists_ordinal
  · have hordinal := ofOrdinal?_eq_some ht
    have htypeOf : typeOf? v.dataType = some t := by
      rw [htype, hordinal]
      cases t <;> rfl
    have hsame : mapElements (wireScalar t) v.value = v.value := by
      have hmap := (mapElements_eq_iff (g := id)).mpr fun x hx => (hstable x hx).same
      rw [hmap]
      cases hvalue : v.value <;> simp [mapElements]
    have hread : Encodes (writeVariantBody host v.dataType v.value) readVariant
        (some ⟨.ordinal t.ordinal, mapElements (wireScalar t) v.value, none⟩) :=
      encodes_variantBody_of htypeOf fun x hx => encodes_scalar (hstable x hx).inRange
    rw [hsame, ← hordinal, ← htype] at hread
    exact hread
  · rw [Variant.canonical, htype, hempty]
    exact encodes_emptyArray hlt

/-! ## DataValues and fields -/

/-- The members of a DataValue as they are read. -/
structure ReadDataValue (dv : DataValue) : Prop where
  value : ∀ v, dv.value.join = some v → ReadVariant v
  statusCode : Optional (NumberOf 4) dv.statusCode
  sourceTimestamp : Optional IsDate dv.sourceTimestamp
  serverTimestamp : Optional IsDate dv.serverTimestamp
  sourcePicoseconds : Optional (NumberOf 2) dv.sourcePicoseconds
  serverPicoseconds : Optional (NumberOf 2) dv.serverPicoseconds

theorem yields_member {P : JsValue → Prop} {r : Reader JsValue} (present : Bool)
    (h : YieldsWithin n r P) : YieldsWithin n (readMember present r) (Optional P) := by
  cases present with
  | false => exact YieldsWithin.pure (Or.inl rfl)
  | true => exact h.mono fun _ => Or.inr

theorem yields_memberValue (hn : 3 * n < nullLength) (present : Bool) :
    YieldsWithin n (readMemberValue present) fun value =>
      ∀ v, value.join = some v → ReadVariant v := by
  cases present with
  | false =>
      refine YieldsWithin.pure ?_
      intro v hv
      cases hv
  | true => exact YieldsWithin.map (yields_variant hn)

theorem yields_dataValue (hn : 3 * n < nullLength) :
    YieldsWithin n readDataValue ReadDataValue := by
  refine YieldsWithin.bind (yields_uint 1) fun mask _ => ?_
  refine YieldsWithin.bind (yields_memberValue hn _) fun value hvalue => ?_
  refine YieldsWithin.bind (yields_member _ (yields_number 4)) fun statusCode hstatus => ?_
  refine YieldsWithin.bind (yields_member _ yields_dateTime) fun source hsource => ?_
  refine YieldsWithin.bind (yields_member _ yields_dateTime) fun server hserver => ?_
  refine YieldsWithin.bind (yields_member _ (yields_number 2)) fun sourcePico hsourcePico => ?_
  exact YieldsWithin.map ((yields_member _ (yields_number 2)).mono fun serverPico hserverPico =>
    ⟨hvalue, hstatus, hsource, hserver, hsourcePico, hserverPico⟩)

theorem integerIn_optional {k : Nat} {v : JsValue} (h : Optional (NumberOf k) v) :
    Optional (IntegerIn 0 (256 ^ k - 1)) v :=
  h.imp_right integerIn_numberOf

theorem unsignZero_optional {k : Nat} (hk : k ≤ 4) {v : JsValue} (h : Optional (NumberOf k) v) :
    unsignZero v = v := by
  rcases h with rfl | h
  · exact unsignZero_undefined
  · exact unsignZero_numberOf hk h

/-- A null Variant is left out. -/
def DataValue.canonical (dv : DataValue) : DataValue :=
  { dv with value := dv.value.join.map fun v => some (Variant.canonical v) }

theorem encodes_readDataValue {dv : DataValue} (h : ReadDataValue dv) :
    Encodes (writeDataValueBody host dv) readDataValue (DataValue.canonical dv) := by
  have hstamps : StampsInRange dv := ⟨integerIn_optional h.statusCode, h.sourceTimestamp,
    h.serverTimestamp, integerIn_optional h.sourcePicoseconds,
    integerIn_optional h.serverPicoseconds⟩
  have hread : Encodes (writeDataValueBody host dv) readDataValue
      (decodedDataValue dv Variant.canonical) :=
    encodes_dataValueBody_of hstamps fun v hv => encodes_readVariant (h.value v hv)
  have hsame : decodedDataValue dv Variant.canonical = DataValue.canonical dv := by
    rw [decodedDataValue, unsignZero_optional (by omega) h.statusCode,
      unsignZero_optional (by omega) h.sourcePicoseconds,
      unsignZero_optional (by omega) h.serverPicoseconds, DataValue.canonical]
  rwa [hsame] at hread

theorem join_canonical (dv : DataValue) :
    (DataValue.canonical dv).value.join = dv.value.join.map Variant.canonical := by
  rw [DataValue.canonical]
  cases dv.value.join <;> rfl

theorem writeDataValueBody_canonical (dv : DataValue) :
    writeDataValueBody host (DataValue.canonical dv) = writeDataValueBody host dv := by
  have hmask : dataValueMask (DataValue.canonical dv) = dataValueMask dv := by
    rw [dataValueMask, join_canonical, Option.isSome_map]
    rfl
  have hvalue : writeVariant host (DataValue.canonical dv).value.join =
      writeVariant host dv.value.join := by
    rw [join_canonical]
    cases dv.value.join <;> rfl
  rw [writeDataValueBody, hmask, hvalue]
  rfl

/-- A field as it is read in its encoding. -/
def ReadField (encoding : FieldEncoding) (field : Field) : Prop :=
  match encoding, field with
  | .variant, .null => True
  | .variant, .variant v => ReadVariant v
  | .datavalue, .dataValue dv => ReadDataValue dv
  | _, _ => False

theorem yields_field (hn : 3 * n < nullLength) (encoding : FieldEncoding) :
    YieldsWithin n (readField encoding) (ReadField encoding) := by
  cases encoding with
  | rawdata => exact YieldsWithin.fail _
  | datavalue => exact YieldsWithin.map (yields_dataValue hn)
  | variant =>
      refine YieldsWithin.map ((yields_variant hn).mono ?_)
      rintro (_ | v) hv
      · trivial
      · exact hv v rfl

def Field.canonical : Field → Field
  | .null => .null
  | .variant v => .variant (Variant.canonical v)
  | .dataValue dv => .dataValue (DataValue.canonical dv)

theorem encodes_readField {encoding : FieldEncoding} {field : Field}
    (h : ReadField encoding field) (name : JsString) :
    Encodes (writeField host encoding name field) (readField encoding)
      (Field.canonical field) := by
  cases encoding with
  | rawdata => cases field <;> cases h
  | variant =>
      cases field with
      | null => exact Encodes.map Field.ofVariant (@encodes_emptyVariant host)
      | variant v => exact Encodes.map Field.ofVariant (encodes_readVariant h)
      | dataValue dv => cases h
  | datavalue =>
      cases field with
      | null => cases h
      | variant v => cases h
      | dataValue dv => exact Encodes.map Field.dataValue (encodes_readDataValue h)

theorem writeField_canonical (encoding : FieldEncoding) (name : JsString) (field : Field) :
    writeField host encoding name (Field.canonical field) =
      writeField host encoding name field := by
  cases field with
  | null => rfl
  | variant v => cases encoding <;> rfl
  | dataValue dv =>
      cases encoding with
      | datavalue => exact writeDataValueBody_canonical dv
      | _ => rfl

/-! ## DataSetMessages -/

/-- The named fields of one encoding, as an object keeps them. -/
structure ReadFields (encoding : FieldEncoding) (fields : List (JsString × Field)) : Prop where
  kept : Props.ofEntries fields = fields
  names : ∀ e ∈ fields, Utf.wellFormed e.1 = true
  fields : ∀ e ∈ fields, ReadField encoding e.2

theorem yields_fields (hn : 3 * n < nullLength) (encoding : FieldEncoding) :
    YieldsWithin n (readFields encoding) (ReadFields encoding) := by
  have hnamed : YieldsWithin n (readNamedField encoding) fun e =>
      Utf.wellFormed e.1 = true ∧ ReadField encoding e.2 := by
    refine YieldsWithin.bind (yields_uint 2) fun nameLen _ => ?_
    refine YieldsWithin.bind (YieldsWithin.take _ nameLen) fun name _ => ?_
    exact YieldsWithin.map ((yields_field hn encoding).mono fun field hfield =>
      ⟨Utf.wellFormed_decode name, hfield⟩)
  refine YieldsWithin.bind (yields_uint 2) fun count _ => ?_
  refine YieldsWithin.map ((hnamed.many count).mono ?_)
  rintro entries ⟨-, hentries⟩
  -- what holds of every entry holds of the last one under each name
  have hkept : ∀ e ∈ Props.ofEntries entries,
      Utf.wellFormed e.1 = true ∧ ReadField encoding e.2 := by
    refine (Props.forall_mem_ofEntries
      (P := fun name field => Utf.wellFormed name = true ∧ ReadField encoding field)).mpr ?_
    intro name _ field hlast
    exact hentries (name, field) (Props.last?_eq_some hlast)
  exact ⟨Props.ofEntries_ofEntries entries, fun e he => (hkept e he).1, fun e he => (hkept e he).2⟩

/-- Picoseconds go with a timestamp. -/
def timedPicoseconds (timestamp picoseconds : JsValue) : JsValue :=
  if timestamp.truthy then picoseconds else .undefined

def canonicalFields (fields : List (JsString × Field)) : List (JsString × Field) :=
  fields.map fun e => (e.1, Field.canonical e.2)

def DataSetMessage.canonical (dsm : DataSetMessage) : DataSetMessage :=
  { dsm with
    picoseconds := timedPicoseconds dsm.timestamp dsm.picoseconds
    fields := dsm.fields.map canonicalFields }

theorem ofEntries_canonicalFields {fields : List (JsString × Field)}
    (h : Props.ofEntries fields = fields) :
    Props.ofEntries (canonicalFields fields) = canonicalFields fields := by
  have hkeys : InsertionMap.keys (canonicalFields fields) = InsertionMap.keys fields := by
    rw [canonicalFields, InsertionMap.keys, List.map_map]
    rfl
  refine Props.ofEntries_of_ordered ?_ ?_
  · change protoKey ∉ InsertionMap.keys (canonicalFields fields)
    rw [hkeys, ← h]
    exact InsertionMap.get?_eq_none_iff.mp (Props.get?_protoKey_ofEntries fields)
  · change Props.Ordered (InsertionMap.keys (canonicalFields fields))
    rw [hkeys, ← h]
    exact Props.ordered_ofEntries fields

/-- A DataSetMessage as it is read. -/
structure ReadDataSetMessage (dsm : DataSetMessage) : Prop where
  shape : dsm = decodedMessage dsm dsm.fields
  fieldEncoding : fieldEncodingOf dsm ≠ .rawdata
  sequenceNumber : Optional (NumberOf 2) dsm.sequenceNumber
  status : Optional (NumberOf 2) dsm.status
  major : Optional (NumberOf 4) (majorOf dsm)
  minor : Optional (NumberOf 4) (minorOf dsm)
  timestamp : Optional IsDate dsm.timestamp
  picoseconds : Optional (NumberOf 2) dsm.picoseconds
  keepalive : messageTypeOf dsm = .keepalive → dsm.fields = none
  fields : messageTypeOf dsm ≠ .keepalive →
    ∃ fields, dsm.fields = some fields ∧ ReadFields (fieldEncodingOf dsm) fields

theorem yields_body (hn : 3 * n < nullLength) (encoding : FieldEncoding)
    (messageType : MessageType) :
    YieldsWithin n (readBody encoding messageType) fun fields =>
      (messageType = .keepalive → fields = none) ∧
      (messageType ≠ .keepalive → ∃ entries, fields = some entries ∧ ReadFields encoding entries) := by
  unfold readBody
  split
  next h =>
    have hne : messageType ≠ .keepalive := of_decide_eq_true h
    refine YieldsWithin.map ((yields_fields hn encoding).mono fun entries hentries => ?_)
    exact ⟨fun heq => absurd heq hne, fun _ => ⟨entries, rfl, hentries⟩⟩
  next h =>
    have heq : messageType = .keepalive := by simpa using h
    exact YieldsWithin.pure ⟨fun _ => rfl, fun hne => absurd heq hne⟩

theorem yields_flags (present : Bool) : YieldsWithin n (readFlags present) fun _ => True := by
  cases present with
  | false => exact YieldsWithin.pure trivial
  | true => exact (yields_uint 1).mono fun _ _ => trivial

/-- A number is there when its bit is set. -/
theorem yields_numberMember (present : Bool) (k : Nat) :
    YieldsWithin n (readMember present (readNumber k)) fun v =>
      Optional (NumberOf k) v ∧ present = decide (v ≠ .undefined) := by
  cases present with
  | false => exact YieldsWithin.pure ⟨Or.inl rfl, rfl⟩
  | true =>
      refine (yields_number k).mono ?_
      rintro v ⟨m, hm, rfl⟩
      exact ⟨Or.inr ⟨m, hm, rfl⟩, rfl⟩

/-- The parts of a version are those that were read. -/
theorem versionParts {hasMajor hasMinor : Bool} {major minor : JsValue}
    (hmajor : hasMajor = decide (major ≠ .undefined))
    (hminor : hasMinor = decide (minor ≠ .undefined)) (dsm : DataSetMessage)
    (h : dsm.configurationVersion = configurationVersionOf hasMajor hasMinor major minor) :
    majorOf dsm = major ∧ minorOf dsm = minor := by
  subst hmajor hminor
  rw [majorOf, minorOf, h, configurationVersionOf]
  split
  next => exact ⟨rfl, rfl⟩
  next hnone =>
    simp only [ne_eq, Bool.or_eq_true, decide_eq_true_eq, not_or, not_not] at hnone
    exact ⟨hnone.1.symm, hnone.2.symm⟩

theorem yields_dataSetMessage (hn : 3 * n < nullLength) :
    YieldsWithin n readDataSetMessage ReadDataSetMessage := by
  refine YieldsWithin.bind (yields_uint 1) fun flags1 _ => ?_
  refine YieldsWithin.bind (yields_flags _) fun flags2 _ => ?_
  refine YieldsWithin.bind (yields_numberMember _ 2) fun sequenceNumber hsequence => ?_
  refine YieldsWithin.bind (yields_numberMember _ 2) fun status hstatus => ?_
  refine YieldsWithin.bind (yields_numberMember _ 4) fun major hmajor => ?_
  refine YieldsWithin.bind (yields_numberMember _ 4) fun minor hminor => ?_
  refine YieldsWithin.bind (yields_member _ yields_dateTime) fun timestamp htimestamp => ?_
  refine YieldsWithin.bind (yields_numberMember _ 2) fun picoseconds hpicoseconds => ?_
  split
  next => exact YieldsWithin.fail _
  next hencoding =>
    refine YieldsWithin.map ((yields_body hn _ _).mono fun fields hfields => ?_)
    generalize hdsm : DataSetMessage.mk .undefined .undefined .undefined .undefined
      (.bool (flags1.testBit 0)) (some (fieldEncodingName (flags1 / 2 % 4)))
      (some (messageTypeName (flags2 % 16))) sequenceNumber status
      (configurationVersionOf (flags1.testBit 5) (flags1.testBit 6) major minor) timestamp
      picoseconds fields = dsm
    obtain ⟨hmajorOf, hminorOf⟩ := versionParts hmajor.2 hminor.2 dsm (by rw [← hdsm])
    subst hdsm
    constructor
    case shape =>
      rw [decodedMessage, hmajorOf, hminorOf, ← hmajor.2, ← hminor.2,
        unsignZero_optional (by omega) hsequence.1, unsignZero_optional (by omega) hstatus.1,
        unsignZero_optional (by omega) hmajor.1, unsignZero_optional (by omega) hminor.1,
        unsignZero_optional (by omega) hpicoseconds.1]
      cases flags1.testBit 0 <;> rfl
    case fieldEncoding => exact hencoding
    case sequenceNumber => exact hsequence.1
    case status => exact hstatus.1
    case major =>
      rw [hmajorOf]
      exact hmajor.1
    case minor =>
      rw [hminorOf]
      exact hminor.1
    case timestamp => exact htimestamp
    case picoseconds => exact hpicoseconds.1
    case keepalive => exact hfields.1
    case fields => exact hfields.2

theorem timedPicoseconds_cases (timestamp picoseconds : JsValue) :
    (decide (timedPicoseconds timestamp picoseconds ≠ .undefined) && timestamp.truthy) =
      (decide (picoseconds ≠ .undefined) && timestamp.truthy) := by
  rw [timedPicoseconds]
  cases timestamp.truthy with
  | false => rw [Bool.and_false, Bool.and_false]
  | true => rfl

theorem writeNamedField_canonical (encoding : FieldEncoding) (e : JsString × Field) :
    writeNamedField host encoding (e.1, Field.canonical e.2) = writeNamedField host encoding e := by
  simp only [writeNamedField, writeField_canonical]

theorem writeFields_canonical (dsm : DataSetMessage) :
    writeFields host (DataSetMessage.canonical dsm) = writeFields host dsm := by
  have hfields : (DataSetMessage.canonical dsm).fields.getD [] =
      canonicalFields (dsm.fields.getD []) := by
    cases h : dsm.fields <;> simp [DataSetMessage.canonical, h, canonicalFields]
  rw [writeFields, writeFields, hfields, canonicalFields, List.length_map, List.map_map]
  have hnamed : (writeNamedField host (fieldEncodingOf dsm) ∘ fun e => (e.1, Field.canonical e.2)) =
      writeNamedField host (fieldEncodingOf dsm) :=
    funext fun e => writeNamedField_canonical _ e
  exact congrArg (fun ws => cat [putUInt 2 _, cat ws])
    (congrArg (fun w => List.map w (dsm.fields.getD [])) hnamed)

/-- What is left out was not written. -/
theorem encodeDataSetMessage_canonical (dsm : DataSetMessage) :
    encodeDataSetMessage host (DataSetMessage.canonical dsm) = encodeDataSetMessage host dsm := by
  have hflags2 : dsFlags2 (DataSetMessage.canonical dsm) = dsFlags2 dsm := by
    unfold dsFlags2
    rw [show (DataSetMessage.canonical dsm).picoseconds =
      timedPicoseconds dsm.timestamp dsm.picoseconds from rfl,
      show (DataSetMessage.canonical dsm).timestamp = dsm.timestamp from rfl,
      timedPicoseconds_cases]
    rfl
  have hflags1 : dsFlags1 (DataSetMessage.canonical dsm) = dsFlags1 dsm := by
    unfold dsFlags1
    rw [hflags2]
    rfl
  have hpicoseconds : opt ((dsFlags2 dsm).testBit 5)
      (writeUInt16LE host (DataSetMessage.canonical dsm).picoseconds) =
        opt ((dsFlags2 dsm).testBit 5) (writeUInt16LE host dsm.picoseconds) := by
    rw [(testBit_dsFlags2 dsm).2.2]
    change opt _ (writeUInt16LE host (timedPicoseconds dsm.timestamp dsm.picoseconds)) = _
    rw [timedPicoseconds]
    cases dsm.timestamp.truthy with
    | false => rw [Bool.and_false]; rfl
    | true => rfl
  unfold encodeDataSetMessage
  simp only [hflags1, hflags2, hpicoseconds, writeFields_canonical]
  rfl

theorem encodes_readFields {dsm : DataSetMessage} {fields : List (JsString × Field)}
    (hfields : dsm.fields = some fields) (h : ReadFields (fieldEncodingOf dsm) fields) :
    Encodes (writeFields host dsm) (readFields (fieldEncodingOf dsm)) (canonicalFields fields) := by
  rw [writeFields, hfields]
  refine Encodes.cons (encodes_putUInt 2 _) ?_
  have hnamed : ∀ e ∈ fields, Encodes (writeNamedField host (fieldEncodingOf dsm) e)
      (readNamedField (fieldEncodingOf dsm)) (e.1, Field.canonical e.2) := by
    intro e he
    refine Encodes.cons (encodes_putUInt 2 _) ?_
    refine Encodes.cons (Encodes.ok (reads_bytes (Utf.encode e.1))) ?_
    rw [Utf.decode_encode (h.names e he)]
    exact Encodes.map (fun field => (e.1, field))
      (Encodes.single (encodes_readField (h.fields e he) e.1))
  have hread := Encodes.map Props.ofEntries (Encodes.single (Encodes.many hnamed))
  rwa [show Props.ofEntries (fields.map fun e => (e.1, Field.canonical e.2)) =
    canonicalFields fields from ofEntries_canonicalFields h.kept] at hread

theorem optional_timedPicoseconds {P : JsValue → Prop} {timestamp picoseconds : JsValue}
    (h : Optional P picoseconds) : Optional P (timedPicoseconds timestamp picoseconds) := by
  rw [timedPicoseconds]
  split
  next => exact h
  next => exact Or.inl rfl

theorem isDate_of_timed {timestamp picoseconds : JsValue} (h : Optional IsDate timestamp)
    (hne : timedPicoseconds timestamp picoseconds ≠ .undefined) : IsDate timestamp := by
  refine h.resolve_left fun hundefined => hne ?_
  rw [hundefined]
  rfl

/-- A message that was read is read back in its canonical form. -/
theorem encodes_readDataSetMessage {dsm : DataSetMessage} (h : ReadDataSetMessage dsm) :
    Encodes (encodeDataSetMessage host dsm) readDataSetMessage (DataSetMessage.canonical dsm) := by
  have hpicoseconds : Optional (NumberOf 2) (timedPicoseconds dsm.timestamp dsm.picoseconds) :=
    optional_timedPicoseconds h.picoseconds
  have hmembers : MembersInRange (DataSetMessage.canonical dsm) := by
    constructor
    case fieldEncoding => exact h.fieldEncoding
    case sequenceNumber => exact integerIn_optional h.sequenceNumber
    case status => exact integerIn_optional h.status
    case major => exact integerIn_optional h.major
    case minor => exact integerIn_optional h.minor
    case timestamp => exact h.timestamp
    case picoseconds => exact integerIn_optional hpicoseconds
    case timed => exact isDate_of_timed h.timestamp
  have hsame : decodedMessage (DataSetMessage.canonical dsm) (dsm.fields.map canonicalFields) =
      DataSetMessage.canonical dsm := by
    calc decodedMessage (DataSetMessage.canonical dsm) (dsm.fields.map canonicalFields)
        = { decodedMessage dsm dsm.fields with
            picoseconds := unsignZero (timedPicoseconds dsm.timestamp dsm.picoseconds)
            fields := dsm.fields.map canonicalFields } := rfl
      _ = DataSetMessage.canonical dsm := by
          rw [← h.shape, unsignZero_optional (by omega) hpicoseconds]
          rfl
  have hbody : Encodes (opt (decide (messageTypeOf dsm ≠ .keepalive))
        (writeFields host (DataSetMessage.canonical dsm)))
      (readBody (fieldEncodingOf dsm) (messageTypeOf dsm)) (dsm.fields.map canonicalFields) := by
    rw [writeFields_canonical]
    by_cases hkeepalive : messageTypeOf dsm = .keepalive
    · rw [h.keepalive hkeepalive, hkeepalive]
      exact Encodes.ok (Reads.pure none)
    · obtain ⟨fields, hfields, hread⟩ := h.fields hkeepalive
      rw [hfields, readBody, decide_eq_true hkeepalive]
      exact Encodes.map some (encodes_readFields hfields hread)
  have hread := encodes_dataSetMessage_of hmembers hbody
  rwa [hsame, encodeDataSetMessage_canonical] at hread

end OpcUaSuite.Uadp
