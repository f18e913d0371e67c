import OpcUaSuite.Nodes.Publisher
import OpcUaSuite.Nodes.Subscriber
import OpcUaSuite.Uadp.Chunking
import OpcUaSuite.Uadp.RoundTrip

/-!
# The fields of a keyframe

Which fields a keyframe carries for an input, and which of them a subscriber
finds in its payload with the value the input had.
-/

namespace OpcUaSuite.Nodes

open Js ByteCodec BinaryFloat PubSub Uadp

/-- The type of a field is that of its last declaration. -/
def declaredType? (fields : List FieldMetaData) (name : JsString) : Option JsString :=
  Props.last? name (fields.map fun field => (field.name, field.dataType))

/-- The value to publish under a name: declared, an own property of the input,
and defined. -/
def publishedValue (fields : List FieldMetaData) (props : List (JsString × JsValue))
    (name : JsString) : Option JsValue :=
  if (declaredType? fields name).isSome then
    (Props.get? name props).filter fun v => decide (v ≠ .undefined)
  else none

/-- The values to publish are in the range of their declared types. -/
def ValuesInRange (fields : List FieldMetaData) (props : List (JsString × JsValue)) : Prop :=
  ∀ name dataType v, declaredType? fields name = some dataType →
    publishedValue fields props name = some v → VariantInRange ⟨.name dataType, v, none⟩

/-! ## Scalars -/

/-- The values that are not coerced: no null where the type has no room for one,
no negative zero among the integers, a BigInt where 64 bits are read, a number
of single precision, and a GUID in upper case. -/
def Uncoerced (t : BuiltInType) (v : JsValue) : Prop :=
  (v = .null → coercesNull t = false) ∧
  match t with
  | .SByte | .Byte | .Int16 | .UInt16 | .Int32 | .UInt32 | .StatusCode => v ≠ .num Double.negZero
  | .Int64 | .UInt64 => ∀ d, v ≠ .num d
  | .Float => ∀ d, v = .num d → Double.fround d = d
  | .Guid => ∀ s, v = .str s → toUpper s = s
  | _ => True

theorem unsignZero_eq_iff {v : JsValue} : unsignZero v = v ↔ v ≠ .num Double.negZero := by
  unfold unsignZero
  split
  next h =>
    subst h
    exact iff_of_false (by decide) fun h => h rfl
  next h => exact iff_of_true rfl h

/-- A scalar comes back as it was unless it is coerced. -/
theorem wireScalar_eq_iff {t : BuiltInType} {v : JsValue} (h : InRange t v) :
    wireScalar t v = v ↔ Uncoerced t v := by
  unfold wireScalar
  split
  next hnull =>
    subst hnull
    cases t <;> simp [Uncoerced, coercesNull, nullOnWire]
  next hne =>
    have hrange := h.resolve_left hne
    have hiff : Uncoerced t v ↔ normalScalar t v = v := by
      cases t with
      | Int64 | UInt64 =>
          obtain ⟨i, hi, -⟩ := hrange
          cases v <;> simp_all [Uncoerced, normalScalar, bigIntOf?]
      | Float =>
          obtain ⟨d, rfl⟩ := hrange
          simp [Uncoerced, normalScalar]
      | Guid =>
          obtain ⟨s, rfl, -⟩ := hrange
          simp [Uncoerced, normalScalar]
      | _ => simp [Uncoerced, normalScalar, unsignZero_eq_iff, hne]
    exact hiff.symm

variable {host : Host}

theorem consumes_signed (k : Nat) (lo hi : Int) (v : JsValue) :
    ∃ a, Encodes (writeInt host k lo hi v) (readSigned k) a := by
  unfold writeInt
  cases liftRuntime (host.toNumber v) with
  | error e => exact ⟨.undefined, Encodes.error e⟩
  | ok d =>
      change ∃ a, Encodes (if d.gtInt hi || d.ltInt lo then _ else
        .ok (le k (toTwos k d.trunc))) _ a
      split
      · exact ⟨.undefined, Encodes.error _⟩
      · exact ⟨_, Encodes.map (fun i : Int => JsValue.num (Double.ofInt i))
          (Encodes.map (ofTwos k) (Encodes.ok (reads_le (toTwos_lt k d.trunc))))⟩

/-- An inherited method is converted or rejected by the writer of each type. -/
theorem consumes_method (hstd : host.Standard) (t : BuiltInType) :
    ∃ a, Encodes (writeScalar host t (.object [])) (readScalar t) a := by
  cases t with
  | Boolean => exact ⟨_, encodes_boolean rfl⟩
  | SByte | Int16 | Int32 => exact consumes_signed _ _ _ _
  | Byte | UInt16 | UInt32 => exact consumes_unsigned host _ _
  | Int64 =>
      cases hi : host.toBigInt (.object []) with
      | ok i => exact ⟨_, encodes_int64_of hi⟩
      | error e =>
          refine ⟨.undefined, ?_⟩
          rw [writeScalar, writeInt64LE, hi]
          exact Encodes.error _
  | UInt64 => exact consumes_uint64 host _
  | Float =>
      cases hnumber : host.toNumber (.object []) with
      | ok d => exact ⟨_, encodes_float_of hnumber⟩
      | error e =>
          refine ⟨.undefined, ?_⟩
          rw [writeScalar, writeFloatLE, hnumber]
          exact Encodes.error _
  | Double =>
      cases hnumber : host.toNumber (.object []) with
      | ok d => exact ⟨_, encodes_double_of hnumber⟩
      | error e =>
          refine ⟨.undefined, ?_⟩
          rw [writeScalar, writeDoubleLE, hnumber]
          exact Encodes.error _
  | String =>
      refine ⟨.undefined, ?_⟩
      have hbuffer : host.bufferUtf8 (.object []) = .error .typeError := hstd.bufferFrom
      change Encodes (do
        let b ← liftRuntime (host.bufferUtf8 (.object []))
        cat [putUInt 4 b.length, .ok b]) _ _
      rw [hbuffer]
      exact Encodes.error _
  | DateTime => exact ⟨.undefined, Encodes.error _⟩
  | Guid => exact ⟨.undefined, Encodes.error _⟩
  | ByteString =>
      refine ⟨.undefined, ⟨fun bs h => ?_⟩⟩
      obtain ⟨b, c, -, hc, -⟩ := cat_cons_eq_ok.mp h
      obtain ⟨d, e, hd, -, -⟩ := cat_cons_eq_ok.mp hc
      cases hd
  | StatusCode =>
      cases hnumber : host.toUint32 (.object []) with
      | ok n =>
          have hn : Encodes (writeScalar host .StatusCode (.object [])) (readUInt 4) n := by
            rw [writeScalar, writeStatusCode, hnumber]
            exact encodes_putUInt 4 n
          exact ⟨_, Encodes.map JsValue.nat hn⟩
      | error e =>
          refine ⟨.undefined, ?_⟩
          rw [writeScalar, writeStatusCode, hnumber]
          exact Encodes.error _

/-! ## Entries -/

variable (host) (fields : List FieldMetaData)

/-- What the keyframe holds under a name. -/
theorem get?_keyframeFields (source : JsValue) {name : JsString} (hname : name ≠ protoKey) :
    Props.get? name (keyframeFields host fields source) =
      if host.member source name = .undefined then none
      else (declaredType? fields name).map fun dataType =>
        .variant ⟨.name dataType, host.member source name, none⟩ := by
  rw [keyframeFields, Props.get?_ofEntries_eq hname, declaredType?]
  induction fields using List.reverseRecOn with
  | nil => simp [Props.last?]
  | append_singleton fields field ih =>
      rw [List.filter_append, List.map_append, List.map_append]
      by_cases hfield : host.member source field.name = .undefined
      · rw [List.filter_singleton, decide_eq_false (not_not_intro hfield), cond_false, List.map_nil,
          List.append_nil, ih, List.map_singleton, Props.last?_concat]
        by_cases heq : field.name = name
        · subst heq
          rw [if_pos hfield, if_pos hfield]
        · rw [if_neg heq]
      · rw [List.filter_singleton, decide_eq_true hfield, cond_true, List.map_singleton,
          List.map_singleton, Props.last?_concat, Props.last?_concat, ih]
        by_cases heq : field.name = name
        · subst heq
          rw [if_pos rfl, if_pos rfl, if_neg hfield, Option.map_some]
        · rw [if_neg heq, if_neg heq]

/-- An entry of the keyframe is a declared field. -/
theorem entry_keyframeFields {source : JsValue} {e : JsString × Field}
    (he : e ∈ keyframeFields host fields source) :
    e.1 ≠ protoKey ∧ host.member source e.1 ≠ .undefined ∧ ∃ dataType,
      declaredType? fields e.1 = some dataType ∧
        e.2 = .variant ⟨.name dataType, host.member source e.1, none⟩ := by
  have hget : Props.get? e.1 (keyframeFields host fields source) = some e.2 :=
    InsertionMap.get?_of_mem (Props.nodup_ofEntries _) he
  have hproto : e.1 ≠ protoKey := by
    intro heq
    rw [heq, keyframeFields, Props.get?_protoKey_ofEntries] at hget
    cases hget
  rw [get?_keyframeFields host fields source hproto] at hget
  split at hget
  next => cases hget
  next hmember =>
    obtain ⟨dataType, hdeclared, hfield⟩ := Option.map_eq_some_iff.mp hget
    exact ⟨hproto, hmember, dataType, hdeclared, hfield.symm⟩

variable {host fields} {props : List (JsString × JsValue)}

/-- What an input reads under a name: its own property, or a method. -/
theorem member_object (hstd : host.Standard) (name : JsString) :
    host.member (.object props) name = (Props.get? name props).getD
      (if name ∈ inheritedNames then .object [] else .undefined) := by
  rw [Host.member, ownProps, hstd.inherited]

theorem publishedValue_eq_some {name : JsString} {v : JsValue} :
    publishedValue fields props name = some v ↔ (declaredType? fields name).isSome = true ∧
      Props.get? name props = some v ∧ v ≠ .undefined := by
  unfold publishedValue
  split
  next h => simp [h, Option.filter_eq_some_iff]
  next h => simp [h]

/-- The value of an entry is the one to publish, or a method the input inherits. -/
theorem value_entry (hstd : host.Standard) {e : JsString × Field}
    (he : e ∈ keyframeFields host fields (.object props)) :
    publishedValue fields props e.1 = some (host.member (.object props) e.1) ∨
      (Props.get? e.1 props = none ∧ e.1 ∈ inheritedNames ∧
        host.member (.object props) e.1 = .object []) := by
  obtain ⟨-, hmember, dataType, hdeclared, -⟩ := entry_keyframeFields host fields he
  rw [publishedValue_eq_some, hdeclared]
  rw [member_object hstd] at hmember ⊢
  cases hget : Props.get? e.1 props with
  | some v =>
      rw [hget] at hmember
      exact Or.inl ⟨rfl, rfl, hmember⟩
  | none =>
      rw [hget, Option.getD_none] at hmember
      by_cases hinherited : e.1 ∈ inheritedNames
      · rw [Option.getD_none, if_pos hinherited]
        exact Or.inr ⟨rfl, hinherited, rfl⟩
      · rw [if_neg hinherited] at hmember
        exact absurd rfl hmember

/-! ## Entries on the wire -/

theorem not_inRange_method {dataType : DataTypeRef} :
    ¬ VariantInRange ⟨dataType, .object [], none⟩ := by
  rintro ⟨-, t, -, hrange⟩
  have h := (hrange (.object []) List.mem_cons_self).resolve_left JsValue.noConfusion
  cases t <;> simp [ScalarInRange, IntegerIn, bigIntOf?] at h

/-- A Variant that holds a method is written as a value of its type, or rejected. -/
theorem consumes_methodVariant (hstd : host.Standard) (dataType : DataTypeRef) :
    ∃ a, Encodes (writeVariantBody host dataType (.object [])) readVariant a := by
  cases hbuiltIn : builtInOf dataType with
  | number n =>
      cases htype : BuiltInType.ofOrdinal? n with
      | none =>
          refine ⟨none, ⟨fun bs h => ?_⟩⟩
          rw [writeVariantBody, hbuiltIn] at h
          obtain ⟨b, c, -, hc, -⟩ := cat_cons_eq_ok.mp h
          obtain ⟨d, e, hd, -, -⟩ := cat_cons_eq_ok.mp hc
          simp only [writeVariantValue, writeVariantScalar, htype] at hd
          cases hd
      | some t =>
          obtain ⟨a, ha⟩ := consumes_method hstd t
          have ht : typeOf? dataType = some t := by
            rw [typeOf?, hbuiltIn]
            exact htype
          refine ⟨_, encodes_variantBody_of ht (g := fun _ => a) fun x hx => ?_⟩
          obtain rfl := List.mem_singleton.mp hx
          exact ha
  | missing =>
      refine ⟨none, ?_⟩
      rw [writeVariantBody, hbuiltIn]
      exact Encodes.error _
  | inherited | fraction =>
      refine ⟨none, ⟨fun bs h => ?_⟩⟩
      rw [writeVariantBody, hbuiltIn] at h
      obtain ⟨b, c, -, hc, -⟩ := cat_cons_eq_ok.mp h
      obtain ⟨d, e, hd, -, -⟩ := cat_cons_eq_ok.mp hc
      cases hd

/-- What is read for an entry: the name as UTF-8 carries it, and the Variant as it
is decoded. -/
def EntryRead (e d : JsString × Field) : Prop :=
  d.1 = Utf.decode (Utf.encode e.1) ∧
    ∀ v, e.2 = .variant v → VariantInRange v → d.2 = .variant (Variant.map wireScalar v)

theorem consumes_entry (hstd : host.Standard) (hrange : ValuesInRange fields props)
    {e : JsString × Field} (he : e ∈ keyframeFields host fields (.object props)) :
    ∃ d, Encodes (writeNamedField host .variant e) (readNamedField .variant) d ∧ EntryRead e d := by
  obtain ⟨-, -, dataType, hdeclared, hfield⟩ := entry_keyframeFields host fields he
  have hread : ∃ field, Encodes (writeField host .variant e.1 e.2) (readField .variant) field ∧
      ∀ v, e.2 = .variant v → VariantInRange v → field = .variant (Variant.map wireScalar v) := by
    rw [hfield]
    rcases value_entry hstd he with hvalue | ⟨-, -, hmethod⟩
    · refine ⟨_, encodes_field (hrange e.1 dataType _ hdeclared hvalue), fun v hv _ => ?_⟩
      cases hv
      rfl
    · obtain ⟨a, ha⟩ := consumes_methodVariant hstd (.name dataType)
      rw [hmethod]
      refine ⟨_, Encodes.map Field.ofVariant ha, fun v hv hin => ?_⟩
      cases hv
      exact absurd hin not_inRange_method
  obtain ⟨field, hencodes, hsame⟩ := hread
  refine ⟨(Utf.decode (Utf.encode e.1), field), ?_, rfl, hsame⟩
  refine Encodes.cons (encodes_putUInt 2 _) ?_
  refine Encodes.cons (Encodes.ok (reads_bytes (Utf.encode e.1))) ?_
  exact Encodes.map (fun field => (Utf.decode (Utf.encode e.1), field)) (Encodes.single hencodes)

/-- The fields of a keyframe are read back entry by entry. -/
theorem consumes_keyframe (hstd : host.Standard) {writer : DataSetWriter} {seq : Nat}
    (hrange : ValuesInRange writer.publishedDataSet.fields props) :
    ∃ ds, Encodes (writeFields host (keyframeMessage host (.object props) writer seq))
        (readFields .variant) (Props.ofEntries ds) ∧
      List.Forall₂ EntryRead (keyframeFields host writer.publishedDataSet.fields (.object props))
        ds := by
  obtain ⟨ds, hds, hentries⟩ := Encodes.many_related (w := writeNamedField host .variant)
    fun e he => consumes_entry hstd hrange he
  refine ⟨ds, ?_, hentries⟩
  refine Encodes.cons (encodes_putUInt 2 _) ?_
  exact Encodes.map Props.ofEntries (Encodes.single hds)

/-! ## The payload -/

/-- No field is lost, changed or added on the way: names that UTF-8 carries and an
object takes, values that are not coerced, and no field declared under the name
of a method that the input does not have itself. -/
structure PayloadKept (fields : List FieldMetaData) (props : List (JsString × JsValue)) : Prop where
  names : ∀ name v, publishedValue fields props name = some v →
    name ≠ protoKey ∧ Utf.wellFormed name = true
  values : ∀ name dataType v, declaredType? fields name = some dataType →
    publishedValue fields props name = some v →
      ∀ p ∈ Variant.scalars ⟨.name dataType, v, none⟩, Uncoerced p.1 p.2
  methods : ∀ name, (declaredType? fields name).isSome = true → name ∈ inheritedNames →
    Props.get? name props = none → name = protoKey

theorem wireScalar_ne_object {t : BuiltInType} {v : JsValue} (h : InRange t v)
    (props : List (JsString × JsValue)) : wireScalar t v ≠ .object props := by
  rcases h with rfl | h
  · cases t <;> exact JsValue.noConfusion
  · unfold wireScalar
    split
    · cases t <;> exact JsValue.noConfusion
    · cases t with
      | Boolean =>
          obtain ⟨b, rfl⟩ := h
          exact JsValue.noConfusion
      | Float | Double =>
          obtain ⟨d, rfl⟩ := h
          exact JsValue.noConfusion
      | Int64 | UInt64 =>
          obtain ⟨i, hi, -⟩ := h
          simp [normalScalar, hi]
      | String | Guid =>
          obtain ⟨s, rfl, -⟩ := h
          exact JsValue.noConfusion
      | DateTime =>
          obtain ⟨ms, rfl⟩ := h
          exact JsValue.noConfusion
      | ByteString =>
          obtain ⟨bytes, rfl, -⟩ := h
          exact JsValue.noConfusion
      | _ =>
          obtain ⟨i, -, -, rfl | ⟨-, rfl⟩⟩ := h
          · change unsignZero _ ≠ _
            unfold unsignZero
            split <;> exact JsValue.noConfusion
          · exact JsValue.noConfusion

/-- A Variant without objects is unwrapped to its value. -/
theorem unwrap_mapElements {g : JsValue → JsValue} {v : JsValue}
    (h : ∀ x ∈ elements v, ∀ props, g x ≠ .object props) (dataType : DataTypeRef)
    (dimensions : Option (List Int)) :
    unwrap (.variant ⟨dataType, mapElements g v, dimensions⟩) = mapElements g v := by
  cases hv : mapElements g v with
  | object props =>
      cases v with
      | array items => cases hv
      | _ => exact absurd hv (h _ List.mem_cons_self props)
  | _ => simp only [unwrap]

/-- A value is published as it is exactly when its scalars are not coerced. -/
theorem unwrap_wire_iff {dataType : DataTypeRef} {v : JsValue}
    (h : VariantInRange ⟨dataType, v, none⟩) :
    unwrap (.variant (Variant.map wireScalar ⟨dataType, v, none⟩)) = v ↔
      ∀ p ∈ Variant.scalars ⟨dataType, v, none⟩, Uncoerced p.1 p.2 := by
  obtain ⟨-, t, ht, hrange⟩ := h
  have hid : mapElements id v = v := by cases v <;> simp [mapElements]
  simp only [Variant.map, ht]
  rw [unwrap_mapElements fun x hx => wireScalar_ne_object (hrange x hx)]
  nth_rewrite 2 [← hid]
  rw [mapElements_eq_iff]
  simp only [Variant.scalars, ht, List.mem_map, forall_exists_index, and_imp,
    forall_apply_eq_imp_iff₂]
  exact forall₂_congr fun x hx => wireScalar_eq_iff (hrange x hx)

theorem get?_unwrapFields {name : JsString} (hname : name ≠ protoKey)
    (ds : List (JsString × Field)) :
    Props.get? name (unwrapFields (Props.ofEntries ds)) = (Props.last? name ds).map unwrap := by
  rw [unwrapFields, Props.get?_ofEntries_eq hname, Props.last?_map,
    Props.last?_of_nodup (Props.nodup_ofEntries ds), Props.get?_ofEntries_eq hname]

theorem wellFormed_inherited {name : JsString} (h : name ∈ inheritedNames) :
    Utf.wellFormed name = true := by
  have hall : inheritedNames.all Utf.wellFormed = true := by decide +kernel
  exact List.all_eq_true.mp hall name h

/-- A value to publish is in the keyframe. -/
theorem get?_of_published (hstd : host.Standard) {name : JsString} {v : JsValue}
    (hname : name ≠ protoKey) (h : publishedValue fields props name = some v) :
    ∃ dataType, declaredType? fields name = some dataType ∧
      Props.get? name (keyframeFields host fields (.object props)) =
        some (.variant ⟨.name dataType, v, none⟩) := by
  obtain ⟨hdeclared, hget, hv⟩ := publishedValue_eq_some.mp h
  obtain ⟨dataType, hdataType⟩ := Option.isSome_iff_exists.mp hdeclared
  refine ⟨dataType, hdataType, ?_⟩
  rw [get?_keyframeFields host fields _ hname, member_object hstd, hget, Option.getD_some, if_neg hv,
    hdataType, Option.map_some]

/-- Names that UTF-8 carries are read back, each with the Variant as it is decoded. -/
theorem entriesRead_of_wellFormed {es ds : List (JsString × Field)}
    (h : List.Forall₂ EntryRead es ds) (hwf : ∀ e ∈ es, Utf.wellFormed e.1 = true) :
    List.Forall₂ (fun e d => d.1 = e.1 ∧ EntryRead e d) es ds := by
  induction h with
  | nil => exact List.Forall₂.nil
  | @cons e d es ds he _ ih =>
      have hname := Utf.decode_encode (hwf e List.mem_cons_self)
      exact List.Forall₂.cons ⟨he.1.trans hname, he⟩
        (ih fun e he => hwf e (List.mem_cons_of_mem _ he))

section Payload

variable {ds : List (JsString × Field)}

/-- What the payload holds under the name of an entry, once the names are read back. -/
theorem get?_payload
    (h : List.Forall₂ (fun e d => d.1 = e.1 ∧ EntryRead e d)
      (keyframeFields host fields (.object props)) ds)
    {name : JsString} (hname : name ≠ protoKey) {field : Field}
    (hget : Props.get? name (keyframeFields host fields (.object props)) = some field) :
    ∃ field', (∀ v, field = .variant v → VariantInRange v →
        field' = .variant (Variant.map wireScalar v)) ∧
      Props.get? name (unwrapFields (Props.ofEntries ds)) = some (unwrap field') := by
  have hnodup : (InsertionMap.keys ds).Nodup := by
    rw [InsertionMap.keys_of_forall₂ h]
    exact Props.nodup_ofEntries _
  obtain ⟨field', hread, hget'⟩ := InsertionMap.get?_of_forall₂ h hget
  refine ⟨field', hread.2, ?_⟩
  rw [get?_unwrapFields hname, Props.last?_of_nodup hnodup, Props.get?, hget', Option.map_some]

/-- Under any other name the payload holds nothing. -/
theorem get?_payload_none
    (h : List.Forall₂ (fun e d => d.1 = e.1 ∧ EntryRead e d)
      (keyframeFields host fields (.object props)) ds)
    {name : JsString} (hname : name ≠ protoKey)
    (hget : Props.get? name (keyframeFields host fields (.object props)) = none) :
    Props.get? name (unwrapFields (Props.ofEntries ds)) = none := by
  have hkeys := InsertionMap.keys_of_forall₂ h
  have hmem : name ∉ InsertionMap.keys ds := by
    rw [hkeys]
    exact InsertionMap.get?_eq_none_iff.mp hget
  rw [get?_unwrapFields hname]
  cases hlast : Props.last? name ds with
  | none => rfl
  | some field =>
      have hsome : (Props.last? name ds).isSome = true := by rw [hlast]; rfl
      exact absurd (Props.last?_isSome_iff.mp hsome) hmem

theorem payload_of_kept (hstd : host.Standard) (hrange : ValuesInRange fields props)
    (h : List.Forall₂ EntryRead (keyframeFields host fields (.object props)) ds)
    (hkept : PayloadKept fields props) (name : JsString) :
    Props.get? name (unwrapFields (Props.ofEntries ds)) = publishedValue fields props name := by
  have hentry : ∀ e ∈ keyframeFields host fields (.object props),
      publishedValue fields props e.1 = some (host.member (.object props) e.1) := by
    intro e he
    obtain ⟨hproto, -, dataType, hdeclared, -⟩ := entry_keyframeFields host fields he
    refine (value_entry hstd he).resolve_right fun hmethod => hproto ?_
    exact hkept.methods e.1 (by rw [hdeclared]; rfl) hmethod.2.1 hmethod.1
  have hread := entriesRead_of_wellFormed h fun e he => (hkept.names e.1 _ (hentry e he)).2
  by_cases hname : name = protoKey
  · subst hname
    rw [unwrapFields, Props.get?_protoKey_ofEntries]
    cases hvalue : publishedValue fields props protoKey with
    | none => rfl
    | some v => exact absurd rfl (hkept.names protoKey v hvalue).1
  cases hvalue : publishedValue fields props name with
  | none =>
      refine get?_payload_none hread hname (InsertionMap.get?_eq_none_iff.mpr fun hmem => ?_)
      obtain ⟨e, he, rfl⟩ := List.mem_map.mp hmem
      rw [hentry e he] at hvalue
      cases hvalue
  | some v =>
      obtain ⟨dataType, hdeclared, hget⟩ := get?_of_published hstd hname hvalue
      obtain ⟨field', hfield, hpayload⟩ := get?_payload hread hname hget
      have hin := hrange name dataType v hdeclared hvalue
      rw [hpayload, hfield _ rfl hin,
        (unwrap_wire_iff hin).mpr (hkept.values name dataType v hdeclared hvalue)]

/-- The payload of a keyframe is what was to be published exactly when nothing is
lost, changed or added on the way. -/
theorem payload_iff (hstd : host.Standard) (hrange : ValuesInRange fields props)
    (h : List.Forall₂ EntryRead (keyframeFields host fields (.object props)) ds) :
    (∀ name, Props.get? name (unwrapFields (Props.ofEntries ds)) =
      publishedValue fields props name) ↔ PayloadKept fields props := by
  refine ⟨fun hall => ?_, fun hkept => payload_of_kept hstd hrange h hkept⟩
  -- a name that is not well-formed is read as another one, so it would be missing
  have hwf : ∀ e ∈ keyframeFields host fields (.object props), Utf.wellFormed e.1 = true := by
    intro e he
    obtain ⟨hproto, -⟩ := entry_keyframeFields host fields he
    rcases value_entry hstd he with hvalue | ⟨-, hinherited, -⟩
    · have hget := hall e.1
      rw [hvalue, get?_unwrapFields hproto] at hget
      obtain ⟨field, hfield, -⟩ := Option.map_eq_some_iff.mp hget
      obtain ⟨e', -, hread⟩ := exists_left_of_forall₂ h (Props.last?_eq_some hfield)
      have hname : e.1 = Utf.decode (Utf.encode e'.1) := hread.1
      rw [hname]
      exact Utf.wellFormed_decode _
    · exact wellFormed_inherited hinherited
  have hread := entriesRead_of_wellFormed h hwf
  have hproto : ∀ name v, publishedValue fields props name = some v → name ≠ protoKey := by
    rintro name v hvalue rfl
    have hget := hall protoKey
    rw [hvalue, unwrapFields, Props.get?_protoKey_ofEntries] at hget
    cases hget
  constructor
  case names =>
    intro name v hvalue
    obtain ⟨dataType, -, hget⟩ := get?_of_published hstd (hproto name v hvalue) hvalue
    exact ⟨hproto name v hvalue, hwf (name, _) (InsertionMap.mem_of_get? hget)⟩
  case values =>
    intro name dataType v hdeclared hvalue
    obtain ⟨dataType', hdeclared', hget⟩ := get?_of_published hstd (hproto name v hvalue) hvalue
    obtain rfl := Option.some.inj (hdeclared.symm.trans hdeclared')
    obtain ⟨field', hfield, hpayload⟩ := get?_payload hread (hproto name v hvalue) hget
    have hin := hrange name dataType v hdeclared hvalue
    rw [hall name, hvalue, hfield _ rfl hin, Option.some.injEq] at hpayload
    exact (unwrap_wire_iff hin).mp hpayload.symm
  case methods =>
    intro name hdeclared hinherited hget
    by_contra hname
    have hmember : host.member (.object props) name = .object [] := by
      rw [member_object hstd, hget, Option.getD_none, if_pos hinherited]
    obtain ⟨dataType, hdataType⟩ := Option.isSome_iff_exists.mp hdeclared
    have hentry := get?_keyframeFields host fields (.object props) hname
    rw [hmember, if_neg JsValue.noConfusion, hdataType, Option.map_some] at hentry
    obtain ⟨field', -, hpayload⟩ := get?_payload hread hname hentry
    rw [hall name, publishedValue_eq_some, hget] at hpayload
    cases hpayload.2.1

end Payload

end OpcUaSuite.Nodes
