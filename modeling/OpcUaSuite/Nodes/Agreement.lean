import OpcUaSuite.Nodes.EndToEnd
import OpcUaSuite.Nodes.Portable

/-!
# UADP and JSON side by side

One message of a publisher, sent as frames of UADP and as a JSON text, to two
subscribers with the same filter. What they send is compared message by message,
the value of UADP with that of JSON after a Float is rounded and a GUID is in
upper case.
-/

namespace OpcUaSuite.Nodes

open Js ByteCodec BinaryFloat PubSub Uadp
open JsonEncoder (UaType)

/-- A value under a declared name as UADP returns it where JSON returns `v`. -/
def roundedAs (fields : List FieldMetaData) (name : JsString) (v : JsValue) : JsValue :=
  match (declaredType? fields name).bind fun dataType => typeOf? (.name dataType) with
  | some t => mapElements (rounded t) v
  | none => v

/-- The same message from UADP and from JSON. -/
structure SameMsg (fields : List FieldMetaData) (m m' : Msg) : Prop where
  payload : ∀ name, Props.get? name m.payload =
    (Props.get? name m'.payload).map (roundedAs fields name)
  publisherId : m.publisherId = m'.publisherId
  writerGroupId : m.writerGroupId = m'.writerGroupId
  dataSetWriterId : m.dataSetWriterId = m'.dataSetWriterId
  sequenceNumber : m.sequenceNumber = m'.sequenceNumber
  timestamp : m.timestamp = m'.timestamp
  statusCode : m.statusCode = m'.statusCode

/-- The same sequence of messages, each under the id of a writer. -/
def Agree (config : PublisherConfig) : List Msg → List Msg → Prop :=
  List.Forall₂ fun m m' => ∃ w ∈ config.writers, m.dataSetWriterId = .nat w.dataSetWriterId ∧
    SameMsg w.publishedDataSet.fields m m'

/-- The fields a source has are portable: UTF-8 carries their names, both encoders
know their types, and their values are portable. -/
def PortableFields (host : Host) (fields : List FieldMetaData) (source : JsValue) : Prop :=
  ∀ name dataType, name ≠ protoKey → declaredType? fields name = some dataType →
    host.member source name ≠ .undefined →
      Utf.wellFormed name = true ∧ ∃ t, typeOf? (.name dataType) = some t ∧
        PortableValue host t (host.member source name)

/-! ## Fields -/

variable {host : Host}

/-- An entry with a portable value of its declared type. -/
def PortableEntry (host : Host) (fields : List FieldMetaData) (e : JsString × Field) : Prop :=
  Utf.wellFormed e.1 = true ∧ ∃ dataType t v, declaredType? fields e.1 = some dataType ∧
    typeOf? (.name dataType) = some t ∧ e.2 = .variant ⟨.name dataType, v, none⟩ ∧
      PortableValue host t v

/-- The entries as a decoder returns them, with `f` applied to every scalar. -/
def returned (f : BuiltInType → JsValue → JsValue) (entries : List (JsString × Field)) :
    List (JsString × Field) :=
  entries.map fun e => (e.1, Field.map f .variant e.2)

theorem portableEntry_keyframe {fields : List FieldMetaData} {source : JsValue}
    (h : PortableFields host fields source) {e : JsString × Field}
    (he : e ∈ keyframeFields host fields source) : PortableEntry host fields e := by
  obtain ⟨hproto, hmember, dataType, hdeclared, hfield⟩ := entry_keyframeFields host fields he
  obtain ⟨hname, t, ht, hvalue⟩ := h e.1 dataType hproto hdeclared hmember
  exact ⟨hname, dataType, t, _, hdeclared, ht, hfield, hvalue⟩

theorem field_map {f : BuiltInType → JsValue → JsValue} {dataType : DataTypeRef} {t : BuiltInType}
    (ht : typeOf? dataType = some t) (v : JsValue) :
    Field.map f .variant (.variant ⟨dataType, v, none⟩) =
      .variant ⟨.ordinal t.ordinal, mapElements (f t) v, none⟩ := by
  simp only [Field.map, Variant.map, ht]

/-- A function that makes no arrays of scalars can be followed by another. -/
theorem mapElements_mapElements {f g : JsValue → JsValue} {v : JsValue}
    (h : ∀ x ∈ elements v, isArray (f x) = false) :
    mapElements g (mapElements f v) = mapElements (fun x => g (f x)) v := by
  have hscalar : ∀ w, isArray w = false → mapElements g w = g w := by
    intro w hw
    cases w with
    | array items => cases hw
    | _ => rfl
  cases v with
  | array items => simp [mapElements]
  | _ => exact hscalar _ (h _ List.mem_cons_self)

section Entries

variable {fields : List FieldMetaData} {entries : List (JsString × Field)}

/-- The binary decoder returns the entries with rounded values. -/
theorem encodes_entry {e : JsString × Field} (h : PortableEntry host fields e) :
    Encodes (writeNamedField host .variant e) (readNamedField .variant)
      (e.1, Field.map (fun t x => rounded t (carried host t x)) .variant e.2) := by
  obtain ⟨hname, dataType, t, v, -, ht, hfield, hvalue⟩ := h
  rw [hfield, field_map ht]
  refine Encodes.cons (encodes_putUInt 2 _) ?_
  refine Encodes.cons (Encodes.ok (reads_bytes (Utf.encode e.1))) ?_
  rw [Utf.decode_encode hname]
  refine Encodes.map (fun field => (e.1, field)) (Encodes.single ?_)
  rw [hfield]
  exact Encodes.map Field.ofVariant
    (encodes_variantBody_of ht fun x hx => encodes_portable (hvalue.1 x hx))

theorem jsonTypeOf_of_typeOf {dataType : DataTypeRef} {t : BuiltInType}
    (h : typeOf? dataType = some t) : JsonEncoder.typeOf? dataType = some (.builtIn t) := by
  have hbuiltIn := builtInOf_of_typeOf h
  have hname : dataType ≠ .name (js "NodeId") := by
    rintro rfl
    revert h
    cases t <;> decide
  have hordinal : t.ordinal ≠ JsonEncoder.nodeIdOrdinal := by cases t <;> decide
  rw [JsonEncoder.typeOf?, JsonEncoder.uaTypeOf, if_neg hname, hbuiltIn]
  simp only [if_neg hordinal, BuiltInType.ofOrdinal?_ordinal, Option.map_some]

/-- The JSON decoder returns the entries with their values as they are carried. -/
theorem text_entries (h : ∀ e ∈ entries, PortableEntry host fields e) :
    ∃ payload : List (JsString × JsValue),
      entries.mapM (JsonEncoder.encodeNamedField host) =
        .ok (payload.map fun m => (m.1, some m.2)) ∧
      ∀ path, JsonEncoder.decodeFields host path payload =
        .ok (returned (carried host) entries) := by
  induction entries with
  | nil => exact ⟨[], rfl, fun path => rfl⟩
  | cons e entries ih =>
      obtain ⟨payload, hpayload, hback⟩ := ih fun e he => h e (List.mem_cons_of_mem _ he)
      obtain ⟨name, field⟩ := e
      obtain ⟨-, dataType, t, v, -, ht, rfl, hvalue⟩ := h _ List.mem_cons_self
      obtain ⟨c, j, hc, hj, hread⟩ := text_portable hvalue
      refine ⟨(name, JsonEncoder.variantValue (.builtIn t) j) :: payload, ?_, fun path => ?_⟩
      · rw [List.mapM_cons, JsonEncoder.encodeNamedField, JsonEncoder.encodeField,
          JsonEncoder.encodeVariant_eq (jsonTypeOf_of_typeOf ht) hc hj, hpayload]
        rfl
      · refine JsonEncoder.decodeFields_cons.mpr
          ⟨⟨.ordinal t.ordinal, mapElements (carried host t) v, none⟩, _, ?_, hback path, ?_⟩
        · rw [JsonEncoder.decodeVariant_eq]
          exact congrArg (fun r => (JsonEncoder.liftRuntime r).map _) hread
        · rw [returned, List.map_cons, field_map ht]
          rfl

/-- What the subscriber finds under a name. -/
theorem get?_returned (hnodup : (InsertionMap.keys entries).Nodup)
    (f : BuiltInType → JsValue → JsValue) {name : JsString} (hname : name ≠ protoKey) :
    Props.get? name (unwrapFields (Props.ofEntries (returned f entries))) =
      (Props.get? name entries).map fun field => unwrap (Field.map f .variant field) := by
  rw [get?_unwrapFields hname, returned, Props.last?_map, Props.last?_of_nodup hnodup,
    Option.map_map]
  rfl

/-- Both subscribers find the same values, up to rounding. -/
theorem payload_agrees (hnodup : (InsertionMap.keys entries).Nodup)
    (h : ∀ e ∈ entries, PortableEntry host fields e) (name : JsString) :
    Props.get? name (unwrapFields (Props.ofEntries
        (returned (fun t x => rounded t (carried host t x)) entries))) =
      (Props.get? name (unwrapFields (Props.ofEntries (returned (carried host) entries)))).map
        (roundedAs fields name) := by
  by_cases hname : name = protoKey
  · subst hname
    rw [unwrapFields, unwrapFields, Props.get?_protoKey_ofEntries, Props.get?_protoKey_ofEntries]
    rfl
  rw [get?_returned hnodup _ hname, get?_returned hnodup _ hname, Option.map_map]
  cases hget : Props.get? name entries with
  | none => rfl
  | some field =>
      obtain ⟨-, dataType, t, v, hdeclared, ht, hfield, hvalue⟩ :=
        h (name, field) (InsertionMap.mem_of_get? hget)
      subst hfield
      have hscalar := fun x hx => carried_scalar (hvalue.1 x hx)
      have hrounded : roundedAs fields name = mapElements (rounded t) := by
        funext w
        simp only [roundedAs, hdeclared, Option.bind_some, ht]
      rw [Option.map_some, Option.map_some, Function.comp_apply, field_map ht, field_map ht,
        unwrap_mapElements fun x hx => (hscalar x hx).2.2,
        unwrap_mapElements fun x hx => (hscalar x hx).2.1, hrounded]
      exact congrArg some (mapElements_mapElements fun x hx => (hscalar x hx).1).symm

end Entries

/-! ## DataSetMessages -/

/-- A DataSetMessage of a writer whose entries are portable, with no timestamp or
status of its own. -/
structure PortableMessage (host : Host) (w : DataSetWriter) (dsm : DataSetMessage) : Prop where
  members : MembersInRange dsm
  text : JsonEncoder.MembersInDomain dsm
  encoding : fieldEncodingOf dsm = .variant
  dataSetWriterId : dsm.dataSetWriterId = .nat w.dataSetWriterId
  version : ∀ cv, dsm.configurationVersion = some cv → cv.major ≠ .undefined
  timestamp : dsm.timestamp = .undefined
  status : dsm.status = .undefined
  keepalive : messageTypeOf dsm = .keepalive → dsm.fields.getD [] = []
  distinct : (InsertionMap.keys (dsm.fields.getD [])).Nodup
  entries : ∀ e ∈ dsm.fields.getD [], PortableEntry host w.publishedDataSet.fields e

/-- The message as the binary decoder returns it. -/
def fromUadp (host : Host) (dsm : DataSetMessage) : DataSetMessage :=
  decodedMessage dsm (if decide (messageTypeOf dsm ≠ .keepalive) then
    some (Props.ofEntries (returned (fun t x => rounded t (carried host t x)) (dsm.fields.getD [])))
  else none)

/-- The message as the JSON decoder returns it. -/
def fromJson (host : Host) (dsm : DataSetMessage) : DataSetMessage :=
  JsonEncoder.decodedMessage host dsm (returned (carried host) (dsm.fields.getD []))

section Messages

variable {w : DataSetWriter} {dsm : DataSetMessage}

theorem encodes_portableMessage (h : PortableMessage host w dsm) :
    Encodes (encodeDataSetMessage host dsm) readDataSetMessage (fromUadp host dsm) := by
  refine encodes_dataSetMessage_of h.members (Encodes.opt fun _ => Encodes.map some ?_)
  refine Encodes.cons (encodes_putUInt 2 _) ?_
  rw [h.encoding]
  exact Encodes.map Props.ofEntries (Encodes.single (Encodes.many fun e he =>
    encodes_entry (h.entries e he)))

theorem text_portableMessage (h : PortableMessage host w dsm) :
    ∃ j, JsonEncoder.encodeDataSetMessage host dsm = .ok (some j) ∧
      ∀ path, JsonEncoder.decodeDataSetMessage host j path = .ok (fromJson host dsm) := by
  obtain ⟨payload, hpayload, hback⟩ := text_entries h.entries
  refine ⟨_, JsonEncoder.encodeDataSetMessage_eq h.text hpayload, fun path => ?_⟩
  rw [JsonEncoder.decodeDataSetMessage_eq h.text, hback]
  rfl

theorem version_agrees (h : PortableMessage host w dsm) :
    (fromUadp host dsm).configurationVersion = (fromJson host dsm).configurationVersion := by
  change configurationVersionOf (decide (majorOf dsm ≠ .undefined)) _ _ _ =
    dsm.configurationVersion.map fun cv => ⟨unsignZero cv.major, unsignZero cv.minor⟩
  unfold majorOf minorOf
  cases hcv : dsm.configurationVersion with
  | none => rfl
  | some cv =>
      have hmajor := decide_eq_true (h.version cv hcv)
      simp only [Option.map_some, Option.getD_some, hmajor]
      rfl

theorem printable_portable (h : PortableMessage host w dsm) :
    printableVersion (fromJson host dsm).configurationVersion = true := by
  change printableVersion (dsm.configurationVersion.map fun cv => ⟨unsignZero cv.major,
    unsignZero cv.minor⟩) = true
  cases hcv : dsm.configurationVersion with
  | none => rfl
  | some cv =>
      obtain ⟨⟨major, hmajor, -⟩, minor, hminor, -⟩ := h.text.configurationVersion cv hcv
      rw [Option.map_some, printableVersion, Option.all_some, convertible_unsignZero,
        convertible_unsignZero, hmajor, hminor]
      rfl

theorem payload_fromUadp (h : PortableMessage host w dsm) (name : JsString) :
    Props.get? name (unwrapFields ((fromUadp host dsm).fields.getD [])) =
      (Props.get? name (unwrapFields ((fromJson host dsm).fields.getD []))).map
        (roundedAs w.publishedDataSet.fields name) := by
  have hagrees := payload_agrees h.distinct h.entries name
  by_cases hkeepalive : messageTypeOf dsm = .keepalive
  · have hempty := h.keepalive hkeepalive
    rw [hempty] at hagrees
    change Props.get? name (unwrapFields ((if decide (messageTypeOf dsm ≠ .keepalive) then _
      else none).getD [])) = (Props.get? name (unwrapFields (Props.ofEntries
        (returned (carried host) (dsm.fields.getD []))))).map _
    rw [hempty, decide_eq_false (not_not_intro hkeepalive)]
    exact hagrees
  · change Props.get? name (unwrapFields ((if decide (messageTypeOf dsm ≠ .keepalive) then _
      else none).getD [])) = (Props.get? name (unwrapFields (Props.ofEntries
        (returned (carried host) (dsm.fields.getD []))))).map _
    rw [decide_eq_true hkeepalive]
    exact hagrees

theorem kept_nat {n : Nat} (h : n ≤ 65535) : JsonEncoder.Kept (.nat n) := by
  refine ⟨Or.inr (Or.inr ⟨_, rfl⟩), fun d hd => ?_⟩
  cases hd
  exact (Double.denotes_ofInt (by omega)).isFinite

theorem kept_undefined : JsonEncoder.Kept .undefined := ⟨Or.inl rfl, nofun⟩

theorem portable_keyframe {source : JsValue} {seq : Nat}
    (hid : w.dataSetWriterId ≤ 65535)
    (hversion : IntegerIn 0 (256 ^ 4 - 1) w.publishedDataSet.configurationVersion.major ∧
      IntegerIn 0 (256 ^ 4 - 1) w.publishedDataSet.configurationVersion.minor)
    (h : PortableFields host w.publishedDataSet.fields source) (hseq : seq ≤ 65535) :
    PortableMessage host w (keyframeMessage host source w seq) where
  members := membersInRange_keyframe hversion hseq
  text :=
    ⟨kept_nat hid, kept_undefined, kept_undefined, kept_nat hseq, kept_undefined, by
      intro cv hcv
      cases hcv
      exact ⟨JsonEncoder.isFinite_of_integerIn (by decide) (by decide) hversion.1,
        JsonEncoder.isFinite_of_integerIn (by decide) (by decide) hversion.2⟩, Or.inl rfl⟩
  encoding := rfl
  dataSetWriterId := rfl
  version := by
    intro cv hcv
    cases hcv
    exact ne_undefined_of_integerIn hversion.1
  timestamp := rfl
  status := rfl
  keepalive := nofun
  distinct := Props.nodup_ofEntries _
  entries := fun e he => portableEntry_keyframe h he

theorem portable_keepAlive {seq : Nat} (hid : w.dataSetWriterId ≤ 65535) (hseq : seq ≤ 65535) :
    PortableMessage host w (keepAliveMessage w seq) where
  members :=
    { fieldEncoding := FieldEncoding.noConfusion
      sequenceNumber := Or.inr (integerIn_nat hseq)
      status := Or.inl rfl
      major := Or.inl rfl
      minor := Or.inl rfl
      timestamp := Or.inl rfl
      picoseconds := Or.inl rfl
      timed := fun hp => absurd rfl hp }
  text :=
    ⟨kept_nat hid, kept_undefined, kept_undefined, kept_nat hseq, kept_undefined, nofun,
      Or.inl rfl⟩
  encoding := rfl
  dataSetWriterId := rfl
  version := nofun
  timestamp := rfl
  status := rfl
  keepalive := fun _ => rfl
  distinct := List.nodup_nil
  entries := nofun

end Messages

/-! ## Network messages -/

section NetworkMessages

variable {dsms : List DataSetMessage}

theorem encodes_portableMessages (h : ∀ dsm ∈ dsms, ∃ w, PortableMessage host w dsm) :
    MessagesEncode host dsms (dsms.map (fromUadp host)) := by
  refine List.forall₂_map_right_iff.mpr (List.forall₂_same.mpr fun dsm hdsm => ?_)
  obtain ⟨w, hw⟩ := h dsm hdsm
  exact encodes_portableMessage hw

theorem text_portableMessages (h : ∀ dsm ∈ dsms, ∃ w, PortableMessage host w dsm) :
    ∃ js, dsms.mapM (JsonEncoder.encodeDataSetMessage host) = .ok (js.map some) ∧
      ∀ i, JsonEncoder.decodeMessages host i js = .ok (dsms.map (fromJson host)) := by
  induction dsms with
  | nil => exact ⟨[], rfl, fun i => rfl⟩
  | cons dsm dsms ih =>
      obtain ⟨w, hw⟩ := h dsm List.mem_cons_self
      obtain ⟨j, hj, hback⟩ := text_portableMessage hw
      obtain ⟨js, hjs, hrest⟩ := ih fun d hd => h d (List.mem_cons_of_mem _ hd)
      refine ⟨j :: js, ?_, fun i => ?_⟩
      · rw [List.mapM_cons, hj, hjs]
        rfl
      · exact JsonEncoder.decodeMessages_cons.mpr ⟨_, _, hback _, hrest (i + 1), rfl⟩

/-- What is sent for the same items that pass is compared item by item. -/
theorem forall₂_sent {α β : Type} {K : α → β → Prop} {R : Msg → Msg → Prop} {pass : α → β → Bool}
    {f f' : α → β → List SubscriberOutput} {g g' : α → β → Msg} {as : List α} {bs : List β}
    (h : List.Forall₂ K as bs)
    (hsent : ∀ a ∈ as, ∀ b, K a b → sent (f a b) = if pass a b then [g a b] else [])
    (hsent' : ∀ a ∈ as, ∀ b, K a b → sent (f' a b) = if pass a b then [g' a b] else [])
    (hmsg : ∀ a ∈ as, ∀ b, K a b → R (g a b) (g' a b)) :
    List.Forall₂ R (sent (List.zipWith f as bs).flatten) (sent (List.zipWith f' as bs).flatten) := by
  induction h with
  | nil => exact List.Forall₂.nil
  | @cons a b as bs hab _ ih =>
      have hrest := ih (fun c hc => hsent c (List.mem_cons_of_mem a hc))
        (fun c hc => hsent' c (List.mem_cons_of_mem a hc))
        fun c hc => hmsg c (List.mem_cons_of_mem a hc)
      rw [List.zipWith_cons_cons, List.zipWith_cons_cons, List.flatten_cons, List.flatten_cons,
        sent_append, sent_append, hsent a List.mem_cons_self b hab,
        hsent' a List.mem_cons_self b hab]
      cases pass a b with
      | false => exact hrest
      | true => exact List.Forall₂.cons (hmsg a List.mem_cons_self b hab) hrest

end NetworkMessages

section Subscribers

variable {config : PublisherConfig} {message : DataSetWriter → Nat → DataSetMessage} {built : Int}
  {st : PublisherState} {sub : SubscriberConfig} {now : Int} {topic : Option JsString}

/-- The place of a DataSetMessage is that of its writer. -/
theorem getD_writerIds {writers : List DataSetWriter} {dsms : List DataSetMessage}
    (h : List.Forall₂ (PortableMessage host) writers dsms) {i : Nat} {dsm : DataSetMessage}
    (hdsm : dsms[i]? = some dsm) :
    (writers.map fun w => JsValue.nat w.dataSetWriterId).getD i .undefined =
      dsm.dataSetWriterId := by
  obtain ⟨hi, rfl⟩ := List.getElem?_eq_some_iff.mp hdsm
  have hlength := h.length_eq
  have hw : i < writers.length := by omega
  have hmessage := h.get hw hi
  rw [List.get_eq_getElem, List.get_eq_getElem] at hmessage
  rw [hmessage.dataSetWriterId, List.getD_eq_getElem?_getD, List.getElem?_map,
    List.getElem?_eq_getElem hw]
  rfl

/-- The messages of the writers, handled by place. -/
theorem handle_eq {writers : List DataSetWriter} {dsms : List DataSetMessage}
    (h : List.Forall₂ (PortableMessage host) writers dsms) {from' : DataSetMessage → DataSetMessage}
    {nm : NetworkMessage} (hpayload : nm.payload = dsms.map from')
    (hversions : ∀ w dsm, PortableMessage host w dsm →
      printableVersion (from' dsm).configurationVersion = true)
    (hids : ∀ i dsm, dsms[i]? = some dsm →
      (if (from' dsm).dataSetWriterId ≠ .undefined then (from' dsm).dataSetWriterId
        else (nm.payloadHeader.getD []).getD i .undefined) = dsm.dataSetWriterId) :
    sent (handleNetworkMessage host sub now topic nm) = sent (List.zipWith (fun w dsm =>
      outputsFor host sub now topic nm (.nat w.dataSetWriterId) (from' dsm)) writers dsms).flatten := by
  have hlength : (writers.map fun w => JsValue.nat w.dataSetWriterId).length = nm.payload.length := by
    rw [hpayload, List.length_map, List.length_map, h.length_eq]
  have hversioned : Versioned nm := by
    intro d hd
    rw [hpayload] at hd
    obtain ⟨dsm, hdsm, rfl⟩ := List.mem_map.mp hd
    obtain ⟨w, -, hmessage⟩ := exists_left_of_forall₂ h hdsm
    exact hversions w dsm hmessage
  rw [handleNetworkMessage_eq hlength hversioned, hpayload, List.zipWith_map]
  intro i d hd
  rw [hpayload, List.getElem?_map] at hd
  obtain ⟨dsm, hdsm, rfl⟩ := Option.map_eq_some_iff.mp hd
  rw [hids i dsm hdsm, getD_writerIds h hdsm]

theorem printed_nat {n : Nat} (h : n ≤ 65535) : JsonEncoder.printed (.nat n) = .nat n := by
  rw [(kept_nat h).printed, unsignZero_nat h]

/-- A publisher that is no BigInt is printed with its type. -/
theorem printed_publisherId {v : JsValue} (h : Optional IsPublisherId v)
    (hbig : ∀ i, v ≠ .bigint i) :
    JsonEncoder.Member v ∧ JsonEncoder.printed v = unsignZero v := by
  have hkept : JsonEncoder.Kept v := by
    rcases h with rfl | hv | ⟨i, -, -, rfl⟩ | ⟨s, rfl, -⟩
    · exact kept_undefined
    · obtain ⟨d, rfl, hfinite⟩ := JsonEncoder.isFinite_of_integerIn (by decide) (by decide) hv
      refine ⟨Or.inr (Or.inr ⟨d, rfl⟩), fun e he => ?_⟩
      cases he
      exact hfinite
    · exact absurd rfl (hbig i)
    · exact ⟨Or.inr (Or.inl ⟨s, rfl⟩), nofun⟩
  exact ⟨hkept.1, hkept.printed⟩

/-- The members of the header that a subscriber reads. -/
structure HeaderOf (config : PublisherConfig) (built : Int) (st : PublisherState)
    (nm : NetworkMessage) : Prop where
  publisherId : nm.publisherId = unsignZero config.publisherId
  writerGroupId : (nm.groupHeader.map (·.writerGroupId)).getD .undefined =
    .nat config.writerGroupId
  sequenceNumber : (nm.groupHeader.map (·.sequenceNumber)).getD .undefined =
    .nat (nextSeq st.nmSeq)
  timestamp : nm.timestamp = .date (some built)

theorem headerOf_uadp (hconfig : Configured config) (ds : List DataSetMessage) :
    HeaderOf config built st
      { headerNormal (buildMessage config message built st).1 with payload := ds } :=
  ⟨rfl, unsignZero_nat hconfig.writerGroupId.2, unsignZero_nat (nextSeq_le st.nmSeq), rfl⟩

theorem headerOf_json (hconfig : Configured config) (hpublisher : ∀ i, config.publisherId ≠ .bigint i)
    (uuid : JsString) (ds : List DataSetMessage) :
    HeaderOf config built st
      (JsonEncoder.decodedNetwork uuid (buildMessage config message built st).1 ds) := by
  have hgid := printed_nat hconfig.writerGroupId.2
  have hseq := printed_nat (nextSeq_le st.nmSeq)
  have hgroup : (JsonEncoder.decodedNetwork uuid (buildMessage config message built st).1
      ds).groupHeader = some { writerGroupId := .nat config.writerGroupId,
                               sequenceNumber := .nat (nextSeq st.nmSeq) } := by
    change (if JsonEncoder.printed (.nat config.writerGroupId) ≠ .undefined ∨
      JsonEncoder.printed (.nat (nextSeq st.nmSeq)) ≠ .undefined then
        some (GroupHeader.mk (JsonEncoder.printed (.nat config.writerGroupId)) .undefined .undefined
          (JsonEncoder.printed (.nat (nextSeq st.nmSeq)))) else none) = _
    rw [hgid, hseq, if_pos (Or.inl nofun)]
  refine ⟨(printed_publisherId hconfig.publisherId hpublisher).2, ?_, ?_, rfl⟩
  · rw [hgroup]
    rfl
  · rw [hgroup]
    rfl

theorem sent_headerOf {nm : NetworkMessage} (h : HeaderOf config built st nm) (id : JsValue)
    (d : DataSetMessage) :
    sent (outputsFor host sub now topic nm id d) =
      if accepts host sub config.publisherId (.nat config.writerGroupId) id &&
        (mismatch? sub d.configurationVersion).isNone then [msgOf sub now topic nm id d] else [] := by
  rw [sent_outputsFor, h.writerGroupId, h.publisherId, accepts_unsignZero]

variable {sub' : SubscriberConfig} {now' : Int} {topic' : Option JsString}

theorem sameMsg {w : DataSetWriter} {dsm : DataSetMessage} {nm nm' : NetworkMessage}
    (h : HeaderOf config built st nm) (h' : HeaderOf config built st nm')
    (hmessage : PortableMessage host w dsm) (id : JsValue) :
    SameMsg w.publishedDataSet.fields (msgOf sub now topic nm id (fromUadp host dsm))
      (msgOf sub' now' topic' nm' id (fromJson host dsm)) where
  payload := payload_fromUadp hmessage
  publisherId := h.publisherId.trans h'.publisherId.symm
  writerGroupId := h.writerGroupId.trans h'.writerGroupId.symm
  dataSetWriterId := rfl
  sequenceNumber := by
    simp only [msgOf, h.sequenceNumber, h'.sequenceNumber]
    rw [if_pos nofun, if_pos nofun]
  timestamp := by
    have hown : (fromUadp host dsm).timestamp = .undefined ∧
        (fromJson host dsm).timestamp = .undefined := ⟨hmessage.timestamp, hmessage.timestamp⟩
    simp only [msgOf, hown, h.timestamp, h'.timestamp]
    rfl
  statusCode := by
    have hown : (fromUadp host dsm).status = unsignZero dsm.status ∧
        (fromJson host dsm).status = unsignZero dsm.status := ⟨rfl, rfl⟩
    simp only [msgOf, hown]

/-- Over UADP the ids stand in the payload header. -/
theorem handle_uadp (hconfig : Configured config) (h : List.Forall₂ (PortableMessage host)
      config.writers (buildMessage config message built st).1.payload) {nm : NetworkMessage}
    (hnm : nm = { headerNormal (buildMessage config message built st).1 with
      payload := (buildMessage config message built st).1.payload.map (fromUadp host) }) :
    sent (handleNetworkMessage host sub now topic nm) =
      sent (List.zipWith (fun w dsm =>
        outputsFor host sub now topic nm (.nat w.dataSetWriterId) (fromUadp host dsm))
        config.writers (buildMessage config message built st).1.payload).flatten := by
  refine handle_eq h (by rw [hnm]) (fun w dsm hmessage => ?_) fun i dsm hdsm => ?_
  · rw [version_agrees hmessage]
    exact printable_portable hmessage
  rw [← getD_writerIds h hdsm, hnm]
  change ((config.writers.map fun w => JsValue.nat w.dataSetWriterId).map unsignZero).getD i _ = _
  rw [List.map_map]
  congr 1
  exact List.map_congr_left fun w hw => unsignZero_nat (hconfig.writerIds w hw).2

/-- Over JSON they stand in the messages. -/
theorem handle_json (hconfig : Configured config) (h : List.Forall₂ (PortableMessage host)
      config.writers (buildMessage config message built st).1.payload) {uuid : JsString}
    {nm : NetworkMessage}
    (hnm : nm = JsonEncoder.decodedNetwork uuid (buildMessage config message built st).1
      ((buildMessage config message built st).1.payload.map (fromJson host))) :
    sent (handleNetworkMessage host sub now topic nm) =
      sent (List.zipWith (fun w dsm =>
        outputsFor host sub now topic nm (.nat w.dataSetWriterId) (fromJson host dsm))
        config.writers (buildMessage config message built st).1.payload).flatten := by
  refine handle_eq h (by rw [hnm]; rfl) (fun w dsm hmessage => printable_portable hmessage)
    fun i dsm hdsm => ?_
  obtain ⟨w, hw, hmessage⟩ := exists_left_of_forall₂ h (List.mem_of_getElem? hdsm)
  have hid : (fromJson host dsm).dataSetWriterId = .nat w.dataSetWriterId := by
    change unsignZero dsm.dataSetWriterId = _
    rw [hmessage.dataSetWriterId, unsignZero_nat (hconfig.writerIds w hw).2]
  rw [hid, if_pos nofun, hmessage.dataSetWriterId]

theorem accepts_congr (h : sub'.reader = sub.reader) (publisherId writerGroupId id : JsValue) :
    accepts host sub' publisherId writerGroupId id = accepts host sub publisherId writerGroupId id := by
  rw [accepts, accepts, comparable, comparable, h]

theorem mismatch?_congr (h : sub'.expectedCv = sub.expectedCv) (got : Option ConfigurationVersion) :
    mismatch? sub' got = mismatch? sub got := by
  rw [mismatch?.eq_def, mismatch?.eq_def, h]

/-- Both subscribers send the same messages for what the decoders return. -/
theorem agree_handle {uuid : JsString} (hconfig : Configured config)
    (hpublisher : ∀ i, config.publisherId ≠ .bigint i) (hreader : sub'.reader = sub.reader)
    (hversion : sub'.expectedCv = sub.expectedCv)
    (h : List.Forall₂ (PortableMessage host) config.writers
      (buildMessage config message built st).1.payload) {nm nm' : NetworkMessage}
    (hnm : nm = { headerNormal (buildMessage config message built st).1 with
      payload := (buildMessage config message built st).1.payload.map (fromUadp host) })
    (hnm' : nm' = JsonEncoder.decodedNetwork uuid (buildMessage config message built st).1
      ((buildMessage config message built st).1.payload.map (fromJson host))) :
    Agree config (sent (handleNetworkMessage host sub now topic nm))
      (sent (handleNetworkMessage host sub' now' topic' nm')) := by
  have hheader : HeaderOf config built st nm := hnm ▸ headerOf_uadp hconfig _
  have hheader' : HeaderOf config built st nm' := hnm' ▸ headerOf_json hconfig hpublisher uuid _
  have hsent' : ∀ w ∈ config.writers, ∀ dsm, PortableMessage host w dsm →
      sent (outputsFor host sub' now' topic' nm' (.nat w.dataSetWriterId) (fromJson host dsm)) =
        if accepts host sub config.publisherId (.nat config.writerGroupId)
            (.nat w.dataSetWriterId) &&
          (mismatch? sub (fromUadp host dsm).configurationVersion).isNone then
          [msgOf sub' now' topic' nm' (.nat w.dataSetWriterId) (fromJson host dsm)]
        else [] := by
    intro w _ dsm hmessage
    rw [sent_headerOf hheader', version_agrees hmessage, accepts_congr hreader,
      mismatch?_congr hversion]
  rw [handle_uadp hconfig h hnm, handle_json hconfig h hnm']
  exact forall₂_sent h (fun w _ dsm _ => sent_headerOf hheader _ _) hsent'
    fun w hw dsm hmessage => ⟨w, hw, rfl, sameMsg hheader hheader' hmessage _⟩

/-- The JSON decoder returns the header and the messages of a text. -/
theorem text_build (hconfig : Configured config) (hpublisher : ∀ i, config.publisherId ≠ .bigint i)
    (hbuilt : built.natAbs ≤ maxTime)
    (h : List.Forall₂ (PortableMessage host) config.writers
      (buildMessage config message built st).1.payload) {uuid : JsString} {text : JsonEncoder.Text}
    (htext : JsonEncoder.encodeNetworkMessage host uuid (buildMessage config message built st).1 =
      .ok text) :
    JsonEncoder.decodeNetworkMessage host text =
      .ok (JsonEncoder.decodedNetwork uuid (buildMessage config message built st).1
        ((buildMessage config message built st).1.payload.map (fromJson host))) := by
  have hheader : JsonEncoder.HeaderInDomain (buildMessage config message built st).1 := by
    constructor
    case messageId => exact Or.inl rfl
    case publisherId => exact (printed_publisherId hconfig.publisherId hpublisher).1
    case writerGroupName => exact Or.inl rfl
    case dataSetClassId => exact Or.inl rfl
    case groupHeader =>
      intro gh hgh
      cases hgh
      exact ⟨Or.inr (Or.inr ⟨_, rfl⟩), Or.inr (Or.inr ⟨_, rfl⟩)⟩
    case timestamp => exact Or.inr ⟨built, rfl, hbuilt⟩
  obtain ⟨messages, hmessages, hback⟩ := @text_portableMessages host _ fun dsm hdsm => by
    obtain ⟨w, -, hw⟩ := exists_left_of_forall₂ h hdsm
    exact ⟨w, hw⟩
  cases (JsonEncoder.encodeNetworkMessage_eq hheader hmessages).symm.trans htext
  rw [JsonEncoder.decodeNetworkMessage_eq hheader, hback]
  rfl

end Subscribers

/-! ## Frames of a publisher -/

/-- A keyframe of the given values, or a KeepAlive. -/
def builtFrame (host : Host) (config : PublisherConfig) (source : Option JsValue) (built : Int)
    (st : PublisherState) : NetworkMessage :=
  match source with
  | some values => (buildNetworkMessage host config values built st).1
  | none => (buildKeepAlive config built st).1

/-- The fields of a keyframe are portable; a KeepAlive has none. -/
def PortableFrame (host : Host) (config : PublisherConfig) (source : Option JsValue) : Prop :=
  ∀ values, source = some values →
    ∀ w ∈ config.writers, PortableFields host w.publishedDataSet.fields values

theorem builtFrame_eq {config : PublisherConfig} (hconfig : Configured config)
    {source : Option JsValue} (h : PortableFrame host config source) (built : Int)
    (st : PublisherState) :
    ∃ message, builtFrame host config source built st = (buildMessage config message built st).1 ∧
      List.Forall₂ (PortableMessage host) config.writers
        (buildMessage config message built st).1.payload := by
  cases source with
  | some values =>
      refine ⟨keyframeMessage host values, rfl, ?_⟩
      refine buildPayload_forall₂ config.writers (fun w hw seq hseq => ?_) st.dsmSeq
      exact portable_keyframe (hconfig.writerIds w hw).2 (hconfig.versions w hw)
        (h values rfl w hw) hseq
  | none =>
      refine ⟨keepAliveMessage, rfl, ?_⟩
      refine buildPayload_forall₂ config.writers (fun w hw seq hseq => ?_) st.dsmSeq
      exact portable_keepAlive (hconfig.writerIds w hw).2 hseq

/-- A keyframe or KeepAlive that both encoders accept reaches two subscribers with
the same filter as the same messages, whether as frames of UADP or as a JSON text,
when the publisher is no BigInt, the fields are portable and the reassembler takes
the message. -/
theorem agree_of_portable {config : PublisherConfig} (hconfig : Configured config) {built : Int}
    (hbuilt : built.natAbs ≤ maxTime) {st : PublisherState} {source : Option JsValue} {mtu : Int}
    {encoded : Encoded} (hencode : Uadp.encodeNetworkMessage host
      (builtFrame host config source built st) mtu = .ok encoded)
    {uuid : JsString} {text : JsonEncoder.Text}
    (htext : JsonEncoder.encodeNetworkMessage host uuid (builtFrame host config source built st) =
      .ok text)
    {sub sub' : SubscriberConfig} (_huadp : sub.encoding = .uadp) (_hjson : sub'.encoding = .json)
    (hreader : sub'.reader = sub.reader) (hversion : sub'.expectedCv = sub.expectedCv)
    {udpMtu : Nat} {arrivals : List Arrival} {t0 : Int}
    (hperm : (arrivals.map Prod.snd).Perm encoded.frames)
    (hwindow : ∀ a ∈ arrivals, t0 ≤ a.1 ∧ a.1 ≤ t0 + reassemblyExpiryMs)
    (hpublisher : ∀ i, config.publisherId ≠ .bigint i) (hframe : PortableFrame host config source)
    (htaken : Taken host (builtFrame host config source built st) (initialReassembler sub udpMtu)
      encoded) (topic topic' : Option JsString) (now' : Int) :
    Agree config (sent (receiveAll host sub topic (initialReassembler sub udpMtu) arrivals))
      (sent (onText host sub' now' topic' text)) := by
  obtain ⟨message, hmessage, h⟩ := builtFrame_eq hconfig hframe built st
  rw [hmessage] at hencode htext htaken
  have hds := encodes_portableMessages fun dsm hdsm => by
    obtain ⟨w, -, hw⟩ := exists_left_of_forall₂ h hdsm
    exact ⟨w, hw⟩
  have hlength : ((buildMessage config message built st).1.payload.map (fromUadp host)).length =
      config.writers.length := by rw [List.length_map, h.length_eq]
  have hclass : ClassIdFits (buildMessage config message built st).1 := fun h => nomatch h
  obtain ⟨now, hsent, -⟩ := @sent_receiveAll host sub topic _ _ mtu encoded
    (initialReassembler sub udpMtu) arrivals t0 hencode hclass
    (fun whole hwhole => decode_build hconfig built hds hlength hwhole) rfl
    (initialReassembler_entries sub udpMtu) hperm hwindow
  rw [hsent htaken, onText, text_build hconfig hpublisher hbuilt h htext]
  exact agree_handle hconfig hpublisher hreader hversion h rfl rfl

/-- The subscriber to the group that reads JSON. -/
def groupReaderJson : SubscriberConfig :=
  { groupReader with encoding := .json, udp_uadp := fun h => nomatch h }

/-- An Int32 that both subscribers are sent. -/
theorem agree_int32 : ∃ frame text,
    Uadp.encodeNetworkMessage Host.inert (builtFrame Host.inert (oneField (js "t") (js "Int32"))
        (some (.object [(js "t", .num (Double.ofInt (-7)))])) 0 {}) 1400 = .ok (.single frame) ∧
      JsonEncoder.encodeNetworkMessage Host.inert (js "m")
        (builtFrame Host.inert (oneField (js "t") (js "Int32"))
          (some (.object [(js "t", .num (Double.ofInt (-7)))])) 0 {}) = .ok text ∧
      Agree (oneField (js "t") (js "Int32"))
        (sent (receiveAll Host.inert groupReader none (initialReassembler groupReader 1400)
          [(0, frame)]))
        (sent (onText Host.inert groupReaderJson 0 none text)) := by
  have hencode : Uadp.encodeNetworkMessage Host.inert
      (builtFrame Host.inert (oneField (js "t") (js "Int32"))
        (some (.object [(js "t", .num (Double.ofInt (-7)))])) 0 {}) 1400 =
      .ok (.single [241, 32, 5, 7, 0, 0, 0, 0, 0, 0, 0, 1, 0, 1, 3, 0, 0, 128, 62, 213, 222, 177,
        157, 1, 105, 1, 0, 1, 0, 0, 0, 0, 0, 0, 0, 1, 0, 1, 0, 116, 6, 249, 255, 255, 255]) := by
    decide +kernel
  have hframe : PortableFrame Host.inert (oneField (js "t") (js "Int32"))
      (some (.object [(js "t", .num (Double.ofInt (-7)))])) := by
    intro values hvalues w hw name dataType _ hdeclared _
    cases hvalues
    obtain rfl := List.mem_singleton.mp hw
    obtain ⟨hname, hdataType⟩ :=
      Prod.mk.inj (List.mem_singleton.mp (Props.last?_eq_some hdeclared))
    subst hname hdataType
    refine ⟨by decide, .Int32, by decide, ?_, nofun⟩
    intro x hx
    obtain rfl := List.mem_singleton.mp hx
    exact ⟨-7, by decide, by decide, Or.inl rfl⟩
  cases htext : JsonEncoder.encodeNetworkMessage Host.inert (js "m")
      (builtFrame Host.inert (oneField (js "t") (js "Int32"))
        (some (.object [(js "t", .num (Double.ofInt (-7)))])) 0 {}) with
  | error e =>
      have hok : (JsonEncoder.encodeNetworkMessage Host.inert (js "m")
          (builtFrame Host.inert (oneField (js "t") (js "Int32"))
            (some (.object [(js "t", .num (Double.ofInt (-7)))])) 0 {})).isOk = true := by
        decide +kernel
      rw [htext] at hok
      cases hok
  | ok text =>
      refine ⟨_, text, hencode, rfl, ?_⟩
      refine @agree_of_portable Host.inert _ (oneField_configured _ _) 0 (by decide) {} _ 1400 _
        hencode (js "m") text htext groupReader groupReaderJson rfl rfl rfl rfl 1400 [(0, _)] 0
        (List.Perm.refl _) ?_ nofun hframe trivial none none 0
      intro a ha
      obtain rfl := List.mem_singleton.mp ha
      decide

/-- Over UADP an array of two Int64 values arrives; the JSON decoder rejects it, and
nothing is sent. -/
theorem int64_array_differs : ¬ ∀ (host : Host) (config : PublisherConfig) (built : Int)
    (st : PublisherState) (source : Option JsValue) (mtu : Int) (encoded : Encoded) (uuid : JsString)
    (text : JsonEncoder.Text) (sub sub' : SubscriberConfig) (udpMtu : Nat)
    (arrivals : List Arrival) (t0 : Int) (topic topic' : Option JsString) (now' : Int),
    Configured config → built.natAbs ≤ maxTime →
    Uadp.encodeNetworkMessage host (builtFrame host config source built st) mtu = .ok encoded →
    JsonEncoder.encodeNetworkMessage host uuid (builtFrame host config source built st) = .ok text →
    sub.encoding = .uadp → sub'.encoding = .json → sub'.reader = sub.reader →
    sub'.expectedCv = sub.expectedCv → (arrivals.map Prod.snd).Perm encoded.frames →
    (∀ a ∈ arrivals, t0 ≤ a.1 ∧ a.1 ≤ t0 + reassemblyExpiryMs) →
    Agree config (sent (receiveAll host sub topic (initialReassembler sub udpMtu) arrivals))
      (sent (onText host sub' now' topic' text)) := by
  intro h
  have hjson : (JsonEncoder.encodeNetworkMessage Host.inert (js "m")
      (builtFrame Host.inert (oneField (js "t") (js "Int64"))
        (some (.object [(js "t", .array [.bigint 1, .bigint 2])])) 0 {})).map
      (fun text => (sent (onText Host.inert groupReaderJson 0 none text)).length) = .ok 0 := by
    decide +kernel
  obtain ⟨text, htext, hnone⟩ := map_eq_ok.mp hjson
  have hagree := h Host.inert (oneField (js "t") (js "Int64")) 0 {}
    (some (.object [(js "t", .array [.bigint 1, .bigint 2])])) 1400
    (.single [241, 32, 5, 7, 0, 0, 0, 0, 0, 0, 0, 1, 0, 1, 3, 0, 0, 128, 62, 213, 222, 177, 157, 1,
      105, 1, 0, 1, 0, 0, 0, 0, 0, 0, 0, 1, 0, 1, 0, 116, 72, 2, 0, 0, 0, 1, 0, 0, 0, 0, 0, 0, 0,
      2, 0, 0, 0, 0, 0, 0, 0]) (js "m") text groupReader groupReaderJson 1400
    [(0, [241, 32, 5, 7, 0, 0, 0, 0, 0, 0, 0, 1, 0, 1, 3, 0, 0, 128, 62, 213, 222, 177, 157, 1,
      105, 1, 0, 1, 0, 0, 0, 0, 0, 0, 0, 1, 0, 1, 0, 116, 72, 2, 0, 0, 0, 1, 0, 0, 0, 0, 0, 0, 0,
      2, 0, 0, 0, 0, 0, 0, 0])] 0 none none 0
    (oneField_configured _ _) (by decide) (by decide +kernel) htext rfl rfl rfl rfl
    (List.Perm.refl _) (by
      intro a ha
      obtain rfl := List.mem_singleton.mp ha
      decide)
  have hlength := hagree.length_eq
  rw [hnone] at hlength
  exact absurd hlength (by decide +kernel)

end OpcUaSuite.Nodes
