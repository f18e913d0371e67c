import OpcUaSuite.JsonEncoder.ValueRoundTrip

/-!
# The JSON round trip

A message in the domain of its types is always printed. It comes back with every
DataSetMessage and field in its place exactly when a text can hold each value, no
field is called `__proto__` and no DataSetMessage has a number for a publisher.
-/

namespace OpcUaSuite.JsonEncoder

open Js ByteCodec PubSub Utils BinaryFloat
open Uadp (IntegerIn elements isArray unsignZero)

/-! ## Members -/

/-- The members of an object that are not left out. -/
def defined (members : List (JsString × JsValue)) : List (JsString × JsValue) :=
  members.filter fun m => m.2 ≠ .undefined

/-- The texts of these members. -/
def texts (members : List (JsString × JsValue)) : List (JsString × Text) :=
  (defined members).map fun m => (m.1, some m.2)

theorem texts_append (l m : List (JsString × JsValue)) : texts (l ++ m) = texts l ++ texts m := by
  rw [texts, defined, List.filter_append, List.map_append]
  rfl

theorem mapM_text (members : List (JsString × JsValue)) :
    ((members.map fun m => (m.1, some m.2)).mapM fun m : JsString × Text =>
      m.2.map fun v => (m.1, v)) = some members := by
  induction members with
  | nil => rfl
  | cons m members ih =>
      rw [List.map_cons, List.mapM_cons, ih]
      rfl

theorem objectText_map (members : List (JsString × JsValue)) :
    objectText (members.map fun m => (m.1, some m.2)) = some (.object members) := by
  rw [objectText, mapM_text]
  rfl

theorem objectText_texts (members : List (JsString × JsValue)) :
    objectText (texts members) = some (.object (defined members)) := objectText_map _

theorem arrayText_map (items : List JsValue) : arrayText (items.map some) = some (.array items) := by
  have hitems : (items.map some).mapM (m := Option) id = some items := by
    induction items with
    | nil => rfl
    | cons v items ih =>
        rw [List.map_cons, List.mapM_cons, ih]
        rfl
  rw [arrayText, hitems]
  rfl

theorem memberOf_defined {members : List (JsString × JsValue)} {name : JsString} {v : JsValue}
    (hnodup : (members.map Prod.fst).Nodup) (h : (name, v) ∈ members) :
    memberOf (.object (defined members)) name = v := by
  have hkeys : (InsertionMap.keys (defined members)).Nodup := InsertionMap.nodup_filter hnodup
  change (InsertionMap.get? name (defined members)).getD .undefined = v
  by_cases hv : v = .undefined
  · cases hget : InsertionMap.get? name (defined members) with
    | none => exact hv.symm
    | some w =>
        have hw := InsertionMap.get?_of_get?_filter hnodup hget
        rw [InsertionMap.get?_of_mem hnodup h] at hw
        exact (Option.some.inj hw).symm
  · have hmem : (name, v) ∈ defined members := List.mem_filter.mpr ⟨h, by simpa using hv⟩
    rw [InsertionMap.get?_of_mem hkeys hmem]
    rfl

/-- What is printed for a string or a number. -/
def printed : JsValue → JsValue
  | .num d => Json.number d
  | v => v

/-- A member that is absent, a string or a number. -/
def Member (v : JsValue) : Prop := v = .undefined ∨ (∃ s, v = .str s) ∨ ∃ d, v = .num d

theorem memberText_eq {name : JsString} {v : JsValue} (h : Member v) :
    memberText name v = .ok (texts [(name, printed v)]) := by
  rcases h with rfl | ⟨s, rfl⟩ | ⟨d, rfl⟩
  · rfl
  · rfl
  · have hdefined : printed (.num d) ≠ .undefined := by
      rcases number_cases d with hd | ⟨e, hd⟩
      · simp [printed, hd]
      · simp [printed, hd]
    simp only [texts, defined, List.filter_cons, hdefined, ne_eq, not_false_eq_true, decide_true,
      if_true, List.filter_nil]
    rfl

/-- A valid date, or none. -/
def Dated (v : JsValue) : Prop :=
  v = .undefined ∨ ∃ time, v = .date (some time) ∧ time.natAbs ≤ maxTime

def printedDate : JsValue → JsValue
  | .date (some time) => .str (isoText time)
  | _ => .undefined

theorem dateText_eq {name : JsString} {v : JsValue} (h : Dated v) :
    dateText name v = .ok (texts [(name, printedDate v)]) := by
  rcases h with rfl | ⟨time, rfl, -⟩
  · rfl
  · rfl

theorem timestampOf_printedDate {host : Host} {v : JsValue} (h : Dated v) :
    timestampOf host (printedDate v) = .ok v := by
  rcases h with rfl | ⟨time, rfl, htime⟩
  · rfl
  · have htruthy : (JsValue.str (isoText time)).truthy = true := by
      rw [isoText_eq]
      simp [JsValue.truthy, afterYear]
    rw [printedDate, timestampOf, if_pos htruthy, dateOf_isoText htime]

/-! ## DataSetMessages -/

/-- A member that is absent, a string or a finite number comes back as it was, but
for the sign of zero. -/
def Kept (v : JsValue) : Prop := Member v ∧ ∀ d, v = .num d → d.isFinite = true

theorem Kept.printed {v : JsValue} (h : Kept v) : printed v = unsignZero v := by
  obtain ⟨rfl | ⟨s, rfl⟩ | ⟨d, rfl⟩, hfinite⟩ := h
  · decide
  · rfl
  · change Json.number d = _
    rw [number_eq, if_pos (hfinite d rfl)]

structure VersionInDomain (cv : ConfigurationVersion) : Prop where
  major : ∃ d, cv.major = .num d ∧ d.isFinite = true
  minor : ∃ d, cv.minor = .num d ∧ d.isFinite = true

def FieldInDomain (field : Field) : Prop :=
  ∃ v t, field = .variant v ∧ typeOf? v.dataType = some t ∧ ValueInDomain t v.value

structure DataSetMessageInDomain (dsm : DataSetMessage) : Prop where
  dataSetWriterId : Kept dsm.dataSetWriterId
  dataSetWriterName : Kept dsm.dataSetWriterName
  publisherId : Kept dsm.publisherId
  writerGroupName : Kept dsm.writerGroupName
  sequenceNumber : Kept dsm.sequenceNumber
  status : Kept dsm.status
  configurationVersion : ∀ cv, dsm.configurationVersion = some cv → VersionInDomain cv
  timestamp : Dated dsm.timestamp
  names : Props.Ordered ((dsm.fields.getD []).map Prod.fst)
  fields : ∀ e ∈ dsm.fields.getD [], FieldInDomain e.2

/-- The members around the fields, and a publisher printed as any value is. -/
structure MembersInDomain (dsm : DataSetMessage) : Prop where
  dataSetWriterId : Kept dsm.dataSetWriterId
  dataSetWriterName : Kept dsm.dataSetWriterName
  writerGroupName : Kept dsm.writerGroupName
  sequenceNumber : Kept dsm.sequenceNumber
  status : Kept dsm.status
  configurationVersion : ∀ cv, dsm.configurationVersion = some cv → VersionInDomain cv
  timestamp : Dated dsm.timestamp

theorem DataSetMessageInDomain.members {dsm : DataSetMessage} (h : DataSetMessageInDomain dsm) :
    MembersInDomain dsm :=
  ⟨h.dataSetWriterId, h.dataSetWriterName, h.writerGroupName, h.sequenceNumber, h.status,
    h.configurationVersion, h.timestamp⟩

def publisherText (host : Host) (v : JsValue) : JsValue :=
  if v = .undefined then .undefined else .str (host.toText v)

def versionMembers (cv : ConfigurationVersion) : List (JsString × JsValue) :=
  [(js "MajorVersion", printed cv.major), (js "MinorVersion", printed cv.minor)]

def versionValue : Option ConfigurationVersion → JsValue
  | none => .undefined
  | some cv => .object (versionMembers cv)

theorem versionText_eq {version : Option ConfigurationVersion}
    (h : ∀ cv, version = some cv → VersionInDomain cv) :
    versionText version = .ok (texts [(js "MetaDataVersion", versionValue version)]) := by
  cases version with
  | none => rfl
  | some cv =>
      obtain ⟨major, minor⟩ := cv
      obtain ⟨⟨d, hd, -⟩, ⟨e, he, -⟩⟩ := h _ rfl
      cases hd
      cases he
      rfl

theorem versionOf_versionValue {version : Option ConfigurationVersion}
    (h : ∀ cv, version = some cv → VersionInDomain cv) :
    versionOf (versionValue version) =
      version.map fun cv => ⟨unsignZero cv.major, unsignZero cv.minor⟩ := by
  cases version with
  | none => rfl
  | some cv =>
      obtain ⟨major, minor⟩ := cv
      obtain ⟨⟨d, hd, hfinite⟩, ⟨e, he, hfinite'⟩⟩ := h _ rfl
      cases hd
      cases he
      have hnodup : (InsertionMap.keys (versionMembers ⟨.num d, .num e⟩)).Nodup := by
        change [js "MajorVersion", js "MinorVersion"].Nodup
        decide
      have hmajor : memberOf (versionValue (some ⟨.num d, .num e⟩)) (js "MajorVersion") =
          Json.number d :=
        congrArg (Option.getD · .undefined) (InsertionMap.get?_of_mem hnodup List.mem_cons_self)
      have hminor : memberOf (versionValue (some ⟨.num d, .num e⟩)) (js "MinorVersion") =
          Json.number e :=
        congrArg (Option.getD · .undefined)
          (InsertionMap.get?_of_mem hnodup (List.mem_cons_of_mem _ List.mem_cons_self))
      change some (ConfigurationVersion.mk _ _) = some _
      rw [hmajor, hminor, number_eq, number_eq, if_pos hfinite, if_pos hfinite']

/-- The members of a DataSetMessage in the order of the format. -/
def dataSetMembers (host : Host) (dsm : DataSetMessage) (payload : List (JsString × JsValue)) :
    List (JsString × JsValue) :=
  [(js "DataSetWriterId", printed dsm.dataSetWriterId),
    (js "DataSetWriterName", printed dsm.dataSetWriterName),
    (js "PublisherId", publisherText host dsm.publisherId),
    (js "WriterGroupName", printed dsm.writerGroupName),
    (js "SequenceNumber", printed dsm.sequenceNumber),
    (js "MetaDataVersion", versionValue dsm.configurationVersion),
    (js "Timestamp", printedDate dsm.timestamp), (js "Status", printed dsm.status),
    (js "MessageType", .str (messageTypeWire (dsm.messageType.getD .keyframe))),
    (js "Payload", .object payload)]

/-- A DataSetMessage as a value of the text. -/
def dataSetValue (host : Host) (dsm : DataSetMessage) (payload : List (JsString × JsValue)) :
    JsValue := .object (defined (dataSetMembers host dsm payload))

/-- The DataSetMessage that is read back, with the given fields. -/
def decodedMessage (host : Host) (dsm : DataSetMessage) (fields : List (JsString × Field)) :
    DataSetMessage where
  dataSetWriterId := unsignZero dsm.dataSetWriterId
  dataSetWriterName := unsignZero dsm.dataSetWriterName
  publisherId := publisherText host dsm.publisherId
  writerGroupName := unsignZero dsm.writerGroupName
  sequenceNumber := unsignZero dsm.sequenceNumber
  configurationVersion :=
    dsm.configurationVersion.map fun cv => ⟨unsignZero cv.major, unsignZero cv.minor⟩
  timestamp := dsm.timestamp
  status := unsignZero dsm.status
  messageType := some (dsm.messageType.getD .keyframe)
  fields := some (Props.ofEntries fields)

variable {host : Host}

theorem encodeDataSetMessage_eq {dsm : DataSetMessage} (h : MembersInDomain dsm)
    {payload : List (JsString × JsValue)}
    (hfields : (dsm.fields.getD []).mapM (encodeNamedField host) =
      .ok (payload.map fun m => (m.1, some m.2))) :
    encodeDataSetMessage host dsm = .ok (some (dataSetValue host dsm payload)) := by
  have hpublisher : (if dsm.publisherId = .undefined then []
      else [(js "PublisherId", some (JsValue.str (host.toText dsm.publisherId)))]) =
        texts [(js "PublisherId", publisherText host dsm.publisherId)] := by
    unfold publisherText
    split
    · rfl
    · rfl
  rw [encodeDataSetMessage, memberText_eq h.dataSetWriterId.1, memberText_eq h.dataSetWriterName.1,
    memberText_eq h.writerGroupName.1, memberText_eq h.sequenceNumber.1,
    versionText_eq h.configurationVersion, dateText_eq h.timestamp, memberText_eq h.status.1,
    hpublisher, hfields]
  have hlast : [(js "MessageType", some (JsValue.str (messageTypeWire
      (dsm.messageType.getD .keyframe)))),
      (js "Payload", objectText (payload.map fun m => (m.1, some m.2)))] =
      texts [(js "MessageType", .str (messageTypeWire (dsm.messageType.getD .keyframe))),
        (js "Payload", .object payload)] := by
    rw [objectText_map]
    rfl
  change Except.ok (objectText (_ ++ _ ++ _ ++ _ ++ _ ++ _ ++ _ ++ _ ++ _)) = _
  rw [hlast]
  simp only [← texts_append]
  rw [objectText_texts]
  rfl

theorem messageTypeOf_wire (t : MessageType) :
    messageTypeOf host (.str (messageTypeWire t)) = .ok (some t) := by
  have htext : host.toText (.str (messageTypeWire t)) = messageTypeWire t := rfl
  rw [messageTypeOf, toPrimitive_text, Except.map, messageTypeModel, htext]
  cases t <;> decide

theorem decodeDataSetMessage_eq {dsm : DataSetMessage} (h : MembersInDomain dsm)
    (payload : List (JsString × JsValue)) (path : JsString) :
    decodeDataSetMessage host (dataSetValue host dsm payload) path =
      (decodeFields host path payload).map (decodedMessage host dsm) := by
  have hnodup : ((dataSetMembers host dsm payload).map Prod.fst).Nodup := by
    change [js "DataSetWriterId", js "DataSetWriterName", js "PublisherId", js "WriterGroupName",
      js "SequenceNumber", js "MetaDataVersion", js "Timestamp", js "Status", js "MessageType",
      js "Payload"].Nodup
    decide
  have hmember : ∀ {name v}, (name, v) ∈ dataSetMembers host dsm payload →
      memberOf (dataSetValue host dsm payload) name = v := fun hmem =>
    memberOf_defined hnodup hmem
  have hpayload : memberOf (dataSetValue host dsm payload) (js "Payload") = .object payload :=
    hmember (by simp [dataSetMembers])
  have htimestamp := @hmember (js "Timestamp") (printedDate dsm.timestamp)
    (by simp [dataSetMembers])
  have htype := @hmember (js "MessageType") (.str (messageTypeWire (dsm.messageType.getD .keyframe)))
    (by simp [dataSetMembers])
  rw [decodeDataSetMessage, if_pos (show isObject (dataSetValue host dsm payload) = true from rfl),
    hpayload, htimestamp, htype, timestampOf_printedDate h.timestamp, messageTypeOf_wire]
  change (do let fields ← decodeFields host path payload; _) = _
  cases decodeFields host path payload with
  | error e => rfl
  | ok fields =>
      simp only [@hmember (js "DataSetWriterId") (printed dsm.dataSetWriterId)
          (by simp [dataSetMembers]),
        @hmember (js "DataSetWriterName") (printed dsm.dataSetWriterName)
          (by simp [dataSetMembers]),
        @hmember (js "PublisherId") (publisherText host dsm.publisherId)
          (by simp [dataSetMembers]),
        @hmember (js "WriterGroupName") (printed dsm.writerGroupName) (by simp [dataSetMembers]),
        @hmember (js "SequenceNumber") (printed dsm.sequenceNumber) (by simp [dataSetMembers]),
        @hmember (js "MetaDataVersion") (versionValue dsm.configurationVersion)
          (by simp [dataSetMembers]),
        @hmember (js "Status") (printed dsm.status) (by simp [dataSetMembers]),
        h.dataSetWriterId.printed, h.dataSetWriterName.printed, h.writerGroupName.printed,
        h.sequenceNumber.printed, h.status.printed, versionOf_versionValue h.configurationVersion]
      rfl

/-! ## Fields -/

def variantValue (t : UaType) (v : JsValue) : JsValue :=
  .object [(js "UaType", .nat t.ordinal), (js "Value", v)]

/-- A field in its place: the same name, the ordinal of the type and the same value. -/
def SameField (e f : JsString × Field) : Prop :=
  f.1 = e.1 ∧ ∃ v t w, e.2 = .variant v ∧ typeOf? v.dataType = some t ∧
    f.2 = .variant ⟨.ordinal t.ordinal, w, none⟩ ∧ SameValue t v.value w

/-- What a text can hold of a field. -/
def FieldKept (field : Field) : Prop :=
  ∃ v t, field = .variant v ∧ typeOf? v.dataType = some t ∧ ValueKept t v.value

theorem uaTypeOf_of_typeOf {r : DataTypeRef} {t : UaType} (h : typeOf? r = some t) :
    uaTypeOf r = .number t.ordinal := by
  unfold typeOf? at h
  split at h
  next n hn =>
    split at h
    next hnode =>
      cases h
      rw [hn, hnode]
      rfl
    next =>
      obtain ⟨b, hb, rfl⟩ := Option.map_eq_some_iff.mp h
      rw [hn]
      exact congrArg Uadp.BuiltIn.number (Uadp.ofOrdinal?_eq_some hb)
  next => cases h

theorem encodeVariant_eq {v : Variant} {t : UaType} {c j : JsValue}
    (htype : typeOf? v.dataType = some t) (hc : convertValueForJson host v.value = .ok c)
    (hj : Json.stringify c = .ok (some j)) :
    encodeVariant host v = .ok (some (variantValue t j)) := by
  rw [encodeVariant, uaTypeOf_of_typeOf htype, hc]
  change (do let value ← liftRuntime (Json.stringify c); _) = _
  rw [hj]
  rfl

theorem dataTypeOf_ordinal {n : Nat} (h : n < 2 ^ 53) : dataTypeOf (Double.ofInt n) = .ordinal n := by
  have hn : (Double.ofInt n).Denotes n := Double.denotes_ofInt (by omega)
  rw [dataTypeOf, hn.isInteger, hn.trunc, if_pos (by simp)]
  rfl

theorem decodeVariant_eq (t : UaType) (j : JsValue) (path : JsString) :
    decodeVariant host (variantValue t j) path =
      (liftRuntime (convertValueFromJson host j (Double.ofInt t.ordinal))).map fun w =>
        ⟨.ordinal t.ordinal, w, none⟩ := by
  have hnodup : (InsertionMap.keys [(js "UaType", JsValue.nat t.ordinal), (js "Value", j)]).Nodup := by
    change [js "UaType", js "Value"].Nodup
    decide
  have htype : memberOf (variantValue t j) (js "UaType") = .num (Double.ofInt t.ordinal) :=
    congrArg (Option.getD · .undefined) (InsertionMap.get?_of_mem hnodup List.mem_cons_self)
  have hvalue : memberOf (variantValue t j) (js "Value") = j :=
    congrArg (Option.getD · .undefined)
      (InsertionMap.get?_of_mem hnodup (List.mem_cons_of_mem _ List.mem_cons_self))
  rw [decodeVariant, if_pos (show isObject (variantValue t j) = true from rfl), htype, hvalue]
  simp only [dataTypeOf_ordinal (ordinal_lt t)]
  cases liftRuntime (convertValueFromJson host j (Double.ofInt t.ordinal)) with
  | error e => rfl
  | ok w => rfl

theorem liftRuntime_eq_ok {α : Type} {x : Except RuntimeError α} {a : α} :
    liftRuntime x = .ok a ↔ x = .ok a := by
  cases x with
  | error e => exact ⟨nofun, nofun⟩
  | ok b => simp [liftRuntime]

/-- A field is printed, and read back exactly when a text can hold it. -/
theorem field_kept {name : JsString} {field : Field} (h : FieldInDomain field) :
    ∃ j, encodeNamedField host (name, field) = .ok (name, some j) ∧
      ∀ path, ((∃ variant, decodeVariant host j path = .ok variant ∧
        SameField (name, field) (name, .variant variant)) ↔ FieldKept field) := by
  obtain ⟨v, t, rfl, htype, hvalue⟩ := h
  obtain ⟨c, j, hc, hj, hkept⟩ := @value_kept host t v.value hvalue
  refine ⟨variantValue t j, ?_, fun path => ?_⟩
  · rw [encodeNamedField, encodeField, encodeVariant_eq htype hc hj]
    rfl
  · rw [decodeVariant_eq]
    constructor
    · rintro ⟨variant, hvariant, -, v', t', w, hv, ht, hw, hsame⟩
      cases hv
      obtain rfl : t = t' := Option.some.inj (htype.symm.trans ht)
      cases hw
      obtain ⟨w', hw', heq⟩ := map_eq_ok.mp hvariant
      cases heq
      exact ⟨v, t, rfl, htype, hkept.mp ⟨w, liftRuntime_eq_ok.mp hw', hsame⟩⟩
    · rintro ⟨v', t', hv, ht, hvk⟩
      cases hv
      obtain rfl : t = t' := Option.some.inj (htype.symm.trans ht)
      obtain ⟨w, hw, hsame⟩ := hkept.mpr hvk
      refine ⟨⟨.ordinal t.ordinal, w, none⟩, ?_, rfl, v, t, w, rfl, htype, rfl, hsame⟩
      rw [hw]
      rfl

theorem decodeFields_cons {path name : JsString} {j : JsValue} {payload : List (JsString × JsValue)}
    {fs : List (JsString × Field)} :
    decodeFields host path ((name, j) :: payload) = .ok fs ↔
      ∃ variant rest, decodeVariant host j (path ++ js ".Payload." ++ name) = .ok variant ∧
        decodeFields host path payload = .ok rest ∧ fs = (name, .variant variant) :: rest := by
  rw [decodeFields]
  constructor
  · intro h
    obtain ⟨variant, hvariant, h⟩ := bind_eq_ok.mp h
    obtain ⟨rest, hrest, h⟩ := bind_eq_ok.mp h
    cases h
    exact ⟨variant, rest, hvariant, hrest, rfl⟩
  · rintro ⟨variant, rest, hvariant, hrest, rfl⟩
    exact bind_eq_ok.mpr ⟨variant, hvariant, bind_eq_ok.mpr ⟨rest, hrest, rfl⟩⟩

theorem keys_decodeFields {path : JsString} {payload : List (JsString × JsValue)}
    {fs : List (JsString × Field)} (h : decodeFields host path payload = .ok fs) :
    fs.map Prod.fst = payload.map Prod.fst := by
  induction payload generalizing fs with
  | nil =>
      cases h
      rfl
  | cons m payload ih =>
      obtain ⟨variant, rest, -, hrest, rfl⟩ := decodeFields_cons.mp h
      rw [List.map_cons, List.map_cons, ih hrest]

theorem fields_kept {fields : List (JsString × Field)} (h : ∀ e ∈ fields, FieldInDomain e.2) :
    ∃ payload : List (JsString × JsValue),
      fields.mapM (encodeNamedField host) = .ok (payload.map fun m => (m.1, some m.2)) ∧
      payload.map Prod.fst = fields.map Prod.fst ∧
      ∀ path, ((∃ fs, decodeFields host path payload = .ok fs ∧ List.Forall₂ SameField fields fs) ↔
        ∀ e ∈ fields, FieldKept e.2) := by
  induction fields with
  | nil => exact ⟨[], rfl, rfl, fun path => iff_of_true ⟨[], rfl, List.Forall₂.nil⟩ nofun⟩
  | cons e fields ih =>
      obtain ⟨name, field⟩ := e
      obtain ⟨j, hj, hfield⟩ := @field_kept host name field (h _ List.mem_cons_self)
      obtain ⟨payload, hpayload, hkeys, hfields⟩ := ih fun e he => h e (List.mem_cons_of_mem _ he)
      refine ⟨(name, j) :: payload, ?_, congrArg (name :: ·) hkeys, fun path => ?_⟩
      · rw [List.mapM_cons, hj, hpayload]
        rfl
      · rw [List.forall_mem_cons, ← hfields path, ← hfield (path ++ js ".Payload." ++ name)]
        constructor
        · rintro ⟨fs, hfs, hsame⟩
          obtain ⟨variant, rest, hvariant, hrest, rfl⟩ := decodeFields_cons.mp hfs
          rw [List.forall₂_cons] at hsame
          exact ⟨⟨variant, hvariant, hsame.1⟩, rest, hrest, hsame.2⟩
        · rintro ⟨⟨variant, hvariant, hfirst⟩, rest, hrest, hsame⟩
          exact ⟨_, decodeFields_cons.mpr ⟨variant, rest, hvariant, hrest, rfl⟩,
            List.Forall₂.cons hfirst hsame⟩

theorem keys_of_same {fields fs : List (JsString × Field)} (h : List.Forall₂ SameField fields fs) :
    fs.map Prod.fst = fields.map Prod.fst := by
  induction h with
  | nil => rfl
  | cons hfirst _ ih => rw [List.map_cons, List.map_cons, hfirst.1, ih]

/-- The decoder lists the fields again as an object. -/
theorem same_ofEntries {fields fs : List (JsString × Field)}
    (hordered : Props.Ordered (fields.map Prod.fst))
    (hkeys : fs.map Prod.fst = fields.map Prod.fst) :
    List.Forall₂ SameField fields (Props.ofEntries fs) ↔
      protoKey ∉ fields.map Prod.fst ∧ List.Forall₂ SameField fields fs := by
  have hnone := InsertionMap.get?_eq_none_iff.mp (Props.get?_protoKey_ofEntries fs)
  by_cases hproto : protoKey ∈ fields.map Prod.fst
  · refine iff_of_false (fun hsame => hnone ?_) fun h => h.1 hproto
    rw [InsertionMap.keys, keys_of_same hsame]
    exact hproto
  · rw [Props.ofEntries_of_ordered (hkeys ▸ hproto) (hkeys ▸ hordered)]
    exact (and_iff_right hproto).symm

/-! ## Messages -/

/-- A DataSetMessage in its place; only what JSON carries is compared. -/
structure SameMessage (dsm d : DataSetMessage) : Prop where
  dataSetWriterId : d.dataSetWriterId = unsignZero dsm.dataSetWriterId
  dataSetWriterName : d.dataSetWriterName = unsignZero dsm.dataSetWriterName
  publisherId : d.publisherId = unsignZero dsm.publisherId
  writerGroupName : d.writerGroupName = unsignZero dsm.writerGroupName
  sequenceNumber : d.sequenceNumber = unsignZero dsm.sequenceNumber
  status : d.status = unsignZero dsm.status
  configurationVersion : d.configurationVersion =
    dsm.configurationVersion.map fun cv => ⟨unsignZero cv.major, unsignZero cv.minor⟩
  timestamp : d.timestamp = dsm.timestamp
  messageType : d.messageType = some (dsm.messageType.getD .keyframe)
  fields : List.Forall₂ SameField (dsm.fields.getD []) (d.fields.getD [])

/-- What a text can hold of a DataSetMessage: a publisher of its own is printed as
a string, and assigning to `__proto__` creates no field. -/
structure MessageKept (dsm : DataSetMessage) : Prop where
  publisherId : ∀ d, dsm.publisherId ≠ .num d
  names : protoKey ∉ (dsm.fields.getD []).map Prod.fst
  fields : ∀ e ∈ dsm.fields.getD [], FieldKept e.2

theorem publisherText_eq {v : JsValue} (h : Member v) :
    publisherText host v = unsignZero v ↔ ∀ d, v ≠ .num d := by
  rcases h with rfl | ⟨s, rfl⟩ | ⟨d, rfl⟩
  · exact iff_of_true rfl nofun
  · exact iff_of_true rfl nofun
  · refine iff_of_false ?_ fun h => h d rfl
    change JsValue.str _ ≠ unsignZero _
    unfold unsignZero
    split
    · nofun
    · nofun

/-- A DataSetMessage is printed, and read back exactly when a text can hold it. -/
theorem message_kept {dsm : DataSetMessage} (h : DataSetMessageInDomain dsm) :
    ∃ j, encodeDataSetMessage host dsm = .ok (some j) ∧
      ∀ path, ((∃ d, decodeDataSetMessage host j path = .ok d ∧ SameMessage dsm d) ↔
        MessageKept dsm) := by
  obtain ⟨payload, hpayload, hkeys, hfields⟩ := @fields_kept host _ h.fields
  refine ⟨dataSetValue host dsm payload, encodeDataSetMessage_eq h.members hpayload, fun path => ?_⟩
  rw [decodeDataSetMessage_eq h.members]
  constructor
  · rintro ⟨d, hd, hsame⟩
    obtain ⟨fs, hfs, rfl⟩ := map_eq_ok.mp hd
    obtain ⟨hproto, hfs'⟩ :=
      (same_ofEntries h.names ((keys_decodeFields hfs).trans hkeys)).mp hsame.fields
    exact ⟨(publisherText_eq h.publisherId.1).mp hsame.publisherId, hproto,
      (hfields path).mp ⟨fs, hfs, hfs'⟩⟩
  · intro hkept
    obtain ⟨fs, hfs, hsame⟩ := (hfields path).mpr hkept.fields
    refine ⟨decodedMessage host dsm fs, map_eq_ok.mpr ⟨fs, hfs, rfl⟩, ?_⟩
    constructor
    case publisherId => exact (publisherText_eq h.publisherId.1).mpr hkept.publisherId
    case fields =>
      exact (same_ofEntries h.names ((keys_decodeFields hfs).trans hkeys)).mpr
        ⟨hkept.names, hsame⟩
    all_goals rfl

theorem decodeMessages_cons {i : Nat} {v : JsValue} {vs : List JsValue} {ds : List DataSetMessage} :
    decodeMessages host i (v :: vs) = .ok ds ↔
      ∃ d rest, decodeDataSetMessage host v (js "Messages[" ++ decimal i ++ js "]") = .ok d ∧
        decodeMessages host (i + 1) vs = .ok rest ∧ ds = d :: rest := by
  rw [decodeMessages]
  constructor
  · intro h
    obtain ⟨d, hd, h⟩ := bind_eq_ok.mp h
    obtain ⟨rest, hrest, h⟩ := bind_eq_ok.mp h
    cases h
    exact ⟨d, rest, hd, hrest, rfl⟩
  · rintro ⟨d, rest, hd, hrest, rfl⟩
    exact bind_eq_ok.mpr ⟨d, hd, bind_eq_ok.mpr ⟨rest, hrest, rfl⟩⟩

theorem messages_kept {dsms : List DataSetMessage} (h : ∀ dsm ∈ dsms, DataSetMessageInDomain dsm) :
    ∃ js, dsms.mapM (encodeDataSetMessage host) = .ok (js.map some) ∧
      ∀ i, ((∃ ds, decodeMessages host i js = .ok ds ∧ List.Forall₂ SameMessage dsms ds) ↔
        ∀ dsm ∈ dsms, MessageKept dsm) := by
  induction dsms with
  | nil => exact ⟨[], rfl, fun i => iff_of_true ⟨[], rfl, List.Forall₂.nil⟩ nofun⟩
  | cons dsm dsms ih =>
      obtain ⟨j, hj, hmessage⟩ := @message_kept host dsm (h _ List.mem_cons_self)
      obtain ⟨js, hjs, hmessages⟩ := ih fun d hd => h d (List.mem_cons_of_mem _ hd)
      refine ⟨j :: js, ?_, fun i => ?_⟩
      · rw [List.mapM_cons, hj, hjs]
        rfl
      · rw [List.forall_mem_cons, ← hmessages (i + 1), ← hmessage]
        constructor
        · rintro ⟨ds, hds, hsame⟩
          obtain ⟨d, rest, hd, hrest, rfl⟩ := decodeMessages_cons.mp hds
          rw [List.forall₂_cons] at hsame
          exact ⟨⟨d, hd, hsame.1⟩, rest, hrest, hsame.2⟩
        · rintro ⟨⟨d, hd, hfirst⟩, rest, hrest, hsame⟩
          exact ⟨_, decodeMessages_cons.mpr ⟨d, rest, hd, hrest, rfl⟩,
            List.Forall₂.cons hfirst hsame⟩

structure GroupHeaderInDomain (gh : GroupHeader) : Prop where
  writerGroupId : Member gh.writerGroupId
  sequenceNumber : Member gh.sequenceNumber

structure NetworkMessageInDomain (nm : NetworkMessage) : Prop where
  messageId : ∃ s, nm.messageId = .str s
  publisherId : (∃ s, nm.publisherId = .str s) ∨ ∃ d, nm.publisherId = .num d
  writerGroupName : Member nm.writerGroupName
  dataSetClassId : Member nm.dataSetClassId
  groupHeader : ∀ gh, nm.groupHeader = some gh → GroupHeaderInDomain gh
  timestamp : Dated nm.timestamp
  payload : ∀ dsm ∈ nm.payload, DataSetMessageInDomain dsm

/-- The members around the messages; the publisher may have left out its id and
that of the message. -/
structure HeaderInDomain (nm : NetworkMessage) : Prop where
  messageId : nm.messageId = .undefined ∨ ∃ s, nm.messageId = .str s
  publisherId : Member nm.publisherId
  writerGroupName : Member nm.writerGroupName
  dataSetClassId : Member nm.dataSetClassId
  groupHeader : ∀ gh, nm.groupHeader = some gh → GroupHeaderInDomain gh
  timestamp : Dated nm.timestamp

theorem NetworkMessageInDomain.header {nm : NetworkMessage} (h : NetworkMessageInDomain nm) :
    HeaderInDomain nm :=
  ⟨Or.inr h.messageId, Or.inr h.publisherId, h.writerGroupName, h.dataSetClassId, h.groupHeader,
    h.timestamp⟩

/-- The member of an optional group header. -/
def groupMember (f : GroupHeader → JsValue) (gh : Option GroupHeader) : JsValue :=
  (gh.map fun gh => printed (f gh)).getD .undefined

/-- The members of a NetworkMessage in the order of the format. -/
def networkMembers (uuid : JsString) (nm : NetworkMessage) (messages : List JsValue) :
    List (JsString × JsValue) :=
  [(js "MessageId", if nm.messageId.truthy then nm.messageId else .str uuid),
    (js "MessageType", .str (js "ua-data")), (js "PublisherId", printed nm.publisherId),
    (js "WriterGroupName", printed nm.writerGroupName),
    (js "DataSetClassId",
      if nm.dataSetClassId.truthy then printed nm.dataSetClassId else .undefined),
    (js "WriterGroupId", groupMember (·.writerGroupId) nm.groupHeader),
    (js "SequenceNumber", groupMember (·.sequenceNumber) nm.groupHeader),
    (js "Timestamp", printedDate nm.timestamp), (js "Messages", .array messages)]

def networkValue (uuid : JsString) (nm : NetworkMessage) (messages : List JsValue) : JsValue :=
  .object (defined (networkMembers uuid nm messages))

theorem groupHeaderText_eq {gh : Option GroupHeader}
    (h : ∀ g, gh = some g → GroupHeaderInDomain g) :
    groupHeaderText gh = .ok (texts [(js "WriterGroupId", groupMember (·.writerGroupId) gh),
      (js "SequenceNumber", groupMember (·.sequenceNumber) gh)]) := by
  cases gh with
  | none => rfl
  | some gh =>
      have hgh := h gh rfl
      rw [groupHeaderText, memberText_eq hgh.writerGroupId, memberText_eq hgh.sequenceNumber]
      exact congrArg Except.ok (texts_append _ _).symm

/-- The id of the message, which is always printed. -/
def messageIdOf (uuid : JsString) (nm : NetworkMessage) : JsValue :=
  if nm.messageId.truthy then nm.messageId else .str uuid

theorem messageIdOf_text {uuid : JsString} {nm : NetworkMessage} (h : HeaderInDomain nm) :
    ∃ s, messageIdOf uuid nm = .str s := by
  unfold messageIdOf
  split
  next htruthy =>
    refine h.messageId.resolve_left fun hid => ?_
    rw [hid] at htruthy
    cases htruthy
  next => exact ⟨uuid, rfl⟩

theorem publisherIdText_eq {v : JsValue} (h : Member v) :
    publisherIdText v = .ok (texts [(js "PublisherId", printed v)]) := by
  have hmember := @memberText_eq (js "PublisherId") v h
  rcases h with rfl | ⟨s, rfl⟩ | ⟨d, rfl⟩
  · exact hmember
  · exact hmember
  · exact hmember

theorem encodeNetworkMessage_eq {uuid : JsString} {nm : NetworkMessage} (h : HeaderInDomain nm)
    {messages : List JsValue}
    (hmessages : nm.payload.mapM (encodeDataSetMessage host) = .ok (messages.map some)) :
    encodeNetworkMessage host uuid nm = .ok (some (networkValue uuid nm messages)) := by
  obtain ⟨s, hs⟩ := @messageIdOf_text uuid nm h
  have hid : Json.stringify (messageIdOf uuid nm) = .ok (some (messageIdOf uuid nm)) := by
    rw [hs]
    rfl
  have hclass : classIdText nm.dataSetClassId = .ok (texts [(js "DataSetClassId",
      if nm.dataSetClassId.truthy then printed nm.dataSetClassId else .undefined)]) := by
    unfold classIdText
    split
    · exact memberText_eq h.dataSetClassId
    · rfl
  rw [messageIdOf] at hid
  rw [encodeNetworkMessage, hid, publisherIdText_eq h.publisherId, memberText_eq h.writerGroupName,
    hclass, groupHeaderText_eq h.groupHeader, dateText_eq h.timestamp, hmessages]
  have hfirst : [(js "MessageId", some (messageIdOf uuid nm)),
      (js "MessageType", some (JsValue.str (js "ua-data")))] =
      texts [(js "MessageId", messageIdOf uuid nm), (js "MessageType", .str (js "ua-data"))] := by
    rw [hs]
    rfl
  have hlast : [(js "Messages", arrayText (messages.map some))] =
      texts [(js "Messages", .array messages)] := by
    rw [arrayText_map]
    rfl
  rw [messageIdOf] at hfirst
  change Except.ok (objectText (_ ++ _ ++ _ ++ _ ++ _ ++ _ ++ _)) = _
  rw [hfirst, hlast]
  simp only [← texts_append]
  rw [objectText_texts]
  rfl

theorem memberOf_networkValue {uuid name : JsString} {nm : NetworkMessage} {messages : List JsValue}
    {v : JsValue} (hmem : (name, v) ∈ networkMembers uuid nm messages) :
    memberOf (networkValue uuid nm messages) name = v := by
  refine memberOf_defined ?_ hmem
  change [js "MessageId", js "MessageType", js "PublisherId", js "WriterGroupName",
    js "DataSetClassId", js "WriterGroupId", js "SequenceNumber", js "Timestamp",
    js "Messages"].Nodup
  decide

/-- The message that is read back, with the given payload. -/
def decodedNetwork (uuid : JsString) (nm : NetworkMessage) (payload : List DataSetMessage) :
    NetworkMessage where
  messageId := messageIdOf uuid nm
  publisherId := printed nm.publisherId
  writerGroupName := printed nm.writerGroupName
  dataSetClassId :=
    let classId := if nm.dataSetClassId.truthy then printed nm.dataSetClassId else .undefined
    if classId.truthy then classId else .undefined
  groupHeader :=
    let writerGroupId := groupMember (·.writerGroupId) nm.groupHeader
    let sequenceNumber := groupMember (·.sequenceNumber) nm.groupHeader
    if writerGroupId ≠ .undefined ∨ sequenceNumber ≠ .undefined then
      some { writerGroupId := writerGroupId, sequenceNumber := sequenceNumber }
    else none
  timestamp := nm.timestamp
  payload := payload

/-- A NetworkMessage is read back with the messages that are. -/
theorem decodeNetworkMessage_eq {uuid : JsString} {nm : NetworkMessage} (h : HeaderInDomain nm)
    (messages : List JsValue) :
    decodeNetworkMessage host (some (networkValue uuid nm messages)) =
      (decodeMessages host 0 messages).map (decodedNetwork uuid nm) := by
  have hmember : ∀ {name v}, (name, v) ∈ networkMembers uuid nm messages →
      memberOf (networkValue uuid nm messages) name = v := fun hmem => memberOf_networkValue hmem
  have hid := @hmember (js "MessageId") (messageIdOf uuid nm) List.mem_cons_self
  have htype := @hmember (js "MessageType") (.str (js "ua-data")) (by simp [networkMembers])
  have hmessages := @hmember (js "Messages") (.array messages) (by simp [networkMembers])
  have hdefined : messageIdOf uuid nm ≠ .undefined := by
    obtain ⟨s, hs⟩ := @messageIdOf_text uuid nm h
    rw [hs]
    nofun
  have hpresent : missingMember? (networkValue uuid nm messages) = none := by
    simp [missingMember?, hid, hdefined, htype, hmessages]
  rw [decodeNetworkMessage, if_pos (show isObject (networkValue uuid nm messages) = true from rfl),
    hpresent]
  simp only [decodeObject, hmessages,
    @hmember (js "Timestamp") (printedDate nm.timestamp) (by simp [networkMembers]),
    timestampOf_printedDate h.timestamp]
  change (do let payload ← decodeMessages host 0 messages; _) = _
  cases decodeMessages host 0 messages with
  | error e => rfl
  | ok payload =>
      simp only [hid, @hmember (js "PublisherId") (printed nm.publisherId) (by simp [networkMembers]),
        @hmember (js "WriterGroupName") (printed nm.writerGroupName) (by simp [networkMembers]),
        @hmember (js "DataSetClassId")
          (if nm.dataSetClassId.truthy then printed nm.dataSetClassId else .undefined)
          (by simp [networkMembers]),
        @hmember (js "WriterGroupId") (groupMember (·.writerGroupId) nm.groupHeader)
          (by simp [networkMembers]),
        @hmember (js "SequenceNumber") (groupMember (·.sequenceNumber) nm.groupHeader)
          (by simp [networkMembers]),
        groupHeaderOf]
      rfl

/-- A NetworkMessage whose members are there is decoded message by message. -/
theorem decodeNetworkMessage_payload {uuid : JsString} {nm : NetworkMessage} (h : HeaderInDomain nm)
    {messages : List JsValue} {ds : List DataSetMessage} :
    (∃ nm', decodeNetworkMessage host (some (networkValue uuid nm messages)) = .ok nm' ∧
      nm'.payload = ds) ↔ decodeMessages host 0 messages = .ok ds := by
  rw [decodeNetworkMessage_eq h]
  constructor
  · rintro ⟨nm', hnm, rfl⟩
    obtain ⟨payload, hpayload, rfl⟩ := map_eq_ok.mp hnm
    exact hpayload
  · intro hds
    exact ⟨_, map_eq_ok.mpr ⟨ds, hds, rfl⟩, rfl⟩

/-- Every DataSetMessage and field comes back in its place. -/
def RoundTrips (host : Host) (uuid : JsString) (nm : NetworkMessage) : Prop :=
  ∃ text nm', encodeNetworkMessage host uuid nm = .ok text ∧
    decodeNetworkMessage host text = .ok nm' ∧ List.Forall₂ SameMessage nm.payload nm'.payload

/-- A message in the domain of its types round-trips exactly when a text can hold
each of its DataSetMessages. -/
theorem roundTrips_iff (host : Host) (uuid : JsString) {nm : NetworkMessage}
    (h : NetworkMessageInDomain nm) :
    RoundTrips host uuid nm ↔ ∀ dsm ∈ nm.payload, MessageKept dsm := by
  obtain ⟨messages, hencode, hkept⟩ := @messages_kept host _ h.payload
  rw [← hkept 0]
  have htext := @encodeNetworkMessage_eq host uuid nm h.header messages hencode
  constructor
  · rintro ⟨text, nm', hok, hdecode, hsame⟩
    cases htext.symm.trans hok
    exact ⟨nm'.payload,
      (decodeNetworkMessage_payload h.header).mp ⟨nm', hdecode, rfl⟩, hsame⟩
  · rintro ⟨ds, hds, hsame⟩
    obtain ⟨nm', hnm, rfl⟩ := (decodeNetworkMessage_payload h.header).mpr hds
    exact ⟨_, nm', htext, hnm, hsame⟩

/-- A message with one field. -/
def fieldMessage (type : JsString) (value : JsValue) : NetworkMessage where
  messageId := .str (js "m")
  publisherId := .str (js "p")
  payload := [{ fields := some [(js "t", .variant ⟨.name type, value, none⟩)] }]

theorem fieldMessage_inDomain {type : JsString} {t : UaType} {value : JsValue}
    (htype : typeOf? (.name type) = some t) (hvalue : ValueInDomain t value) :
    NetworkMessageInDomain (fieldMessage type value) := by
  have habsent : Kept .undefined := ⟨Or.inl rfl, nofun⟩
  constructor
  case messageId => exact ⟨_, rfl⟩
  case publisherId => exact Or.inl ⟨_, rfl⟩
  case writerGroupName => exact Or.inl rfl
  case dataSetClassId => exact Or.inl rfl
  case groupHeader => exact nofun
  case timestamp => exact Or.inl rfl
  case payload =>
    intro dsm hdsm
    obtain rfl := List.mem_singleton.mp hdsm
    constructor
    case configurationVersion => exact nofun
    case timestamp => exact Or.inl rfl
    case names => exact List.pairwise_singleton _ _
    case fields =>
      intro e he
      obtain rfl := List.mem_singleton.mp he
      exact ⟨_, t, rfl, htype, hvalue⟩
    all_goals exact habsent

/-- A Double in its domain. -/
theorem roundTrips_double :
    RoundTrips Host.inert [] (fieldMessage (js "Double") (.num (Double.ofInt 3))) ↔
      ∀ dsm ∈ (fieldMessage (js "Double") (.num (Double.ofInt 3))).payload, MessageKept dsm :=
  roundTrips_iff Host.inert [] (@fieldMessage_inDomain _ (.builtIn .Double) _ (by decide)
    fun _ hx => Or.inr ⟨_, List.mem_singleton.mp hx⟩)

/-- An array of two Int64 values is printed as an array of texts, which `BigInt`
does not take. -/
theorem int64_array_lost : ¬ ∀ (host : Host) (uuid : JsString) (nm : NetworkMessage),
    NetworkMessageInDomain nm → RoundTrips host uuid nm := by
  intro h
  have hdomain : NetworkMessageInDomain
      (fieldMessage (js "Int64") (.array [.bigint 1, .bigint 2])) := by
    refine @fieldMessage_inDomain _ (.builtIn .Int64) _ (by decide) ?_
    have hall : ∀ x ∈ [JsValue.bigint 1, .bigint 2],
        x = .bigint 1 ∨ x = .bigint 2 := by simp
    intro x hx
    rcases hall x hx with rfl | rfl
    · exact Or.inr ⟨1, by decide, by decide, rfl⟩
    · exact Or.inr ⟨2, by decide, by decide, rfl⟩
  obtain ⟨text, nm', htext, hdecode, -⟩ := h Host.inert [] _ hdomain
  have hfail : (encodeNetworkMessage Host.inert []
      (fieldMessage (js "Int64") (.array [.bigint 1, .bigint 2])) >>=
        decodeNetworkMessage Host.inert) = .error (.runtime .syntaxError) := by
    decide +kernel
  rw [htext] at hfail
  exact absurd (hdecode.symm.trans hfail) nofun

end OpcUaSuite.JsonEncoder
