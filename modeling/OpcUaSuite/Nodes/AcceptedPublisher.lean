import OpcUaSuite.Nodes.Publisher
import OpcUaSuite.PubSub.ConfigAgreement
import OpcUaSuite.Uadp.Success

/-!
# A publisher of accepted configurations

A publisher reads the objects its factories return. A keyframe built from an
empty input has the fields that every object inherits a member for; its other
numbers are the ids, the version and the sequence numbers. The encoder accepts
it exactly when each of them fits its wire field.
-/

namespace OpcUaSuite.Nodes

open Js ByteCodec BinaryFloat PubSub Uadp

/-! ## What the publisher reads -/

/-- A number as the index of an id. -/
def configuredNat : Config.Value → Nat
  | .num d => d.trunc.toNat
  | _ => 0

def configuredNumber : Config.Value → JsValue
  | .num d => .num d
  | _ => .undefined

/-- A member used as a property key: a text, or the text of undefined. -/
def configuredKey : Config.Value → JsString
  | .str s => s
  | _ => js "undefined"

def configuredField (f : Config.Value) : FieldMetaData :=
  ⟨configuredKey (f.member (js "name")), configuredKey (f.member (js "dataType"))⟩

def configuredVersion (cv : Config.Value) : ConfigurationVersion :=
  ⟨configuredNumber (cv.member (js "major")), configuredNumber (cv.member (js "minor"))⟩

/-- The fields without the holes of the array, which `forEach` passes over. -/
def configuredDataSet (pds : Config.Value) : PublishedDataSet where
  fields := (((pds.member (js "fields")).items?.getD []).reduceOption).map configuredField
  configurationVersion := configuredVersion (pds.member (js "configurationVersion"))

def configuredWriter (writer : Config.Value) : DataSetWriter where
  dataSetWriterId := configuredNat (writer.member (js "dataSetWriterId"))
  publishedDataSet := configuredDataSet (writer.member (js "publishedDataSet"))

/-- A WriterGroup and the DataSetWriters of a publisher, each returned by its
factory; each writer has a PublishedDataSet. -/
structure AcceptedPublisher (host : Config.Host) where
  groupConfig : Config.Value
  group : Config.Value
  group_built : Config.writerGroup host groupConfig = .ok group
  writerConfigs : List Config.Value
  writers : List Config.Value
  writers_built : List.Forall₂ (fun cfg writer =>
    (cfg.member (js "publishedDataSet")).truthy = true ∧
      Config.dataSetWriter host cfg = .ok writer) writerConfigs writers
  writers_ne : writers ≠ []

/-- The publisher on a connection with a `publisherId`. -/
def AcceptedPublisher.publisher {host : Config.Host} (c : AcceptedPublisher host) (publisherId : JsValue)
    (publishMode : PublishMode) : PublisherConfig where
  publisherId := publisherId
  writerGroupId := configuredNat (c.group.member (js "writerGroupId"))
  maxNetworkMessageSize :=
    match c.group.member (js "maxNetworkMessageSize") with
    | .num d => d.trunc
    | _ => 0
  publishMode := publishMode
  writers := c.writers.map configuredWriter
  writers_ne := fun h => c.writers_ne (List.map_eq_nil_iff.mp h)

/-! ## Accepted configurations -/

/-- What the factories promise of the numbers of a writer. -/
structure WriterAccepted (writer : DataSetWriter) : Prop where
  dataSetWriterId : writer.dataSetWriterId < 65536
  major : ∃ d, writer.publishedDataSet.configurationVersion.major = .num d
  minor : ∃ d, writer.publishedDataSet.configurationVersion.minor = .num d

theorem configuredNat_lt {v : Config.Value} (h : v.isUInt16 = true) : configuredNat v < 65536 := by
  cases v with
  | num d =>
      have hrange : (d.isInteger && !d.ltInt 0 && !d.gtInt 0xffff) = true := h
      simp only [Bool.and_eq_true, Bool.not_eq_true'] at hrange
      obtain ⟨⟨hint, hlo⟩, hhi⟩ := hrange
      have hd := Value.denotes_trunc hint
      rw [hd.ltInt, decide_eq_false_iff_not] at hlo
      rw [hd.gtInt, decide_eq_false_iff_not] at hhi
      rw [configuredNat]
      omega
  | _ => cases h

theorem configuredNumber_of_integer {v : Config.Value} (h : v.isInteger = true) :
    ∃ d, configuredNumber v = .num d := by
  cases v with
  | num d => exact ⟨d, rfl⟩
  | _ => cases h

variable {chost : Config.Host}

theorem AcceptedPublisher.writerGroupId_lt (c : AcceptedPublisher chost) (publisherId : JsValue)
    (publishMode : PublishMode) : (c.publisher publisherId publishMode).writerGroupId < 65536 := by
  obtain ⟨hrules, hgroup⟩ := (Config.writerGroup_eq_ok chost).mp c.group_built
  have hid : c.group.member (js "writerGroupId") = c.groupConfig.member (js "writerGroupId") := by
    rw [hgroup]
    rfl
  rw [AcceptedPublisher.publisher, hid]
  exact configuredNat_lt hrules.writerGroupId.1

theorem versionPair_orElse {cv : Config.Value}
    (h : Config.Allowed Config.isVersionPair cv) :
    Config.isVersionPair (cv.orElse Config.defaultVersion) = true :=
  Config.holds_orElse h rfl Config.isVersionPair_default

theorem writerAccepted {cfg writer : Config.Value}
    (hpds : (cfg.member (js "publishedDataSet")).truthy = true)
    (hbuilt : Config.dataSetWriter chost cfg = .ok writer) : WriterAccepted (configuredWriter writer) := by
  obtain ⟨hrules, pds, hnested, rfl⟩ := (Config.dataSetWriter_eq_ok chost).mp hbuilt
  obtain ⟨hfalsy, -⟩ | ⟨-, hpdsRules, rfl⟩ := Config.nestedDataSet_eq_ok.mp hnested
  · exact Bool.noConfusion (hpds.symm.trans hfalsy)
  have hversion := versionPair_orElse hpdsRules.configurationVersion
  rw [Config.isVersionPair, Bool.and_eq_true, Bool.and_eq_true] at hversion
  exact ⟨configuredNat_lt hrules.dataSetWriterId.1, configuredNumber_of_integer hversion.1.2,
    configuredNumber_of_integer hversion.2⟩

theorem AcceptedPublisher.writers_accepted (c : AcceptedPublisher chost) (publisherId : JsValue)
    (publishMode : PublishMode) :
    ∀ writer ∈ (c.publisher publisherId publishMode).writers, WriterAccepted writer := by
  intro writer hwriter
  obtain ⟨w, hw, rfl⟩ := List.mem_map.mp hwriter
  obtain ⟨cfg, -, hpds, hbuilt⟩ := exists_left_of_forall₂ c.writers_built hw
  exact writerAccepted hpds hbuilt

/-! ## Fields of an empty input -/

/-- A host whose methods read as no number and no BigInt. -/
structure Methods (host : Host) : Prop extends host.Standard where
  numberOf : host.numberOf (.object []) = .ok .nan
  bigIntOf : host.bigIntOf (.object []) = .error .syntaxError

theorem methods_plain : Methods Host.plain := ⟨Host.standard_plain, rfl, rfl⟩

/-- The types whose encoder takes a method: a truth value, or no number. -/
def carriesMethod : BuiltInType → Bool
  | .Int64 | .UInt64 | .String | .DateTime | .Guid | .ByteString => false
  | _ => true

/-- The field of a member that every object inherits. -/
def methodField (dataType : JsString) : Field := .variant ⟨.name dataType, .object [], none⟩

theorem keyframeFields_empty {host : Host} (hhost : host.Standard) (fields : List FieldMetaData) :
    keyframeFields host fields (.object []) = Props.ofEntries
      (((fields.map fun f => (f.name, f.dataType)).filter fun e =>
        decide (e.1 ∈ inheritedNames)).map fun e => (e.1, methodField e.2)) := by
  have hmember (name : JsString) : host.member (.object []) name =
      if name ∈ inheritedNames then .object [] else .undefined := hhost.inherited [] name
  rw [keyframeFields, List.filter_map, List.map_map]
  congr 1
  have hkept : fields.filter (fun f => decide (host.member (.object []) f.name ≠ .undefined)) =
      fields.filter (fun f => decide (f.name ∈ inheritedNames)) := by
    refine List.filter_congr fun f _ => ?_
    rw [hmember]
    by_cases hname : f.name ∈ inheritedNames <;> simp [hname]
  rw [hkept]
  refine List.map_congr_left fun f hf => ?_
  rw [hmember, if_pos (of_decide_eq_true (List.mem_filter.mp hf).2)]
  rfl

theorem length_inheritedName : ∀ name ∈ inheritedNames, (Utf.encode name).length ≤ 20 := by
  decide

section Methods

variable {host : Host} (hhost : Methods host)

include hhost

theorem toNumber_method : host.toNumber (.object []) = .ok .nan := hhost.numberOf

theorem succeeds_scalar_method (t : BuiltInType) :
    Succeeds (writeScalar host t (.object [])) ↔ carriesMethod t = true := by
  have hint {k : Nat} {lo hi : Int} : Succeeds (writeInt host k lo hi (.object [])) := by
    rw [writeInt, toNumber_method hhost]
    exact succeeds_ok _
  have hbig : host.toBigInt (.object []) = .error .syntaxError := hhost.bigIntOf
  have hbuffer : host.bufferUtf8 (.object []) = .error .typeError := hhost.bufferFrom
  cases t
  case Boolean => exact iff_of_true (succeeds_ok _) rfl
  case SByte | Byte | Int16 | UInt16 | Int32 | UInt32 => exact iff_of_true hint rfl
  case Float =>
    refine iff_of_true ?_ rfl
    rw [writeScalar, writeFloatLE, toNumber_method hhost]
    exact succeeds_ok _
  case Double =>
    refine iff_of_true ?_ rfl
    rw [writeScalar, writeDoubleLE, toNumber_method hhost]
    exact succeeds_ok _
  case Int64 =>
    refine iff_of_false ?_ Bool.false_ne_true
    rw [writeScalar, writeInt64LE, hbig]
    exact not_succeeds_error _
  case UInt64 =>
    refine iff_of_false ?_ Bool.false_ne_true
    rw [writeScalar, writeUInt64LE, hbig]
    exact not_succeeds_error _
  case String =>
    refine iff_of_false ?_ Bool.false_ne_true
    rw [writeScalar, writeString, hbuffer]
    exact not_succeeds_error _
  case DateTime | Guid => exact iff_of_false (not_succeeds_error _) Bool.false_ne_true
  case ByteString =>
    refine iff_of_false (fun h => ?_) Bool.false_ne_true
    have hparts := succeeds_cat.mp h
    exact not_succeeds_error _ (hparts _ (List.mem_cons_of_mem _ List.mem_cons_self))
  case StatusCode =>
    refine iff_of_true ?_ rfl
    rw [writeScalar, writeStatusCode, Host.toUint32, toNumber_method hhost]
    exact @succeeds_putUInt 4 0 |>.mpr (by decide)

theorem atMost_scalar_method (t : BuiltInType) : AtMost 8 (writeScalar host t (.object [])) := by
  by_cases hcarries : carriesMethod t = true
  · cases t
    case Boolean => exact (atMost_putUInt 1 1).mono (by decide)
    case SByte | Byte => exact (atMost_writeInt 1 _ _ _).mono (by decide)
    case Int16 | UInt16 => exact (atMost_writeInt 2 _ _ _).mono (by decide)
    case Int32 | UInt32 => exact (atMost_writeInt 4 _ _ _).mono (by decide)
    case Float =>
      intro bs hbs
      rw [writeScalar, writeFloatLE, toNumber_method hhost] at hbs
      cases hbs
      exact (length_le 4 _).le.trans (by decide)
    case Double =>
      intro bs hbs
      rw [writeScalar, writeDoubleLE, toNumber_method hhost] at hbs
      cases hbs
      exact (length_le 8 _).le
    case StatusCode =>
      intro bs hbs
      obtain ⟨n, -, hn⟩ := bind_eq_ok.mp hbs
      exact (atMost_putUInt 4 n bs hn).trans (by decide)
    all_goals cases hcarries
  · intro bs hbs
    exact absurd ((succeeds_scalar_method hhost t).mp ⟨bs, hbs⟩) hcarries

/-- The Variant of a method is written for the types that take one. -/
theorem variant_method (dataType : JsString) :
    (Succeeds (writeVariantField host (methodField dataType)) ↔
      ∃ t, BuiltInType.ofName? dataType = some t ∧ carriesMethod t = true) ∧
    AtMost 9 (writeVariantField host (methodField dataType)) := by
  have hfield : writeVariantField host (methodField dataType) =
      writeVariantBody host (.name dataType) (.object []) := rfl
  rw [hfield, writeVariantBody, builtInOf]
  cases hname : BuiltInType.ofName? dataType with
  | none =>
      split_ifs
      · refine ⟨iff_of_false (fun h => ?_) ?_, fun bs hbs => ?_⟩
        · have hparts := succeeds_cat.mp h
          exact not_succeeds_error _ (hparts _ (List.mem_cons_of_mem _ List.mem_cons_self))
        · rintro ⟨t, ht, -⟩
          cases ht
        · obtain ⟨b, c, -, hc, -⟩ := cat_cons_eq_ok.mp hbs
          cases hc
      · refine ⟨iff_of_false (not_succeeds_error _) ?_, AtMost.of_error _ _⟩
        rintro ⟨t, ht, -⟩
        cases ht
  | some t =>
      have hordinal : BuiltInType.ofOrdinal? t.ordinal = some t := BuiltInType.ofOrdinal?_ordinal t
      have hscalar : writeVariantValue host (.number t.ordinal) (.object []) =
          writeScalar host t (.object []) := by
        change writeVariantScalar host (.number t.ordinal) (.object []) = _
        rw [writeVariantScalar, hordinal]
      have hbyte : (BuiltIn.number t.ordinal).bits ||| Flags.bit 6 (isArray (.object [])) <
          256 ^ 1 := by
        cases t <;> decide
      simp only [hscalar]
      refine ⟨?_, AtMost.cons (atMost_putUInt 1 _) (AtMost.cons (atMost_scalar_method hhost t)
        AtMost.nil)⟩
      rw [succeeds_cat]
      simp only [List.forall_mem_cons, succeeds_putUInt, succeeds_scalar_method hhost]
      constructor
      · rintro ⟨-, hcarries, -⟩
        exact ⟨t, rfl, hcarries⟩
      · rintro ⟨t', ht', hcarries⟩
        cases ht'
        exact ⟨hbyte, hcarries, List.forall_mem_nil _⟩

theorem namedField_method {name : JsString} (hname : name ∈ inheritedNames) (dataType : JsString) :
    (Succeeds (writeNamedField host .variant (name, methodField dataType)) ↔
      ∃ t, BuiltInType.ofName? dataType = some t ∧ carriesMethod t = true) ∧
    AtMost 31 (writeNamedField host .variant (name, methodField dataType)) := by
  have hlength := length_inheritedName name hname
  obtain ⟨hsucceeds, hatMost⟩ := variant_method hhost dataType
  have hbytes : AtMost 20 (.ok (Utf.encode name) : Writer) := by
    intro bs hbs
    cases hbs
    exact hlength
  refine ⟨?_, AtMost.mono (AtMost.cons (atMost_putUInt 2 _) (AtMost.cons hbytes
    (AtMost.cons hatMost AtMost.nil))) (by decide)⟩
  rw [writeNamedField, succeeds_cat]
  simp only [List.forall_mem_cons, succeeds_putUInt]
  rw [← hsucceeds]
  constructor
  · rintro ⟨-, -, hfield, -⟩
    exact hfield
  · intro hfield
    exact ⟨by omega, succeeds_ok _, hfield, nofun⟩

/-- The last field declared under an inherited name, other than `__proto__`, has
a type that takes a method. -/
def MethodsFit (fields : List FieldMetaData) : Prop :=
  ∀ name ∈ inheritedNames, name ≠ protoKey → ∀ dataType,
    Props.last? name (fields.map fun f => (f.name, f.dataType)) = some dataType →
      ∃ t, BuiltInType.ofName? dataType = some t ∧ carriesMethod t = true

theorem names_keyframeFields {fields : List FieldMetaData} :
    ∀ e ∈ keyframeFields host fields (.object []), e.1 ∈ inheritedNames ∧
      ∃ dataType, e.2 = methodField dataType := by
  rw [keyframeFields_empty hhost.toStandard]
  refine (@Props.forall_mem_ofEntries _ (fun name field =>
    name ∈ inheritedNames ∧ ∃ dataType, field = methodField dataType) _).mpr
    fun key _ value hlast => ?_
  obtain ⟨e, he, heq⟩ := List.mem_map.mp (Props.last?_eq_some hlast)
  cases heq
  exact ⟨of_decide_eq_true (List.mem_filter.mp he).2, e.2, rfl⟩

theorem length_keyframeFields (fields : List FieldMetaData) :
    (keyframeFields host fields (.object [])).length ≤ 12 := by
  have hnodup : (InsertionMap.keys (keyframeFields host fields (.object []))).Nodup := by
    rw [keyframeFields_empty hhost.toStandard]
    exact Props.nodup_ofEntries _
  have hsubset : InsertionMap.keys (keyframeFields host fields (.object [])) ⊆ inheritedNames := by
    intro name hname
    obtain ⟨e, he, rfl⟩ := List.mem_map.mp hname
    exact (names_keyframeFields hhost e he).1
  have hlength := (List.subperm_of_subset hnodup hsubset).length_le
  rwa [InsertionMap.keys, List.length_map] at hlength

theorem writeFields_keyframe (writer : DataSetWriter) (seq : Nat) :
    (Succeeds (writeFields host (keyframeMessage host (.object []) writer seq)) ↔
      MethodsFit writer.publishedDataSet.fields) ∧
    AtMost 400 (writeFields host (keyframeMessage host (.object []) writer seq)) := by
  have hfields : writeFields host (keyframeMessage host (.object []) writer seq) =
      cat [putUInt 2 (keyframeFields host writer.publishedDataSet.fields (.object [])).length,
        cat ((keyframeFields host writer.publishedDataSet.fields (.object [])).map
          (writeNamedField host .variant))] := rfl
  have hnames := @names_keyframeFields host hhost writer.publishedDataSet.fields
  have hlength := length_keyframeFields hhost writer.publishedDataSet.fields
  have hentries : (∀ e ∈ keyframeFields host writer.publishedDataSet.fields (.object []),
      Succeeds (writeNamedField host .variant e)) ↔ MethodsFit writer.publishedDataSet.fields := by
    rw [keyframeFields_empty hhost.toStandard]
    refine (@Props.forall_mem_ofEntries _ (fun name field =>
      Succeeds (writeNamedField host .variant (name, field))) _).trans ?_
    simp only [Props.last?_map methodField]
    constructor
    · intro h name hname hproto dataType hlast
      refine (namedField_method hhost hname dataType).1.mp (h name hproto _ ?_)
      rw [@Props.last?_filter _ (fun name => decide (name ∈ inheritedNames)) name
        (decide_eq_true hname), hlast]
      rfl
    · intro h name hproto field hlast
      obtain ⟨dataType, hdeclared, rfl⟩ := Option.map_eq_some_iff.mp hlast
      have hname : name ∈ inheritedNames :=
        of_decide_eq_true (List.mem_filter.mp (Props.last?_eq_some hdeclared)).2
      rw [@Props.last?_filter _ (fun name => decide (name ∈ inheritedNames)) name
        (decide_eq_true hname)] at hdeclared
      exact (namedField_method hhost hname dataType).1.mpr (h name hname hproto dataType hdeclared)
  rw [hfields]
  constructor
  · rw [succeeds_cat]
    simp only [List.forall_mem_cons, succeeds_putUInt, succeeds_cat, List.forall_mem_map]
    rw [← hentries]
    exact ⟨fun h => h.2.1, fun h => ⟨by omega, h, nofun⟩⟩
  · refine AtMost.mono (AtMost.cons (atMost_putUInt 2 _) (AtMost.cons (AtMost.all (n := 31) ?_)
      AtMost.nil)) (by rw [List.length_map]; omega)
    intro w hw
    obtain ⟨e, he, rfl⟩ := List.mem_map.mp hw
    obtain ⟨hname, dataType, hfield⟩ := hnames e he
    obtain ⟨name, field⟩ := e
    subst hfield
    exact (namedField_method hhost hname dataType).2

end Methods

/-! ## Messages of an accepted publisher -/

/-- A time in the range of a DateTime. -/
def TimeFits (now : Int) : Prop := -11644473600000 ≤ now ∧ now ≤ 1833029933770955

theorem succeeds_now {now : Int} :
    Succeeds (writeDateTime (.date (some now))) ↔ TimeFits now := by
  rw [succeeds_writeDateTime, filetimeEpochOffsetMs, datetimeTicksPerMs, TimeFits]
  omega

section Built

variable {host : Host} {config : PublisherConfig} {message : DataSetWriter → Nat → DataSetMessage}

theorem plain_buildMessage (now : Int) (st : PublisherState) :
    Plain (buildMessage config message now st).1
      { writerGroupId := JsValue.nat config.writerGroupId,
        sequenceNumber := JsValue.nat (nextSeq st.nmSeq) }
      (config.writers.map fun w => JsValue.nat w.dataSetWriterId) now where
  groupHeader := rfl
  payloadHeader := rfl
  writers := fun h => config.writers_ne (List.map_eq_nil_iff.mp h)
  timestamp := rfl
  dataSetClassId := rfl
  picoseconds := rfl
  promotedFields := rfl
  chunk := rfl

theorem succeeds_groupHeader (hgroup : config.writerGroupId < 65536) (nmSeq : Nat) :
    Succeeds (writeGroupHeader host
      { writerGroupId := JsValue.nat config.writerGroupId,
        sequenceNumber := JsValue.nat (nextSeq nmSeq) }) := by
  have hzero {k : Nat} {hi : Int} (hhi : 0 ≤ hi) :
      Succeeds (writeInt host k 0 hi (.num Double.zero)) := by
    have hd : Double.zero.Denotes 0 := Value.denotes_zero false _ _
    rw [writeInt_denotes hd (le_refl 0) hhi]
    exact succeeds_ok _
  have hseq := nextSeq_le nmSeq
  rw [writeGroupHeader, succeeds_cat]
  simp only [List.forall_mem_cons]
  exact ⟨succeeds_writeUInt_nat (by omega) (by omega), hzero (by decide), hzero (by decide),
    succeeds_writeUInt_nat (by omega) (by omega), nofun⟩

/-- The encoder accepts the message of all writers exactly when they can be
counted, the time is one of the wire, and each writer's message is accepted. -/
theorem built_succeeds {cond : DataSetWriter → Prop} {now mtu : Int} {st : PublisherState}
    (hpublisherId : PublisherIdFits config.publisherId) (hgroup : config.writerGroupId < 65536)
    (hwriters : ∀ writer ∈ config.writers, writer.dataSetWriterId < 65536)
    (hmessage : ∀ writer ∈ config.writers, ∀ seq ≤ 65535,
      (Succeeds (encodeDataSetMessage host (message writer seq)) ↔ cond writer) ∧
        AtMost 65535 (encodeDataSetMessage host (message writer seq)))
    (hmtu : ∀ bs, encodeWhole host (buildMessage config message now st).1 = .ok bs →
      bs.length ≤ mtu) :
    Succeeds (encodeNetworkMessage host (buildMessage config message now st).1 mtu) ↔
      config.writers.length < 256 ∧ TimeFits now ∧ ∀ writer ∈ config.writers, cond writer := by
  have hids : ∀ id ∈ config.writers.map fun w => JsValue.nat w.dataSetWriterId,
      Succeeds (writeUInt16LE host id) := by
    intro id hid
    obtain ⟨writer, hwriter, rfl⟩ := List.mem_map.mp hid
    have hlt := hwriters writer hwriter
    exact succeeds_writeUInt_nat (by omega) (by omega)
  have hpayload := buildPayload_forall₂ (R := fun writer dsm =>
    (Succeeds (encodeDataSetMessage host dsm) ↔ cond writer) ∧
      AtMost 65535 (encodeDataSetMessage host dsm)) config.writers hmessage st.dsmSeq
  have hsmall : ∀ dsm ∈ (buildMessage config message now st).1.payload,
      AtMost 65535 (encodeDataSetMessage host dsm) := by
    intro dsm hdsm
    obtain ⟨writer, -, -, hatMost⟩ := exists_left_of_forall₂ hpayload hdsm
    exact hatMost
  rw [encodeNetworkMessage_succeeds hmtu, (plain_buildMessage now st).encodeWhole_succeeds
    hpublisherId (succeeds_groupHeader hgroup st.nmSeq) hids hsmall, List.length_map, succeeds_now]
  refine and_congr_right fun _ => and_congr_right fun _ => (forall_iff_of_forall₂ ?_).symm
  exact hpayload.imp fun _ _ h => h.1.symm

end Built

/-! ## Keyframes and KeepAlives -/

/-- An integer of 32 bits without a sign. -/
def FitsUInt32 (v : JsValue) : Prop :=
  ∃ d, v = .num d ∧ d.ltInt 0 = false ∧ d.gtInt 0xffffffff = false

/-- A writer whose empty keyframe fits the wire. -/
structure WriterFits (writer : DataSetWriter) : Prop where
  major : FitsUInt32 writer.publishedDataSet.configurationVersion.major
  minor : FitsUInt32 writer.publishedDataSet.configurationVersion.minor
  methods : MethodsFit writer.publishedDataSet.fields

section Messages

variable {host : Host}

theorem succeeds_version {v : JsValue} (h : ∃ d, v = .num d) :
    (v ≠ .undefined → Succeeds (writeUInt32LE host v)) ↔ FitsUInt32 v := by
  obtain ⟨d, rfl⟩ := h
  have hwrite : Succeeds (writeUInt32LE host (.num d)) ↔
      d.gtInt 0xffffffff = false ∧ d.ltInt 0 = false := succeeds_writeInt
  rw [hwrite, FitsUInt32]
  constructor
  · intro h
    obtain ⟨hhi, hlo⟩ := h nofun
    exact ⟨d, rfl, hlo, hhi⟩
  · rintro ⟨d', hd', hlo, hhi⟩ -
    cases hd'
    exact ⟨hhi, hlo⟩

theorem keyframe_succeeds (hhost : Methods host) {writer : DataSetWriter}
    (haccepted : WriterAccepted writer) {seq : Nat} (hseq : seq ≤ 65535) :
    (Succeeds (encodeDataSetMessage host (keyframeMessage host (.object []) writer seq)) ↔
      WriterFits writer) ∧
    AtMost 65535 (encodeDataSetMessage host (keyframeMessage host (.object []) writer seq)) := by
  have hplain : PlainData (keyframeMessage host (.object []) writer seq) seq :=
    ⟨rfl, by omega, rfl, rfl, rfl⟩
  obtain ⟨hfields, hatMost⟩ := writeFields_keyframe hhost writer seq
  refine ⟨?_, (hplain.atMost hatMost).mono (by decide)⟩
  have hmajor := @succeeds_version host _ haccepted.major
  have hminor := @succeeds_version host _ haccepted.minor
  rw [hplain.succeeds, hfields]
  constructor
  · rintro ⟨hmaj, hmin, hmethods⟩
    exact ⟨hmajor.mp hmaj, hminor.mp hmin, hmethods nofun⟩
  · intro h
    exact ⟨hmajor.mpr h.major, hminor.mpr h.minor, fun _ => h.methods⟩

theorem keepAlive_succeeds (writer : DataSetWriter) {seq : Nat} (hseq : seq ≤ 65535) :
    (Succeeds (encodeDataSetMessage host (keepAliveMessage writer seq)) ↔ True) ∧
    AtMost 65535 (encodeDataSetMessage host (keepAliveMessage writer seq)) := by
  have hplain : PlainData (keepAliveMessage writer seq) seq := ⟨rfl, by omega, rfl, rfl, rfl⟩
  have hempty : AtMost 2 (writeFields host (keepAliveMessage writer seq)) :=
    AtMost.cons (atMost_putUInt 2 0) (AtMost.cons AtMost.nil AtMost.nil)
  refine ⟨iff_true_intro (hplain.succeeds.mpr ?_), (hplain.atMost hempty).mono (by decide)⟩
  exact ⟨fun h => absurd rfl h, fun h => absurd rfl h, fun h => absurd rfl h⟩

end Messages

variable (host : Host)

/-- Whatever was published before, the encoder accepts the KeepAlive of a configured
publisher exactly when the writers can be counted in a byte and the time is a
DateTime, and the keyframe of an empty input exactly when besides each version is
a pair of integers of 32 bits and the types of inherited fields take a method. -/
theorem accepted_succeeds_iff {chost : Config.Host} (c : AcceptedPublisher chost) (hhost : Methods host)
    {publisherId : JsValue} (hpublisherId : PublisherIdFits publisherId)
    (publishMode : PublishMode) (now mtu : Int) (st : PublisherState)
    (hkeyframe : ∀ bs, encodeWhole host (buildNetworkMessage host
      (c.publisher publisherId publishMode) (.object []) now st).1 = .ok bs → bs.length ≤ mtu)
    (hkeepAlive : ∀ bs, encodeWhole host (buildKeepAlive
      (c.publisher publisherId publishMode) now st).1 = .ok bs → bs.length ≤ mtu) :
    (Succeeds (encodeNetworkMessage host (buildNetworkMessage host
        (c.publisher publisherId publishMode) (.object []) now st).1 mtu) ↔
      c.writers.length < 256 ∧ TimeFits now ∧
        ∀ writer ∈ (c.publisher publisherId publishMode).writers, WriterFits writer) ∧
    (Succeeds (encodeNetworkMessage host (buildKeepAlive
        (c.publisher publisherId publishMode) now st).1 mtu) ↔
      c.writers.length < 256 ∧ TimeFits now) := by
  have hcount : (c.publisher publisherId publishMode).writers.length = c.writers.length :=
    List.length_map _
  have haccepted := c.writers_accepted publisherId publishMode
  have hids : ∀ writer ∈ (c.publisher publisherId publishMode).writers,
      writer.dataSetWriterId < 65536 := fun writer hwriter =>
    (haccepted writer hwriter).dataSetWriterId
  have hgroup := c.writerGroupId_lt publisherId publishMode
  constructor
  · refine (built_succeeds hpublisherId hgroup hids (fun writer hwriter seq hseq =>
      keyframe_succeeds hhost (haccepted writer hwriter) hseq) hkeyframe).trans ?_
    rw [hcount]
  · refine (built_succeeds hpublisherId hgroup hids (fun writer _ seq hseq =>
      keepAlive_succeeds writer hseq) hkeepAlive).trans ?_
    rw [hcount]
    simp

/-! ## A publisher of one writer -/

def sampleGroup : Config.Value :=
  Config.Value.plain [(js "publishingInterval", .num (Double.ofInt 1000)),
    (js "writerGroupId", .num (Double.ofInt 1))]

def sampleDataSet (major : Int) : Config.Value :=
  Config.Value.plain [(js "name", .str (js "p")),
    (js "fields", .object .array [] [] [some (Config.Value.plain
      [(js "name", .str (js "t")), (js "dataType", .str (js "Double"))])]),
    (js "configurationVersion", Config.Value.plain
      [(js "major", .num (Double.ofInt major)), (js "minor", .num (Double.ofInt 0))])]

def sampleWriter (major : Int) : Config.Value :=
  Config.Value.plain [(js "dataSetWriterId", .num (Double.ofInt 1)),
    (js "publishedDataSet", sampleDataSet major)]

theorem sampleGroup_rules : Config.WriterGroupRules sampleGroup where
  object := rfl
  publishingInterval := by decide
  keepAliveTime := Or.inl rfl
  maxNetworkMessageSize := Or.inl rfl
  priority := Or.inl rfl
  writerGroupId := by decide

theorem sampleDataSet_rules {major : Int} (hmajor : major.natAbs < 2 ^ 53) :
    Config.PublishedDataSetRules (sampleDataSet major) where
  object := rfl
  name := rfl
  fields := by
    refine ⟨_, rfl, List.cons_ne_nil _ _, fun f hf => ?_⟩
    obtain rfl := Option.some.inj (List.mem_singleton.mp hf)
    exact ⟨rfl, rfl, rfl⟩
  configurationVersion := by
    refine Or.inr ?_
    change (true && (Config.Value.num (Double.ofInt major)).isInteger &&
      (Config.Value.num (Double.ofInt 0)).isInteger) = true
    rw [Config.isInteger_ofInt hmajor, Config.isInteger_ofInt (by decide)]
    rfl

theorem sampleWriter_id : (Config.Value.num (Double.ofInt 1)).isUInt16 = true ∧
    (Config.Value.num (Double.ofInt 1)).isZero = false := by
  decide

theorem sampleWriter_rules (major : Int) :
    Config.DataSetWriterRules Config.plainHost (sampleWriter major) where
  object := rfl
  dataSetWriterId := sampleWriter_id
  dataSetName := Or.inl rfl
  keyFrameCount := Or.inl rfl
  dataSetFieldContentMask := Or.inl rfl
  rawData := by
    have hbit : Config.plainHost.hasRawDataBit (Config.Value.undefined.orElse
        (.num Double.zero)) = .ok false := by
      have hzero : Double.zero.Denotes 0 := Value.denotes_zero false _ _
      change Except.ok (decide (Double.zero.trunc / 32 % 2 = 1)) = _
      rw [hzero.trunc]
      rfl
    refine ⟨⟨false, hbit⟩, fun hasks => ?_⟩
    have htrue : Except.ok false = Except.ok true := hbit.symm.trans hasks
    cases htrue

/-- One writer whose version has the given major number. -/
def sample (major : Int) (hmajor : major.natAbs < 2 ^ 53) : AcceptedPublisher Config.plainHost where
  groupConfig := sampleGroup
  group := Config.writerGroupObject sampleGroup
  group_built := (Config.writerGroup_eq_ok _).mpr ⟨sampleGroup_rules, rfl⟩
  writerConfigs := [sampleWriter major]
  writers := [Config.dataSetWriterObject (sampleWriter major)
    (Config.publishedDataSetObject (sampleDataSet major))]
  writers_built := by
    refine List.Forall₂.cons ⟨rfl, (Config.dataSetWriter_eq_ok _).mpr ?_⟩ List.Forall₂.nil
    exact ⟨sampleWriter_rules major, _,
      Config.nestedDataSet_eq_ok.mpr (Or.inr ⟨rfl, sampleDataSet_rules hmajor, rfl⟩), rfl⟩
  writers_ne := List.cons_ne_nil _ _

theorem sample_succeeds :
    (Succeeds (encodeNetworkMessage Host.plain (buildNetworkMessage Host.plain
        ((sample 1 (by decide)).publisher (.str (js "p")) .cyclic) (.object []) 0 {}).1 1400) ↔
      (sample 1 (by decide)).writers.length < 256 ∧ TimeFits 0 ∧
        ∀ writer ∈ ((sample 1 (by decide)).publisher (.str (js "p")) .cyclic).writers,
          WriterFits writer) ∧
    (Succeeds (encodeNetworkMessage Host.plain (buildKeepAlive
        ((sample 1 (by decide)).publisher (.str (js "p")) .cyclic) 0 {}).1 1400) ↔
      (sample 1 (by decide)).writers.length < 256 ∧ TimeFits 0) := by
  refine accepted_succeeds_iff Host.plain (sample 1 (by decide)) methods_plain
    (show PublisherIdFits (.str (js "p")) by rw [PublisherIdFits]; decide) .cyclic 0 1400 {} ?_ ?_
  · intro bs hbs
    have hfits : (encodeWhole Host.plain (buildNetworkMessage Host.plain ((sample 1
      (by decide)).publisher (.str (js "p")) .cyclic) (.object []) 0 {}).1).toOption.all
        (fun bs => decide (bs.length ≤ 1400)) = true := by decide +kernel
    rw [hbs] at hfits
    exact_mod_cast of_decide_eq_true hfits
  · intro bs hbs
    have hfits : (encodeWhole Host.plain (buildKeepAlive ((sample 1
      (by decide)).publisher (.str (js "p")) .cyclic) 0 {}).1).toOption.all
        (fun bs => decide (bs.length ≤ 1400)) = true := by decide +kernel
    rw [hbs] at hfits
    exact_mod_cast of_decide_eq_true hfits

/-- A major version of 2^32 is accepted by the factories and not by the encoder. -/
theorem largeVersion_fails :
    ¬ Succeeds (encodeNetworkMessage Host.plain (buildNetworkMessage Host.plain
      ((sample (2 ^ 32) (by decide)).publisher (.str (js "p")) .cyclic) (.object []) 0 {}).1
        1400) := by
  have hraises : encodeNetworkMessage Host.plain (buildNetworkMessage Host.plain
      ((sample (2 ^ 32) (by decide)).publisher (.str (js "p")) .cyclic) (.object []) 0 {}).1
        1400 = .error (.runtime .rangeError) := by decide +kernel
  rw [hraises]
  exact not_succeeds_error _

end OpcUaSuite.Nodes
