import OpcUaSuite.Nodes.PublisherUpdates
import OpcUaSuite.Uadp.Announced
import OpcUaSuite.Uadp.Chunking
import OpcUaSuite.Uadp.RoundTrip
import OpcUaSuite.Uadp.Success

/-!
# The configured PublisherId on the wire

The editor stores a PublisherId as a text next to its type. The connection node
keeps the text, the publisher puts it into its messages, and the encoder takes
the type of the wire from the value, so every message carries a String.
-/

namespace OpcUaSuite.Nodes

open Js ByteCodec PubSub Uadp Transition

/-! ## The configuration -/

inductive PublisherIdType
  | String
  | UInt16
  | UInt32
  | UInt64
deriving DecidableEq

/-- `node.publisherId`; an empty String id gets a random UUID. -/
def connectionPublisherId (randomUUID : JsString) (publisherIdType : PublisherIdType)
    (publisherId : JsValue) : JsValue :=
  if (publisherId.isNullish ∨ publisherId = .str []) ∧ publisherIdType = .String then
    .str randomUUID
  else publisherId

namespace PublisherIdType

/-- Bits 0 to 2 of ExtendedFlags1. -/
def typeBits : PublisherIdType → Nat
  | .String => 4
  | .UInt16 => 1
  | .UInt32 => 2
  | .UInt64 => 3

/-- The texts of a type: those UTF-8 carries, and the decimal numbers in range. -/
def Valid (text : JsString) : PublisherIdType → Prop
  | .String => text ≠ [] ∧ TextInRange text
  | .UInt16 => ∃ n < 2 ^ 16, numeral? text = some n
  | .UInt32 => ∃ n < 2 ^ 32, numeral? text = some n
  | .UInt64 => ∃ n < 2 ^ 64, numeral? text = some n

/-- The value a text of the type stands for, as the decoder returns it. -/
def valueOf (text : JsString) : PublisherIdType → JsValue
  | .String => .str text
  | .UInt16 | .UInt32 => .nat ((numeral? text).getD 0)
  | .UInt64 => .bigint ((numeral? text).getD 0)

end PublisherIdType

/-! ## The wire -/

/-- The PublisherId in the header of a buffer. -/
def wireId (buffer : Bytes) : Except UadpError JsValue :=
  (readHeader.run buffer).map fun header => header.1.publisherId

/-- The flags of a buffer announce a PublisherId of a type, its header has the
value, and so has the message a decoder returns. -/
structure CarriesId (type : PublisherIdType) (value : JsValue) (buffer : Bytes) : Prop where
  announced : (uadpFlagsOf buffer).testBit 4 = true
  typeBits : extFlags1Of buffer % 8 = type.typeBits
  header : wireId buffer = .ok value
  decoded : ∀ nm, decodeNetworkMessage buffer = .ok nm → nm.publisherId = value

/-- The buffers of an encoded message. -/
def buffersOf : Encoded → List Bytes
  | .single buffer => [buffer]
  | .chunks buffers => buffers

/-- Whatever follows the header, the message keeps its PublisherId. -/
theorem publisherId_of_rest {hdr nm : NetworkMessage} {extFlags2 : Nat} {c c' : Cursor}
    (h : (if extFlags2.testBit 1 then ByteCodec.Reader.fail fun _ => .decodeNotYetImplemented
      else if extFlags2.testBit 0 then do
        let chunk ← readChunk
        return { hdr with chunk := some chunk, payload := [] }
      else do
        let payload ← readPayload (dataSetWriterIds hdr).length
        return { hdr with payload := payload } : Uadp.Reader NetworkMessage) c = .ok (nm, c')) :
    nm.publisherId = hdr.publisherId := by
  split_ifs at h
  · cases h
  · rw [Reader.bind_apply] at h
    cases hchunk : readChunk c with
    | error e =>
        rw [hchunk] at h
        cases h
    | ok result =>
        rw [hchunk] at h
        cases h
        rfl
  · rw [Reader.bind_apply] at h
    cases hpayload : readPayload (dataSetWriterIds hdr).length c with
    | error e =>
        rw [hpayload] at h
        cases h
    | ok result =>
        rw [hpayload] at h
        cases h
        rfl

theorem wireId_of_decode {buffer : Bytes} {nm : NetworkMessage}
    (h : decodeNetworkMessage buffer = .ok nm) : wireId buffer = .ok nm.publisherId := by
  rw [decodeNetworkMessage, Reader.run, readNetworkMessage, Reader.bind_apply] at h
  rw [wireId, Reader.run]
  cases hheader : readHeader ⟨0, buffer⟩ with
  | error e =>
      rw [hheader] at h
      cases h
  | ok result =>
      obtain ⟨⟨hdr, extFlags2⟩, c⟩ := result
      rw [hheader] at h
      dsimp only at h
      split at h
      next nm' c' hrest =>
        cases h
        exact congrArg Except.ok (publisherId_of_rest hrest).symm
      next => cases h

/-! ## Headers with a text -/

variable {host : Host}

/-- A header whose PublisherId is a text is read back with it, whatever values
its other members hold. -/
theorem headerEncodes_text {nm : NetworkMessage} {text : JsString}
    (hid : nm.publisherId = .str text) (htext : TextInRange text) (hclass : ClassIdFits nm) :
    ∃ hdr, hdr.publisherId = .str text ∧ HeaderEncodes host nm 4 hdr := by
  have hpublisher : Encodes (opt (decide (nm.publisherId ≠ .undefined))
        (writePublisherId host nm.publisherId 4))
      (readMember (decide (nm.publisherId ≠ .undefined)) (readPublisherId 4)) (.str text) := by
    rw [hid]
    exact encodes_string htext
  obtain ⟨dataSetClassId, hdataSetClassId⟩ := consumes_member nm.dataSetClassId.truthy
    fun hp => consumes_guid (hclass hp)
  obtain ⟨groupHeader, hgroupHeader⟩ := consumes_optionalGroupHeader host nm.groupHeader
  have hid : ∀ id ∈ dataSetWriterIds nm,
      ∃ a, Encodes (writeUInt16LE host id) (readNumber 2) a ∧ True := by
    intro id _
    obtain ⟨a, ha⟩ := consumes_unsigned host 2 id
    exact ⟨a, ha, trivial⟩
  obtain ⟨payloadHeader, hpayloadHeader⟩ : ∃ a, Encodes
      (opt (decide (dataSetWriterIds nm ≠ [])) (writePayloadHeader host (dataSetWriterIds nm)))
      (readPayloadHeader (decide (dataSetWriterIds nm ≠ []))) a := by
    obtain ⟨ids, hids, -⟩ := Encodes.many_related (R := fun _ _ => True) hid
    refine ⟨_, Encodes.opt (a := some ids) fun _ => ?_⟩
    exact Encodes.cons (encodes_putUInt 1 _) (Encodes.map some (Encodes.single hids))
  obtain ⟨timestamp, htimestamp⟩ := consumes_member nm.timestamp.truthy
    fun _ => consumes_date nm.timestamp
  obtain ⟨picoseconds, hpicoseconds⟩ := consumes_member
    (decide (nm.picoseconds ≠ .undefined) && nm.timestamp.truthy)
    fun _ => consumes_unsigned host 2 nm.picoseconds
  exact ⟨{
      publisherId := .str text, dataSetClassId := dataSetClassId, groupHeader := groupHeader
      payloadHeader := payloadHeader, timestamp := timestamp, picoseconds := picoseconds },
    rfl, by decide, hpublisher, hdataSetClassId, hgroupHeader, hpayloadHeader, htimestamp,
    hpicoseconds, rfl⟩

theorem putUInt_one {n : Nat} {bs : Bytes} (h : putUInt 1 n = .ok bs) :
    ∃ b : UInt8, bs = [b] ∧ b.toNat = n := by
  rw [putUInt] at h
  split at h
  next hlt =>
    cases h
    refine ⟨UInt8.ofNat n, rfl, ?_⟩
    rw [UInt8.toNat_ofNat']
    exact Nat.mod_eq_of_lt hlt
  next => cases h

/-- The flag bytes announce a PublisherId of the type in bits 0 to 2. -/
theorem flags_of_header {nm : NetworkMessage} {typeBits extFlags2 : Nat} {header : Bytes}
    (hbits : typeBits < 8) (htype : typeBits ≠ 0) (hpresent : nm.publisherId ≠ .undefined)
    (hwritten : cat (writeHeader host nm (buildUADPFlags nm (extendedFlags1 nm typeBits extFlags2))
      (extendedFlags1 nm typeBits extFlags2) extFlags2) = .ok header) (payload : Bytes) :
    (uadpFlagsOf (header ++ payload)).testBit 4 = true ∧
      extFlags1Of (header ++ payload) % 8 = typeBits := by
  obtain ⟨hmod, -⟩ := @extendedFlags1_fields nm typeBits extFlags2 hbits
  obtain ⟨-, hbit4, -, -, hbit7⟩ := buildUADPFlags_fields nm (extendedFlags1 nm typeBits extFlags2)
  have hne : extendedFlags1 nm typeBits extFlags2 ≠ 0 := by
    intro hzero
    rw [hzero] at hmod
    exact htype hmod.symm
  rw [decide_eq_true hne] at hbit7
  rw [decide_eq_true hpresent] at hbit4
  obtain ⟨b₀, rest₀, h₀, hrest₀, rfl⟩ := cat_cons_eq_ok.mp hwritten
  obtain ⟨b₁, rest₁, h₁, -, rfl⟩ := cat_cons_eq_ok.mp hrest₀
  rw [hbit7] at h₁
  obtain ⟨flags, rfl, hflags⟩ := putUInt_one h₀
  obtain ⟨ext, rfl, hext⟩ := putUInt_one h₁
  have huadp : uadpFlagsOf ([flags] ++ ([ext] ++ rest₁) ++ payload) =
      buildUADPFlags nm (extendedFlags1 nm typeBits extFlags2) := hflags
  rw [extFlags1Of, huadp, hbit4, hbit7, if_pos rfl]
  exact ⟨rfl, (congrArg (· % 8) hext).trans hmod⟩

/-- A header whose PublisherId is a text is read back with it. -/
theorem wireId_of_header {nm hdr : NetworkMessage} {text : JsString} {extFlags2 : Nat}
    {header : Bytes} (hhdr : HeaderEncodes host nm 4 hdr) (hid : hdr.publisherId = .str text)
    (hwritten : cat (writeHeader host nm (buildUADPFlags nm (extendedFlags1 nm 4 extFlags2))
      (extendedFlags1 nm 4 extFlags2) extFlags2) = .ok header) (payload : Bytes) :
    wireId (header ++ payload) = .ok (.str text) := by
  have hread := (encodes_header extFlags2 hhdr).reads header hwritten
  rw [wireId, Reader.run, hread.exact 0 payload]
  exact congrArg Except.ok hid

/-! ## Messages of the publisher -/

/-- A message some publisher of the configuration has built. -/
def Built (config : PublisherConfig) (nm : NetworkMessage) : Prop :=
  ∃ message now st, nm = (buildMessage config message now st).1

variable {config : PublisherConfig} {nm : NetworkMessage} {text : JsString}

theorem classIdFits_build (message : DataSetWriter → Nat → DataSetMessage) (now : Int)
    (st : PublisherState) : ClassIdFits (buildMessage config message now st).1 := by
  intro h
  cases h

/-- Every buffer of a message begins with a header of the message or of a chunk of
it, with the type bits of a text. -/
theorem header_of_encode (hbuilt : Built config nm) (hid : config.publisherId = .str text)
    {mtu : Int} {encoded : Encoded} (hencode : encodeNetworkMessage host nm mtu = .ok encoded)
    {buffer : Bytes} (hbuffer : buffer ∈ buffersOf encoded) :
    ∃ nm' extFlags2 header payload, nm'.publisherId = .str text ∧ ClassIdFits nm' ∧
      cat (writeHeader host nm' (buildUADPFlags nm' (extendedFlags1 nm' 4 extFlags2))
        (extendedFlags1 nm' 4 extFlags2) extFlags2) = .ok header ∧ buffer = header ++ payload := by
  obtain ⟨message, now, st, rfl⟩ := hbuilt
  have hbits {typeBits : Nat}
      (h : typeBitsOf (buildMessage config message now st).1 = .ok typeBits) : typeBits = 4 := by
    have hfour : typeBitsOf (buildMessage config message now st).1 = .ok 4 := by
      change (if config.publisherId = .undefined then .ok 0
        else publisherIdTypeBits config.publisherId) = _
      rw [hid]
      rfl
    exact Except.ok.inj (h.symm.trans hfour)
  cases encoded with
  | single bs =>
      obtain rfl := List.mem_singleton.mp hbuffer
      obtain ⟨typeBits, header, buffers, payload, htype, hwritten, -, -, rfl⟩ :=
        encodeWhole_cases (encodeNetworkMessage_single hencode)
      obtain rfl := hbits htype
      exact ⟨(buildMessage config message now st).1, _, header, payload, hid,
        classIdFits_build message now st, hwritten, rfl⟩
  | chunks bs =>
      obtain ⟨whole, msn, probe, infos, -, -, -, -, hbuffers⟩ := encodeNetworkMessage_chunks hencode
      obtain ⟨info, -, hchunk⟩ := exists_left_of_forall₂ hbuffers hbuffer
      obtain ⟨typeBits, header, payload, htype, hwritten, -, rfl⟩ := encodeChunk_cases hchunk
      obtain rfl := hbits htype
      exact ⟨chunkMessage (buildMessage config message now st).1 (chunkOf msn info) (chunkWriterId _),
        1, header, payload, hid, @classIdFits_build config message now st, hwritten, rfl⟩

/-- Every buffer of a message with a text for a PublisherId has the type of a text. -/
theorem flags_of_encode (hbuilt : Built config nm) (hid : config.publisherId = .str text)
    {mtu : Int} {encoded : Encoded} (hencode : encodeNetworkMessage host nm mtu = .ok encoded)
    {buffer : Bytes} (hbuffer : buffer ∈ buffersOf encoded) :
    (uadpFlagsOf buffer).testBit 4 = true ∧ extFlags1Of buffer % 8 = 4 := by
  obtain ⟨nm', extFlags2, header, payload, hid', -, hwritten, rfl⟩ :=
    header_of_encode hbuilt hid hencode hbuffer
  refine flags_of_header (by decide) (by decide) ?_ hwritten payload
  rw [hid']
  nofun

/-- It carries the text that UTF-8 carries. -/
theorem carriesId_of_encode (hbuilt : Built config nm) (hid : config.publisherId = .str text)
    (htext : TextInRange text) {mtu : Int} {encoded : Encoded}
    (hencode : encodeNetworkMessage host nm mtu = .ok encoded)
    {buffer : Bytes} (hbuffer : buffer ∈ buffersOf encoded) :
    CarriesId .String (.str text) buffer := by
  obtain ⟨hannounced, hbits⟩ := flags_of_encode hbuilt hid hencode hbuffer
  obtain ⟨nm', extFlags2, header, payload, hid', hclass, hwritten, rfl⟩ :=
    header_of_encode hbuilt hid hencode hbuffer
  obtain ⟨hdr, hdrId, hhdr⟩ := @headerEncodes_text host nm' text hid' htext hclass
  have hvalue := wireId_of_header hhdr hdrId hwritten payload
  refine ⟨hannounced, hbits, hvalue, fun nm hnm => ?_⟩
  exact Except.ok.inj ((wireId_of_decode hnm).symm.trans hvalue)

/-- A buffer is decoded when it is a chunk, or its message is in range. -/
theorem decodes_of_inRange (hbuilt : Built config nm) {mtu : Int} {encoded : Encoded}
    (hencode : encodeNetworkMessage host nm mtu = .ok encoded)
    (h : (∃ buffers, encoded = .chunks buffers) ∨ NetworkMessageInRange nm) :
    ∀ buffer ∈ buffersOf encoded, ∃ nm', decodeNetworkMessage buffer = .ok nm' := by
  intro buffer hbuffer
  obtain ⟨message, now, st, rfl⟩ := hbuilt
  cases encoded with
  | single bs =>
      obtain rfl := List.mem_singleton.mp hbuffer
      obtain ⟨_, hchunks⟩ | hrange := h
      · cases hchunks
      · exact ⟨_, decode_encodeWhole hrange (encodeNetworkMessage_single hencode)⟩
  | chunks bs =>
      obtain ⟨whole, ms, key, -, hbuffers, -⟩ := chunks_decode
        (classIdFits_build message now st) hencode
      obtain ⟨m, -, -, hdecode⟩ := exists_right_of_forall₂ hbuffers hbuffer
      exact ⟨_, hdecode⟩

/-! ## Runs -/

/-- Every message that waits or was handed over was built by the publisher, and
what was handed over is its encoding. -/
structure BuiltOnly (host : Host) (config : PublisherConfig) (t : PublisherTrace Encoded) :
    Prop where
  pending : ∀ nm, t.state.pendingSend = some nm → Built config nm
  log : ∀ entry ∈ t.log, Built config entry.handed.message ∧
    uadpEncoder host config entry.handed.message = .ok entry.handed.encoded

theorem builtOnly_emit {accepts : Bool} {st st' : PublisherState} {handed : Option (Handed Encoded)}
    (hnm : Built config nm) (hpending : ∀ nm, st.pendingSend = some nm → Built config nm)
    (h : emit (uadpEncoder host config) accepts nm st = (st', handed)) :
    (∀ nm, st'.pendingSend = some nm → Built config nm) ∧
    ∀ d ∈ handed, Built config d.message ∧ uadpEncoder host config d.message = .ok d.encoded := by
  obtain ⟨-, rfl, rfl⟩ | ⟨-, rfl, -, rfl⟩ | ⟨-, rfl, encoded, hencode, rfl⟩ := emit_cases h
  · refine ⟨fun nm' hnm' => ?_, nofun⟩
    obtain rfl := Option.some.inj hnm'
    exact hnm
  · exact ⟨hpending, nofun⟩
  · refine ⟨hpending, fun d hd => ?_⟩
    obtain rfl := Option.some.inj hd
    exact ⟨hnm, hencode⟩

/-- Whatever an event hands over was built by the publisher. -/
theorem built_step {st st' : PublisherState} {e : PublisherEvent} {handed : Option (Handed Encoded)}
    (hpending : ∀ nm, st.pendingSend = some nm → Built config nm)
    (h : publisherStep host config (uadpEncoder host config) st e = some (st', handed)) :
    (∀ nm, st'.pendingSend = some nm → Built config nm) ∧
    ∀ d ∈ handed, Built config d.message ∧ uadpEncoder host config d.message = .ok d.encoded := by
  cases e with
  | input payload now accepts =>
      rw [publisherStep, input] at h
      cases hmode : config.publishMode with
      | cyclic =>
          rw [hmode] at h
          cases h
          exact ⟨hpending, fun d hd => by cases hd⟩
      | acyclic =>
          rw [hmode] at h
          refine builtOnly_emit ⟨keyframeMessage host (sourceValuesOf payload), now, st, rfl⟩ ?_
            (Option.some.inj h)
          exact hpending
  | tick now accepts =>
      rw [publisherStep] at h
      cases hmode : config.publishMode with
      | acyclic =>
          rw [hmode] at h
          cases h
      | cyclic =>
          rw [hmode] at h
          obtain ⟨e, -, rfl, rfl⟩ | ⟨e, -, -, rfl, rfl⟩ | ⟨text, -, -, hemit⟩ | ⟨-, hemit⟩ :=
            tick_cases (Option.some.inj h)
          · exact ⟨hpending, fun d hd => by cases hd⟩
          · exact ⟨hpending, fun d hd => by cases hd⟩
          · refine builtOnly_emit ⟨keyframeMessage host (.object st.latestValues), now, st, rfl⟩ ?_
              hemit
            exact hpending
          · refine builtOnly_emit ⟨keepAliveMessage, now, st, rfl⟩ ?_ hemit
            exact hpending
  | status status accepts =>
      rw [publisherStep] at h
      cases status with
      | connected =>
          cases hqueued : st.pendingSend with
          | none =>
              rw [statusCb, hqueued] at h
              cases h
              refine ⟨fun nm hnm => ?_, fun d hd => by cases hd⟩
              cases hnm
          | some queued =>
              rw [statusCb, hqueued] at h
              refine builtOnly_emit (hpending queued hqueued) (fun nm hnm => ?_) (Option.some.inj h)
              cases hnm
      | disconnected | reconnecting | error =>
          cases h
          exact ⟨hpending, fun d hd => by cases hd⟩

theorem builtOnly_step {t t' : PublisherTrace Encoded} {e : PublisherEvent}
    (h : BuiltOnly host config t)
    (hstep : traceStep host config (uadpEncoder host config) t e = some t') :
    BuiltOnly host config t' := by
  obtain ⟨⟨st, handed⟩, hpub, htrace⟩ := Option.map_eq_some_iff.mp hstep
  obtain ⟨hpending, hhanded⟩ := built_step h.pending hpub
  obtain ⟨known, hstate, hlog⟩ : ∃ known, t'.state = st ∧
      t'.log = t.log ++ (handed.map fun d => LogEntry.mk d known).toList := by
    rw [← htrace]
    dsimp only
    split
    · exact ⟨_, rfl, rfl⟩
    · exact ⟨_, rfl, rfl⟩
  constructor
  case pending =>
    rw [hstate]
    exact hpending
  case log =>
    intro entry hentry
    rw [hlog] at hentry
    obtain hold | hnew := List.mem_append.mp hentry
    · exact h.log entry hold
    · obtain ⟨d, hd, rfl⟩ := Option.map_eq_some_iff.mp (Option.mem_toList.mp hnew)
      exact hhanded d hd

theorem builtOnly_run {events : List PublisherEvent} {t : PublisherTrace Encoded}
    (hrun : run (traceStep host config (uadpEncoder host config)) {} events = some t) :
    BuiltOnly host config t := by
  have hinit : BuiltOnly host config {} := ⟨nofun, nofun⟩
  have hpreserves : Preserves (traceStep host config (uadpEncoder host config))
      (fun _ _ => True) (BuiltOnly host config) := fun t e t' h _ hstep => builtOnly_step h hstep
  have hok : ∀ (t : PublisherTrace Encoded) (e : PublisherEvent), True := fun _ _ => trivial
  exact hpreserves.run hinit (along_of_forall hok _ events) hrun

/-! ## The PublisherId of a connection -/

theorem connectionPublisherId_of_valid {type : PublisherIdType} (h : type.Valid text)
    (randomUUID : JsString) : connectionPublisherId randomUUID type (.str text) = .str text := by
  rw [connectionPublisherId]
  split
  next hempty =>
    obtain ⟨hnone | hnil, rfl⟩ := hempty
    · cases hnone
    · exact absurd (JsValue.str.inj hnil) h.1
  next => rfl

/-- In every run of a publisher on a connection, what is handed to the transport
carries the configured PublisherId in its configured type exactly when that type
is String; a chunk is always decoded, and so is a message in range. -/
theorem carriesId_iff (host : Host) (randomUUID : JsString) {type : PublisherIdType}
    {text : JsString} (hvalid : type.Valid text) {config : PublisherConfig}
    (hconfig : config.publisherId = connectionPublisherId randomUUID type (.str text))
    {events : List PublisherEvent} {t : PublisherTrace Encoded}
    (hrun : run (traceStep host config (uadpEncoder host config)) {} events = some t) :
    ∀ entry ∈ t.log, ∀ buffer ∈ buffersOf entry.handed.encoded,
      (CarriesId type (type.valueOf text) buffer ↔ type = .String) ∧
      ((∃ buffers, entry.handed.encoded = .chunks buffers) ∨
        NetworkMessageInRange entry.handed.message →
          ∃ nm, decodeNetworkMessage buffer = .ok nm) := by
  intro entry hentry buffer hbuffer
  obtain ⟨hbuilt, hencode⟩ := (builtOnly_run hrun).log entry hentry
  rw [connectionPublisherId_of_valid hvalid] at hconfig
  refine ⟨⟨fun hcarries => ?_, ?_⟩, fun h => decodes_of_inRange hbuilt hencode h buffer hbuffer⟩
  · have hfour := (flags_of_encode hbuilt hconfig hencode hbuffer).2
    have hbits := hcarries.typeBits.symm.trans hfour
    cases type with
    | String => rfl
    | UInt16 | UInt32 | UInt64 => cases hbits
  · rintro rfl
    exact carriesId_of_encode hbuilt hconfig hvalid.2 hencode hbuffer

/-- An acyclic publisher of one Int32 on a connection with a PublisherId. -/
def numberedPublisher (type : PublisherIdType) (text : JsString) : PublisherConfig where
  publisherId := connectionPublisherId [] type (.str text)
  writerGroupId := 1
  publishMode := .acyclic
  writers := [⟨1, ⟨[⟨js "t", js "Int32"⟩], ⟨JsValue.nat 1, JsValue.nat 0⟩⟩⟩]
  writers_ne := int32Writers_ne

/-- A connection, and one message. -/
def oneMessage : List PublisherEvent :=
  [.status .connected true, .input (.object [(js "t", JsValue.nat 1)]) 0 true]

theorem carriesId_text : ∃ t : PublisherTrace Encoded,
    run (traceStep Host.inert (numberedPublisher .String (js "p"))
      (uadpEncoder Host.inert (numberedPublisher .String (js "p")))) {} oneMessage = some t ∧
    ∀ entry ∈ t.log, ∀ buffer ∈ buffersOf entry.handed.encoded,
      (CarriesId .String (.str (js "p")) buffer ↔ PublisherIdType.String = .String) ∧
      ((∃ buffers, entry.handed.encoded = .chunks buffers) ∨
        NetworkMessageInRange entry.handed.message →
          ∃ nm, decodeNetworkMessage buffer = .ok nm) := by
  have hvalid : PublisherIdType.String.Valid (js "p") := by
    refine ⟨by decide, ?_⟩
    decide
  have hsome : (run (traceStep Host.inert (numberedPublisher .String (js "p"))
      (uadpEncoder Host.inert (numberedPublisher .String (js "p")))) {} oneMessage).isSome = true := by
    decide +kernel
  obtain ⟨t, hrun⟩ := Option.isSome_iff_exists.mp hsome
  exact ⟨t, hrun, carriesId_iff Host.inert [] hvalid rfl hrun⟩

/-- A UInt16 goes out as a String. -/
theorem number_sent_as_text : ∃ (t : PublisherTrace Encoded) (entry : LogEntry Encoded)
    (buffer : Bytes),
    run (traceStep Host.inert (numberedPublisher .UInt16 (js "4660"))
      (uadpEncoder Host.inert (numberedPublisher .UInt16 (js "4660")))) {} oneMessage = some t ∧
    entry ∈ t.log ∧ buffer ∈ buffersOf entry.handed.encoded ∧
    ¬ CarriesId .UInt16 (PublisherIdType.UInt16.valueOf (js "4660")) buffer := by
  have htypes : (run (traceStep Host.inert (numberedPublisher .UInt16 (js "4660"))
      (uadpEncoder Host.inert (numberedPublisher .UInt16 (js "4660")))) {} oneMessage).map (fun t =>
        t.log.map fun entry => (buffersOf entry.handed.encoded).map fun b => extFlags1Of b % 8) =
      some [[4]] := by
    decide +kernel
  obtain ⟨t, hrun, hlog⟩ := Option.map_eq_some_iff.mp htypes
  obtain ⟨entry, hentry, hbuffers⟩ := List.map_eq_singleton_iff.mp hlog
  obtain ⟨buffer, hbuffer, hbits⟩ := List.map_eq_singleton_iff.mp hbuffers
  refine ⟨t, entry, buffer, hrun, by rw [hentry]; exact List.mem_singleton_self entry,
    by rw [hbuffer]; exact List.mem_singleton_self buffer, fun hcarries => ?_⟩
  cases hbits.symm.trans hcarries.typeBits

end OpcUaSuite.Nodes
