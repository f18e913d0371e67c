import OpcUaSuite.Uadp.Header

/-!
# The round trip over the whole format

A message in range that is encoded as one buffer always decodes. What comes
back is the normal form of the message, except where a null of a fixed-width
type was written as zero or false.
-/

namespace OpcUaSuite.Uadp

open Js ByteCodec BinaryFloat PubSub

/-! ## Messages in range -/

def BigIntIn (lo hi : Int) (v : JsValue) : Prop := ∃ i, lo ≤ i ∧ i ≤ hi ∧ v = .bigint i

def IsText (v : JsValue) : Prop := ∃ s, v = .str s ∧ TextInRange s

/-- A Byte, UInt16 or UInt32 as a number, a UInt64 as a BigInt, or a String. -/
def IsPublisherId (v : JsValue) : Prop :=
  IntegerIn 0 (256 ^ 4 - 1) v ∨ BigIntIn 0 (256 ^ 8 - 1) v ∨ IsText v

def IsGuid (v : JsValue) : Prop := ∃ s, v = .str s ∧ isGuid s = true

structure GroupHeaderInRange (gh : GroupHeader) : Prop where
  writerGroupId : IntegerIn 0 (256 ^ 2 - 1) gh.writerGroupId
  groupVersion : Optional (IntegerIn 0 (256 ^ 4 - 1)) gh.groupVersion
  networkMessageNumber : Optional (IntegerIn 0 (256 ^ 2 - 1)) gh.networkMessageNumber
  sequenceNumber : IntegerIn 0 (256 ^ 2 - 1) gh.sequenceNumber

/-- A payload header lists one DataSetWriterId per DataSetMessage; without one
there is at most one DataSetMessage. -/
structure NetworkMessageInRange (nm : NetworkMessage) : Prop where
  publisherId : Optional IsPublisherId nm.publisherId
  dataSetClassId : Optional IsGuid nm.dataSetClassId
  groupHeader : ∀ gh, nm.groupHeader = some gh → GroupHeaderInRange gh
  payloadHeader : ∀ ids, nm.payloadHeader = some ids → 1 ≤ ids.length ∧ ids.length ≤ 255 ∧
    ids.length = nm.payload.length ∧ ∀ id ∈ ids, IntegerIn 0 (256 ^ 2 - 1) id
  noPayloadHeader : nm.payloadHeader = none → nm.payload.length ≤ 1
  timestamp : Optional IsDate nm.timestamp
  picoseconds : Optional (IntegerIn 0 (256 ^ 2 - 1)) nm.picoseconds
  timed : nm.picoseconds ≠ .undefined → IsDate nm.timestamp
  promotedFields : nm.promotedFields = .undefined
  chunk : nm.chunk = none
  payload : ∀ dsm ∈ nm.payload, DataSetMessageInRange dsm

/-- The members of the header are in range. -/
structure HeaderInRange (nm : NetworkMessage) : Prop where
  publisherId : Optional IsPublisherId nm.publisherId
  dataSetClassId : Optional IsGuid nm.dataSetClassId
  groupHeader : ∀ gh, nm.groupHeader = some gh → GroupHeaderInRange gh
  payloadHeader : ∀ ids, nm.payloadHeader = some ids →
    1 ≤ ids.length ∧ ∀ id ∈ ids, IntegerIn 0 (256 ^ 2 - 1) id
  timestamp : Optional IsDate nm.timestamp
  picoseconds : Optional (IntegerIn 0 (256 ^ 2 - 1)) nm.picoseconds
  timed : nm.picoseconds ≠ .undefined → IsDate nm.timestamp

theorem NetworkMessageInRange.header {nm : NetworkMessage} (h : NetworkMessageInRange nm) :
    HeaderInRange nm :=
  ⟨h.publisherId, h.dataSetClassId, h.groupHeader,
    fun ids hids => ⟨(h.payloadHeader ids hids).1, (h.payloadHeader ids hids).2.2.2⟩,
    h.timestamp, h.picoseconds, h.timed⟩

/-! ## Normal form -/

def upperText : JsValue → JsValue
  | .str s => .str (toUpper s)
  | v => v

def GroupHeader.normal (gh : GroupHeader) : GroupHeader where
  writerGroupId := unsignZero gh.writerGroupId
  groupVersion := unsignZero (orZero gh.groupVersion)
  networkMessageNumber := unsignZero (orZero gh.networkMessageNumber)
  sequenceNumber := unsignZero gh.sequenceNumber

def headerNormal (nm : NetworkMessage) : NetworkMessage where
  publisherId := unsignZero nm.publisherId
  dataSetClassId := upperText nm.dataSetClassId
  groupHeader := nm.groupHeader.map GroupHeader.normal
  payloadHeader := nm.payloadHeader.map fun ids => ids.map unsignZero
  timestamp := nm.timestamp
  picoseconds := unsignZero nm.picoseconds

/-- The message as a decoder returns it, with `f` applied to every scalar. -/
def NetworkMessage.map (f : BuiltInType → JsValue → JsValue) (nm : NetworkMessage) :
    NetworkMessage :=
  { headerNormal nm with payload := nm.payload.map (DataSetMessage.map f) }

/-- The message up to the documented normalisations: types as ordinals, GUIDs in
upper case, Floats rounded, defaults filled in, and only what UADP carries. -/
def normalForm (nm : NetworkMessage) : NetworkMessage := NetworkMessage.map normalScalar nm

def NetworkMessage.scalars (nm : NetworkMessage) : List (BuiltInType × JsValue) :=
  nm.payload.flatMap DataSetMessage.scalars

/-- No scalar on the wire is a null of a fixed-width type. -/
def NullsKept (nm : NetworkMessage) : Prop :=
  ∀ p ∈ NetworkMessage.scalars nm, p.2 = .null → coercesNull p.1 = false

theorem NetworkMessage.map_eq_iff {f g : BuiltInType → JsValue → JsValue} {nm : NetworkMessage} :
    NetworkMessage.map f nm = NetworkMessage.map g nm ↔
      ∀ p ∈ NetworkMessage.scalars nm, f p.1 p.2 = g p.1 p.2 := by
  simp only [NetworkMessage.map, NetworkMessage.scalars, NetworkMessage.mk.injEq, true_and,
    List.map_inj_left, List.mem_flatMap]
  constructor
  · rintro h p ⟨dsm, hdsm, hp⟩
    exact DataSetMessage.map_eq_iff.mp (h dsm hdsm) p hp
  · intro h dsm hdsm
    exact DataSetMessage.map_eq_iff.mpr fun p hp => h p ⟨dsm, hdsm, hp⟩

/-! ## Header -/

variable {host : Host}

theorem publisherIdTypeBits_denotes {d : Double} {i : Int} (h : d.Denotes i) (hlo : 0 ≤ i) :
    publisherIdTypeBits (.num d) =
      if i ≤ 0xff then .ok 0 else if i ≤ 0xffff then .ok 1 else if i ≤ 0xffffffff then .ok 2
      else .error (.encodePublisherIdTooLarge d) := by
  have hneg : ¬ i < 0 := by omega
  simp [publisherIdTypeBits, h.isInteger, h.ltInt, h.gtInt, hneg]

/-- A PublisherId is written and read in the width its type bits name. -/
theorem encodes_publisherId {v : JsValue} {typeBits : Nat} (h : IsPublisherId v)
    (hbits : publisherIdTypeBits v = .ok typeBits) :
    typeBits < 8 ∧
    Encodes (writePublisherId host v typeBits) (readPublisherId typeBits) (unsignZero v) := by
  rcases h with ⟨i, hlo, hhi, hnum⟩ | ⟨i, hlo, hhi, rfl⟩ | ⟨s, rfl, hs⟩
  · have h53 : i.natAbs < 2 ^ 53 := by omega
    have hv : ∃ d : Double, v = .num d ∧ d.Denotes i := by
      rcases hnum with rfl | ⟨rfl, rfl⟩
      · exact ⟨_, rfl, Double.denotes_ofInt h53⟩
      · exact ⟨_, rfl, Double.denotes_negZero⟩
    obtain ⟨d, rfl, hd⟩ := hv
    rw [publisherIdTypeBits_denotes hd hlo] at hbits
    split_ifs at hbits with h8 h16 h32
    · cases hbits
      exact ⟨by omega, encodes_unsigned (by omega) ⟨i, hlo, by omega, hnum⟩⟩
    · cases hbits
      exact ⟨by omega, encodes_unsigned (by omega) ⟨i, hlo, by omega, hnum⟩⟩
    · cases hbits
      exact ⟨by omega, encodes_unsigned (by omega) ⟨i, hlo, by omega, hnum⟩⟩
  · cases hbits
    exact ⟨by omega, encodes_uint64 rfl⟩
  · cases hbits
    exact ⟨by omega, encodes_string hs⟩

theorem integerIn_orZero {hi : Int} {v : JsValue} (hhi : 0 ≤ hi)
    (h : Optional (IntegerIn 0 hi) v) : IntegerIn 0 hi (orZero v) := by
  unfold orZero
  split
  next ht =>
    refine h.resolve_left ?_
    rintro rfl
    cases ht
  next => exact integerIn_zero (le_refl 0) hhi

theorem encodes_groupHeader {gh : GroupHeader} (h : GroupHeaderInRange gh) :
    Encodes (writeGroupHeader host gh) readGroupHeader (GroupHeader.normal gh) := by
  refine Encodes.cons (encodes_unsigned (by omega) h.writerGroupId) ?_
  refine Encodes.cons (encodes_unsigned (by omega) (integerIn_orZero (by omega) h.groupVersion)) ?_
  refine Encodes.cons
    (encodes_unsigned (by omega) (integerIn_orZero (by omega) h.networkMessageNumber)) ?_
  exact Encodes.map _ (Encodes.single (encodes_unsigned (by omega) h.sequenceNumber))

theorem encodes_payloadHeader {ids : List JsValue}
    (h : ∀ id ∈ ids, IntegerIn 0 (256 ^ 2 - 1) id) :
    Encodes (writePayloadHeader host ids) (readPayloadHeader true)
      (some (ids.map unsignZero)) := by
  refine Encodes.cons (encodes_putUInt 1 _) ?_
  exact Encodes.map some (Encodes.single (Encodes.many fun id hid =>
    encodes_unsigned (by omega) (h id hid)))

/-- The type bits of a message that has a publisher are those of its id. -/
theorem typeBitsOf_cases {nm : NetworkMessage} {typeBits : Nat}
    (h : typeBitsOf nm = .ok typeBits) :
    (nm.publisherId = .undefined ∧ typeBits = 0) ∨
    (nm.publisherId ≠ .undefined ∧ publisherIdTypeBits nm.publisherId = .ok typeBits) := by
  unfold typeBitsOf at h
  split at h
  next hu =>
    cases h
    exact Or.inl ⟨hu, rfl⟩
  next hu => exact Or.inr ⟨hu, h⟩

theorem dataSetWriterIds_ne_nil {nm : NetworkMessage} (h : HeaderInRange nm) :
    decide (dataSetWriterIds nm ≠ []) = nm.payloadHeader.isSome := by
  unfold dataSetWriterIds
  cases hids : nm.payloadHeader with
  | none => rfl
  | some ids =>
      have hlen := (h.payloadHeader ids hids).1
      have hne : ids ≠ [] := by
        rintro rfl
        simp at hlen
      simp [hne]

theorem headerEncodes_of_inRange {nm : NetworkMessage} {typeBits : Nat}
    (h : HeaderInRange nm) (hbits : typeBitsOf nm = .ok typeBits) :
    HeaderEncodes host nm typeBits (headerNormal nm) where
  bound := by
    rcases typeBitsOf_cases hbits with ⟨-, rfl⟩ | ⟨hne, hb⟩
    · omega
    · exact (@encodes_publisherId host _ _ (h.publisherId.resolve_left hne) hb).1
  publisherId := by
    refine @encodes_member (fun v => writePublisherId host v typeBits) _ _ _ _ unsignZero rfl
      unsignZero_undefined h.publisherId fun hp => ?_
    rcases typeBitsOf_cases hbits with ⟨hu, rfl⟩ | ⟨-, hb⟩
    · rw [hu] at hp
      rcases hp with ⟨i, -, -, hi | ⟨-, hi⟩⟩ | ⟨i, -, -, hi⟩ | ⟨s, hs, -⟩
      all_goals simp at *
    · exact (encodes_publisherId hp hb).2
  dataSetClassId := by
    have htruthy : nm.dataSetClassId.truthy = decide (nm.dataSetClassId ≠ .undefined) := by
      rcases h.dataSetClassId with hu | ⟨s, hs, hguid⟩
      · simp [hu, JsValue.truthy]
      · have hne : s ≠ [] := by
          rintro rfl
          exact absurd hguid (by decide)
        simp [hs, JsValue.truthy, hne]
    refine encodes_member upperText htruthy rfl h.dataSetClassId ?_
    rintro ⟨s, hs, hguid⟩
    rw [hs]
    exact encodes_guid hguid
  groupHeader := by
    cases hgh : nm.groupHeader with
    | none =>
        simp only [headerNormal, hgh]
        exact Encodes.ok (Reads.pure none)
    | some gh =>
        simp only [headerNormal, hgh]
        exact Encodes.map some (encodes_groupHeader (h.groupHeader gh hgh))
  payloadHeader := by
    rw [dataSetWriterIds_ne_nil h]
    unfold dataSetWriterIds
    cases hids : nm.payloadHeader with
    | none =>
        simp only [headerNormal, hids]
        exact Encodes.ok (Reads.pure none)
    | some ids =>
        simp only [headerNormal, hids]
        exact encodes_payloadHeader (h.payloadHeader ids hids).2
  timestamp := encodes_optionalDate rfl h.timestamp
  picoseconds := by
    have htimed : (decide (nm.picoseconds ≠ .undefined) && nm.timestamp.truthy) =
        decide (nm.picoseconds ≠ .undefined) := by
      by_cases hp : nm.picoseconds = .undefined
      · simp [hp]
      · obtain ⟨ms, hms⟩ := h.timed hp
        simp [hp, hms, JsValue.truthy]
    exact encodes_optionalUnsigned (by omega) htimed h.picoseconds
  bare := rfl

/-! ## Payload -/

theorem dsmBuffers_cons {dsm : DataSetMessage} {dsms : List DataSetMessage} {bs : List Bytes}
    (h : dsmBuffers host (dsm :: dsms) = .ok bs) :
    ∃ b rest, encodeDataSetMessage host dsm = .ok b ∧ dsmBuffers host dsms = .ok rest ∧
      bs = b :: rest := by
  obtain ⟨b, hb, h⟩ := bind_eq_ok.mp h
  obtain ⟨rest, hrest, h⟩ := bind_eq_ok.mp h
  cases h
  exact ⟨b, rest, hb, hrest, rfl⟩

theorem length_dsmBuffers {dsms : List DataSetMessage} {bs : List Bytes}
    (h : dsmBuffers host dsms = .ok bs) : bs.length = dsms.length := by
  induction dsms generalizing bs with
  | nil =>
      cases h
      rfl
  | cons dsm dsms ih =>
      obtain ⟨b, rest, -, hrest, rfl⟩ := dsmBuffers_cons h
      rw [List.length_cons, List.length_cons, ih hrest]

/-- A buffer of the announced size is decoded on its own. -/
theorem reads_sized {bytes : Bytes} {dsm : DataSetMessage} (h : Reads readDataSetMessage bytes dsm) :
    Reads (readSized bytes.length) bytes dsm := by
  have hread : Reads (readSized bytes.length) (bytes ++ []) dsm := by
    unfold readSized
    refine (reads_bytes bytes).bind ?_
    rw [decodeDataSetMessage, (ReadsAll.ofReads h).run]
    exact Reads.pure dsm
  rwa [List.append_nil] at hread

/-- Each message is encoded so that a decoder reads its partner. -/
def MessagesEncode (host : Host) (dsms ds : List DataSetMessage) : Prop :=
  List.Forall₂ (fun dsm d => Encodes (encodeDataSetMessage host dsm) readDataSetMessage d) dsms ds

theorem messagesEncode_of_inRange {dsms : List DataSetMessage}
    (h : ∀ dsm ∈ dsms, DataSetMessageInRange dsm) :
    MessagesEncode host dsms (dsms.map (DataSetMessage.map wireScalar)) :=
  List.forall₂_map_right_iff.mpr
    (List.forall₂_same.mpr fun dsm hdsm => encodes_dataSetMessage (h dsm hdsm))

theorem reads_sizedAll {dsms ds : List DataSetMessage} {buffers : List Bytes}
    (hbuf : dsmBuffers host dsms = .ok buffers) (h : MessagesEncode host dsms ds) :
    Reads (readSizedAll (buffers.map List.length)) buffers.flatten ds := by
  induction h generalizing buffers with
  | nil =>
      cases hbuf
      exact Reads.pure []
  | cons hdsm _ ih =>
      obtain ⟨b, rest, hb, hrest, rfl⟩ := dsmBuffers_cons hbuf
      rw [List.flatten_cons]
      exact (reads_sized (hdsm.reads b hb)).bind (Reads.bind_pure (ih hrest))

theorem encodeDataSetMessage_pos {dsm : DataSetMessage} {bs : Bytes}
    (h : encodeDataSetMessage host dsm = .ok bs) : 0 < bs.length := by
  obtain ⟨b, c, hb, -, rfl⟩ := cat_cons_eq_ok.mp h
  unfold putUInt at hb
  split at hb
  · cases hb
    simp
  · cases hb

theorem readsAll_last {dsms ds : List DataSetMessage} {buffers : List Bytes}
    (hbuf : dsmBuffers host dsms = .ok buffers) (h : MessagesEncode host dsms ds)
    (hlen : dsms.length ≤ 1) : ReadsAll readLast buffers.flatten ds := by
  cases h with
  | nil =>
      cases hbuf
      exact ⟨fun pos => rfl⟩
  | @cons dsm d dsms _ hd htl =>
      -- at most one message, so none follows it
      obtain rfl : dsms = [] :=
        List.eq_nil_of_length_eq_zero (Nat.le_zero.mp (Nat.le_of_succ_le_succ hlen))
      cases htl
      obtain ⟨b, rest, hb, hrest, rfl⟩ := dsmBuffers_cons hbuf
      cases hrest
      have hpos := encodeDataSetMessage_pos hb
      have hread := hd.reads b hb
      have hlast : ReadsAll readLast b [d] := by
        constructor
        intro pos
        have hr := (ReadsAll.bind_pure (g := fun d => [d]) (ReadsAll.ofReads hread)).exact pos
        have hsome : b.length > 0 := hpos
        change (if b.length > 0 then (do
          let dsm ← readDataSetMessage
          return [dsm] : Reader (List DataSetMessage)) else return []) ⟨pos, b⟩ = _
        rw [if_pos hsome]
        exact hr
      simpa using hlast

theorem readsAll_payload {dsms ds : List DataSetMessage} {buffers : List Bytes} {count : Nat}
    {bs : Bytes} (hbuf : dsmBuffers host dsms = .ok buffers) (h : MessagesEncode host dsms ds)
    (hcount : count = dsms.length ∨ (count ≤ 1 ∧ dsms.length ≤ 1))
    (hbs : cat (writePayload (decide (count ≠ 0)) buffers) = .ok bs) :
    ReadsAll (readPayload count) bs ds := by
  have hlen := length_dsmBuffers hbuf
  obtain ⟨sizes, tail, hsizes, htail, rfl⟩ := cat_cons_eq_ok.mp hbs
  obtain ⟨body, last, hbody, hlast, rfl⟩ := cat_cons_eq_ok.mp htail
  cases hbody
  cases hlast
  rw [List.append_nil]
  unfold readPayload
  by_cases hmany : count > 1
  · have hc : count = buffers.length := by omega
    have hpresent : (decide (count ≠ 0) && decide (buffers.length > 1)) = true := by
      simp only [ne_eq, Bool.and_eq_true, decide_eq_true_eq]
      omega
    rw [hpresent] at hsizes
    rw [if_pos hmany, hc]
    have hmany : Encodes (cat (buffers.map fun b => putUInt 2 b.length))
        (ByteCodec.Reader.many (readUInt 2) buffers.length) (buffers.map List.length) :=
      Encodes.many fun b _ => encodes_putUInt 2 b.length
    have hread := hmany.reads sizes hsizes
    exact ReadsAll.bind hread (ReadsAll.ofReads (reads_sizedAll hbuf h))
  · have hone : dsms.length ≤ 1 := by omega
    have hpresent : (decide (count ≠ 0) && decide (buffers.length > 1)) = false := by
      simp only [Bool.and_eq_false_iff, decide_eq_false_iff_not]
      omega
    rw [hpresent] at hsizes
    cases hsizes
    rw [if_neg hmany]
    exact readsAll_last hbuf h hone

/-! ## Whole messages -/

theorem encodeWhole_cases {nm : NetworkMessage} {bs : Bytes} (h : encodeWhole host nm = .ok bs) :
    ∃ typeBits header buffers payload,
      typeBitsOf nm = .ok typeBits ∧
      cat (writeHeader host nm
        (buildUADPFlags nm (extendedFlags1 nm typeBits (buildExtendedFlags2 nm)))
        (extendedFlags1 nm typeBits (buildExtendedFlags2 nm)) (buildExtendedFlags2 nm)) =
          .ok header ∧
      dsmBuffers host nm.payload = .ok buffers ∧
      cat (writePayload (decide (dataSetWriterIds nm ≠ [])) buffers) = .ok payload ∧
      bs = header ++ payload := by
  obtain ⟨extFlags1, hext, h⟩ := bind_eq_ok.mp h
  obtain ⟨typeBits, hbits, hext⟩ := bind_eq_ok.mp hext
  cases hext
  obtain ⟨header, hheader, h⟩ := bind_eq_ok.mp h
  split at h
  next => cases h
  next =>
    obtain ⟨buffers, hbuf, h⟩ := bind_eq_ok.mp h
    obtain ⟨b, c, hb, hc, rfl⟩ := cat_cons_eq_ok.mp h
    cases hb
    obtain ⟨payload, d, hpayload, hd, rfl⟩ := cat_cons_eq_ok.mp hc
    cases hd
    rw [(buildUADPFlags_fields nm _).2.2.2.1] at hpayload
    exact ⟨typeBits, _, buffers, payload, hbits, hheader, hbuf, hpayload, by simp⟩

theorem encodeNetworkMessage_single {nm : NetworkMessage} {mtu : Int} {bs : Bytes}
    (h : encodeNetworkMessage host nm mtu = .ok (.single bs)) : encodeWhole host nm = .ok bs := by
  obtain ⟨encoded, hwhole, h⟩ := bind_eq_ok.mp h
  split at h
  next =>
    obtain ⟨buffers, -, h⟩ := bind_eq_ok.mp h
    cases h
  next =>
    cases h
    exact hwhole

theorem length_writerIds {nm : NetworkMessage} (h : NetworkMessageInRange nm) :
    (dataSetWriterIds nm).length = nm.payload.length ∨
      ((dataSetWriterIds nm).length ≤ 1 ∧ nm.payload.length ≤ 1) := by
  unfold dataSetWriterIds
  cases hids : nm.payloadHeader with
  | none => exact Or.inr ⟨Nat.zero_le 1, h.noPayloadHeader hids⟩
  | some ids => exact Or.inl (h.payloadHeader ids hids).2.2.1

theorem length_headerNormal_writerIds (nm : NetworkMessage) :
    (dataSetWriterIds (headerNormal nm)).length = (dataSetWriterIds nm).length := by
  unfold dataSetWriterIds headerNormal
  cases nm.payloadHeader <;> simp

/-- A whole encoding is decoded once its header and its messages are read back. -/
theorem decode_encodeWhole_of {nm hdr : NetworkMessage} {ds : List DataSetMessage} {bs : Bytes}
    (hheader : ∀ typeBits, typeBitsOf nm = .ok typeBits → HeaderEncodes host nm typeBits hdr)
    (hds : MessagesEncode host nm.payload ds) (hflags : buildExtendedFlags2 nm = 0)
    (hids : (dataSetWriterIds hdr).length = (dataSetWriterIds nm).length)
    (hcount : (dataSetWriterIds nm).length = nm.payload.length ∨
      ((dataSetWriterIds nm).length ≤ 1 ∧ nm.payload.length ≤ 1))
    (hbs : encodeWhole host nm = .ok bs) :
    decodeNetworkMessage bs = .ok { hdr with payload := ds } := by
  obtain ⟨typeBits, header, buffers, payload, hbits, hwritten, hbuf, hpayload, rfl⟩ :=
    encodeWhole_cases hbs
  have hread := (encodes_header (buildExtendedFlags2 nm) (hheader typeBits hbits)).reads header
    hwritten
  have hpresent : decide (dataSetWriterIds nm ≠ []) = decide ((dataSetWriterIds nm).length ≠ 0) := by
    simp
  rw [hpresent] at hpayload
  have hrest := readsAll_payload hbuf hds hcount hpayload
  rw [hflags] at hread
  refine ReadsAll.run (ReadsAll.bind hread ?_)
  simp only [Nat.zero_testBit, Bool.false_eq_true, if_false, hids]
  exact ReadsAll.bind_pure (g := fun payload => { hdr with payload := payload }) hrest

/-- Everything the encoder writes for a message in range is decoded. -/
theorem decode_encodeWhole {nm : NetworkMessage} {bs : Bytes} (h : NetworkMessageInRange nm)
    (hbs : encodeWhole host nm = .ok bs) :
    decodeNetworkMessage bs = .ok (NetworkMessage.map wireScalar nm) := by
  have hflags : buildExtendedFlags2 nm = 0 := by
    simp [buildExtendedFlags2, h.chunk, h.promotedFields, JsValue.truthy, Flags.bit]
  exact decode_encodeWhole_of (fun _ hbits => headerEncodes_of_inRange h.header hbits)
    (messagesEncode_of_inRange h.payload) hflags (length_headerNormal_writerIds nm)
    (length_writerIds h) hbs

/-- A message in range that is encoded as one buffer decodes to its normal form
exactly when no null of a fixed-width type is on the wire. -/
theorem decode_encode_iff_nullsKept {nm : NetworkMessage} (h : NetworkMessageInRange nm)
    {mtu : Int} {bs : Bytes} (hbs : encodeNetworkMessage host nm mtu = .ok (.single bs)) :
    decodeNetworkMessage bs = .ok (normalForm nm) ↔ NullsKept nm := by
  rw [decode_encodeWhole h (encodeNetworkMessage_single hbs), Except.ok.injEq, normalForm,
    NetworkMessage.map_eq_iff]
  exact forall₂_congr fun p _ => wireScalar_eq_normal

/-- A keyframe with one Int32 field. -/
def int32Message (value : JsValue) : NetworkMessage where
  publisherId := .num (Double.ofInt 5)
  payload := [{
    sequenceNumber := .num (Double.ofInt 1)
    fields := some [(js "t", .variant ⟨.name (js "Int32"), value, none⟩)] }]

theorem int32Message_inRange {value : JsValue} (h : ∀ x ∈ elements value, InRange .Int32 x) :
    NetworkMessageInRange (int32Message value) where
  publisherId := Or.inr (Or.inl ⟨5, by decide, by decide, Or.inl rfl⟩)
  dataSetClassId := Or.inl rfl
  groupHeader := by
    intro gh hgh
    cases hgh
  payloadHeader := by
    intro ids hids
    cases hids
  noPayloadHeader _ := le_refl 1
  timestamp := Or.inl rfl
  picoseconds := Or.inl rfl
  timed hp := absurd rfl hp
  promotedFields := rfl
  chunk := rfl
  payload := by
    intro dsm hdsm
    obtain rfl := List.mem_singleton.mp hdsm
    constructor
    case valid => exact Or.inl rfl
    case fieldEncoding => exact FieldEncoding.noConfusion
    case sequenceNumber => exact Or.inr ⟨1, by decide, by decide, Or.inl rfl⟩
    case status => exact Or.inl rfl
    case major => exact Or.inl rfl
    case minor => exact Or.inl rfl
    case timestamp => exact Or.inl rfl
    case picoseconds => exact Or.inl rfl
    case timed => exact fun hp => absurd rfl hp
    case names =>
      intro e he
      obtain rfl := List.mem_singleton.mp he
      change plainKey (js "t") = true ∧ Utf.wellFormed (js "t") = true
      decide
    case distinct => exact List.pairwise_singleton _ _
    case fields =>
      intro e he
      obtain rfl := List.mem_singleton.mp he
      have htype : typeOf? (.name (js "Int32")) = some .Int32 := by decide
      exact ⟨rfl, .Int32, htype, h⟩

theorem int32Message_roundTrip : ∃ bs,
    encodeNetworkMessage Host.inert (int32Message (.num (Double.ofInt (-7)))) 1400 =
        .ok (.single bs) ∧
      (decodeNetworkMessage bs = .ok (normalForm (int32Message (.num (Double.ofInt (-7))))) ↔
        NullsKept (int32Message (.num (Double.ofInt (-7))))) := by
  have hencode : encodeNetworkMessage Host.inert (int32Message (.num (Double.ofInt (-7)))) 1400 =
      .ok (.single [0x11, 5, 0x09, 1, 0, 1, 0, 1, 0, 116, 6, 0xf9, 0xff, 0xff, 0xff]) := by
    decide +kernel
  refine ⟨_, hencode, ?_⟩
  apply decode_encode_iff_nullsKept (int32Message_inRange ?_) hencode
  intro x hx
  obtain rfl := List.mem_singleton.mp hx
  exact Or.inr ⟨-7, by decide, by decide, Or.inl rfl⟩

/-- The null of an Int32 comes back as zero. -/
theorem null_int32_not_recovered : ¬ ∀ (host : Host) (nm : NetworkMessage) (mtu : Int) (bs : Bytes),
    NetworkMessageInRange nm → encodeNetworkMessage host nm mtu = .ok (.single bs) →
      decodeNetworkMessage bs = .ok (normalForm nm) := by
  intro h
  have hnull := h Host.inert (int32Message .null) 1400
    [0x11, 5, 0x09, 1, 0, 1, 0, 1, 0, 116, 6, 0, 0, 0, 0]
    (int32Message_inRange fun x hx => Or.inl (List.mem_singleton.mp hx)) (by decide +kernel)
  exact absurd hnull (by decide +kernel)

end OpcUaSuite.Uadp
