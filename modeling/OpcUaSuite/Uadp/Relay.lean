import OpcUaSuite.Uadp.AnyOrder
import OpcUaSuite.Uadp.Canonical
import OpcUaSuite.Uadp.Chunking

/-!
# A decoded message is sent on

A relay decodes a message and encodes it again. Whatever bytes it got, and whether the message
leaves in one buffer or in chunks, what the next decoder reads is the canonical form of the
message, and from then on the bytes stay the same.
-/

namespace OpcUaSuite.Uadp

open Js ByteCodec BinaryFloat PubSub Tiling

variable {n : Nat} {host : Host}

/-! ## Headers -/

structure ReadGroupHeader (gh : GroupHeader) : Prop where
  writerGroupId : NumberOf 2 gh.writerGroupId
  groupVersion : NumberOf 4 gh.groupVersion
  networkMessageNumber : NumberOf 2 gh.networkMessageNumber
  sequenceNumber : NumberOf 2 gh.sequenceNumber

/-- A PublisherId as it is read; a text may be null. -/
def ReadPublisherId (v : JsValue) : Prop :=
  (v = .null ∨ IsPublisherId v) ∧ unsignZero v = v

/-- A header as it is read. -/
structure ReadHeader (nm : NetworkMessage) : Prop where
  publisherId : Optional ReadPublisherId nm.publisherId
  dataSetClassId : Optional (fun v => IsGuid v ∧ upperText v = v) nm.dataSetClassId
  groupHeader : ∀ gh, nm.groupHeader = some gh → ReadGroupHeader gh
  payloadHeader : ∀ ids, nm.payloadHeader = some ids → ∀ id ∈ ids, NumberOf 2 id
  timestamp : Optional IsDate nm.timestamp
  picoseconds : Optional (NumberOf 2) nm.picoseconds
  bare : nm = { nm with
    messageId := .undefined, writerGroupName := .undefined, promotedFields := .undefined,
    chunk := none, payload := [] }

theorem yields_publisherId (hn : 3 * n < nullLength) (typeBits : Nat) :
    YieldsWithin n (readPublisherId typeBits) ReadPublisherId := by
  have hnumber : ∀ k ≤ 4, YieldsWithin n (readNumber k) ReadPublisherId := fun k hk => by
    refine (yields_number k).mono fun v hv => ⟨Or.inr (Or.inl ?_), unsignZero_numberOf hk hv⟩
    obtain ⟨i, hlo, hhi, hnum⟩ := integerIn_numberOf hv
    have hpow : (256 : Int) ^ k ≤ 256 ^ 4 := by
      exact_mod_cast Nat.pow_le_pow_right (by omega : 0 < 256) hk
    exact ⟨i, hlo, by omega, hnum⟩
  unfold readPublisherId
  split
  next => exact hnumber 1 (by omega)
  next => exact hnumber 2 (by omega)
  next => exact hnumber 4 (by omega)
  next =>
    refine YieldsWithin.map ((yields_uint 8).mono fun m hm => ⟨Or.inr (Or.inr (Or.inl ?_)), rfl⟩)
    exact ⟨m, by omega, by omega, rfl⟩
  next =>
    refine (yields_string hn).mono ?_
    rintro v (rfl | ⟨s, rfl, hs⟩)
    · exact ⟨Or.inl rfl, rfl⟩
    · exact ⟨Or.inr (Or.inr (Or.inr ⟨s, rfl, hs⟩)), rfl⟩
  next => exact YieldsWithin.fail _

theorem yields_groupHeader (present : Bool) :
    YieldsWithin n (readOptionalGroupHeader present) fun header =>
      ∀ gh, header = some gh → ReadGroupHeader gh := by
  cases present with
  | false =>
      refine YieldsWithin.pure ?_
      intro gh hgh
      cases hgh
  | true =>
      refine YieldsWithin.map (Q := fun header => ∀ gh, header = some gh → ReadGroupHeader gh) ?_
      refine YieldsWithin.bind (yields_number 2) fun writerGroupId hgroup => ?_
      refine YieldsWithin.bind (yields_number 4) fun groupVersion hversion => ?_
      refine YieldsWithin.bind (yields_number 2) fun messageNumber hnumber => ?_
      refine YieldsWithin.map ((yields_number 2).mono fun sequenceNumber hsequence => ?_)
      rintro gh ⟨⟩
      exact ⟨hgroup, hversion, hnumber, hsequence⟩

theorem yields_payloadHeader (present : Bool) :
    YieldsWithin n (readPayloadHeader present) fun header =>
      ∀ ids, header = some ids → ∀ id ∈ ids, NumberOf 2 id := by
  cases present with
  | false =>
      refine YieldsWithin.pure ?_
      intro ids hids
      cases hids
  | true =>
      refine YieldsWithin.bind (yields_uint 1) fun count _ => ?_
      refine YieldsWithin.map (((yields_number 2).many count).mono fun ids hids => ?_)
      rintro _ ⟨⟩
      exact hids.2

theorem yields_header (hn : 3 * n < nullLength) :
    YieldsWithin n readHeader fun p => ReadHeader p.1 := by
  refine YieldsWithin.bind (yields_uint 1) fun uadpFlags _ => ?_
  split
  next => exact YieldsWithin.fail _
  next =>
    refine YieldsWithin.bind (yields_flags _) fun extFlags1 _ => ?_
    refine YieldsWithin.bind (yields_flags _) fun extFlags2 _ => ?_
    refine YieldsWithin.bind (yields_member _ (yields_publisherId hn _)) fun publisherId hid => ?_
    refine YieldsWithin.bind (yields_member _ yields_guid) fun classId hclass => ?_
    refine YieldsWithin.bind (yields_groupHeader _) fun groupHeader hgroup => ?_
    refine YieldsWithin.bind (yields_payloadHeader _) fun payloadHeader hpayload => ?_
    refine YieldsWithin.bind (yields_member _ yields_dateTime) fun timestamp htimestamp => ?_
    refine YieldsWithin.map ((yields_member _ (yields_number 2)).mono fun picoseconds hpico => ?_)
    refine ⟨hid, hclass.imp_right ?_, hgroup, hpayload, htimestamp, hpico, rfl⟩
    rintro ⟨s, rfl, hguid, hupper⟩
    exact ⟨⟨s, rfl, hguid⟩, congrArg JsValue.str hupper⟩

/-! ## Messages -/

/-- A NetworkMessage as it is read, chunks aside. -/
structure ReadNetworkMessage (nm : NetworkMessage) : Prop where
  header : ReadHeader { nm with payload := [] }
  count : (dataSetWriterIds nm).length = nm.payload.length ∨
    ((dataSetWriterIds nm).length ≤ 1 ∧ nm.payload.length ≤ 1)
  payload : ∀ dsm ∈ nm.payload, ReadDataSetMessage dsm

theorem yields_sized (hn : 3 * n < nullLength) (size : Nat) :
    YieldsWithin n (readSized size) ReadDataSetMessage := by
  refine YieldsWithin.bind (YieldsWithin.take _ size) fun bytes hbytes => ?_
  split
  next dsm hdecode =>
    have hshort : 3 * bytes.length < nullLength := by omega
    exact YieldsWithin.pure ((yields_dataSetMessage hshort).run hdecode)
  next => exact YieldsWithin.fail _

theorem yields_sizedAll (hn : 3 * n < nullLength) (sizes : List Nat) :
    YieldsWithin n (readSizedAll sizes) fun dsms =>
      dsms.length = sizes.length ∧ ∀ dsm ∈ dsms, ReadDataSetMessage dsm := by
  induction sizes with
  | nil => exact YieldsWithin.pure ⟨rfl, fun dsm hdsm => by cases hdsm⟩
  | cons size sizes ih =>
      refine YieldsWithin.bind (yields_sized hn size) fun dsm hdsm => ?_
      refine YieldsWithin.map (ih.mono fun dsms hdsms => ⟨?_, ?_⟩)
      · rw [List.length_cons, List.length_cons, hdsms.1]
      · exact List.forall_mem_cons.mpr ⟨hdsm, hdsms.2⟩

theorem yields_last (hn : 3 * n < nullLength) :
    YieldsWithin n readLast fun dsms =>
      dsms.length ≤ 1 ∧ ∀ dsm ∈ dsms, ReadDataSetMessage dsm := by
  refine YieldsWithin.bind YieldsWithin.remaining fun remaining _ => ?_
  split
  next =>
    refine YieldsWithin.map ((yields_dataSetMessage hn).mono fun dsm hdsm => ⟨le_refl 1, ?_⟩)
    intro d hd
    obtain rfl := List.mem_singleton.mp hd
    exact hdsm
  next => exact YieldsWithin.pure ⟨Nat.zero_le 1, fun dsm hdsm => by cases hdsm⟩

theorem yields_payload (hn : 3 * n < nullLength) (count : Nat) :
    YieldsWithin n (readPayload count) fun dsms =>
      (count = dsms.length ∨ (count ≤ 1 ∧ dsms.length ≤ 1)) ∧
        ∀ dsm ∈ dsms, ReadDataSetMessage dsm := by
  unfold readPayload
  split
  next =>
    refine YieldsWithin.bind ((yields_uint 2).many count) fun sizes hsizes => ?_
    refine (yields_sizedAll hn sizes).mono fun dsms hdsms => ⟨Or.inl ?_, hdsms.2⟩
    rw [hdsms.1, hsizes.1]
  next hfew =>
    exact (yields_last hn).mono fun dsms hdsms => ⟨Or.inr ⟨by omega, hdsms.1⟩, hdsms.2⟩

theorem yields_networkMessage (hn : 3 * n < nullLength) :
    YieldsWithin n readNetworkMessage fun nm => nm.chunk = none → ReadNetworkMessage nm := by
  refine YieldsWithin.bind (yields_header hn) fun p hheader => ?_
  obtain ⟨hdr, extFlags2⟩ := p
  dsimp only at hheader ⊢
  split
  next => exact YieldsWithin.fail _
  next =>
    split
    next =>
      refine YieldsWithin.bind (P := fun _ => True) ?_ fun chunk _ => YieldsWithin.pure ?_
      · refine YieldsWithin.bind (yields_uint 2) fun msn _ => ?_
        refine YieldsWithin.bind (yields_uint 4) fun offset _ => ?_
        refine YieldsWithin.bind (yields_uint 4) fun total _ => ?_
        refine YieldsWithin.bind (yields_uint 4) fun len _ => ?_
        exact YieldsWithin.map ((YieldsWithin.take _ len).mono fun _ _ => trivial)
      · intro h
        cases h
    next =>
      refine YieldsWithin.map ((yields_payload hn _).mono fun payload hpayload _ => ?_)
      refine ⟨?_, hpayload.1, hpayload.2⟩
      have hsame : { hdr with payload := [] } = hdr := by rw [hheader.bare]
      exact hsame ▸ hheader

/-- An empty list of DataSetWriterIds is left out. -/
def canonicalWriterIds : Option (List JsValue) → Option (List JsValue)
  | some [] => none
  | header => header

def NetworkMessage.canonical (nm : NetworkMessage) : NetworkMessage :=
  { nm with
    payloadHeader := canonicalWriterIds nm.payloadHeader
    picoseconds := timedPicoseconds nm.timestamp nm.picoseconds
    payload := nm.payload.map DataSetMessage.canonical }

theorem dataSetWriterIds_canonical (nm : NetworkMessage) :
    dataSetWriterIds (NetworkMessage.canonical nm) = dataSetWriterIds nm := by
  change (canonicalWriterIds nm.payloadHeader).getD [] = nm.payloadHeader.getD []
  rcases nm.payloadHeader with _ | _ | ⟨id, ids⟩ <;> rfl

/-! ## What the canonical form leaves out was not written -/

theorem publisherIdTypeBits_lt {v : JsValue} {typeBits : Nat}
    (h : publisherIdTypeBits v = .ok typeBits) : typeBits < 8 := by
  unfold publisherIdTypeBits at h
  split at h
  case h_3 d =>
    split_ifs at h <;> cases h <;> decide
  all_goals cases h
  all_goals decide

theorem typeBitsOf_lt {nm : NetworkMessage} {typeBits : Nat} (h : typeBitsOf nm = .ok typeBits) :
    typeBits < 8 := by
  rcases typeBitsOf_cases h with ⟨-, rfl⟩ | ⟨-, h⟩
  · decide
  · exact publisherIdTypeBits_lt h

theorem extendedFlags1_canonical (nm : NetworkMessage) (typeBits extFlags2 : Nat) :
    extendedFlags1 (NetworkMessage.canonical nm) typeBits extFlags2 =
      extendedFlags1 nm typeBits extFlags2 := by
  unfold extendedFlags1
  rw [show (NetworkMessage.canonical nm).picoseconds =
    timedPicoseconds nm.timestamp nm.picoseconds from rfl,
    show (NetworkMessage.canonical nm).timestamp = nm.timestamp from rfl, timedPicoseconds_cases]
  rfl

theorem buildUADPFlags_canonical (nm : NetworkMessage) (extFlags1 : Nat) :
    buildUADPFlags (NetworkMessage.canonical nm) extFlags1 = buildUADPFlags nm extFlags1 := by
  unfold buildUADPFlags
  rw [dataSetWriterIds_canonical]
  rfl

/-- The header of the canonical form, from the flags to the last member, is the same. -/
theorem writeHeader_canonical {nm : NetworkMessage} {typeBits : Nat} (h : typeBits < 8)
    (uadpFlags extFlags2 extFlags2' : Nat) :
    writeHeader host (NetworkMessage.canonical nm) uadpFlags (extendedFlags1 nm typeBits extFlags2)
        extFlags2' =
      writeHeader host nm uadpFlags (extendedFlags1 nm typeBits extFlags2) extFlags2' := by
  have hbit := (@extendedFlags1_fields nm typeBits extFlags2 h).2.2.2.1
  generalize extendedFlags1 nm typeBits extFlags2 = extFlags1 at hbit ⊢
  have hpicoseconds : opt (uadpFlags.testBit 7 && extFlags1.testBit 6)
      (writeUInt16LE host (timedPicoseconds nm.timestamp nm.picoseconds)) =
        opt (uadpFlags.testBit 7 && extFlags1.testBit 6) (writeUInt16LE host nm.picoseconds) := by
    rw [hbit, timedPicoseconds]
    cases nm.timestamp.truthy with
    | false => rw [Bool.and_false, Bool.and_false]; rfl
    | true => rfl
  unfold writeHeader writeNetworkMessageHeaderFields
  rw [dataSetWriterIds_canonical, show (NetworkMessage.canonical nm).picoseconds =
    timedPicoseconds nm.timestamp nm.picoseconds from rfl, hpicoseconds]
  rfl

theorem dsmBuffers_canonical (dsms : List DataSetMessage) :
    dsmBuffers host (dsms.map DataSetMessage.canonical) = dsmBuffers host dsms := by
  induction dsms with
  | nil => rfl
  | cons dsm dsms ih => rw [List.map_cons, dsmBuffers, dsmBuffers, encodeDataSetMessage_canonical, ih]

theorem encodeWhole_canonical (nm : NetworkMessage) :
    encodeWhole host (NetworkMessage.canonical nm) = encodeWhole host nm := by
  have hpayload : dsmBuffers host (NetworkMessage.canonical nm).payload =
      dsmBuffers host nm.payload := dsmBuffers_canonical nm.payload
  have hflags2 : buildExtendedFlags2 (NetworkMessage.canonical nm) = buildExtendedFlags2 nm := rfl
  have hbits : typeBitsOf (NetworkMessage.canonical nm) = typeBitsOf nm := rfl
  unfold encodeWhole buildExtendedFlags1
  simp only [hflags2, hbits, hpayload, extendedFlags1_canonical, buildUADPFlags_canonical]
  cases h : typeBitsOf nm with
  | error e => rfl
  | ok typeBits =>
      change (cat (writeHeader host (NetworkMessage.canonical nm) _ (extendedFlags1 nm typeBits _) _)
        >>= _) = _
      rw [writeHeader_canonical (typeBitsOf_lt h)]
      rfl

theorem encodeChunk_canonical (nm : NetworkMessage) (info : ChunkInfo) (msn : Nat) (id : JsValue) :
    encodeChunkNetworkMessage host (NetworkMessage.canonical nm) info msn id =
      encodeChunkNetworkMessage host nm info msn id := by
  -- the chunk message of the canonical form is the canonical form of the chunk message
  have hchunk : chunkMessage (NetworkMessage.canonical nm) (chunkOf msn info) id =
      NetworkMessage.canonical (chunkMessage nm (chunkOf msn info) id) := rfl
  unfold encodeChunkNetworkMessage buildExtendedFlags1
  rw [hchunk]
  generalize chunkMessage nm (chunkOf msn info) id = chunkNm
  have hflags2 : buildExtendedFlags2 (NetworkMessage.canonical chunkNm) =
      buildExtendedFlags2 chunkNm := rfl
  have hbits : typeBitsOf (NetworkMessage.canonical chunkNm) = typeBitsOf chunkNm := rfl
  simp only [hflags2, hbits, extendedFlags1_canonical, buildUADPFlags_canonical]
  cases h : typeBitsOf chunkNm with
  | error e => rfl
  | ok typeBits =>
      change cat (writeHeader host (NetworkMessage.canonical chunkNm) _
        (extendedFlags1 chunkNm typeBits _) _ ++ _) = _
      rw [writeHeader_canonical (typeBitsOf_lt h)]
      rfl

/-- A message and its canonical form are encoded as the same bytes. -/
theorem encodeNetworkMessage_canonical (nm : NetworkMessage) (mtu : Int) :
    encodeNetworkMessage host (NetworkMessage.canonical nm) mtu =
      encodeNetworkMessage host nm mtu := by
  have hid : chunkWriterId (NetworkMessage.canonical nm) = chunkWriterId nm := by
    rw [chunkWriterId, dataSetWriterIds_canonical, chunkWriterId]
  have hmsn : messageSequenceNumberOf host (NetworkMessage.canonical nm) =
      messageSequenceNumberOf host nm := rfl
  have hpayload : (NetworkMessage.canonical nm).payload.length = nm.payload.length :=
    List.length_map _
  unfold encodeNetworkMessage encodeChunks
  simp only [encodeWhole_canonical, hid, hmsn, hpayload, encodeChunk_canonical]

/-! ## What arrives -/

/-- The default of a number is zero already. -/
theorem orZero_numberOf {k : Nat} (hk : k ≤ 4) {v : JsValue} (h : NumberOf k v) : orZero v = v := by
  obtain ⟨m, hm, rfl⟩ := h
  have hpow : 256 ^ k ≤ 256 ^ 4 := Nat.pow_le_pow_right (by omega) hk
  have h53 : (m : Int).natAbs < 2 ^ 53 := by omega
  obtain ⟨neg, exp, frac, hfinite⟩ := (Double.denotes_ofInt h53).finite
  rw [orZero]
  split
  next => rfl
  next hfalsy =>
    have hzero : (exp : Nat) = 0 ∧ (frac : Nat) = 0 := by
      rw [JsValue.nat, hfinite] at hfalsy
      simpa [JsValue.truthy, Value.isZero] using hfalsy
    obtain ⟨hexp, hfrac⟩ := hzero
    obtain rfl : exp = ⟨0, by decide⟩ := Fin.ext hexp
    obtain rfl : frac = ⟨0, by decide⟩ := Fin.ext hfrac
    cases neg with
    | false => exact congrArg JsValue.num hfinite.symm
    | true => exact absurd hfinite (ofInt_ne_negZero h53)

theorem headerNormal_canonical {nm : NetworkMessage} (h : ReadNetworkMessage nm) :
    { headerNormal (NetworkMessage.canonical nm) with
      payload := nm.payload.map DataSetMessage.canonical } = NetworkMessage.canonical nm := by
  have hid : unsignZero nm.publisherId = nm.publisherId := by
    rcases h.header.publisherId with hu | hid
    · exact (congrArg unsignZero hu).trans (unsignZero_undefined.trans hu.symm)
    · exact hid.2
  have hclass : upperText nm.dataSetClassId = nm.dataSetClassId := by
    rcases h.header.dataSetClassId with hu | hclass
    · exact (congrArg upperText hu).trans hu.symm
    · exact hclass.2
  have hgroup : nm.groupHeader.map GroupHeader.normal = nm.groupHeader := by
    cases hgh : nm.groupHeader with
    | none => rfl
    | some gh =>
        have hread := h.header.groupHeader gh hgh
        rw [Option.map_some, GroupHeader.normal, orZero_numberOf (by omega) hread.groupVersion,
          orZero_numberOf (by omega) hread.networkMessageNumber,
          unsignZero_numberOf (by omega) hread.writerGroupId,
          unsignZero_numberOf (by omega) hread.groupVersion,
          unsignZero_numberOf (by omega) hread.networkMessageNumber,
          unsignZero_numberOf (by omega) hread.sequenceNumber]
  have hids : (canonicalWriterIds nm.payloadHeader).map (fun ids => ids.map unsignZero) =
      canonicalWriterIds nm.payloadHeader := by
    rcases hheader : nm.payloadHeader with _ | _ | ⟨id, ids⟩
    · rfl
    · rfl
    · have hread := h.header.payloadHeader (id :: ids) hheader
      have hsame : (id :: ids).map unsignZero = (id :: ids).map fun x => x :=
        List.map_congr_left fun x hx => unsignZero_numberOf (by omega) (hread x hx)
      exact congrArg some (hsame.trans (List.map_id _))
  have hpicoseconds : unsignZero (timedPicoseconds nm.timestamp nm.picoseconds) =
      timedPicoseconds nm.timestamp nm.picoseconds :=
    unsignZero_optional (by omega) (optional_timedPicoseconds h.header.picoseconds)
  have hbare := h.header.bare
  simp only [headerNormal, NetworkMessage.canonical, NetworkMessage.mk.injEq]
  exact ⟨(congrArg NetworkMessage.messageId hbare).symm, hid,
    (congrArg NetworkMessage.writerGroupName hbare).symm, hclass, hgroup, hids, trivial, hpicoseconds,
    (congrArg NetworkMessage.promotedFields hbare).symm,
    (congrArg NetworkMessage.chunk hbare).symm, trivial⟩

/-- The header of a canonical form can be encoded, once its PublisherId is not null. -/
theorem headerInRange_canonical {nm : NetworkMessage} (h : ReadNetworkMessage nm) {typeBits : Nat}
    (hbits : typeBitsOf nm = .ok typeBits) : HeaderInRange (NetworkMessage.canonical nm) := by
  constructor
  case publisherId =>
    refine h.header.publisherId.imp_right fun hid => hid.1.resolve_left fun hnull => ?_
    rw [typeBitsOf, show nm.publisherId = .null from hnull] at hbits
    cases hbits
  case dataSetClassId => exact h.header.dataSetClassId.imp_right And.left
  case groupHeader =>
    intro gh hgh
    have hread := h.header.groupHeader gh hgh
    exact ⟨integerIn_numberOf hread.writerGroupId, Or.inr (integerIn_numberOf hread.groupVersion),
      Or.inr (integerIn_numberOf hread.networkMessageNumber),
      integerIn_numberOf hread.sequenceNumber⟩
  case payloadHeader =>
    intro ids hids
    change canonicalWriterIds nm.payloadHeader = some ids at hids
    have hread := h.header.payloadHeader
    rcases hheader : nm.payloadHeader with _ | _ | ⟨id, rest⟩ <;> rw [hheader] at hids
    · cases hids
    · cases hids
    · cases hids
      exact ⟨Nat.succ_pos _, fun x hx => integerIn_numberOf (hread _ hheader x hx)⟩
  case timestamp => exact h.header.timestamp
  case picoseconds =>
    exact integerIn_optional (optional_timedPicoseconds h.header.picoseconds)
  case timed => exact isDate_of_timed h.header.timestamp

/-- What the encoder writes for a message that was read decodes to its canonical form. -/
theorem decode_encodeWhole_read {nm : NetworkMessage} {bs : Bytes} (h : ReadNetworkMessage nm)
    (hbs : encodeWhole host nm = .ok bs) :
    decodeNetworkMessage bs = .ok (NetworkMessage.canonical nm) := by
  have hmessages : MessagesEncode host (NetworkMessage.canonical nm).payload
      (nm.payload.map DataSetMessage.canonical) := by
    refine List.forall₂_map_left_iff.mpr (List.forall₂_map_right_iff.mpr ?_)
    refine List.forall₂_same.mpr fun dsm hdsm => ?_
    rw [encodeDataSetMessage_canonical]
    exact encodes_readDataSetMessage (h.payload dsm hdsm)
  have hflags : buildExtendedFlags2 (NetworkMessage.canonical nm) = 0 := by
    have hchunk : nm.chunk = none := congrArg NetworkMessage.chunk h.header.bare
    have hpromoted : nm.promotedFields = .undefined :=
      congrArg NetworkMessage.promotedFields h.header.bare
    change buildExtendedFlags2 nm = 0
    rw [buildExtendedFlags2, hchunk, hpromoted]
    rfl
  have hcount : (dataSetWriterIds (NetworkMessage.canonical nm)).length =
        (NetworkMessage.canonical nm).payload.length ∨
      ((dataSetWriterIds (NetworkMessage.canonical nm)).length ≤ 1 ∧
        (NetworkMessage.canonical nm).payload.length ≤ 1) := by
    rw [dataSetWriterIds_canonical, show (NetworkMessage.canonical nm).payload =
      nm.payload.map DataSetMessage.canonical from rfl, List.length_map]
    exact h.count
  rw [← encodeWhole_canonical] at hbs
  have hdecode := decode_encodeWhole_of
    (fun _ hbits => headerEncodes_of_inRange (headerInRange_canonical h hbits) hbits) hmessages
    hflags (length_headerNormal_writerIds _) hcount hbs
  rwa [headerNormal_canonical h] at hdecode

theorem guidTailFits_of_isGuid {s : JsString} (h : isGuid s = true) :
    guidTailFits (.str s) = true := by
  obtain ⟨p0, p1, p2, p3, p4, hsplit, -, -, -, -, h3, h4, -, -, -, x3, x4⟩ := isGuid_parts h
  simp only [guidTailFits, hsplit, decide_eq_true_eq]
  rw [bufferHex_append (n := 2) h3 x3, List.length_append, length_bufferHex (n := 2) h3 x3,
    length_bufferHex (n := 6) h4 x4]

/-- A decoder gets the message: from one buffer, or from its chunks, pushed in any order while
the reassembler keeps them. -/
def Arrives (host : Host) (nm : NetworkMessage) : Encoded → Prop
  | .single buffer => decodeNetworkMessage buffer = .ok nm
  | .chunks buffers => ∃ ms whole,
      List.Forall₂ (fun b m => decodeNetworkMessage b = .ok (ChunkMessage.message m)) buffers ms ∧
      decodeNetworkMessage whole = .ok nm ∧
      ∀ (r : Reassembler) (pushes : List Push) (t0 : Int), r.entries = [] →
        whole.length ≤ r.maxTotalSize → (pushes.map Push.message).Perm ms →
        (∀ p ∈ pushes, t0 ≤ p.time ∧ p.time ≤ t0 + reassemblyExpiryMs) →
        ∃ t, returned host r pushes = [(t, whole)]

/-- Whatever bytes a message was decoded from, what is encoded of it, where its encoding succeeds,
arrives in canonical form, and the canonical form is encoded as the same bytes again. -/
theorem relay_arrives {buffer : Bytes} {nm : NetworkMessage} {mtu : Int} {encoded : Encoded}
    (hshort : 3 * buffer.length < nullLength) (hdecode : decodeNetworkMessage buffer = .ok nm)
    (hchunk : nm.chunk = none) (hencode : encodeNetworkMessage host nm mtu = .ok encoded) :
    Arrives host (NetworkMessage.canonical nm) encoded ∧
      encodeNetworkMessage host (NetworkMessage.canonical nm) mtu = .ok encoded := by
  have hread := (yields_networkMessage hshort).run hdecode hchunk
  refine ⟨?_, (encodeNetworkMessage_canonical nm mtu).trans hencode⟩
  cases encoded with
  | single buffer' => exact decode_encodeWhole_read hread (encodeNetworkMessage_single hencode)
  | chunks buffers =>
      have hclass : ClassIdFits nm := by
        intro htruthy
        rcases hread.header.dataSetClassId with hu | ⟨⟨s, hs, hguid⟩, -⟩
        · rw [show nm.dataSetClassId = .undefined from hu] at htruthy
          cases htruthy
        · rw [show nm.dataSetClassId = .str s from hs]
          exact guidTailFits_of_isGuid hguid
      obtain ⟨whole, ms, key, hwhole, hbuffers, hms⟩ := chunks_decode hclass hencode
      have harrives := decode_encodeWhole_read hread hwhole
      have hne : whole ≠ [] := by
        rintro rfl
        cases harrives
      refine ⟨ms, whole, hbuffers.imp fun _ _ h => h.2, harrives, ?_⟩
      intro r pushes t0 hempty hcap hperm hwindow
      obtain ⟨t, hreturned⟩ := returned_any_order hms hne hempty hperm hwindow
      rw [if_pos hcap] at hreturned
      exact ⟨t, hreturned⟩

/-- A keyframe with one Int32 array of one element, which gives its dimensions. -/
def matrixFrame : Bytes :=
  [0x11, 5, 0x09, 1, 0, 1, 0, 1, 0, 116, 0xc6, 1, 0, 0, 0, 0xf9, 0xff, 0xff, 0xff,
    1, 0, 0, 0, 1, 0, 0, 0]

/-- The same keyframe without the dimensions. -/
def arrayFrame : Bytes :=
  [0x11, 5, 0x09, 1, 0, 1, 0, 1, 0, 116, 0x46, 1, 0, 0, 0, 0xf9, 0xff, 0xff, 0xff]

/-- The frame with dimensions is sent on without them, and then stays as it is. -/
theorem matrixFrame_arrives : ∃ nm, decodeNetworkMessage matrixFrame = .ok nm ∧
    Arrives Host.inert (NetworkMessage.canonical nm) (.single arrayFrame) ∧
    encodeNetworkMessage Host.inert (NetworkMessage.canonical nm) 1400 =
      .ok (.single arrayFrame) := by
  have hdecode : ∃ nm, decodeNetworkMessage matrixFrame = .ok nm ∧ nm.chunk = none ∧
      encodeNetworkMessage Host.inert nm 1400 = .ok (.single arrayFrame) := by
    refine ⟨{
      publisherId := .num (Double.ofInt 5)
      payload := [{
        valid := .bool true
        fieldEncoding := some .variant
        messageType := some .keyframe
        sequenceNumber := .num (Double.ofInt 1)
        fields := some [(js "t", .variant ⟨.ordinal 6, .array [.num (Double.ofInt (-7))], some [1]⟩)] }] },
      ?_, rfl, ?_⟩
    · decide +kernel
    · decide +kernel
  obtain ⟨nm, hnm, hchunk, hencode⟩ := hdecode
  exact ⟨nm, hnm, relay_arrives (by decide) hnm hchunk hencode⟩

end OpcUaSuite.Uadp
