import OpcUaSuite.Uadp.Header
import OpcUaSuite.Uadp.Reassembly

/-!
# Chunks on the wire and back

Every chunk of a message carries the same header, so the chunks differ in their
payload only. They decode to the tiles of the whole encoding, which the
reassembler collects in any order.
-/

namespace OpcUaSuite.Uadp

open Js ByteCodec BinaryFloat PubSub Tiling

variable (host : Host)

/-! ## Headers that are not in range

The encoder coerces what it is given, so a header is read back whatever values
it held, though not as these values. -/

theorem consumes_unsigned (k : Nat) (v : JsValue) :
    ∃ a, Encodes (writeUInt host k v) (readNumber k) a := by
  unfold writeUInt writeInt
  cases liftRuntime (host.toNumber v) with
  | error e => exact ⟨.undefined, Encodes.error e⟩
  | ok d =>
      change ∃ a, Encodes (if d.gtInt _ || d.ltInt _ then _ else .ok (le k (toTwos k d.trunc))) _ a
      split
      · exact ⟨.undefined, Encodes.error _⟩
      · exact ⟨_, Encodes.map JsValue.nat (Encodes.ok (reads_le (toTwos_lt k d.trunc)))⟩

theorem consumes_uint64 (v : JsValue) : ∃ a, Encodes (writeUInt64LE host v) readUInt64LE a := by
  unfold writeUInt64LE
  cases liftRuntime (host.toBigInt v) with
  | error e => exact ⟨.undefined, Encodes.error e⟩
  | ok i => exact ⟨_, @encodes_uint64 host (.bigint i) i rfl⟩

theorem consumes_text {s : JsString} (h : (Utf.encode s).length ≠ nullLength) :
    ∃ a, Encodes (writeString host (.str s)) readString a := by
  refine ⟨.str (Utf.decode (Utf.encode s)), ?_⟩
  change Encodes (cat [putUInt 4 (Utf.encode s).length, .ok (Utf.encode s)]) _ _
  refine Encodes.cons (encodes_putUInt 4 _) ?_
  rw [if_neg h]
  exact Encodes.map (fun bs => JsValue.str (Utf.decode bs))
    (Encodes.single (Encodes.ok (reads_bytes (Utf.encode s))))

theorem consumes_member {w : Writer} {r : Reader JsValue} (present : Bool)
    (h : present = true → ∃ a, Encodes w r a) :
    ∃ a, Encodes (opt present w) (readMember present r) a := by
  cases present with
  | false => exact ⟨.undefined, Encodes.ok (Reads.pure _)⟩
  | true => exact h rfl

theorem consumes_date (v : JsValue) : ∃ a, Encodes (writeDateTime v) readDateTime a := by
  cases v with
  | date time =>
      cases time with
      | none => exact ⟨.undefined, Encodes.error _⟩
      | some ms => exact ⟨_, encodes_dateTime ms⟩
  | _ => exact ⟨.undefined, Encodes.error _⟩

/-- The last two groups of a GUID text spell its last eight bytes. -/
def guidTailFits : JsValue → Bool
  | .str s =>
      match splitOn 45 s with
      | [_, _, _, p3, p4] => decide ((bufferHex (p3 ++ p4)).length = 8)
      | _ => false
  | _ => false

theorem consumes_guid {v : JsValue} (h : guidTailFits v = true) :
    ∃ a, Encodes (writeGuid v) readGuid a := by
  cases v with
  | str s =>
      simp only [guidTailFits] at h
      split at h
      next p0 p1 p2 p3 p4 hsplit =>
        have hlen : (bufferHex (p3 ++ p4)).length = 8 := by simpa using h
        obtain ⟨head, tail, hparts, hhead, htail⟩ : ∃ head tail : Bytes,
            bufferHex (p3 ++ p4) = head ++ tail ∧ head.length = 2 ∧ tail.length = 6 :=
          ⟨_, _, (List.take_append_drop 2 _).symm, by simp [hlen], by simp [hlen]⟩
        simp only [writeGuid, hsplit, hparts]
        exact ⟨_, Encodes.cons (encodes_putUInt 4 _) (Encodes.cons (encodes_putUInt 2 _)
          (Encodes.cons (encodes_putUInt 2 _) (Encodes.single (Encodes.ok
            ((reads_bytes_of_length hhead).bind
              (Reads.bind_pure (reads_bytes_of_length htail)))))))⟩
      next => cases h
  | _ => cases h

theorem consumes_groupHeader (gh : GroupHeader) :
    ∃ a, Encodes (writeGroupHeader host gh) readGroupHeader a := by
  obtain ⟨a, ha⟩ := consumes_unsigned host 2 gh.writerGroupId
  obtain ⟨b, hb⟩ := consumes_unsigned host 4 (orZero gh.groupVersion)
  obtain ⟨c, hc⟩ := consumes_unsigned host 2 (orZero gh.networkMessageNumber)
  obtain ⟨d, hd⟩ := consumes_unsigned host 2 gh.sequenceNumber
  exact ⟨_, Encodes.cons ha (Encodes.cons hb (Encodes.cons hc
    (Encodes.map (fun d => GroupHeader.mk a b c d) (Encodes.single hd))))⟩

theorem consumes_publisherId {v : JsValue} {typeBits : Nat}
    (hbits : publisherIdTypeBits v = .ok typeBits)
    (htext : ∀ s, v = .str s → (Utf.encode s).length ≠ nullLength) :
    typeBits < 8 ∧ ∃ a, Encodes (writePublisherId host v typeBits) (readPublisherId typeBits) a := by
  cases v with
  | str s =>
      cases hbits
      exact ⟨by omega, consumes_text host (htext s rfl)⟩
  | bigint i =>
      cases hbits
      exact ⟨by omega, consumes_uint64 host _⟩
  | num d =>
      simp only [publisherIdTypeBits] at hbits
      split_ifs at hbits
      · cases hbits
        exact ⟨by omega, consumes_unsigned host 1 _⟩
      · cases hbits
        exact ⟨by omega, consumes_unsigned host 2 _⟩
      · cases hbits
        exact ⟨by omega, consumes_unsigned host 4 _⟩
  | _ => cases hbits

theorem consumes_optionalGroupHeader (groupHeader : Option GroupHeader) :
    ∃ a, Encodes (opt groupHeader.isSome (writeGroupHeader host (groupHeader.getD {})))
      (readOptionalGroupHeader groupHeader.isSome) a := by
  cases groupHeader with
  | none => exact ⟨none, Encodes.ok (Reads.pure none)⟩
  | some gh =>
      obtain ⟨a, ha⟩ := consumes_groupHeader host gh
      exact ⟨some a, Encodes.map some ha⟩

/-! ## Chunks -/

/-- The class id is absent, or of the length the decoder expects. -/
def ClassIdFits (nm : NetworkMessage) : Prop :=
  nm.dataSetClassId.truthy = true → guidTailFits nm.dataSetClassId = true

theorem headerEncodes_chunk {nm : NetworkMessage} {typeBits : Nat} (hclass : ClassIdFits nm)
    (hbits : typeBitsOf nm = .ok typeBits)
    (htext : ∀ s, nm.publisherId = .str s → (Utf.encode s).length ≠ nullLength) :
    ∃ hdr, ∀ chunk, HeaderEncodes host (chunkMessage nm chunk (chunkWriterId nm)) typeBits hdr := by
  have hpub : typeBits < 8 ∧ ∃ a,
      Encodes (opt (decide (nm.publisherId ≠ .undefined))
          (writePublisherId host nm.publisherId typeBits))
        (readMember (decide (nm.publisherId ≠ .undefined)) (readPublisherId typeBits)) a := by
    unfold typeBitsOf at hbits
    split at hbits
    next hu =>
      cases hbits
      refine ⟨by omega, consumes_member _ fun hp => ?_⟩
      simp [hu] at hp
    next hu =>
      obtain ⟨hlt, hp⟩ := consumes_publisherId host hbits htext
      exact ⟨hlt, consumes_member _ fun _ => hp⟩
  obtain ⟨hlt, publisherId, hpublisher⟩ := hpub
  obtain ⟨dataSetClassId, hdataSetClassId⟩ := consumes_member nm.dataSetClassId.truthy
    fun hp => consumes_guid (hclass hp)
  obtain ⟨groupHeader, hgroupHeader⟩ := consumes_optionalGroupHeader host nm.groupHeader
  obtain ⟨id, hid⟩ := consumes_unsigned host 2 (chunkWriterId nm)
  have hpayload : Encodes (writePayloadHeader host [chunkWriterId nm]) (readPayloadHeader true)
      (some [id]) := by
    refine Encodes.cons (encodes_putUInt 1 1) ?_
    have hids : Encodes (cat [writeUInt16LE host (chunkWriterId nm)])
        (ByteCodec.Reader.many (readNumber 2) 1) [id] :=
      Encodes.cons hid (Encodes.map (fun ids => id :: ids) (Encodes.nil []))
    exact Encodes.map some (Encodes.single hids)
  obtain ⟨timestamp, htimestamp⟩ := consumes_member nm.timestamp.truthy
    fun _ => consumes_date nm.timestamp
  obtain ⟨picoseconds, hpicoseconds⟩ := consumes_member
    (decide (nm.picoseconds ≠ .undefined) && nm.timestamp.truthy)
    fun _ => consumes_unsigned host 2 nm.picoseconds
  exact ⟨{
      publisherId := publisherId, dataSetClassId := dataSetClassId, groupHeader := groupHeader
      payloadHeader := some [id], timestamp := timestamp, picoseconds := picoseconds },
    fun chunk => ⟨hlt, hpublisher, hdataSetClassId, hgroupHeader, hpayload, htimestamp,
      hpicoseconds, rfl⟩⟩

theorem length_putUInt {k n : Nat} {bs : Bytes} (h : putUInt k n = .ok bs) :
    bs.length = k ∧ n < 256 ^ k := by
  unfold putUInt at h
  split at h
  next hlt =>
    cases h
    exact ⟨length_le k n, hlt⟩
  next => cases h

theorem encodes_chunk (msn : Nat) (info : ChunkInfo) :
    Encodes (cat (writeChunk msn info)) readChunk (chunkOf msn info) := by
  refine Encodes.cons (encodes_putUInt 2 msn) ?_
  refine Encodes.cons (encodes_putUInt 4 info.chunkOffset) ?_
  refine Encodes.cons (encodes_putUInt 4 info.totalSize) ?_
  refine Encodes.cons (encodes_putUInt 4 info.chunkData.length) ?_
  exact Encodes.map _ (Encodes.single (Encodes.ok (reads_bytes info.chunkData)))

theorem length_writeChunk {msn : Nat} {info : ChunkInfo} {bs : Bytes}
    (h : cat (writeChunk msn info) = .ok bs) :
    bs.length = 14 + info.chunkData.length ∧ info.totalSize < 256 ^ 4 := by
  obtain ⟨b₁, c₁, h₁, t₁, rfl⟩ := cat_cons_eq_ok.mp h
  obtain ⟨b₂, c₂, h₂, t₂, rfl⟩ := cat_cons_eq_ok.mp t₁
  obtain ⟨b₃, c₃, h₃, t₃, rfl⟩ := cat_cons_eq_ok.mp t₂
  obtain ⟨b₄, c₄, h₄, t₄, rfl⟩ := cat_cons_eq_ok.mp t₃
  obtain ⟨b₅, c₅, h₅, t₅, rfl⟩ := cat_cons_eq_ok.mp t₄
  cases t₅
  cases h₅
  have l₁ := (length_putUInt h₁).1
  have l₂ := (length_putUInt h₂).1
  have l₃ := length_putUInt h₃
  have l₄ := (length_putUInt h₄).1
  simp only [List.length_append, List.length_nil]
  omega

variable {host : Host}

/-- The flag bytes and header fields of a chunk. -/
def chunkHeaderWriters (host : Host) (nm : NetworkMessage) (chunk : Chunk) (typeBits : Nat) :
    List Writer :=
  let chunkNm := chunkMessage nm chunk (chunkWriterId nm)
  let extFlags1 := extendedFlags1 chunkNm typeBits 1
  writeHeader host chunkNm (buildUADPFlags chunkNm extFlags1) extFlags1 1

/-- The header does not depend on the chunk. -/
theorem chunkHeaderWriters_eq (nm : NetworkMessage) (chunk chunk' : Chunk) (typeBits : Nat) :
    chunkHeaderWriters host nm chunk typeBits = chunkHeaderWriters host nm chunk' typeBits := rfl

theorem buildExtendedFlags2_chunk (nm : NetworkMessage) (chunk : Chunk) (id : JsValue) :
    buildExtendedFlags2 (chunkMessage nm chunk id) = 1 := by
  simp [buildExtendedFlags2, chunkMessage, JsValue.truthy, Flags.bit]

theorem encodeChunk_cases {nm : NetworkMessage} {info : ChunkInfo} {msn : Nat} {bs : Bytes}
    (h : encodeChunkNetworkMessage host nm info msn (chunkWriterId nm) = .ok bs) :
    ∃ typeBits header payload, typeBitsOf nm = .ok typeBits ∧
      cat (chunkHeaderWriters host nm (chunkOf msn info) typeBits) = .ok header ∧
      cat (writeChunk msn info) = .ok payload ∧ bs = header ++ payload := by
  obtain ⟨extFlags1, hext, h⟩ := bind_eq_ok.mp h
  obtain ⟨typeBits, hbits, hext⟩ := bind_eq_ok.mp hext
  cases hext
  obtain ⟨header, payload, hheader, hpayload, rfl⟩ := cat_append_eq_ok.mp h
  rw [buildExtendedFlags2_chunk] at hheader
  exact ⟨typeBits, header, payload, hbits, hheader, hpayload, rfl⟩

/-- A chunk decodes to the common header with its own payload. -/
theorem decode_chunk {nm hdr : NetworkMessage} {typeBits msn : Nat} {info : ChunkInfo}
    {header payload : Bytes}
    (hhdr : ∀ chunk, HeaderEncodes host (chunkMessage nm chunk (chunkWriterId nm)) typeBits hdr)
    (hheader : cat (chunkHeaderWriters host nm (chunkOf msn info) typeBits) = .ok header)
    (hpayload : cat (writeChunk msn info) = .ok payload) :
    decodeNetworkMessage (header ++ payload) =
      .ok (ChunkMessage.of hdr (chunkOf msn info)).message := by
  have hread := (encodes_header 1 (hhdr (chunkOf msn info))).reads header hheader
  have hchunk := (encodes_chunk msn info).reads payload hpayload
  refine ReadsAll.run (ReadsAll.bind hread ?_)
  exact ReadsAll.bind_pure
    (g := fun chunk => ({ hdr with chunk := some chunk, payload := [] } : NetworkMessage))
    (ReadsAll.ofReads hchunk)

/-- A text in the header is shorter than the message. -/
theorem length_publisherId {nm : NetworkMessage} {whole : Bytes} {s : JsString}
    (h : encodeWhole host nm = .ok whole) (hs : nm.publisherId = .str s) :
    (Utf.encode s).length + 4 ≤ whole.length := by
  obtain ⟨extFlags1, hext, h⟩ := bind_eq_ok.mp h
  obtain ⟨typeBits, hbits, hext⟩ := bind_eq_ok.mp hext
  cases hext
  have htype : typeBits = 4 := by
    simp only [typeBitsOf, hs] at hbits
    cases hbits
    rfl
  subst htype
  obtain ⟨header, hheader, h⟩ := bind_eq_ok.mp h
  split at h
  next => cases h
  next =>
    obtain ⟨buffers, -, h⟩ := bind_eq_ok.mp h
    obtain ⟨b, c, hb, -, rfl⟩ := cat_cons_eq_ok.mp h
    cases hb
    have hu4 : (buildUADPFlags nm (extendedFlags1 nm 4 (buildExtendedFlags2 nm))).testBit 4 = true := by
      rw [(buildUADPFlags_fields nm _).2.1, hs]
      rfl
    have hmod : (if (buildUADPFlags nm (extendedFlags1 nm 4 (buildExtendedFlags2 nm))).testBit 7
        then extendedFlags1 nm 4 (buildExtendedFlags2 nm) % 8 else 0) = 4 := by
      rw [(buildUADPFlags_fields nm _).2.2.2.2, cascade_typeBits]
      exact (extendedFlags1_fields (by omega)).1
    obtain ⟨part, hpart, hle⟩ := cat_part hheader
      (w := opt true (writePublisherId host (.str s) 4)) (by
        simp only [writeHeader, writeNetworkMessageHeaderFields, hu4, hmod, hs]
        simp)
    obtain ⟨b₁, c₁, h₁, htext, rfl⟩ := cat_cons_eq_ok.mp hpart
    obtain ⟨b₂, c₂, h₂, hnil, rfl⟩ := cat_cons_eq_ok.mp htext
    cases h₂
    cases hnil
    have hlen := (length_putUInt h₁).1
    simp only [List.length_append, List.length_nil] at hle ⊢
    omega

/-- What a chunked encoding consists of. -/
theorem encodeNetworkMessage_chunks {nm : NetworkMessage} {mtu : Int} {buffers : List Bytes}
    (h : encodeNetworkMessage host nm mtu = .ok (.chunks buffers)) :
    ∃ whole msn probe infos, encodeWhole host nm = .ok whole ∧ (whole.length : Int) > mtu ∧
      encodeChunkNetworkMessage host nm ⟨0, whole.length, []⟩ msn (chunkWriterId nm) = .ok probe ∧
      splitIntoChunks whole mtu probe.length = .ok infos ∧
      List.Forall₂ (fun info b =>
        encodeChunkNetworkMessage host nm info msn (chunkWriterId nm) = .ok b) infos buffers := by
  obtain ⟨whole, hwhole, h⟩ := bind_eq_ok.mp h
  split at h
  next hlen =>
    obtain ⟨bs, hchunks, h⟩ := bind_eq_ok.mp h
    cases h
    obtain ⟨msn, -, hchunks⟩ := bind_eq_ok.mp hchunks
    obtain ⟨probe, hprobe, hchunks⟩ := bind_eq_ok.mp hchunks
    obtain ⟨infos, hinfos, hchunks⟩ := bind_eq_ok.mp hchunks
    simp only [Bool.and_eq_true, decide_eq_true_eq] at hlen
    exact ⟨whole, msn, probe, infos, hwhole, hlen.1, hprobe, hinfos, mapM_eq_ok hchunks⟩
  next => cases h

/-- The chunks fit the MTU, and decode to tiles of the whole encoding under one key. -/
theorem chunks_decode {nm : NetworkMessage} {mtu : Int} {buffers : List Bytes}
    (hclass : ClassIdFits nm)
    (h : encodeNetworkMessage host nm mtu = .ok (.chunks buffers)) :
    ∃ whole ms key, encodeWhole host nm = .ok whole ∧
      List.Forall₂ (fun b m => (b.length : Int) ≤ mtu ∧
        decodeNetworkMessage b = .ok (ChunkMessage.message m)) buffers ms ∧
      ChunksOf host key ms whole := by
  obtain ⟨whole, msn, probe, infos, hwhole, hlong, hprobe, hinfos, hbuffers⟩ :=
    encodeNetworkMessage_chunks h
  obtain ⟨typeBits, header, probePayload, hbits, hheader, hprobePayload, rfl⟩ :=
    encodeChunk_cases hprobe
  obtain ⟨hprobeLen, htotal⟩ := length_writeChunk hprobePayload
  have htext : ∀ s, nm.publisherId = .str s → (Utf.encode s).length ≠ nullLength := by
    intro s hs
    have hle := length_publisherId hwhole hs
    dsimp only at htotal
    simp only [nullLength]
    omega
  obtain ⟨hdr, hhdr⟩ := headerEncodes_chunk host hclass hbits htext
  have hsplit : (infos.map fun info => (info.chunkOffset, info.chunkData)) =
      cut (mtu - (header ++ probePayload).length - chunkPayloadOverhead).toNat whole.length 0 whole ∧
      (0 < mtu - (header ++ probePayload).length - chunkPayloadOverhead) ∧
      ∀ info ∈ infos, info.totalSize = whole.length := by
    unfold splitIntoChunks at hinfos
    dsimp only at hinfos
    split at hinfos
    next => cases hinfos
    next hpos =>
      cases hinfos
      refine ⟨by simp [List.map_map, Function.comp_def], by omega, ?_⟩
      intro info hinfo
      obtain ⟨t, -, rfl⟩ := List.mem_map.mp hinfo
      rfl
  obtain ⟨hcut, hpos, hsizes⟩ := hsplit
  let ms := infos.map fun info => ChunkMessage.of hdr (chunkOf msn info)
  have htiles : Tiles 0 (ms.map ChunkMessage.tile) whole := by
    have hmap : ms.map ChunkMessage.tile =
        infos.map fun info => (info.chunkOffset, info.chunkData) := by
      simp only [ms, List.map_map]
      rfl
    rw [hmap, hcut]
    exact tiles_cut (by omega) le_rfl
  have hms : ChunksOf host (headerKey host hdr msn) ms whole := by
    refine ⟨htiles, ?_, ?_⟩ <;> intro m hm <;> obtain ⟨info, hinfo, rfl⟩ := List.mem_map.mp hm
    · exact hsizes info hinfo
    · rfl
  refine ⟨whole, ms, headerKey host hdr msn, hwhole, ?_, hms⟩
  refine List.forall₂_map_right_iff.mpr (List.Forall₂.flip ?_)
  refine List.forall₂_iff_zip.mpr ⟨hbuffers.length_eq, ?_⟩
  intro info b hmem
  have hb := (List.forall₂_iff_zip.mp hbuffers).2 hmem
  have hinfo := (List.of_mem_zip hmem).1
  obtain ⟨typeBits', header', payload, hbits', hheader', hpayload, rfl⟩ := encodeChunk_cases hb
  obtain rfl : typeBits' = typeBits := Except.ok.inj (hbits'.symm.trans hbits)
  rw [chunkHeaderWriters_eq nm _ (chunkOf msn ⟨0, whole.length, []⟩)] at hheader'
  obtain rfl : header' = header := Except.ok.inj (hheader'.symm.trans hheader)
  refine ⟨?_, decode_chunk hhdr hheader hpayload⟩
  have hdata : info.chunkData.length ≤
      (mtu - (header' ++ probePayload).length - chunkPayloadOverhead).toNat := by
    have hmem := List.mem_map_of_mem
      (f := fun info : ChunkInfo => (info.chunkOffset, info.chunkData)) hinfo
    rw [hcut] at hmem
    exact length_of_mem_cut hmem
  have hlen := (length_writeChunk hpayload).1
  simp only [List.length_append, List.length_nil, chunkPayloadOverhead] at hdata hprobeLen hpos ⊢
  omega

/-- The chunks fit the MTU, decode, and tile the whole encoding; whatever is
pushed between them, each returns null while another is missing and the last
returns the whole, and a repeated one changes nothing. -/
def Reassembles (host : Host) (nm : NetworkMessage) (mtu : Int) (buffers : List Bytes) : Prop :=
  ∃ whole ms key, encodeWhole host nm = .ok whole ∧
    List.Forall₂ (fun b m => (b.length : Int) ≤ mtu ∧
      decodeNetworkMessage b = .ok (ChunkMessage.message m)) buffers ms ∧
    Tiles 0 (ms.map ChunkMessage.tile) whole ∧
    (∀ m ∈ ms, m.chunk.totalSize = whole.length ∧ chunkKey host m = key) ∧
    ∀ (r : Reassembler) (t0 : Int) (pushes : List Push) (p : Push),
      whole.length ≤ r.maxTotalSize → InsertionMap.get? key r.entries = none →
      Interleaving host key ms t0 r (pushes ++ [p]) → p.message ∈ ms →
      ¬ Covers ms (pushes.map Push.message) →
        (push host (after host r pushes) p.time p.message).output =
          (if Covers ms ((pushes ++ [p]).map Push.message) then some whole else none) ∧
        (p.message ∈ pushes.map Push.message →
          (step host (after host r pushes) p).entries =
            sweep p.time (after host r pushes).entries)

/-- Chunking and reassembly are inverse in any order. -/
theorem chunks_reassemble {nm : NetworkMessage} {mtu : Int} {buffers : List Bytes}
    (hclass : ClassIdFits nm)
    (h : encodeNetworkMessage host nm mtu = .ok (.chunks buffers)) :
    Reassembles host nm mtu buffers := by
  obtain ⟨whole, ms, key, hwhole, hbuffers, hms⟩ := chunks_decode hclass h
  refine ⟨whole, ms, key, hwhole, hbuffers, hms.tiles,
    fun m hm => ⟨hms.totalSize m hm, hms.key m hm⟩, ?_⟩
  intro r t0 pushes p hcap hnew hinter hown hnot
  exact push_chunk hms hcap hnew hinter hnot hown

/-- A keyframe with a text of forty letters. -/
def textMessage (dataSetClassId : JsValue) : NetworkMessage where
  publisherId := .num (Double.ofInt 5)
  dataSetClassId := dataSetClassId
  payload := [{ fields := some [(js "t", .variant ⟨.name (js "String"),
    .str (List.replicate 40 97), none⟩)] }]

def Encoded.buffers : Except UadpError Encoded → List Bytes
  | .ok (.chunks buffers) => buffers
  | _ => []

/-- The five chunks of a text, pushed in reverse order, give the message back. -/
theorem textMessage_reassembles : ∃ whole ms,
    encodeWhole Host.inert (textMessage .undefined) = .ok whole ∧
    List.Forall₂ (fun b m => decodeNetworkMessage b = .ok (ChunkMessage.message m))
      (Encoded.buffers (encodeNetworkMessage Host.inert (textMessage .undefined) 44)) ms ∧
    ∃ first rest, ms = first :: rest ∧
      (push Host.inert (after Host.inert ⟨1000, []⟩ (rest.reverse.map fun m => ⟨0, m⟩)) 0
        first).output = some whole := by
  have hwhole : (encodeWhole Host.inert (textMessage .undefined)).map List.length = .ok 53 := by
    decide +kernel
  have hchunks : encodeNetworkMessage Host.inert (textMessage .undefined) 44 = .ok (.chunks
      (Encoded.buffers (encodeNetworkMessage Host.inert (textMessage .undefined) 44))) := by
    decide +kernel
  have hlen : (Encoded.buffers (encodeNetworkMessage Host.inert (textMessage .undefined)
      44)).length = 5 := by decide +kernel
  obtain ⟨whole, ms, key, hw, hall, htiles, hkey, hpush⟩ :=
    chunks_reassemble (fun hclass => absurd hclass (by decide)) hchunks
  generalize Encoded.buffers (encodeNetworkMessage Host.inert (textMessage .undefined) 44) =
    buffers at hlen hall ⊢
  have hms : ms.length = 5 := hall.length_eq.symm.trans hlen
  have hnodup : ms.Nodup := List.Nodup.of_map _ (Tiles.nodup_of_offsets htiles.nodup_offsets)
  rw [hw] at hwhole
  have hsize : whole.length = 53 := Except.ok.inj hwhole
  refine ⟨whole, ms, hw, hall.imp fun _ _ hbm => hbm.2, ?_⟩
  obtain ⟨first, rest, rfl⟩ := List.exists_cons_of_length_eq_add_one hms
  refine ⟨first, rest, rfl, ?_⟩
  have hfirst := (List.nodup_cons.mp hnodup).1
  have hinter : Interleaving Host.inert key (first :: rest) 0 ⟨1000, []⟩
      ((rest.reverse.map fun m => (⟨0, m⟩ : Push)) ++ [⟨0, first⟩]) := by
    have hroom : (rest.reverse ++ [first]).length ≤ maxInflightReassemblies := by
      rw [List.length_append, List.length_reverse, List.length_singleton, ← List.length_cons, hms]
      decide
    have hown := @Interleaving.of_own Host.inert key (first :: rest) 0 ⟨1000, []⟩
      (rest.reverse ++ [first])
      (fun m hm => (List.mem_append.mp hm).elim
        (fun hm => List.mem_cons_of_mem first (List.mem_reverse.mp hm))
        (fun hm => List.mem_singleton.mp hm ▸ List.mem_cons_self))
      (le_of_eq_of_le (Nat.zero_add _) hroom)
    rwa [List.map_append] at hown
  have hnot : ¬ Covers (first :: rest) ((rest.reverse.map fun m => (⟨0, m⟩ : Push)).map
      Push.message) := by
    intro hcov
    have hmem := hcov first List.mem_cons_self
    rw [List.map_map, List.mem_map] at hmem
    obtain ⟨m, hm, rfl⟩ := hmem
    exact hfirst (List.mem_reverse.mp hm)
  have hcov : Covers (first :: rest) (((rest.reverse.map fun m => (⟨0, m⟩ : Push)) ++
      [(⟨0, first⟩ : Push)]).map Push.message) := by
    intro m hm
    rw [List.map_append, List.map_map, List.mem_append, List.mem_map]
    rcases List.mem_cons.mp hm with rfl | hm
    · exact Or.inr List.mem_cons_self
    · exact Or.inl ⟨m, List.mem_reverse.mpr hm, rfl⟩
  have hout := (hpush ⟨1000, []⟩ 0 (rest.reverse.map fun m => ⟨0, m⟩) ⟨0, first⟩
    (by rw [hsize]; decide) rfl hinter List.mem_cons_self hnot).1
  rwa [if_pos hcov] at hout

/-- The class id `a-b-c-d-e` is written in nine bytes and read in sixteen. -/
theorem shortClassId_not_reassembled :
    ¬ ∀ (host : Host) (nm : NetworkMessage) (mtu : Int) (buffers : List Bytes),
      encodeNetworkMessage host nm mtu = .ok (.chunks buffers) →
        Reassembles host nm mtu buffers := by
  intro h
  have hchunks : encodeNetworkMessage Host.inert (textMessage (.str (js "a-b-c-d-e"))) 53 =
      .ok (.chunks (Encoded.buffers (encodeNetworkMessage Host.inert
        (textMessage (.str (js "a-b-c-d-e"))) 53))) := by
    decide +kernel
  have hfail : (Encoded.buffers (encodeNetworkMessage Host.inert
      (textMessage (.str (js "a-b-c-d-e"))) 53)).head?.map
        (fun b => ((decodeNetworkMessage b).toOption.bind fun nm => nm.chunk).isSome) =
          some false := by
    decide +kernel
  obtain ⟨whole, ms, key, -, hall, -⟩ := h _ _ _ _ hchunks
  generalize Encoded.buffers (encodeNetworkMessage Host.inert
    (textMessage (.str (js "a-b-c-d-e"))) 53) = buffers at hall hfail
  cases hall with
  | nil => cases hfail
  | @cons b m bs ms hb _ =>
      rw [List.head?_cons, Option.map_some, hb.2] at hfail
      have hchunk := m.has_chunk
      simp [Except.toOption, hchunk] at hfail

end OpcUaSuite.Uadp
