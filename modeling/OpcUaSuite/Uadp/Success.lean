import OpcUaSuite.Uadp.Header

/-!
# What the encoder accepts

An encoder that writes its parts one after another succeeds when each of them
does. The header of a message without a class id, picoseconds or promoted
fields has a part for each number that must fit its wire field.
-/

namespace OpcUaSuite.Uadp

open Js ByteCodec BinaryFloat PubSub

variable {host : Host}

/-! ## Integers -/

theorem succeeds_putUInt {k n : Nat} : Succeeds (putUInt k n) ↔ n < 256 ^ k := by
  rw [putUInt]
  split
  next h => exact iff_of_true (succeeds_ok _) h
  next h => exact iff_of_false (not_succeeds_error _) h

/-- A number is written when it does not exceed the bounds; NaN does not. -/
theorem succeeds_writeInt {k : Nat} {lo hi : Int} {d : Double} :
    Succeeds (writeInt host k lo hi (.num d)) ↔ d.gtInt hi = false ∧ d.ltInt lo = false := by
  change Succeeds (if d.gtInt hi || d.ltInt lo then .error _ else .ok _) ↔ _
  rw [← Bool.or_eq_false_iff]
  cases d.gtInt hi || d.ltInt lo with
  | false => exact iff_of_true (succeeds_ok _) rfl
  | true => exact iff_of_false (not_succeeds_error _) nofun

theorem succeeds_writeUInt_nat {k n : Nat} (hn : n < 2 ^ 53) (hk : n < 256 ^ k) :
    Succeeds (writeUInt host k (JsValue.nat n)) := by
  have hd : (Double.ofInt n).Denotes n := Double.denotes_ofInt (by omega)
  have hle : (n : Int) ≤ 256 ^ k - 1 := by
    have : (n : Int) < 256 ^ k := by exact_mod_cast hk
    omega
  rw [writeUInt, JsValue.nat, writeInt_denotes hd (Int.natCast_nonneg n) hle]
  exact succeeds_ok _

theorem succeeds_writeDateTime {ms : Int} : Succeeds (writeDateTime (.date (some ms))) ↔
    0 ≤ (ms + filetimeEpochOffsetMs) * datetimeTicksPerMs ∧
      (ms + filetimeEpochOffsetMs) * datetimeTicksPerMs < 2 ^ 64 := by
  rw [writeDateTime, writeBigUInt64]
  split
  next h => exact iff_of_true (succeeds_ok _) h
  next h => exact iff_of_false (not_succeeds_error _) h

theorem atMost_putUInt (k n : Nat) : AtMost k (putUInt k n) := by
  intro bs hbs
  unfold putUInt at hbs
  split at hbs
  · cases hbs
    exact (length_le k n).le
  · cases hbs

theorem atMost_writeInt (k : Nat) (lo hi : Int) (v : JsValue) :
    AtMost k (writeInt host k lo hi v) := by
  intro bs hbs
  obtain ⟨d, -, hd⟩ := bind_eq_ok.mp hbs
  split at hd
  · cases hd
  · cases hd
    exact (length_le k _).le

/-! ## PublisherIds -/

/-- The PublisherIds that a type of the wire carries. -/
def PublisherIdFits : JsValue → Prop
  | .undefined => True
  | .str s => (Utf.encode s).length < 256 ^ 4
  | .bigint i => 0 ≤ i ∧ i < 2 ^ 64
  | .num d => d.isInteger = true ∧ d.ltInt 0 = false ∧ d.gtInt 0xffffffff = false
  | _ => False

theorem succeeds_publisherId {v : JsValue} (h : PublisherIdFits v) (hv : v ≠ .undefined) :
    ∃ typeBits < 8, publisherIdTypeBits v = .ok typeBits ∧
      Succeeds (writePublisherId host v typeBits) := by
  cases v with
  | undefined => exact absurd rfl hv
  | str s =>
      refine ⟨4, by decide, rfl, ?_⟩
      change Succeeds (cat [putUInt 4 (Utf.encode s).length, .ok (Utf.encode s)])
      rw [succeeds_cat]
      simp only [List.forall_mem_cons, succeeds_putUInt]
      exact ⟨h, succeeds_ok _, nofun⟩
  | bigint i =>
      refine ⟨3, by decide, rfl, ?_⟩
      have hrange : 0 ≤ i ∧ i < 2 ^ 64 := h
      change Succeeds (writeBigUInt64 i)
      rw [writeBigUInt64, if_pos hrange]
      exact succeeds_ok _
  | num d =>
      obtain ⟨hint, hlo, hhi⟩ := h
      simp only [publisherIdTypeBits, hint, hlo, hhi, Bool.not_true, Bool.false_or,
        Bool.false_eq_true, if_false, Bool.not_false, if_true]
      cases h8 : d.gtInt 0xff with
      | false => exact ⟨0, by decide, rfl, succeeds_writeInt.mpr ⟨h8, hlo⟩⟩
      | true =>
          cases h16 : d.gtInt 0xffff with
          | false => exact ⟨1, by decide, rfl, succeeds_writeInt.mpr ⟨h16, hlo⟩⟩
          | true => exact ⟨2, by decide, rfl, succeeds_writeInt.mpr ⟨hhi, hlo⟩⟩
  | _ => exact h.elim

/-! ## Flags -/

theorem dsFlags2_lt (dsm : DataSetMessage) : dsFlags2 dsm < 256 := by
  unfold dsFlags2
  generalize decide (dsm.picoseconds ≠ .undefined) = b5
  generalize dsm.timestamp.truthy = b4
  cases messageTypeOf dsm <;> revert b4 b5 <;> decide

theorem dsFlags1_lt (dsm : DataSetMessage) : dsFlags1 dsm < 256 := by
  unfold dsFlags1
  generalize decide (dsm.valid ≠ .bool false) = b0
  generalize decide (dsm.sequenceNumber ≠ .undefined) = b3
  generalize decide (dsm.status ≠ .undefined) = b4
  generalize decide (majorOf dsm ≠ .undefined) = b5
  generalize decide (minorOf dsm ≠ .undefined) = b6
  generalize decide (dsFlags2 dsm ≠ 0) = b7
  cases fieldEncodingOf dsm <;> revert b0 b3 b4 b5 b6 b7 <;> decide

theorem extendedFlags1_lt {nm : NetworkMessage} {typeBits extFlags2 : Nat} (h : typeBits < 8) :
    extendedFlags1 nm typeBits extFlags2 < 256 := by
  unfold extendedFlags1
  generalize decide (nm.picoseconds ≠ .undefined) = b6
  generalize nm.dataSetClassId.truthy = b3
  generalize nm.timestamp.truthy = b5
  generalize decide (extFlags2 ≠ 0) = b7
  revert b3 b5 b6 b7
  interval_cases typeBits <;> decide

theorem buildUADPFlags_lt (nm : NetworkMessage) (extFlags1 : Nat) :
    buildUADPFlags nm extFlags1 < 256 := by
  unfold buildUADPFlags
  generalize decide (nm.publisherId ≠ .undefined) = b4
  generalize nm.groupHeader.isSome = b5
  generalize decide (dataSetWriterIds nm ≠ []) = b6
  generalize decide (extFlags1 ≠ 0) = b7
  revert b4 b5 b6 b7
  decide

/-! ## DataSetMessages -/

/-- A DataSetMessage with a sequence number of the wire, without status or time. -/
structure PlainData (dsm : DataSetMessage) (seq : Nat) : Prop where
  sequenceNumber : dsm.sequenceNumber = JsValue.nat seq
  bound : seq < 65536
  status : dsm.status = .undefined
  timestamp : dsm.timestamp = .undefined
  picoseconds : dsm.picoseconds = .undefined

section Data

variable {dsm : DataSetMessage} {seq : Nat} (h : PlainData dsm seq)

include h

theorem PlainData.flags2_bits : (dsFlags2 dsm).testBit 4 = false ∧
    (dsFlags2 dsm).testBit 5 = false := by
  obtain ⟨-, hbit4, hbit5⟩ := testBit_dsFlags2 dsm
  rw [h.timestamp] at hbit4 hbit5
  exact ⟨hbit4, hbit5.trans (Bool.and_false _)⟩

/-- It is encoded exactly when its version and its fields are. -/
theorem PlainData.succeeds : Succeeds (encodeDataSetMessage host dsm) ↔
    (majorOf dsm ≠ .undefined → Succeeds (writeUInt32LE host (majorOf dsm))) ∧
    (minorOf dsm ≠ .undefined → Succeeds (writeUInt32LE host (minorOf dsm))) ∧
    (messageTypeOf dsm ≠ .keepalive → Succeeds (writeFields host dsm)) := by
  obtain ⟨-, -, -, hstatus, hmajor, hminor, -⟩ := testBit_dsFlags1 dsm
  obtain ⟨htime, hpicoseconds⟩ := h.flags2_bits
  have hflags1 : dsFlags1 dsm < 256 ^ 1 := dsFlags1_lt dsm
  have hflags2 : dsFlags2 dsm < 256 ^ 1 := dsFlags2_lt dsm
  have hseq : Succeeds (writeUInt16LE host dsm.sequenceNumber) := by
    have hbound := h.bound
    rw [h.sequenceNumber]
    exact succeeds_writeUInt_nat (by omega) (by omega)
  rw [encodeDataSetMessage, succeeds_cat]
  simp only [List.forall_mem_cons, succeeds_opt, succeeds_putUInt, hstatus, hmajor, hminor, htime,
    hpicoseconds, h.status, decide_eq_true_eq]
  constructor
  · rintro ⟨-, -, -, -, hmaj, hmin, -, -, hfields, -⟩
    exact ⟨hmaj, hmin, hfields⟩
  · rintro ⟨hmaj, hmin, hfields⟩
    exact ⟨hflags1, fun _ => hflags2, fun _ => hseq, fun hne => absurd rfl hne, hmaj, hmin, nofun,
      nofun, hfields, nofun⟩

theorem PlainData.atMost {n : Nat} (hfields : AtMost n (writeFields host dsm)) :
    AtMost (16 + n) (encodeDataSetMessage host dsm) := by
  obtain ⟨htime, hpicoseconds⟩ := h.flags2_bits
  rw [encodeDataSetMessage, htime, hpicoseconds]
  refine AtMost.mono (AtMost.cons (atMost_putUInt 1 _) <|
    AtMost.cons ((atMost_putUInt 1 _).opt _) <|
    AtMost.cons ((atMost_writeInt 2 _ _ _).opt _) <|
    AtMost.cons ((atMost_writeInt 2 _ _ _).opt _) <|
    AtMost.cons ((atMost_writeInt 4 _ _ _).opt _) <|
    AtMost.cons ((atMost_writeInt 4 _ _ _).opt _) <|
    AtMost.cons (AtMost.absent _) <|
    AtMost.cons (AtMost.absent _) <|
    AtMost.cons (hfields.opt _) AtMost.nil) ?_
  omega

end Data

/-! ## NetworkMessages -/

/-- A message with a group header, writers and a time, and nothing else that is
optional in the header. -/
structure Plain (nm : NetworkMessage) (gh : GroupHeader) (ids : List JsValue) (now : Int) :
    Prop where
  groupHeader : nm.groupHeader = some gh
  payloadHeader : nm.payloadHeader = some ids
  writers : ids ≠ []
  timestamp : nm.timestamp = .date (some now)
  dataSetClassId : nm.dataSetClassId = .undefined
  picoseconds : nm.picoseconds = .undefined
  promotedFields : nm.promotedFields = .undefined
  chunk : nm.chunk = none

theorem dsmBuffers_eq_ok {dsms : List DataSetMessage} {buffers : List Bytes} :
    dsmBuffers host dsms = .ok buffers ↔
      List.Forall₂ (fun dsm b => encodeDataSetMessage host dsm = .ok b) dsms buffers := by
  induction dsms generalizing buffers with
  | nil => simp [dsmBuffers, eq_comm]
  | cons dsm dsms ih =>
      rw [dsmBuffers, bind_eq_ok, List.forall₂_cons_left_iff]
      constructor
      · rintro ⟨b, hb, h⟩
        obtain ⟨bs, hbs, hpure⟩ := bind_eq_ok.mp h
        exact ⟨b, bs, hb, ih.mp hbs, (Except.ok.inj hpure).symm⟩
      · rintro ⟨b, bs, hb, hbs, rfl⟩
        exact ⟨b, hb, bind_eq_ok.mpr ⟨bs, ih.mpr hbs, rfl⟩⟩

theorem dsmBuffers_succeeds {dsms : List DataSetMessage} :
    Succeeds (dsmBuffers host dsms) ↔ ∀ dsm ∈ dsms, Succeeds (encodeDataSetMessage host dsm) := by
  induction dsms with
  | nil => exact iff_of_true (succeeds_ok _) fun dsm hdsm => nomatch hdsm
  | cons dsm dsms ih =>
      rw [dsmBuffers, succeeds_bind, List.forall_mem_cons, ← ih]
      constructor
      · rintro ⟨b, hb, h⟩
        obtain ⟨bs, hbs, -⟩ := succeeds_bind.mp h
        exact ⟨⟨b, hb⟩, ⟨bs, hbs⟩⟩
      · rintro ⟨⟨b, hb⟩, ⟨bs, hbs⟩⟩
        exact ⟨b, hb, succeeds_bind.mpr ⟨bs, hbs, succeeds_ok _⟩⟩

section Whole

variable {nm : NetworkMessage} {gh : GroupHeader} {ids : List JsValue} {now : Int}
  (h : Plain nm gh ids now)

include h

theorem Plain.header {typeBits extFlags1 : Nat} (hbits : typeBits < 8)
    (hext : extFlags1 = extendedFlags1 nm typeBits 0)
    (hpublisherId : nm.publisherId ≠ .undefined →
      Succeeds (writePublisherId host nm.publisherId typeBits))
    (hgh : Succeeds (writeGroupHeader host gh))
    (hids : ∀ id ∈ ids, Succeeds (writeUInt16LE host id)) :
    Succeeds (cat (writeHeader host nm (buildUADPFlags nm extFlags1) extFlags1 0)) ↔
      ids.length < 256 ∧ Succeeds (writeDateTime (.date (some now))) := by
  obtain ⟨htype, hbit3, hbit5, hbit6, -⟩ := @extendedFlags1_fields nm typeBits 0 hbits
  have hflags1 := @extendedFlags1_lt nm typeBits 0 hbits
  rw [← hext] at htype hbit3 hbit5 hbit6 hflags1
  obtain ⟨-, huadp4, huadp5, huadp6, huadp7⟩ := buildUADPFlags_fields nm extFlags1
  have hne : extFlags1 ≠ 0 := by
    intro hzero
    rw [hzero, h.timestamp] at hbit5
    cases hbit5
  have hcount : Succeeds (writePayloadHeader host ids) ↔ ids.length < 256 := by
    rw [writePayloadHeader, succeeds_cat]
    simp only [List.forall_mem_cons, succeeds_putUInt, succeeds_cat, List.forall_mem_map]
    exact ⟨fun hall => hall.1, fun hlt => ⟨hlt, hids, List.forall_mem_nil _⟩⟩
  have hflags := buildUADPFlags_lt nm extFlags1
  have hids6 : dataSetWriterIds nm = ids := by
    rw [dataSetWriterIds, h.payloadHeader]
    rfl
  rw [succeeds_cat, writeHeader, writeNetworkMessageHeaderFields]
  simp only [List.cons_append, List.nil_append, List.forall_mem_cons, succeeds_putUInt,
    succeeds_opt, huadp4, huadp5, huadp6, huadp7, hids6, hcount, h.groupHeader]
  have hclass : extFlags1.testBit 3 = false := hbit3.trans (by rw [h.dataSetClassId]; rfl)
  have hdate : extFlags1.testBit 5 = true := hbit5.trans (by rw [h.timestamp]; rfl)
  have hpicoseconds : extFlags1.testBit 6 = false := hbit6.trans (by rw [h.picoseconds]; rfl)
  rw [hclass, hdate, hpicoseconds, decide_eq_true hne, if_pos rfl, h.timestamp]
  constructor
  · rintro ⟨-, -, -, -, -, -, hlength, htime, -⟩
    exact ⟨hlength (decide_eq_true h.writers), htime rfl⟩
  · rintro ⟨hlength, htime⟩
    refine ⟨hflags, fun _ => hflags1, fun _ => by decide, fun hpresent => ?_,
      fun h => absurd h Bool.false_ne_true, fun _ => hgh, fun _ => hlength, fun _ => htime,
      fun h => absurd h Bool.false_ne_true, List.forall_mem_nil _⟩
    rw [htype]
    exact hpublisherId (of_decide_eq_true hpresent)

/-- A plain message is encoded exactly when the writers can be counted, the time
is one of the wire, and each DataSetMessage is encoded. -/
theorem Plain.encodeWhole_succeeds (hpublisherId : PublisherIdFits nm.publisherId)
    (hgh : Succeeds (writeGroupHeader host gh))
    (hids : ∀ id ∈ ids, Succeeds (writeUInt16LE host id))
    (hsmall : ∀ dsm ∈ nm.payload, AtMost 65535 (encodeDataSetMessage host dsm)) :
    Succeeds (encodeWhole host nm) ↔ ids.length < 256 ∧
      Succeeds (writeDateTime (.date (some now))) ∧
      ∀ dsm ∈ nm.payload, Succeeds (encodeDataSetMessage host dsm) := by
  obtain ⟨typeBits, hbits, htype, hwrite⟩ : ∃ typeBits < 8, typeBitsOf nm = .ok typeBits ∧
      (nm.publisherId ≠ .undefined → Succeeds (writePublisherId host nm.publisherId typeBits)) := by
    by_cases hp : nm.publisherId = .undefined
    · exact ⟨0, by decide, if_pos hp, fun hne => absurd hp hne⟩
    · obtain ⟨typeBits, hlt, hbits, hwrite⟩ := @succeeds_publisherId host _ hpublisherId hp
      exact ⟨typeBits, hlt, (if_neg hp).trans hbits, fun _ => hwrite⟩
  have hext2 : buildExtendedFlags2 nm = 0 := by
    rw [buildExtendedFlags2, h.chunk, h.promotedFields]
    rfl
  have hext1 : buildExtendedFlags1 nm 0 = .ok (extendedFlags1 nm typeBits 0) := by
    rw [buildExtendedFlags1, htype]
    rfl
  have hpayload (buffers : List Bytes) (hbuffers : dsmBuffers host nm.payload = .ok buffers)
      (present : Bool) : Succeeds (cat (writePayload present buffers)) := by
    rw [writePayload, succeeds_cat]
    simp only [List.forall_mem_cons, succeeds_opt, succeeds_cat, List.forall_mem_map,
      succeeds_putUInt]
    refine ⟨fun _ b hb => ?_, succeeds_ok _, nofun⟩
    obtain ⟨dsm, hdsm, hencoded⟩ := exists_left_of_forall₂ (dsmBuffers_eq_ok.mp hbuffers) hb
    exact Nat.lt_of_le_of_lt (hsmall dsm hdsm b hencoded) (by decide)
  have hheader := h.header hbits rfl hwrite hgh hids
  rw [encodeWhole, hext2, hext1]
  change Succeeds ((cat (writeHeader host nm _ _ 0) >>= _ : Writer)) ↔ _
  rw [succeeds_bind, ← and_assoc, ← hheader, ← dsmBuffers_succeeds]
  simp only [Nat.zero_testBit, Bool.and_false, Bool.false_eq_true, if_false, succeeds_bind]
  constructor
  · rintro ⟨header, hok, buffers, hbuffers, -⟩
    exact ⟨⟨header, hok⟩, ⟨buffers, hbuffers⟩⟩
  · rintro ⟨⟨header, hok⟩, ⟨buffers, hbuffers⟩⟩
    refine ⟨header, hok, buffers, hbuffers, succeeds_cat.mpr ?_⟩
    simp only [List.forall_mem_cons]
    exact ⟨succeeds_ok _, hpayload buffers hbuffers _, nofun⟩

end Whole

/-- A message that fits in one piece is encoded exactly when its whole is. -/
theorem encodeNetworkMessage_succeeds {nm : NetworkMessage} {mtu : Int}
    (hmtu : ∀ bs, encodeWhole host nm = .ok bs → bs.length ≤ mtu) :
    Succeeds (encodeNetworkMessage host nm mtu) ↔ Succeeds (encodeWhole host nm) := by
  rw [encodeNetworkMessage, succeeds_bind]
  constructor
  · rintro ⟨bs, hbs, -⟩
    exact ⟨bs, hbs⟩
  · rintro ⟨bs, hbs⟩
    refine ⟨bs, hbs, ?_⟩
    rw [decide_eq_false (not_lt.mpr (hmtu bs hbs)), Bool.false_and, if_neg Bool.false_ne_true]
    exact succeeds_ok _

end OpcUaSuite.Uadp
