import OpcUaSuite.Uadp.VariantRoundTrip

/-!
# The DataSetMessage codec

`encodeDataSetMessage` and `decodeDataSetMessage`. The two flag bytes are
computed from the members that are present; the second is left out when it is
zero.
-/

namespace OpcUaSuite.Uadp

open Js ByteCodec PubSub

/-- `FIELD_ENCODING_BITS` -/
def fieldEncodingBits : FieldEncoding → Nat
  | .variant => 0
  | .rawdata => 1
  | .datavalue => 2

/-- `FIELD_ENCODING_NAME`, with its default. -/
def fieldEncodingName : Nat → FieldEncoding
  | 1 => .rawdata
  | 2 => .datavalue
  | _ => .variant

/-- `MESSAGE_TYPE_BITS` -/
def messageTypeBits : MessageType → Nat
  | .keyframe => 0
  | .deltaframe => 1
  | .event => 2
  | .keepalive => 3

/-- `MESSAGE_TYPE_NAME`, with its default. -/
def messageTypeName : Nat → MessageType
  | 1 => .deltaframe
  | 2 => .event
  | 3 => .keepalive
  | _ => .keyframe

def fieldEncodingOf (dsm : DataSetMessage) : FieldEncoding := dsm.fieldEncoding.getD .variant

def messageTypeOf (dsm : DataSetMessage) : MessageType := dsm.messageType.getD .keyframe

def majorOf (dsm : DataSetMessage) : JsValue :=
  (dsm.configurationVersion.map (·.major)).getD .undefined

def minorOf (dsm : DataSetMessage) : JsValue :=
  (dsm.configurationVersion.map (·.minor)).getD .undefined

def dsFlags2 (dsm : DataSetMessage) : Nat :=
  messageTypeBits (messageTypeOf dsm) |||
  Flags.bit 4 dsm.timestamp.truthy |||
  Flags.bit 5 (decide (dsm.picoseconds ≠ .undefined) && dsm.timestamp.truthy)

def dsFlags1 (dsm : DataSetMessage) : Nat :=
  Flags.bit 0 (decide (dsm.valid ≠ .bool false)) |||
  fieldEncodingBits (fieldEncodingOf dsm) <<< 1 |||
  Flags.bit 3 (decide (dsm.sequenceNumber ≠ .undefined)) |||
  Flags.bit 4 (decide (dsm.status ≠ .undefined)) |||
  Flags.bit 5 (decide (majorOf dsm ≠ .undefined)) |||
  Flags.bit 6 (decide (minorOf dsm ≠ .undefined)) |||
  Flags.bit 7 (decide (dsFlags2 dsm ≠ 0))

variable (host : Host)

def writeNamedField (encoding : FieldEncoding) (entry : JsString × Field) : Writer :=
  let nameBytes := Utf.encode entry.1
  cat [putUInt 2 nameBytes.length, .ok nameBytes, writeField host encoding entry.1 entry.2]

/-- The field count and the named fields, in the order of the keys. -/
def writeFields (dsm : DataSetMessage) : Writer :=
  let fields := dsm.fields.getD []
  cat [putUInt 2 fields.length, cat (fields.map (writeNamedField host (fieldEncodingOf dsm)))]

def encodeDataSetMessage (dsm : DataSetMessage) : Writer :=
  let flags1 := dsFlags1 dsm
  let flags2 := dsFlags2 dsm
  cat [putUInt 1 flags1,
    opt (flags1.testBit 7) (putUInt 1 flags2),
    opt (flags1.testBit 3) (writeUInt16LE host dsm.sequenceNumber),
    opt (flags1.testBit 4) (writeUInt16LE host dsm.status),
    opt (flags1.testBit 5) (writeUInt32LE host (majorOf dsm)),
    opt (flags1.testBit 6) (writeUInt32LE host (minorOf dsm)),
    opt (flags2.testBit 4) (writeDateTime dsm.timestamp),
    opt (flags2.testBit 5) (writeUInt16LE host dsm.picoseconds),
    opt (decide (messageTypeOf dsm ≠ .keepalive)) (writeFields host dsm)]

def readNamedField (encoding : FieldEncoding) : Reader (JsString × Field) := do
  let nameLen ← readUInt 2
  let name ← readBytes nameLen
  let field ← readField encoding
  return (Utf.decode name, field)

def readFields (encoding : FieldEncoding) : Reader (List (JsString × Field)) := do
  let count ← readUInt 2
  let entries ← ByteCodec.Reader.many (readNamedField encoding) count
  return Props.ofEntries entries

/-- An extended flag byte, zero when it is not there. -/
def readFlags (present : Bool) : Reader Nat := if present then readUInt 1 else pure 0

/-- The body, which a KeepAlive does not have. -/
def readBody (encoding : FieldEncoding) (messageType : MessageType) :
    Reader (Option (List (JsString × Field))) :=
  if decide (messageType ≠ .keepalive) then do
    let fields ← readFields encoding
    return some fields
  else pure none

def configurationVersionOf (hasMajor hasMinor : Bool) (major minor : JsValue) :
    Option ConfigurationVersion :=
  if hasMajor || hasMinor then some ⟨major, minor⟩ else none

/-- `decodeDataSetMessage`, from an open stream. -/
def readDataSetMessage : Reader DataSetMessage := do
  let flags1 ← readUInt 1
  let flags2 ← readFlags (flags1.testBit 7)
  let fieldEncoding := fieldEncodingName (flags1 / 2 % 4)
  let messageType := messageTypeName (flags2 % 16)
  let sequenceNumber ← readMember (flags1.testBit 3) (readNumber 2)
  let status ← readMember (flags1.testBit 4) (readNumber 2)
  let major ← readMember (flags1.testBit 5) (readNumber 4)
  let minor ← readMember (flags1.testBit 6) (readNumber 4)
  let timestamp ← readMember (flags2.testBit 4) readDateTime
  let picoseconds ← readMember (flags2.testBit 5) (readNumber 2)
  if fieldEncoding = .rawdata then
    ByteCodec.Reader.fail fun _ => .rawdataDecodeRequiresMetadata
  else do
    let fields ← readBody fieldEncoding messageType
    return {
      valid := .bool (flags1.testBit 0)
      fieldEncoding := some fieldEncoding
      messageType := some messageType
      sequenceNumber := sequenceNumber
      status := status
      configurationVersion :=
        configurationVersionOf (flags1.testBit 5) (flags1.testBit 6) major minor
      timestamp := timestamp
      picoseconds := picoseconds
      fields := fields }

def decodeDataSetMessage (buffer : Bytes) : Except UadpError DataSetMessage :=
  readDataSetMessage.run buffer

/-! ## Round trip -/

/-- The messages whose members hold values of their wire types. Picoseconds
come with a timestamp, and field names are distinct property names that UTF-8
can carry. -/
structure DataSetMessageInRange (dsm : DataSetMessage) : Prop where
  valid : dsm.valid = .undefined ∨ ∃ b, dsm.valid = .bool b
  fieldEncoding : fieldEncodingOf dsm ≠ .rawdata
  sequenceNumber : Optional (IntegerIn 0 (256 ^ 2 - 1)) dsm.sequenceNumber
  status : Optional (IntegerIn 0 (256 ^ 2 - 1)) dsm.status
  major : Optional (IntegerIn 0 (256 ^ 4 - 1)) (majorOf dsm)
  minor : Optional (IntegerIn 0 (256 ^ 4 - 1)) (minorOf dsm)
  timestamp : Optional IsDate dsm.timestamp
  picoseconds : Optional (IntegerIn 0 (256 ^ 2 - 1)) dsm.picoseconds
  timed : dsm.picoseconds ≠ .undefined → IsDate dsm.timestamp
  names : ∀ e ∈ dsm.fields.getD [], plainKey e.1 = true ∧ Utf.wellFormed e.1 = true
  distinct : ((dsm.fields.getD []).map Prod.fst).Nodup
  fields : ∀ e ∈ dsm.fields.getD [], FieldInRange (fieldEncodingOf dsm) e.2

/-- The message as a decoder returns it, with `f` applied to every scalar: the
defaults are filled in and the members UADP does not carry are left out. -/
def DataSetMessage.map (f : BuiltInType → JsValue → JsValue) (dsm : DataSetMessage) :
    DataSetMessage where
  valid := .bool (decide (dsm.valid ≠ .bool false))
  fieldEncoding := some (fieldEncodingOf dsm)
  messageType := some (messageTypeOf dsm)
  sequenceNumber := unsignZero dsm.sequenceNumber
  status := unsignZero dsm.status
  configurationVersion := configurationVersionOf (decide (majorOf dsm ≠ .undefined))
    (decide (minorOf dsm ≠ .undefined)) (unsignZero (majorOf dsm)) (unsignZero (minorOf dsm))
  timestamp := dsm.timestamp
  picoseconds := unsignZero dsm.picoseconds
  fields :=
    if decide (messageTypeOf dsm ≠ .keepalive) then
      some ((dsm.fields.getD []).map fun e => (e.1, Field.map f (fieldEncodingOf dsm) e.2))
    else none

/-- The scalars on the wire; the fields of a KeepAlive are not. -/
def DataSetMessage.scalars (dsm : DataSetMessage) : List (BuiltInType × JsValue) :=
  if messageTypeOf dsm = .keepalive then []
  else (dsm.fields.getD []).flatMap fun e => Field.scalars e.2

theorem DataSetMessage.map_eq_iff {f g : BuiltInType → JsValue → JsValue}
    {dsm : DataSetMessage} : DataSetMessage.map f dsm = DataSetMessage.map g dsm ↔
      ∀ p ∈ DataSetMessage.scalars dsm, f p.1 p.2 = g p.1 p.2 := by
  unfold DataSetMessage.map DataSetMessage.scalars
  by_cases hk : messageTypeOf dsm = .keepalive
  · simp [hk]
  · simp only [hk, ne_eq, not_false_eq_true, decide_true, if_true, if_false, DataSetMessage.mk.injEq,
      true_and, Option.some.injEq, List.map_inj_left, Prod.mk.injEq, List.mem_flatMap]
    constructor
    · rintro h p ⟨e, he, hp⟩
      exact Field.map_eq_iff.mp (h e he) p hp
    · intro h e he
      exact Field.map_eq_iff.mpr fun p hp => h p ⟨e, he, hp⟩

theorem testBit_dsFlags1 (dsm : DataSetMessage) :
    (dsFlags1 dsm).testBit 0 = decide (dsm.valid ≠ .bool false) ∧
    dsFlags1 dsm / 2 % 4 = fieldEncodingBits (fieldEncodingOf dsm) ∧
    (dsFlags1 dsm).testBit 3 = decide (dsm.sequenceNumber ≠ .undefined) ∧
    (dsFlags1 dsm).testBit 4 = decide (dsm.status ≠ .undefined) ∧
    (dsFlags1 dsm).testBit 5 = decide (majorOf dsm ≠ .undefined) ∧
    (dsFlags1 dsm).testBit 6 = decide (minorOf dsm ≠ .undefined) ∧
    (dsFlags1 dsm).testBit 7 = decide (dsFlags2 dsm ≠ 0) := by
  unfold dsFlags1
  generalize decide (dsm.valid ≠ .bool false) = b0
  generalize decide (dsm.sequenceNumber ≠ .undefined) = b3
  generalize decide (dsm.status ≠ .undefined) = b4
  generalize decide (majorOf dsm ≠ .undefined) = b5
  generalize decide (minorOf dsm ≠ .undefined) = b6
  generalize decide (dsFlags2 dsm ≠ 0) = b7
  cases fieldEncodingOf dsm <;> revert b0 b3 b4 b5 b6 b7 <;> decide

theorem testBit_dsFlags2 (dsm : DataSetMessage) :
    dsFlags2 dsm % 16 = messageTypeBits (messageTypeOf dsm) ∧
    (dsFlags2 dsm).testBit 4 = dsm.timestamp.truthy ∧
    (dsFlags2 dsm).testBit 5 = (decide (dsm.picoseconds ≠ .undefined) && dsm.timestamp.truthy) := by
  unfold dsFlags2
  generalize decide (dsm.picoseconds ≠ .undefined) = b5
  generalize dsm.timestamp.truthy = b4
  cases messageTypeOf dsm <;> revert b4 b5 <;> decide

theorem fieldEncodingName_bits (e : FieldEncoding) :
    fieldEncodingName (fieldEncodingBits e) = e := by cases e <;> rfl

theorem messageTypeName_bits (t : MessageType) : messageTypeName (messageTypeBits t) = t := by
  cases t <;> rfl

/-- A flag byte that is left out reads as zero. -/
theorem encodes_flags {n : Nat} {present : Bool} (h : present = decide (n ≠ 0)) :
    Encodes (opt present (putUInt 1 n)) (readFlags present) n := by
  subst h
  by_cases hn : n = 0
  · subst hn
    exact Encodes.ok (Reads.pure 0)
  · simpa [opt, readFlags, hn] using encodes_putUInt 1 n

variable {host : Host}

theorem encodes_namedField {encoding : FieldEncoding} {e : JsString × Field}
    (hname : Utf.wellFormed e.1 = true) (h : FieldInRange encoding e.2) :
    Encodes (writeNamedField host encoding e) (readNamedField encoding)
      (e.1, Field.map wireScalar encoding e.2) := by
  refine Encodes.cons (encodes_putUInt 2 _) ?_
  refine Encodes.cons (Encodes.ok (reads_bytes (Utf.encode e.1))) ?_
  rw [Utf.decode_encode hname]
  exact Encodes.map (fun field => (e.1, field)) (Encodes.single (encodes_field h))

theorem encodes_fields {dsm : DataSetMessage} (h : DataSetMessageInRange dsm) :
    Encodes (writeFields host dsm) (readFields (fieldEncodingOf dsm))
      ((dsm.fields.getD []).map fun e => (e.1, Field.map wireScalar (fieldEncodingOf dsm) e.2)) := by
  refine Encodes.cons (encodes_putUInt 2 _) ?_
  have hmany := Encodes.many (w := writeNamedField host (fieldEncodingOf dsm)) fun e he =>
    encodes_namedField (h.names e he).2 (h.fields e he)
  have hr := Encodes.map Props.ofEntries (Encodes.single hmany)
  rwa [Props.ofEntries_eq] at hr
  · intro e he
    obtain ⟨e', he', rfl⟩ := List.mem_map.mp he
    exact (h.names e' he').1
  · simpa [List.map_map, Function.comp_def] using h.distinct

/-- The members around the fields are in range. -/
structure MembersInRange (dsm : DataSetMessage) : Prop where
  fieldEncoding : fieldEncodingOf dsm ≠ .rawdata
  sequenceNumber : Optional (IntegerIn 0 (256 ^ 2 - 1)) dsm.sequenceNumber
  status : Optional (IntegerIn 0 (256 ^ 2 - 1)) dsm.status
  major : Optional (IntegerIn 0 (256 ^ 4 - 1)) (majorOf dsm)
  minor : Optional (IntegerIn 0 (256 ^ 4 - 1)) (minorOf dsm)
  timestamp : Optional IsDate dsm.timestamp
  picoseconds : Optional (IntegerIn 0 (256 ^ 2 - 1)) dsm.picoseconds
  timed : dsm.picoseconds ≠ .undefined → IsDate dsm.timestamp

theorem DataSetMessageInRange.members {dsm : DataSetMessage} (h : DataSetMessageInRange dsm) :
    MembersInRange dsm :=
  ⟨h.fieldEncoding, h.sequenceNumber, h.status, h.major, h.minor, h.timestamp, h.picoseconds,
    h.timed⟩

theorem timed_picoseconds {dsm : DataSetMessage} (h : MembersInRange dsm) :
    (decide (dsm.picoseconds ≠ .undefined) && dsm.timestamp.truthy) =
      decide (dsm.picoseconds ≠ .undefined) := by
  by_cases hp : dsm.picoseconds = .undefined
  · simp [hp]
  · obtain ⟨ms, hms⟩ := h.timed hp
    simp [hp, hms, JsValue.truthy]

/-- The message a decoder returns around the fields it read. -/
def decodedMessage (dsm : DataSetMessage) (fields : Option (List (JsString × Field))) :
    DataSetMessage where
  valid := .bool (decide (dsm.valid ≠ .bool false))
  fieldEncoding := some (fieldEncodingOf dsm)
  messageType := some (messageTypeOf dsm)
  sequenceNumber := unsignZero dsm.sequenceNumber
  status := unsignZero dsm.status
  configurationVersion := configurationVersionOf (decide (majorOf dsm ≠ .undefined))
    (decide (minorOf dsm ≠ .undefined)) (unsignZero (majorOf dsm)) (unsignZero (minorOf dsm))
  timestamp := dsm.timestamp
  picoseconds := unsignZero dsm.picoseconds
  fields := fields

/-- A message is read back once its body is. -/
theorem encodes_dataSetMessage_of {dsm : DataSetMessage} (h : MembersInRange dsm)
    {body : Option (List (JsString × Field))}
    (hbody : Encodes (opt (decide (messageTypeOf dsm ≠ .keepalive)) (writeFields host dsm))
      (readBody (fieldEncodingOf dsm) (messageTypeOf dsm)) body) :
    Encodes (encodeDataSetMessage host dsm) readDataSetMessage (decodedMessage dsm body) := by
  obtain ⟨v0, enc, v3, v4, v5, v6, v7⟩ := testBit_dsFlags1 dsm
  obtain ⟨mt, t4, t5⟩ := testBit_dsFlags2 dsm
  have t5' := t5.trans (timed_picoseconds h)
  refine Encodes.cons (encodes_putUInt 1 _) ?_
  refine Encodes.cons (encodes_flags v7) ?_
  simp only [enc, mt, fieldEncodingName_bits, messageTypeName_bits]
  refine Encodes.cons (encodes_optionalUnsigned (by omega) v3 h.sequenceNumber) ?_
  refine Encodes.cons (encodes_optionalUnsigned (by omega) v4 h.status) ?_
  refine Encodes.cons (encodes_optionalUnsigned (by omega) v5 h.major) ?_
  refine Encodes.cons (encodes_optionalUnsigned (by omega) v6 h.minor) ?_
  refine Encodes.cons (encodes_optionalDate t4 h.timestamp) ?_
  refine Encodes.cons (encodes_optionalUnsigned (by omega) t5' h.picoseconds) ?_
  rw [if_neg h.fieldEncoding, v0, v5, v6]
  exact Encodes.map _ (Encodes.single hbody)

theorem encodes_body {dsm : DataSetMessage} (h : DataSetMessageInRange dsm) :
    Encodes (opt (decide (messageTypeOf dsm ≠ .keepalive)) (writeFields host dsm))
      (readBody (fieldEncodingOf dsm) (messageTypeOf dsm))
      (DataSetMessage.map wireScalar dsm).fields :=
  Encodes.opt fun _ => Encodes.map some (encodes_fields h)

/-- Whatever the encoder writes for a message in range, the decoder consumes
exactly. -/
theorem encodes_dataSetMessage {dsm : DataSetMessage} (h : DataSetMessageInRange dsm) :
    Encodes (encodeDataSetMessage host dsm) readDataSetMessage
      (DataSetMessage.map wireScalar dsm) :=
  encodes_dataSetMessage_of h.members (encodes_body h)

end OpcUaSuite.Uadp
