import OpcUaSuite.Lib.Traced
import OpcUaSuite.Uadp.NetworkMessage

/-!
# The decoder with its trace

The decoder once more, with every access to a buffer behind its own
`_ensureRead` and every element pushed to a list recorded. An access outside
the buffer raises the RangeError of Node. Forgetting the trace gives the
decoder back.
-/

namespace OpcUaSuite.Uadp.Trace

open Js ByteCodec BinaryFloat PubSub

abbrev Reader := ByteCodec.Traced UadpError

/-- The message of an error of `createError`. -/
def Announced (e : UadpError) : Prop := ∃ text, e.message = "UADP_" ++ text

theorem announced_of_start {e : UadpError} (start text rest : String)
    (h : e.message = start ++ rest) (hstart : start = "UADP_" ++ text) : Announced e :=
  ⟨text ++ rest, by rw [h, hstart, String.append_assoc]⟩

theorem announced_truncated (offset need left : Nat) :
    Announced (.decodeTruncated offset need left) := by
  apply announced_of_start "UADP_DECODE_TRUNCATED at offset " "DECODE_TRUNCATED at offset "
    s!"{offset} (need {need} bytes, have {left})" _ (by decide)
  unfold UadpError.message
  simp [toString, String.append_assoc]

theorem announced_unsupportedBuiltIn (n : Nat) :
    Announced (.variantUnsupportedBuiltinType (some n)) := by
  apply announced_of_start "UADP_VARIANT_UNSUPPORTED_BUILTIN_TYPE: "
    "VARIANT_UNSUPPORTED_BUILTIN_TYPE: " (toString n) _ (by decide)
  unfold UadpError.message
  simp [toString]

theorem announced_publisherIdType (n : Nat) : Announced (.decodeInvalidPublisherIdType n) := by
  apply announced_of_start "UADP_DECODE_INVALID_PUBLISHER_ID_TYPE: "
    "DECODE_INVALID_PUBLISHER_ID_TYPE: " (toString n) _ (by decide)
  unfold UadpError.message
  simp [toString]

theorem announced_version (n : Nat) : Announced (.decodeUnsupportedVersion n) := by
  apply announced_of_start "UADP_DECODE_UNSUPPORTED_VERSION: expected 1, got "
    "DECODE_UNSUPPORTED_VERSION: expected 1, got " (toString n) _ (by decide)
  unfold UadpError.message
  simp [toString]

theorem announced_rawdata : Announced .rawdataDecodeRequiresMetadata :=
  ⟨"RAWDATA_DECODE_REQUIRES_METADATA: external dataType info needed", by decide⟩

theorem announced_promotedFields : Announced .decodeNotYetImplemented :=
  ⟨"DECODE_NOT_YET_IMPLEMENTED: promotedFields decoding (Phase 3 concern)", by decide⟩

/-! ## The stream -/

/-- `_ensureRead(n)` -/
def ensureRead (n : Nat) : Reader Unit :=
  Traced.ensure (fun offset need left => .decodeTruncated offset need left) n

/-- A read method of the Node buffer at the cursor. -/
def rawRead (n : Nat) : Reader Bytes := Traced.access (.runtime .rangeError) n

def readBytes (n : Nat) : Reader Bytes := do
  ensureRead n
  rawRead n

def readUInt (k : Nat) : Reader Nat := do
  let bs ← readBytes k
  return ofLe bs

def readInt (k : Nat) : Reader Int := do
  let n ← readUInt k
  return ofTwos k n

def readNumber (k : Nat) : Reader JsValue := do
  let n ← readUInt k
  return .nat n

def readSigned (k : Nat) : Reader JsValue := do
  let i ← readInt k
  return .num (Double.ofInt i)

def readUInt64LE : Reader JsValue := do
  let n ← readUInt 8
  return .bigint n

def readBigInt64LE : Reader JsValue := do
  let i ← readInt 8
  return .bigint i

def readFloatLE : Reader JsValue := do
  let n ← readUInt 4
  return .num (Value.convert (Value.ofBits n : Single))

def readDoubleLE : Reader JsValue := do
  let n ← readUInt 8
  return .num (Value.ofBits n)

/-- A length and as many bytes; the null marker stands for null. -/
def readCounted (of : Bytes → JsValue) : Reader JsValue := do
  let len ← readUInt 4
  if len = nullLength then return .null
  else do
    let bs ← readBytes len
    return of bs

def readString : Reader JsValue := readCounted fun bs => .str (Utf.decode bs)

def readByteString : Reader JsValue := readCounted .buffer

def readGuid : Reader JsValue := do
  let d1 ← readUInt 4
  let d2 ← readUInt 2
  let d3 ← readUInt 2
  let d4a ← readBytes 2
  let d4b ← readBytes 6
  return .str (toUpper (hexDigits 8 d1 ++ [45] ++ hexDigits 4 d2 ++ [45] ++ hexDigits 4 d3 ++
    [45] ++ hexOfBytes d4a ++ [45] ++ hexOfBytes d4b))

def readDateTime : Reader JsValue := do
  let ticks ← readUInt 8
  return .date (some ((ticks : Int) / datetimeTicksPerMs - filetimeEpochOffsetMs))

/-! ## Variants and DataValues -/

def readBoolean : Reader JsValue := do
  let n ← readUInt 1
  return .bool (decide (n ≠ 0))

def readScalar : BuiltInType → Reader JsValue
  | .Boolean => readBoolean
  | .SByte => readSigned 1
  | .Byte => readNumber 1
  | .Int16 => readSigned 2
  | .UInt16 => readNumber 2
  | .Int32 => readSigned 4
  | .UInt32 => readNumber 4
  | .Int64 => readBigInt64LE
  | .UInt64 => readUInt64LE
  | .Float => readFloatLE
  | .Double => readDoubleLE
  | .String => readString
  | .DateTime => readDateTime
  | .Guid => readGuid
  | .ByteString => readByteString
  | .StatusCode => readNumber 4

/-- `_readVariantScalar` -/
def readVariantScalar (builtIn : Nat) : Reader JsValue :=
  match BuiltInType.ofOrdinal? builtIn with
  | some t => readScalar t
  | none => Traced.fail fun _ => .variantUnsupportedBuiltinType (some builtIn)

def readCount : Reader Nat := do
  let i ← readInt 4
  return i.toNat

def readDimensions (hasDims : Bool) : Reader (Option (List Int)) :=
  if hasDims then do
    let dimCount ← readCount
    let dims ← Traced.many (readInt 4) dimCount
    return some dims
  else return none

def readVariantValue (builtIn : Nat) (isArray : Bool) : Reader JsValue :=
  if isArray then do
    let len ← readCount
    let items ← Traced.many (readVariantScalar builtIn) len
    return .array items
  else readVariantScalar builtIn

/-- `_readVariant` -/
def readVariant : Reader (Option Variant) := do
  let encodingByte ← readUInt 1
  if encodingByte = 0 then return none
  else do
    let builtIn := encodingByte % 64
    let value ← readVariantValue builtIn (encodingByte.testBit 6)
    let dimensions ← readDimensions (encodingByte.testBit 7)
    return some ⟨.ordinal builtIn, value, dimensions⟩

def readMember (present : Bool) (r : Reader JsValue) : Reader JsValue :=
  if present then r else pure .undefined

def readMemberValue (present : Bool) : Reader (Option (Option Variant)) :=
  if present then do
    let v ← readVariant
    return some v
  else pure none

/-- `_readDataValue` -/
def readDataValue : Reader DataValue := do
  let mask ← readUInt 1
  let value ← readMemberValue (mask.testBit 0)
  let statusCode ← readMember (mask.testBit 1) (readNumber 4)
  let sourceTimestamp ← readMember (mask.testBit 2) readDateTime
  let serverTimestamp ← readMember (mask.testBit 3) readDateTime
  let sourcePicoseconds ← readMember (mask.testBit 4) (readNumber 2)
  let serverPicoseconds ← readMember (mask.testBit 5) (readNumber 2)
  return ⟨value, statusCode, sourceTimestamp, serverTimestamp, sourcePicoseconds,
    serverPicoseconds⟩

def readField (encoding : FieldEncoding) : Reader Field :=
  match encoding with
  | .variant => do
      let v ← readVariant
      return Field.ofVariant v
  | .datavalue => do
      let dv ← readDataValue
      return .dataValue dv
  | .rawdata => Traced.fail fun _ => .rawdataDecodeRequiresMetadata

/-! ## Messages -/

def readNamedField (encoding : FieldEncoding) : Reader (JsString × Field) := do
  let nameLen ← readUInt 2
  let name ← readBytes nameLen
  let field ← readField encoding
  return (Utf.decode name, field)

def readFields (encoding : FieldEncoding) : Reader (List (JsString × Field)) := do
  let count ← readUInt 2
  let entries ← Traced.many (readNamedField encoding) count
  return Props.ofEntries entries

def readFlags (present : Bool) : Reader Nat := if present then readUInt 1 else pure 0

def readBody (encoding : FieldEncoding) (messageType : MessageType) :
    Reader (Option (List (JsString × Field))) :=
  if decide (messageType ≠ .keepalive) then do
    let fields ← readFields encoding
    return some fields
  else pure none

/-- `decodeDataSetMessage`, from an open stream. -/
def readDataSetMessage : Reader DataSetMessage := do
  let flags1 ← readUInt 1
  let flags2 ← readFlags (flags1.testBit 7)
  let fieldEncoding := fieldEncodingName (flags1 / 2 % 4)
  let messageType := messageTypeName (flags2 % 16)
  let sequenceNumber ← readMember (flags1.testBit 3) (readNumber 2)
  let status ← readMember (flags1.testBit 4) (readNumber 2)
  let major ← readMember (flags1.testBit 5) (readNumber 4)
  let minor ← readMember (flags1.testBit 6) (readNumber 4)
  let timestamp ← readMember (flags2.testBit 4) readDateTime
  let picoseconds ← readMember (flags2.testBit 5) (readNumber 2)
  if fieldEncoding = .rawdata then
    Traced.fail fun _ => .rawdataDecodeRequiresMetadata
  else do
    let fields ← readBody fieldEncoding messageType
    return {
      valid := .bool (flags1.testBit 0)
      fieldEncoding := some fieldEncoding
      messageType := some messageType
      sequenceNumber := sequenceNumber
      status := status
      configurationVersion :=
        configurationVersionOf (flags1.testBit 5) (flags1.testBit 6) major minor
      timestamp := timestamp
      picoseconds := picoseconds
      fields := fields }

/-- `_readPublisherId` -/
def readPublisherId (typeBits : Nat) : Reader JsValue :=
  match typeBits with
  | 0 => readNumber 1
  | 1 => readNumber 2
  | 2 => readNumber 4
  | 3 => readUInt64LE
  | 4 => readString
  | _ => Traced.fail fun _ => .decodeInvalidPublisherIdType typeBits

def readGroupHeader : Reader GroupHeader := do
  let writerGroupId ← readNumber 2
  let groupVersion ← readNumber 4
  let networkMessageNumber ← readNumber 2
  let sequenceNumber ← readNumber 2
  return ⟨writerGroupId, groupVersion, networkMessageNumber, sequenceNumber⟩

def readOptionalGroupHeader (present : Bool) : Reader (Option GroupHeader) :=
  if present then do
    let gh ← readGroupHeader
    return some gh
  else pure none

def readPayloadHeader (present : Bool) : Reader (Option (List JsValue)) :=
  if present then do
    let count ← readUInt 1
    let ids ← Traced.many (readNumber 2) count
    return some ids
  else pure none

def readChunk : Reader Chunk := do
  let messageSequenceNumber ← readUInt 2
  let chunkOffset ← readUInt 4
  let totalSize ← readUInt 4
  let chunkDataLen ← readUInt 4
  let chunkData ← readBytes chunkDataLen
  return ⟨messageSequenceNumber, chunkOffset, totalSize, chunkData⟩

def readSized (size : Nat) : Reader DataSetMessage := do
  let bytes ← readBytes size
  Traced.nested readDataSetMessage bytes

def readSizedAll : List Nat → Reader (List DataSetMessage)
  | [] => pure []
  | size :: sizes => do
      let dsm ← readSized size
      let dsms ← readSizedAll sizes
      return dsm :: dsms

def readLast : Reader (List DataSetMessage) := do
  let remaining ← Traced.remaining
  if remaining > 0 then do
    let dsm ← readDataSetMessage
    return [dsm]
  else return []

def readPayload (count : Nat) : Reader (List DataSetMessage) :=
  if count > 1 then do
    let sizes ← Traced.many (readUInt 2) count
    readSizedAll sizes
  else readLast

def readHeader : Reader (NetworkMessage × Nat) := do
  let uadpFlags ← readUInt 1
  if uadpFlags % 16 ≠ 1 then
    Traced.fail fun _ => .decodeUnsupportedVersion (uadpFlags % 16)
  else do
    let extFlags1 ← readFlags (uadpFlags.testBit 7)
    let extFlags2 ← readFlags (extFlags1.testBit 7)
    let publisherId ← readMember (uadpFlags.testBit 4) (readPublisherId (extFlags1 % 8))
    let dataSetClassId ← readMember (extFlags1.testBit 3) readGuid
    let groupHeader ← readOptionalGroupHeader (uadpFlags.testBit 5)
    let payloadHeader ← readPayloadHeader (uadpFlags.testBit 6)
    let timestamp ← readMember (extFlags1.testBit 5) readDateTime
    let picoseconds ← readMember (extFlags1.testBit 6) (readNumber 2)
    return ({ publisherId, dataSetClassId, groupHeader, payloadHeader, timestamp, picoseconds },
      extFlags2)

def readNetworkMessage : Reader NetworkMessage := do
  let (nm, extFlags2) ← readHeader
  if extFlags2.testBit 1 then Traced.fail fun _ => .decodeNotYetImplemented
  else if extFlags2.testBit 0 then do
    let chunk ← readChunk
    return { nm with chunk := some chunk, payload := [] }
  else do
    let payload ← readPayload (dataSetWriterIds nm).length
    return { nm with payload := payload }

/-! ## Forgetting the trace -/

theorem erase_bytes (n : Nat) : (readBytes n).erase = Uadp.readBytes n :=
  Traced.erase_guarded _ _ n

theorem erase_uint (k : Nat) : (readUInt k).erase = Uadp.readUInt k := by
  simp only [readUInt, Uadp.readUInt, Traced.erase_bind, Traced.erase_pure, erase_bytes]

theorem erase_int (k : Nat) : (readInt k).erase = Uadp.readInt k := by
  simp only [readInt, Uadp.readInt, Traced.erase_bind, Traced.erase_pure, erase_uint]

theorem erase_number (k : Nat) : (readNumber k).erase = Uadp.readNumber k := by
  simp only [readNumber, Uadp.readNumber, Traced.erase_bind, Traced.erase_pure, erase_uint]

theorem erase_string : readString.erase = Uadp.readString := by
  simp only [readString, readCounted, Uadp.readString, Traced.erase_bind, Traced.erase_ite,
    Traced.erase_pure, erase_uint, erase_bytes]

theorem erase_byteString : readByteString.erase = Uadp.readByteString := by
  simp only [readByteString, readCounted, Uadp.readByteString, Traced.erase_bind, Traced.erase_ite,
    Traced.erase_pure, erase_uint, erase_bytes]

theorem erase_guid : readGuid.erase = Uadp.readGuid := by
  simp only [readGuid, Uadp.readGuid, Traced.erase_bind, Traced.erase_pure, erase_uint, erase_bytes]

theorem erase_dateTime : readDateTime.erase = Uadp.readDateTime := by
  simp only [readDateTime, Uadp.readDateTime, Traced.erase_bind, Traced.erase_pure, erase_uint]

theorem erase_uint64 : readUInt64LE.erase = Uadp.readUInt64LE := by
  simp only [readUInt64LE, Uadp.readUInt64LE, Traced.erase_bind, Traced.erase_pure, erase_uint]

theorem erase_scalar (t : BuiltInType) : (readScalar t).erase = Uadp.readScalar t := by
  cases t <;>
    simp only [readScalar, Uadp.readScalar, readBoolean, Uadp.readBoolean, readSigned,
      Uadp.readSigned, readBigInt64LE, Uadp.readBigInt64LE, readFloatLE, Uadp.readFloatLE,
      readDoubleLE, Uadp.readDoubleLE, Traced.erase_bind, Traced.erase_pure, erase_uint, erase_int,
      erase_number, erase_string, erase_byteString, erase_guid, erase_dateTime, erase_uint64]

theorem erase_variantScalar (builtIn : Nat) :
    (readVariantScalar builtIn).erase = Uadp.readVariantScalar builtIn := by
  unfold readVariantScalar Uadp.readVariantScalar
  cases BuiltInType.ofOrdinal? builtIn with
  | some t => exact erase_scalar t
  | none => rfl

theorem erase_count : readCount.erase = Uadp.readCount := by
  simp only [readCount, Uadp.readCount, Traced.erase_bind, Traced.erase_pure, erase_int]

theorem erase_variant : readVariant.erase = Uadp.readVariant := by
  simp only [readVariant, Uadp.readVariant, readVariantValue, Uadp.readVariantValue,
    readDimensions, Uadp.readDimensions, Traced.erase_bind, Traced.erase_ite, Traced.erase_pure,
    Traced.erase_many, erase_uint, erase_int, erase_count, erase_variantScalar]

theorem erase_member {present : Bool} {t : Reader JsValue} {r : Uadp.Reader JsValue}
    (h : t.erase = r) : (readMember present t).erase = Uadp.readMember present r := by
  simp only [readMember, Uadp.readMember, Traced.erase_ite, Traced.erase_pure, h]

theorem erase_dataValue : readDataValue.erase = Uadp.readDataValue := by
  simp only [readDataValue, Uadp.readDataValue, readMemberValue, Uadp.readMemberValue,
    Traced.erase_bind, Traced.erase_ite, Traced.erase_pure, erase_uint, erase_variant,
    erase_member (erase_number _), erase_member erase_dateTime]

theorem erase_field (encoding : FieldEncoding) :
    (readField encoding).erase = Uadp.readField encoding := by
  cases encoding with
  | variant =>
      simp only [readField, Uadp.readField, readVariantField, Traced.erase_bind, Traced.erase_pure,
        erase_variant]
  | datavalue =>
      simp only [readField, Uadp.readField, readDataValueField, Traced.erase_bind,
        Traced.erase_pure, erase_dataValue]
  | rawdata => rfl

theorem erase_namedField (encoding : FieldEncoding) :
    (readNamedField encoding).erase = Uadp.readNamedField encoding := by
  simp only [readNamedField, Uadp.readNamedField, Traced.erase_bind, Traced.erase_pure, erase_uint,
    erase_bytes, erase_field]

theorem erase_flags (present : Bool) : (readFlags present).erase = Uadp.readFlags present := by
  simp only [readFlags, Uadp.readFlags, Traced.erase_ite, Traced.erase_pure, erase_uint]

theorem erase_body (encoding : FieldEncoding) (messageType : MessageType) :
    (readBody encoding messageType).erase = Uadp.readBody encoding messageType := by
  simp only [readBody, Uadp.readBody, readFields, Uadp.readFields, Traced.erase_ite,
    Traced.erase_bind, Traced.erase_pure, Traced.erase_many, erase_uint, erase_namedField]

theorem erase_dataSetMessage : readDataSetMessage.erase = Uadp.readDataSetMessage := by
  simp only [readDataSetMessage, Uadp.readDataSetMessage, Traced.erase_bind, Traced.erase_ite,
    Traced.erase_pure, Traced.erase_fail, erase_uint, erase_flags, erase_body,
    erase_member (erase_number _), erase_member erase_dateTime]

theorem erase_publisherId (typeBits : Nat) :
    (readPublisherId typeBits).erase = Uadp.readPublisherId typeBits := by
  unfold readPublisherId Uadp.readPublisherId
  split <;> simp only [erase_number, erase_uint64, erase_string, Traced.erase_fail]

theorem erase_groupHeader (present : Bool) :
    (readOptionalGroupHeader present).erase = Uadp.readOptionalGroupHeader present := by
  simp only [readOptionalGroupHeader, Uadp.readOptionalGroupHeader, readGroupHeader,
    Uadp.readGroupHeader, Traced.erase_ite, Traced.erase_bind, Traced.erase_pure, erase_number]

theorem erase_payloadHeader (present : Bool) :
    (readPayloadHeader present).erase = Uadp.readPayloadHeader present := by
  simp only [readPayloadHeader, Uadp.readPayloadHeader, Traced.erase_ite, Traced.erase_bind,
    Traced.erase_pure, Traced.erase_many, erase_uint, erase_number]

theorem erase_header : readHeader.erase = Uadp.readHeader := by
  simp only [readHeader, Uadp.readHeader, Traced.erase_bind, Traced.erase_ite, Traced.erase_pure,
    Traced.erase_fail, erase_uint, erase_flags, erase_member (erase_publisherId _),
    erase_member erase_guid, erase_groupHeader, erase_payloadHeader,
    erase_member erase_dateTime, erase_member (erase_number _)]

theorem erase_chunk : readChunk.erase = Uadp.readChunk := by
  simp only [readChunk, Uadp.readChunk, Traced.erase_bind, Traced.erase_pure, erase_uint,
    erase_bytes]

theorem erase_sized (size : Nat) : (readSized size).erase = Uadp.readSized size := by
  funext c
  have hinner := congrFun erase_dataSetMessage
  unfold Traced.erase at hinner
  simp only [readSized, Uadp.readSized, Traced.erase_bind, erase_bytes]
  rw [ByteCodec.Reader.bind_apply, ByteCodec.Reader.bind_apply]
  rcases Uadp.readBytes size c with e | ⟨bs, c'⟩
  · rfl
  · simp only [Traced.nested, Traced.erase, hinner, decodeDataSetMessage, ByteCodec.Reader.run]
    rcases Uadp.readDataSetMessage ⟨0, bs⟩ with e | ⟨dsm, d⟩ <;> rfl

theorem erase_sizedAll (sizes : List Nat) :
    (readSizedAll sizes).erase = Uadp.readSizedAll sizes := by
  induction sizes with
  | nil => rfl
  | cons size sizes ih =>
      simp only [readSizedAll, Uadp.readSizedAll, Traced.erase_bind, Traced.erase_pure, erase_sized,
        ih]

theorem erase_payload (count : Nat) : (readPayload count).erase = Uadp.readPayload count := by
  simp only [readPayload, Uadp.readPayload, readLast, Uadp.readLast, Traced.erase_ite,
    Traced.erase_bind, Traced.erase_pure, Traced.erase_many, Traced.erase_remaining, erase_uint,
    erase_sizedAll, erase_dataSetMessage]

/-- The traced decoder is the decoder. -/
theorem erase_networkMessage : readNetworkMessage.erase = Uadp.readNetworkMessage := by
  simp only [readNetworkMessage, Uadp.readNetworkMessage, Traced.erase_bind, Traced.erase_ite,
    Traced.erase_pure, Traced.erase_fail, erase_header, erase_chunk, erase_payload]

/-! ## Containment -/

/-- The part reads inside its buffer, puts no more elements into lists than the
bytes it takes, `slack` of them apart, and throws announced errors only. -/
abbrev Contained {α : Type} (t : Reader α) (slack : Nat) : Prop :=
  Traced.Contained Announced t slack

theorem contained_bytes (n : Nat) : Contained (readBytes n) n :=
  Traced.Contained.guarded announced_truncated _ n

theorem contained_uint (k : Nat) : Contained (readUInt k) k := (contained_bytes k).map

theorem contained_int (k : Nat) : Contained (readInt k) k := (contained_uint k).map

theorem contained_number (k : Nat) : Contained (readNumber k) k := (contained_uint k).map

theorem contained_counted (of : Bytes → JsValue) : Contained (readCounted of) 4 :=
  (contained_uint 4).bind (l := 0) fun _ =>
    Traced.Contained.ite (fun _ => Traced.Contained.pure _)
      fun _ => ((contained_bytes _).weaken (Nat.zero_le _)).map

theorem contained_guid : Contained readGuid 16 :=
  (contained_uint 4).bind (l := 12) fun _ =>
    (contained_uint 2).bind (l := 10) fun _ =>
      (contained_uint 2).bind (l := 8) fun _ =>
        (contained_bytes 2).bind (l := 6) fun _ => (contained_bytes 6).map

theorem contained_dateTime : Contained readDateTime 8 := (contained_uint 8).map

/-- Every scalar takes a byte at least. -/
theorem contained_scalar (t : BuiltInType) : Contained (readScalar t) 1 := by
  cases t with
  | Boolean => exact (contained_uint 1).map
  | SByte => exact (contained_int 1).map
  | Byte => exact contained_number 1
  | Int16 => exact (contained_int 2).map.weaken (by decide)
  | UInt16 => exact (contained_number 2).weaken (by decide)
  | Int32 => exact (contained_int 4).map.weaken (by decide)
  | UInt32 => exact (contained_number 4).weaken (by decide)
  | Int64 => exact (contained_int 8).map.weaken (by decide)
  | UInt64 => exact (contained_uint 8).map.weaken (by decide)
  | Float => exact (contained_uint 4).map.weaken (by decide)
  | Double => exact (contained_uint 8).map.weaken (by decide)
  | String => exact (contained_counted _).weaken (by decide)
  | DateTime => exact contained_dateTime.weaken (by decide)
  | Guid => exact contained_guid.weaken (by decide)
  | ByteString => exact (contained_counted _).weaken (by decide)
  | StatusCode => exact (contained_number 4).weaken (by decide)

theorem contained_variantScalar (builtIn : Nat) : Contained (readVariantScalar builtIn) 1 := by
  unfold readVariantScalar
  cases BuiltInType.ofOrdinal? builtIn with
  | some t => exact contained_scalar t
  | none => exact Traced.Contained.fail (fun _ => announced_unsupportedBuiltIn builtIn) 1

theorem contained_count : Contained readCount 0 := (contained_int 4).map.weaken (by decide)

/-- A count of any value is followed by as many elements as there are bytes for. -/
theorem contained_dimensions (hasDims : Bool) : Contained (readDimensions hasDims) 0 := by
  apply Traced.Contained.ite
  · intro _
    apply contained_count.bind (l := 0)
    intro dimCount
    exact (Traced.Contained.many ((contained_int 4).weaken (by decide)) dimCount).map
  · intro _
    exact Traced.Contained.pure none

theorem contained_variantValue (builtIn : Nat) (isArray : Bool) :
    Contained (readVariantValue builtIn isArray) 0 := by
  apply Traced.Contained.ite
  · intro _
    apply contained_count.bind (l := 0)
    intro len
    exact (Traced.Contained.many (contained_variantScalar builtIn) len).map
  · intro _
    exact (contained_variantScalar builtIn).weaken (by decide)

theorem contained_variant : Contained readVariant 1 := by
  apply (contained_uint 1).bind (l := 0)
  intro encodingByte
  apply Traced.Contained.ite
  · intro _
    exact Traced.Contained.pure none
  · intro _
    exact (contained_variantValue _ _).bind (l := 0) fun value => (contained_dimensions _).map

theorem contained_member {t : Reader JsValue} {k : Nat} (present : Bool) (h : Contained t k) :
    Contained (readMember present t) 0 :=
  Traced.Contained.ite (fun _ => h.weaken (Nat.zero_le k)) fun _ => Traced.Contained.pure _

theorem contained_memberValue (present : Bool) : Contained (readMemberValue present) 0 :=
  Traced.Contained.ite (fun _ => (contained_variant.weaken (by decide)).map)
    fun _ => Traced.Contained.pure _

theorem contained_dataValue : Contained readDataValue 1 :=
  (contained_uint 1).bind (l := 0) fun _ =>
    (contained_memberValue _).bind (l := 0) fun _ =>
      (contained_member _ (contained_number 4)).bind (l := 0) fun _ =>
        (contained_member _ contained_dateTime).bind (l := 0) fun _ =>
          (contained_member _ contained_dateTime).bind (l := 0) fun _ =>
            (contained_member _ (contained_number 2)).bind (l := 0) fun _ =>
              (contained_member _ (contained_number 2)).map

theorem contained_field (encoding : FieldEncoding) : Contained (readField encoding) 1 := by
  cases encoding with
  | variant => exact contained_variant.map
  | datavalue => exact contained_dataValue.map
  | rawdata => exact Traced.Contained.fail (fun _ => announced_rawdata) 1

/-- The length of its name pays for a field, also when the name is empty. -/
theorem contained_namedField (encoding : FieldEncoding) :
    Contained (readNamedField encoding) 1 :=
  ((contained_uint 2).weaken (by decide)).bind (k := 1) (l := 0) fun nameLen =>
    ((contained_bytes nameLen).weaken (Nat.zero_le _)).bind (k := 0) (l := 0) fun _ =>
      ((contained_field encoding).weaken (by decide)).map

theorem contained_body (encoding : FieldEncoding) (messageType : MessageType) :
    Contained (readBody encoding messageType) 0 := by
  have hfields : Contained (readFields encoding) 0 :=
    ((contained_uint 2).weaken (by decide)).bind (k := 0) (l := 0) fun count =>
      (Traced.Contained.many (contained_namedField encoding) count).map
  exact Traced.Contained.ite (fun _ => hfields.map) fun _ => Traced.Contained.pure none

theorem contained_flags (present : Bool) : Contained (readFlags present) 0 :=
  Traced.Contained.ite (fun _ => (contained_uint 1).weaken (by decide))
    fun _ => Traced.Contained.pure 0

theorem contained_dataSetMessage : Contained readDataSetMessage 0 := by
  apply ((contained_uint 1).weaken (by decide)).bind (k := 0) (l := 0)
  intro flags1
  apply (contained_flags _).bind (l := 0)
  intro flags2
  apply (contained_member _ (contained_number 2)).bind (l := 0)
  intro sequenceNumber
  apply (contained_member _ (contained_number 2)).bind (l := 0)
  intro status
  apply (contained_member _ (contained_number 4)).bind (l := 0)
  intro major
  apply (contained_member _ (contained_number 4)).bind (l := 0)
  intro minor
  apply (contained_member _ contained_dateTime).bind (l := 0)
  intro timestamp
  apply (contained_member _ (contained_number 2)).bind (l := 0)
  intro picoseconds
  apply Traced.Contained.ite
  · intro _
    exact Traced.Contained.fail (fun _ => announced_rawdata) 0
  · intro _
    exact (contained_body _ _).map

theorem contained_publisherId (typeBits : Nat) : Contained (readPublisherId typeBits) 0 := by
  unfold readPublisherId
  split
  · exact (contained_number 1).weaken (by decide)
  · exact (contained_number 2).weaken (by decide)
  · exact (contained_number 4).weaken (by decide)
  · exact (contained_uint 8).map.weaken (by decide)
  · exact (contained_counted _).weaken (by decide)
  · exact Traced.Contained.fail (fun _ => announced_publisherIdType typeBits) 0

theorem contained_groupHeader (present : Bool) :
    Contained (readOptionalGroupHeader present) 0 := by
  have hgroup : Contained readGroupHeader 10 :=
    (contained_number 2).bind (l := 8) fun _ =>
      (contained_number 4).bind (l := 4) fun _ =>
        (contained_number 2).bind (l := 2) fun _ => (contained_number 2).map
  exact Traced.Contained.ite (fun _ => (hgroup.weaken (by decide)).map)
    fun _ => Traced.Contained.pure none

theorem contained_payloadHeader (present : Bool) : Contained (readPayloadHeader present) 0 := by
  apply Traced.Contained.ite
  · intro _
    apply ((contained_uint 1).weaken (by decide)).bind (k := 0) (l := 0)
    intro count
    exact (Traced.Contained.many ((contained_number 2).weaken (by decide)) count).map
  · intro _
    exact Traced.Contained.pure none

theorem contained_chunk : Contained readChunk 0 :=
  ((contained_uint 2).weaken (by decide)).bind (k := 0) (l := 0) fun _ =>
    ((contained_uint 4).weaken (by decide)).bind (k := 0) (l := 0) fun _ =>
      ((contained_uint 4).weaken (by decide)).bind (k := 0) (l := 0) fun _ =>
        ((contained_uint 4).weaken (by decide)).bind (k := 0) (l := 0) fun len =>
          ((contained_bytes len).weaken (Nat.zero_le _)).map

theorem contained_sizedAll (sizes : List Nat) : Contained (readSizedAll sizes) 0 := by
  induction sizes with
  | nil => exact Traced.Contained.pure []
  | cons size sizes ih =>
      have hsized : Contained (readSized size) 0 :=
        Traced.Contained.nested announced_truncated contained_dataSetMessage size
      exact hsized.bind (l := 0) fun dsm => ih.map

theorem contained_payload (count : Nat) : Contained (readPayload count) 0 := by
  apply Traced.Contained.ite
  · intro _
    exact (Traced.Contained.many ((contained_uint 2).weaken (by decide)) count).bind (l := 0)
      fun sizes => contained_sizedAll sizes
  · intro _
    apply Traced.Contained.remaining.bind (l := 0)
    intro remaining
    exact Traced.Contained.ite (fun _ => contained_dataSetMessage.map)
      fun _ => Traced.Contained.pure []

theorem contained_header : Contained readHeader 0 := by
  apply ((contained_uint 1).weaken (by decide)).bind (k := 0) (l := 0)
  intro uadpFlags
  apply Traced.Contained.ite
  · intro _
    exact Traced.Contained.fail (fun _ => announced_version _) 0
  · intro _
    apply (contained_flags _).bind (l := 0)
    intro extFlags1
    apply (contained_flags _).bind (l := 0)
    intro extFlags2
    apply (contained_member _ (contained_publisherId _)).bind (l := 0)
    intro publisherId
    apply (contained_member _ contained_guid).bind (l := 0)
    intro dataSetClassId
    apply (contained_groupHeader _).bind (l := 0)
    intro groupHeader
    apply (contained_payloadHeader _).bind (l := 0)
    intro payloadHeader
    apply (contained_member _ contained_dateTime).bind (l := 0)
    intro timestamp
    exact (contained_member _ (contained_number 2)).map

theorem contained_networkMessage : Contained readNetworkMessage 0 := by
  apply contained_header.bind (l := 0)
  rintro ⟨nm, extFlags2⟩
  apply Traced.Contained.ite
  · intro _
    exact Traced.Contained.fail (fun _ => announced_promotedFields) 0
  · intro _
    apply Traced.Contained.ite
    · intro _
      exact contained_chunk.map
    · intro _
      exact (contained_payload _).map

/-- The events of a decoder run on a buffer. -/
def events (buffer : Bytes) : List Event := (readNetworkMessage ⟨0, buffer⟩).1

/-- For every buffer the decoder returns a model or throws an announced error,
reads inside the buffers it is given only, and puts at most as many elements
into lists as the buffer has bytes. -/
theorem decoder_contained (buffer : Bytes) :
    readNetworkMessage.erase.run buffer = decodeNetworkMessage buffer ∧
      (∀ e, decodeNetworkMessage buffer = .error e → Announced e) ∧
      (∀ e ∈ events buffer, e.inside) ∧ pushes (events buffer) ≤ buffer.length := by
  have herase : readNetworkMessage.erase.run buffer = decodeNetworkMessage buffer := by
    rw [erase_networkMessage, decodeNetworkMessage]
  have hcontained := contained_networkMessage
  refine ⟨herase, ?_, hcontained.inside ⟨0, buffer⟩, ?_⟩
  · intro e he
    rw [← herase, ByteCodec.Reader.run] at he
    have herror := hcontained.error ⟨0, buffer⟩
    unfold Traced.erase at he
    rcases hrun : (readNetworkMessage ⟨0, buffer⟩).2 with e' | ⟨nm, c⟩ <;> rw [hrun] at he
    · cases he
      exact (herror e hrun).1
    · cases he
  · unfold events
    rcases hrun : (readNetworkMessage ⟨0, buffer⟩).2 with e | ⟨nm, c⟩
    · exact (hcontained.error _ _ hrun).2
    · obtain ⟨-, hpaid⟩ := hcontained.ok _ _ _ hrun
      dsimp only at hpaid
      omega

end OpcUaSuite.Uadp.Trace
