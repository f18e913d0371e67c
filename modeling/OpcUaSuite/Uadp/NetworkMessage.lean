import OpcUaSuite.Uadp.DataSetMessage
import OpcUaSuite.Lib.Tiling

/-!
# The NetworkMessage codec

`encodeNetworkMessage` and `decodeNetworkMessage`, with the cascade of flag
bytes, the header fields, the size array and the chunks that replace a message
longer than the MTU.
-/

namespace OpcUaSuite.Uadp

open Js ByteCodec BinaryFloat PubSub

/-! ## Flags -/

/-- `_publisherIdTypeBits` -/
def publisherIdTypeBits : JsValue → Except UadpError Nat
  | .str _ => .ok 4
  | .bigint _ => .ok 3
  | .num d =>
      if !d.isInteger || d.ltInt 0 then .error (.encodeInvalidPublisherId d)
      else if !d.gtInt 0xff then .ok 0
      else if !d.gtInt 0xffff then .ok 1
      else if !d.gtInt 0xffffffff then .ok 2
      else .error (.encodePublisherIdTooLarge d)
  | v => .error (.encodePublisherIdType v)

variable (host : Host)

/-- `_writePublisherId` -/
def writePublisherId (value : JsValue) (typeBits : Nat) : Writer :=
  match typeBits with
  | 0 => writeUInt8 host value
  | 1 => writeUInt16LE host value
  | 2 => writeUInt32LE host value
  | 3 => writeUInt64LE host value
  | 4 => writeString host value
  | _ => .ok []

/-- `_readPublisherId` -/
def readPublisherId (typeBits : Nat) : Reader JsValue :=
  match typeBits with
  | 0 => readNumber 1
  | 1 => readNumber 2
  | 2 => readNumber 4
  | 3 => readUInt64LE
  | 4 => readString
  | _ => ByteCodec.Reader.fail fun _ => .decodeInvalidPublisherIdType typeBits

/-- `_buildExtendedFlags2` -/
def buildExtendedFlags2 (nm : NetworkMessage) : Nat :=
  Flags.bit 0 nm.chunk.isSome ||| Flags.bit 1 nm.promotedFields.truthy

/-- Bits 0 to 2 of ExtendedFlags1, zero without a publisher. -/
def typeBitsOf (nm : NetworkMessage) : Except UadpError Nat :=
  if nm.publisherId = .undefined then .ok 0 else publisherIdTypeBits nm.publisherId

def extendedFlags1 (nm : NetworkMessage) (typeBits extFlags2 : Nat) : Nat :=
  typeBits |||
  Flags.bit 3 nm.dataSetClassId.truthy |||
  Flags.bit 5 nm.timestamp.truthy |||
  Flags.bit 6 (decide (nm.picoseconds ≠ .undefined) && nm.timestamp.truthy) |||
  Flags.bit 7 (decide (extFlags2 ≠ 0))

/-- `_buildExtendedFlags1` -/
def buildExtendedFlags1 (nm : NetworkMessage) (extFlags2 : Nat) : Except UadpError Nat := do
  let typeBits ← typeBitsOf nm
  return extendedFlags1 nm typeBits extFlags2

def dataSetWriterIds (nm : NetworkMessage) : List JsValue := nm.payloadHeader.getD []

/-- `_buildUADPFlags` -/
def buildUADPFlags (nm : NetworkMessage) (extFlags1 : Nat) : Nat :=
  1 |||
  Flags.bit 4 (decide (nm.publisherId ≠ .undefined)) |||
  Flags.bit 5 nm.groupHeader.isSome |||
  Flags.bit 6 (decide (dataSetWriterIds nm ≠ [])) |||
  Flags.bit 7 (decide (extFlags1 ≠ 0))

/-! ## Header -/

/-- The `v || 0` default of a number. -/
def orZero (v : JsValue) : JsValue := if v.truthy then v else .num Double.zero

def writeGroupHeader (gh : GroupHeader) : Writer :=
  cat [writeUInt16LE host gh.writerGroupId, writeUInt32LE host (orZero gh.groupVersion),
    writeUInt16LE host (orZero gh.networkMessageNumber), writeUInt16LE host gh.sequenceNumber]

def writePayloadHeader (ids : List JsValue) : Writer :=
  cat [putUInt 1 ids.length, cat (ids.map (writeUInt16LE host))]

/-- `_writeNetworkMessageHeaderFields` -/
def writeNetworkMessageHeaderFields (nm : NetworkMessage) (uadpFlags extFlags1 : Nat) :
    List Writer :=
  [opt (uadpFlags.testBit 4)
      (writePublisherId host nm.publisherId (if uadpFlags.testBit 7 then extFlags1 % 8 else 0)),
    opt (uadpFlags.testBit 7 && extFlags1.testBit 3) (writeGuid nm.dataSetClassId),
    opt (uadpFlags.testBit 5) (writeGroupHeader host (nm.groupHeader.getD {})),
    opt (uadpFlags.testBit 6) (writePayloadHeader host (dataSetWriterIds nm)),
    opt (uadpFlags.testBit 7 && extFlags1.testBit 5) (writeDateTime nm.timestamp),
    opt (uadpFlags.testBit 7 && extFlags1.testBit 6) (writeUInt16LE host nm.picoseconds)]

/-- The flag bytes and the header fields, shared by messages and chunks. -/
def writeHeader (nm : NetworkMessage) (uadpFlags extFlags1 extFlags2 : Nat) : List Writer :=
  [putUInt 1 uadpFlags, opt (uadpFlags.testBit 7) (putUInt 1 extFlags1),
    opt (uadpFlags.testBit 7 && extFlags1.testBit 7) (putUInt 1 extFlags2)] ++
  writeNetworkMessageHeaderFields host nm uadpFlags extFlags1

def readGroupHeader : Reader GroupHeader := do
  let writerGroupId ← readNumber 2
  let groupVersion ← readNumber 4
  let networkMessageNumber ← readNumber 2
  let sequenceNumber ← readNumber 2
  return ⟨writerGroupId, groupVersion, networkMessageNumber, sequenceNumber⟩

def readOptionalGroupHeader (present : Bool) : Reader (Option GroupHeader) :=
  if present then do
    let gh ← readGroupHeader
    return some gh
  else pure none

def readPayloadHeader (present : Bool) : Reader (Option (List JsValue)) :=
  if present then do
    let count ← readUInt 1
    let ids ← ByteCodec.Reader.many (readNumber 2) count
    return some ids
  else pure none

/-! ## Payload -/

/-- The encoded DataSetMessages, each in a buffer of its own. -/
def dsmBuffers : List DataSetMessage → Except UadpError (List Bytes)
  | [] => .ok []
  | dsm :: dsms => do
      let b ← encodeDataSetMessage host dsm
      let bs ← dsmBuffers dsms
      return b :: bs

/-- The size array, when there are several messages, and the bodies. -/
def writePayload (hasPayloadHeader : Bool) (buffers : List Bytes) : List Writer :=
  [opt (hasPayloadHeader && decide (buffers.length > 1))
      (cat (buffers.map fun b => putUInt 2 b.length)),
    .ok buffers.flatten]

/-- The message as one buffer, before the MTU is considered. -/
def encodeWhole (nm : NetworkMessage) : Writer := do
  let extFlags2 := buildExtendedFlags2 nm
  let extFlags1 ← buildExtendedFlags1 nm extFlags2
  let uadpFlags := buildUADPFlags nm extFlags1
  let header ← cat (writeHeader host nm uadpFlags extFlags1 extFlags2)
  if uadpFlags.testBit 7 && extFlags1.testBit 7 && extFlags2.testBit 1 then
    .error .encodeNotYetImplemented
  else do
    let buffers ← dsmBuffers host nm.payload
    cat [.ok header, cat (writePayload (uadpFlags.testBit 6) buffers)]

/-! ## Chunks -/

structure ChunkInfo where
  chunkOffset : Nat
  totalSize : Nat
  chunkData : Bytes
deriving DecidableEq

/-- `CHUNK_PAYLOAD_OVERHEAD` -/
def chunkPayloadOverhead : Nat := 12

/-- `_splitIntoChunks`; every round takes a byte at least, so the length of the
payload bounds their number. -/
def splitIntoChunks (fullPayload : Bytes) (mtu : Int) (headerOverhead : Nat) :
    Except UadpError (List ChunkInfo) :=
  let maxChunkData := mtu - headerOverhead - chunkPayloadOverhead
  if maxChunkData ≤ 0 then
    .error (.chunkMtuTooSmall mtu (headerOverhead + chunkPayloadOverhead))
  else .ok ((Tiling.cut maxChunkData.toNat fullPayload.length 0 fullPayload).map
    fun (chunkOffset, chunkData) => ⟨chunkOffset, fullPayload.length, chunkData⟩)

/-- The chunk payload that stands in place of the DataSetMessages. -/
def writeChunk (messageSequenceNumber : Nat) (info : ChunkInfo) : List Writer :=
  [putUInt 2 messageSequenceNumber, putUInt 4 info.chunkOffset, putUInt 4 info.totalSize,
    putUInt 4 info.chunkData.length, .ok info.chunkData]

def chunkOf (messageSequenceNumber : Nat) (info : ChunkInfo) : Chunk :=
  ⟨messageSequenceNumber, info.chunkOffset, info.totalSize, info.chunkData⟩

/-- The chunk-flagged message with the header of the original. -/
def chunkMessage (originalNm : NetworkMessage) (chunk : Chunk) (dataSetWriterId : JsValue) :
    NetworkMessage where
  publisherId := originalNm.publisherId
  dataSetClassId := originalNm.dataSetClassId
  groupHeader := originalNm.groupHeader
  timestamp := originalNm.timestamp
  picoseconds := originalNm.picoseconds
  payloadHeader := some [dataSetWriterId]
  chunk := some chunk

/-- `_encodeChunkNetworkMessage` -/
def encodeChunkNetworkMessage (originalNm : NetworkMessage) (info : ChunkInfo)
    (messageSequenceNumber : Nat) (dataSetWriterId : JsValue) : Writer := do
  let chunkNm := chunkMessage originalNm (chunkOf messageSequenceNumber info) dataSetWriterId
  let extFlags2 := buildExtendedFlags2 chunkNm
  let extFlags1 ← buildExtendedFlags1 chunkNm extFlags2
  let uadpFlags := buildUADPFlags chunkNm extFlags1
  cat (writeHeader host chunkNm uadpFlags extFlags1 extFlags2 ++
    writeChunk messageSequenceNumber info)

/-- `groupHeader.sequenceNumber & 0xffff`, or zero. -/
def messageSequenceNumberOf (nm : NetworkMessage) : Except UadpError Nat :=
  match nm.groupHeader with
  | none => .ok 0
  | some gh =>
      if gh.sequenceNumber.isNullish then .ok 0
      else do
        let n ← liftRuntime (host.toUint32 gh.sequenceNumber)
        return n % 65536

/-- The first DataSetWriterId of the payload header, or zero. -/
def chunkWriterId (nm : NetworkMessage) : JsValue :=
  (dataSetWriterIds nm).headD (.num Double.zero)

/-- The chunks of a message whose whole encoding is `fullPayload`. -/
def encodeChunks (nm : NetworkMessage) (fullPayload : Bytes) (mtu : Int) :
    Except UadpError (List Bytes) := do
  let messageSequenceNumber ← messageSequenceNumberOf host nm
  let probeChunk ← encodeChunkNetworkMessage host nm ⟨0, fullPayload.length, []⟩
    messageSequenceNumber (chunkWriterId nm)
  let infos ← splitIntoChunks fullPayload mtu probeChunk.length
  infos.mapM fun info =>
    encodeChunkNetworkMessage host nm info messageSequenceNumber (chunkWriterId nm)

/-- One buffer, or the buffers of the chunks. -/
inductive Encoded
  | single (buffer : Bytes)
  | chunks (buffers : List Bytes)
deriving DecidableEq

/-- `encodeNetworkMessage` with the option `mtu`. -/
def encodeNetworkMessage (nm : NetworkMessage) (mtu : Int) : Except UadpError Encoded := do
  let encoded ← encodeWhole host nm
  if encoded.length > mtu && decide (nm.payload.length > 0) then do
    let buffers ← encodeChunks host nm encoded mtu
    return .chunks buffers
  else return .single encoded

/-! ## Decoder -/

def readChunk : Reader Chunk := do
  let messageSequenceNumber ← readUInt 2
  let chunkOffset ← readUInt 4
  let totalSize ← readUInt 4
  let chunkDataLen ← readUInt 4
  let chunkData ← readBytes chunkDataLen
  return ⟨messageSequenceNumber, chunkOffset, totalSize, chunkData⟩

/-- A DataSetMessage in a buffer of its own, of the size announced. -/
def readSized (size : Nat) : Reader DataSetMessage := do
  let bytes ← readBytes size
  match decodeDataSetMessage bytes with
  | .ok dsm => return dsm
  | .error e => ByteCodec.Reader.fail fun _ => e

def readSizedAll : List Nat → Reader (List DataSetMessage)
  | [] => pure []
  | size :: sizes => do
      let dsm ← readSized size
      let dsms ← readSizedAll sizes
      return dsm :: dsms

/-- A last DataSetMessage, when any byte is left. -/
def readLast : Reader (List DataSetMessage) := do
  let remaining ← ByteCodec.Reader.remaining
  if remaining > 0 then do
    let dsm ← readDataSetMessage
    return [dsm]
  else return []

def readPayload (count : Nat) : Reader (List DataSetMessage) :=
  if count > 1 then do
    let sizes ← ByteCodec.Reader.many (readUInt 2) count
    readSizedAll sizes
  else readLast

/-- The header of a message, and the second extended flag byte. -/
def readHeader : Reader (NetworkMessage × Nat) := do
  let uadpFlags ← readUInt 1
  if uadpFlags % 16 ≠ 1 then
    ByteCodec.Reader.fail fun _ => .decodeUnsupportedVersion (uadpFlags % 16)
  else do
    let extFlags1 ← readFlags (uadpFlags.testBit 7)
    let extFlags2 ← readFlags (extFlags1.testBit 7)
    let publisherId ← readMember (uadpFlags.testBit 4) (readPublisherId (extFlags1 % 8))
    let dataSetClassId ← readMember (extFlags1.testBit 3) readGuid
    let groupHeader ← readOptionalGroupHeader (uadpFlags.testBit 5)
    let payloadHeader ← readPayloadHeader (uadpFlags.testBit 6)
    let timestamp ← readMember (extFlags1.testBit 5) readDateTime
    let picoseconds ← readMember (extFlags1.testBit 6) (readNumber 2)
    return ({ publisherId, dataSetClassId, groupHeader, payloadHeader, timestamp, picoseconds },
      extFlags2)

def readNetworkMessage : Reader NetworkMessage := do
  let (nm, extFlags2) ← readHeader
  if extFlags2.testBit 1 then ByteCodec.Reader.fail fun _ => .decodeNotYetImplemented
  else if extFlags2.testBit 0 then do
    let chunk ← readChunk
    return { nm with chunk := some chunk, payload := [] }
  else do
    let payload ← readPayload (dataSetWriterIds nm).length
    return { nm with payload := payload }

/-- `decodeNetworkMessage` -/
def decodeNetworkMessage (buffer : Bytes) : Except UadpError NetworkMessage :=
  readNetworkMessage.run buffer

end OpcUaSuite.Uadp
