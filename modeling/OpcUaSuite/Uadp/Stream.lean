import OpcUaSuite.Lib.Writer
import OpcUaSuite.PubSub.Model

/-!
# The binary stream

The write methods of `BinaryStream` as the bytes they append, the read methods
as readers. The integer writers of a Node buffer convert with the unary plus,
reject what lies outside the range and store the truncated number; NaN passes
the range check and is stored as zero.
-/

namespace OpcUaSuite.Uadp

open Js ByteCodec BinaryFloat PubSub

/-- The errors of the encoder and the decoder. -/
inductive UadpError
  | decodeTruncated (offset need left : Nat)
  | encodeInvalidGuid (text : JsString)
  | variantUnsupportedBuiltinType (builtIn : Option Nat)
  | variantUnknownType (dataType : Option DataTypeRef)
  | encodeInvalidPublisherId (value : Double)
  | encodePublisherIdTooLarge (value : Double)
  | encodePublisherIdType (value : JsValue)
  | decodeInvalidPublisherIdType (typeBits : Nat)
  | chunkMtuTooSmall (mtu : Int) (overhead : Nat)
  | rawdataUnknownType (field : JsString) (dataType : Option DataTypeRef)
  | rawdataDecodeRequiresMetadata
  | encodeNotYetImplemented
  | decodeNotYetImplemented
  | decodeUnsupportedVersion (got : Nat)
  | runtime (e : RuntimeError)
deriving DecidableEq

/-- The message of an error of the module, up to the values it quotes. -/
def UadpError.message : UadpError → String
  | .decodeTruncated offset need left =>
      s!"UADP_DECODE_TRUNCATED at offset {offset} (need {need} bytes, have {left})"
  | .encodeInvalidGuid _ => "UADP_ENCODE_INVALID_GUID"
  | .variantUnsupportedBuiltinType (some builtIn) =>
      s!"UADP_VARIANT_UNSUPPORTED_BUILTIN_TYPE: {builtIn}"
  | .variantUnsupportedBuiltinType none => "UADP_VARIANT_UNSUPPORTED_BUILTIN_TYPE"
  | .variantUnknownType _ => "UADP_VARIANT_UNKNOWN_TYPE"
  | .encodeInvalidPublisherId _ =>
      "UADP_ENCODE_INVALID_PUBLISHER_ID: must be non-negative integer"
  | .encodePublisherIdTooLarge _ =>
      "UADP_ENCODE_PUBLISHER_ID_TOO_LARGE: use BigInt for UInt64"
  | .encodePublisherIdType _ => "UADP_ENCODE_PUBLISHER_ID_TYPE: unsupported type"
  | .decodeInvalidPublisherIdType typeBits =>
      s!"UADP_DECODE_INVALID_PUBLISHER_ID_TYPE: {typeBits}"
  | .chunkMtuTooSmall mtu overhead =>
      s!"UADP_CHUNK_MTU_TOO_SMALL: mtu {mtu} is too small to fit chunk header overhead {overhead}"
  | .rawdataUnknownType _ _ => "UADP_RAWDATA_UNKNOWN_TYPE"
  | .rawdataDecodeRequiresMetadata =>
      "UADP_RAWDATA_DECODE_REQUIRES_METADATA: external dataType info needed"
  | .encodeNotYetImplemented =>
      "UADP_ENCODE_NOT_YET_IMPLEMENTED: promotedFields (Phase 3 concern)"
  | .decodeNotYetImplemented =>
      "UADP_DECODE_NOT_YET_IMPLEMENTED: promotedFields decoding (Phase 3 concern)"
  | .decodeUnsupportedVersion got =>
      s!"UADP_DECODE_UNSUPPORTED_VERSION: expected 1, got {got}"
  | .runtime .typeError => "TypeError"
  | .runtime .rangeError => "RangeError"
  | .runtime .syntaxError => "SyntaxError"

abbrev Writer := Except UadpError Bytes

abbrev Reader := ByteCodec.Reader UadpError

def liftRuntime {α : Type} : Except RuntimeError α → Except UadpError α
  | .ok a => .ok a
  | .error e => .error (.runtime e)

/-! ## Writers -/

variable (host : Host)

/-- An exact non-negative number in `k` bytes, rejected when it does not fit. -/
def putUInt (k n : Nat) : Writer :=
  if n < 256 ^ k then .ok (le k n) else .error (.runtime .rangeError)

/-- `checkInt` and the store of a Node integer writer of `k` bytes. -/
def writeInt (k : Nat) (lo hi : Int) (v : JsValue) : Writer := do
  let d ← liftRuntime (host.toNumber v)
  if d.gtInt hi || d.ltInt lo then .error (.runtime .rangeError)
  else return le k (toTwos k d.trunc)

def writeUInt (k : Nat) : JsValue → Writer := writeInt host k 0 (256 ^ k - 1)

def writeUInt8 : JsValue → Writer := writeUInt host 1

def writeUInt16LE : JsValue → Writer := writeUInt host 2

def writeUInt32LE : JsValue → Writer := writeUInt host 4

def writeInt8 : JsValue → Writer := writeInt host 1 (-2 ^ 7) (2 ^ 7 - 1)

def writeInt16LE : JsValue → Writer := writeInt host 2 (-2 ^ 15) (2 ^ 15 - 1)

def writeInt32LE : JsValue → Writer := writeInt host 4 (-2 ^ 31) (2 ^ 31 - 1)

def writeBigUInt64 (i : Int) : Writer :=
  if 0 ≤ i ∧ i < 2 ^ 64 then .ok (le 8 i.toNat) else .error (.runtime .rangeError)

def writeUInt64LE (v : JsValue) : Writer := do
  let i ← liftRuntime (host.toBigInt v)
  writeBigUInt64 i

def writeInt64LE (v : JsValue) : Writer := do
  let i ← liftRuntime (host.toBigInt v)
  if -2 ^ 63 ≤ i ∧ i < 2 ^ 63 then return le 8 (toTwos 8 i)
  else .error (.runtime .rangeError)

def writeFloatLE (v : JsValue) : Writer := do
  let d ← liftRuntime (host.toNumber v)
  return le 4 (Value.bits (Value.convert d : Single))

def writeDoubleLE (v : JsValue) : Writer := do
  let d ← liftRuntime (host.toNumber v)
  return le 8 d.bits

/-- The length of a null String or ByteString on the wire. -/
def nullLength : Nat := 0xffffffff

def writeString (s : JsValue) : Writer :=
  if s.isNullish then putUInt 4 nullLength
  else do
    let b ← liftRuntime (host.bufferUtf8 s)
    cat [putUInt 4 b.length, .ok b]

/-- The text between the separators. -/
def splitOn (sep : UInt16) : JsString → List JsString
  | [] => [[]]
  | u :: rest =>
      if u = sep then [] :: splitOn sep rest
      else
        match splitOn sep rest with
        | [] => [[u]]
        | part :: parts => (u :: part) :: parts

def hexDigit? (u : UInt16) : Option Nat :=
  let n := u.toNat
  if 48 ≤ n ∧ n ≤ 57 then some (n - 48)
  else if 97 ≤ n ∧ n ≤ 102 then some (n - 87)
  else if 65 ≤ n ∧ n ≤ 70 then some (n - 55)
  else none

/-- The value of the longest prefix of hexadecimal digits after `acc`. -/
def hexPrefix (acc : Nat) : JsString → Nat
  | [] => acc
  | u :: rest =>
      match hexDigit? u with
      | some d => hexPrefix (16 * acc + d) rest
      | none => acc

/-- The white space `parseInt` skips. -/
def isSpace (u : UInt16) : Bool :=
  u.toNat ∈ [9, 10, 11, 12, 13, 32, 160, 5760, 8192, 8193, 8194, 8195, 8196, 8197, 8198, 8199,
    8200, 8201, 8202, 8232, 8233, 8239, 8287, 12288, 65279]

def skipHexMark : JsString → JsString
  | 48 :: 120 :: rest => rest
  | 48 :: 88 :: rest => rest
  | s => s

def skipPlus : JsString → JsString
  | 43 :: rest => rest
  | s => s

/-- `parseInt(s, 16)` of a text without a minus sign; `none` is NaN. -/
def parseHex (s : JsString) : Option Nat :=
  let body := skipHexMark (skipPlus (s.dropWhile isSpace))
  match body with
  | [] => none
  | u :: _ => if (hexDigit? u).isSome then some (hexPrefix 0 body) else none

/-- The digit of a code unit to `Buffer.from(s, "hex")`, which takes its low byte. -/
def lowHexDigit? (u : UInt16) : Option Nat := hexDigit? (u % 256)

/-- `Buffer.from(s, "hex")`: whole pairs up to the first that is not hexadecimal. -/
def bufferHex : JsString → Bytes
  | u :: v :: rest =>
      match lowHexDigit? u, lowHexDigit? v with
      | some hi, some lo => UInt8.ofNat (16 * hi + lo) :: bufferHex rest
      | _, _ => []
  | _ => []

/-- A parsed group of a GUID; NaN is stored as zero. -/
def writeHexGroup (k : Nat) (s : JsString) : Writer := putUInt k ((parseHex s).getD 0)

def writeGuid : JsValue → Writer
  | .str uuidStr =>
      match splitOn 45 uuidStr with
      | [p0, p1, p2, p3, p4] =>
          cat [writeHexGroup 4 p0, writeHexGroup 2 p1, writeHexGroup 2 p2,
            .ok (bufferHex (p3 ++ p4))]
      | _ => .error (.encodeInvalidGuid uuidStr)
  | _ => .error (.runtime .typeError)

/-- `FILETIME_EPOCH_OFFSET_MS` -/
def filetimeEpochOffsetMs : Int := 11644473600000

/-- `DATETIME_TICKS_PER_MS` -/
def datetimeTicksPerMs : Int := 10000

def writeDateTime : JsValue → Writer
  | .date (some ms) => writeBigUInt64 ((ms + filetimeEpochOffsetMs) * datetimeTicksPerMs)
  | .date none => .error (.runtime .rangeError)
  | _ => .error (.runtime .typeError)

/-! ## Readers -/

/-- `_ensureRead(n)` followed by the read of `n` bytes. -/
def readBytes (n : Nat) : Reader Bytes :=
  ByteCodec.Reader.take (fun offset need left => .decodeTruncated offset need left) n

def readUInt (k : Nat) : Reader Nat := do
  let bs ← readBytes k
  return ofLe bs

def readInt (k : Nat) : Reader Int := do
  let n ← readUInt k
  return ofTwos k n

/-- An unsigned integer as the number the buffer returns. -/
def readNumber (k : Nat) : Reader JsValue := do
  let n ← readUInt k
  return .nat n

def readSigned (k : Nat) : Reader JsValue := do
  let i ← readInt k
  return .num (Double.ofInt i)

def readUInt64LE : Reader JsValue := do
  let n ← readUInt 8
  return .bigint n

def readBigInt64LE : Reader JsValue := do
  let i ← readInt 8
  return .bigint i

def readFloatLE : Reader JsValue := do
  let n ← readUInt 4
  return .num (Value.convert (Value.ofBits n : Single))

def readDoubleLE : Reader JsValue := do
  let n ← readUInt 8
  return .num (Value.ofBits n)

def readString : Reader JsValue := do
  let len ← readUInt 4
  if len = nullLength then return .null
  else do
    let bs ← readBytes len
    return .str (Utf.decode bs)

/-- The `k` lower-case hexadecimal digits of a number. -/
def hexDigits : Nat → Nat → JsString
  | 0, _ => []
  | k + 1, n =>
      hexDigits k (n / 16) ++ [UInt16.ofNat (if n % 16 < 10 then 48 + n % 16 else 87 + n % 16)]

def hexOfBytes (bs : Bytes) : JsString := bs.flatMap fun b => hexDigits 2 b.toNat

def upperUnit (u : UInt16) : UInt16 :=
  if 97 ≤ u.toNat ∧ u.toNat ≤ 122 then UInt16.ofNat (u.toNat - 32) else u

/-- `toUpperCase` of an ASCII text. -/
def toUpper (s : JsString) : JsString := s.map upperUnit

def readGuid : Reader JsValue := do
  let d1 ← readUInt 4
  let d2 ← readUInt 2
  let d3 ← readUInt 2
  let d4a ← readBytes 2
  let d4b ← readBytes 6
  return .str (toUpper (hexDigits 8 d1 ++ [45] ++ hexDigits 4 d2 ++ [45] ++ hexDigits 4 d3 ++
    [45] ++ hexOfBytes d4a ++ [45] ++ hexOfBytes d4b))

/-- The quotient and the difference stay below 2 ^ 53, so the number arithmetic
of the source is exact and the date is valid. -/
def readDateTime : Reader JsValue := do
  let ticks ← readUInt 8
  return .date (some ((ticks : Int) / datetimeTicksPerMs - filetimeEpochOffsetMs))

end OpcUaSuite.Uadp
