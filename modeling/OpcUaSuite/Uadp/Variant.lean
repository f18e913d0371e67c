import OpcUaSuite.Uadp.StreamRoundTrip
import OpcUaSuite.Lib.Flags

/-!
# The Variant and DataValue codecs

`_writeVariant`, `_readVariant`, `_writeDataValue` and `_readDataValue`, with
the scalar codec they share. The type of a Variant is looked up in
`BUILTIN_TYPE` by its name; a name inherited from `Object.prototype` finds a
value that is not a number and is rejected only once a scalar is written.
-/

namespace OpcUaSuite.Uadp

open Js ByteCodec BinaryFloat PubSub

/-- `BUILTIN_TYPE` -/
inductive BuiltInType
  | Boolean
  | SByte
  | Byte
  | Int16
  | UInt16
  | Int32
  | UInt32
  | Int64
  | UInt64
  | Float
  | Double
  | String
  | DateTime
  | Guid
  | ByteString
  | StatusCode
deriving DecidableEq

namespace BuiltInType

def ordinal : BuiltInType → Nat
  | .Boolean => 1
  | .SByte => 2
  | .Byte => 3
  | .Int16 => 4
  | .UInt16 => 5
  | .Int32 => 6
  | .UInt32 => 7
  | .Int64 => 8
  | .UInt64 => 9
  | .Float => 10
  | .Double => 11
  | .String => 12
  | .DateTime => 13
  | .Guid => 14
  | .ByteString => 15
  | .StatusCode => 19

def name : BuiltInType → JsString
  | .Boolean => js "Boolean"
  | .SByte => js "SByte"
  | .Byte => js "Byte"
  | .Int16 => js "Int16"
  | .UInt16 => js "UInt16"
  | .Int32 => js "Int32"
  | .UInt32 => js "UInt32"
  | .Int64 => js "Int64"
  | .UInt64 => js "UInt64"
  | .Float => js "Float"
  | .Double => js "Double"
  | .String => js "String"
  | .DateTime => js "DateTime"
  | .Guid => js "Guid"
  | .ByteString => js "ByteString"
  | .StatusCode => js "StatusCode"

def all : List BuiltInType :=
  [.Boolean, .SByte, .Byte, .Int16, .UInt16, .Int32, .UInt32, .Int64, .UInt64, .Float, .Double,
    .String, .DateTime, .Guid, .ByteString, .StatusCode]

def ofOrdinal? (n : Nat) : Option BuiltInType := all.find? fun t => t.ordinal = n

def ofName? (s : JsString) : Option BuiltInType := all.find? fun t => t.name = s

theorem ofOrdinal?_ordinal (t : BuiltInType) : ofOrdinal? t.ordinal = some t := by
  cases t <;> rfl

theorem ordinal_lt (t : BuiltInType) : t.ordinal < 64 := by cases t <;> decide

end BuiltInType

/-- What the lookup of a data type finds. -/
inductive BuiltIn
  | missing
  | inherited
  | number (n : Nat)
  | fraction (d : Double)
deriving DecidableEq

def builtInOf : DataTypeRef → BuiltIn
  | .ordinal 0 => .missing
  | .ordinal n => .number n
  | .number d => if d.isZero || decide (d = .nan) then .missing else .fraction d
  | .name s =>
      match BuiltInType.ofName? s with
      | some t => .number t.ordinal
      | none => if s ∈ inheritedNames then .inherited else .missing

/-! ## Scalars -/

/-- The `length` member of a value. -/
def lengthOf : JsValue → JsValue
  | .str s => .nat s.length
  | .buffer bytes => .nat bytes.length
  | .array items => .nat items.length
  | .object props => (Props.get? (js "length") props).getD .undefined
  | _ => .undefined

variable (host : Host)

def writeBoolean (v : JsValue) : Writer := putUInt 1 (if v.truthy then 1 else 0)

/-- Only a buffer can be copied after its length. -/
def writeByteString (v : JsValue) : Writer :=
  if v.isNullish then putUInt 4 nullLength
  else cat [writeUInt32LE host (lengthOf v),
    match v with
    | .buffer bytes => .ok bytes
    | _ => .error (.runtime .typeError)]

def writeStatusCode (v : JsValue) : Writer := do
  let n ← liftRuntime (host.toUint32 v)
  putUInt 4 n

/-- One case of `_writeVariantScalar`. -/
def writeScalar : BuiltInType → JsValue → Writer
  | .Boolean => writeBoolean
  | .SByte => writeInt8 host
  | .Byte => writeUInt8 host
  | .Int16 => writeInt16LE host
  | .UInt16 => writeUInt16LE host
  | .Int32 => writeInt32LE host
  | .UInt32 => writeUInt32LE host
  | .Int64 => writeInt64LE host
  | .UInt64 => writeUInt64LE host
  | .Float => writeFloatLE host
  | .Double => writeDoubleLE host
  | .String => writeString host
  | .DateTime => writeDateTime
  | .Guid => writeGuid
  | .ByteString => writeByteString host
  | .StatusCode => writeStatusCode host

/-- `_writeVariantScalar` -/
def writeVariantScalar (builtIn : BuiltIn) (value : JsValue) : Writer :=
  match builtIn with
  | .number n =>
      match BuiltInType.ofOrdinal? n with
      | some t => writeScalar host t value
      | none => .error (.variantUnsupportedBuiltinType (some n))
  | _ => .error (.variantUnsupportedBuiltinType none)

def readBoolean : Reader JsValue := do
  let n ← readUInt 1
  return .bool (decide (n ≠ 0))

def readByteString : Reader JsValue := do
  let len ← readUInt 4
  if len = nullLength then return .null
  else do
    let bs ← readBytes len
    return .buffer bs

/-- One case of `_readVariantScalar`. -/
def readScalar : BuiltInType → Reader JsValue
  | .Boolean => readBoolean
  | .SByte => readSigned 1
  | .Byte => readNumber 1
  | .Int16 => readSigned 2
  | .UInt16 => readNumber 2
  | .Int32 => readSigned 4
  | .UInt32 => readNumber 4
  | .Int64 => readBigInt64LE
  | .UInt64 => readUInt64LE
  | .Float => readFloatLE
  | .Double => readDoubleLE
  | .String => readString
  | .DateTime => readDateTime
  | .Guid => readGuid
  | .ByteString => readByteString
  | .StatusCode => readNumber 4

/-- `_readVariantScalar` -/
def readVariantScalar (builtIn : Nat) : Reader JsValue :=
  match BuiltInType.ofOrdinal? builtIn with
  | some t => readScalar t
  | none => ByteCodec.Reader.fail fun _ => .variantUnsupportedBuiltinType (some builtIn)

/-! ## Variants -/

/-- Bits 0 to 5 of the encoding byte; an inherited member converts to zero. -/
def BuiltIn.bits : BuiltIn → Nat
  | .number n => n % 64
  | .fraction d => (d.trunc % 64).toNat
  | _ => 0

/-- An Int32 holding the length of a list. -/
def writeLength (n : Nat) : Writer :=
  if n < 2 ^ 31 then putUInt 4 n else .error (.runtime .rangeError)

def isArray : JsValue → Bool
  | .array _ => true
  | _ => false

/-- The part of a Variant after its encoding byte. -/
def writeVariantValue (builtIn : BuiltIn) : JsValue → Writer
  | .array items =>
      cat [writeLength items.length, cat (items.map (writeVariantScalar host builtIn))]
  | value => writeVariantScalar host builtIn value

/-- `_writeVariant` of a value that is neither null nor undefined. -/
def writeVariantBody (dataType : DataTypeRef) (value : JsValue) : Writer :=
  match builtInOf dataType with
  | .missing => .error (.variantUnknownType (some dataType))
  | builtIn =>
      cat [putUInt 1 (builtIn.bits ||| Flags.bit 6 (isArray value)),
        writeVariantValue host builtIn value]

def writeVariant : Option Variant → Writer
  | none => putUInt 1 0
  | some v => writeVariantBody host v.dataType v.value

/-- An Int32 that counts the rounds of a loop. -/
def readCount : Reader Nat := do
  let i ← readInt 4
  return i.toNat

def readDimensions (hasDims : Bool) : Reader (Option (List Int)) :=
  if hasDims then do
    let dimCount ← readCount
    let dims ← ByteCodec.Reader.many (readInt 4) dimCount
    return some dims
  else return none

def readVariantValue (builtIn : Nat) (isArray : Bool) : Reader JsValue :=
  if isArray then do
    let len ← readCount
    let items ← ByteCodec.Reader.many (readVariantScalar builtIn) len
    return .array items
  else readVariantScalar builtIn

def readVariant : Reader (Option Variant) := do
  let encodingByte ← readUInt 1
  if encodingByte = 0 then return none
  else do
    let builtIn := encodingByte % 64
    let value ← readVariantValue builtIn (encodingByte.testBit 6)
    let dimensions ← readDimensions (encodingByte.testBit 7)
    return some ⟨.ordinal builtIn, value, dimensions⟩

/-! ## DataValues -/

/-- A value standing where a Variant is expected: its `dataType` and `value`
members, when the first is a name or an ordinal. -/
def variantMembers? : JsValue → Option (DataTypeRef × JsValue)
  | .object props =>
      let value := (Props.get? (js "value") props).getD .undefined
      match Props.get? (js "dataType") props with
      | some (.str s) => some (.name s, value)
      | some (.num d) =>
          if d.isInteger && 0 ≤ d.trunc then some (.ordinal d.trunc.toNat, value) else none
      | _ => none
  | _ => none

def dataValueMask (dv : DataValue) : Nat :=
  Flags.bit 0 (dv.value.join.isSome) |||
  Flags.bit 1 (decide (dv.statusCode ≠ .undefined)) |||
  Flags.bit 2 dv.sourceTimestamp.truthy |||
  Flags.bit 3 dv.serverTimestamp.truthy |||
  Flags.bit 4 (decide (dv.sourcePicoseconds ≠ .undefined)) |||
  Flags.bit 5 (decide (dv.serverPicoseconds ≠ .undefined))

/-- `_writeDataValue` of a DataValue. -/
def writeDataValueBody (dv : DataValue) : Writer :=
  let mask := dataValueMask dv
  cat [putUInt 1 mask,
    opt (mask.testBit 0) (writeVariant host dv.value.join),
    opt (mask.testBit 1) (writeStatusCode host dv.statusCode),
    opt (mask.testBit 2) (writeDateTime dv.sourceTimestamp),
    opt (mask.testBit 3) (writeDateTime dv.serverTimestamp),
    opt (mask.testBit 4) (writeUInt16LE host dv.sourcePicoseconds),
    opt (mask.testBit 5) (writeUInt16LE host dv.serverPicoseconds)]

/-- `_writeDataValue`; the only member a Variant shares with a DataValue is its
value, which is then written as if it were a Variant. -/
def writeDataValue : Field → Writer
  | .null => putUInt 1 0
  | .dataValue dv => writeDataValueBody host dv
  | .variant v =>
      if v.value.isNullish then putUInt 1 0
      else cat [putUInt 1 1,
        match variantMembers? v.value with
        | some (dataType, value) => writeVariantBody host dataType value
        | none => .error (.variantUnknownType none)]

/-- The next member of a DataValue, when its bit is set. -/
def readMember (present : Bool) (r : Reader JsValue) : Reader JsValue :=
  if present then r else pure .undefined

def readMemberValue (present : Bool) : Reader (Option (Option Variant)) :=
  if present then do
    let v ← readVariant
    return some v
  else pure none

def readDataValue : Reader DataValue := do
  let mask ← readUInt 1
  let value ← readMemberValue (mask.testBit 0)
  let statusCode ← readMember (mask.testBit 1) (readNumber 4)
  let sourceTimestamp ← readMember (mask.testBit 2) readDateTime
  let serverTimestamp ← readMember (mask.testBit 3) readDateTime
  let sourcePicoseconds ← readMember (mask.testBit 4) (readNumber 2)
  let serverPicoseconds ← readMember (mask.testBit 5) (readNumber 2)
  return ⟨value, statusCode, sourceTimestamp, serverTimestamp, sourcePicoseconds,
    serverPicoseconds⟩

/-! ## Fields -/

/-- `_writeVariant` of a field; a DataValue has no `dataType` of its own. -/
def writeVariantField : Field → Writer
  | .null => writeVariant host none
  | .variant v => writeVariant host (some v)
  | .dataValue _ => .error (.variantUnknownType none)

/-- The raw scalar of a field, without its type. -/
def writeRawField (name : JsString) : Field → Writer
  | .null => .error (.runtime .typeError)
  | .variant v =>
      match builtInOf v.dataType with
      | .missing => .error (.rawdataUnknownType name (some v.dataType))
      | builtIn => writeVariantScalar host builtIn v.value
  | .dataValue _ => .error (.rawdataUnknownType name none)

def writeField (encoding : FieldEncoding) (name : JsString) (field : Field) : Writer :=
  match encoding with
  | .variant => writeVariantField host field
  | .datavalue => writeDataValue host field
  | .rawdata => writeRawField host name field

/-- A null Variant leaves the field null. -/
def Field.ofVariant : Option Variant → Field
  | none => .null
  | some v => .variant v

def readVariantField : Reader Field := do
  let v ← readVariant
  return Field.ofVariant v

def readDataValueField : Reader Field := do
  let dv ← readDataValue
  return .dataValue dv

end OpcUaSuite.Uadp
