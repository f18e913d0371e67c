import Mathlib.Data.List.DropRight
import OpcUaSuite.Variants.Value

/-!
# Variants from message values

`buildVariant` with the conversions and the guesses it makes: the DataType from
its name or from the value, and whether a JS array is an array or the form of one
scalar. A rejected value is an error with its message.
-/

namespace OpcUaSuite.Variants

open Js Utils ByteCodec

/-- `s.trim()` -/
def trim (s : JsString) : JsString := (s.dropWhile isSpace).rdropWhile isSpace

/-! ## Types -/

/-- `AUTO_NAMES` -/
def autoNames : List JsString := [[], js "auto", js "Auto"]

/-- `resolveDataType`; `none` is auto detection. -/
def resolveDataType (rt : Runtime) (datatype : Value) : Except JsString (Option DataType) :=
  let unknown := .error (js "Unknown DataType: " ++ rt.text datatype)
  match datatype with
  | .null | .undefined => .ok none
  | .num d =>
      if d.isInteger && decide (0 ≤ d.trunc) then
        match DataType.all[d.trunc.toNat]? with
        | some t => .ok (some t)
        | none => unknown
      else unknown
  | .str s =>
      if trim s ∈ autoNames then .ok none
      else match DataType.ofName? (trim s) with
        | some t => .ok (some t)
        | none => unknown
  | _ => unknown

/-- `isSerializedBuffer` -/
def isSerializedBuffer (v : Value) : Bool :=
  v.isPlainObject &&
    (match v.member (js "type") with
      | .str s => decide (s = js "Buffer")
      | _ => false) &&
    (v.member (js "data")).isArray

/-- `inferDataType` -/
def inferDataType : Value → Option DataType
  | .bool _ => some .Boolean
  | .num d => some (if d.isInteger then .Int32 else .Double)
  | .str _ => some .String
  | .bigint _ => some .Int64
  | .date _ => some .DateTime
  | .buffer _ => some .ByteString
  | v => if isSerializedBuffer v then some .ByteString else none

/-! ## Scalars -/

/-- A byte of an array or a typed array. -/
def byteOf (d : Js.Double) : UInt8 := UInt8.ofNat d.trunc.toNat

/-- The bytes of an array that holds nothing else. -/
def bytesOf? : List Value → Option Bytes
  | [] => some []
  | .num d :: items =>
      if d.isInteger && decide (0 ≤ d.trunc ∧ d.trunc ≤ 255) then
        (bytesOf? items).map (byteOf d :: ·)
      else none
  | _ :: _ => none

/-- `toByteString` -/
def toByteString (rt : Runtime) (v : Value) : Except JsString Value :=
  match v with
  | .buffer _ => .ok v
  | .typedArray .Uint8 items => .ok (.buffer (items.map byteOf))
  | .array items =>
      match bytesOf? items with
      | some bytes => .ok (.buffer bytes)
      | none => .error (js "ByteString array must contain bytes (0-255)")
  | .str s =>
      match Base64.decode? (trim s) with
      | some bytes => .ok (.buffer bytes)
      | none => .error (js "ByteString string must be base64 encoded (use a Buffer for raw bytes)")
  | v =>
      match isSerializedBuffer v, v.member (js "data") with
      | true, .array items => (rt.bytesOf items).map .buffer
      | _, _ => .error (js "ByteString value must be a Buffer, byte array or base64")

/-- `toDate` -/
def toDate (rt : Runtime) (v : Value) : Except JsString Value :=
  let time := match v with
    | .date time => time
    | .num _ | .str _ => rt.timeOf v
    | _ => none
  match time with
  | some ms => .ok (.date (some ms))
  | none => .error
      (js "DateTime value must be a Date, an ISO 8601 string or epoch milliseconds")

/-- The letter `fromParsedNodeId` finds for an identifier type. -/
def identifierTypes : List (JsString × JsString) :=
  [(js "Numeric", js "i"), (js "String", js "s"), (js "Guid", js "g"), (js "ByteString", js "b")]

/-- `fromParsedNodeId`, `none` for an object of another shape. The namespace is
taken from a member `namespace`. -/
def fromParsedNodeId (lib : Library) (rt : Runtime) (v : Value) :
    Option (Except JsString LibraryNodeId) :=
  let key := rt.text (v.member (js "identifierType"))
  let type := match InsertionMap.get? key identifierTypes with
    | some letter => some letter
    | none => if key ∈ inheritedNames then some (rt.inheritedText key) else none
  let namespaceText :=
    if (v.member (js "namespace")).truthy then rt.text (v.member (js "namespace")) else js "0"
  if (v.member (js "value")).isUndefined then none
  else type.map fun letter =>
    lib.resolveNodeId
      (js "ns=" ++ namespaceText ++ 59 :: letter ++ 61 :: rt.text (v.member (js "value")))

/-- `toNodeId` -/
def toNodeId (lib : Library) (rt : Runtime) (v : Value) : Except JsString Value :=
  let other := .error (js "NodeId value must be a string like ns=2;s=Name")
  match v with
  | .nodeId _ | .expandedNodeId _ => .ok v
  | .str s => (lib.resolveNodeId (trim s)).map .nodeId
  | v =>
      if v.isPlainObject then
        match fromParsedNodeId lib rt v with
        | some nodeId => nodeId.map .nodeId
        | none => other
      else other

/-- The units `.` matches. -/
def isLineUnit (u : UInt16) : Bool := !(u == 10 || u == 13 || u == 0x2028 || u == 0x2029)

/-- `/^svr=(\\d+);(.*)$/` -/
def serverPrefix? (s : JsString) : Option (Js.Double × JsString) :=
  let digits := (s.drop 4).takeWhile isDigit
  match (s.drop 4).dropWhile isDigit with
  | 59 :: rest =>
      if s.take 4 = js "svr=" ∧ digits ≠ [] ∧ rest.all isLineUnit = true then
        some (parseInt digits, rest)
      else none
  | _ => none

/-- `/^nsu=([^;]+);(.*)$/` -/
def uriPrefix? (s : JsString) : Option (JsString × JsString) :=
  let uri := (s.drop 4).takeWhile (· != 59)
  match (s.drop 4).dropWhile (· != 59) with
  | 59 :: rest =>
      if s.take 4 = js "nsu=" ∧ uri ≠ [] ∧ rest.all isLineUnit = true then some (uri, rest)
      else none
  | _ => none

/-- `toExpandedNodeId` -/
def toExpandedNodeId (lib : Library) (v : Value) : Except JsString Value :=
  match v with
  | .expandedNodeId _ => .ok v
  | .nodeId id => .ok (.expandedNodeId ⟨id, none, Double.zero⟩)
  | .str s =>
      let (serverIndex, rest) := (serverPrefix? (trim s)).getD (Double.zero, trim s)
      let (namespaceUri, rest) := match uriPrefix? rest with
        | some (uri, rest) => (some uri, rest)
        | none => (none, rest)
      (lib.resolveNodeId rest).map fun nodeId =>
        .expandedNodeId ⟨nodeId, namespaceUri, serverIndex⟩
  | _ => .error
      (js "ExpandedNodeId value must be a string like ns=2;s=Name or nsu=<uri>;s=Name")

/-- `toBoolean` -/
def toBoolean (v : Value) : Except JsString Value :=
  let other := .error (js "Boolean value must be true/false")
  match v with
  | .bool _ => .ok v
  | .num d =>
      if d = Double.ofInt 1 then .ok (.bool true)
      else if d.isZero then .ok (.bool false)
      else other
  | .str s =>
      if s = js "1" ∨ s = js "true" then .ok (.bool true)
      else if s = js "0" ∨ s = js "false" then .ok (.bool false)
      else other
  | _ => other

/-- `coerceScalar` -/
def coerceScalar (lib : Library) (rt : Runtime) (dataType : DataType) (v : Value) :
    Except JsString Value :=
  match dataType with
  | .Boolean => toBoolean v
  | .String =>
      match v with
      | .num _ | .bool _ => .ok (.str (rt.text v))
      | v => .ok v
  | .DateTime => toDate rt v
  | .ByteString => toByteString rt v
  | .NodeId => toNodeId lib rt v
  | .ExpandedNodeId => toExpandedNodeId lib v
  | .Int64 | .UInt64 =>
      match v with
      | .bigint i => .ok (.str (intText i))
      | v => .ok v
  | _ => .ok v

/-! ## Shape -/

/-- `isScalarArrayForm` -/
def isScalarArrayForm (dataType : Option DataType) (items : List Value) : Bool :=
  match dataType with
  | some .ByteString => items.all fun
      | .num _ => true
      | _ => false
  | some .Int64 | some .UInt64 => items.length == 2 && items.all Value.isInteger
  | _ => false

/-- `wantsArray` -/
def wantsArray : Value → Bool
  | .str s => decide (s = js "Array")
  | .bool b => b
  | .num d => decide (d = Double.ofInt 1)
  | _ => false

/-- The DataType given, or the one inferred from the value or from its first element. -/
def chosenType (dataType : Option DataType) (v : Value) : Option DataType :=
  dataType.or (inferDataType (match v with
    | .array items => items.headD .undefined
    | v => v))

/-- Whether the value is written as an array. -/
def asArray (isArray : Bool) (resolved : Option DataType) : Value → Bool
  | .array items => isArray || !isScalarArrayForm resolved items
  | _ => isArray

/-- `preview` -/
def preview (rt : Runtime) (v : Value) : JsString :=
  let text := (rt.stringify v).getD (rt.string v)
  if text.length > 80 then text.take 77 ++ js "..." else text

/-- The elements of an array, or one scalar. -/
def convert (lib : Library) (rt : Runtime) (dataType : DataType) (asArray : Bool) (v : Value) :
    Except JsString Value :=
  match asArray, v with
  | true, .array items => (items.mapM (coerceScalar lib rt dataType)).map .array
  | _, v => coerceScalar lib rt dataType v

/-- The message of a value the library refuses. -/
def refusal (rt : Runtime) (dataType : DataType) (v : Value) (message : JsString) : JsString :=
  js "Invalid " ++ dataType.name ++ js " value " ++ preview rt v ++
    if trim message = [] then [] else js ": " ++ (trim message).takeWhile (· != 10)

/-- `buildVariant` once the DataType is resolved and no Variant is wanted. -/
def buildTyped (lib : Library) (rt : Runtime) (v : Value) (dataType : Option DataType)
    (arrayType : Value) : Except JsString Value :=
  let isArray := wantsArray arrayType
  if isArray && !v.isArray then .error (js "Array value expected, got " ++ preview rt v)
  else
    let resolved := chosenType dataType v
    let array := asArray isArray resolved v
    match resolved with
    | none => lib.newVariant ⟨none, if array then some .Array else none, v⟩
    | some t =>
        match convert lib rt t array v with
        | .error message =>
            .error (js "Invalid " ++ t.name ++ js " value " ++ preview rt v ++ js ": " ++ message)
        | .ok converted =>
            match lib.newVariant ⟨some t, some (if array then .Array else .Scalar), converted⟩ with
            | .error message => .error (refusal rt t v message)
            | .ok variant => .ok variant

/-- `buildVariant` -/
def buildVariant (lib : Library) (rt : Runtime) (v datatype arrayType : Value) :
    Except JsString Value :=
  match v with
  | .variant t a w => .ok (.variant t a w)
  | v =>
      match resolveDataType rt datatype with
      | .error message => .error message
      | .ok (some .Variant) =>
          -- the value carries its own type, or it is inferred
          if _ : v.isPlainObject = true ∧ (v.member (js "dataType")).isUndefined = false then
            buildVariant lib rt (v.member (js "value")) (v.member (js "dataType"))
              (v.member (js "arrayType"))
          else buildTyped lib rt v none arrayType
      | .ok dataType => buildTyped lib rt v dataType arrayType
termination_by sizeOf v
decreasing_by
  next h => exact Value.sizeOf_member_lt h.2

end OpcUaSuite.Variants
