import OpcUaSuite.Utils.NodeId

/-!
# The values of a write

What a message can carry to a Variant: the plain values, the typed arrays of the
runtime and the instances of the OPC UA library. A Variant holds a value of one
DataType, as a scalar or as an array.
-/

namespace OpcUaSuite.Variants

open Js Utils ByteCodec

/-- `DataType`, the built-in types. -/
inductive DataType
  | Null
  | Boolean
  | SByte
  | Byte
  | Int16
  | UInt16
  | Int32
  | UInt32
  | Int64
  | UInt64
  | Float
  | Double
  | String
  | DateTime
  | Guid
  | ByteString
  | XmlElement
  | NodeId
  | ExpandedNodeId
  | StatusCode
  | QualifiedName
  | LocalizedText
  | ExtensionObject
  | DataValue
  | Variant
  | DiagnosticInfo
deriving DecidableEq

namespace DataType

/-- The types, each at its enum number. -/
def all : List DataType :=
  [.Null, .Boolean, .SByte, .Byte, .Int16, .UInt16, .Int32, .UInt32, .Int64, .UInt64, .Float,
    .Double, .String, .DateTime, .Guid, .ByteString, .XmlElement, .NodeId, .ExpandedNodeId,
    .StatusCode, .QualifiedName, .LocalizedText, .ExtensionObject, .DataValue, .Variant,
    .DiagnosticInfo]

def ordinal (t : DataType) : Nat := t.ctorIdx

def name : DataType → JsString
  | .Null => js "Null"
  | .Boolean => js "Boolean"
  | .SByte => js "SByte"
  | .Byte => js "Byte"
  | .Int16 => js "Int16"
  | .UInt16 => js "UInt16"
  | .Int32 => js "Int32"
  | .UInt32 => js "UInt32"
  | .Int64 => js "Int64"
  | .UInt64 => js "UInt64"
  | .Float => js "Float"
  | .Double => js "Double"
  | .String => js "String"
  | .DateTime => js "DateTime"
  | .Guid => js "Guid"
  | .ByteString => js "ByteString"
  | .XmlElement => js "XmlElement"
  | .NodeId => js "NodeId"
  | .ExpandedNodeId => js "ExpandedNodeId"
  | .StatusCode => js "StatusCode"
  | .QualifiedName => js "QualifiedName"
  | .LocalizedText => js "LocalizedText"
  | .ExtensionObject => js "ExtensionObject"
  | .DataValue => js "DataValue"
  | .Variant => js "Variant"
  | .DiagnosticInfo => js "DiagnosticInfo"

def ofName? (s : JsString) : Option DataType := all.find? fun t => t.name = s

theorem getElem?_ordinal (t : DataType) : all[t.ordinal]? = some t := by cases t <;> rfl

theorem ofName?_name (t : DataType) : ofName? t.name = some t := by cases t <;> decide +kernel

end DataType

/-- `VariantArrayType` -/
inductive ArrayType
  | Scalar
  | Array
  | Matrix
deriving DecidableEq

/-- The element types of typed arrays. -/
inductive TypedArray
  | Int8
  | Uint8
  | Int16
  | Uint16
  | Int32
  | Uint32
  | Float32
  | Float64
deriving DecidableEq

/-- A NodeId of the library, with the numbers as its text spells them. -/
structure LibraryNodeId where
  namespaceIndex : JsString
  identifierType : UInt16
  value : JsString
deriving DecidableEq

structure LibraryExpandedNodeId where
  nodeId : LibraryNodeId
  namespaceUri : Option JsString
  serverIndex : Js.Double
deriving DecidableEq

/-- A value of a message. An instance of a library class that has no constructor
of its own is tagged with the DataType it is the value of. -/
inductive Value
  | undefined
  | null
  | bool (b : Bool)
  | num (d : Js.Double)
  | bigint (i : Int)
  | str (s : JsString)
  | date (time : Option Int)
  | buffer (bytes : Bytes)
  | typedArray (kind : TypedArray) (items : List Js.Double)
  | array (items : List Value)
  | object (props : List (JsString × Value))
  | nodeId (id : LibraryNodeId)
  | expandedNodeId (id : LibraryExpandedNodeId)
  | variant (dataType : DataType) (arrayType : ArrayType) (value : Value)
  | library (dataType : DataType) (props : List (JsString × Value))

namespace Value

instance : Inhabited Value := ⟨.undefined⟩

mutual

/-- A value without library instances, as a message value. -/
def ofJs : JsValue → Value
  | .undefined => .undefined
  | .null => .null
  | .bool b => .bool b
  | .num d => .num d
  | .bigint i => .bigint i
  | .str s => .str s
  | .date time => .date time
  | .buffer bytes => .buffer bytes
  | .array items => .array (ofJsList items)
  | .object props => .object (ofJsProps props)

def ofJsList : List JsValue → List Value
  | [] => []
  | v :: vs => ofJs v :: ofJsList vs

def ofJsProps : List (JsString × JsValue) → List (JsString × Value)
  | [] => []
  | (name, v) :: props => (name, ofJs v) :: ofJsProps props

end

def isUndefined : Value → Bool
  | .undefined => true
  | _ => false

def isArray : Value → Bool
  | .array _ => true
  | _ => false

/-- `isPlainObject`, which is true of class instances as well. -/
def isPlainObject : Value → Bool
  | .object _ | .nodeId _ | .expandedNodeId _ | .variant _ _ _ | .library _ _ => true
  | _ => false

/-- An own member of an object or of an instance of the library. -/
def member (v : Value) (name : JsString) : Value :=
  match v with
  | .object props | .library _ props => (InsertionMap.get? name props).getD .undefined
  | _ => .undefined

/-- The `Boolean(v)` conversion. -/
def truthy : Value → Bool
  | .undefined | .null => false
  | .bool b => b
  | .num d => !(d.isZero || decide (d = .nan))
  | .bigint i => decide (i ≠ 0)
  | .str s => !s.isEmpty
  | _ => true

/-- `Number.isInteger` -/
def isInteger : Value → Bool
  | .num d => d.isInteger
  | _ => false

/-- The members of a value that has one are smaller. -/
theorem sizeOf_member_lt {v : Value} {name other : JsString}
    (h : (v.member other).isUndefined = false) : sizeOf (v.member name) < sizeOf v := by
  have hprops : ∀ props : List (JsString × Value),
      sizeOf ((InsertionMap.get? name props).getD .undefined) < 1 + sizeOf props := by
    intro props
    cases hget : InsertionMap.get? name props with
    | none =>
        change 1 < _
        cases props <;> simp
    | some w =>
        have hmem := List.sizeOf_lt_of_mem (InsertionMap.mem_of_get? hget)
        have hpair : sizeOf (name, w) = 1 + sizeOf name + sizeOf w := rfl
        change sizeOf w < _
        omega
  cases v with
  | object props => simpa [member] using hprops props
  | library dataType props =>
      have hlt := hprops props
      simp only [member, library.sizeOf_spec]
      omega
  | _ => cases h

end Value

/-- The texts and numbers the runtime makes of values: `JSON.stringify`, `String`,
`new Date`, the bytes of an array of anything, and the text of a member that
every object inherits. -/
structure Runtime where
  host : Host
  stringify : Value → Option JsString
  string : Value → JsString
  timeOf : Value → Option Int
  bytesOf : List Value → Except JsString Bytes
  inheritedText : JsString → JsString

namespace Runtime

variable (rt : Runtime)

/-- The text `${v}` puts in a template. -/
def text : Value → JsString
  | .undefined => js "undefined"
  | .null => js "null"
  | .bool b => if b then js "true" else js "false"
  | .num d => rt.host.toText (.num d)
  | .bigint i => intText i
  | .str s => s
  | v => rt.string v

end Runtime

/-- The options of the Variant constructor. -/
structure VariantOptions where
  dataType : Option DataType
  arrayType : Option ArrayType
  value : Value

/-- What the library does: it resolves a NodeId text, and makes a Variant or throws
an error with a message. -/
structure Library where
  resolveNodeId : JsString → Except JsString LibraryNodeId
  newVariant : VariantOptions → Except JsString Value

end OpcUaSuite.Variants
