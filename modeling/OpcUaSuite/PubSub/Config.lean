import OpcUaSuite.Js.Object

/-!
# PubSub configuration objects

The validators and factories of the configuration library, on any JavaScript
value: a value may be an array with holes, an object with inherited members, a
function or a symbol. Members are data, not accessors.
-/

namespace OpcUaSuite.PubSub.Config

open Js BinaryFloat

/-! ## Values -/

inductive ObjectKind
  | plain
  | array
  | function
deriving DecidableEq

/-- An object has own members, the members it inherits from a prototype of its
own, and the items of an array, of which some may be holes. -/
inductive Value
  | undefined
  | null
  | bool (b : Bool)
  | num (d : Double)
  | bigint (i : Int)
  | str (s : JsString)
  | symbol
  | object (kind : ObjectKind) (own inherited : List (JsString × Value))
      (items : List (Option Value))

namespace Value

instance : Inhabited Value := ⟨.undefined⟩

/-- `{ ... }` -/
def plain (members : List (JsString × Value)) : Value := .object .plain members [] []

def ownMember? (name : JsString) : Value → Option Value
  | .object _ own _ _ => Props.get? name own
  | _ => none

def inheritedMember? (name : JsString) : Value → Option Value
  | .object _ _ inherited _ => Props.get? name inherited
  | _ => none

/-- `v[name]` of a value that is neither null nor undefined. -/
def member (v : Value) (name : JsString) : Value :=
  match v.ownMember? name with
  | some m => m
  | none => (v.inheritedMember? name).getD .undefined

def isUndefined : Value → Bool
  | .undefined => true
  | _ => false

def isNullish : Value → Bool
  | .undefined | .null => true
  | _ => false

/-- `v && typeof v === "object"` -/
def isObject : Value → Bool
  | .object kind _ _ _ => decide (kind ≠ .function)
  | _ => false

/-- The items of an array. -/
def items? : Value → Option (List (Option Value))
  | .object .array _ _ items => some items
  | _ => none

/-- `Boolean(v)` -/
def truthy : Value → Bool
  | .undefined | .null => false
  | .bool b => b
  | .num d => !(d.isZero || decide (d = .nan))
  | .bigint i => decide (i ≠ 0)
  | .str s => !s.isEmpty
  | .symbol | .object .. => true

/-- `v ?? other` -/
def orElse (v other : Value) : Value := if v.isNullish then other else v

/-- `{ ...v }`: the own members, under their indices those of an array. -/
def spread : Value → Value
  | .object _ own _ items =>
      plain ((items.mapIdx fun i item => item.map fun v => (decimal i, v)).reduceOption ++ own)
  | _ => plain []

def isString : Value → Bool
  | .str _ => true
  | _ => false

def isNonEmptyString : Value → Bool
  | .str s => !s.isEmpty
  | _ => false

/-- `Number.isInteger(v)` -/
def isInteger : Value → Bool
  | .num d => d.isInteger
  | _ => false

/-- An integer between two bounds. -/
def isIntegerIn (lo hi : Int) : Value → Bool
  | .num d => d.isInteger && !d.ltInt lo && !d.gtInt hi
  | _ => false

/-- `v === 0` -/
def isZero : Value → Bool
  | .num d => d.isZero
  | _ => false

/-- `_isPositiveNumber` -/
def isPositiveNumber : Value → Bool
  | .num d => d.isFinite && d.gtInt 0
  | _ => false

/-- `_isNonNegativeInt` -/
def isNonNegativeInt : Value → Bool
  | .num d => d.isInteger && !d.ltInt 0
  | _ => false

/-- `_isUInt16` -/
def isUInt16 : Value → Bool := isIntegerIn 0 0xffff

end Value

/-- What a value is turned into: the text of a number or an object in a template,
and the bit 0x20 of a string or an object as an integer of 32 bits. -/
structure Host where
  numText : Double → JsString
  objectText : Value → Except RuntimeError JsString
  rawDataBit : Value → Except RuntimeError Bool

namespace Host

variable (host : Host)

/-- `${v}` -/
def text : Value → Except RuntimeError JsString
  | .undefined => .ok (js "undefined")
  | .null => .ok (js "null")
  | .bool b => .ok (if b then js "true" else js "false")
  | .num d => .ok (host.numText d)
  | .bigint i => .ok (intText i)
  | .str s => .ok s
  | .symbol => .error .typeError
  | v => host.objectText v

/-- `v & FIELD_CONTENT_MASK_RAWDATA_BIT` is not zero; a BigInt or a symbol raises. -/
def hasRawDataBit : Value → Except RuntimeError Bool
  | .undefined | .null | .bool _ => .ok false
  | .num d => .ok (decide (d.trunc / 32 % 2 = 1))
  | .bigint _ | .symbol => .error .typeError
  | v => host.rawDataBit v

end Host

/-! ## Issues -/

structure Issue where
  path : JsString
  code : JsString
  message : JsString
deriving DecidableEq

/-- `{ valid, errors }` -/
structure Validation where
  valid : Bool
  errors : List Issue
deriving DecidableEq

/-- `{ valid: errors.length === 0, errors }` -/
def validation (errors : List Issue) : Validation := ⟨errors.isEmpty, errors⟩

/-- The answer to what is no object. -/
def notAnObject : Validation :=
  ⟨false, [⟨[], js "MUST_BE_OBJECT", js "cfg must be an object"⟩]⟩

/-- The issue of a rule that does not hold. -/
def require (holds : Bool) (path code message : JsString) : List Issue :=
  if holds then [] else [⟨path, code, message⟩]

/-- A rule for a member that may be absent. -/
def optional (v : Value) (holds : Value → Bool) (path code message : JsString) : List Issue :=
  require (v.isUndefined || holds v) path code message

/-- What a factory throws: the issues of a value under the name of its type, or
an error of the runtime. -/
inductive ConfigError
  | invalid (type : JsString) (errors : List Issue)
  | runtime (e : RuntimeError)
deriving DecidableEq

namespace ConfigError

def errors : ConfigError → Option (List Issue)
  | .invalid _ errors => some errors
  | .runtime _ => none

def code : ConfigError → Option JsString
  | .invalid _ errors => errors.head?.map (·.code)
  | .runtime _ => none

def message : ConfigError → Option JsString
  | .invalid type errors => errors.head?.map fun issue => type ++ js " invalid: " ++ issue.message
  | .runtime _ => none

end ConfigError

/-- A factory: what its validator finds is thrown, and a valid value is built. -/
def construct (type : JsString) (validate : Except RuntimeError Validation)
    (build : Except ConfigError Value) : Except ConfigError Value :=
  match validate with
  | .error e => .error (.runtime e)
  | .ok result => if result.valid then build else .error (.invalid type result.errors)

variable (host : Host)

/-! ## WriterGroup -/

/-- The rule of `keepAliveTime`, with the numbers it compares. -/
def keepAliveIssues (keepAliveTime publishingInterval : Value) : List Issue :=
  match keepAliveTime, publishingInterval with
  | .undefined, _ => []
  | .num keepAlive, .num interval =>
      if !(Value.num keepAlive).isPositiveNumber then
        [⟨js "keepAliveTime", js "MUST_BE_POSITIVE_NUMBER", js "keepAliveTime must be a number > 0"⟩]
      else if (Value.num interval).isPositiveNumber && keepAlive.lt interval then
        [⟨js "keepAliveTime", js "MUST_BE_GTE_PUBLISHING_INTERVAL",
          js "keepAliveTime (" ++ host.numText keepAlive ++ js ") must be >= publishingInterval (" ++
            host.numText interval ++ js ")"⟩]
      else []
  | v, _ => require v.isPositiveNumber (js "keepAliveTime") (js "MUST_BE_POSITIVE_NUMBER")
      (js "keepAliveTime must be a number > 0")

def writerGroupIdIssues (writerGroupId : Value) : List Issue :=
  if !writerGroupId.isUInt16 then
    [⟨js "writerGroupId", js "MUST_BE_UINT16", js "writerGroupId must be integer 0..65535"⟩]
  else require (!writerGroupId.isZero) (js "writerGroupId") (js "MUST_BE_NONZERO_UINT16")
    (js "writerGroupId must be 1..65535 (0 reserved)")

/-- `validateWriterGroup` -/
def validateWriterGroup (cfg : Value) : Except RuntimeError Validation :=
  if !cfg.isObject then .ok notAnObject
  else .ok (validation (
    require (cfg.member (js "publishingInterval")).isPositiveNumber (js "publishingInterval")
      (js "MUST_BE_POSITIVE_NUMBER") (js "publishingInterval must be a number > 0") ++
    keepAliveIssues host (cfg.member (js "keepAliveTime")) (cfg.member (js "publishingInterval")) ++
    optional (cfg.member (js "maxNetworkMessageSize")) Value.isPositiveNumber
      (js "maxNetworkMessageSize") (js "MUST_BE_POSITIVE_NUMBER")
      (js "maxNetworkMessageSize must be > 0") ++
    optional (cfg.member (js "priority")) (Value.isIntegerIn 0 255) (js "priority")
      (js "MUST_BE_BYTE_RANGE") (js "priority must be integer 0..255") ++
    writerGroupIdIssues (cfg.member (js "writerGroupId"))))

/-- The object of a WriterGroup, with its defaults. -/
def writerGroupObject (cfg : Value) : Value :=
  Value.plain [
    (js "publishingInterval", cfg.member (js "publishingInterval")),
    (js "keepAliveTime",
      (cfg.member (js "keepAliveTime")).orElse (cfg.member (js "publishingInterval"))),
    (js "maxNetworkMessageSize",
      (cfg.member (js "maxNetworkMessageSize")).orElse (.num (Double.ofInt 1400))),
    (js "priority", (cfg.member (js "priority")).orElse (.num (Double.ofInt 128))),
    (js "writerGroupId", cfg.member (js "writerGroupId"))]

/-- `WriterGroup` -/
def writerGroup (cfg : Value) : Except ConfigError Value :=
  construct (js "WriterGroup") (validateWriterGroup host cfg) (.ok (writerGroupObject cfg))

/-! ## PublishedDataSet -/

/-- The issues of one entry of `fields`. -/
def fieldIssues (i : Nat) (f : Value) : List Issue :=
  let path := js "fields[" ++ decimal i ++ js "]"
  if !f.isObject then [⟨path, js "MUST_BE_OBJECT", js "field must be an object"⟩]
  else
    require (f.member (js "name")).isNonEmptyString (path ++ js ".name")
      (js "MUST_BE_NON_EMPTY_STRING") (js "field.name required") ++
    require (f.member (js "dataType")).isString (path ++ js ".dataType") (js "MUST_BE_STRING")
      (js "field.dataType required as string")

/-- `fields.forEach`, which passes over holes. -/
def fieldsIssues : Nat → List (Option Value) → List Issue
  | _, [] => []
  | i, none :: items => fieldsIssues (i + 1) items
  | i, some f :: items => fieldIssues i f ++ fieldsIssues (i + 1) items

/-- The rule of `fields`. -/
def fieldListIssues (fields : Value) : List Issue :=
  match fields.items? with
  | none | some [] =>
      [⟨js "fields", js "MUST_BE_NON_EMPTY_ARRAY", js "fields must be a non-empty array"⟩]
  | some items => fieldsIssues 0 items

def isVersionPair (cv : Value) : Bool :=
  cv.isObject && (cv.member (js "major")).isInteger && (cv.member (js "minor")).isInteger

/-- `validatePublishedDataSet` -/
def validatePublishedDataSet (cfg : Value) : Except RuntimeError Validation :=
  if !cfg.isObject then .ok notAnObject
  else .ok (validation (
    require (cfg.member (js "name")).isNonEmptyString (js "name") (js "MUST_BE_NON_EMPTY_STRING")
      (js "name must be a non-empty string") ++
    fieldListIssues (cfg.member (js "fields")) ++
    optional (cfg.member (js "configurationVersion")) isVersionPair (js "configurationVersion")
      (js "MUST_BE_VERSION_PAIR") (js "configurationVersion must be { major: int, minor: int }")))

/-- `DEFAULT_PUBLISHED_DS_VERSION` -/
def defaultVersion : Value :=
  Value.plain [(js "major", .num (Double.ofInt 1)), (js "minor", .num (Double.ofInt 0))]

/-- The object of a PublishedDataSet. The fields are copied; holes stay holes. -/
def publishedDataSetObject (cfg : Value) : Value :=
  Value.plain [
    (js "name", cfg.member (js "name")),
    (js "fields", .object .array [] []
      (((cfg.member (js "fields")).items?.getD []).map fun item => item.map Value.spread)),
    (js "configurationVersion",
      (cfg.member (js "configurationVersion")).orElse defaultVersion)]

/-- `PublishedDataSet` -/
def publishedDataSet (cfg : Value) : Except ConfigError Value :=
  construct (js "PublishedDataSet") (validatePublishedDataSet cfg) (.ok (publishedDataSetObject cfg))

/-! ## DataSetWriter -/

/-- `ABSTRACT_TYPES_FOR_RAWDATA` -/
def abstractTypesForRawData : List JsString :=
  [js "NodeId", js "ExpandedNodeId", js "DiagnosticInfo"]

/-- The field has a type that RawData cannot carry. -/
def isAbstract (f : Value) : Option JsString :=
  match f.member (js "dataType") with
  | .str s => if s ∈ abstractTypesForRawData then some s else none
  | _ => none

/-- A String field does not say how long its values may be. -/
def lacksMaxLength (f : Value) : Bool :=
  match f.member (js "dataType") with
  | .str s => decide (s = js "String") && !(f.member (js "maxStringLength")).isNonNegativeInt
  | _ => false

/-- The issues of one field under RawData; what is null or undefined has no members. -/
def rawDataIssues (i : Nat) (f : Value) : Except RuntimeError (List Issue) :=
  let path := js "publishedDataSet.fields[" ++ decimal i ++ js "]"
  if f.isNullish then .error .typeError
  else do
    let abstractIssues ←
      match isAbstract f with
      | none => pure []
      | some dataType => do
          let name ← host.text (f.member (js "name"))
          pure [⟨path ++ js ".dataType", js "RAW_DATA_REQUIRES_CONCRETE_TYPES",
            js "RawData encoding rejects abstract type '" ++ dataType ++ js "' on field '" ++ name ++
              js "'"⟩]
    let lengthIssues ←
      if lacksMaxLength f then do
        let name ← host.text (f.member (js "name"))
        pure [⟨path ++ js ".maxStringLength", js "RAW_DATA_STRING_MISSING_MAX_LENGTH",
          js "RawData encoding requires maxStringLength on String field '" ++ name ++ js "'"⟩]
      else pure []
    return abstractIssues ++ lengthIssues

def rawDataFieldsIssues : Nat → List (Option Value) → Except RuntimeError (List Issue)
  | _, [] => .ok []
  | i, none :: items => rawDataFieldsIssues (i + 1) items
  | i, some f :: items => do
      let issues ← rawDataIssues host i f
      let rest ← rawDataFieldsIssues (i + 1) items
      return issues ++ rest

/-- The fields of a PublishedDataSet that is there. -/
def fieldsOf? (publishedDataSet : Value) : Option (List (Option Value)) :=
  if publishedDataSet.truthy then (publishedDataSet.member (js "fields")).items? else none

/-- The RawData cross-validation. -/
def crossIssues (mask publishedDataSet : Value) : Except RuntimeError (List Issue) := do
  let rawData ← host.hasRawDataBit (mask.orElse (.num Double.zero))
  if rawData then
    match fieldsOf? publishedDataSet with
    | none =>
        return [⟨js "publishedDataSet", js "RAW_DATA_REQUIRES_PUBLISHED_DS",
          js "RawData encoding requires publishedDataSet on the writer for cross-validation"⟩]
    | some items => rawDataFieldsIssues host 0 items
  else return []

/-- `validateDataSetWriter` -/
def validateDataSetWriter (cfg : Value) : Except RuntimeError Validation :=
  if !cfg.isObject then .ok notAnObject
  else do
    let cross ← crossIssues host (cfg.member (js "dataSetFieldContentMask"))
      (cfg.member (js "publishedDataSet"))
    return validation (
      require ((cfg.member (js "dataSetWriterId")).isUInt16 &&
        !(cfg.member (js "dataSetWriterId")).isZero) (js "dataSetWriterId")
        (js "MUST_BE_NONZERO_UINT16") (js "dataSetWriterId must be 1..65535") ++
      optional (cfg.member (js "dataSetName")) Value.isString (js "dataSetName")
        (js "MUST_BE_STRING") (js "dataSetName must be a string") ++
      optional (cfg.member (js "keyFrameCount")) Value.isNonNegativeInt (js "keyFrameCount")
        (js "MUST_BE_NONNEGATIVE_INTEGER") (js "keyFrameCount must be a non-negative integer") ++
      optional (cfg.member (js "dataSetFieldContentMask")) Value.isInteger
        (js "dataSetFieldContentMask") (js "MUST_BE_INTEGER")
        (js "dataSetFieldContentMask must be an integer (bitmask)") ++
      cross)

/-- The object of a DataSetWriter around its PublishedDataSet. -/
def dataSetWriterObject (cfg pds : Value) : Value :=
  Value.plain [
    (js "dataSetWriterId", cfg.member (js "dataSetWriterId")),
    (js "dataSetName", cfg.member (js "dataSetName")),
    (js "keyFrameCount", (cfg.member (js "keyFrameCount")).orElse (.num (Double.ofInt 1))),
    (js "dataSetFieldContentMask",
      (cfg.member (js "dataSetFieldContentMask")).orElse (.num Double.zero)),
    (js "publishedDataSet", pds)]

/-- The nested PublishedDataSet is built by its own factory. -/
def nestedDataSet (pds : Value) : Except ConfigError Value :=
  if pds.truthy then publishedDataSet pds else .ok .undefined

/-- `DataSetWriter` -/
def dataSetWriter (cfg : Value) : Except ConfigError Value :=
  construct (js "DataSetWriter") (validateDataSetWriter host cfg)
    ((nestedDataSet (cfg.member (js "publishedDataSet"))).map (dataSetWriterObject cfg))

/-! ## DataSetReader -/

/-- `validateDataSetReader` -/
def validateDataSetReader (cfg : Value) : Except RuntimeError Validation :=
  if !cfg.isObject then .ok notAnObject
  else .ok (validation (
    require (!(cfg.member (js "publisherId")).isUndefined ||
      !(cfg.member (js "writerGroupId")).isUndefined ||
      !(cfg.member (js "dataSetWriterId")).isUndefined) [] (js "FILTER_REQUIRED")
      (js "DataSetReader requires at least one of publisherId, writerGroupId, dataSetWriterId") ++
    optional (cfg.member (js "keepAliveTime")) Value.isPositiveNumber (js "keepAliveTime")
      (js "MUST_BE_POSITIVE_NUMBER") (js "keepAliveTime must be > 0") ++
    optional (cfg.member (js "messageReceiveTimeout")) Value.isPositiveNumber
      (js "messageReceiveTimeout") (js "MUST_BE_POSITIVE_NUMBER")
      (js "messageReceiveTimeout must be > 0") ++
    optional (cfg.member (js "dataSetFieldContentMask")) Value.isInteger
      (js "dataSetFieldContentMask") (js "MUST_BE_INTEGER")
      (js "dataSetFieldContentMask must be integer bitmask")))

/-- `Math.max(3 * keepAlive, 5000)`, zero for a `keepAliveTime` that is not there. -/
def defaultTimeout (keepAliveTime : Value) : Double :=
  match keepAliveTime with
  | .num d =>
      if (Value.num d).isPositiveNumber && (d.scale 3).gtInt 5000 then d.scale 3
      else Double.ofInt 5000
  | _ => Double.ofInt 5000

/-- The object of a DataSetReader, with its defaults. -/
def dataSetReaderObject (cfg : Value) : Value :=
  Value.plain [
    (js "publisherId", cfg.member (js "publisherId")),
    (js "writerGroupId", cfg.member (js "writerGroupId")),
    (js "dataSetWriterId", cfg.member (js "dataSetWriterId")),
    (js "keepAliveTime", cfg.member (js "keepAliveTime")),
    (js "messageReceiveTimeout", (cfg.member (js "messageReceiveTimeout")).orElse
      (.num (defaultTimeout (cfg.member (js "keepAliveTime"))))),
    (js "dataSetFieldContentMask",
      (cfg.member (js "dataSetFieldContentMask")).orElse (.num Double.zero))]

/-- `DataSetReader` -/
def dataSetReader (cfg : Value) : Except ConfigError Value :=
  construct (js "DataSetReader") (validateDataSetReader cfg) (.ok (dataSetReaderObject cfg))

end OpcUaSuite.PubSub.Config
