import OpcUaSuite.Js.Json
import OpcUaSuite.Lib.Base64
import OpcUaSuite.Uadp.Variant
import OpcUaSuite.Utils.NodeId

/-!
# The JSON codec

`encodeNetworkMessage` and `decodeNetworkMessage` of the JSON encoder. A text is
represented by the value it parses to, and a text that is no JSON by none. The
members of an object stand in the order of its keys, which parsing keeps.
-/

namespace OpcUaSuite.JsonEncoder

open Js ByteCodec PubSub Utils

/-- What `JSON.parse` makes of a text. -/
abbrev Text := Option JsValue

/-! ## Errors -/

/-- The errors of the encoder and the decoder, with the path the decoder reports. -/
inductive JsonError
  | encodeUnknownType (dataType : Option DataTypeRef)
  | parse
  | topLevel
  | requiredMissing (field : JsString)
  | messagesNoArray
  | dataSetMessageMissing (path : JsString)
  | payloadMissing (path : JsString)
  | variantMissing (path : JsString)
  | uaTypeNoNumber (path : JsString)
  | runtime (e : RuntimeError)
deriving DecidableEq

namespace JsonError

/-- The `code` of an error of the decoder. -/
def code : JsonError → Option JsString
  | .encodeUnknownType _ | .runtime _ => none
  | .parse => some (js "JSON_DECODE_PARSE_ERROR")
  | .topLevel | .messagesNoArray | .uaTypeNoNumber _ => some (js "JSON_DECODE_INVALID_TYPE")
  | .requiredMissing _ | .dataSetMessageMissing _ | .payloadMissing _ | .variantMissing _ =>
      some (js "JSON_DECODE_MISSING_FIELD")

/-- The `path` of an error of the decoder. -/
def path : JsonError → Option JsString
  | .encodeUnknownType _ | .runtime _ => none
  | .parse | .topLevel => some []
  | .requiredMissing field => some field
  | .messagesNoArray => some (js "Messages")
  | .dataSetMessageMissing path | .variantMissing path => some path
  | .payloadMissing path => some (path ++ js ".Payload")
  | .uaTypeNoNumber path => some (path ++ js ".UaType")

end JsonError

def liftRuntime {α : Type} : Except RuntimeError α → Except JsonError α
  | .ok a => .ok a
  | .error e => .error (.runtime e)

/-! ## Value conversion -/

/-- The ordinal of NodeId in `UA_TYPE`. -/
def nodeIdOrdinal : Nat := 17

/-- The lookup in `UA_TYPE`: the types of the binary encoder and NodeId. -/
def uaTypeOf (dataType : DataTypeRef) : Uadp.BuiltIn :=
  if dataType = .name (js "NodeId") then .number nodeIdOrdinal else Uadp.builtInOf dataType

variable (host : Host)

def isNodeIdObject (props : List (JsString × JsValue)) : Bool :=
  (Props.get? (js "identifierType") props).isSome && (Props.get? (js "namespaceIndex") props).isSome

/-- `Date.prototype.toISOString` -/
def toISOString : Option Int → Except RuntimeError JsValue
  | none => .error .rangeError
  | some time => .ok (.str (isoText time))

mutual

/-- `_convertValueForJson` -/
def convertValueForJson : JsValue → Except RuntimeError JsValue
  | .undefined | .null => .ok .null
  | .bigint i => .ok (.str (intText i))
  | .buffer bytes => .ok (.str (Base64.encode bytes))
  | .date time => toISOString time
  | .object props =>
      .ok (if isNodeIdObject props then .str (nodeIdToString host props) else .object props)
  | .array items => do
      let converted ← convertItemsForJson items
      return .array converted
  | .bool b => .ok (.bool b)
  | .num d => .ok (.num d)
  | .str s => .ok (.str s)

def convertItemsForJson : List JsValue → Except RuntimeError (List JsValue)
  | [] => .ok []
  | v :: vs => do
      let converted ← convertValueForJson v
      let rest ← convertItemsForJson vs
      return converted :: rest

end

mutual

/-- `_convertValueFromJson` for a type without a conversion of its own. -/
def plainFromJson : JsValue → JsValue
  | .undefined | .null => .null
  | .array items => .array (plainItemsFromJson items)
  | .bool b => .bool b
  | .num d => .num d
  | .bigint i => .bigint i
  | .str s => .str s
  | .date time => .date time
  | .buffer bytes => .buffer bytes
  | .object props => .object props

def plainItemsFromJson : List JsValue → List JsValue
  | [] => []
  | v :: vs => plainFromJson v :: plainItemsFromJson vs

end

mutual

/-- How deep arrays are nested in a value. -/
def arrayLevels : JsValue → Nat
  | .array items => itemLevels items + 1
  | .undefined | .null | .bool _ | .num _ | .bigint _ | .str _ | .date _ | .buffer _
  | .object _ => 0

def itemLevels : List JsValue → Nat
  | [] => 0
  | v :: vs => max (arrayLevels v) (itemLevels vs)

end

/-- The mapping calls itself for every level of arrays, as far as the stack goes. -/
def mapped (v : JsValue) : Except RuntimeError JsValue :=
  if arrayLevels v ≤ host.mapLevels then .ok (plainFromJson v) else .error .rangeError

/-- Turning a value into a primitive: an object may have none, and the text of nested
arrays takes a call for every level. -/
def toPrimitive (v : JsValue) : Except RuntimeError Unit :=
  if convertible v = false then .error .typeError
  else if arrayLevels v ≤ host.joinLevels then .ok ()
  else .error .rangeError

/-- `new Date(v)` -/
def dateOf (v : JsValue) : Except RuntimeError JsValue :=
  (toPrimitive host v).map fun _ => host.newDate v

/-- `_convertValueFromJson` -/
def convertValueFromJson (value : JsValue) (uaType : Double) : Except RuntimeError JsValue :=
  if value.isNullish then .ok .null
  else if uaType = Double.ofInt 13 then dateOf host value
  else if uaType = Double.ofInt 15 then (host.bufferBase64 value).map .buffer
  else if uaType = Double.ofInt 17 then .ok (parseNodeId value)
  else if uaType = Double.ofInt 8 ∨ uaType = Double.ofInt 9 then (host.toBigInt value).map .bigint
  else mapped host value

/-! ## Encoding -/

/-- The text of an object with these members. -/
def objectText (members : List (JsString × Text)) : Text :=
  (members.mapM fun m : JsString × Text => m.2.map fun v => (m.1, v)).map .object

def arrayText (items : List Text) : Text := (items.mapM id).map .array

/-- The text a template puts for the type of a Variant; a member that `UA_TYPE`
inherits is no JSON. -/
def uaTypeText : Uadp.BuiltIn → Text
  | .number n => some (.nat n)
  | .fraction d => if d.isFinite then some (.num d) else none
  | .missing | .inherited => none

/-- `_encodeVariant` -/
def encodeVariant (v : Variant) : Except JsonError Text :=
  match uaTypeOf v.dataType with
  | .missing => .error (.encodeUnknownType (some v.dataType))
  | uaType => do
      let converted ← liftRuntime (convertValueForJson host v.value)
      let value ← liftRuntime (Json.stringify converted)
      return objectText [(js "UaType", uaTypeText uaType), (js "Value", value)]

/-- A field that is no Variant has no type. -/
def encodeField : Field → Except JsonError Text
  | .null => .error (.runtime .typeError)
  | .variant v => encodeVariant host v
  | .dataValue _ => .error (.encodeUnknownType none)

/-- A member that is left out when it is undefined. -/
def memberText (name : JsString) (v : JsValue) : Except JsonError (List (JsString × Text)) :=
  if v = .undefined then .ok []
  else do
    let text ← liftRuntime (Json.stringify v)
    return [(name, text)]

/-- A member that is there for a Date only. -/
def dateText (name : JsString) : JsValue → Except JsonError (List (JsString × Text))
  | .date time => do
      let text ← liftRuntime (toISOString time)
      return [(name, some text)]
  | _ => .ok []

/-- `MESSAGE_TYPE_WIRE` -/
def messageTypeWire : MessageType → JsString
  | .keyframe => js "ua-keyframe"
  | .deltaframe => js "ua-deltaframe"
  | .event => js "ua-event"
  | .keepalive => js "ua-keepalive"

def versionText : Option ConfigurationVersion → Except JsonError (List (JsString × Text))
  | none => .ok []
  | some cv => do
      let major ← liftRuntime (Json.stringify cv.major)
      let minor ← liftRuntime (Json.stringify cv.minor)
      return [(js "MetaDataVersion",
        objectText [(js "MajorVersion", major), (js "MinorVersion", minor)])]

def encodeNamedField (entry : JsString × Field) : Except JsonError (JsString × Text) := do
  let text ← encodeField host entry.2
  return (entry.1, text)

/-- `_encodeDataSetMessage` -/
def encodeDataSetMessage (dsm : DataSetMessage) : Except JsonError Text := do
  let writerId ← memberText (js "DataSetWriterId") dsm.dataSetWriterId
  let writerName ← memberText (js "DataSetWriterName") dsm.dataSetWriterName
  let publisherId :=
    if dsm.publisherId = .undefined then []
    else [(js "PublisherId", some (.str (host.toText dsm.publisherId)))]
  let writerGroupName ← memberText (js "WriterGroupName") dsm.writerGroupName
  let sequenceNumber ← memberText (js "SequenceNumber") dsm.sequenceNumber
  let version ← versionText dsm.configurationVersion
  let timestamp ← dateText (js "Timestamp") dsm.timestamp
  let status ← memberText (js "Status") dsm.status
  let messageType := messageTypeWire (dsm.messageType.getD .keyframe)
  let fields ← (dsm.fields.getD []).mapM (encodeNamedField host)
  return objectText (writerId ++ writerName ++ publisherId ++ writerGroupName ++ sequenceNumber ++
    version ++ timestamp ++ status ++
    [(js "MessageType", some (.str messageType)), (js "Payload", objectText fields)])

/-- A BigInt is printed as its decimal text. -/
def publisherIdText (v : JsValue) : Except JsonError (List (JsString × Text)) :=
  match v with
  | .bigint i => .ok [(js "PublisherId", some (.str (intText i)))]
  | v => memberText (js "PublisherId") v

/-- A member that is there when its value is truthy. -/
def classIdText (v : JsValue) : Except JsonError (List (JsString × Text)) :=
  if v.truthy then memberText (js "DataSetClassId") v else .ok []

def groupHeaderText : Option GroupHeader → Except JsonError (List (JsString × Text))
  | none => .ok []
  | some gh => do
      let writerGroupId ← memberText (js "WriterGroupId") gh.writerGroupId
      let sequenceNumber ← memberText (js "SequenceNumber") gh.sequenceNumber
      return writerGroupId ++ sequenceNumber

/-- `encodeNetworkMessage`; a message without an id gets a random one. -/
def encodeNetworkMessage (uuid : JsString) (nm : NetworkMessage) : Except JsonError Text := do
  let messageId ← liftRuntime (Json.stringify
    (if nm.messageId.truthy then nm.messageId else .str uuid))
  let publisherId ← publisherIdText nm.publisherId
  let writerGroupName ← memberText (js "WriterGroupName") nm.writerGroupName
  let dataSetClassId ← classIdText nm.dataSetClassId
  let groupHeader ← groupHeaderText nm.groupHeader
  let timestamp ← dateText (js "Timestamp") nm.timestamp
  let messages ← nm.payload.mapM (encodeDataSetMessage host)
  return objectText ([(js "MessageId", messageId), (js "MessageType", some (.str (js "ua-data")))] ++
    publisherId ++ writerGroupName ++ dataSetClassId ++ groupHeader ++ timestamp ++
    [(js "Messages", arrayText messages)])

/-! ## Decoding -/

/-- A member of a parsed value; no name read here is inherited. -/
def memberOf (v : JsValue) (name : JsString) : JsValue :=
  (Props.get? name (ownProps v)).getD .undefined

/-- `v && typeof v === "object"` of a parsed value. -/
def isObject : JsValue → Bool
  | .array _ | .object _ => true
  | _ => false

/-- The ordinal a number of a text is, if it is one. -/
def dataTypeOf (d : Double) : DataTypeRef :=
  if d.isInteger && 0 ≤ d.trunc then .ordinal d.trunc.toNat else .number d

/-- `_decodeVariant` -/
def decodeVariant (v : JsValue) (path : JsString) : Except JsonError Variant :=
  if isObject v then
    match memberOf v (js "UaType") with
    | .num uaType => do
        let value ← liftRuntime (convertValueFromJson host (memberOf v (js "Value")) uaType)
        return ⟨dataTypeOf uaType, value, none⟩
    | _ => .error (.uaTypeNoNumber path)
  else .error (.variantMissing path)

/-- `MESSAGE_TYPE_MODEL`, with its default; what the table inherits is no message
type. -/
def messageTypeModel (v : JsValue) : Option MessageType :=
  if host.toText v ∈ inheritedNames then none
  else some (([MessageType.keyframe, .deltaframe, .event, .keepalive].find? fun t =>
    messageTypeWire t = host.toText v).getD .keyframe)

/-- The lookup in `MESSAGE_TYPE_MODEL`; its key is turned into a text first. -/
def messageTypeOf (v : JsValue) : Except RuntimeError (Option MessageType) :=
  (toPrimitive host v).map fun _ => messageTypeModel host v

/-- The entries of a payload, decoded in their order. -/
def decodeFields (path : JsString) : List (JsString × JsValue) →
    Except JsonError (List (JsString × Field))
  | [] => .ok []
  | (name, v) :: entries => do
      let variant ← decodeVariant host v (path ++ js ".Payload." ++ name)
      let rest ← decodeFields path entries
      return (name, .variant variant) :: rest

def versionOf (v : JsValue) : Option ConfigurationVersion :=
  if v.truthy then some ⟨memberOf v (js "MajorVersion"), memberOf v (js "MinorVersion")⟩ else none

/-- A date that is there when its text is. -/
def timestampOf (v : JsValue) : Except RuntimeError JsValue :=
  if v.truthy then dateOf host v else .ok .undefined

/-- `_decodeDataSetMessage` -/
def decodeDataSetMessage (v : JsValue) (path : JsString) : Except JsonError DataSetMessage :=
  if isObject v then do
    let timestamp ← liftRuntime (timestampOf host (memberOf v (js "Timestamp")))
    let messageType ← liftRuntime (messageTypeOf host (memberOf v (js "MessageType")))
    if isObject (memberOf v (js "Payload")) then
      let fields ← decodeFields host path (ownProps (memberOf v (js "Payload")))
      return {
        dataSetWriterId := memberOf v (js "DataSetWriterId")
        dataSetWriterName := memberOf v (js "DataSetWriterName")
        publisherId := memberOf v (js "PublisherId")
        writerGroupName := memberOf v (js "WriterGroupName")
        sequenceNumber := memberOf v (js "SequenceNumber")
        configurationVersion := versionOf (memberOf v (js "MetaDataVersion"))
        timestamp := timestamp
        status := memberOf v (js "Status")
        messageType := messageType
        fields := some (Props.ofEntries fields) }
    else .error (.payloadMissing path)
  else .error (.dataSetMessageMissing path)

def decodeMessages : Nat → List JsValue → Except JsonError (List DataSetMessage)
  | _, [] => .ok []
  | i, v :: vs => do
      let dsm ← decodeDataSetMessage host v (js "Messages[" ++ decimal i ++ js "]")
      let rest ← decodeMessages (i + 1) vs
      return dsm :: rest

/-- The group header, when one of its two members is there. -/
def groupHeaderOf (v : JsValue) : Option GroupHeader :=
  if memberOf v (js "WriterGroupId") ≠ .undefined ∨ memberOf v (js "SequenceNumber") ≠ .undefined then
    some { writerGroupId := memberOf v (js "WriterGroupId")
           sequenceNumber := memberOf v (js "SequenceNumber") }
  else none

/-- The first required member that is missing. -/
def missingMember? (v : JsValue) : Option JsString :=
  [js "MessageId", js "MessageType", js "Messages"].find? fun name => memberOf v name = .undefined

def decodeObject (v : JsValue) : Except JsonError NetworkMessage :=
  match memberOf v (js "Messages") with
  | .array messages => do
      let timestamp ← liftRuntime (timestampOf host (memberOf v (js "Timestamp")))
      let payload ← decodeMessages host 0 messages
      return {
        messageId := memberOf v (js "MessageId")
        publisherId := memberOf v (js "PublisherId")
        writerGroupName := memberOf v (js "WriterGroupName")
        dataSetClassId :=
          if (memberOf v (js "DataSetClassId")).truthy then memberOf v (js "DataSetClassId")
          else .undefined
        groupHeader := groupHeaderOf v
        timestamp := timestamp
        payload := payload }
  | _ => .error .messagesNoArray

/-- `decodeNetworkMessage` -/
def decodeNetworkMessage : Text → Except JsonError NetworkMessage
  | none => .error .parse
  | some v =>
      if isObject v then
        match missingMember? v with
        | some name => .error (.requiredMissing name)
        | none => decodeObject host v
      else .error .topLevel

end OpcUaSuite.JsonEncoder
