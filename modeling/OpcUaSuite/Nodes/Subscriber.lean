import OpcUaSuite.JsonEncoder.Codec
import OpcUaSuite.Uadp.Reassembler

/-!
# The subscriber node

What an `opcua-subscriber` makes of a frame: decode, reassemble, filter, unwrap.
The filter values stand as the node has read them from its configuration.
-/

namespace OpcUaSuite.Nodes

open Js ByteCodec PubSub Uadp

/-- The filter of a DataSetReader, of which one member at least is given. -/
structure DataSetReader where
  publisherId : JsValue := .undefined
  writerGroupId : JsValue := .undefined
  dataSetWriterId : JsValue := .undefined
  given : publisherId ≠ .undefined ∨ writerGroupId ≠ .undefined ∨ dataSetWriterId ≠ .undefined
deriving DecidableEq

/-- The ConfigurationVersion a subscriber expects, two numbers. -/
structure ExpectedVersion where
  major : Double
  minor : Double
  isNumber : major ≠ .nan ∧ minor ≠ .nan
deriving DecidableEq

inductive TransportType
  | udp
  | mqtt
deriving DecidableEq

inductive MessageEncoding
  | uadp
  | json
deriving DecidableEq

/-- A subscriber that starts: UDP carries UADP only. -/
structure SubscriberConfig where
  transportType : TransportType
  encoding : MessageEncoding := .uadp
  reader : DataSetReader
  expectedCv : Option ExpectedVersion := none
  udp_uadp : transportType = .udp → encoding = .uadp
deriving DecidableEq

/-- A message the node sends. -/
structure Msg where
  payload : List (JsString × JsValue)
  publisherId : JsValue
  writerGroupId : JsValue
  dataSetWriterId : JsValue
  sequenceNumber : JsValue
  timestamp : JsValue
  statusCode : JsValue
  encoding : MessageEncoding
  transport : TransportType
  topic : Option JsString := none
deriving DecidableEq

/-- What a frame makes the node do. -/
inductive SubscriberOutput
  | send (msg : Msg)
  | versionMismatch (expected : ExpectedVersion) (got : ConfigurationVersion)
  | uadpError (e : UadpError)
  | jsonError (e : JsonEncoder.JsonError)
  | handlerError (e : RuntimeError)
  | warn (w : ReassemblyWarning)
deriving DecidableEq

/-! ## Fields -/

/-- The members of a DataValue without a Variant, in the order they are read. -/
def dataValueMembers (dv : DataValue) : List (JsString × JsValue) :=
  [(js "statusCode", dv.statusCode), (js "sourceTimestamp", dv.sourceTimestamp),
    (js "serverTimestamp", dv.serverTimestamp), (js "sourcePicoseconds", dv.sourcePicoseconds),
    (js "serverPicoseconds", dv.serverPicoseconds)].filter fun m => m.2 ≠ .undefined

/-- `unwrap`; a Variant whose value is an object with a `value` is taken for a
DataValue. -/
def unwrap : Field → JsValue
  | .null => .null
  | .variant v =>
      match v.value with
      | .object props => (Props.get? (js "value") props).getD (.object props)
      | value => value
  | .dataValue dv =>
      match dv.value with
      | some (some v) => v.value
      | some none => .null
      | none => .object (dataValueMembers dv)

/-- The payload of a message: the fields unwrapped, key by key. -/
def unwrapFields (fields : List (JsString × Field)) : List (JsString × JsValue) :=
  Props.ofEntries (fields.map fun e => (e.1, unwrap e.2))

/-! ## Filter -/

variable (host : Host) (config : SubscriberConfig)

/-- `String(reader.publisherId)` and `String(publisherId)` are there to be compared. -/
def comparable (publisherId : JsValue) : Bool :=
  decide (config.reader.publisherId = .undefined) ||
    (convertible config.reader.publisherId && convertible publisherId)

/-- The filter of step a, on what was decoded. -/
def accepts (publisherId writerGroupId dataSetWriterId : JsValue) : Bool :=
  let reader := config.reader
  comparable config publisherId &&
  (decide (reader.publisherId = .undefined) ||
    decide (host.toText reader.publisherId = host.toText publisherId)) &&
  (decide (reader.writerGroupId = .undefined) ||
    reader.writerGroupId.strictEq writerGroupId) &&
  (decide (reader.dataSetWriterId = .undefined) ||
    reader.dataSetWriterId.strictEq dataSetWriterId)

/-- The version check of step b finds another version, which it reports. -/
def mismatch? (got : Option ConfigurationVersion) : Option SubscriberOutput :=
  match config.expectedCv, got with
  | some expected, some got =>
      if got.major.strictEq (.num expected.major) && got.minor.strictEq (.num expected.minor) then
        none
      else some (.versionMismatch expected got)
  | _, _ => none

/-! ## Messages -/

/-- The topic, over MQTT and when it is known. -/
def topicOf (topic : Option JsString) : Option JsString :=
  match config.transportType with
  | .udp => none
  | .mqtt => topic.filter fun t => !t.isEmpty

/-- The message of step d. -/
def msgOf (now : Int) (topic : Option JsString) (nm : NetworkMessage) (dataSetWriterId : JsValue)
    (dsm : DataSetMessage) : Msg where
  payload := unwrapFields (dsm.fields.getD [])
  publisherId := nm.publisherId
  writerGroupId := (nm.groupHeader.map (·.writerGroupId)).getD .undefined
  dataSetWriterId := dataSetWriterId
  sequenceNumber :=
    let nmSeq := (nm.groupHeader.map (·.sequenceNumber)).getD .undefined
    if nmSeq ≠ .undefined then nmSeq else dsm.sequenceNumber
  timestamp :=
    if dsm.timestamp.truthy then dsm.timestamp
    else if nm.timestamp.truthy then nm.timestamp
    else .date (some now)
  statusCode := if dsm.status ≠ .undefined then dsm.status else .num Double.zero
  encoding := config.encoding
  transport := config.transportType
  topic := topicOf config topic

/-- The error of step b has a text. -/
def printableVersion (got : Option ConfigurationVersion) : Bool :=
  got.all fun cv => convertible cv.major && convertible cv.minor

/-- One round of the loop: nothing for a message that is filtered out, and an
error for another version. An object without a text, as a PublisherId or in the
version reported, raises. -/
def handleDataSetMessage (now : Int) (topic : Option JsString) (nm : NetworkMessage) (i : Nat)
    (dsm : DataSetMessage) : Except RuntimeError (List SubscriberOutput) :=
  let dataSetWriterId :=
    if dsm.dataSetWriterId ≠ .undefined then dsm.dataSetWriterId
    else (nm.payloadHeader.getD []).getD i .undefined
  let writerGroupId := (nm.groupHeader.map (·.writerGroupId)).getD .undefined
  if !comparable config nm.publisherId then .error .typeError
  else if accepts host config nm.publisherId writerGroupId dataSetWriterId then
    match mismatch? config dsm.configurationVersion with
    | some error =>
        if printableVersion dsm.configurationVersion then .ok [error] else .error .typeError
    | none => .ok [.send (msgOf config now topic nm dataSetWriterId dsm)]
  else .ok []

/-- The loop from an index on. What a round raises ends it, and is reported. -/
def handleMessages (now : Int) (topic : Option JsString) (nm : NetworkMessage) :
    Nat → List DataSetMessage → List SubscriberOutput
  | _, [] => []
  | i, dsm :: dsms =>
      match handleDataSetMessage host config now topic nm i dsm with
      | .error e => [.handlerError e]
      | .ok outputs => outputs ++ handleMessages now topic nm (i + 1) dsms

/-- `handleNetworkMessage` -/
def handleNetworkMessage (now : Int) (topic : Option JsString) (nm : NetworkMessage) :
    List SubscriberOutput :=
  handleMessages host config now topic nm 0 nm.payload

/-! ## Frames -/

/-- `MQTT_MAX_REASSEMBLED_SIZE` -/
def mqttMaxReassembledSize : Nat := 16 * 1024 * 1024

/-- A whole message, decoded and handled. -/
def handleWhole (now : Int) (topic : Option JsString) (buffer : Bytes) : List SubscriberOutput :=
  match Uadp.decodeNetworkMessage buffer with
  | .error e => [.uadpError e]
  | .ok nm => handleNetworkMessage host config now topic nm

/-- `onMessage` with UADP. Over UDP the transport has reassembled the chunks;
over MQTT the node does, and decodes the whole without a look at its chunk flag. -/
def onMessage (now : Int) (topic : Option JsString) (r : Reassembler) (buffer : Bytes) :
    Reassembler × List SubscriberOutput :=
  match Uadp.decodeNetworkMessage buffer with
  | .error e => (r, [.uadpError e])
  | .ok nm =>
      match asChunk nm with
      | none => (r, handleNetworkMessage host config now topic nm)
      | some m =>
          match config.transportType with
          | .udp => (r, [])
          | .mqtt =>
              let pushed := push host r now m
              (pushed.state, pushed.warnings.map .warn ++
                (pushed.output.map (handleWhole host config now topic)).getD [])

/-- `onMessage` with JSON. -/
def onText (now : Int) (topic : Option JsString) (text : JsonEncoder.Text) :
    List SubscriberOutput :=
  match JsonEncoder.decodeNetworkMessage host text with
  | .error e => [.jsonError e]
  | .ok nm => handleNetworkMessage host config now topic nm

/-- The messages among the outputs. -/
def sent (outputs : List SubscriberOutput) : List Msg :=
  outputs.filterMap fun
    | .send msg => some msg
    | _ => none

end OpcUaSuite.Nodes
