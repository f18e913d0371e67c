import OpcUaSuite.Client.Operations
import OpcUaSuite.Nodes.Item

/-!
# Reads and writes of the client node

How opcua-client resolves the operation of a message, and the handlers of the
operations that take items: the operation of the manager they call, and what they
make of its answer. A handler that throws ends with the message of its error.
-/

namespace OpcUaSuite.Items

open Js Variants ByteCodec

/-- What the handlers use of the runtime besides texts: the lower case of a text that
is not plain ASCII, and the own members of an instance of the library. -/
structure Environment where
  rt : Runtime
  lowerCase : JsString → JsString
  instanceMembers : Value → List (JsString × Value)

/-- The configuration of a client node. -/
structure ClientConfig where
  defaultOperation : Value := .undefined
  unwrapSingle : Bool := false

variable (env : Environment) (config : ClientConfig)

/-! ## Values -/

/-- The members `0`, `1` and so on of a list. -/
def indexed (items : List Value) : List (JsString × Value) :=
  items.zipIdx.map fun p => (decimal p.2, p.1)

/-- `Object.entries(v)` -/
def ownMembers : Value → List (JsString × Value)
  | .object props => props
  | .array items => indexed items
  | .typedArray _ items => indexed (items.map .num)
  | .buffer bytes => indexed (bytes.map fun b => .num (Double.ofInt b.toNat))
  | .nodeId id => env.instanceMembers (.nodeId id)
  | .expandedNodeId id => env.instanceMembers (.expandedNodeId id)
  | .variant dataType arrayType value => env.instanceMembers (.variant dataType arrayType value)
  | .library _ props => props
  | _ => []

/-- `v[name]` of a value that is neither null nor undefined. -/
def member (v : Value) (name : JsString) : Value :=
  (InsertionMap.get? name (ownMembers env v)).getD .undefined

/-- `v[name]` of any value. -/
def readMember (v : Value) (name : JsString) : Except JsString Value :=
  match v with
  | .undefined => .error (js "Cannot read properties of undefined (reading '" ++ name ++ js "')")
  | .null => .error (js "Cannot read properties of null (reading '" ++ name ++ js "')")
  | v => .ok (member env v name)

/-- `v === undefined || v === null` -/
def isNullish : Value → Bool
  | .undefined | .null => true
  | _ => false

/-- `typeof v === "object"`, of a value that is not null. -/
def isObject : Value → Bool
  | .undefined | .null | .bool _ | .num _ | .bigint _ | .str _ => false
  | _ => true

/-- `v || null` as an argument that may be left out. -/
def given (v : Value) : Option Value := if v.truthy then some v else none

def require (b : Bool) (message : JsString) : Except JsString Unit :=
  if b then .ok () else .error message

/-- `parseNodeId`; null where there is none. -/
def parseNodeId (v : Value) : Value :=
  match v with
  | .str s => .ofJs (Utils.parseNodeId (.str s))
  | _ => .null

/-! ## The operation -/

/-- `text.toLowerCase()` -/
def toLowerCase (text : JsString) : JsString :=
  if text.all fun u => decide (u.toNat < 128) then
    text.map fun u => if 65 ≤ u.toNat ∧ u.toNat ≤ 90 then u + 32 else u
  else env.lowerCase text

/-- The operation of a message, or the error of a value without `toLowerCase`. -/
def resolveOperation (msg : Msg) : Except JsString JsString :=
  match orElse (orElse msg.operation config.defaultOperation) (.str (js "read")) with
  | .str text => .ok (toLowerCase env text)
  | _ => .error
      (js "(msg.operation || config.defaultOperation || \"read\").toLowerCase is not a function")

/-! ## Items -/

/-- The items of a batch: those of the message, else those of its payload, an array
of items or an object with an entry for each. -/
def itemSource (ofEntry : JsString × Value → Except JsString Value) (missing : JsString)
    (msg : Msg) : Except JsString (List Value) := do
  let items ←
    match msg.itemList, msg.payload with
    | item :: items, _ => Except.ok (item :: items)
    | [], .array [] => .ok []
    | [], .array (first :: rest) => do
        let nodeId ← readMember env first (js "nodeId")
        .ok (if nodeId.truthy then first :: rest else [])
    | [], payload =>
        if isObject payload then (ownMembers env payload).mapM ofEntry else .ok []
  require (!items.isEmpty) missing
  return items

def itemText (idx : Nat) (message : JsString) : JsString :=
  js "Item[" ++ decimal idx ++ js "]: " ++ message

/-- The parsed NodeId of an item. -/
def itemNodeId (idx : Nat) (item : Value) : Except JsString Value := do
  let nodeId ← readMember env item (js "nodeId")
  let nodeIdStr := orElse nodeId (member env item (js "topic"))
  require nodeIdStr.truthy (itemText idx (js "nodeId missing"))
  let nodeId := parseNodeId nodeIdStr
  require nodeId.truthy (itemText idx (js "Invalid NodeId: " ++ env.rt.text nodeIdStr))
  return nodeId

/-- `items[idx].itemName || items[idx].name || undefined` -/
def itemNameOf (item : Value) : Value :=
  orElse (orElse (member env item (js "itemName")) (member env item (js "name"))) .undefined

/-! ## Handlers -/

/-- The operation a handler calls the manager with, and the members it makes of the
answer. -/
structure Handled where
  operation : Client.Operation Value
  reply : operation.Answer → List (JsString × Value)

def text (s : JsString) : Value := .str s

/-- The members of a read result, with the name of its item. -/
def readMembers (r : Client.ReadResult Value) (itemName : Value) : List (JsString × Value) :=
  [(js "nodeId", (r.nodeId.map text).getD .undefined), (js "value", r.value.getD .undefined),
    (js "dataType", (r.dataType.map text).getD .undefined), (js "statusCode", text r.statusCode),
    (js "sourceTimestamp", r.sourceTimestamp.getD .undefined),
    (js "serverTimestamp", r.serverTimestamp.getD .undefined), (js "itemName", itemName)]

/-- The reply to a batch. -/
def batchReply (operation : JsString) (results : List (List (JsString × Value))) :
    List (JsString × Value) :=
  [(js "payload", .array (results.map .object)), (js "operation", text operation),
    (js "count", .num (Double.ofInt results.length))]

/-- `handleReadMultiple`. An entry of the payload is a NodeId, or an object with one. -/
def handleReadMultiple (msg : Msg) : Except JsString Handled := do
  let ofEntry := fun (name, entry) => do
    let nodeId ← match entry with
      | .str s => .ok (text s)
      | entry => readMember env entry (js "nodeId")
    let datatype := if isObject entry then member env entry (js "datatype") else .undefined
    return Value.object [(js "nodeId", nodeId), (js "name", text name), (js "datatype", datatype)]
  let items ← itemSource env ofEntry (js "msg.items or msg.payload with NodeIds missing") msg
  let nodeIds ← items.zipIdx.mapM fun (item, idx) => itemNodeId env idx item
  let unwrap := if msg.unwrapSingle.isUndefined then config.unwrapSingle
    else msg.unwrapSingle.truthy
  return {
    operation := .readMultiple nodeIds
    reply := fun (results : List (Client.ReadResult Value)) =>
      let enriched := results.mapIdx fun idx r =>
        readMembers r (itemNameOf env (items.getD idx .undefined))
      match unwrap, enriched with
      | true, [single] =>
          (single.map fun e => if e.1 = js "value" then (js "payload", e.2) else e) ++
            [(js "operation", text (js "readmultiple")), (js "count", .num (Double.ofInt (1 : Nat)))]
      | _, enriched => batchReply (js "readmultiple") enriched }

/-- `handleRead` -/
def handleRead (msg : Msg) : Except JsString Handled :=
  match msg.itemList with
  | _ :: _ => handleReadMultiple env config msg
  | [] => do
      let nodeIdString := orElse msg.topic msg.nodeId
      require nodeIdString.truthy (js "NodeId missing (msg.topic or msg.nodeId)")
      let nodeId := parseNodeId nodeIdString
      require nodeId.truthy (js "Invalid NodeId: " ++ env.rt.text nodeIdString)
      return {
        operation := .read nodeId
        reply := fun (r : Client.ReadResult Value) =>
          [(js "payload", r.value.getD .undefined), (js "statusCode", text r.statusCode),
            (js "sourceTimestamp", r.sourceTimestamp.getD .undefined),
            (js "serverTimestamp", r.serverTimestamp.getD .undefined),
            (js "nodeId", nodeIdString)] }

/-- One item of a batch to write. -/
def writeItem (idx : Nat) (item : Value) : Except JsString (Client.WriteItem Value) := do
  let nodeId ← itemNodeId env idx item
  require (!isNullish (member env item (js "value"))) (itemText idx (js "value missing"))
  return {
    nodeId := nodeId
    value := member env item (js "value")
    datatype := given (member env item (js "datatype"))
    dataTypeNodeId := given (member env item (js "dataTypeNodeId"))
    arrayType := given (member env item (js "arrayType")) }

/-- An entry of the payload as an item to write: a value, or an object with one and
its settings. -/
def writeEntry (nodeId : JsString) (valObj : Value) : Value :=
  if isObject valObj && !(member env valObj (js "value")).isUndefined then
    let orNull := fun name => orElse (member env valObj name) .null
    .object [(js "nodeId", text nodeId), (js "value", member env valObj (js "value")),
      (js "datatype", orNull (js "datatype")), (js "dataTypeNodeId", orNull (js "dataTypeNodeId")),
      (js "arrayType", orNull (js "arrayType")), (js "name", member env valObj (js "name"))]
  else .object [(js "nodeId", text nodeId), (js "value", valObj)]

/-- `handleWriteMultiple` -/
def handleWriteMultiple (msg : Msg) : Except JsString Handled := do
  let items ← itemSource env (fun (nodeId, valObj) => .ok (writeEntry env nodeId valObj))
    (js "msg.items or msg.payload with write data missing") msg
  let writeItems ← items.zipIdx.mapM fun (item, idx) => writeItem env idx item
  return {
    operation := .writeMultiple writeItems
    reply := fun (results : List (JsString × Value × JsString)) =>
      batchReply (js "writemultiple") (results.mapIdx fun idx r =>
        [(js "nodeId", text r.1), (js "value", r.2.1), (js "statusCode", text r.2.2),
          (js "itemName", itemNameOf env (items.getD idx .undefined))]) }

/-- `handleWrite` -/
def handleWrite (msg : Msg) : Except JsString Handled :=
  match msg.itemList with
  | _ :: _ => handleWriteMultiple env msg
  | [] => do
      let nodeIdString := orElse msg.topic msg.nodeId
      require nodeIdString.truthy (js "NodeId missing (msg.topic or msg.nodeId)")
      require (!isNullish msg.payload) (js "Value missing (msg.payload)")
      let nodeId := parseNodeId nodeIdString
      require nodeId.truthy (js "Invalid NodeId: " ++ env.rt.text nodeIdString)
      return {
        operation := .write {
          nodeId := nodeId
          value := msg.payload
          datatype := given msg.datatype
          dataTypeNodeId := given msg.dataTypeNodeId
          arrayType := given msg.arrayType }
        reply := fun (statusCode : JsString) =>
          [(js "payload", msg.payload), (js "statusCode", text statusCode),
            (js "nodeId", nodeIdString)] }

/-- `executeOperation` of the operations that take items; the others are `none`. -/
def executeOperation (operation : JsString) (msg : Msg) : Option (Except JsString Handled) :=
  InsertionMap.get? operation
    [(js "read", handleRead env config msg), (js "readmultiple", handleReadMultiple env config msg),
      (js "write", handleWrite env msg), (js "writemultiple", handleWriteMultiple env msg)]

/-- The message with the operation it was resolved to. -/
def Msg.withOperation (msg : Msg) (operation : JsString) : Msg :=
  { msg with operation := text operation }

/-- The call of the manager that a message leads to while the client is connected. -/
def managerCall (msg : Msg) : Option (Client.Operation Value) :=
  match resolveOperation env config msg with
  | .error _ => none
  | .ok operation =>
      match executeOperation env config operation (msg.withOperation operation) with
      | some (.ok handled) => some handled.operation
      | _ => none

end OpcUaSuite.Items
