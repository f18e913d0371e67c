import OpcUaSuite.Lib.Effect
import OpcUaSuite.Variants.Build

/-!
# Commands of the server node

The input handler of opcua-server with its command handlers. The address space
belongs to the library; each call on it either changes it and returns, or throws and
leaves it as it was. A handler that throws answers with an error.
-/

namespace OpcUaSuite.Server

open Js Variants

/-! ## The address space -/

/-- `NodeClass`, as far as the handlers look at it. -/
inductive NodeClass
  | Object
  | ObjectType
  | other
deriving DecidableEq

/-- The options of `addFolder`, `addObject` and `addMethod`. -/
structure NodeOptions where
  organizedBy : Value
  browseName : Value
  nodeId : Value

structure VariableOptions where
  organizedBy : Value
  componentOf : Value
  browseName : Value
  nodeId : Value
  dataType : DataType
  value : Value

structure Argument where
  name : Value
  dataType : Value
  description : Value

/-- What `map` makes of the arguments of a message: the entries of a list or, from a
typed array or a buffer, another one, in which an object has no number. -/
inductive Arguments
  | entries (items : List Argument)
  | numbers (v : Value)

structure MethodOptions where
  browseName : Value
  nodeId : Value
  inputArguments : Arguments
  outputArguments : Arguments

/-- The handler a method is bound to: a function made of a text, or the one that
returns a default value for each output. -/
inductive MethodHandler
  | user (body : JsString)
  | default (outputs : Arguments)

/-- The calls on an address space with states `S`, nodes `N` and methods `M`. -/
structure AddressSpace (S N M : Type) where
  addFolder : NodeOptions → S → Except JsString (N × S)
  addObject : NodeOptions → S → Except JsString (N × S)
  addVariable : VariableOptions → S → Except JsString (N × S)
  addMethod : N → MethodOptions → S → Except JsString (M × S)
  bindMethod : M → MethodHandler → S → Except JsString (Unit × S)
  findNode : Value → S → Except JsString (Option N)
  findInNamespace : Value → S → Except JsString (Option N)
  resolveNodeId : Value → S → Except JsString Value
  nodeClass : N → S → NodeClass
  basicDataType : N → S → Option DataType
  setValueFromSource : N → Value → S → Except JsString (Unit × S)
  deleteNode : N → S → Except JsString (Unit × S)
  setAccessLevel : N → Nat → S → S
  setUserAccessLevel : N → Nat → S → S
  findEventType : Value → S → Except JsString (Option Value)
  raiseEvent : N → Value → Value → Value → S → Except JsString (Unit × S)
  namespaceIndex : S → Nat
  serverInfo : S → Except JsString Value
  nodeIdText : N → JsString
  methodIdText : M → JsString

/-- What the handlers use besides: the Variants, `coerceLocalizedText`, the lookup
`DataType[name]` in the enum object and the `Function` constructor, which throws on a
text that is no function body. -/
structure Environment where
  lib : Library
  rt : Runtime
  coerceLocalizedText : Value → Except JsString Value
  dataTypeMember : Value → Value
  newFunction : JsString → Except JsString Unit

variable {S N M : Type} (env : Environment) (space : AddressSpace S N M)

abbrev Command (S : Type) := Effect JsString S

/-! ## Messages -/

/-- `a || b` -/
def orElse (a b : Value) : Value := if a.truthy then a else b

/-- `msg[name] || msg.payload?.[name]` -/
def field (msg : Value) (name : JsString) : Value :=
  orElse (msg.member name) ((msg.member (js "payload")).member name)

/-- `msg.nodeId || msg.topic` -/
def nodeIdOf (msg : Value) : Value := orElse (msg.member (js "nodeId")) (msg.member (js "topic"))

def text (s : JsString) : Value := .str s

/-- `isStandardObjectsFolder` -/
def isStandardObjectsFolder (rt : Runtime) (parentNodeId : Value) : Bool :=
  parentNodeId.truthy &&
    decide (rt.text parentNodeId ∈ [js "ObjectsFolder", js "i=85", js "ns=0;i=85"])

/-- `getDefaultValue` -/
def getDefaultValue : DataType → Value
  | .Boolean => .bool false
  | .SByte | .Byte | .Int16 | .Int32 | .Int64 | .UInt16 | .UInt32 | .UInt64 | .Float | .Double =>
      .num Double.zero
  | .String => .str []
  | _ => .null

/-- `inferDataTypeFromValue` -/
def inferDataTypeFromValue : Value → DataType
  | .bool _ => .Boolean
  | .str _ => .String
  | .date _ => .DateTime
  | .num d => if d.isInteger then .Int32 else .Double
  | _ => .Double

/-! ## Handlers -/

/-- `handleAddFolder` -/
def handleAddFolder (msg : Value) : Command S Value := do
  let folderName := field msg (js "folderName")
  let parentNodeId := orElse (field msg (js "parentNodeId")) (text (js "ObjectsFolder"))
  Effect.require folderName.truthy (js "folderName missing")
  let folder ← Effect.call (space.addFolder
    ⟨parentNodeId, folderName, orElse (msg.member (js "nodeId")) .undefined⟩)
  return .object [(js "payload", text (space.nodeIdText folder)),
    (js "nodeId", text (space.nodeIdText folder)), (js "folderName", folderName)]

/-- The enum number of a DataType, as the handlers pass it on. -/
def typeValue (t : DataType) : Value := .num (Double.ofInt t.ordinal)

/-- `handleAddVariable` -/
def handleAddVariable (msg : Value) : Command S Value := do
  let variableName := field msg (js "variableName")
  let parentNodeId := orElse (field msg (js "parentNodeId")) (text (js "ObjectsFolder"))
  let datatype := orElse (field msg (js "datatype")) (text (js "Double"))
  let initialValue :=
    if (msg.member (js "initialValue")).isUndefined then
      (msg.member (js "payload")).member (js "initialValue")
    else msg.member (js "initialValue")
  Effect.require variableName.truthy (js "variableName missing")
  let resolved ← Effect.lift (resolveDataType env.rt datatype)
  let dataType := resolved.getD .Double
  let variant ← Effect.lift (
    if initialValue.isUndefined then
      env.lib.newVariant ⟨some dataType, none, getDefaultValue dataType⟩
    else buildVariant env.lib env.rt initialValue (typeValue dataType) .null)
  let standard := isStandardObjectsFolder env.rt parentNodeId
  let variable' ← Effect.call (space.addVariable
    { organizedBy := if standard then parentNodeId else .undefined
      componentOf := if standard then .undefined else parentNodeId
      browseName := variableName
      nodeId := orElse (msg.member (js "nodeId")) .undefined
      dataType := dataType
      value := variant })
  return .object [(js "payload", text (space.nodeIdText variable')),
    (js "nodeId", text (space.nodeIdText variable')), (js "variableName", variableName),
    (js "value", initialValue)]

/-- `resolveSetValueDataType` -/
def resolveSetValueDataType (msg : Value) (node : N) : Command S DataType := do
  let explicit ← Effect.lift (resolveDataType env.rt (msg.member (js "datatype")))
  let declared ← Effect.query fun s => .ok (space.basicDataType node s)
  return (explicit.or declared).getD (inferDataTypeFromValue (msg.member (js "payload")))

/-- A node that is found, else an error. -/
def found (rt : Runtime) (what : JsString) (nodeId : Value) (node : Option N) : Command S N :=
  match node with
  | some node => pure node
  | none => Effect.fail (what ++ rt.text nodeId)

/-- `handleSetValue` -/
def handleSetValue (msg : Value) : Command S Value := do
  let nodeId := nodeIdOf msg
  let value := msg.member (js "payload")
  Effect.require nodeId.truthy (js "nodeId missing")
  Effect.require (match value with
    | .undefined | .null => false
    | _ => true) (js "Value missing")
  let node? ← Effect.query (space.findInNamespace nodeId)
  let node ← found env.rt (js "Node not found: ") nodeId node?
  let dataType ← resolveSetValueDataType env space msg node
  let variant ← Effect.lift (buildVariant env.lib env.rt value (typeValue dataType) .null)
  Effect.call (space.setValueFromSource node variant)
  return .object [(js "payload", value), (js "nodeId", nodeId), (js "statusCode", text (js "Good"))]

/-- `handleDeleteNode` -/
def handleDeleteNode (msg : Value) : Command S Value := do
  let nodeId := nodeIdOf msg
  Effect.require nodeId.truthy (js "nodeId missing")
  let node? ← Effect.query (space.findInNamespace nodeId)
  let node ← found env.rt (js "Node not found: ") nodeId node?
  Effect.call (space.deleteNode node)
  return .object [(js "payload", .bool true), (js "nodeId", nodeId)]

/-- One entry of `inputArguments` or `outputArguments`. -/
def argument (v : Value) : Except JsString Argument :=
  match v with
  | .undefined => .error (js "Cannot read properties of undefined (reading 'name')")
  | .null => .error (js "Cannot read properties of null (reading 'name')")
  | v => do
      let dataType := env.dataTypeMember (v.member (js "dataType"))
      let description ← env.coerceLocalizedText
        (orElse (v.member (js "description")) (v.member (js "name")))
      return ⟨v.member (js "name"), orElse dataType (typeValue .String), description⟩

/-- What an element of a typed array becomes when an object is stored in it. -/
def ofObject : TypedArray → Double
  | .Float32 | .Float64 => .nan
  | _ => Double.ofInt (0 : Nat)

/-- The arguments of a method, none when the message has no list of them. -/
def arguments (msg : Value) (name : JsString) : Except JsString Arguments :=
  match orElse (field msg name) (.array []) with
  | .array items => do return .entries (← items.mapM (argument env))
  | .typedArray kind items => do
      let entries ← items.mapM fun item => argument env (.num item)
      return .numbers (.typedArray kind (entries.map fun _ => ofObject kind))
  | .buffer bytes => do
      let entries ← bytes.mapM fun byte => argument env (.num (Double.ofInt byte.toNat))
      return .numbers (.buffer (entries.map fun _ => 0))
  | _ => .error (js "(msg." ++ name ++ js " || (intermediate value) || []).map is not a function")

/-- The part of `handleAddMethod` that checks the message and creates the method. -/
def createMethod (msg : Value) : Command S (M × Arguments) := do
  let methodName := field msg (js "methodName")
  let parentNodeId := field msg (js "parentNodeId")
  Effect.require methodName.truthy (js "methodName missing")
  Effect.require (parentNodeId.truthy && !isStandardObjectsFolder env.rt parentNodeId)
    (js "addMethod requires msg.parentNodeId of an object node (e.g. created via addObject); OPC UA does not allow methods directly under the standard Objects folder")
  let invalid := fun message : JsString =>
    js "Invalid parentNodeId \"" ++ env.rt.text parentNodeId ++ js "\": " ++ message
  let parentNode? ← Effect.query fun s => (do
    let id ← space.resolveNodeId parentNodeId s
    space.findNode id s : Except JsString (Option N)).mapError invalid
  let parentNode ← found env.rt (js "Parent node not found: ") parentNodeId parentNode?
  let nodeClass ← Effect.query fun s => .ok (space.nodeClass parentNode s)
  Effect.require (decide (nodeClass ≠ .other)) (js "Parent node " ++ env.rt.text parentNodeId ++
    js " is not an Object or ObjectType — methods must be attached to an object")
  let inputArguments ← Effect.lift (arguments env msg (js "inputArguments"))
  let outputArguments ← Effect.lift (arguments env msg (js "outputArguments"))
  let method ← Effect.call (space.addMethod parentNode
    ⟨methodName, orElse (msg.member (js "nodeId")) .undefined, inputArguments, outputArguments⟩)
  return (method, outputArguments)

/-- The function body of the message becomes the handler, where the node allows it. -/
def makeHandler (allowMsgFunc : Bool) (msg : Value) (outputs : Arguments) :
    Except JsString MethodHandler :=
  let funcBody := field msg (js "func")
  if funcBody.truthy && !allowMsgFunc then
    .error (js "msg.func is disabled on this server node. It is evaluated as JavaScript (new Function) and therefore only safe when every upstream node is trusted. Enable \"Allow method code from msg.func\" in the node configuration to use it.")
  else match funcBody with
    | .str (u :: body) => (env.newFunction (u :: body)).map fun _ => .user (u :: body)
    | _ => .ok (.default outputs)

/-- `handleAddMethod` -/
def handleAddMethod (allowMsgFunc : Bool) (msg : Value) : Command S Value := do
  let (method, outputs) ← createMethod env space msg
  let handler ← Effect.lift (makeHandler env allowMsgFunc msg outputs)
  Effect.call (space.bindMethod method handler)
  return .object [(js "payload", text (space.methodIdText method)),
    (js "nodeId", text (space.methodIdText method)), (js "methodName", field msg (js "methodName"))]

/-- `handleAddObject` -/
def handleAddObject (msg : Value) : Command S Value := do
  let objectName := field msg (js "objectName")
  let parentNodeId := orElse (field msg (js "parentNodeId")) (text (js "ObjectsFolder"))
  Effect.require objectName.truthy (js "objectName missing")
  let obj ← Effect.call (space.addObject
    ⟨parentNodeId, objectName, orElse (msg.member (js "nodeId")) .undefined⟩)
  return .object [(js "payload", text (space.nodeIdText obj)),
    (js "nodeId", text (space.nodeIdText obj)), (js "objectName", objectName)]

/-- `addressSpace.findNode(id) || namespace.findNode(id)` -/
def findAnywhere (nodeId : Value) : Command S (Option N) := do
  match ← Effect.query (space.findNode nodeId) with
  | some node => return some node
  | none => Effect.query (space.findInNamespace nodeId)

/-- `AccessLevelFlag.CurrentRead | AccessLevelFlag.CurrentWrite` -/
def readWrite : Nat := 3

/-- `handleSetWritable` -/
def handleSetWritable (msg : Value) : Command S Value := do
  let nodeId := nodeIdOf msg
  Effect.require nodeId.truthy (js "nodeId missing")
  let node? ← findAnywhere space nodeId
  let node ← found env.rt (js "Node not found: ") nodeId node?
  Effect.modify (space.setAccessLevel node readWrite)
  Effect.modify (space.setUserAccessLevel node readWrite)
  return .object [(js "payload", .bool true), (js "nodeId", nodeId)]

/-- `handleRaiseEvent` -/
def handleRaiseEvent (msg : Value) : Command S Value := do
  let eventType := orElse (field msg (js "eventType")) (text (js "BaseEventType"))
  let sourceNodeId := field msg (js "sourceNodeId")
  let message := orElse (field msg (js "message")) (text [])
  let severity := orElse (field msg (js "severity")) (.num (Double.ofInt (100 : Nat)))
  Effect.require sourceNodeId.truthy (js "sourceNodeId missing")
  let source? ← findAnywhere space sourceNodeId
  let source ← found env.rt (js "Source node not found: ") sourceNodeId source?
  let eventType? ← Effect.query (space.findEventType eventType)
  let eventTypeNode ← found env.rt (js "Event type not found: ") eventType eventType?
  let localized ← Effect.lift (env.coerceLocalizedText message)
  Effect.call (space.raiseEvent source eventTypeNode localized severity)
  return .object [(js "payload", .bool true), (js "eventType", eventType),
    (js "sourceNodeId", sourceNodeId), (js "message", message), (js "severity", severity)]

/-! ## The input handler -/

def commandOf (msg : Value) : Value := field msg (js "command")

/-- The handler of a command, by its name. -/
def dispatch (allowMsgFunc : Bool) (command : JsString) (msg : Value) :
    Option (Command S Value) :=
  InsertionMap.get? command
    [(js "addFolder", handleAddFolder space msg),
      (js "addVariable", handleAddVariable env space msg),
      (js "setValue", handleSetValue env space msg),
      (js "deleteNode", handleDeleteNode env space msg),
      (js "addMethod", handleAddMethod env space allowMsgFunc msg),
      (js "addObject", handleAddObject space msg),
      (js "getServerInfo", do
        let info ← Effect.query space.serverInfo
        return .object [(js "payload", info)]),
      (js "setWritable", handleSetWritable env space msg),
      (js "raiseEvent", handleRaiseEvent env space msg),
      (js "getNamespaceIndex", do
        let index ← Effect.query fun s => .ok (space.namespaceIndex s)
        return .object [(js "namespaceIndex", .num (Double.ofInt index))])]

/-- The input handler of a started server: the members it assigns to the message, or
the error it answers with. -/
def inputHandler (allowMsgFunc : Bool) (msg : Value) : Command S Value :=
  let unknown := Effect.fail (js "Unknown command: " ++ env.rt.text (commandOf msg))
  match commandOf msg with
  | .str command => (dispatch env space allowMsgFunc command msg).getD unknown
  | _ => unknown

end OpcUaSuite.Server
