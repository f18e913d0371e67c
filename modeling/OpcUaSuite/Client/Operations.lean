import OpcUaSuite.Client.PagedBrowse
import OpcUaSuite.Lib.Deferred

/-!
# The operations of the manager

`OpcUaClientManager` between two `await`s: each operation checks the connection
once and then goes on with whatever `this.session` is when it next needs it. The
session, the server and all that runs in between are any machine; it answers the
calls, and may change the connection whenever an operation waits. `V` holds the
values that the manager only passes on.
-/

namespace OpcUaSuite.Client

open Js ByteCodec

/-! ## Connection and steps -/

/-- What a session says of itself. -/
structure SessionState where
  isReconnecting : Bool := false
  hasBeenClosed : Bool := false
deriving DecidableEq

/-- `this.isConnected` and `this.session`, null where there is none. -/
structure Connection where
  isConnected : Bool := true
  session : Option SessionState := some {}
deriving DecidableEq

/-- What `_ensureConnected` throws, if it does. -/
def Connection.refusal (c : Connection) : Option JsString :=
  match c.session with
  | none => some (js "Not connected")
  | some session =>
      if !c.isConnected then some (js "Not connected")
      else if session.isReconnecting || session.hasBeenClosed then
        some (js "Session is no longer valid")
      else none

/-- The methods of `this.session` that the operations call. -/
inductive SessionMethod
  | read
  | write
  | call
  | readHistoryValue
  | browse
  | browseNext
  | registerNodes
  | constructExtensionObject
  | getBuiltInDataType
deriving DecidableEq

def SessionMethod.name : SessionMethod → JsString
  | .read => js "read"
  | .write => js "write"
  | .call => js "call"
  | .readHistoryValue => js "readHistoryValue"
  | .browse => js "browse"
  | .browseNext => js "browseNext"
  | .registerNodes => js "registerNodes"
  | .constructExtensionObject => js "constructExtensionObject"
  | .getBuiltInDataType => js "getBuiltInDataType"

/-- The TypeError of a method of null. -/
def SessionMethod.ofNull (method : SessionMethod) : JsString :=
  js "Cannot read properties of null (reading '" ++ method.name ++ js "')"

/-- How a call settles; a rejection by its message. -/
inductive Reply (α : Type)
  | fulfilled (a : α)
  | rejected (message : JsString)
  | timedOut

/-- The error of `_withTimeout`. -/
def timeoutText (ms label : JsString) : JsString :=
  js "Operation timed out after " ++ ms ++ js "ms: " ++ label

def Reply.result {α : Type} (ms label : JsString) : Reply α → Except JsString α
  | .fulfilled a => .ok a
  | .rejected message => .error message
  | .timedOut => .error (timeoutText ms label)

/-- What an operation does at a point, or what it comes back to. -/
inductive Action
  | check
  | use (method : SessionMethod)
  | answered
  | rejected (message : JsString)
  | timedOut (ms label : JsString)
  | resumed
  | thrown (message : JsString)
deriving DecidableEq

/-- A step, with the texts of the handlers around it, innermost first, and the
connection it sees. -/
structure Step where
  handlers : List JsString
  connection : Connection
  action : Action
deriving DecidableEq

/-- The message of the error that the step raises. -/
def Step.failure (step : Step) : Option JsString :=
  match step.action with
  | .check => step.connection.refusal
  | .use method => if step.connection.session = none then some method.ofNull else none
  | .rejected message | .thrown message => some message
  | .timedOut ms label => some (timeoutText ms label)
  | .answered | .resumed => none

/-- A `catch` that puts a text in front of the message. -/
def reword (front message : JsString) : JsString := front ++ js ": " ++ message

def account : Deferred.Account JsString Step JsString := ⟨Step.handlers, Step.failure, reword⟩

/-! ## What is passed on -/

/-- A status, as a DataValue carries it. -/
structure ValueStatus where
  value : Nat
  name : JsString
  text : JsString
  isGood : Bool

/-- A DataValue, with the value and the DataType of its Variant. -/
structure DataValue (V : Type) where
  value : Option V
  dataType : Option Nat
  statusCode : ValueStatus
  sourceTimestamp : Option V
  serverTimestamp : Option V

structure ReadResult (V : Type) where
  nodeId : Option JsString := none
  value : Option V
  dataType : Option JsString
  statusCode : JsString
  sourceTimestamp : Option V
  serverTimestamp : Option V

/-- The DataType of a variable, and the built-in type that encodes it. -/
structure DataTypeInfo (V : Type) where
  dataTypeNodeId : V
  builtIn : Nat

/-- A value to write; a `dataTypeNodeId` that is not truthy is not given. -/
structure WriteItem (V : Type) where
  nodeId : V
  value : V
  datatype : Option V := none
  dataTypeNodeId : Option V := none
  arrayType : Option V := none

/-- A method argument given with its type. -/
structure TypedArgument (V : Type) where
  value : V
  dataType : V
  dataTypeNodeId : Option V := none
  arrayType : Option V := none

structure CallResult (V : Type) where
  statusCode : JsString
  outputArguments : Option (List (Nat × Option V))
  inputArgumentResults : Option (List V)

structure CallAnswer (V : Type) where
  statusCode : JsString
  outputArguments : List (Option JsString × Option V)
  inputArgumentResults : List V

structure HistoryResult (V : Type) where
  statusCode : Option JsString
  dataValues : Option (List (DataValue V))
  continuationPoint : Option V

structure HistoryAnswer (V : Type) where
  nodeId : JsString
  statusCode : Option JsString
  values : List (ReadResult V)
  count : Nat
  continuationPoint : Option V

structure HistoryOptions where
  maxValues : Nat := 1000
  isReadModified : Bool := false
  returnBounds : Bool := false

/-- What takes no time: the functions of the values, those of `opcua-variant`
among them. NodeIds of the library are known by their texts. -/
structure Conversions (V : Type) where
  undefined : V
  toOpcUaNodeId : V → Except JsString JsString
  nodeIdText : V → Except JsString JsString
  coerceNodeId : V → Except JsString JsString
  attributeId : V → Nat
  date : V → V
  isTruthy : V → Bool
  isVariant : V → Bool
  isExtensionObject : V → Bool
  looksLikeStructure : V → Bool
  elements? : V → Option (List V)
  typedArgument? : V → Option (TypedArgument V)
  requiresArray : Option V → Bool
  resolveDataType : Option V → Except JsString (Option Nat)
  dataTypeName : Nat → Option JsString
  buildVariant : V → Option Nat → Option V → Except JsString V
  extensionVariant : V → V
  extensionArray : List V → V
  serializeValue : Option V → Except JsString (Option V)
  nodeAttributes : List (DataValue V) → Except JsString V

/-- `DataType.ExtensionObject` -/
def extensionObject : Nat := 22

/-- The library, the server and the rest of the process. An `await` resumes in a
later state; operations started together each have one of their own. -/
structure World (σ V : Type) where
  connection : σ → Connection
  resume : σ → σ
  fork : σ → Nat → σ
  connection_fork : ∀ s i, connection (fork s i) = connection s
  join : σ → σ
  first : σ → Nat
  operationTimeout : JsString
  cachedDataType : σ → JsString → Option (DataTypeInfo V)
  read : JsString → Nat → σ → σ × Reply (DataValue V)
  readAll : List (JsString × Nat) → σ → σ × Reply (List (DataValue V))
  write : JsString → V → σ → σ × Reply JsString
  writeAll : List (JsString × V) → σ → σ × Reply (List JsString)
  call : JsString → JsString → List V → σ → σ × Reply (CallResult V)
  readHistoryValue : JsString → V → V → HistoryOptions → σ → σ × Reply (HistoryResult V)
  browse : JsString → V → σ → σ × Reply (BrowseResult V)
  browseNext : Bytes → σ → σ × Reply (BrowseResult V)
  registerNodes : List JsString → σ → σ × Reply (List JsString)
  constructExtensionObject : JsString → V → σ → σ × Reply V
  getBuiltInDataType : JsString → σ → σ × Reply Nat
  createSubscription : V → σ → σ × Except JsString V

/-! ## Steps of an operation -/

/-- A computation of the manager: the handlers are the texts of its `catch`es. -/
abbrev Operating (σ α : Type) := Deferred JsString σ Step JsString α

variable {σ V α : Type} (world : World σ V) (conv : Conversions V)

def throwing (message : JsString) : Operating σ α :=
  Deferred.step fun handlers s =>
    (⟨handlers, world.connection s, .thrown message⟩, .error message)

/-- Code that may throw, of which only the error is a step. -/
def computing (result : Except JsString α) : Operating σ α :=
  match result with
  | .ok a => pure a
  | .error message => throwing world message

/-- `try { … } catch (error) { throw new Error(…) }` -/
def rethrowing (front : JsString) (t : Operating σ α) : Operating σ α :=
  Deferred.within reword front t

/-- `await` of what an async function of the manager returns. -/
def awaiting (t : Operating σ α) : Operating σ α := do
  let a ← t
  Deferred.step fun handlers s =>
    (⟨handlers, world.connection (world.resume s), .resumed⟩, .ok (a, world.resume s))

/-- `await Promise.all(…)` -/
def awaitingAll (ts : List (Operating σ α)) : Operating σ (List α) :=
  awaiting world (Deferred.all world.fork world.join world.first ts)

/-- `_ensureConnected`; the flag that it clears is read by later operations only. -/
def ensureConnected : Operating σ Unit :=
  Deferred.step fun handlers s =>
    (⟨handlers, world.connection s, .check⟩, match (world.connection s).refusal with
      | some message => .error message
      | none => .ok ((), s))

/-- `this.session.method`, which throws when the session is null. -/
def sessionMethod (method : SessionMethod) : Operating σ Unit :=
  Deferred.step fun handlers s =>
    (⟨handlers, world.connection s, .use method⟩,
      if (world.connection s).session = none then .error method.ofNull else .ok ((), s))

/-- The call settles, or `_withTimeout` does before it. -/
def settling (label : JsString) (answer : σ → σ × Reply α) : Operating σ α :=
  Deferred.step fun handlers s =>
    let (s', reply) := answer s
    match reply with
    | .fulfilled a => (⟨handlers, world.connection s', .answered⟩, .ok (a, s'))
    | .rejected message => (⟨handlers, world.connection s', .rejected message⟩, .error message)
    | .timedOut =>
        (⟨handlers, world.connection s', .timedOut world.operationTimeout label⟩,
          .error (timeoutText world.operationTimeout label))

/-- `await this._withTimeout(this.session.method(…), this.operationTimeout, label)` -/
def requesting (method : SessionMethod) (label : JsString) (answer : σ → σ × Reply α) :
    Operating σ α := do
  sessionMethod world method
  settling world label answer

/-! ## Reading -/

def valueAttribute : Nat := 13
def dataTypeAttribute : Nat := 14

/-- The status of an Object or ObjectType, which has no Value. -/
def DataValue.hasNoValue (dataValue : DataValue V) : Bool :=
  dataValue.statusCode.value != 0 && dataValue.statusCode.name == js "BadAttributeIdInvalid"

def readResult (dataValue : DataValue V) : Except JsString (ReadResult V) := do
  let value ← conv.serializeValue dataValue.value
  return {
    value
    dataType := dataValue.dataType.bind conv.dataTypeName
    statusCode := dataValue.statusCode.text
    sourceTimestamp := dataValue.sourceTimestamp
    serverTimestamp := dataValue.serverTimestamp }

/-- `_readNodeAttributes`, of the NodeClass, the two names and the description. -/
def readNodeAttributes (opcuaNodeId : JsString) : Operating σ (ReadResult V) := do
  let results ← requesting world .read (js "readNodeAttributes")
    (world.readAll ([2, 3, 4, 5].map fun attributeId => (opcuaNodeId, attributeId)))
  let value ← computing world (conv.nodeAttributes results)
  return {
    value := some value
    dataType := some (js "Object")
    statusCode := js "Good (0x00000000)"
    sourceTimestamp := results.head?.bind DataValue.sourceTimestamp
    serverTimestamp := results.head?.bind DataValue.serverTimestamp }

/-- `read` -/
def read (nodeId : V) : Operating σ (ReadResult V) := do
  ensureConnected world
  rethrowing (js "Error reading") do
    let opcuaNodeId ← computing world (conv.toOpcUaNodeId nodeId)
    let dataValue ← requesting world .read (js "read") (world.read opcuaNodeId valueAttribute)
    if dataValue.hasNoValue then awaiting world (readNodeAttributes world conv opcuaNodeId)
    else computing world (readResult conv dataValue)

/-- `readAttribute` -/
def readAttribute (nodeId attributeId : V) : Operating σ (ReadResult V) := do
  ensureConnected world
  rethrowing (js "Error reading attribute") do
    let opcuaNodeId ← computing world (conv.toOpcUaNodeId nodeId)
    let dataValue ← requesting world .read (js "readAttribute")
      (world.read opcuaNodeId (conv.attributeId attributeId))
    let result ← computing world (readResult conv dataValue)
    return { result with dataType := none }

/-- One result of `readMultiple`, which begins when all are there. -/
def processResult (nodeId : V) (dataValue : DataValue V) : Operating σ (ReadResult V) := do
  let nodeIdStr ← computing world (conv.nodeIdText nodeId)
  if dataValue.hasNoValue then
    let opcuaNodeId ← computing world (conv.toOpcUaNodeId nodeId)
    let fallback ← awaiting world (readNodeAttributes world conv opcuaNodeId)
    return { fallback with nodeId := some nodeIdStr }
  else
    let result ← computing world (readResult conv dataValue)
    return { result with nodeId := some nodeIdStr }

/-- `readMultiple` -/
def readMultiple (nodeIds : List V) : Operating σ (List (ReadResult V)) := do
  ensureConnected world
  rethrowing (js "Error reading multiple values") do
    let opcuaNodeIds ← computing world (nodeIds.mapM conv.toOpcUaNodeId)
    let results ← requesting world .read (js "readMultiple")
      (world.readAll (opcuaNodeIds.map fun opcuaNodeId => (opcuaNodeId, valueAttribute)))
    awaitingAll world (results.mapIdx fun index dataValue =>
      processResult world conv (nodeIds.getD index conv.undefined) dataValue)

/-! ## Writing -/

/-- `_getVariableDataType`; the cache is that of the session. -/
def getVariableDataType (opcuaNodeId : JsString) : Operating σ (DataTypeInfo V) := do
  let cached ← Deferred.gets fun s => world.cachedDataType s opcuaNodeId
  match cached with
  | some info => return info
  | none =>
      let dataValue ← requesting world .read (js "readDataType")
        (world.read opcuaNodeId dataTypeAttribute)
      match dataValue.value.filter fun id => dataValue.statusCode.isGood && conv.isTruthy id with
      | none =>
          throwing world (js "Cannot read the DataType of " ++ opcuaNodeId ++ js ": " ++
            dataValue.statusCode.text)
      | some dataTypeNodeId =>
          let builtIn ← requesting world .getBuiltInDataType (js "getBuiltInDataType")
            (world.getBuiltInDataType opcuaNodeId)
          return ⟨dataTypeNodeId, builtIn⟩

/-- `constructExtensionObject` -/
def constructExtensionObject (dataTypeNodeId fields : V) : Operating σ V := do
  ensureConnected world
  let dtNodeId ← computing world (conv.coerceNodeId dataTypeNodeId)
  rethrowing (js "Failed to construct ExtensionObject for DataType " ++ dtNodeId)
    (requesting world .constructExtensionObject (js "constructExtensionObject")
      (world.constructExtensionObject dtNodeId fields))

/-- `_createExtensionObjectVariant` -/
def createExtensionObjectVariant (value dataTypeNodeId : V) (arrayType : Option V) :
    Operating σ V :=
  match conv.elements? value with
  | some elements => do
      let extObjs ← awaitingAll world (elements.map fun fields =>
        if conv.isExtensionObject fields then pure fields
        else constructExtensionObject world conv dataTypeNodeId fields)
      return conv.extensionArray extObjs
  | none =>
      if conv.requiresArray arrayType then
        throwing world (js "Array value expected for an ExtensionObject array")
      else if conv.isExtensionObject value then return conv.extensionVariant value
      else do
        let extObj ← awaiting world (constructExtensionObject world conv dataTypeNodeId value)
        return conv.extensionVariant extObj

/-- The structure type of `_createWriteVariant`: the one given, else the variable's. -/
def structureType (opcuaNodeId : JsString) (given : Option V) : Operating σ V :=
  match given with
  | some dataTypeNodeId => pure dataTypeNodeId
  | none => do
      let info ← awaiting world (getVariableDataType world conv opcuaNodeId)
      return info.dataTypeNodeId

/-- `_createWriteVariant` -/
def createWriteVariant (opcuaNodeId : JsString) (item : WriteItem V) : Operating σ V := do
  let dataType ← computing world (conv.resolveDataType item.datatype)
  if dataType = some extensionObject then
    if conv.isVariant item.value then return item.value
    else
      let dtNodeId ← structureType world conv opcuaNodeId item.dataTypeNodeId
      createExtensionObjectVariant world conv item.value dtNodeId item.arrayType
  else if dataType = none ∧ conv.looksLikeStructure item.value = true then
    let info ← awaiting world (getVariableDataType world conv opcuaNodeId)
    if info.builtIn = extensionObject then
      createExtensionObjectVariant world conv item.value
        (item.dataTypeNodeId.getD info.dataTypeNodeId) item.arrayType
    else computing world (conv.buildVariant item.value (some info.builtIn) item.arrayType)
  else computing world (conv.buildVariant item.value dataType item.arrayType)

/-- `write` -/
def write (item : WriteItem V) : Operating σ JsString := do
  ensureConnected world
  rethrowing (js "Error writing") do
    let opcuaNodeId ← computing world (conv.toOpcUaNodeId item.nodeId)
    let variant ← awaiting world (createWriteVariant world conv opcuaNodeId item)
    requesting world .write (js "write") (world.write opcuaNodeId variant)

/-- One item of `writeMultiple`, made ready. -/
def nodeToWrite (item : WriteItem V) : Operating σ (JsString × V) := do
  let opcuaNodeId ← computing world (conv.toOpcUaNodeId item.nodeId)
  let variant ← rethrowing opcuaNodeId
    (awaiting world (createWriteVariant world conv opcuaNodeId item))
  return (opcuaNodeId, variant)

/-- `writeMultiple`: the node, the value and the status of each. -/
def writeMultiple (items : List (WriteItem V)) :
    Operating σ (List (JsString × V × JsString)) := do
  ensureConnected world
  rethrowing (js "Error writing multiple values") do
    let nodesToWrite ← awaitingAll world (items.map (nodeToWrite world conv))
    let statusCodes ← requesting world .write (js "writeMultiple") (world.writeAll nodesToWrite)
    computing world ((items.zip statusCodes).mapM fun (item, statusCode) => do
      let nodeId ← conv.nodeIdText item.nodeId
      return (nodeId, item.value, statusCode))

/-! ## Calling -/

/-- One input argument as a Variant. -/
def inputArgument (index : Nat) (arg : V) : Operating σ V :=
  if conv.isVariant arg then pure arg
  else rethrowing (js "Input argument " ++ decimal index)
    (match conv.typedArgument? arg with
    | none => computing world (conv.buildVariant arg none none)
    | some typed => do
        let dt ← computing world (conv.resolveDataType (some typed.dataType))
        if dt = some extensionObject then
          match typed.dataTypeNodeId with
          | none => throwing world (js "ExtensionObject argument needs a dataTypeNodeId")
          | some dataTypeNodeId =>
              awaiting world
                (createExtensionObjectVariant world conv typed.value dataTypeNodeId typed.arrayType)
        else computing world (conv.buildVariant typed.value dt typed.arrayType))

/-- `callMethod` -/
def callMethod (objectId methodId : V) (inputArguments : List V) : Operating σ (CallAnswer V) := do
  ensureConnected world
  rethrowing (js "Error calling method") do
    let opcuaObjectId ← computing world (conv.toOpcUaNodeId objectId)
    let opcuaMethodId ← computing world (conv.toOpcUaNodeId methodId)
    let args ← awaitingAll world (inputArguments.mapIdx (inputArgument world conv))
    let result ← requesting world .call (js "callMethod")
      (world.call opcuaObjectId opcuaMethodId args)
    let outputArguments ← computing world
      ((result.outputArguments.getD []).mapM fun (dataType, value) => do
        let value ← conv.serializeValue value
        return (conv.dataTypeName dataType, value))
    return ⟨result.statusCode, outputArguments, result.inputArgumentResults.getD []⟩

/-! ## History, browsing, subscriptions and registrations -/

/-- `historyRead` -/
def historyRead (nodeId startTime endTime : V) (options : HistoryOptions) :
    Operating σ (HistoryAnswer V) := do
  ensureConnected world
  rethrowing (js "Error reading history") do
    let opcuaNodeId ← computing world (conv.toOpcUaNodeId nodeId)
    let result ← requesting world .readHistoryValue (js "historyRead")
      (world.readHistoryValue opcuaNodeId (conv.date startTime) (conv.date endTime) options)
    let values ← computing world ((result.dataValues.getD []).mapM (readResult conv))
    let text ← computing world (conv.nodeIdText nodeId)
    return ⟨text, result.statusCode, values.map fun value => { value with dataType := none },
      values.length, result.continuationPoint⟩

/-- The loop of `_resolveContinuationPoints`, with the rounds that remain. -/
def browseRest : Nat → List V → BrowseResult V → Operating σ (List V)
  | 0, references, _ => pure references
  | remainingRounds + 1, references, result =>
      match result.more? with
      | none => pure references
      | some point => do
          let next ← requesting world .browseNext (js "browseNext") (world.browseNext point)
          browseRest remainingRounds (references ++ next.page) next

/-- `browse`; the options are passed on. -/
def browseNode (nodeId options : V) : Operating σ (List V) := do
  ensureConnected world
  rethrowing (js "Browse error") do
    let opcuaNodeId ← computing world (conv.toOpcUaNodeId nodeId)
    let result ← requesting world .browse (js "browse") (world.browse opcuaNodeId options)
    match result.statusCode.filter StatusCode.isNotGood with
    | some code => throwing world code.text
    | none => awaiting world (browseRest world 1000 result.page result)

/-- `createSubscription`: `ClientSubscription.create` returns at once, or throws. -/
def createSubscription (options : V) : Operating σ V := do
  ensureConnected world
  rethrowing (js "Error creating subscription")
    (Deferred.step fun handlers s =>
      match world.createSubscription options s with
      | (s', .ok subscription) =>
          (⟨handlers, world.connection s', .answered⟩, .ok (subscription, s'))
      | (s', .error message) =>
          (⟨handlers, world.connection s', .rejected message⟩, .error message))

/-- `registerNodes` -/
def registerNodes (nodeIds : List V) : Operating σ (List JsString) := do
  ensureConnected world
  rethrowing (js "Error in RegisterNodes") do
    let opcuaNodeIds ← computing world (nodeIds.mapM conv.toOpcUaNodeId)
    requesting world .registerNodes (js "registerNodes") (world.registerNodes opcuaNodeIds)

/-! ## The pages of a world -/

/-- The two calls of a session that stays, as a server of pages. -/
def World.pages : BrowseSession σ (JsString × V) V where
  browse s description :=
    let (s', reply) := world.browse description.1 description.2 s
    (s', reply.result world.operationTimeout (js "browse"))
  browseNext s point :=
    let (s', reply) := world.browseNext point s
    (s', reply.result world.operationTimeout (js "browseNext"))

variable {world}

/-- With a session a call settles as it is answered. -/
theorem requesting_outcome {s : σ} (hsession : (world.connection s).session ≠ none)
    (method : SessionMethod) (label : JsString) (answer : σ → σ × Reply α)
    (handlers : List JsString) :
    (requesting world method label answer handlers s).outcome =
      ((answer s).2.result world.operationTimeout label).map fun a => (a, (answer s).1) := by
  have huse : (sessionMethod world method handlers s).outcome = .ok ((), s) := by
    change (if (world.connection s).session = none then _ else _) = _
    rw [if_neg hsession]
  unfold requesting
  rw [Deferred.outcome_bind, huse]
  dsimp only
  unfold settling Deferred.step
  dsimp only
  rcases answer s with ⟨s', a | message | _⟩
  · rfl
  · rfl
  · rfl

theorem browseRest_outcome (hsession : ∀ s, (world.connection s).session ≠ none)
    (remainingRounds : Nat) (references : List V) (result : BrowseResult V)
    (handlers : List JsString) (s : σ) :
    (browseRest world remainingRounds references result handlers s).outcome.map Prod.fst =
      (followPages world.pages remainingRounds s references result).2 := by
  induction remainingRounds generalizing references result s with
  | zero => rfl
  | succ remainingRounds ih =>
      rw [browseRest, followPages]
      cases result.more? with
      | none => rfl
      | some point =>
          dsimp only
          rw [Deferred.outcome_bind, requesting_outcome (hsession s)]
          unfold World.pages
          dsimp only
          cases (world.browseNext point s).2.result world.operationTimeout (js "browseNext") with
          | error message => rfl
          | ok next => exact ih (references ++ next.page) next (world.browseNext point s).1

/-- While a session is there, browsing in steps is browsing page by page. -/
theorem browseNode_outcome (hsession : ∀ s, (world.connection s).session ≠ none)
    (nodeId options : V) (s : σ) :
    (browseNode world conv nodeId options [] s).outcome.map Prod.fst =
      (browse world.pages ((world.connection s).refusal.elim (.ok ()) .error)
        ((conv.toOpcUaNodeId nodeId).map fun opcuaNodeId => (opcuaNodeId, options)) s).2 := by
  have hcheck : (ensureConnected world [] s).outcome =
      (world.connection s).refusal.elim (.ok ((), s)) .error := by
    change (match (world.connection s).refusal with
      | some message => Except.error message
      | none => .ok ((), s)) = _
    cases (world.connection s).refusal with
    | none => rfl
    | some message => rfl
  unfold browseNode
  rw [Deferred.outcome_bind, hcheck]
  cases (world.connection s).refusal with
  | some message => rfl
  | none =>
      dsimp only [Option.elim]
      unfold rethrowing Deferred.within
      dsimp only
      rw [Deferred.outcome_bind]
      cases conv.toOpcUaNodeId nodeId with
      | error message => rfl
      | ok opcuaNodeId =>
          have hpure : (computing world (.ok opcuaNodeId : Except JsString JsString)
              [js "Browse error"] s).outcome = .ok (opcuaNodeId, s) := rfl
          rw [hpure]
          dsimp only [Except.map]
          rw [Deferred.outcome_bind, requesting_outcome (hsession s)]
          have hanswer : world.pages.browse s (opcuaNodeId, options) =
              ((world.browse opcuaNodeId options s).1, (world.browse opcuaNodeId options s).2.result
                world.operationTimeout (js "browse")) := rfl
          unfold browse
          dsimp only
          rw [hanswer]
          cases (world.browse opcuaNodeId options s).2.result world.operationTimeout (js "browse") with
          | error message => rfl
          | ok result =>
              dsimp only [Except.map]
              cases result.statusCode.filter StatusCode.isNotGood with
              | some code => rfl
              | none =>
                  dsimp only
                  have hrest := browseRest_outcome hsession 1000 result.page result
                    [js "Browse error"] (world.browse opcuaNodeId options s).1
                  unfold awaiting resolveContinuationPoints
                  rw [Deferred.outcome_bind, ← hrest]
                  cases (browseRest world 1000 result.page result [js "Browse error"]
                    (world.browse opcuaNodeId options s).1).outcome with
                  | error message => rfl
                  | ok p => rfl

variable (world)

/-! ## Any operation -/

/-- A call of one of the operations. -/
inductive Operation (V : Type)
  | read (nodeId : V)
  | readMultiple (nodeIds : List V)
  | readAttribute (nodeId attributeId : V)
  | write (item : WriteItem V)
  | writeMultiple (items : List (WriteItem V))
  | callMethod (objectId methodId : V) (inputArguments : List V)
  | historyRead (nodeId startTime endTime : V) (options : HistoryOptions)
  | browse (nodeId options : V)
  | createSubscription (options : V)
  | registerNodes (nodeIds : List V)

/-- What the operation resolves with. -/
def Operation.Answer : Operation V → Type
  | .read _ | .readAttribute _ _ => ReadResult V
  | .readMultiple _ => List (ReadResult V)
  | .write _ => JsString
  | .writeMultiple _ => List (JsString × V × JsString)
  | .callMethod _ _ _ => CallAnswer V
  | .historyRead _ _ _ _ => HistoryAnswer V
  | .browse _ _ => List V
  | .createSubscription _ => V
  | .registerNodes _ => List JsString

def Operation.computation : (operation : Operation V) → Operating σ operation.Answer
  | .read nodeId => Client.read world conv nodeId
  | .readMultiple nodeIds => Client.readMultiple world conv nodeIds
  | .readAttribute nodeId attributeId => Client.readAttribute world conv nodeId attributeId
  | .write item => Client.write world conv item
  | .writeMultiple items => Client.writeMultiple world conv items
  | .callMethod objectId methodId inputArguments =>
      Client.callMethod world conv objectId methodId inputArguments
  | .historyRead nodeId startTime endTime options =>
      Client.historyRead world conv nodeId startTime endTime options
  | .browse nodeId options => browseNode world conv nodeId options
  | .createSubscription options => Client.createSubscription world options
  | .registerNodes nodeIds => Client.registerNodes world conv nodeIds

/-- The operation, called in a state. -/
def Operation.run (operation : Operation V) (s : σ) :
    Deferred.Run σ Step JsString operation.Answer :=
  operation.computation world conv [] s

end OpcUaSuite.Client
