import OpcUaSuite.Lib.Transition
import OpcUaSuite.Variants.Value

/-!
# The item node

The input handler of opcua-item. In collector mode the configured items are
appended to `msg.items`, with `msg.payload` as their value when the message is to
be written; in single mode the first of them becomes the target of the message.
Nodes in series hand one message on.
-/

namespace OpcUaSuite.Items

open Js Variants

/-- The members of a message that the item node and the client look at. -/
structure Msg where
  operation : Value := .undefined
  payload : Value := .undefined
  items : Value := .undefined
  topic : Value := .undefined
  nodeId : Value := .undefined
  datatype : Value := .undefined
  itemName : Value := .undefined
  dataTypeNodeId : Value := .undefined
  arrayType : Value := .undefined
  unwrapSingle : Value := .undefined

/-- What is in `msg.items` if it is an array. -/
def Msg.itemList (msg : Msg) : List Value :=
  match msg.items with
  | .array items => items
  | _ => []

theorem itemList_of_not_isArray {msg : Msg} (h : msg.items.isArray = false) :
    msg.itemList = [] := by
  unfold Msg.itemList
  cases hitems : msg.items with
  | array items =>
      rw [hitems] at h
      cases h
  | _ => rfl

/-- `a || b` -/
def orElse (a b : Value) : Value := if a.truthy then a else b

/-- `v === text` -/
def isText (v : Value) (text : JsString) : Bool :=
  match v with
  | .str s => decide (s = text)
  | _ => false

/-! ## Configuration -/

/-- One item as the editor saves it. -/
structure ItemConfig where
  nodeId : Value := .undefined
  datatype : Value := .undefined
  itemName : Value := .undefined
  dataTypeNodeId : Value := .undefined
  arrayType : Value := .undefined

/-- A configured node; older flows have one item in the node itself. -/
structure Config where
  collector : Value := .undefined
  operation : Value := .undefined
  unwrapSingle : Value := .undefined
  items : List ItemConfig := []
  nodeId : Value := .undefined
  datatype : Value := .undefined
  itemName : Value := .undefined

structure ItemNode where
  collector : Bool
  operation : Value
  unwrapSingle : Bool
  items : List ItemConfig

/-- `OpcUaItemNode` -/
def opcUaItemNode (config : Config) : ItemNode where
  collector := if config.collector.isUndefined then true else config.collector.truthy
  operation := orElse config.operation (.str [])
  unwrapSingle :=
    (match config.unwrapSingle with
      | .bool b => b
      | _ => false) || isText config.unwrapSingle (js "true")
  items :=
    if config.items.isEmpty && config.nodeId.truthy then
      [{ nodeId := config.nodeId
         datatype := orElse config.datatype (.str [])
         itemName := orElse config.itemName (.str []) }]
    else config.items

/-! ## Items of a message -/

/-- An item as it is put in a message; it has a value only where one was attached. -/
structure Item where
  nodeId : Value
  datatype : Value
  itemName : Value
  dataTypeNodeId : Value
  arrayType : Value
  value : Option Value := none

namespace Item

/-- The item as an object of the message. -/
def toValue (item : Item) : Value :=
  .object ([(js "nodeId", item.nodeId), (js "datatype", item.datatype),
    (js "itemName", item.itemName), (js "dataTypeNodeId", item.dataTypeNodeId),
    (js "arrayType", item.arrayType)] ++ (item.value.map fun v => (js "value", v)).toList)

def ofConfig (cfg : ItemConfig) : Item where
  nodeId := cfg.nodeId
  datatype := orElse cfg.datatype .undefined
  itemName := orElse cfg.itemName .undefined
  dataTypeNodeId := orElse cfg.dataTypeNodeId .undefined
  arrayType := orElse cfg.arrayType .undefined

end Item

/-- An object has a member `value`. -/
def carriesValue : Value → Bool
  | .object props => (InsertionMap.get? (js "value") props).isSome
  | _ => false

theorem carriesValue_toValue (item : Item) : carriesValue item.toValue = item.value.isSome := by
  obtain ⟨nodeId, datatype, itemName, dataTypeNodeId, arrayType, value⟩ := item
  cases value <;> rfl

/-! ## The input handler -/

namespace ItemNode

variable (node : ItemNode)

/-- The configured items; those without a NodeId are skipped. -/
def allItems : List Item :=
  (node.items.filter fun cfg => cfg.nodeId.truthy).map Item.ofConfig

/-- The operation of a message behind the node. -/
def operationAfter (operation : Value) : Value := orElse node.operation operation

end ItemNode

/-- The operation says to write, as the item node compares it. -/
def saysWrite (operation : Value) : Bool :=
  isText operation (js "write") || isText operation (js "writemultiple")

/-- `isWrite` -/
def isWrite (operation payload : Value) : Bool := !payload.isUndefined && saysWrite operation

/-- Attach a value to an item. -/
def Item.attach (operation payload : Value) (item : Item) : Item :=
  if isWrite operation payload then { item with value := some payload } else item

/-- What the node sets before it looks at the items. -/
def ItemNode.impose (node : ItemNode) (msg : Msg) : Msg :=
  { msg with
    operation := node.operationAfter msg.operation
    unwrapSingle := if node.unwrapSingle then .bool true else msg.unwrapSingle }

/-- Append the items to those of the message, or make the first of them its target. -/
def ItemNode.place (node : ItemNode) (msg : Msg) : List Item → Msg
  | [] => msg
  | item :: rest =>
      if node.collector || msg.items.isArray then
        { msg with items := .array (msg.itemList ++ (item :: rest).map Item.toValue) }
      else
        { msg with
          topic := item.nodeId
          nodeId := item.nodeId
          datatype := orElse item.datatype msg.datatype
          itemName := orElse item.itemName msg.itemName }

/-- The input handler. -/
def ItemNode.inputHandler (node : ItemNode) (msg : Msg) : Msg :=
  let msg := node.impose msg
  node.place msg (node.allItems.map (Item.attach msg.operation msg.payload))

/-- A message handed through nodes in series. -/
def chain (nodes : List ItemNode) (msg : Msg) : Msg :=
  nodes.foldl (fun msg node => node.inputHandler msg) msg

/-! ## What a chain collects -/

/-- Every configured item of the nodes, in order and without a value. -/
def collected (nodes : List ItemNode) : List Item := nodes.flatMap ItemNode.allItems

/-- The operation of the message behind the nodes. -/
def operationBehind (nodes : List ItemNode) (operation : Value) : Value :=
  nodes.foldl (fun operation node => node.operationAfter operation) operation

/-- The items of the nodes, each with the value its node attaches. -/
def attached (payload : Value) : List ItemNode → Value → List Item
  | [], _ => []
  | node :: nodes, operation =>
      node.allItems.map (Item.attach (node.operationAfter operation) payload) ++
        attached payload nodes (node.operationAfter operation)

theorem ItemNode.place_operation (node : ItemNode) (msg : Msg) (items : List Item) :
    (node.place msg items).operation = msg.operation := by
  cases items with
  | nil => rfl
  | cons item rest =>
      rw [ItemNode.place]
      split
      · rfl
      · rfl

theorem ItemNode.inputHandler_operation (node : ItemNode) (msg : Msg) :
    (node.inputHandler msg).operation = node.operationAfter msg.operation :=
  node.place_operation _ _

/-- What a node in collector mode does with a message. -/
structure Collects (node : ItemNode) (msg msg' : Msg) : Prop where
  operation : msg'.operation = node.operationAfter msg.operation
  payload : msg'.payload = msg.payload
  items : msg'.itemList = msg.itemList ++
    (node.allItems.map (Item.attach (node.operationAfter msg.operation) msg.payload)).map
      Item.toValue

theorem inputHandler_collects {node : ItemNode} (h : node.collector = true) (msg : Msg) :
    Collects node msg (node.inputHandler msg) := by
  unfold ItemNode.inputHandler
  cases hitems : node.allItems with
  | nil =>
      refine ⟨rfl, rfl, ?_⟩
      rw [hitems]
      exact (List.append_nil _).symm
  | cons item rest =>
      simp only [List.map_cons, ItemNode.place, h, Bool.true_or, if_true]
      refine ⟨rfl, rfl, ?_⟩
      rw [hitems]
      rfl

/-- What nodes in series do with a message, all in collector mode. -/
structure CollectsAll (nodes : List ItemNode) (msg msg' : Msg) : Prop where
  operation : msg'.operation = operationBehind nodes msg.operation
  payload : msg'.payload = msg.payload
  items : msg'.itemList =
    msg.itemList ++ (attached msg.payload nodes msg.operation).map Item.toValue

theorem chain_collects {nodes : List ItemNode} (h : ∀ node ∈ nodes, node.collector = true)
    (msg : Msg) : CollectsAll nodes msg (chain nodes msg) := by
  induction nodes generalizing msg with
  | nil => exact ⟨rfl, rfl, (List.append_nil _).symm⟩
  | cons node nodes ih =>
      have hnode := inputHandler_collects (h node List.mem_cons_self) msg
      have hrest := ih (fun n hn => h n (List.mem_cons_of_mem node hn)) (node.inputHandler msg)
      refine ⟨?_, hrest.payload.trans hnode.payload, ?_⟩
      · exact hrest.operation.trans (congrArg (operationBehind nodes) hnode.operation)
      · calc (chain (node :: nodes) msg).itemList
            = (node.inputHandler msg).itemList ++
                (attached (node.inputHandler msg).payload nodes
                  (node.inputHandler msg).operation).map Item.toValue := hrest.items
          _ = _ := by
              rw [hnode.items, hnode.payload, hnode.operation, attached, List.map_append,
                List.append_assoc]

/-! ## The operation at the nodes -/

/-- At every node with items the operation says to write, or at none. -/
def AtItems (write : Bool) (nodes : List ItemNode) (operation : Value) : Prop :=
  Transition.Along (fun operation node => some (node.operationAfter operation))
    (fun operation node => node.allItems = [] ∨ saysWrite (node.operationAfter operation) = write)
    operation nodes

instance (node : ItemNode) : Decidable (node.allItems = []) :=
  decidable_of_iff (node.allItems.isEmpty = true) List.isEmpty_iff

instance (write : Bool) (nodes : List ItemNode) (operation : Value) :
    Decidable (AtItems write nodes operation) := Transition.decidableAlong operation nodes

theorem atItems_cons {write : Bool} {node : ItemNode} {nodes : List ItemNode}
    {operation : Value} : AtItems write (node :: nodes) operation ↔
      (node.allItems = [] ∨ saysWrite (node.operationAfter operation) = write) ∧
        AtItems write nodes (node.operationAfter operation) := by
  refine and_congr_right fun _ => ⟨fun h => h _ rfl, ?_⟩
  rintro h _ ⟨⟩
  exact h

end OpcUaSuite.Items
