import OpcUaSuite.Nodes.ClientOperation
import OpcUaSuite.Variants.Delivered

/-!
# The operation along a chain of items

Each item node attaches the payload as a value when the operation of the message
is one of two texts, and the client in the end resolves the operation with its
default and in lower case. The two agree where each node with items sees a write
exactly when the client does.
-/

namespace OpcUaSuite.Items

open Js Variants ByteCodec

variable (env : Environment) (config : ClientConfig)

/-- Item nodes in series, all in collector mode. -/
structure Chain where
  nodes : List ItemNode
  collecting : ∀ node ∈ nodes, node.collector = true

def writeOperations : List JsString := [js "write", js "writemultiple"]

def readOperations : List JsString := [js "read", js "readmultiple", js "readattribute"]

/-- The entry of `writeMultiple` that writes a value to an item with its settings. -/
def Item.entry (value : Value) (item : Item) : Client.WriteItem Value where
  nodeId := parseNodeId item.nodeId
  value := value
  datatype := given item.datatype
  dataTypeNodeId := given item.dataTypeNodeId
  arrayType := given item.arrayType

variable (c : Chain) (msg : Msg)

/-- The manager is to write the payload to every item of the chain, in its order,
behind the items that the message had before. -/
def WritesAll : Prop :=
  ∃ before, before.length = msg.itemList.length ∧
    managerCall env config (chain c.nodes msg) =
      some (.writeMultiple (before ++ (collected c.nodes).map (Item.entry msg.payload)))

/-- The items that the chain adds to the message have no value. -/
def NoneCarries : Prop :=
  ∃ items, (chain c.nodes msg).itemList = msg.itemList ++ items ∧
    items.length = (collected c.nodes).length ∧ ∀ item ∈ items, carriesValue item = false

/-- The chain and the client take a message for the same operation. -/
structure Agrees : Prop where
  write : ∀ operation ∈ writeOperations,
    resolveOperation env config (chain c.nodes msg) = .ok operation →
      collected c.nodes ≠ [] → WritesAll env config c msg
  read : ∀ operation ∈ readOperations,
    resolveOperation env config (chain c.nodes msg) = .ok operation → NoneCarries c msg

/-! ## Exactly when -/

/-- The client takes the item for one to write. -/
structure Writable (item : Value) : Prop where
  notNullish : isNullish item = false
  nodeId : (parseNodeId (orElse (member env item (js "nodeId"))
    (member env item (js "topic")))).truthy = true
  value : isNullish (member env item (js "value")) = false

/-- Every node with items sees a write, and the client has nothing to refuse. -/
structure WritesWhen : Prop where
  operation : AtItems true c.nodes msg.operation
  payload : isNullish msg.payload = false
  nodeIds : ∀ item ∈ collected c.nodes, (parseNodeId item.nodeId).truthy = true
  before : ∀ item ∈ msg.itemList, Writable env item

/-- The operation at the client, which follows from that of the message. -/
def resolved : Except JsString JsString :=
  resolveOperation env config { msg with operation := operationBehind c.nodes msg.operation }

structure AgreesWhen : Prop where
  write : ∀ operation ∈ writeOperations, resolved env config c msg = .ok operation →
    collected c.nodes ≠ [] → WritesWhen env c msg
  read : ∀ operation ∈ readOperations, resolved env config c msg = .ok operation →
    msg.payload.isUndefined = false → AtItems false c.nodes msg.operation

variable {env config c msg}

/-! ## The client on items -/

theorem isUndefined_of_not_nullish {v : Value} (h : isNullish v = false) :
    v.isUndefined = false := by
  cases v with
  | undefined => cases h
  | _ => rfl

theorem require_bind_eq_ok {α : Type} {b : Bool} {message : JsString} {r : Except JsString α}
    {a : α} : (require b message >>= fun _ => r) = .ok a ↔ b = true ∧ r = .ok a := by
  cases b with
  | true => exact (and_iff_right rfl).symm
  | false => exact ⟨nofun, fun h => nomatch h.1⟩

theorem truthy_of_parseNodeId {v : Value} (h : (parseNodeId v).truthy = true) :
    v.truthy = true := by
  cases v with
  | str s =>
      cases s with
      | nil => cases h
      | cons u s => rfl
  | _ => cases h

/-- What an item is made into. -/
def entryOf (env : Environment) (item : Value) : Client.WriteItem Value where
  nodeId := parseNodeId (orElse (member env item (js "nodeId")) (member env item (js "topic")))
  value := member env item (js "value")
  datatype := given (member env item (js "datatype"))
  dataTypeNodeId := given (member env item (js "dataTypeNodeId"))
  arrayType := given (member env item (js "arrayType"))

theorem readMember_eq_ok {item v : Value} {name : JsString} :
    readMember env item name = .ok v ↔ isNullish item = false ∧ member env item name = v := by
  cases item with
  | undefined | null => exact ⟨nofun, fun h => nomatch h.1⟩
  | _ => exact ⟨fun h => ⟨rfl, Except.ok.inj h⟩, fun h => congrArg Except.ok h.2⟩

theorem writeItem_eq_ok {idx : Nat} {item : Value} {e : Client.WriteItem Value} :
    writeItem env idx item = .ok e ↔ Writable env item ∧ e = entryOf env item := by
  constructor
  · intro h
    obtain ⟨id, hid, hrest⟩ := bind_eq_ok.mp h
    obtain ⟨nodeId, hread, hid⟩ := bind_eq_ok.mp hid
    obtain ⟨hnullish, rfl⟩ := readMember_eq_ok.mp hread
    obtain ⟨-, hid⟩ := require_bind_eq_ok.mp hid
    obtain ⟨hparse, hid⟩ := require_bind_eq_ok.mp hid
    obtain rfl := Except.ok.inj hid
    obtain ⟨hvalue, hrest⟩ := require_bind_eq_ok.mp hrest
    exact ⟨⟨hnullish, hparse, by simpa using hvalue⟩, (Except.ok.inj hrest).symm⟩
  · rintro ⟨hitem, rfl⟩
    refine bind_eq_ok.mpr ⟨_, bind_eq_ok.mpr ⟨_, readMember_eq_ok.mpr ⟨hitem.notNullish, rfl⟩,
      require_bind_eq_ok.mpr ⟨truthy_of_parseNodeId hitem.nodeId,
        require_bind_eq_ok.mpr ⟨hitem.nodeId, rfl⟩⟩⟩, ?_⟩
    exact require_bind_eq_ok.mpr ⟨by rw [hitem.value]; rfl, rfl⟩

theorem writeItems_eq_ok {items : List Value} {start : Nat}
    {es : List (Client.WriteItem Value)} :
    ((items.zipIdx start).mapM fun p => writeItem env p.2 p.1) = .ok es ↔
      (∀ item ∈ items, Writable env item) ∧ es = items.map (entryOf env) := by
  induction items generalizing start es with
  | nil => exact ⟨fun h => ⟨nofun, (Except.ok.inj h).symm⟩, fun h => congrArg Except.ok h.2.symm⟩
  | cons item items ih =>
      rw [List.zipIdx_cons, List.mapM_cons, List.forall_mem_cons, List.map_cons]
      constructor
      · intro h
        obtain ⟨e, he, h⟩ := bind_eq_ok.mp h
        obtain ⟨hitem, rfl⟩ := writeItem_eq_ok.mp he
        obtain ⟨rest, hrest, h⟩ := bind_eq_ok.mp h
        obtain ⟨hitems, rfl⟩ := ih.mp hrest
        exact ⟨⟨hitem, hitems⟩, (Except.ok.inj h).symm⟩
      · rintro ⟨⟨hitem, hitems⟩, rfl⟩
        exact bind_eq_ok.mpr ⟨_, writeItem_eq_ok.mpr ⟨hitem, rfl⟩,
          bind_eq_ok.mpr ⟨_, ih.mpr ⟨hitems, rfl⟩, rfl⟩⟩

/-- The items of a message are the ones of its batch. -/
theorem itemSource_items {ofEntry : JsString × Value → Except JsString Value}
    {missing : JsString} (h : msg.itemList ≠ []) :
    itemSource env ofEntry missing msg = .ok msg.itemList := by
  unfold itemSource
  cases hitems : msg.itemList with
  | nil => exact absurd hitems h
  | cons item items => rfl

theorem handleWriteMultiple_items {call : Client.Operation Value} (h : msg.itemList ≠ []) :
    (∃ handled, handleWriteMultiple env msg = .ok handled ∧ handled.operation = call) ↔
      (∀ item ∈ msg.itemList, Writable env item) ∧
        call = .writeMultiple (msg.itemList.map (entryOf env)) := by
  constructor
  · rintro ⟨handled, hhandled, rfl⟩
    obtain ⟨items, hitems, hrest⟩ := bind_eq_ok.mp hhandled
    rw [itemSource_items h] at hitems
    obtain rfl := Except.ok.inj hitems
    obtain ⟨es, hes, hrest⟩ := bind_eq_ok.mp hrest
    obtain ⟨hwritable, rfl⟩ := writeItems_eq_ok.mp hes
    obtain rfl := Except.ok.inj hrest
    exact ⟨hwritable, rfl⟩
  · rintro ⟨hwritable, rfl⟩
    exact ⟨_, bind_eq_ok.mpr ⟨_, itemSource_items h,
      bind_eq_ok.mpr ⟨_, writeItems_eq_ok.mpr ⟨hwritable, rfl⟩, rfl⟩⟩, rfl⟩

/-- The manager is called with the operation of the handler. -/
theorem managerCall_eq_some {operation : JsString} {call : Client.Operation Value}
    {result : Except JsString Handled}
    (hresolve : resolveOperation env config msg = .ok operation)
    (hexecute : executeOperation env config operation (msg.withOperation operation) =
      some result) :
    managerCall env config msg = some call ↔
      ∃ handled, result = .ok handled ∧ handled.operation = call := by
  rw [managerCall, hresolve]
  simp only [hexecute]
  cases result with
  | error message => exact ⟨nofun, fun ⟨_, h, _⟩ => nomatch h⟩
  | ok handled =>
      exact ⟨fun hcall => ⟨handled, rfl, Option.some.inj hcall⟩,
        fun ⟨_, heq, hcall⟩ => congrArg some (Except.ok.inj heq ▸ hcall)⟩

/-- A write of a message with items is a batch. -/
theorem managerCall_items {operation : JsString} {call : Client.Operation Value}
    (hresolve : resolveOperation env config msg = .ok operation)
    (hwrite : operation ∈ writeOperations) (h : msg.itemList ≠ []) :
    managerCall env config msg = some call ↔ (∀ item ∈ msg.itemList, Writable env item) ∧
      call = .writeMultiple (msg.itemList.map (entryOf env)) := by
  have hexecute : executeOperation env config operation (msg.withOperation operation) =
      some (handleWriteMultiple env (msg.withOperation operation)) := by
    rcases List.mem_pair.mp hwrite with rfl | rfl
    · change some (handleWrite env (msg.withOperation (js "write"))) = _
      unfold handleWrite
      cases hitems : (msg.withOperation (js "write")).itemList with
      | nil => exact absurd hitems h
      | cons item items => rfl
    · rfl
  rw [managerCall_eq_some hresolve hexecute]
  exact handleWriteMultiple_items h

/-! ## The items of the chain -/

theorem member_toValue (item : Item) : member env item.toValue (js "nodeId") = item.nodeId ∧
    member env item.toValue (js "topic") = .undefined ∧
    member env item.toValue (js "value") = item.value.getD .undefined ∧
    member env item.toValue (js "datatype") = item.datatype ∧
    member env item.toValue (js "dataTypeNodeId") = item.dataTypeNodeId ∧
    member env item.toValue (js "arrayType") = item.arrayType := by
  obtain ⟨nodeId, datatype, itemName, dataTypeNodeId, arrayType, value⟩ := item
  cases value <;> exact ⟨rfl, rfl, rfl, rfl, rfl, rfl⟩

theorem parseNodeId_orElse (v : Value) : parseNodeId (orElse v .undefined) = parseNodeId v := by
  unfold orElse
  split
  next => rfl
  next h =>
    cases v with
    | str s =>
        cases s with
        | nil => rfl
        | cons u s => exact absurd rfl h
    | _ => rfl

theorem entryOf_toValue (item : Item) :
    entryOf env item.toValue = item.entry (item.value.getD .undefined) := by
  obtain ⟨hnodeId, htopic, hvalue, hdatatype, hdataTypeNodeId, harrayType⟩ :=
    @member_toValue env item
  rw [entryOf, hnodeId, htopic, hvalue, hdatatype, hdataTypeNodeId, harrayType,
    parseNodeId_orElse, Item.entry]

theorem writable_toValue {item : Item} : Writable env item.toValue ↔
    (parseNodeId item.nodeId).truthy = true ∧ isNullish (item.value.getD .undefined) = false := by
  obtain ⟨hnodeId, htopic, hvalue, -⟩ := @member_toValue env item
  constructor
  · rintro ⟨-, hparse, hgiven⟩
    rw [hnodeId, htopic, parseNodeId_orElse] at hparse
    exact ⟨hparse, hvalue ▸ hgiven⟩
  · rintro ⟨hparse, hgiven⟩
    refine ⟨rfl, ?_, hvalue.symm ▸ hgiven⟩
    rwa [hnodeId, htopic, parseNodeId_orElse]

/-- The item without its value. -/
def Item.bare (item : Item) : Item := { item with value := none }

theorem bare_of_mem_allItems {node : ItemNode} {item : Item} (h : item ∈ node.allItems) :
    item.bare = item := by
  obtain ⟨cfg, -, rfl⟩ := List.mem_map.mp h
  rfl

theorem bare_attach (operation payload : Value) (item : Item) :
    (item.attach operation payload).bare = item.bare := by
  unfold Item.attach
  split <;> rfl

/-- Without their values, the items are the configured ones in order. -/
theorem attached_bare (payload : Value) (nodes : List ItemNode) (operation : Value) :
    (attached payload nodes operation).map Item.bare = collected nodes := by
  induction nodes generalizing operation with
  | nil => rfl
  | cons node nodes ih =>
      have hnode : (node.allItems.map (Item.attach (node.operationAfter operation) payload)).map
          Item.bare = node.allItems := by
        rw [List.map_map]
        refine (List.map_congr_left fun item hitem => ?_).trans (List.map_id _)
        exact (bare_attach _ _ _).trans (bare_of_mem_allItems hitem)
      rw [attached, List.map_append, ih, hnode]
      rfl

/-- An item has the payload as its value, if there is one, or none. -/
theorem value_of_mem_attached {payload operation : Value} {nodes : List ItemNode} {item : Item}
    (h : item ∈ attached payload nodes operation) :
    item.value = none ∨ item.value = some payload ∧ payload.isUndefined = false := by
  induction nodes generalizing operation with
  | nil => cases h
  | cons node nodes ih =>
      cases List.mem_append.mp h with
      | inr hrest => exact ih hrest
      | inl hnode =>
          obtain ⟨cfg, hcfg, rfl⟩ := List.mem_map.mp hnode
          unfold Item.attach
          split
          next hwrite =>
            have hdefined := (Bool.and_eq_true_iff.mp hwrite).1
            exact Or.inr ⟨rfl, by simpa using hdefined⟩
          next => exact Or.inl (by rw [← bare_of_mem_allItems hcfg]; rfl)

/-- A payload is attached to every item exactly when every node with items sees a
write, and to none exactly when none does. -/
theorem attached_iff {payload : Value} (hpayload : payload.isUndefined = false) (write : Bool)
    (nodes : List ItemNode) (operation : Value) :
    (∀ item ∈ attached payload nodes operation, item.value.isSome = write) ↔
      AtItems write nodes operation := by
  induction nodes generalizing operation with
  | nil => exact iff_of_true nofun trivial
  | cons node nodes ih =>
      have hvalue : ∀ item ∈ node.allItems,
          (item.attach (node.operationAfter operation) payload).value.isSome =
            saysWrite (node.operationAfter operation) := by
        intro item hitem
        rw [Item.attach, isWrite, hpayload, ← bare_of_mem_allItems hitem]
        cases saysWrite (node.operationAfter operation) <;> rfl
      have hnode : (∀ item ∈ node.allItems.map
          (Item.attach (node.operationAfter operation) payload), item.value.isSome = write) ↔
            node.allItems = [] ∨ saysWrite (node.operationAfter operation) = write := by
        rw [List.forall_mem_map]
        constructor
        · intro h
          cases hitems : node.allItems with
          | nil => exact Or.inl rfl
          | cons item rest =>
              have hmem : item ∈ node.allItems := hitems ▸ List.mem_cons_self
              exact Or.inr ((hvalue item hmem).symm.trans (h item hmem))
        · rintro (hnil | hsays) item hitem
          · rw [hnil] at hitem
            cases hitem
          · exact (hvalue item hitem).trans hsays
      rw [atItems_cons, ← ih, ← hnode, attached, List.forall_mem_append]

/-! ## Agreement -/

theorem resolveOperation_congr {msg' : Msg} (h : msg.operation = msg'.operation) :
    resolveOperation env config msg = resolveOperation env config msg' := by
  rw [resolveOperation, h]
  rfl

theorem resolveOperation_chain : resolveOperation env config (chain c.nodes msg) =
    resolved env config c msg :=
  resolveOperation_congr (chain_collects c.collecting msg).operation

theorem attached_ne_nil {payload operation : Value} {nodes : List ItemNode}
    (h : collected nodes ≠ []) : attached payload nodes operation ≠ [] := by
  intro hnil
  rw [← attached_bare payload nodes operation, hnil] at h
  exact h rfl

/-- Where every node with items sees a write, every item has the payload. -/
theorem value_of_atItems {payload operation : Value} {nodes : List ItemNode}
    (hpayload : payload.isUndefined = false) (h : AtItems true nodes operation) {item : Item}
    (hitem : item ∈ attached payload nodes operation) : item.value = some payload := by
  have hsome := (attached_iff hpayload true nodes operation).mpr h item hitem
  cases value_of_mem_attached hitem with
  | inl hnone =>
      rw [hnone] at hsome
      cases hsome
  | inr hvalue => exact hvalue.1

/-- The client accepts an item of a chain only for its NodeId and for the payload. -/
theorem accepted_of_writable {payload operation : Value} {nodes : List ItemNode} {item : Item}
    (hitem : item ∈ attached payload nodes operation) (h : Writable env item.toValue) :
    (parseNodeId item.nodeId).truthy = true ∧ item.value.isSome = true ∧
      isNullish payload = false := by
  obtain ⟨hparse, hgiven⟩ := writable_toValue.mp h
  cases value_of_mem_attached hitem with
  | inl hnone =>
      rw [hnone] at hgiven
      cases hgiven
  | inr hvalue =>
      rw [hvalue.1] at hgiven ⊢
      exact ⟨hparse, rfl, hgiven⟩

/-- The client accepts all items of a chain exactly when their NodeIds are valid, there
is a payload, and every node with items sees a write. -/
theorem writable_attached_iff {payload operation : Value} {nodes : List ItemNode}
    (hne : collected nodes ≠ []) :
    (∀ item ∈ attached payload nodes operation, Writable env item.toValue) ↔
      (∀ item ∈ collected nodes, (parseNodeId item.nodeId).truthy = true) ∧
        isNullish payload = false ∧ AtItems true nodes operation := by
  rw [← attached_bare payload nodes operation, List.forall_mem_map]
  constructor
  · intro h
    have haccepted := fun item hitem => accepted_of_writable hitem (h item hitem)
    obtain ⟨first, hfirst⟩ := List.exists_mem_of_ne_nil _ (attached_ne_nil hne)
    have hpayload := (haccepted first hfirst).2.2
    have hdefined := isUndefined_of_not_nullish hpayload
    exact ⟨fun item hitem => (haccepted item hitem).1, hpayload,
      (attached_iff hdefined true _ _).mp fun item hitem => (haccepted item hitem).2.1⟩
  · rintro ⟨hnodeIds, hpayload, hoperation⟩ item hitem
    have hvalue := value_of_atItems (isUndefined_of_not_nullish hpayload) hoperation hitem
    refine writable_toValue.mpr ⟨hnodeIds item hitem, ?_⟩
    rw [hvalue]
    exact hpayload

/-- The entries that the items of a chain are made into. -/
theorem entries_attached {payload operation : Value} {nodes : List ItemNode}
    (hpayload : payload.isUndefined = false) (h : AtItems true nodes operation) :
    ((attached payload nodes operation).map Item.toValue).map (entryOf env) =
      (collected nodes).map (Item.entry payload) := by
  rw [← attached_bare payload nodes operation, List.map_map, List.map_map]
  apply List.map_congr_left
  intro item hitem
  rw [Function.comp_apply, Function.comp_apply, entryOf_toValue,
    value_of_atItems hpayload h hitem]
  rfl

/-- The items of a chain reach the manager exactly when every node sees a write and
the client accepts all items. -/
theorem writesAll_iff {operation : JsString} (hwrite : operation ∈ writeOperations)
    (hresolve : resolveOperation env config (chain c.nodes msg) = .ok operation)
    (hne : collected c.nodes ≠ []) : WritesAll env config c msg ↔ WritesWhen env c msg := by
  have hcollects := (chain_collects c.collecting msg).items
  have hitems : (chain c.nodes msg).itemList ≠ [] := by
    rw [hcollects]
    exact List.append_ne_nil_of_right_ne_nil _ (mt List.map_eq_nil_iff.mp (attached_ne_nil hne))
  have hcall := fun call => @managerCall_items env config _ _ call hresolve hwrite hitems
  simp only [hcollects, List.forall_mem_append, List.forall_mem_map,
    writable_attached_iff hne] at hcall
  constructor
  · rintro ⟨before, -, hbefore⟩
    obtain ⟨⟨hprior, hnodeIds, hpayload, hoperation⟩, -⟩ := (hcall _).mp hbefore
    exact ⟨hoperation, hpayload, hnodeIds, hprior⟩
  · rintro ⟨hoperation, hpayload, hnodeIds, hprior⟩
    have hdefined := isUndefined_of_not_nullish hpayload
    refine ⟨msg.itemList.map (entryOf env), List.length_map _,
      (hcall _).mpr ⟨⟨hprior, hnodeIds, hpayload, hoperation⟩, ?_⟩⟩
    rw [List.map_append, entries_attached hdefined hoperation]

/-- The items of a chain stay without a value exactly when no node sees a write, or
there is nothing to attach. -/
theorem noneCarries_iff : NoneCarries c msg ↔
    (msg.payload.isUndefined = false → AtItems false c.nodes msg.operation) := by
  have hitems := (chain_collects c.collecting msg).items
  constructor
  · rintro ⟨items, heq, -, hnone⟩ hdefined
    obtain rfl := List.append_cancel_left (hitems.symm.trans heq)
    refine (attached_iff hdefined false _ _).mp fun item hmem => ?_
    exact (carriesValue_toValue item).symm.trans (hnone _ (List.mem_map_of_mem hmem))
  · intro h
    have hlength := congrArg List.length (attached_bare msg.payload c.nodes msg.operation)
    rw [List.length_map] at hlength
    refine ⟨_, hitems, (List.length_map _).trans hlength, ?_⟩
    rw [List.forall_mem_map]
    intro item hmem
    rw [carriesValue_toValue]
    cases value_of_mem_attached hmem with
    | inl hnone =>
        rw [hnone]
        rfl
    | inr hsome => exact (attached_iff hsome.2 false _ _).mpr (h hsome.2) item hmem

variable (env config c msg)

/-- Chain and client agree exactly when every node with items sees a write where the
client writes, none does where the client reads, and the client has nothing to
refuse in what it is to write. -/
theorem operation_agreed_iff : Agrees env config c msg ↔ AgreesWhen env config c msg := by
  constructor
  · rintro ⟨hwrite, hread⟩
    refine ⟨fun operation hmem hresolve hne => ?_, fun operation hmem hresolve => ?_⟩
    · rw [← resolveOperation_chain] at hresolve
      exact (writesAll_iff hmem hresolve hne).mp (hwrite operation hmem hresolve hne)
    · rw [← resolveOperation_chain] at hresolve
      exact noneCarries_iff.mp (hread operation hmem hresolve)
  · rintro ⟨hwrite, hread⟩
    refine ⟨fun operation hmem hresolve hne => ?_, fun operation hmem hresolve => ?_⟩
    · have hresolved := resolveOperation_chain.symm.trans hresolve
      exact (writesAll_iff hmem hresolve hne).mpr (hwrite operation hmem hresolved hne)
    · have hresolved := resolveOperation_chain.symm.trans hresolve
      exact noneCarries_iff.mpr (hread operation hmem hresolved)

/-- A runtime that makes nothing of texts and instances. -/
def plainEnvironment : Environment where
  rt := plainRuntime
  lowerCase := id
  instanceMembers _ := []

def setpoint : ItemConfig where
  nodeId := text (js "ns=2;s=Setpoint")
  datatype := text (js "Double")

/-- Item nodes with one item each. -/
def itemNode (operation : JsString) (item : ItemConfig) : ItemNode :=
  opcUaItemNode { operation := text operation, items := [item] }

example : managerCall plainEnvironment {} (chain
    [itemNode (js "write") setpoint, itemNode [] { setpoint with datatype := text (js "Float") }]
    { payload := .bool true }) = some (.writeMultiple
      [⟨parseNodeId setpoint.nodeId, .bool true, some (text (js "Double")), none, none⟩,
        ⟨parseNodeId setpoint.nodeId, .bool true, some (text (js "Float")), none, none⟩]) := rfl

/-- The node does not see the default of the client, and attaches nothing. -/
theorem default_write_unseen : ¬ Agrees plainEnvironment { defaultOperation := text (js "write") }
    ⟨[itemNode [] setpoint], by simp [itemNode, opcUaItemNode, Value.isUndefined]⟩
    { payload := .bool true } := by
  intro h
  obtain ⟨before, -, hcall⟩ := h.write (js "write") List.mem_cons_self rfl (List.cons_ne_nil _ _)
  cases hcall

end OpcUaSuite.Items
