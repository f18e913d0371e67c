import OpcUaSuite.Nodes.ItemChain

/-!
# Single and collector mode

One configured item reaches the manager by `write` in single mode and as an entry of
`writeMultiple` in collector mode. Single mode hands on the NodeId and the datatype
of the item only; the other settings are those the message had before.
-/

namespace OpcUaSuite.Items

open Js Variants ByteCodec

/-- One configured item with the settings of its node, whichever its mode. -/
structure SingleItem where
  item : ItemConfig
  operation : Value
  unwrapSingle : Bool
  configured : item.nodeId.truthy = true

/-- The node of the item, in collector or in single mode. -/
def SingleItem.node (s : SingleItem) (collector : Bool) : ItemNode where
  collector := collector
  operation := s.operation
  unwrapSingle := s.unwrapSingle
  items := [s.item]

variable (env : Environment) (config : ClientConfig) (s : SingleItem) (msg : Msg)

/-- A message to be written leads to a `write` of what its one entry of
`writeMultiple` is in collector mode, and to none where there is no such entry. -/
def SameWrite : Prop :=
  ∀ operation ∈ writeOperations,
    resolveOperation env config ((s.node false).inputHandler msg) = .ok operation →
      ∀ entry, managerCall env config ((s.node false).inputHandler msg) = some (.write entry) ↔
        managerCall env config ((s.node true).inputHandler msg) = some (.writeMultiple [entry])

/-! ## Exactly when -/

/-- The client has nothing to refuse in the item and the payload. -/
structure Accepted : Prop where
  nodeId : (parseNodeId s.item.nodeId).truthy = true
  payload : isNullish msg.payload = false

/-- The client makes a single write of the message. -/
structure WrittenAlone (operation : JsString) : Prop where
  operation : operation = js "write"
  items : msg.items.isArray = false

/-- The item is given the payload, and no other item is before it. -/
structure PassedAlone : Prop where
  operation : saysWrite (orElse s.operation msg.operation) = true
  items : msg.itemList = []

/-- The settings the message has before are those of the item; its datatype counts
only where the item has none. -/
structure SameSettings : Prop where
  datatype : s.item.datatype.truthy = false → msg.datatype.truthy = false
  dataTypeNodeId : given msg.dataTypeNodeId = given s.item.dataTypeNodeId
  arrayType : given msg.arrayType = given s.item.arrayType

def SameWriteWhen : Prop :=
  ∀ operation ∈ writeOperations,
    resolveOperation env config { msg with operation := orElse s.operation msg.operation } =
        .ok operation →
      Accepted s msg → (WrittenAlone msg operation ↔ PassedAlone s msg) ∧
        (PassedAlone s msg → SameSettings s msg)

/-! ## The two routes -/

variable {env config s msg}

theorem given_orElse (v : Value) : given (orElse v .undefined) = given v := by
  unfold given orElse
  split
  · rfl
  · rfl

theorem given_eq_none {v : Value} : given v = none ↔ v.truthy = false := by
  unfold given
  split
  next h => exact ⟨nofun, fun h' => nomatch h.symm.trans h'⟩
  next h => exact iff_of_true rfl (Bool.eq_false_iff.mpr h)

/-- The datatype of an item without one is that of the message. -/
theorem given_datatype_iff (datatype upstream : Value) :
    given (orElse (orElse datatype .undefined) upstream) = given datatype ↔
      (datatype.truthy = false → upstream.truthy = false) := by
  cases h : datatype.truthy with
  | true =>
      have hfirst : orElse datatype .undefined = datatype := if_pos h
      have hsecond : orElse datatype upstream = datatype := if_pos h
      rw [hfirst, hsecond]
      exact iff_of_true rfl nofun
  | false =>
      have hfirst : orElse datatype .undefined = .undefined :=
        if_neg (Bool.eq_false_iff.mp h)
      have hsecond : orElse .undefined upstream = upstream := rfl
      rw [hfirst, hsecond, given_eq_none.mpr h, given_eq_none]
      exact ⟨fun h _ => h, fun h => h rfl⟩

/-- The entry of the item in collector mode. -/
def SingleItem.collectedEntry (s : SingleItem) (msg : Msg) : Client.WriteItem Value :=
  (Item.ofConfig s.item).entry msg.payload

/-- What the item is written as in single mode. -/
def SingleItem.writtenEntry (s : SingleItem) (msg : Msg) : Client.WriteItem Value where
  nodeId := parseNodeId s.item.nodeId
  value := msg.payload
  datatype := given (orElse (orElse s.item.datatype .undefined) msg.datatype)
  dataTypeNodeId := given msg.dataTypeNodeId
  arrayType := given msg.arrayType

theorem writtenEntry_eq_iff : s.writtenEntry msg = s.collectedEntry msg ↔ SameSettings s msg := by
  unfold SingleItem.writtenEntry SingleItem.collectedEntry Item.entry Item.ofConfig
  simp only [given_orElse, Client.WriteItem.mk.injEq, true_and, given_datatype_iff]
  exact ⟨fun ⟨h, h', h''⟩ => ⟨h, h', h''⟩, fun ⟨h, h', h''⟩ => ⟨h, h', h''⟩⟩

theorem allItems_node (collector : Bool) : (s.node collector).allItems = [Item.ofConfig s.item] := by
  have hfilter : [s.item].filter (fun cfg => cfg.nodeId.truthy) = [s.item] :=
    List.filter_eq_self.mpr fun cfg hcfg => List.mem_singleton.mp hcfg ▸ s.configured
  exact congrArg (List.map Item.ofConfig) hfilter

/-- The message of a node in collector mode has the item behind its items. -/
theorem itemList_collector : ((s.node true).inputHandler msg).itemList = msg.itemList ++
    [((Item.ofConfig s.item).attach (orElse s.operation msg.operation) msg.payload).toValue] := by
  have hitems := (@inputHandler_collects (s.node true) rfl msg).items
  rwa [allItems_node] at hitems

theorem itemList_collector_ne_nil : ((s.node true).inputHandler msg).itemList ≠ [] := by
  rw [itemList_collector]
  apply List.append_ne_nil_of_right_ne_nil
  exact List.cons_ne_nil _ _

/-- A message with items is collected in both modes. -/
theorem inputHandler_of_isArray (h : msg.items.isArray = true) :
    (s.node false).inputHandler msg = (s.node true).inputHandler msg := by
  have hplace : ∀ items, (s.node false).place ((s.node false).impose msg) items =
      (s.node true).place ((s.node true).impose msg) items := by
    intro items
    cases items with
    | nil => rfl
    | cons item rest => exact if_pos h
  exact hplace _

/-- The message for the item in single mode. -/
def SingleItem.target (s : SingleItem) (msg : Msg) : Msg :=
  { (s.node false).impose msg with
    topic := s.item.nodeId
    nodeId := s.item.nodeId
    datatype := orElse (orElse s.item.datatype .undefined) msg.datatype
    itemName := orElse (orElse s.item.itemName .undefined) msg.itemName }

/-- A message without items becomes one for the item in single mode. -/
theorem inputHandler_of_not_isArray (h : msg.items.isArray = false) :
    (s.node false).inputHandler msg = s.target msg := by
  unfold ItemNode.inputHandler
  rw [allItems_node]
  refine (if_neg (ne_true_of_eq_false h)).trans ?_
  unfold Item.attach
  split
  · rfl
  · rfl

/-! ## The calls -/

/-- In collector mode the item is the one entry of a batch exactly when it is
accepted, given the payload, and alone. -/
theorem collected_iff {operation : JsString} {entry : Client.WriteItem Value}
    (hwrite : operation ∈ writeOperations)
    (hresolve : resolveOperation env config ((s.node true).inputHandler msg) = .ok operation) :
    managerCall env config ((s.node true).inputHandler msg) = some (.writeMultiple [entry]) ↔
      Accepted s msg ∧ PassedAlone s msg ∧ entry = s.collectedEntry msg := by
  have hitems := @itemList_collector s msg
  rw [managerCall_items hresolve hwrite itemList_collector_ne_nil, hitems]
  constructor
  · rintro ⟨hwritable, hentries⟩
    obtain ⟨-, hitem⟩ := List.forall_mem_append.mp hwritable
    obtain ⟨hparse, hgiven⟩ := writable_toValue.mp (hitem _ List.mem_cons_self)
    have hone := Client.Operation.writeMultiple.inj hentries
    rw [List.map_append] at hone
    obtain ⟨hprior, hlast⟩ := List.append_inj' ((List.nil_append [entry]).trans hone) rfl
    rw [List.map_singleton, entryOf_toValue] at hlast
    cases hattach : isWrite (orElse s.operation msg.operation) msg.payload with
    | false =>
        rw [Item.attach, hattach] at hgiven
        cases hgiven
    | true =>
        rw [Item.attach, hattach] at hparse hgiven hlast
        exact ⟨⟨hparse, hgiven⟩,
          ⟨(Bool.and_eq_true_iff.mp hattach).2, List.map_eq_nil_iff.mp hprior.symm⟩,
          List.singleton_inj.mp hlast⟩
  · rintro ⟨haccepted, halone, rfl⟩
    have hattach : isWrite (orElse s.operation msg.operation) msg.payload = true := by
      rw [isWrite, halone.operation, isUndefined_of_not_nullish haccepted.payload]
      rfl
    rw [halone.items, Item.attach, hattach, List.nil_append, List.map_singleton, entryOf_toValue]
    exact ⟨List.forall_mem_singleton.mpr
      (writable_toValue.mpr ⟨haccepted.nodeId, haccepted.payload⟩), rfl⟩

/-- The batch handler never makes a single write. -/
theorem handleWriteMultiple_ne_write {handled : Handled} {entry : Client.WriteItem Value}
    (h : handleWriteMultiple env msg = .ok handled) : handled.operation ≠ .write entry := by
  obtain ⟨items, -, hrest⟩ := bind_eq_ok.mp h
  obtain ⟨es, -, hrest⟩ := bind_eq_ok.mp hrest
  obtain rfl := Except.ok.inj hrest
  exact nofun

/-- A single write of a message without items. -/
theorem handleWrite_iff {entry : Client.WriteItem Value} (h : msg.itemList = []) :
    (∃ handled, handleWrite env msg = .ok handled ∧ handled.operation = .write entry) ↔
      (parseNodeId (orElse msg.topic msg.nodeId)).truthy = true ∧ isNullish msg.payload = false ∧
        entry = {
          nodeId := parseNodeId (orElse msg.topic msg.nodeId)
          value := msg.payload
          datatype := given msg.datatype
          dataTypeNodeId := given msg.dataTypeNodeId
          arrayType := given msg.arrayType } := by
  unfold handleWrite
  rw [h]
  constructor
  · rintro ⟨handled, hhandled, hcall⟩
    obtain ⟨-, hrest⟩ := require_bind_eq_ok.mp hhandled
    obtain ⟨hpayload, hrest⟩ := require_bind_eq_ok.mp hrest
    obtain ⟨hparse, hrest⟩ := require_bind_eq_ok.mp hrest
    obtain rfl := Except.ok.inj hrest
    exact ⟨hparse, by simpa using hpayload, (Client.Operation.write.inj hcall).symm⟩
  · rintro ⟨hparse, hpayload, rfl⟩
    exact ⟨_, require_bind_eq_ok.mpr ⟨truthy_of_parseNodeId hparse, require_bind_eq_ok.mpr
      ⟨by rw [hpayload]; rfl, require_bind_eq_ok.mpr ⟨hparse, rfl⟩⟩⟩, rfl⟩

/-- The message for the item is written when its operation is the single write. -/
theorem target_written_iff {entry : Client.WriteItem Value} (hitems : msg.items.isArray = false)
    (hresolve : resolveOperation env config (s.target msg) = .ok (js "write")) :
    managerCall env config (s.target msg) = some (.write entry) ↔
      Accepted s msg ∧ entry = s.writtenEntry msg := by
  have hexecute : executeOperation env config (js "write")
      ((s.target msg).withOperation (js "write")) =
        some (handleWrite env ((s.target msg).withOperation (js "write"))) := rfl
  have hnone : ((s.target msg).withOperation (js "write")).itemList = [] :=
    itemList_of_not_isArray hitems
  have htarget : orElse s.item.nodeId s.item.nodeId = s.item.nodeId := if_pos s.configured
  rw [managerCall_eq_some hresolve hexecute, handleWrite_iff hnone]
  change (parseNodeId (orElse s.item.nodeId s.item.nodeId)).truthy = true ∧
    isNullish msg.payload = false ∧ entry = { s.writtenEntry msg with
      nodeId := parseNodeId (orElse s.item.nodeId s.item.nodeId) } ↔ _
  rw [htarget]
  exact ⟨fun ⟨hparse, hpayload, hentry⟩ => ⟨⟨hparse, hpayload⟩, hentry⟩,
    fun ⟨haccepted, hentry⟩ => ⟨haccepted.nodeId, haccepted.payload, hentry⟩⟩

/-- A batch of the payload is no single write. -/
theorem target_not_written {entry : Client.WriteItem Value}
    (hresolve : resolveOperation env config (s.target msg) = .ok (js "writemultiple")) :
    managerCall env config (s.target msg) ≠ some (.write entry) := by
  have hexecute : executeOperation env config (js "writemultiple")
      ((s.target msg).withOperation (js "writemultiple")) =
        some (handleWriteMultiple env ((s.target msg).withOperation (js "writemultiple"))) := rfl
  intro hcall
  obtain ⟨handled, hhandled, hwrite⟩ := (managerCall_eq_some hresolve hexecute).mp hcall
  exact handleWriteMultiple_ne_write hhandled hwrite

/-- In single mode the item is written exactly when it is accepted, and the message is
one for a single write. -/
theorem written_iff {operation : JsString} {entry : Client.WriteItem Value}
    (hwrite : operation ∈ writeOperations)
    (hresolve : resolveOperation env config ((s.node false).inputHandler msg) = .ok operation) :
    managerCall env config ((s.node false).inputHandler msg) = some (.write entry) ↔
      Accepted s msg ∧ WrittenAlone msg operation ∧ entry = s.writtenEntry msg := by
  cases harray : msg.items.isArray with
  | true =>
      rw [inputHandler_of_isArray harray] at hresolve ⊢
      rw [managerCall_items hresolve hwrite itemList_collector_ne_nil]
      refine ⟨fun h => (nomatch h.2), fun h => ?_⟩
      exact nomatch harray.symm.trans h.2.1.items
  | false =>
      rw [inputHandler_of_not_isArray harray] at hresolve ⊢
      rcases List.mem_pair.mp hwrite with rfl | rfl
      · rw [target_written_iff harray hresolve]
        exact ⟨fun ⟨haccepted, hentry⟩ => ⟨haccepted, ⟨rfl, harray⟩, hentry⟩,
          fun ⟨haccepted, _, hentry⟩ => ⟨haccepted, hentry⟩⟩
      · refine iff_of_false (target_not_written hresolve) fun h => ?_
        exact absurd h.2.1.operation (by decide +kernel)

variable (env config s msg)

/-- Both modes write the same exactly when both take the message for a write of that
one item, or neither does, and the settings that single mode leaves to the message
are those of the item. -/
theorem sameWrite_iff : SameWrite env config s msg ↔ SameWriteWhen env config s msg := by
  refine forall₂_congr fun operation hwrite => ?_
  have hresolved : ∀ collector, resolveOperation env config ((s.node collector).inputHandler msg) =
      resolveOperation env config { msg with operation := orElse s.operation msg.operation } :=
    fun collector => resolveOperation_congr ((s.node collector).inputHandler_operation msg)
  rw [hresolved false]
  refine forall_congr' fun hresolve => ?_
  have hsingle := fun entry => @written_iff env config s msg operation entry hwrite
    ((hresolved false).trans hresolve)
  have hcollected := fun entry => @collected_iff env config s msg operation entry hwrite
    ((hresolved true).trans hresolve)
  simp only [hsingle, hcollected, ← writtenEntry_eq_iff]
  constructor
  · intro h haccepted
    refine ⟨⟨fun halone => ?_, fun halone => ?_⟩, fun halone => ?_⟩
    · exact ((h _).mp ⟨haccepted, halone, rfl⟩).2.1
    · exact ((h _).mpr ⟨haccepted, halone, rfl⟩).2.1
    · exact ((h _).mpr ⟨haccepted, halone, rfl⟩).2.2.symm
  · intro h entry
    constructor
    · rintro ⟨haccepted, halone, rfl⟩
      have hpassed := (h haccepted).1.mp halone
      exact ⟨haccepted, hpassed, (h haccepted).2 hpassed⟩
    · rintro ⟨haccepted, halone, rfl⟩
      exact ⟨haccepted, (h haccepted).1.mpr halone, ((h haccepted).2 halone).symm⟩

/-- A structure of a type of its own, written by the node. -/
def recipe : SingleItem where
  item := {
    nodeId := text (js "ns=2;s=Recipe")
    datatype := text (js "ExtensionObject")
    dataTypeNodeId := text (js "ns=2;i=3003") }
  operation := text (js "write")
  unwrapSingle := false
  configured := rfl

/-- Single mode loses the type of the structure. -/
theorem structureType_lost : ¬ SameWrite plainEnvironment {} recipe
    { payload := .object [(js "Speed", .num (Double.ofInt (7 : Nat)))] } := by
  intro h
  have hwrite := (h (js "write") List.mem_cons_self rfl (recipe.collectedEntry
    { payload := .object [(js "Speed", .num (Double.ofInt (7 : Nat)))] })).mpr rfl
  cases hwrite

end OpcUaSuite.Items
