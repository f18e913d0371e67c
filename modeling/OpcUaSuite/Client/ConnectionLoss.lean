import Mathlib.Data.List.Infix
import OpcUaSuite.Client.Operations

/-!
# Lost connections and their errors

`_isConnectionLostError` knows a lost connection by the message of the error: two
texts of the manager's own exactly, those of the library wherever they stand. The
handlers of an operation put texts of theirs in front of the message, after which
the texts of the library are still found and the manager's own are not.
-/

namespace OpcUaSuite.Client

open Js

/-! ## The classifier -/

/-- The texts of the library, and that of a timeout. -/
def connectionTexts : List JsString :=
  [js "premature disconnection", js "Secure Channel Closed", js "connection may have been rejected",
    js "Server end point", js "socket has been disconnected", js "Transaction has been canceled",
    js "channel is being closed", js "BadSessionClosed", js "BadSessionIdInvalid",
    js "BadConnectionClosed", js "BadSecureChannelClosed", js "Failure during reconnection",
    js "Operation timed out after"]

/-- `message.includes(text)` -/
def includes (message text : JsString) : Bool := decide (text <:+: message)

/-- `_isConnectionLostError` -/
def isConnectionLostError (message : JsString) : Bool :=
  message == js "Session is no longer valid" || message == js "Not connected" ||
    connectionTexts.any (includes message)

/-- One of the texts of the library is in the message. -/
def Listed (message : JsString) : Prop := ∃ text ∈ connectionTexts, text <:+: message

instance (message : JsString) : Decidable (Listed message) :=
  inferInstanceAs (Decidable (∃ text ∈ connectionTexts, text <:+: message))

theorem isConnectionLostError_iff {message : JsString} : isConnectionLostError message = true ↔
    (message = js "Session is no longer valid" ∨ message = js "Not connected") ∨
      Listed message := by
  unfold isConnectionLostError Listed
  rw [Bool.or_eq_true, Bool.or_eq_true, beq_iff_eq, beq_iff_eq, List.any_eq_true]
  simp only [includes, decide_eq_true_eq]

/-! ## Texts in front of a message -/

/-- What does not contain a separator lies on one side of it. -/
theorem infix_append_cons_iff {α : Type} {l a b : List α} {c : α} (hc : c ∉ l) :
    l <:+: a ++ c :: b ↔ l <:+: a ∨ l <:+: b := by
  constructor
  · intro h
    rcases List.infix_append_iff.mp h with hleft | hright | ⟨l₁, l₂, rfl, hsuffix, hprefix⟩
    · exact Or.inl hleft
    · rcases List.infix_cons_iff.mp hright with hhead | htail
      · cases l with
        | nil => exact Or.inr List.nil_infix
        | cons x l =>
            obtain ⟨rfl, -⟩ := List.cons_prefix_cons.mp hhead
            exact absurd List.mem_cons_self hc
      · exact Or.inr htail
    · cases l₂ with
      | nil =>
          rw [List.append_nil]
          exact Or.inl hsuffix.isInfix
      | cons x l₂ =>
          obtain ⟨rfl, -⟩ := List.cons_prefix_cons.mp hprefix
          exact absurd (List.mem_append_right l₁ List.mem_cons_self) hc
  · rintro (hleft | hright)
    · exact List.infix_append_of_infix_left hleft
    · exact List.infix_append_of_infix_right (List.infix_cons hright)

/-- No text has a colon or a quote, and each begins with something other than a space. -/
theorem connectionTexts_plain : ∀ text ∈ connectionTexts,
    58 ∉ text ∧ 39 ∉ text ∧ text.head?.any (· ≠ 32) = true := by
  decide +kernel

/-- A space or one of the capitals S and C, of which each text has one. -/
def isMark (u : UInt16) : Bool := u == 32 || u == 67 || u == 83

theorem not_listed_of_unmarked {message : JsString} (h : message.any isMark = false) :
    ¬ Listed message := by
  have hmarked : connectionTexts.all (fun text => text.any isMark) = true := by decide +kernel
  rintro ⟨text, htext, hwithin⟩
  obtain ⟨u, hu, hmark⟩ := List.any_eq_true.mp (List.all_eq_true.mp hmarked text htext)
  exact absurd hmark (List.any_eq_false.mp h u (hwithin.subset hu))

/-- Texts are found on the two sides of a separator that none of them contains. -/
theorem listed_append_cons {u : UInt16} (hu : ∀ text ∈ connectionTexts, u ∉ text)
    {left right : JsString} : Listed (left ++ u :: right) ↔ Listed left ∨ Listed right := by
  constructor
  · rintro ⟨text, htext, hinfix⟩
    rcases (infix_append_cons_iff (hu text htext)).mp hinfix with hleft | hright
    · exact Or.inl ⟨text, htext, hleft⟩
    · exact Or.inr ⟨text, htext, hright⟩
  · rintro (⟨text, htext, hleft⟩ | ⟨text, htext, hright⟩)
    · exact ⟨text, htext, List.infix_append_of_infix_left hleft⟩
    · exact ⟨text, htext, List.infix_append_of_infix_right (List.infix_cons hright)⟩

theorem listed_cons_space {message : JsString} : Listed (32 :: message) ↔ Listed message := by
  constructor
  · rintro ⟨text, htext, hinfix⟩
    rcases List.infix_cons_iff.mp hinfix with hhead | htail
    · have hstart := (connectionTexts_plain text htext).2.2
      cases text with
      | nil => cases hstart
      | cons u text =>
          obtain ⟨rfl, -⟩ := List.cons_prefix_cons.mp hhead
          cases hstart
    · exact ⟨text, htext, htail⟩
  · rintro ⟨text, htext, hinfix⟩
    exact ⟨text, htext, List.infix_cons hinfix⟩

/-- A text is found in a reworded message where it was, or in the text put in front. -/
theorem listed_reword {front message : JsString} :
    Listed (reword front message) ↔ Listed front ∨ Listed message := by
  have hreword : reword front message = front ++ 58 :: 32 :: message :=
    List.append_assoc front (js ": ") message
  rw [hreword, listed_append_cons fun text htext => (connectionTexts_plain text htext).1,
    listed_cons_space]

/-- Handlers add what their own texts say. -/
theorem listed_words {handlers : List JsString} {message : JsString} :
    Listed (account.words handlers message) ↔
      (∃ front ∈ handlers, Listed front) ∨ Listed message := by
  induction handlers generalizing message with
  | nil =>
      constructor
      · exact Or.inr
      · rintro (⟨front, hfront, -⟩ | h)
        · cases hfront
        · exact h
  | cons front handlers ih =>
      have hstep : account.words (front :: handlers) message =
          account.words handlers (reword front message) := rfl
      rw [hstep, ih, listed_reword, List.exists_mem_cons_iff, ← or_assoc, or_comm (a := Listed front)]

theorem mem_words {u : UInt16} {handlers : List JsString} {message : JsString}
    (h : u ∈ message) : u ∈ account.words handlers message := by
  induction handlers generalizing message with
  | nil => exact h
  | cons front handlers ih => exact ih (List.mem_append_right (front ++ js ": ") h)

/-- Behind a handler the manager's own texts are not the whole message any more. -/
theorem isConnectionLostError_words {front : JsString} {handlers : List JsString}
    {message : JsString} :
    isConnectionLostError (account.words (front :: handlers) message) = true ↔
      Listed (account.words (front :: handlers) message) := by
  have hcolon : 58 ∈ account.words handlers (reword front message) :=
    mem_words (List.mem_append_left message (List.mem_append_right front List.mem_cons_self))
  rw [isConnectionLostError_iff, or_iff_right]
  rintro (h | h)
  · exact absurd (h ▸ hcolon) (by decide +kernel)
  · exact absurd (h ▸ hcolon) (by decide +kernel)

/-! ## Steps -/

/-- At the step the connection is lost, or the loss comes back from a call. -/
def Step.Lost (step : Step) : Prop :=
  step.connection.refusal ≠ none ∨
    match step.action with
    | .rejected message => Listed message
    | .timedOut _ _ => True
    | _ => False

/-- A text in front of the message, such as that of a NodeId, is one of the listed. -/
def Step.Named (step : Step) : Prop := ∃ front ∈ step.handlers, Listed front

/-- When the step fails, its error is known for a lost connection: only the first
check may fail, and a session that is used may not be null. -/
def Step.Recognized (step : Step) : Prop :=
  step.Named ∨
    match step.action with
    | .check => step.connection.refusal ≠ none → step.handlers = []
    | .use _ => step.connection.session ≠ none
    | .rejected message | .thrown message =>
        Listed message ∨ step.handlers = [] ∧ isConnectionLostError message = true
    | .answered | .timedOut _ _ | .resumed => True

theorem refusal_cases {c : Connection} {message : JsString} (h : c.refusal = some message) :
    message = js "Session is no longer valid" ∨ message = js "Not connected" := by
  unfold Connection.refusal at h
  split at h
  next => exact Or.inr (Option.some.inj h).symm
  next =>
      split at h
      next => exact Or.inr (Option.some.inj h).symm
      next =>
          split at h
          next => exact Or.inl (Option.some.inj h).symm
          next => cases h

theorem refusal_not_listed {c : Connection} {message : JsString} (h : c.refusal = some message) :
    ¬ Listed message := by
  rcases refusal_cases h with rfl | rfl
  · decide +kernel
  · decide +kernel

theorem ofNull_eq (method : SessionMethod) : method.ofNull =
    js "Cannot read properties of null (reading " ++ 39 :: (method.name ++ 39 :: js ")") := by
  have hfront : js "Cannot read properties of null (reading '" =
      js "Cannot read properties of null (reading " ++ [39] := by decide +kernel
  have hback : js "')" = 39 :: js ")" := by decide +kernel
  rw [SessionMethod.ofNull, hfront, hback, List.append_assoc, List.append_assoc,
    List.singleton_append]

theorem ofNull_not_listed (method : SessionMethod) : ¬ Listed method.ofNull := by
  have hquote : ∀ text ∈ connectionTexts, 39 ∉ text := fun text htext =>
    (connectionTexts_plain text htext).2.1
  rw [ofNull_eq, listed_append_cons hquote, listed_append_cons hquote]
  rintro (h | h | h)
  · exact absurd h (by decide +kernel)
  · exact not_listed_of_unmarked (by cases method <;> decide +kernel) h
  · exact absurd h (by decide +kernel)

theorem ofNull_not_lost (method : SessionMethod) :
    ¬ isConnectionLostError method.ofNull = true := by
  have hquote : 39 ∈ method.ofNull := by
    rw [ofNull_eq]
    exact List.mem_append_right _ List.mem_cons_self
  rw [isConnectionLostError_iff]
  rintro ((h | h) | h)
  · exact absurd (h ▸ hquote) (by decide +kernel)
  · exact absurd (h ▸ hquote) (by decide +kernel)
  · exact ofNull_not_listed method h

theorem timeoutText_listed (ms label : JsString) : Listed (timeoutText ms label) := by
  refine ⟨js "Operation timed out after", by decide +kernel, [], js " " ++ ms ++ js "ms: " ++ label, ?_⟩
  have hsplit : js "Operation timed out after " = js "Operation timed out after" ++ js " " := rfl
  simp only [timeoutText, hsplit, List.nil_append, List.append_assoc]

/-- A step that does not fail is recognized. -/
theorem recognized_of_fine {step : Step} (h : step.failure = none) : step.Recognized := by
  refine Or.inr ?_
  unfold Step.failure at h
  cases haction : step.action with
  | check =>
      rw [haction] at h
      exact fun hrefusal => absurd h hrefusal
  | use method =>
      rw [haction] at h
      intro hsession
      rw [hsession] at h
      cases h
  | rejected message =>
      rw [haction] at h
      cases h
  | thrown message =>
      rw [haction] at h
      cases h
  | timedOut ms label => trivial
  | answered => trivial
  | resumed => trivial

/-- What makes the error of a failed step known. -/
theorem recognized_iff {step : Step} {core : JsString} (hfailure : step.failure = some core) :
    step.Recognized ↔
      step.Named ∨ Listed core ∨ step.handlers = [] ∧ isConnectionLostError core = true := by
  unfold Step.failure at hfailure
  unfold Step.Recognized
  refine or_congr_right ?_
  cases haction : step.action with
  | check =>
      rw [haction] at hfailure
      have hrefusal : step.connection.refusal ≠ none := fun h => by
        cases hfailure.symm.trans h
      have hknown : isConnectionLostError core = true :=
        isConnectionLostError_iff.mpr (Or.inl (refusal_cases hfailure))
      rw [or_iff_right (refusal_not_listed hfailure), and_iff_left hknown]
      exact ⟨fun h => h hrefusal, fun h _ => h⟩
  | use method =>
      rw [haction] at hfailure
      have hnull := Option.ite_none_right_eq_some.mp hfailure
      refine iff_of_false (fun h => h hnull.1) ?_
      rw [← Option.some.inj hnull.2]
      rintro (hlisted | ⟨-, hknown⟩)
      · exact ofNull_not_listed method hlisted
      · exact ofNull_not_lost method hknown
  | rejected message =>
      rw [haction] at hfailure
      cases hfailure
      rfl
  | thrown message =>
      rw [haction] at hfailure
      cases hfailure
      rfl
  | timedOut ms label =>
      rw [haction] at hfailure
      cases hfailure
      exact iff_of_true trivial (Or.inl (timeoutText_listed ms label))
  | answered =>
      rw [haction] at hfailure
      cases hfailure
  | resumed =>
      rw [haction] at hfailure
      cases hfailure

/-- The error that leaves the operation is known exactly when its step is recognized. -/
theorem words_lost_iff {step : Step} {core : JsString} (hfailure : step.failure = some core) :
    isConnectionLostError (account.words step.handlers core) = true ↔ step.Recognized := by
  rw [recognized_iff hfailure]
  unfold Step.Named
  cases step.handlers with
  | nil =>
      have hwords : account.words [] core = core := rfl
      rw [hwords]
      constructor
      · intro h
        exact Or.inr (Or.inr ⟨rfl, h⟩)
      · rintro (⟨front, hfront, -⟩ | hlisted | ⟨-, h⟩)
        · cases hfront
        · exact isConnectionLostError_iff.mpr (Or.inr hlisted)
        · exact h
  | cons front handlers =>
      rw [isConnectionLostError_words, listed_words]
      refine or_congr_right ?_
      constructor
      · exact Or.inl
      · rintro (hlisted | ⟨hnil, -⟩)
        · exact hlisted
        · cases hnil

/-! ## Every operation is accounted for -/

section Accounted

variable {σ V α : Type} (world : World σ V) (conv : Conversions V)

theorem accounted_throwing (message : JsString) :
    account.Accounted (throwing world message : Operating σ α) :=
  Deferred.Account.Accounted.step fun _ _ => ⟨rfl, rfl⟩

theorem accounted_computing (result : Except JsString α) :
    account.Accounted (computing world result) := by
  cases result with
  | ok a => exact Deferred.Account.Accounted.pure a
  | error message => exact accounted_throwing world message

theorem accounted_awaiting {t : Operating σ α} (h : account.Accounted t) :
    account.Accounted (awaiting world t) :=
  h.bind fun _ => Deferred.Account.Accounted.step fun _ _ => ⟨rfl, rfl⟩

theorem accounted_awaitingAll {ts : List (Operating σ α)} (h : ∀ t ∈ ts, account.Accounted t) :
    account.Accounted (awaitingAll world ts) :=
  accounted_awaiting world (Deferred.Account.Accounted.all h)

theorem accounted_ensureConnected : account.Accounted (ensureConnected world) := by
  refine Deferred.Account.Accounted.step fun handlers s => ⟨rfl, ?_⟩
  have hfailure : account.failure ⟨handlers, world.connection s, .check⟩ =
    (world.connection s).refusal := rfl
  dsimp only
  rw [hfailure]
  cases (world.connection s).refusal with
  | none => rfl
  | some message => rfl

theorem accounted_sessionMethod (method : SessionMethod) :
    account.Accounted (sessionMethod world method) := by
  refine Deferred.Account.Accounted.step fun handlers s => ⟨rfl, ?_⟩
  have hfailure : account.failure ⟨handlers, world.connection s, .use method⟩ =
    if (world.connection s).session = none then some method.ofNull else none := rfl
  dsimp only
  rw [hfailure]
  by_cases hsession : (world.connection s).session = none
  · rw [if_pos hsession, if_pos hsession]
  · rw [if_neg hsession, if_neg hsession]

theorem accounted_settling (label : JsString) (answer : σ → σ × Reply α) :
    account.Accounted (settling world label answer) := by
  refine Deferred.Account.Accounted.step fun handlers s => ?_
  dsimp only
  cases (answer s).2 with
  | fulfilled a => exact ⟨rfl, rfl⟩
  | rejected message => exact ⟨rfl, rfl⟩
  | timedOut => exact ⟨rfl, rfl⟩

theorem accounted_requesting (method : SessionMethod) (label : JsString)
    (answer : σ → σ × Reply α) : account.Accounted (requesting world method label answer) :=
  (accounted_sessionMethod world method).bind fun _ => accounted_settling world label answer

theorem accounted_ite {p : Prop} [Decidable p] {t u : Operating σ α} (ht : account.Accounted t)
    (hu : account.Accounted u) : account.Accounted (if p then t else u) := by
  by_cases h : p
  · rw [if_pos h]
    exact ht
  · rw [if_neg h]
    exact hu

/-- An operation that checks the connection and goes on under a handler. -/
theorem accounted_checked {t : Operating σ α} (front : JsString) (ht : account.Accounted t) :
    account.Accounted (do ensureConnected world; rethrowing front t) :=
  (accounted_ensureConnected world).bind fun _ => ht.within front

theorem accounted_readNodeAttributes (opcuaNodeId : JsString) :
    account.Accounted (readNodeAttributes world conv opcuaNodeId) :=
  (accounted_requesting world .read _ _).bind fun _ =>
    (accounted_computing world _).bind fun _ => Deferred.Account.Accounted.pure _

theorem accounted_read (nodeId : V) : account.Accounted (Client.read world conv nodeId) :=
  accounted_checked world _ <| (accounted_computing world _).bind fun opcuaNodeId =>
    (accounted_requesting world .read _ _).bind fun _ =>
      accounted_ite (accounted_awaiting world (accounted_readNodeAttributes world conv opcuaNodeId))
        (accounted_computing world _)

theorem accounted_readAttribute (nodeId attributeId : V) :
    account.Accounted (Client.readAttribute world conv nodeId attributeId) :=
  accounted_checked world _ <| (accounted_computing world _).bind fun _ =>
    (accounted_requesting world .read _ _).bind fun _ =>
      (accounted_computing world _).bind fun _ => Deferred.Account.Accounted.pure _

theorem accounted_processResult (nodeId : V) (dataValue : DataValue V) :
    account.Accounted (processResult world conv nodeId dataValue) :=
  (accounted_computing world _).bind fun _ => accounted_ite
    ((accounted_computing world _).bind fun opcuaNodeId =>
      (accounted_awaiting world (accounted_readNodeAttributes world conv opcuaNodeId)).bind
        fun _ => Deferred.Account.Accounted.pure _)
    ((accounted_computing world _).bind fun _ => Deferred.Account.Accounted.pure _)

theorem accounted_readMultiple (nodeIds : List V) :
    account.Accounted (Client.readMultiple world conv nodeIds) := by
  refine accounted_checked world _ <| (accounted_computing world _).bind fun _ =>
    (accounted_requesting world .read _ _).bind fun results =>
      accounted_awaitingAll world ?_
  intro t ht
  obtain ⟨index, -, rfl⟩ := List.mem_mapIdx.mp ht
  exact accounted_processResult world conv _ _

theorem accounted_getVariableDataType (opcuaNodeId : JsString) :
    account.Accounted (getVariableDataType world conv opcuaNodeId) := by
  refine (Deferred.Account.Accounted.gets _).bind fun cached => ?_
  cases cached with
  | some info => exact Deferred.Account.Accounted.pure info
  | none =>
      refine (accounted_requesting world .read _ _).bind fun dataValue => ?_
      cases dataValue.value.filter fun id => dataValue.statusCode.isGood && conv.isTruthy id with
      | none => exact accounted_throwing world _
      | some dataTypeNodeId =>
          exact (accounted_requesting world .getBuiltInDataType _ _).bind
            fun _ => Deferred.Account.Accounted.pure _

theorem accounted_constructExtensionObject (dataTypeNodeId fields : V) :
    account.Accounted (constructExtensionObject world conv dataTypeNodeId fields) :=
  (accounted_ensureConnected world).bind fun _ => (accounted_computing world _).bind
    fun _ => (accounted_requesting world .constructExtensionObject _ _).within _

theorem accounted_createExtensionObjectVariant (value dataTypeNodeId : V) (arrayType : Option V) :
    account.Accounted
      (createExtensionObjectVariant world conv value dataTypeNodeId arrayType) := by
  unfold createExtensionObjectVariant
  cases conv.elements? value with
  | some elements =>
      refine (accounted_awaitingAll world ?_).bind fun _ => Deferred.Account.Accounted.pure _
      intro t ht
      obtain ⟨fields, -, rfl⟩ := List.mem_map.mp ht
      exact accounted_ite (Deferred.Account.Accounted.pure fields)
        (accounted_constructExtensionObject world conv dataTypeNodeId fields)
  | none =>
      refine accounted_ite (accounted_throwing world _) (accounted_ite
        (Deferred.Account.Accounted.pure _) ?_)
      exact (accounted_awaiting world (accounted_constructExtensionObject world conv _ _)).bind
        fun _ => Deferred.Account.Accounted.pure _

theorem accounted_structureType (opcuaNodeId : JsString) (given : Option V) :
    account.Accounted (structureType world conv opcuaNodeId given) := by
  cases given with
  | some dataTypeNodeId => exact Deferred.Account.Accounted.pure dataTypeNodeId
  | none =>
      exact (accounted_awaiting world (accounted_getVariableDataType world conv opcuaNodeId)).bind
        fun _ => Deferred.Account.Accounted.pure _

theorem accounted_createWriteVariant (opcuaNodeId : JsString) (item : WriteItem V) :
    account.Accounted (createWriteVariant world conv opcuaNodeId item) := by
  refine (accounted_computing world _).bind fun dataType => ?_
  refine accounted_ite (accounted_ite (Deferred.Account.Accounted.pure _) ?_)
    (accounted_ite ?_ (accounted_computing world _))
  · exact (accounted_structureType world conv opcuaNodeId _).bind fun _ =>
      accounted_createExtensionObjectVariant world conv _ _ _
  · exact (accounted_awaiting world (accounted_getVariableDataType world conv opcuaNodeId)).bind
      fun _ => accounted_ite (accounted_createExtensionObjectVariant world conv _ _ _)
        (accounted_computing world _)

theorem accounted_write (item : WriteItem V) : account.Accounted (Client.write world conv item) :=
  accounted_checked world _ <| (accounted_computing world _).bind fun opcuaNodeId =>
    (accounted_awaiting world (accounted_createWriteVariant world conv opcuaNodeId item)).bind
      fun _ => accounted_requesting world .write _ _

theorem accounted_nodeToWrite (item : WriteItem V) :
    account.Accounted (nodeToWrite world conv item) :=
  (accounted_computing world _).bind fun opcuaNodeId =>
    ((accounted_awaiting world
      (accounted_createWriteVariant world conv opcuaNodeId item)).within opcuaNodeId).bind
        fun _ => Deferred.Account.Accounted.pure _

theorem accounted_writeMultiple (items : List (WriteItem V)) :
    account.Accounted (Client.writeMultiple world conv items) := by
  refine accounted_checked world _ <| (accounted_awaitingAll world ?_).bind fun _ =>
    (accounted_requesting world .write _ _).bind fun _ =>
      accounted_computing world _
  intro t ht
  obtain ⟨item, -, rfl⟩ := List.mem_map.mp ht
  exact accounted_nodeToWrite world conv item

theorem accounted_inputArgument (index : Nat) (arg : V) :
    account.Accounted (inputArgument world conv index arg) := by
  refine accounted_ite (Deferred.Account.Accounted.pure arg)
    (Deferred.Account.Accounted.within ?_ _)
  cases conv.typedArgument? arg with
  | none => exact accounted_computing world _
  | some typed =>
      refine (accounted_computing world _).bind fun dt =>
        accounted_ite ?_ (accounted_computing world _)
      cases typed.dataTypeNodeId with
      | none => exact accounted_throwing world _
      | some dataTypeNodeId =>
          exact accounted_awaiting world
            (accounted_createExtensionObjectVariant world conv typed.value dataTypeNodeId _)

theorem accounted_callMethod (objectId methodId : V) (inputArguments : List V) :
    account.Accounted (Client.callMethod world conv objectId methodId inputArguments) := by
  refine accounted_checked world _ <| (accounted_computing world _).bind fun _ =>
    (accounted_computing world _).bind fun _ => (accounted_awaitingAll world ?_).bind fun _ =>
      (accounted_requesting world .call _ _).bind fun _ =>
        (accounted_computing world _).bind fun _ => Deferred.Account.Accounted.pure _
  intro t ht
  obtain ⟨index, -, rfl⟩ := List.mem_mapIdx.mp ht
  exact accounted_inputArgument world conv index _

theorem accounted_historyRead (nodeId startTime endTime : V) (options : HistoryOptions) :
    account.Accounted (Client.historyRead world conv nodeId startTime endTime options) :=
  accounted_checked world _ <| (accounted_computing world _).bind fun _ =>
    (accounted_requesting world .readHistoryValue _ _).bind fun _ =>
      (accounted_computing world _).bind fun _ => (accounted_computing world _).bind fun _ =>
        Deferred.Account.Accounted.pure _

theorem accounted_browseRest (remainingRounds : Nat) (references : List V)
    (result : BrowseResult V) :
    account.Accounted (browseRest world remainingRounds references result) := by
  induction remainingRounds generalizing references result with
  | zero => exact Deferred.Account.Accounted.pure references
  | succ remainingRounds ih =>
      rw [browseRest]
      cases result.more? with
      | none => exact Deferred.Account.Accounted.pure references
      | some point =>
          exact (accounted_requesting world .browseNext _ _).bind fun next =>
            ih (references ++ next.page) next

theorem accounted_browseNode (nodeId options : V) :
    account.Accounted (browseNode world conv nodeId options) := by
  refine accounted_checked world _ <| (accounted_computing world _).bind fun _ =>
    (accounted_requesting world .browse _ _).bind fun result => ?_
  cases result.statusCode.filter StatusCode.isNotGood with
  | some code => exact accounted_throwing world code.text
  | none => exact accounted_awaiting world (accounted_browseRest world 1000 result.page result)

theorem accounted_createSubscription (options : V) :
    account.Accounted (Client.createSubscription world options) := by
  refine accounted_checked world _ (Deferred.Account.Accounted.step fun handlers s => ?_)
  rcases world.createSubscription options s with ⟨s', message | subscription⟩
  · exact ⟨rfl, rfl⟩
  · exact ⟨rfl, rfl⟩

theorem accounted_registerNodes (nodeIds : List V) :
    account.Accounted (Client.registerNodes world conv nodeIds) :=
  accounted_checked world _ <| (accounted_computing world _).bind fun _ =>
    accounted_requesting world .registerNodes _ _

/-- An operation fails with the last of its steps, under the handlers around that. -/
theorem accounted_operation (operation : Operation V) :
    account.Accounted (operation.computation world conv) := by
  cases operation with
  | read nodeId => exact accounted_read world conv nodeId
  | readMultiple nodeIds => exact accounted_readMultiple world conv nodeIds
  | readAttribute nodeId attributeId => exact accounted_readAttribute world conv nodeId attributeId
  | write item => exact accounted_write world conv item
  | writeMultiple items => exact accounted_writeMultiple world conv items
  | callMethod objectId methodId inputArguments =>
      exact accounted_callMethod world conv objectId methodId inputArguments
  | historyRead nodeId startTime endTime options =>
      exact accounted_historyRead world conv nodeId startTime endTime options
  | browse nodeId options => exact accounted_browseNode world conv nodeId options
  | createSubscription options => exact accounted_createSubscription world options
  | registerNodes nodeIds => exact accounted_registerNodes world conv nodeIds

end Accounted

/-! ## The result -/

/-- When the connection is lost in the run and the operation is rejected, its error
is taken for that of a lost connection. -/
def LossesClassified {σ α : Type} (run : Deferred.Run σ Step JsString α) : Prop :=
  ∀ message, run.outcome = .error message → (∃ step ∈ run.steps, step.Lost) →
    isConnectionLostError message = true

/-- The losses in a run of any operation are classified exactly when a run with a
loss has recognized steps only: after the first check no null session is used and no
structure is built on a lost connection, and the calls that are rejected are so with
a listed text. -/
theorem lossesClassified_iff {σ V : Type} (world : World σ V) (conv : Conversions V)
    (operation : Operation V) (s : σ) :
    LossesClassified (operation.run world conv s) ↔
      ((∃ step ∈ (operation.run world conv s).steps, step.Lost) →
        ∀ step ∈ (operation.run world conv s).steps, step.Recognized) := by
  have hexplained := accounted_operation world conv operation [] s
  change account.Explains [] (operation.run world conv s) at hexplained
  unfold LossesClassified
  unfold Deferred.Account.Explains at hexplained
  cases houtcome : (operation.run world conv s).outcome with
  | ok p =>
      rw [houtcome] at hexplained
      refine iff_of_true (fun _ h => nomatch h) fun _ step hstep => ?_
      exact recognized_of_fine (hexplained step hstep)
  | error message =>
      rw [houtcome] at hexplained
      obtain ⟨before, taken, inner, core, hsteps, hbefore, hfailure, hhandlers, rfl⟩ := hexplained
      have hinner : taken.handlers = inner := hhandlers.trans (List.append_nil inner)
      have hlast := words_lost_iff hfailure
      rw [hinner] at hlast
      constructor
      · intro h hlost step hstep
        rw [hsteps, List.mem_append, List.mem_singleton] at hstep
        rcases hstep with hearlier | rfl
        · exact recognized_of_fine (hbefore step hearlier)
        · exact hlast.mp (h _ rfl hlost)
      · intro h _ heq hlost
        cases heq
        refine hlast.mpr (h hlost taken ?_)
        rw [hsteps]
        exact List.mem_append_right before List.mem_cons_self

/-- A world in which the session is gone at the first `await`. -/
def closingWorld : World Bool Unit where
  connection lost := if lost then { session := none } else {}
  resume _ := true
  fork lost _ := lost
  connection_fork _ _ := rfl
  join lost := lost
  first _ := 0
  operationTimeout := js "10000"
  cachedDataType _ _ := none
  read _ _ lost := (lost, .timedOut)
  readAll _ lost := (lost, .timedOut)
  write _ _ lost := (lost, .fulfilled (js "Good (0x00000000)"))
  writeAll _ lost := (lost, .timedOut)
  call _ _ _ lost := (lost, .timedOut)
  readHistoryValue _ _ _ _ lost := (lost, .timedOut)
  browse _ _ lost := (lost, .timedOut)
  browseNext _ lost := (lost, .timedOut)
  registerNodes _ lost := (lost, .timedOut)
  constructExtensionObject _ _ lost := (lost, .timedOut)
  getBuiltInDataType _ lost := (lost, .timedOut)
  createSubscription _ lost := (lost, .ok ())

/-- One node and one value, which is no structure. -/
def plainConversions : Conversions Unit where
  undefined := ()
  toOpcUaNodeId _ := .ok (js "ns=1;s=Level")
  nodeIdText _ := .ok (js "ns=1;s=Level")
  coerceNodeId _ := .ok (js "ns=1;s=Level")
  attributeId _ := valueAttribute
  date := id
  isTruthy _ := true
  isVariant _ := false
  isExtensionObject _ := false
  looksLikeStructure _ := false
  elements? _ := none
  typedArgument? _ := none
  requiresArray _ := false
  resolveDataType _ := .ok none
  dataTypeName _ := none
  buildVariant _ _ _ := .ok ()
  extensionVariant := id
  extensionArray _ := ()
  serializeValue := .ok
  nodeAttributes _ := .ok ()

/-- `disconnect()` sets the session to null while `write` makes its Variant. -/
theorem null_session_unclassified :
    ¬ ∀ (σ V : Type) (world : World σ V) (conv : Conversions V) (operation : Operation V) (s : σ),
      LossesClassified (operation.run world conv s) := by
  intro h
  have hwrite := h Bool Unit closingWorld plainConversions (.write { nodeId := (), value := () })
    false (js "Error writing: Cannot read properties of null (reading 'write')") (by rfl)
    ⟨⟨[js "Error writing"], { session := none }, .resumed⟩, by decide +kernel,
      Or.inl (by decide)⟩
  exact absurd hwrite (by decide +kernel)

end OpcUaSuite.Client
