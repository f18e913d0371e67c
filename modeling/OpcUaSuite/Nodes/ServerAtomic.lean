import OpcUaSuite.Lib.Transition
import OpcUaSuite.Nodes.ServerCommands

/-!
# Atomic commands

A command that answers with an error should leave the address space as it was. Every
handler but one makes its only call behind all its checks; `addMethod` creates the
method first and looks at the function body then.
-/

namespace OpcUaSuite.Server

open Js Variants Effect

variable {S N M : Type} {env : Environment} {space : AddressSpace S N M}

/-! ## One call behind all checks -/

theorem reads_found (rt : Runtime) (what : JsString) (nodeId : Value) (node : Option N) :
    Reads (found rt what nodeId node : Command S N) := by
  cases node with
  | none => exact .fail _
  | some node => exact .pure _

theorem reads_findAnywhere (nodeId : Value) : Reads (findAnywhere space nodeId) := by
  refine .bind (.query _) fun node => ?_
  cases node with
  | none => exact .query _
  | some node => exact .pure _

theorem reads_resolveSetValueDataType (msg : Value) (node : N) :
    Reads (resolveSetValueDataType env space msg node) :=
  .bind (.lift _) fun _ => .bind (.query _) fun _ => .pure _

theorem atomic_addFolder (msg : Value) : Atomic (handleAddFolder space msg) :=
  .bind_of_reads (.require _ _) fun _ =>
    .bind_of_succeeds (.call _) fun _ => succeeds_pure _

theorem atomic_addObject (msg : Value) : Atomic (handleAddObject space msg) :=
  .bind_of_reads (.require _ _) fun _ =>
    .bind_of_succeeds (.call _) fun _ => succeeds_pure _

theorem atomic_addVariable (msg : Value) : Atomic (handleAddVariable env space msg) :=
  .bind_of_reads (.require _ _) fun _ =>
    .bind_of_reads (.lift _) fun _ =>
      .bind_of_reads (.lift _) fun _ =>
        .bind_of_succeeds (.call _) fun _ => succeeds_pure _

theorem atomic_setValue (msg : Value) : Atomic (handleSetValue env space msg) :=
  .bind_of_reads (.require _ _) fun _ =>
    .bind_of_reads (.require _ _) fun _ =>
      .bind_of_reads (.query _) fun _ =>
        .bind_of_reads (reads_found _ _ _ _) fun _ =>
          .bind_of_reads (reads_resolveSetValueDataType _ _) fun _ =>
            .bind_of_reads (.lift _) fun _ =>
              .bind_of_succeeds (.call _) fun _ => succeeds_pure _

theorem atomic_deleteNode (msg : Value) : Atomic (handleDeleteNode env space msg) :=
  .bind_of_reads (.require _ _) fun _ =>
    .bind_of_reads (.query _) fun _ =>
      .bind_of_reads (reads_found _ _ _ _) fun _ =>
        .bind_of_succeeds (.call _) fun _ => succeeds_pure _

/-- The two access levels are assigned, which cannot fail. -/
theorem atomic_setWritable (msg : Value) : Atomic (handleSetWritable env space msg) :=
  .bind_of_reads (.require _ _) fun _ =>
    .bind_of_reads (reads_findAnywhere _) fun _ =>
      .bind_of_reads (reads_found _ _ _ _) fun _ =>
        .of_succeeds (succeeds_modify_bind (succeeds_modify_bind (succeeds_pure _)))

theorem atomic_raiseEvent (msg : Value) : Atomic (handleRaiseEvent env space msg) :=
  .bind_of_reads (.require _ _) fun _ =>
    .bind_of_reads (reads_findAnywhere _) fun _ =>
      .bind_of_reads (reads_found _ _ _ _) fun _ =>
        .bind_of_reads (.query _) fun _ =>
          .bind_of_reads (reads_found _ _ _ _) fun _ =>
            .bind_of_reads (.lift _) fun _ =>
              .bind_of_succeeds (.call _) fun _ => succeeds_pure _

/-! ## Adding a method -/

/-- The assumptions on the library: a method that is added is a new node, and it can be
bound to a handler. -/
structure AddressSpace.Documented (space : AddressSpace S N M) : Prop where
  adds : ∀ {parent options s method s'}, space.addMethod parent options s = .ok (method, s') →
    s' ≠ s
  binds : ∀ {parent options s method s'}, space.addMethod parent options s = .ok (method, s') →
    ∀ handler, ∃ t, space.bindMethod method handler s' = .ok ((), t)

theorem atomic_createMethod (msg : Value) : Atomic (createMethod env space msg) :=
  .bind_of_reads (.require _ _) fun _ =>
    .bind_of_reads (.require _ _) fun _ =>
      .bind_of_reads (.query _) fun _ =>
        .bind_of_reads (reads_found _ _ _ _) fun _ =>
          .bind_of_reads (.query _) fun _ =>
            .bind_of_reads (.require _ _) fun _ =>
              .bind_of_reads (.lift _) fun _ =>
                .bind_of_reads (.lift _) fun _ =>
                  .bind_of_succeeds (.call _) fun _ => succeeds_pure _

theorem call_ok {α : Type} {f : S → Except JsString (α × S)} {s s' : S} {a : α}
    (h : Effect.call f s = (.ok a, s')) : f s = .ok (a, s') := by
  unfold Effect.call at h
  split at h
  next heq =>
    cases h
    exact heq
  next => cases h

/-- A method that is created was added by the library. -/
theorem exists_of_createMethod {msg : Value} {s s' : S} {method : M} {outputs : Arguments}
    (h : createMethod env space msg s = (.ok (method, outputs), s')) :
    ∃ parent options, space.addMethod parent options s = .ok (method, s') := by
  obtain ⟨_, h⟩ := exists_of_reads_bind_ok (.require _ _) h
  obtain ⟨_, h⟩ := exists_of_reads_bind_ok (.require _ _) h
  obtain ⟨_, h⟩ := exists_of_reads_bind_ok (.query _) h
  obtain ⟨parent, h⟩ := exists_of_reads_bind_ok (reads_found _ _ _ _) h
  obtain ⟨_, h⟩ := exists_of_reads_bind_ok (.query _) h
  obtain ⟨_, h⟩ := exists_of_reads_bind_ok (.require _ _) h
  obtain ⟨_, h⟩ := exists_of_reads_bind_ok (.lift _) h
  obtain ⟨_, h⟩ := exists_of_reads_bind_ok (.lift _) h
  obtain ⟨_, t, hcall, h⟩ := exists_of_bind_ok h
  cases h
  exact ⟨parent, _, call_ok hcall⟩

/-- The message carries a function body that the node does not allow, or a text that is
none. -/
def badBody (env : Environment) (allowMsgFunc : Bool) (msg : Value) : Bool :=
  (field msg (js "func")).truthy &&
    (!allowMsgFunc || match field msg (js "func") with
      | .str body => !(env.newFunction body).isOk
      | _ => false)

theorem makeHandler_ok_iff {allowMsgFunc : Bool} {msg : Value} {outputs : Arguments} :
    (∃ handler, makeHandler env allowMsgFunc msg outputs = .ok handler) ↔
      badBody env allowMsgFunc msg = false := by
  unfold makeHandler badBody
  dsimp only
  generalize field msg (js "func") = funcBody
  cases hdisabled : funcBody.truthy && !allowMsgFunc with
  | true =>
      obtain ⟨htruthy, hallow⟩ := Bool.and_eq_true_iff.mp hdisabled
      rw [if_pos rfl, htruthy, hallow]
      exact iff_of_false nofun nofun
  | false =>
      rw [if_neg Bool.false_ne_true, Bool.and_or_distrib_left, hdisabled, Bool.false_or]
      cases funcBody with
      | str body =>
          cases body with
          | nil => exact iff_of_true ⟨_, rfl⟩ rfl
          | cons u body =>
              dsimp only
              cases env.newFunction (u :: body) with
              | ok => exact iff_of_true ⟨_, rfl⟩ rfl
              | error message => exact iff_of_false nofun nofun
      | _ => exact iff_of_true ⟨_, rfl⟩ (Bool.and_false _)

/-- An error leaves the state as it was. -/
def AtomicAt {α : Type} (m : Command S α) (s : S) : Prop := ∀ e, (m s).1 = .error e → (m s).2 = s

/-- The function body can be used, or the message gets no method created. -/
def Prepared (env : Environment) (space : AddressSpace S N M) (allowMsgFunc : Bool) (s : S)
    (msg : Value) : Prop :=
  commandOf msg = .str (js "addMethod") → badBody env allowMsgFunc msg = true →
    ∃ e, (createMethod env space msg s).1 = .error e

/-- Adding a method is atomic exactly when it does not stop behind the creation. -/
theorem atomicAt_addMethod_iff (hspace : space.Documented) {allowMsgFunc : Bool} {s : S}
    {msg : Value} :
    AtomicAt (handleAddMethod env space allowMsgFunc msg) s ↔
      (badBody env allowMsgFunc msg = true → ∃ e, (createMethod env space msg s).1 = .error e) := by
  cases hcreate : createMethod env space msg s with
  | mk r s' =>
      cases r with
      | error e =>
          have hs : s' = s := by
            have hatomic := atomic_createMethod msg s e (by rw [hcreate])
            rw [hcreate] at hatomic
            exact hatomic
          refine iff_of_true (fun e' _ => ?_) fun _ => ⟨e, rfl⟩
          rw [handleAddMethod, bind_error hcreate]
          exact hs
      | ok created =>
          obtain ⟨method, outputs⟩ := created
          obtain ⟨parent, options, hadd⟩ := exists_of_createMethod hcreate
          have hrun : handleAddMethod env space allowMsgFunc msg s =
              (Effect.lift (makeHandler env allowMsgFunc msg outputs) >>= fun handler =>
                Effect.call (space.bindMethod method handler) >>= fun _ =>
                  pure (.object [(js "payload", text (space.methodIdText method)),
                    (js "nodeId", text (space.methodIdText method)),
                    (js "methodName", field msg (js "methodName"))])) s' :=
            bind_ok hcreate
          have hmade : (∃ handler, makeHandler env allowMsgFunc msg outputs = .ok handler) ↔
              badBody env allowMsgFunc msg = false := makeHandler_ok_iff
          cases hhandler : makeHandler env allowMsgFunc msg outputs with
          | error e =>
              have hbad : badBody env allowMsgFunc msg = true := by
                rw [hhandler] at hmade
                simpa using hmade
              rw [hhandler] at hrun
              have herror := hrun.trans (bind_error rfl)
              refine iff_of_false (fun hatomic => ?_) fun hno => ?_
              · have hs := hatomic e (by rw [herror])
                rw [herror] at hs
                exact hspace.adds hadd hs
              · obtain ⟨e', he'⟩ := hno hbad
                cases he'
          | ok handler =>
              have hgood : badBody env allowMsgFunc msg = false := hmade.mp ⟨handler, hhandler⟩
              obtain ⟨t, hbind⟩ := hspace.binds hadd handler
              have hcall : Effect.call (space.bindMethod method handler) s' = (.ok (), t) := by
                rw [Effect.call, hbind]
              rw [hhandler] at hrun
              have hok := (hrun.trans (bind_ok rfl)).trans (bind_ok hcall)
              refine iff_of_true (fun e he => ?_) fun hbad => ?_
              · rw [hok] at he
                cases he
              · rw [hgood] at hbad
                cases hbad

/-! ## Every command -/

/-- The handlers but that of `addMethod` are atomic. -/
theorem atomic_dispatch {allowMsgFunc : Bool} {command : JsString} {msg : Value}
    {handler : Command S Value}
    (h : dispatch env space allowMsgFunc command msg = some handler)
    (hadd : command ≠ js "addMethod") : Atomic handler := by
  have hmem := InsertionMap.mem_of_get? h
  simp only [List.mem_cons, Prod.mk.injEq, List.not_mem_nil, or_false] at hmem
  rcases hmem with ⟨-, rfl⟩ | ⟨-, rfl⟩ | ⟨-, rfl⟩ | ⟨-, rfl⟩ | ⟨rfl, -⟩ | ⟨-, rfl⟩ | ⟨-, rfl⟩ |
    ⟨-, rfl⟩ | ⟨-, rfl⟩ | ⟨-, rfl⟩
  · exact atomic_addFolder msg
  · exact atomic_addVariable msg
  · exact atomic_setValue msg
  · exact atomic_deleteNode msg
  · exact absurd rfl hadd
  · exact atomic_addObject msg
  · exact (Reads.bind (.query _) fun _ => .pure _).atomic
  · exact atomic_setWritable msg
  · exact atomic_raiseEvent msg
  · exact (Reads.bind (.query _) fun _ => .pure _).atomic

/-- A command is atomic exactly when it is prepared. -/
theorem atomicAt_inputHandler_iff (hspace : space.Documented) (allowMsgFunc : Bool) (s : S)
    (msg : Value) :
    AtomicAt (inputHandler env space allowMsgFunc msg) s ↔ Prepared env space allowMsgFunc s msg := by
  by_cases hadd : commandOf msg = .str (js "addMethod")
  · have hrun : inputHandler env space allowMsgFunc msg =
        handleAddMethod env space allowMsgFunc msg := by
      unfold inputHandler
      rw [hadd]
      rfl
    rw [hrun, atomicAt_addMethod_iff hspace]
    exact ⟨fun h _ => h, fun h => h hadd⟩
  · refine iff_of_true ?_ fun h => absurd h hadd
    have hunknown : Atomic (Effect.fail (js "Unknown command: " ++ env.rt.text (commandOf msg)) :
        Command S Value) := (Reads.fail _).atomic
    unfold inputHandler
    dsimp only
    split
    next command hcommand =>
      cases hdispatch : dispatch env space allowMsgFunc command msg with
      | none => exact hunknown s
      | some handler =>
          have hother : command ≠ js "addMethod" := by
            rintro rfl
            exact hadd hcommand
          exact atomic_dispatch hdispatch hother s
    next => exact hunknown s

/-- One message, with whatever it does to the address space. -/
def step (env : Environment) (space : AddressSpace S N M) (allowMsgFunc : Bool) (s : S)
    (msg : Value) : Option S :=
  some (inputHandler env space allowMsgFunc msg s).2

/-- Along every run of the server, the commands that answer with an error leave the
address space as it was exactly when each message is prepared in the state it meets. -/
theorem commands_atomic_iff (env : Environment) (hspace : space.Documented) (allowMsgFunc : Bool)
    (start : S) (msgs : List Value) :
    Transition.Along (step env space allowMsgFunc)
        (fun s msg => AtomicAt (inputHandler env space allowMsgFunc msg) s) start msgs ↔
      Transition.Along (step env space allowMsgFunc) (Prepared env space allowMsgFunc) start msgs :=
  Transition.along_congr
    (fun s msg => atomicAt_inputHandler_iff hspace allowMsgFunc s msg) start msgs

/-! ## A small address space -/

/-- The names of the nodes; every text is the NodeId of an object. -/
def nameSpace : AddressSpace (List Value) Value Value where
  addFolder options s := .ok (options.browseName, options.browseName :: s)
  addObject options s := .ok (options.browseName, options.browseName :: s)
  addVariable options s := .ok (options.browseName, options.browseName :: s)
  addMethod _ options s := .ok (options.browseName, options.browseName :: s)
  bindMethod _ _ s := .ok ((), s)
  findNode nodeId _ := .ok (some nodeId)
  findInNamespace nodeId _ := .ok (some nodeId)
  resolveNodeId nodeId _ := .ok nodeId
  nodeClass _ _ := .Object
  basicDataType _ _ := none
  setValueFromSource _ _ s := .ok ((), s)
  deleteNode _ s := .ok ((), s.tail)
  setAccessLevel _ _ s := s
  setUserAccessLevel _ _ s := s
  findEventType eventType _ := .ok (some eventType)
  raiseEvent _ _ _ _ s := .ok ((), s)
  namespaceIndex _ := 1
  serverInfo _ := .ok .null
  nodeIdText _ := []
  methodIdText _ := []

theorem nameSpace_documented : nameSpace.Documented where
  adds h heq := by
    have hlength := congrArg List.length ((Prod.mk.inj (Except.ok.inj h)).2.trans heq)
    simp at hlength
  binds _ _ := ⟨_, rfl⟩

/-- No Variant is made and no text is a function body. -/
def plainEnvironment : Environment where
  lib := ⟨fun _ => .error [], fun _ => .error []⟩
  rt := ⟨Host.inert, fun _ => none, fun _ => [], fun _ => none, fun _ => .error [], fun _ => []⟩
  coerceLocalizedText v := .ok v
  dataTypeMember _ := .undefined
  newFunction _ := .error (js "Unexpected token")

/-- The message that adds a method `Start`, with a function body or without. -/
def startMethod (func : Value) : Value :=
  .object [(js "command", .str (js "addMethod")), (js "methodName", .str (js "Start")),
    (js "parentNodeId", .str (js "ns=1;i=1")), (js "func", func)]

theorem startMethod_atomic :
    Transition.Along (step plainEnvironment nameSpace false)
      (fun s msg => AtomicAt (inputHandler plainEnvironment nameSpace false msg) s) []
      [startMethod .undefined] := by
  refine (commands_atomic_iff plainEnvironment nameSpace_documented false _ _).mpr ?_
  exact ⟨fun _ h => (by cases h), fun _ _ => trivial⟩

/-- A function body that is not allowed is refused once the method is there. -/
theorem refused_method_stays :
    ¬ ∀ (allowMsgFunc : Bool) (start : List Value) (msgs : List Value),
      Transition.Along (step plainEnvironment nameSpace allowMsgFunc)
        (fun s msg => AtomicAt (inputHandler plainEnvironment nameSpace allowMsgFunc msg) s)
        start msgs := by
  intro h
  have hatomic := (h false [] [startMethod (.str (js "return null"))]).1
  have hstays := hatomic _ rfl
  cases hstays

end OpcUaSuite.Server
