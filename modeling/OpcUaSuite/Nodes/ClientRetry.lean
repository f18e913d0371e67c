import OpcUaSuite.Client.Disconnect

/-!
# Nodes that share a manager

An endpoint hands one manager to its nodes, counts them, and disconnects the
manager when the last one is closed. The input handlers of `opcua-client` keep
the manager while a message is in flight, also past the close of their node.
-/

namespace OpcUaSuite.Nodes

open Client

/-- What the input handler awaits. -/
inductive HandlerPoint
  | awaitingConnect
  | connectDone (succeeded : Bool)
  | operating
  | awaitingReconnect
  | reconnectDone (succeeded : Bool)
  | backingOff
deriving DecidableEq

/-- The retry loop of a message in flight. -/
structure Handler where
  retryAttempts : Nat
  maxOperationRetries : Nat
  attempt : Nat
  point : HandlerPoint
deriving DecidableEq

/-- The end of an attempt or of a retry loop wakes the handlers that wait for it. -/
def Handler.wake (m : ClientManager) (e : Event) (h : Handler) : Handler :=
  match e, h.point with
  | .attemptOver, .awaitingConnect =>
      { h with point := .connectDone (m.attempt.any fun x => decide (x.point = .settled true)) }
  | .loopOver, .awaitingReconnect =>
      { h with point := .reconnectDone (m.loop.any fun x => decide (x.point = .settled true)) }
  | _, _ => h

/-- `_sharedManager`: not created yet, shared, or detached by a disconnect. -/
inductive Sharing
  | notCreated
  | shared
  | detached (disconnect : Nat)
deriving DecidableEq

def Sharing.disconnect? : Sharing → Option Nat
  | .detached id => some id
  | _ => none

/-- A deployed node, up to the call of `releaseSharedManager` of its close handler. -/
inductive NodePoint
  | deployed
  | closing
deriving DecidableEq

/-- An endpoint with the manager it shares first, the nodes that hold it and the
messages in flight. -/
structure SharedConnection where
  manager : ClientManager := {}
  sharing : Sharing := .notCreated
  refCount : Nat := 0
  nodes : InsertionMap Nat NodePoint := []
  handlers : InsertionMap Nat Handler := []
  nextHandler : Nat := 0
deriving DecidableEq

/-- Something the nodes do, or a step of the manager on its own. The error with
which an operation or a connect attempt is rejected may be one of a lost connection. -/
inductive SharedEvent
  | deploy (n : Nat) (autoConnect : Bool) (a : Answers)
  | connect (n : Nat) (a : Answers)
  | input (n : Nat) (retryAttempts maxOperationRetries : Nat) (a : Answers)
  | handlerResumed (id : Nat) (lost : Bool) (a : Answers)
  | close (n : Nat)
  | released (n : Nat) (a : Answers)
  | endpointClosed (a : Answers)
  | manager (e : Event)
deriving DecidableEq

namespace SharedConnection

def suspend (c : SharedConnection) (id : Nat) (h : Handler) (point : HandlerPoint) :
    SharedConnection :=
  { c with handlers := InsertionMap.set id { h with point := point } c.handlers }

/-- The message has been handled, or its error was reported. -/
def finish (c : SharedConnection) (id : Nat) : SharedConnection :=
  { c with handlers := InsertionMap.erase id c.handlers }

/-- `ensureConnected`, up to its `await`, and what it calls. -/
def ensureConnected (c : SharedConnection) (id : Nat) (h : Handler) (a : Answers) :
    SharedConnection × Option Event :=
  if c.manager.isConnected then (c.suspend id h .operating, none)
  else (c.suspend id h .awaitingConnect, some (.connect a))

/-- The inner `catch` of the input handler. -/
def caught (c : SharedConnection) (id : Nat) (h : Handler) (lost : Bool) (a : Answers) :
    SharedConnection × Option Event :=
  if !lost || decide (h.maxOperationRetries ≤ h.attempt) then (c.finish id, none)
  else
    let coalesced := c.manager.loop.isNone && a.coolingDown && c.manager.isConnected
    (c.suspend id { h with attempt := h.attempt + 1 }
        (if coalesced then .reconnectDone true else .awaitingReconnect),
      some (.reconnect h.retryAttempts a))

/-- What an input handler awaits has settled. -/
def handlerResumed (c : SharedConnection) (id : Nat) (lost : Bool) (a : Answers) :
    Option (SharedConnection × Option Event) :=
  match InsertionMap.get? id c.handlers with
  | none => none
  | some h =>
      match h.point with
      | .awaitingConnect | .awaitingReconnect => none
      | .connectDone true => some (c.suspend id h .operating, none)
      | .connectDone false | .operating => some (c.caught id h lost a)
      | .reconnectDone ok =>
          some (if !ok && decide (h.maxOperationRetries ≤ h.attempt) then (c.finish id, none)
            else (c.suspend id h .backingOff, none))
      | .backingOff => some (c.ensureConnected id h a)

/-- The manager is detached before its disconnect is awaited. -/
def detach (c : SharedConnection) (a : Answers) : SharedConnection × Option Event :=
  ({ c with sharing := .detached c.manager.nextDisconnect }, some (.disconnect a))

/-- `releaseSharedManager` -/
def releaseSharedManager (c : SharedConnection) (a : Answers) : SharedConnection × Option Event :=
  let c' := { c with refCount := c.refCount - 1 }
  if c'.refCount = 0 ∧ c'.sharing = .shared then c'.detach a else (c', none)

/-- What the nodes do, and the call of the manager that is made there. -/
def nodeStep (c : SharedConnection) : SharedEvent → Option (SharedConnection × Option Event)
  | .deploy n autoConnect a =>
      if c.sharing.disconnect? = none ∧ n ∉ InsertionMap.keys c.nodes then
        some ({ c with
          sharing := .shared
          refCount := c.refCount + 1
          nodes := InsertionMap.set n .deployed c.nodes },
          if !c.manager.isConnected && autoConnect then some (.connect a) else none)
      else none
  | .connect n a =>
      if InsertionMap.get? n c.nodes = some .deployed then some (c, some (.connect a)) else none
  | .input n retryAttempts maxOperationRetries a =>
      if InsertionMap.get? n c.nodes = some .deployed then
        some ({ c with nextHandler := c.nextHandler + 1 }.ensureConnected c.nextHandler
          ⟨retryAttempts, maxOperationRetries, 0, .backingOff⟩ a)
      else none
  | .handlerResumed id lost a => c.handlerResumed id lost a
  | .close n =>
      if InsertionMap.get? n c.nodes = some .deployed then
        some ({ c with nodes := InsertionMap.set n .closing c.nodes }, none)
      else none
  | .released n a =>
      if InsertionMap.get? n c.nodes = some .closing then
        some ({ c with nodes := InsertionMap.erase n c.nodes }.releaseSharedManager a)
      else none
  | .endpointClosed a =>
      let c' := { c with refCount := 0 }
      some (if c.sharing = .shared then c'.detach a else (c', none))
  | .manager (.connect _) | .manager (.reconnect _ _) | .manager (.disconnect _) => none
  | .manager e =>
      some ({ c with handlers := c.handlers.map fun h => (h.1, h.2.wake c.manager e) }, some e)

/-- One step of the nodes with the manager. -/
def step (c : SharedConnection) (e : SharedEvent) : Option SharedConnection :=
  (c.nodeStep e).bind fun r =>
    match r.2 with
    | none => some r.1
    | some call => (Client.step c.manager call).map fun m => { r.1 with manager := m }

def call? (c : SharedConnection) (e : SharedEvent) : Option Event := (c.nodeStep e).bind Prod.snd

/-- After the last release a node brings the connection back: it calls `connect()`
with no attempt under way, or begins a retry loop. -/
def revives (c : SharedConnection) (e : SharedEvent) : Bool :=
  c.sharing.disconnect?.isSome &&
    match c.call? e with
    | some (.connect _) => c.manager.idle
    | some (.reconnect _ a) =>
        c.manager.loop.isNone && !(a.coolingDown && c.manager.isConnected)
    | _ => false

/-- No disconnect of the manager is disturbed, and no node revives the connection. -/
def Calm (c : SharedConnection) (e : SharedEvent) : Prop :=
  (∀ call ∈ c.call? e, Undisturbed c.manager call) ∧ c.revives e = false

instance (c : SharedConnection) (e : SharedEvent) : Decidable (c.Calm e) :=
  inferInstanceAs (Decidable (_ ∧ _))

/-! ## What a step does to the manager -/

/-- A node leaves the manager to its own step, and detaches it when it disconnects it. -/
structure NodeStep (c c' : SharedConnection) (call : Option Event) : Prop where
  manager : c'.manager = c.manager
  disconnects : ∀ a, call = some (.disconnect a) →
    c.sharing.disconnect? = none ∧ c'.sharing = .detached c.manager.nextDisconnect
  otherwise : (∀ a, call ≠ some (.disconnect a)) →
    c'.sharing.disconnect? = c.sharing.disconnect?

theorem NodeStep.same {c c' : SharedConnection} {call : Option Event}
    (hmanager : c'.manager = c.manager) (hsharing : c'.sharing.disconnect? = c.sharing.disconnect?)
    (hcall : ∀ a, call ≠ some (.disconnect a)) : NodeStep c c' call :=
  ⟨hmanager, fun a h => absurd h (hcall a), fun _ => hsharing⟩

theorem nodeStep_ensureConnected (c : SharedConnection) (id : Nat) (h : Handler) (a : Answers) :
    NodeStep c (c.ensureConnected id h a).1 (c.ensureConnected id h a).2 := by
  unfold ensureConnected
  split
  · exact NodeStep.same rfl rfl fun _ hcall => by cases hcall
  · exact NodeStep.same rfl rfl fun _ hcall => by cases hcall

theorem nodeStep_caught (c : SharedConnection) (id : Nat) (h : Handler) (lost : Bool)
    (a : Answers) : NodeStep c (c.caught id h lost a).1 (c.caught id h lost a).2 := by
  unfold caught
  split
  · exact NodeStep.same rfl rfl fun _ hcall => by cases hcall
  · exact NodeStep.same rfl rfl fun _ hcall => by cases hcall

/-- The nodes and the handlers do not matter to the manager. -/
theorem NodeStep.from {c c₁ c' : SharedConnection} {call : Option Event} (h : NodeStep c₁ c' call)
    (hmanager : c₁.manager = c.manager) (hsharing : c₁.sharing = c.sharing) :
    NodeStep c c' call where
  manager := h.manager.trans hmanager
  disconnects := by
    rw [← hmanager, ← hsharing]
    exact h.disconnects
  otherwise := by
    rw [← hsharing]
    exact h.otherwise

theorem nodeStep_detach (c : SharedConnection) (hsharing : c.sharing = .shared) (a : Answers) :
    NodeStep c (c.detach a).1 (c.detach a).2 := by
  refine ⟨rfl, fun _ _ => ⟨?_, rfl⟩, fun h => absurd rfl (h a)⟩
  rw [hsharing]
  rfl

theorem nodeStep_releaseSharedManager (c : SharedConnection) (a : Answers) :
    NodeStep c (c.releaseSharedManager a).1 (c.releaseSharedManager a).2 := by
  unfold releaseSharedManager
  dsimp only
  split
  next h => exact (nodeStep_detach { c with refCount := c.refCount - 1 } h.2 a).from rfl rfl
  next => exact NodeStep.same rfl rfl fun _ hcall => by cases hcall

theorem nodeStep_handlerResumed {c : SharedConnection} {id : Nat} {lost : Bool} {a : Answers}
    {r : SharedConnection × Option Event} (h : c.handlerResumed id lost a = some r) :
    NodeStep c r.1 r.2 := by
  unfold handlerResumed at h
  split at h
  next => cases h
  next handler hget =>
    split at h
    · cases h
    · cases h
    · cases h
      exact NodeStep.same rfl rfl fun _ hcall => by cases hcall
    · cases h
      exact nodeStep_caught c id handler lost a
    · cases h
      exact nodeStep_caught c id handler lost a
    · cases h
      split
      · exact NodeStep.same rfl rfl fun _ hcall => by cases hcall
      · exact NodeStep.same rfl rfl fun _ hcall => by cases hcall
    · cases h
      exact nodeStep_ensureConnected c id handler a

theorem nodeStep_spec {c : SharedConnection} {e : SharedEvent}
    {r : SharedConnection × Option Event} (h : c.nodeStep e = some r) : NodeStep c r.1 r.2 := by
  cases e with
  | deploy n autoConnect a =>
      simp only [nodeStep] at h
      split at h <;> cases h
      next hfree =>
        refine NodeStep.same rfl hfree.1.symm fun b hcall => ?_
        dsimp only at hcall
        split at hcall <;> cases hcall
  | connect n a =>
      simp only [nodeStep] at h
      split at h <;> cases h
      exact NodeStep.same rfl rfl fun _ hcall => by cases hcall
  | input n retryAttempts maxOperationRetries a =>
      simp only [nodeStep] at h
      split at h <;> cases h
      exact (nodeStep_ensureConnected { c with nextHandler := c.nextHandler + 1 } _ _ a).from rfl rfl
  | handlerResumed id lost a => exact nodeStep_handlerResumed h
  | close n =>
      simp only [nodeStep] at h
      split at h <;> cases h
      exact NodeStep.same rfl rfl fun _ hcall => by cases hcall
  | released n a =>
      simp only [nodeStep] at h
      split at h <;> cases h
      exact (nodeStep_releaseSharedManager
        { c with nodes := InsertionMap.erase n c.nodes } a).from rfl rfl
  | endpointClosed a =>
      simp only [nodeStep] at h
      cases h
      split
      next hshared => exact (nodeStep_detach { c with refCount := 0 } hshared a).from rfl rfl
      next => exact NodeStep.same rfl rfl fun _ hcall => by cases hcall
  | manager e =>
      cases e with
      | connect a => cases h
      | reconnect maxAttempts a => cases h
      | disconnect a => cases h
      | _ =>
          cases h
          exact NodeStep.same rfl rfl fun _ hcall => by cases hcall

/-! ## After the last release -/

/-- A call that does not revive a detached manager leaves it alone. -/
theorem call_ignored {m m' : ClientManager} {call : Event} (hcall : call.isConsumerCall = true)
    (hidle : ∀ a, call = .connect a → m.idle = false)
    (hloop : ∀ n a, call = .reconnect n a →
      (m.loop.isNone && !(a.coolingDown && m.isConnected)) = false)
    (hstep : Client.step m call = some m') : m' = m := by
  cases call with
  | connect a =>
      cases hstep
      rcases connect_cases m a with heq | ⟨hbegins, -, -⟩
      · exact heq
      · rw [hidle a rfl] at hbegins
        cases hbegins
  | reconnect n a =>
      have hno := hloop n a rfl
      cases hstep
      rcases reconnect_cases m n a with heq | ⟨hnone, hcooling, -⟩
      · exact heq
      · rw [hnone, hcooling] at hno
        cases hno
  | _ => cases hcall

/-- What the manager keeps without calls of consumers, it keeps once it is detached. -/
theorem detached_step {P : ClientManager → Prop}
    (hP : Transition.Preserves Client.step
      (fun m e => Undisturbed m e ∧ e.isConsumerCall = false) P) (id : Nat) :
    Transition.Preserves step Calm fun c => c.sharing.disconnect? = some id ∧ P c.manager := by
  rintro c e c' ⟨hsharing, hmanager⟩ ⟨hundisturbed, hcalm⟩ hstep
  obtain ⟨⟨c₁, call⟩, hnode, hrest⟩ := Option.bind_eq_some_iff.mp hstep
  have hspec := nodeStep_spec hnode
  have hcalls : c.call? e = call := by
    unfold call?
    rw [hnode]
    rfl
  have hsame : c₁.sharing.disconnect? = some id := by
    refine (hspec.otherwise fun a hcall => ?_).trans hsharing
    cases (hspec.disconnects a hcall).1.symm.trans hsharing
  cases call with
  | none =>
      cases hrest
      exact ⟨hsame, hspec.manager ▸ hmanager⟩
  | some call =>
      obtain ⟨m, hclient, rfl⟩ := Option.map_eq_some_iff.mp hrest
      refine ⟨hsame, ?_⟩
      cases hconsumer : call.isConsumerCall with
      | false => exact hP hmanager ⟨hundisturbed call hcalls, hconsumer⟩ hclient
      | true =>
          simp only [revives, hsharing, hcalls, Option.isSome_some, Bool.true_and] at hcalm
          have hignored : m = c.manager := by
            refine call_ignored hconsumer ?_ ?_ hclient
            · rintro a rfl
              exact hcalm
            · rintro n a rfl
              exact hcalm
          exact hignored ▸ hmanager

/-- What holds of the manager while it is shared, and once it is detached. -/
def Watched (c : SharedConnection) : Prop :=
  match c.sharing.disconnect? with
  | none => Held c.manager ∧ LoopLife (· ≤ c.manager.life) c.manager
  | some id => Closing id c.manager

theorem Watched.detached {c : SharedConnection} (h : Watched c) {id : Nat}
    (hsharing : c.sharing.disconnect? = some id) : Closing id c.manager := by
  unfold Watched at h
  rwa [hsharing] at h

theorem watched_step : Transition.Preserves step Calm Watched := by
  intro c e c' h hcalm hstep
  cases hsharing : c.sharing.disconnect? with
  | some id =>
      obtain ⟨hsame, hclosing⟩ := detached_step (closing_step id) id
        ⟨hsharing, h.detached hsharing⟩ hcalm hstep
      unfold Watched
      rwa [hsame]
  | none =>
      have hopen : Held c.manager ∧ LoopLife (· ≤ c.manager.life) c.manager := by
        unfold Watched at h
        rwa [hsharing] at h
      obtain ⟨⟨c₁, call⟩, hnode, hrest⟩ := Option.bind_eq_some_iff.mp hstep
      have hspec := nodeStep_spec hnode
      have hcalls : c.call? e = call := by
        unfold call?
        rw [hnode]
        rfl
      unfold Watched
      by_cases hdisconnect : ∃ a, call = some (.disconnect a)
      · -- the last release: the disconnect begins here
        obtain ⟨a, rfl⟩ := hdisconnect
        cases hrest
        rw [show c₁.sharing = .detached c.manager.nextDisconnect from
          (hspec.disconnects a rfl).2]
        exact hopen.1.closing hopen.2 a
      · have hsame := hspec.otherwise fun a hcall => hdisconnect ⟨a, hcall⟩
        cases call with
        | none =>
            cases hrest
            rw [hsame, hsharing, hspec.manager]
            exact hopen
        | some call =>
            obtain ⟨m, hclient, rfl⟩ := Option.map_eq_some_iff.mp hrest
            rw [show ({ c₁ with manager := m } : SharedConnection).sharing.disconnect? = none from
              hsame.trans hsharing]
            exact open_step hopen (hcalm.1 call hcalls) hclient

/-- Once the last node has released the manager and its disconnect has resolved,
no session is opened on it again, whatever messages are still in flight. -/
theorem no_session_after_release {es₁ es₂ : List SharedEvent} {c₁ c : SharedConnection} {id : Nat}
    (hcalm : Transition.Along step Calm {} (es₁ ++ es₂))
    (hbefore : Transition.run step {} es₁ = some c₁) (hdetached : c₁.sharing = .detached id)
    (hresolved : id ∉ InsertionMap.keys c₁.manager.disconnects)
    (hrun : Transition.run step c₁ es₂ = some c) :
    c.manager.nextSession = c₁.manager.nextSession := by
  obtain ⟨hcalm₁, hcalm₂⟩ := Transition.along_append hcalm hbefore
  have hsharing : c₁.sharing.disconnect? = some id := by
    rw [hdetached]
    rfl
  have hwatched := watched_step.run (by exact ⟨held_initial, fun loop hnone => by cases hnone⟩)
    hcalm₁ hbefore
  have hgone := (hwatched.detached hsharing).gone hresolved
  exact ((detached_step (gone_step _) id).run ⟨hsharing, hgone⟩ hcalm₂ hrun).2.sessions

/-- A read that fails after the node is closed is reported, not retried. -/
theorem no_session_after_failed_read : ∃ c₁ c, Transition.run step {}
    [.deploy 0 true {}, .manager (.attemptResumed true {}), .manager (.attemptResumed true {}),
      .manager (.attemptResumed true {}), .manager .attemptOver, .input 0 0 3 {}, .close 0,
      .released 0 {}, .manager (.disconnectResumed 0 true {}),
      .manager (.disconnectResumed 0 true {}), .manager (.disconnectResumed 0 true {})] = some c₁ ∧
    Transition.run step c₁ [.manager .markedDead, .handlerResumed 0 false {}] = some c ∧
    c.manager.nextSession = c₁.manager.nextSession :=
  ⟨_, _, rfl, rfl, @no_session_after_release
    [.deploy 0 true {}, .manager (.attemptResumed true {}), .manager (.attemptResumed true {}),
      .manager (.attemptResumed true {}), .manager .attemptOver, .input 0 0 3 {}, .close 0,
      .released 0 {}, .manager (.disconnectResumed 0 true {}),
      .manager (.disconnectResumed 0 true {}), .manager (.disconnectResumed 0 true {})]
    [.manager .markedDead, .handlerResumed 0 false {}] _ _ 0 (by decide +kernel) rfl rfl
    (by decide +kernel) rfl⟩

/-- A read is still waiting when the last node is closed; it times out afterwards,
and the retry loop opens a session on the manager that nobody holds. -/
theorem retry_revives_released_manager : ¬ ∀ (es₁ es₂ : List SharedEvent)
    (c₁ c : SharedConnection) (id : Nat), Transition.run step {} es₁ = some c₁ →
    c₁.sharing = .detached id → id ∉ InsertionMap.keys c₁.manager.disconnects →
    Transition.run step c₁ es₂ = some c → c.manager.nextSession = c₁.manager.nextSession := by
  intro h
  have hsame := h
    [.deploy 0 true {}, .manager (.attemptResumed true {}), .manager (.attemptResumed true {}),
      .manager (.attemptResumed true {}), .manager .attemptOver, .input 0 0 3 {}, .close 0,
      .released 0 {}, .manager (.disconnectResumed 0 true {}),
      .manager (.disconnectResumed 0 true {}), .manager (.disconnectResumed 0 true {})]
    [.manager .markedDead, .handlerResumed 0 true {}, .manager (.attemptResumed true {}),
      .manager (.attemptResumed true {}), .manager (.attemptResumed true {})]
    _ _ 0 rfl rfl (by decide +kernel) rfl
  exact absurd hsame (by decide +kernel)

end SharedConnection

end OpcUaSuite.Nodes
