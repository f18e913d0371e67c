import OpcUaSuite.Lib.InsertionMap
import OpcUaSuite.Lib.Transition

/-!
# The client manager

`OpcUaClientManager` as a machine that moves from one suspension to the next:
what runs between two `await`s is one step. Clients and sessions are numbered in
the order of their creation; a lifecycle is aborted when a later one has begun.
-/

namespace OpcUaSuite.Client

abbrev ClientId := Nat
abbrev SessionId := Nat

/-- What `_doConnect` awaits. -/
inductive ConnectPoint
  | closingSession (previous : ClientId) (session : SessionId)
  | disposingPrevious (previous : ClientId)
  | preparing (client : ClientId)
  | connecting (client : ClientId)
  | creatingSession (client : ClientId)
  | disposingRefused (client : ClientId)
  | abortedClosing (client : ClientId) (session : SessionId)
  | abortedDisposing (client : Option ClientId)
  | settled (succeeded : Bool)
deriving DecidableEq

/-- The attempt behind `_connectPromise`, until its `finally` has run. -/
structure Attempt where
  life : Nat
  point : ConnectPoint
deriving DecidableEq

/-- What the retry loop of `reconnect()` awaits. -/
inductive RetryPoint
  | awaitingConnect
  | connectDone (succeeded : Bool)
  | backingOff
  | settled (succeeded : Bool)
deriving DecidableEq

/-- The loop behind `_reconnectPromise`; it never gives up when `maxAttempts` is zero. -/
structure RetryLoop where
  life : Nat
  attempt : Nat
  maxAttempts : Nat
  point : RetryPoint
deriving DecidableEq

/-- The attempt the loop may be waiting for is over. -/
def RetryLoop.wake (loop : RetryLoop) (ok : Bool) : RetryLoop :=
  match loop.point with
  | .awaitingConnect => { loop with point := .connectDone ok }
  | _ => loop

/-- What `disconnect()` awaits. -/
inductive DisconnectPoint
  | abortingConnect
  | awaitingConnect
  | connectOver
  | offlineDisposing
  | terminating
  | closingSession (session : SessionId)
  | finalDisposing
deriving DecidableEq

def DisconnectPoint.wake : DisconnectPoint → DisconnectPoint
  | .awaitingConnect => .connectOver
  | point => point

/-- The wait behind `_repairWait`, begun for a session of a client. -/
structure RepairWait where
  client : ClientId
  session : SessionId
  ended : Bool
deriving DecidableEq

/-- The manager, the clients not yet disposed, those it listens to, and the
sessions not closed, each with its client. -/
structure ClientManager where
  client : Option ClientId := none
  session : Option SessionId := none
  isConnected : Bool := false
  reconnectTimer : Option Nat := none
  life : Nat := 0
  attempt : Option Attempt := none
  loop : Option RetryLoop := none
  repair : Option RepairWait := none
  disconnects : InsertionMap Nat DisconnectPoint := []
  nextDisconnect : Nat := 0
  undisposed : List ClientId := []
  listening : List ClientId := []
  nextClient : Nat := 0
  openSessions : List (SessionId × ClientId) := []
  nextSession : Nat := 0
deriving DecidableEq

/-- What the library and the clock answer during one step: `OPCUAClient.create`
returns, the session is reconnecting, the session has been closed, and the last
reconnect succeeded a moment ago. -/
structure Answers where
  creates : Bool := true
  reconnecting : Bool := false
  closed : Bool := false
  coolingDown : Bool := false
deriving DecidableEq

namespace ClientManager

/-! ## Clients and sessions -/

/-- `_disposeClient`, up to its `await`. -/
def dispose (m : ClientManager) (c : ClientId) : ClientManager :=
  { m with undisposed := m.undisposed.filter (· ≠ c), listening := m.listening.filter (· ≠ c) }

def disposeCurrent (m : ClientManager) : ClientManager :=
  match m.client with
  | none => m
  | some c => m.dispose c

/-- A call of `session.close()` settles; when it is rejected the session stays open. -/
def sessionClosed (m : ClientManager) (s : SessionId) (ok : Bool) : ClientManager :=
  if ok then { m with openSessions := m.openSessions.filter (·.1 ≠ s) } else m

def aborted (m : ClientManager) (life : Nat) : Bool := decide (life < m.life)

/-- `scheduleReconnect` -/
def scheduleReconnect (m : ClientManager) : ClientManager :=
  match m.reconnectTimer with
  | some _ => m
  | none => { m with reconnectTimer := some m.life }

/-! ## Connecting -/

def suspend (m : ClientManager) (life : Nat) (point : ConnectPoint) : ClientManager :=
  { m with attempt := some ⟨life, point⟩ }

/-- The `catch` of `_doConnect` after `disconnect()`: release what was opened. -/
def releaseAttempt (m : ClientManager) (life : Nat) (client : Option ClientId)
    (session : Option SessionId) : ClientManager :=
  match client, session with
  | some c, some s => m.suspend life (.abortedClosing c s)
  | some c, none => (m.dispose c).suspend life (.abortedDisposing (some c))
  | none, _ => m.suspend life (.abortedDisposing none)

/-- The `catch` of `_doConnect`. -/
def failAttempt (m : ClientManager) (life : Nat) (client : Option ClientId) : ClientManager :=
  if m.aborted life then m.releaseAttempt life client none
  else m.scheduleReconnect.suspend life (.settled false)

/-- A new client with its listeners, unless the lifecycle is over. -/
def createClient (m : ClientManager) (life : Nat) (a : Answers) : ClientManager :=
  if m.aborted life || !a.creates then m.failAttempt life none
  else
    { m with
      client := some m.nextClient
      undisposed := m.nextClient :: m.undisposed
      listening := m.nextClient :: m.listening
      nextClient := m.nextClient + 1
      attempt := some ⟨life, .preparing m.nextClient⟩ }

/-- `_doConnect`, up to its first `await`. -/
def doConnect (m : ClientManager) (a : Answers) : ClientManager :=
  match m.client with
  | none => m.createClient m.life a
  | some previous =>
      let m' := { m with listening := m.listening.filter (· ≠ previous) }
      match m.session with
      | some s => m'.suspend m.life (.closingSession previous s)
      | none => (m'.dispose previous).suspend m.life (.disposingPrevious previous)

/-- `connect()` -/
def connect (m : ClientManager) (a : Answers) : ClientManager :=
  if m.isConnected then m
  else
    match m.attempt with
    | some _ => m
    | none => m.doConnect a

/-- `this.client = null` where the client is still the one of a finished call. -/
def dropClient (m : ClientManager) (client : Option ClientId) : ClientManager :=
  if m.client = client then { m with client := none, session := none } else m

/-- What `_doConnect` awaits has settled. -/
def attemptResumed (m : ClientManager) (ok : Bool) (a : Answers) : Option ClientManager :=
  match m.attempt with
  | none => none
  | some ⟨life, point⟩ =>
      match point with
      | .closingSession previous s =>
          some (((m.sessionClosed s ok).dispose previous).suspend life (.disposingPrevious previous))
      | .disposingPrevious previous => some ((m.dropClient (some previous)).createClient life a)
      | .preparing c =>
          some (if !ok || m.aborted life then m.failAttempt life (some c)
            else m.suspend life (.connecting c))
      | .connecting c =>
          some (if !ok || m.aborted life then m.failAttempt life (some c)
            else m.suspend life (.creatingSession c))
      | .creatingSession c =>
          if ok then
            let s := m.nextSession
            let m' := { m with nextSession := s + 1, openSessions := (s, c) :: m.openSessions }
            some (if m.aborted life then m'.releaseAttempt life (some c) (some s)
              else { m' with session := some s, isConnected := true }.suspend life (.settled true))
          else some ((m.dispose c).suspend life (.disposingRefused c))
      | .disposingRefused c =>
          let m' := if m.client = some c then { m with client := none } else m
          some (m'.failAttempt life (some c))
      | .abortedClosing c s =>
          some (((m.sessionClosed s ok).dispose c).suspend life (.abortedDisposing (some c)))
      | .abortedDisposing client => some ((m.dropClient client).suspend life (.settled false))
      | .settled _ => none

/-- The `finally` of `connect()`: whoever awaits the attempt can go on. -/
def attemptOver (m : ClientManager) : Option ClientManager :=
  match m.attempt with
  | some ⟨_, .settled ok⟩ =>
      some { m with
        attempt := none
        loop := m.loop.map fun loop => loop.wake ok
        disconnects := m.disconnects.map fun d => (d.1, d.2.wake) }
  | _ => none

/-! ## Reconnecting -/

/-- The next round of the loop: it calls `connect()` and awaits the answer. -/
def nextRound (m : ClientManager) (loop : RetryLoop) (a : Answers) : ClientManager :=
  { m.connect a with loop := some { loop with
      attempt := loop.attempt + 1
      point := if m.isConnected then .connectDone true else .awaitingConnect } }

/-- `reconnect()` -/
def reconnect (m : ClientManager) (maxAttempts : Nat) (a : Answers) : ClientManager :=
  match m.loop with
  | some _ => m
  | none =>
      if a.coolingDown && m.isConnected then m
      else { m with isConnected := false }.nextRound ⟨m.life, 0, maxAttempts, .awaitingConnect⟩ a

def stopLoop (m : ClientManager) (loop : RetryLoop) (succeeded : Bool) : ClientManager :=
  { m with loop := some { loop with point := .settled succeeded } }

def loopResumed (m : ClientManager) (a : Answers) : Option ClientManager :=
  match m.loop with
  | none => none
  | some loop =>
      match loop.point with
      | .connectDone true => some (m.stopLoop loop true)
      | .connectDone false =>
          some (if m.aborted loop.life ||
              (decide (loop.maxAttempts ≠ 0) && decide (loop.maxAttempts ≤ loop.attempt)) then
            m.stopLoop loop false
          else { m with loop := some { loop with point := .backingOff } })
      | .backingOff => some (if m.aborted loop.life then m.stopLoop loop false else m.nextRound loop a)
      | .awaitingConnect | .settled _ => none

/-- The `finally` of `reconnect()`. -/
def loopOver (m : ClientManager) : Option ClientManager :=
  match m.loop with
  | some ⟨_, _, _, .settled _⟩ => some { m with loop := none }
  | _ => none

def timerFired (m : ClientManager) (a : Answers) : Option ClientManager :=
  match m.reconnectTimer with
  | none => none
  | some life =>
      let m' := { m with reconnectTimer := none }
      some (if m.aborted life then m' else m'.connect a)

/-! ## Events of the client -/

def connectionFailed (m : ClientManager) : ClientManager := { m with isConnected := false }.scheduleReconnect

/-- The manager has moved on to another client or session. -/
def stale (m : ClientManager) (r : RepairWait) : Bool :=
  decide (m.client ≠ some r.client ∨ m.session ≠ some r.session)

/-- `_onAfterReconnection`, up to its first `await`. -/
def afterReconnection (m : ClientManager) (c : ClientId) (a : Answers) : ClientManager :=
  match m.repair, m.session with
  | some _, _ => m
  | none, some s =>
      { m with repair := some ⟨c, s, !a.reconnecting || m.stale ⟨c, s, false⟩⟩ }
  | none, none =>
      if m.client = some c then { m with isConnected := false }.connect a else m

/-- The poll of `_waitForSessionRepair`. -/
def repairPolled (m : ClientManager) (a : Answers) : Option ClientManager :=
  match m.repair with
  | some r => some { m with repair := some { r with ended := r.ended || m.stale r || !a.reconnecting } }
  | none => none

/-- `_onAfterReconnection` after its wait. -/
def repairOver (m : ClientManager) (a : Answers) : Option ClientManager :=
  match m.repair with
  | some r =>
      if r.ended then
        let m' := { m with repair := none }
        some (if m.stale r then m'
          else if a.closed then { m' with isConnected := false }.connect a
          else { m' with isConnected := true })
      else none
  | none => none

/-! ## Disconnecting -/

def suspendDisconnect (m : ClientManager) (id : Nat) (point : DisconnectPoint) : ClientManager :=
  { m with disconnects := InsertionMap.set id point m.disconnects }

/-- The client goes first when it is offline. -/
def shutDown (m : ClientManager) (id : Nat) (a : Answers) : ClientManager :=
  if (!m.isConnected || (m.session.isSome && a.reconnecting)) && m.client.isSome then
    m.disposeCurrent.suspendDisconnect id .offlineDisposing
  else m.suspendDisconnect id .terminating

/-- `disconnect()`, up to its first `await`. -/
def disconnect (m : ClientManager) (a : Answers) : ClientManager :=
  let id := m.nextDisconnect
  let m' := { m with life := m.life + 1, reconnectTimer := none, nextDisconnect := id + 1 }
  match m.attempt with
  | some _ => m'.disposeCurrent.suspendDisconnect id .abortingConnect
  | none => m'.shutDown id a

/-- `disconnect()` resolves. -/
def finishDisconnect (m : ClientManager) (id : Nat) : ClientManager :=
  { m with isConnected := false, disconnects := InsertionMap.erase id m.disconnects }

/-- The last client goes, once there is no session. -/
def releaseClient (m : ClientManager) (id : Nat) : ClientManager :=
  match m.client with
  | some c => (m.dispose c).suspendDisconnect id .finalDisposing
  | none => m.finishDisconnect id

/-- What a `disconnect()` awaits has settled. -/
def disconnectResumed (m : ClientManager) (id : Nat) (ok : Bool) (a : Answers) : Option ClientManager :=
  match InsertionMap.get? id m.disconnects with
  | none => none
  | some point =>
      match point with
      | .abortingConnect =>
          some (m.suspendDisconnect id (if m.attempt.isSome then .awaitingConnect else .connectOver))
      | .awaitingConnect => none
      | .connectOver => some (m.shutDown id a)
      | .offlineDisposing => some (m.suspendDisconnect id .terminating)
      | .terminating =>
          some (match m.session with
            | some s => m.suspendDisconnect id (.closingSession s)
            | none => m.releaseClient id)
      | .closingSession s =>
          some ({ m.sessionClosed s ok with session := none }.releaseClient id)
      | .finalDisposing => some ({ m with client := none }.finishDisconnect id)

end ClientManager

/-! ## Steps -/

/-- A call of a consumer, an event of a client the manager listens to, a timer,
or the end of something awaited. -/
inductive Event
  | connect (a : Answers)
  | reconnect (maxAttempts : Nat) (a : Answers)
  | disconnect (a : Answers)
  | markedDead
  | startReconnection (c : ClientId)
  | connectionLost (c : ClientId)
  | connectionFailed (c : ClientId)
  | afterReconnection (c : ClientId) (a : Answers)
  | repairPolled (a : Answers)
  | repairOver (a : Answers)
  | attemptResumed (ok : Bool) (a : Answers)
  | attemptOver
  | loopResumed (a : Answers)
  | loopOver
  | timerFired (a : Answers)
  | disconnectResumed (id : Nat) (ok : Bool) (a : Answers)
deriving DecidableEq

/-- One step; the events of a client reach the manager while it listens. -/
def step (m : ClientManager) : Event → Option ClientManager
  | .connect a => some (m.connect a)
  | .reconnect maxAttempts a => some (m.reconnect maxAttempts a)
  | .disconnect a => some (m.disconnect a)
  | .markedDead => some { m with isConnected := false }
  | .startReconnection c => if c ∈ m.listening then some m else none
  | .connectionLost c => if c ∈ m.listening then some { m with isConnected := false } else none
  | .connectionFailed c => if c ∈ m.listening then some m.connectionFailed else none
  | .afterReconnection c a => if c ∈ m.listening then some (m.afterReconnection c a) else none
  | .repairPolled a => m.repairPolled a
  | .repairOver a => m.repairOver a
  | .attemptResumed ok a => m.attemptResumed ok a
  | .attemptOver => m.attemptOver
  | .loopResumed a => m.loopResumed a
  | .loopOver => m.loopOver
  | .timerFired a => m.timerFired a
  | .disconnectResumed id ok a => m.disconnectResumed id ok a

/-- A call of a consumer that can begin a connection. -/
def Event.isConsumerCall : Event → Bool
  | .connect _ | .reconnect _ _ => true
  | _ => false

/-! ## What a step can do -/

theorem reconnect_cases (m : ClientManager) (maxAttempts : Nat) (a : Answers) :
    m.reconnect maxAttempts a = m ∨
      m.loop = none ∧ (a.coolingDown && m.isConnected) = false ∧
        m.reconnect maxAttempts a =
          { m with isConnected := false }.nextRound ⟨m.life, 0, maxAttempts, .awaitingConnect⟩ a := by
  unfold ClientManager.reconnect
  split
  next => exact Or.inl rfl
  next hloop =>
    split
    next => exact Or.inl rfl
    next hcooling => exact Or.inr ⟨hloop, Bool.eq_false_iff.mpr hcooling, rfl⟩

theorem attemptOver_cases {m m' : ClientManager} (h : m.attemptOver = some m') :
    ∃ life ok, m.attempt = some ⟨life, .settled ok⟩ ∧
      m' = { m with
        attempt := none
        loop := m.loop.map fun loop => loop.wake ok
        disconnects := m.disconnects.map fun d => (d.1, d.2.wake) } := by
  unfold ClientManager.attemptOver at h
  split at h
  next life ok hattempt =>
    cases h
    exact ⟨life, ok, hattempt, rfl⟩
  next => cases h

/-- A loop that goes on moves to another point, or calls `connect()` again in the
lifecycle it was started in. -/
theorem loopResumed_cases {m m' : ClientManager} {a : Answers} (h : m.loopResumed a = some m') :
    ∃ loop, m.loop = some loop ∧
      ((∃ point, m' = { m with loop := some { loop with point := point } }) ∨
        (loop.point = .backingOff ∧ m.aborted loop.life = false ∧ m' = m.nextRound loop a)) := by
  unfold ClientManager.loopResumed at h
  split at h
  next => cases h
  next loop hloop =>
    refine ⟨loop, hloop, ?_⟩
    split at h
    next =>
      cases h
      exact Or.inl ⟨_, rfl⟩
    next =>
      cases h
      split
      · exact Or.inl ⟨_, rfl⟩
      · exact Or.inl ⟨_, rfl⟩
    next hpoint =>
      cases h
      split
      next => exact Or.inl ⟨_, rfl⟩
      next haborted => exact Or.inr ⟨hpoint, Bool.eq_false_iff.mpr haborted, rfl⟩
    next => cases h
    next => cases h

theorem timerFired_cases {m m' : ClientManager} {a : Answers} (h : m.timerFired a = some m') :
    ∃ life, m.reconnectTimer = some life ∧
      (m' = { m with reconnectTimer := none } ∨
        m.aborted life = false ∧ m' = { m with reconnectTimer := none }.connect a) := by
  unfold ClientManager.timerFired at h
  split at h
  next => cases h
  next life htimer =>
    refine ⟨life, htimer, ?_⟩
    cases h
    split
    next => exact Or.inl rfl
    next haborted => exact Or.inr ⟨Bool.eq_false_iff.mpr haborted, rfl⟩

theorem afterReconnection_cases (m : ClientManager) (c : ClientId) (a : Answers) :
    m.afterReconnection c a = m ∨
      (∃ r, m.repair = none ∧ m.afterReconnection c a = { m with repair := some r }) ∨
      (m.repair = none ∧ m.session = none ∧ m.client = some c ∧
        m.afterReconnection c a = { m with isConnected := false }.connect a) := by
  unfold ClientManager.afterReconnection
  split
  next => exact Or.inl rfl
  next s hrepair hsession => exact Or.inr (Or.inl ⟨_, hrepair, rfl⟩)
  next hrepair hsession =>
    split
    next hclient => exact Or.inr (Or.inr ⟨hrepair, hsession, hclient, rfl⟩)
    next => exact Or.inl rfl

theorem repairPolled_cases {m m' : ClientManager} {a : Answers} (h : m.repairPolled a = some m') :
    ∃ r, m' = { m with repair := r } := by
  unfold ClientManager.repairPolled at h
  split at h <;> cases h
  exact ⟨_, rfl⟩

/-- After its wait the repair finds that the manager has moved on, that the session
is closed, or that the session is back. -/
theorem repairOver_cases {m m' : ClientManager} {a : Answers} (h : m.repairOver a = some m') :
    ∃ r, m.repair = some r ∧ r.ended = true ∧
      (m' = { m with repair := none } ∨
        (m.stale r = false ∧ a.closed = true ∧
          m' = { m with repair := none, isConnected := false }.connect a) ∨
        (m.stale r = false ∧ a.closed = false ∧
          m' = { m with repair := none, isConnected := true })) := by
  unfold ClientManager.repairOver at h
  split at h
  next r hrepair =>
    split at h
    next hended =>
      refine ⟨r, hrepair, hended, ?_⟩
      cases h
      split
      next => exact Or.inl rfl
      next hstale =>
        have hcurrent := Bool.eq_false_iff.mpr hstale
        split
        next hclosed => exact Or.inr (Or.inl ⟨hcurrent, hclosed, rfl⟩)
        next hopen => exact Or.inr (Or.inr ⟨hcurrent, Bool.eq_false_iff.mpr hopen, rfl⟩)
    next => cases h
  next => cases h

theorem loopOver_cases {m m' : ClientManager} (h : m.loopOver = some m') :
    m' = { m with loop := none } := by
  unfold ClientManager.loopOver at h
  split at h <;> cases h
  rfl

/-- An event of a client is handled while the manager listens to it. -/
theorem heard_cases {m m₁ m' : ClientManager} {c : ClientId}
    (h : (if c ∈ m.listening then some m₁ else none) = some m') : c ∈ m.listening ∧ m' = m₁ := by
  split at h <;> cases h
  exact ⟨‹_›, rfl⟩

end OpcUaSuite.Client
