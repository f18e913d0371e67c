import OpcUaSuite.Lib.Transition
import OpcUaSuite.Nodes.Publisher

/-!
# The PubSub connection node

`acquireTransport`, `releaseTransport` and the status callbacks of an open
connection node, among the publishers and subscribers that share its transport.
Transports and timers are numbered in the order of their creation; a transport
that was closed may still emit events. The grace timer is a timer of the event
loop, and the node keeps only its handle.
-/

namespace OpcUaSuite.Nodes

/-- `RECONNECT_GRACE_MS` -/
def reconnectGraceMs : Nat := 500

/-- The members of the connection node; `_statusCallbacks` is a Set, in the order
of insertion. -/
structure PubSubConnection where
  sharedTransport : Option Nat := none
  transportConnected : Bool := false
  refCount : Nat := 0
  graceTimer : Option Nat := none
  statusCallbacks : List Nat := []
deriving DecidableEq

/-- A timer that has not fired: its handle and the time it is due. -/
structure Timer where
  handle : Nat
  due : Nat
deriving DecidableEq

/-- An acquire that was not released: the consumer and the transport it got. -/
structure Hold where
  consumer : Nat
  transport : Nat
deriving DecidableEq

/-- The connection node with the event loop, the transports and the consumers.
`ready` is the `_connected` of a publisher; `lastStatus` and `lastAcquire`
remember what a transport emitted last, errors aside, and when `acquireTransport`
was called last. -/
structure SharedTransport where
  node : PubSubConnection := {}
  now : Nat := 0
  timers : List Timer := []
  nextTimer : Nat := 0
  created : Nat := 0
  closing : List Nat := []
  held : List Hold := []
  ready : Nat → Bool := fun _ => false
  lastStatus : Nat → Option Status := fun _ => none
  lastAcquire : Option Nat := none

/-- What the `_statusCb` of a publisher makes of its flag. -/
def readiness (status : Status) (flag : Bool) : Bool :=
  match status with
  | .connected => true
  | .disconnected | .reconnecting => false
  | .error => flag

theorem connected_statusCb {α ε : Type} (encode : PubSub.NetworkMessage → Except ε α)
    (accepts : Bool) (status : Status) (st : PublisherState) :
    (statusCb encode accepts status st).1.connected = readiness status st.connected := by
  cases status with
  | connected =>
      unfold statusCb
      cases st.pendingSend with
      | none => rfl
      | some queued =>
          simp only [emit, Bool.not_true, Bool.false_eq_true, if_false]
          cases encode queued <;> rfl
  | disconnected => rfl
  | reconnecting => rfl
  | error => rfl

namespace SharedTransport

variable (w : SharedTransport)

/-- Every registered callback gets the status. -/
def notify (status : Status) : SharedTransport :=
  { w with ready := fun p =>
      if p ∈ w.node.statusCallbacks then readiness status (w.ready p) else w.ready p }

/-- The `fanOut` of a transport: only the current one reaches the callbacks. -/
def fanOut (transport : Nat) (status : Status) : SharedTransport :=
  if w.node.sharedTransport ≠ some transport then w
  else
    notify { w with node := { w.node with
      transportConnected := readiness status w.node.transportConnected } } status

/-- A transport emits an event. -/
def emits (transport : Nat) (status : Status) : SharedTransport :=
  fanOut { w with lastStatus := fun t =>
    if t = transport ∧ status ≠ .error then some status else w.lastStatus t } transport status

/-- `clearTimeout(node._graceTimer)` -/
def clearGraceTimer : SharedTransport :=
  { w with
    timers := w.timers.filter fun timer => some timer.handle ≠ w.node.graceTimer
    node := { w.node with graceTimer := none } }

def hold (consumer transport : Nat) : SharedTransport :=
  { w with held := ⟨consumer, transport⟩ :: w.held }

/-- `acquireTransport`; the call throws when there is no transport and none can
be created, after it counted the consumer. -/
def acquireTransport (consumer : Nat) (creates : Bool) : SharedTransport :=
  let w := w.clearGraceTimer
  let w := { w with
    node := { w.node with refCount := w.node.refCount + 1 }
    lastAcquire := some w.now }
  match w.node.sharedTransport with
  | some transport => w.hold consumer transport
  | none =>
      if creates then
        hold { w with
          node := { w.node with sharedTransport := some w.created }
          created := w.created + 1 } consumer w.created
      else w

/-- `setTimeout` of the grace period. -/
def startGraceTimer : SharedTransport :=
  { w with
    node := { w.node with graceTimer := some w.nextTimer }
    timers := w.timers ++ [⟨w.nextTimer, w.now + reconnectGraceMs⟩]
    nextTimer := w.nextTimer + 1 }

/-- `releaseTransport` -/
def releaseTransport : SharedTransport :=
  let w := { w with node := { w.node with refCount := w.node.refCount - 1 } }
  if w.node.refCount = 0 ∧ w.node.sharedTransport.isSome then w.startGraceTimer else w

/-- The callback of the grace timer. -/
def graceTimerFires : SharedTransport :=
  let w := { w with node := { w.node with graceTimer := none } }
  match w.node.sharedTransport with
  | some transport =>
      if w.node.refCount = 0 then
        { w with
          node := { w.node with
            sharedTransport := none
            transportConnected := false
            statusCallbacks := [] }
          closing := transport :: w.closing }
      else w
  | none => w

/-- `registerStatusCallback` -/
def registerStatusCallback (publisher : Nat) : SharedTransport :=
  let w := { w with node := { w.node with
    statusCallbacks :=
      if publisher ∈ w.node.statusCallbacks then w.node.statusCallbacks
      else w.node.statusCallbacks ++ [publisher] } }
  if w.node.sharedTransport.isSome && w.node.transportConnected then
    { w with ready := fun p => if p = publisher then readiness .connected (w.ready p) else w.ready p }
  else w

/-- A publisher starts with its flag unset and registers its callback. -/
def startPublisher (publisher : Nat) : SharedTransport :=
  registerStatusCallback { w with ready := fun p => if p = publisher then false else w.ready p }
    publisher

def unregisterStatusCallback (publisher : Nat) : SharedTransport :=
  { w with node := { w.node with
    statusCallbacks := w.node.statusCallbacks.filter fun p => p ≠ publisher } }

end SharedTransport

/-- What can happen around a connection node: calls of its consumers, time and
timers, the events of the transports, and the rejection of a `connect`. -/
inductive SharedTransportEvent
  | acquire (consumer : Nat) (creates : Bool)
  | release (consumer : Nat)
  | start (publisher : Nat)
  | unregister (publisher : Nat)
  | wait (ms : Nat)
  | fire (handle : Nat)
  | emits (transport : Nat) (status : Status)
  | rejected (transport : Nat)
deriving DecidableEq

/-- One event. A consumer releases only what it holds, a timer fires once it is
due, and only transports that were created emit. -/
def SharedTransport.step (w : SharedTransport) : SharedTransportEvent → Option SharedTransport
  | .acquire consumer creates => some (w.acquireTransport consumer creates)
  | .release consumer =>
      match w.held.find? fun h => h.consumer = consumer with
      | some h => some (releaseTransport { w with held := w.held.erase h })
      | none => none
  | .start publisher => some (w.startPublisher publisher)
  | .unregister publisher => some (w.unregisterStatusCallback publisher)
  | .wait ms => some { w with now := w.now + ms }
  | .fire handle =>
      match w.timers.find? fun timer => timer.handle = handle with
      | some timer =>
          if timer.due ≤ w.now then
            some (graceTimerFires { w with timers := w.timers.erase timer })
          else none
      | none => none
  | .emits transport status =>
      if transport < w.created then some (w.emits transport status) else none
  | .rejected transport =>
      if transport < w.created then some (w.notify .error) else none

end OpcUaSuite.Nodes
