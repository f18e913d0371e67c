import OpcUaSuite.Nodes.ClientSubscription
import OpcUaSuite.Utils.NodeId

/-!
# The subscription of an `opcua-event` node

The node keeps a subscription, its one event item and the request it replays on a
new session. `subscribeEvents` runs for a subscribe message and for the replay and
suspends before it records what it has opened. A text of a message is empty where
the message has none.
-/

namespace OpcUaSuite.Nodes

open Js

/-- `s || t` -/
def orText (s t : JsString) : JsString := if s.isEmpty then t else s

structure EventConfig where
  sourceNodeId : JsString
  eventType : JsString

/-- `node.sourceNodeId` -/
def EventConfig.source (cfg : EventConfig) : JsString := orText cfg.sourceNodeId (js "i=2253")

/-- `node.eventType` -/
def EventConfig.type (cfg : EventConfig) : JsString := orText cfg.eventType (js "BaseEventType")

structure EventMessage where
  action : JsString := []
  operation : JsString := []
  sourceNodeId : JsString := []
  topic : JsString := []
  eventType : JsString := []
  interval : Nat := 0
deriving DecidableEq

/-- The request of a subscribe message, as `activeRequest` keeps it. -/
structure EventRequest where
  sourceId : JsString
  eventType : JsString
  interval : Nat
deriving DecidableEq

namespace EventMessage

/-- The action is `unsubscribe` in lower case; no other letters become these. -/
def isUnsubscribe (m : EventMessage) : Bool :=
  decide ((orText m.action (orText m.operation (js "subscribe"))).map
    (fun u => if 65 ≤ u.toNat ∧ u.toNat ≤ 90 then u + 32 else u) = js "unsubscribe")

def request (cfg : EventConfig) (m : EventMessage) : EventRequest where
  sourceId := orText m.sourceNodeId (orText m.topic cfg.source)
  eventType := orText m.eventType cfg.type
  interval := if m.interval = 0 then 500 else m.interval

end EventMessage

/-- `parseNodeId` finds a NodeId. -/
def EventRequest.isValid (r : EventRequest) : Bool := (Utils.parseNodeId (.str r.sourceId)).truthy

/-- What the library answers during one step; `resolves` when it knows the event
type, and `lost` when an error that ends a message is one of a lost connection. -/
structure EventAnswers where
  connects : Bool := true
  creates : Bool := true
  settles : Bool := true
  resolves : Bool := true
  monitoring : Monitoring := .accepted
  lost : Bool := false
deriving DecidableEq

/-- Where a call of `subscribeEvents` is suspended: in `createSubscription`, with
what this has opened, or in the `terminate()` of the item before. -/
inductive SubscribePoint
  | creating (created : Option Nat)
  | replacing (item : Nat)
deriving DecidableEq

/-- How far a call of `subscribeEvents` has come. -/
inductive SubscribeProgress
  | suspended (p : SubscribePoint)
  | returned
  | thrown

/-- A message in flight: it waits for the connection, is suspended in its
operation, or waits for the reconnect after its error. -/
inductive EventPending
  | waiting (m : EventMessage)
  | subscribing (r : EventRequest) (p : SubscribePoint)
  | terminatingItem (item : Nat)
  | terminatingSubscription (subscription : Nat)
  | recovering
deriving DecidableEq

/-- A run of `resubscribe`, until its `finally`. -/
inductive EventReplay
  | starting
  | subscribing (r : EventRequest) (p : SubscribePoint)
  | finishing
deriving DecidableEq

/-- An event item that the server took and that has not been terminated. -/
structure EventItem where
  item : Nat
  request : EventRequest
  subscription : Nat
deriving DecidableEq

/-- The node and what is suspended, `replay` for `resubscribeInFlight`; the last
successful subscribe request, and `unsubscribed` from the end of an unsubscribe
message to the next subscribe message; the subscriptions that live on the current
session and the items the server took. -/
structure EventState where
  subscription : Option Nat := none
  monitoredItem : Option Nat := none
  activeRequest : Option EventRequest := none
  replay : Option EventReplay := none
  pending : List EventPending := []
  subscribed : Option EventRequest := none
  unsubscribed : Bool := false
  liveSubscriptions : List Nat := []
  items : List EventItem := []
  nextSubscription : Nat := 0
  nextItem : Nat := 0
deriving DecidableEq

namespace EventState

variable (cfg : EventConfig)

def suspend (s : EventState) (p : EventPending) : EventState := { s with pending := p :: s.pending }

/-! ## `subscribeEvents` -/

/-- The last part, with the filter and the item; an item on no subscription is one
that no server has. -/
def createItem (s : EventState) (r : EventRequest) (a : EventAnswers) :
    EventState × SubscribeProgress :=
  if r.eventType ≠ js "BaseEventType" ∧ a.resolves = false then (s, .thrown)
  else
    let s' := { s with monitoredItem := some s.nextItem, nextItem := s.nextItem + 1 }
    match a.monitoring, s.subscription with
    | .thrown, _ => (s, .thrown)
    | .accepted, some x => ({ s' with items := ⟨s.nextItem, r, x⟩ :: s.items }, .returned)
    | .accepted, none => (s', .returned)
    | .rejected, _ => (s', .returned)

/-- From the test of `monitoredItem` on. -/
def replaceItem (s : EventState) (r : EventRequest) (a : EventAnswers) :
    EventState × SubscribeProgress :=
  match s.monitoredItem with
  | some item => (s, .suspended (.replacing item))
  | none => s.createItem r a

/-- `subscribeEvents`, up to its first `await`. -/
def subscribeEvents (s : EventState) (r : EventRequest) (a : EventAnswers) :
    EventState × SubscribeProgress :=
  if r.isValid then
    match s.subscription with
    | some _ => s.replaceItem r a
    | none =>
        if a.creates then
          ({ s with
            liveSubscriptions := s.nextSubscription :: s.liveSubscriptions
            nextSubscription := s.nextSubscription + 1 },
            .suspended (.creating (some s.nextSubscription)))
        else (s, .suspended (.creating none))
  else (s, .thrown)

/-- The server drops an item, if its `terminate()` settles. -/
def dropItem (s : EventState) (item : Nat) (a : EventAnswers) : EventState :=
  { s with
    items := if a.settles then s.items.filter (·.item ≠ item) else s.items
    monitoredItem := none }

/-- A call of `subscribeEvents` goes on; a `terminate()` that fails is ignored. -/
def subscribeResumed (s : EventState) (r : EventRequest) (p : SubscribePoint) (a : EventAnswers) :
    EventState × SubscribeProgress :=
  match p with
  | .creating (some x) => { s with subscription := some x }.replaceItem r a
  | .creating none => (s, .thrown)
  | .replacing item => (s.dropItem item a).createItem r a

/-! ## Messages -/

/-- The message ends with an error, after a reconnect if the connection was lost. -/
def failed (s : EventState) (a : EventAnswers) : EventState :=
  if a.lost then s.suspend .recovering else s

def messageWent (s : EventState) (r : EventRequest) (a : EventAnswers) :
    SubscribeProgress → EventState
  | .suspended p => s.suspend (.subscribing r p)
  | .returned => { s with subscribed := some r }
  | .thrown => s.failed a

/-- A subscribe message, from its operation on. -/
def subscribe (s : EventState) (m : EventMessage) (a : EventAnswers) : EventState :=
  let r := m.request cfg
  if r.isValid then
    let q := { s with activeRequest := some r, unsubscribed := false }.subscribeEvents r a
    q.1.messageWent r a q.2
  else s.failed a

/-- The end of an unsubscribe message, after its item. -/
def endSubscription (s : EventState) : EventState :=
  match s.subscription with
  | some x => s.suspend (.terminatingSubscription x)
  | none => { s with unsubscribed := true }

/-- An unsubscribe message, from its operation on. -/
def unsubscribe (s : EventState) : EventState :=
  let s' := { s with activeRequest := none }
  match s.monitoredItem with
  | some item => s'.suspend (.terminatingItem item)
  | none => s'.endSubscription

def itemTerminated (s : EventState) (item : Nat) (a : EventAnswers) : EventState :=
  if a.settles then (s.dropItem item a).endSubscription else s.failed a

def subscriptionTerminated (s : EventState) (x : Nat) (a : EventAnswers) : EventState :=
  if a.settles then
    { s with
      liveSubscriptions := s.liveSubscriptions.filter (· ≠ x)
      subscription := none
      unsubscribed := true }
  else s.failed a

/-- A message in flight goes on. -/
def resumed (s : EventState) (p : EventPending) (a : EventAnswers) : Option EventState :=
  if p ∈ s.pending then
    let s' := { s with pending := s.pending.erase p }
    some (match p with
      | .waiting m =>
          if a.connects then if m.isUnsubscribe then s'.unsubscribe else s'.subscribe cfg m a
          else s'.failed a
      | .subscribing r point =>
          let q := s'.subscribeResumed r point a
          q.1.messageWent r a q.2
      | .terminatingItem item => s'.itemTerminated item a
      | .terminatingSubscription x => s'.subscriptionTerminated x a
      | .recovering => s')
  else none

/-! ## The replay -/

/-- `resubscribe` -/
def resubscribe (s : EventState) : EventState :=
  if s.replay.isSome || s.activeRequest.isNone then s else { s with replay := some .starting }

/-- The status callback for `session_recreated`: nothing of the old session lives. -/
def sessionRecreated (s : EventState) : EventState :=
  { s with monitoredItem := none, subscription := none, liveSubscriptions := [] }.resubscribe

/-- The replay ends unless it is suspended again; its errors are only reported. -/
def replayWent (s : EventState) (r : EventRequest) : SubscribeProgress → EventState
  | .suspended p => { s with replay := some (.subscribing r p) }
  | .returned | .thrown => s

def replayResumed (s : EventState) (a : EventAnswers) : Option EventState :=
  match s.replay with
  | none => none
  | some point =>
      let s' := { s with replay := some .finishing }
      some (match point with
        | .starting =>
            match s.activeRequest with
            | some r =>
                let q := s'.subscribeEvents r a
                q.1.replayWent r q.2
            | none => s'
        | .subscribing r p =>
            let q := s'.subscribeResumed r p a
            q.1.replayWent r q.2
        | .finishing => { s with replay := none })

end EventState

/-! ## Steps -/

inductive EventEvent
  | message (m : EventMessage)
  | resumed (p : EventPending) (a : EventAnswers)
  | sessionRecreated
  | replayResumed (a : EventAnswers)
deriving DecidableEq

namespace EventState

variable (cfg : EventConfig)

/-- A message arrives with the node waiting to be connected, a message or the replay
goes on, or the manager replaces the session. -/
def step (s : EventState) : EventEvent → Option EventState
  | .message m => some (s.suspend (.waiting m))
  | .resumed p a => s.resumed cfg p a
  | .sessionRecreated => some s.sessionRecreated
  | .replayResumed a => s.replayResumed a

end EventState

end OpcUaSuite.Nodes
