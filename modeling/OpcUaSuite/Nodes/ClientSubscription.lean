import OpcUaSuite.Js.Value
import OpcUaSuite.Lib.InsertionMap
import OpcUaSuite.Lib.Transition

/-!
# The subscriptions of an `opcua-client` node

The node keeps a subscription, its monitored items and the topics it has been
asked for; subscribe and unsubscribe messages and the replay after a new session
change the three between two suspensions. A NodeId is the text of the message.
-/

namespace OpcUaSuite.Nodes

open Js

structure SubscribeOptions where
  interval : Nat
  queueSize : Nat
deriving DecidableEq

/-- The defaults of `handleSubscribe`. -/
def SubscribeOptions.orDefault (o : SubscribeOptions) : SubscribeOptions where
  interval := if o.interval = 0 then 1000 else o.interval
  queueSize := if o.queueSize = 0 then 10 else o.queueSize

/-- `ClientMonitoredItem.create`: the server takes the item, it refuses it later,
or the call throws. -/
inductive Monitoring
  | accepted
  | rejected
  | thrown
deriving DecidableEq

/-- What the library answers during one step; an error is retried when it is one
of a lost connection and retries remain. -/
structure SubscriptionAnswers where
  creates : Bool := true
  monitoring : Monitoring := .accepted
  settles : Bool := true
  retries : Bool := false
deriving DecidableEq

/-- A message in flight: about to run its operation, or suspended in it. -/
inductive Pending
  | subscribing (nodeId : JsString) (options : SubscribeOptions)
  | creating (nodeId : JsString) (options : SubscribeOptions) (created : Option Nat)
  | unsubscribing (nodeId : JsString)
  | terminatingItem (nodeId : JsString) (item : Nat) (subscription : Option Nat)
  | terminatingSubscription (nodeId : JsString) (subscription : Nat)
deriving DecidableEq

inductive ReplayPoint
  | creating (nodeId : JsString) (options : SubscribeOptions) (created : Option Nat)
  | between
deriving DecidableEq

/-- A run of `resubscribeAll`, with the topics its iterator has not reached. -/
structure Replay where
  rest : List JsString
  point : ReplayPoint
deriving DecidableEq

/-- A monitored item that has not been terminated. -/
structure MonitoredItem where
  item : Nat
  nodeId : JsString
  subscription : Nat
deriving DecidableEq

/-- The node, the messages in flight, how the last message for a NodeId ended, the
subscriptions that live on the current session, and the items the server took. -/
structure SubscriptionState where
  subscription : Option Nat := none
  monitorItems : InsertionMap JsString Nat := []
  subscribedTopics : InsertionMap JsString SubscribeOptions := []
  replay : Option Replay := none
  pending : List Pending := []
  completed : InsertionMap JsString Bool := []
  liveSubscriptions : List Nat := []
  items : List MonitoredItem := []
  nextSubscription : Nat := 0
  nextItem : Nat := 0
deriving DecidableEq

namespace SubscriptionState

/-- `subscribedTopics.set`; a running replay will reach a new topic. -/
def remember (s : SubscriptionState) (n : JsString) (o : SubscribeOptions) : SubscriptionState :=
  { s with
    subscribedTopics := InsertionMap.set n o.orDefault s.subscribedTopics
    replay := s.replay.map fun r =>
      if n ∈ InsertionMap.keys s.subscribedTopics then r else { r with rest := r.rest ++ [n] } }

/-- `subscribedTopics.delete` -/
def forget (s : SubscriptionState) (n : JsString) : SubscriptionState :=
  { s with
    subscribedTopics := InsertionMap.erase n s.subscribedTopics
    replay := s.replay.map fun r => { r with rest := r.rest.filter (· ≠ n) } }

/-- `createSubscription`: what it opens on the current session before it is awaited. -/
def createSubscription (s : SubscriptionState) (a : SubscriptionAnswers) :
    SubscriptionState × Option Nat :=
  if a.creates then
    ({ s with
      liveSubscriptions := s.nextSubscription :: s.liveSubscriptions
      nextSubscription := s.nextSubscription + 1 }, some s.nextSubscription)
  else (s, none)

/-- The rest of `handleSubscribe`, and whether it returns. -/
def monitor (s : SubscriptionState) (n : JsString) (subscription : Nat) (a : SubscriptionAnswers) :
    SubscriptionState × Bool :=
  if n ∈ InsertionMap.keys s.monitorItems then (s, true)
  else
    let s' := { s with
      monitorItems := InsertionMap.set n s.nextItem s.monitorItems
      nextItem := s.nextItem + 1 }
    match a.monitoring with
    | .accepted => ({ s' with items := ⟨s.nextItem, n, subscription⟩ :: s.items }, true)
    | .rejected => (s', true)
    | .thrown => (s, false)

def suspend (s : SubscriptionState) (p : Pending) : SubscriptionState :=
  { s with pending := p :: s.pending }

/-- A message is done; `true` after a successful subscribe. -/
def complete (s : SubscriptionState) (n : JsString) (subscribed : Bool) : SubscriptionState :=
  { s with completed := InsertionMap.set n subscribed s.completed }

/-- The operation of a message has thrown. -/
def failed (s : SubscriptionState) (n : JsString) (again : Pending) (a : SubscriptionAnswers) :
    SubscriptionState :=
  if a.retries then s.suspend again else s.complete n false

/-! ## Subscribe and unsubscribe messages -/

def finishSubscribe (s : SubscriptionState) (n : JsString) (o : SubscribeOptions)
    (subscription : Nat) (a : SubscriptionAnswers) : SubscriptionState :=
  let r := s.monitor n subscription a
  if r.2 then r.1.complete n true else r.1.failed n (.subscribing n o) a

/-- `handleSubscribe` of a message, up to its `await`. -/
def subscribe (s : SubscriptionState) (n : JsString) (o : SubscribeOptions)
    (a : SubscriptionAnswers) : SubscriptionState :=
  let s' := s.remember n o
  match s'.subscription with
  | some subscription => s'.finishSubscribe n o subscription a
  | none =>
      let r := s'.createSubscription a
      r.1.suspend (.creating n o r.2)

def subscriptionCreated (s : SubscriptionState) (n : JsString) (o : SubscribeOptions)
    (created : Option Nat) (a : SubscriptionAnswers) : SubscriptionState :=
  match created with
  | some subscription =>
      { s with subscription := some subscription }.finishSubscribe n o subscription a
  | none => s.failed n (.subscribing n o) a

/-- `handleUnsubscribe`, up to its first `await`; it holds the subscription of now. -/
def unsubscribe (s : SubscriptionState) (n : JsString) : SubscriptionState :=
  let s' := s.forget n
  match InsertionMap.get? n s'.monitorItems with
  | none => s'.complete n false
  | some item => s'.suspend (.terminatingItem n item s'.subscription)

def itemTerminated (s : SubscriptionState) (n : JsString) (item : Nat) (subscription : Option Nat)
    (a : SubscriptionAnswers) : SubscriptionState :=
  if a.settles then
    let s' := { s with
      items := s.items.filter (·.item ≠ item)
      monitorItems := InsertionMap.erase n s.monitorItems }
    match subscription with
    | some subscription =>
        if s'.monitorItems = [] then s'.suspend (.terminatingSubscription n subscription)
        else s'.complete n false
    | none => s'.complete n false
  else s.failed n (.unsubscribing n) a

def subscriptionTerminated (s : SubscriptionState) (n : JsString) (subscription : Nat)
    (a : SubscriptionAnswers) : SubscriptionState :=
  let live := s.liveSubscriptions.filter (· ≠ subscription)
  { s with
    liveSubscriptions := if a.settles then live else s.liveSubscriptions
    subscription := none }.complete n false

/-- A message in flight goes on. -/
def resumed (s : SubscriptionState) (p : Pending) (a : SubscriptionAnswers) :
    Option SubscriptionState :=
  if p ∈ s.pending then
    let s' := { s with pending := s.pending.erase p }
    some (match p with
      | .subscribing n o => s'.subscribe n o a
      | .creating n o created => s'.subscriptionCreated n o created a
      | .unsubscribing n => s'.unsubscribe n
      | .terminatingItem n item subscription => s'.itemTerminated n item subscription a
      | .terminatingSubscription n subscription => s'.subscriptionTerminated n subscription a)
  else none

/-! ## The replay after a new session -/

/-- The loop of `resubscribeAll`, up to its next `await`. -/
def replayNext (s : SubscriptionState) (a : SubscriptionAnswers) : List JsString → SubscriptionState
  | [] => { s with replay := none }
  | n :: rest =>
      match InsertionMap.get? n s.monitorItems, InsertionMap.get? n s.subscribedTopics with
      | none, some o =>
          let s' := s.remember n o
          match s'.subscription with
          | some subscription =>
              { (s'.monitor n subscription a).1 with replay := some ⟨rest, .between⟩ }
          | none =>
              let r := s'.createSubscription a
              { r.1 with replay := some ⟨rest, .creating n o r.2⟩ }
      | _, _ => s.replayNext a rest

/-- `resubscribeAll` -/
def resubscribeAll (s : SubscriptionState) (a : SubscriptionAnswers) : SubscriptionState :=
  if s.replay.isSome || s.subscribedTopics.isEmpty then s
  else s.replayNext a (InsertionMap.keys s.subscribedTopics)

/-- The status callback for `session_recreated`: nothing of the old session lives. -/
def sessionRecreated (s : SubscriptionState) (a : SubscriptionAnswers) : SubscriptionState :=
  { s with subscription := none, monitorItems := [], liveSubscriptions := [] }.resubscribeAll a

def replayResumed (s : SubscriptionState) (a : SubscriptionAnswers) : Option SubscriptionState :=
  match s.replay with
  | none => none
  | some r =>
      match r.point with
      | .creating n _ (some subscription) =>
          some { ({ s with subscription := some subscription }.monitor n subscription a).1 with
            replay := some ⟨r.rest, .between⟩ }
      | .creating _ _ none => some { s with replay := some ⟨r.rest, .between⟩ }
      | .between => some (s.replayNext a r.rest)

end SubscriptionState

/-! ## Steps -/

inductive SubscriptionEvent
  | subscribe (nodeId : JsString) (options : SubscribeOptions)
  | unsubscribe (nodeId : JsString)
  | resumed (p : Pending) (a : SubscriptionAnswers)
  | sessionRecreated (a : SubscriptionAnswers)
  | replayResumed (a : SubscriptionAnswers)
deriving DecidableEq

namespace SubscriptionState

/-- A message arrives with the node waiting to be connected, a message or the
replay goes on, or the manager replaces the session. -/
def step (s : SubscriptionState) : SubscriptionEvent → Option SubscriptionState
  | .subscribe n o => some (s.suspend (.subscribing n o))
  | .unsubscribe n => some (s.suspend (.unsubscribing n))
  | .resumed p a => s.resumed p a
  | .sessionRecreated a => some (s.sessionRecreated a)
  | .replayResumed a => s.replayResumed a

end SubscriptionState

end OpcUaSuite.Nodes
