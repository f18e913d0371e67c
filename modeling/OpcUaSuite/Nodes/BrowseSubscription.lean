import OpcUaSuite.Nodes.ClientSubscription

/-!
# The subscribe mode of `opcua-browse-client`

The node subscribes its selected items when the manager is connected, when the
session has been replaced and when a message asks for it, until a message
unsubscribes them; setting up suspends before it records the subscription.
-/

namespace OpcUaSuite.Nodes

open Js

inductive NodeClass
  | variable
  | variableType
  | other
deriving DecidableEq

structure SelectedItem where
  nodeId : JsString
  nodeClass : NodeClass
deriving DecidableEq

/-- `SUBSCRIBABLE_CLASSES` has the class of the item. -/
def SelectedItem.isSubscribable (it : SelectedItem) : Bool :=
  match it.nodeClass with
  | .variable | .variableType => true
  | .other => false

structure BrowseConfig where
  selectedItems : List SelectedItem
  subscribeMode : Bool

/-- What the library answers during one step; the items named in `thrown` cannot be
created, those in `rejected` are refused by the server. -/
structure BrowseAnswers where
  connects : Bool := true
  creates : Bool := true
  settles : Bool := true
  thrown : List JsString := []
  rejected : List JsString := []
deriving DecidableEq

/-- A suspended call of `setupSubscriptions`, or a message: it waits for the
connection, or is suspended in its operation. -/
inductive BrowsePending
  | creating (created : Option Nat)
  | subscribing
  | unsubscribing
  | terminatingItem (item position : Nat)
  | terminatingSubscription (subscription : Nat)
deriving DecidableEq

/-- An entry of `monitorItems` keeps its position when its item is replaced. -/
structure MonitorEntry where
  item : Nat
  position : Nat
deriving DecidableEq

/-- The node, what is suspended, the subscriptions that live on the current session
and the items the server took; `unsubscribed` from the end of an unsubscribe
message to the next subscribe message. -/
structure BrowseState where
  subscription : Option Nat := none
  monitorItems : InsertionMap JsString MonitorEntry := []
  pending : List BrowsePending := []
  unsubscribed : Bool := false
  liveSubscriptions : List Nat := []
  items : List MonitoredItem := []
  nextSubscription : Nat := 0
  nextItem : Nat := 0
deriving DecidableEq

namespace BrowseState

variable (cfg : BrowseConfig)

def suspend (s : BrowseState) (p : BrowsePending) : BrowseState :=
  { s with pending := p :: s.pending }

/-! ## Setting up -/

/-- `setupSubscriptions`, up to its `await`. -/
def setupSubscriptions (s : BrowseState) (a : BrowseAnswers) : BrowseState :=
  if s.subscription.isSome || cfg.selectedItems.isEmpty then s
  else if a.creates then
    { s with
      liveSubscriptions := s.nextSubscription :: s.liveSubscriptions
      nextSubscription := s.nextSubscription + 1
      pending := .creating (some s.nextSubscription) :: s.pending }
  else s.suspend (.creating none)

/-- One round of the loop over the subscribable items. -/
def monitor (subscription : Nat) (a : BrowseAnswers) (s : BrowseState) (it : SelectedItem) :
    BrowseState :=
  if it.nodeId ∈ a.thrown then s
  else
    let position := match InsertionMap.get? it.nodeId s.monitorItems with
      | some e => e.position
      | none => s.nextItem
    { s with
      monitorItems := InsertionMap.set it.nodeId ⟨s.nextItem, position⟩ s.monitorItems
      items := if it.nodeId ∈ a.rejected then s.items
        else ⟨s.nextItem, it.nodeId, subscription⟩ :: s.items
      nextItem := s.nextItem + 1 }

/-- The rest of `setupSubscriptions`; a failure is reported and changes nothing. -/
def subscriptionCreated (s : BrowseState) (created : Option Nat) (a : BrowseAnswers) :
    BrowseState :=
  match created with
  | some x =>
      (cfg.selectedItems.filter SelectedItem.isSubscribable).foldl (monitor x a)
        { s with subscription := some x }
  | none => s

/-! ## The status callback -/

def connected (s : BrowseState) (a : BrowseAnswers) : BrowseState :=
  if cfg.subscribeMode && !cfg.selectedItems.isEmpty then s.setupSubscriptions cfg a else s

def discarded (s : BrowseState) : BrowseState :=
  { s with monitorItems := [], subscription := none }

def sessionRecreated (s : BrowseState) (a : BrowseAnswers) : BrowseState :=
  s.discarded.connected cfg a

/-- The session is replaced, and with it goes what lived on it. -/
def sessionReplaced (s : BrowseState) : BrowseState := { s with liveSubscriptions := [] }

/-! ## Messages -/

/-- The loop of an unsubscribe message over `monitorItems.values()` from a position on,
up to its next `await`. -/
def unsubscribeFrom (s : BrowseState) (position : Option Nat) : BrowseState :=
  match s.monitorItems.find? fun e => position.all fun last => decide (last < e.2.position) with
  | some e => s.suspend (.terminatingItem e.2.item e.2.position)
  | none =>
      match s.subscription with
      | some x => { s with monitorItems := [] }.suspend (.terminatingSubscription x)
      | none => { s with monitorItems := [], unsubscribed := true }

def itemTerminated (s : BrowseState) (item position : Nat) (a : BrowseAnswers) : BrowseState :=
  { s with items := if a.settles then s.items.filter (·.item ≠ item) else s.items }.unsubscribeFrom
    (some position)

def subscriptionTerminated (s : BrowseState) (x : Nat) (a : BrowseAnswers) : BrowseState :=
  { s with
    liveSubscriptions := if a.settles then s.liveSubscriptions.filter (· ≠ x)
      else s.liveSubscriptions
    subscription := none
    unsubscribed := true }

/-- What is suspended goes on; a message whose `connect()` fails is dropped. -/
def resumed (s : BrowseState) (p : BrowsePending) (a : BrowseAnswers) : Option BrowseState :=
  if p ∈ s.pending then
    let s' := { s with pending := s.pending.erase p }
    some (match p with
      | .creating created => s'.subscriptionCreated cfg created a
      | .subscribing =>
          if a.connects then { s' with unsubscribed := false }.setupSubscriptions cfg a else s'
      | .unsubscribing => if a.connects then s'.unsubscribeFrom none else s'
      | .terminatingItem item position => s'.itemTerminated item position a
      | .terminatingSubscription x => s'.subscriptionTerminated x a)
  else none

end BrowseState

/-! ## Steps -/

/-- The manager emits `connected` alone after a first connect or a repair, and
`session_recreated` right after it when it has replaced the session. -/
inductive BrowseEvent
  | connected (a : BrowseAnswers)
  | reconnected (a a' : BrowseAnswers)
  | disconnected
  | subscribe
  | unsubscribe
  | resumed (p : BrowsePending) (a : BrowseAnswers)

namespace BrowseState

variable (cfg : BrowseConfig)

def step (s : BrowseState) : BrowseEvent → Option BrowseState
  | .connected a => some (s.connected cfg a)
  | .reconnected a a' => some ((s.sessionReplaced.connected cfg a).sessionRecreated cfg a')
  | .disconnected => some s
  | .subscribe => some (s.suspend .subscribing)
  | .unsubscribe => some (s.suspend .unsubscribing)
  | .resumed p a => s.resumed cfg p a

end BrowseState

end OpcUaSuite.Nodes
