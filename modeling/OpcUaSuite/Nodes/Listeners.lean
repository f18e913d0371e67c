import OpcUaSuite.Nodes.Received
import OpcUaSuite.Nodes.SharedTransport

/-!
# The subscribers of a connection

opcua-subscriber, from its deployment to its close: the listener it adds to the shared
transport, among publishers, other subscribers and the transports that come and go. A
transport that was closed may still receive frames.
-/

namespace OpcUaSuite.Nodes

open Js ByteCodec PubSub Uadp Transports

/-! ## Nodes -/

/-- What a transport hands to its listeners, with the time and the topic. -/
structure Frame where
  now : Int
  topic : Option JsString := none
  buffer : Bytes
deriving DecidableEq

/-- A subscriber that was constructed. It has no transport when `acquireTransport` threw. -/
structure SubscriberNode where
  config : SubscriberConfig
  transport : Option Nat
  closed : Bool := false
  reassembler : Reassembler := ⟨mqttMaxReassembledSize, []⟩
  outputs : List SubscriberOutput := []
deriving DecidableEq

variable (host : Host) (parse : Bytes → JsonEncoder.Text)

/-- `onMessage`; a JSON frame is parsed as a text. -/
def onFrame (config : SubscriberConfig) (r : Reassembler) (frame : Frame) :
    Reassembler × List SubscriberOutput :=
  match config.encoding with
  | .uadp => onMessage host config frame.now frame.topic r frame.buffer
  | .json => (r, onText host config frame.now frame.topic (parse frame.buffer))

namespace SubscriberNode

def hear (n : SubscriberNode) (frame : Frame) : SubscriberNode :=
  let handled := onFrame host parse n.config n.reassembler frame
  { n with reassembler := handled.1, outputs := n.outputs ++ handled.2 }

/-- One frame after the other. -/
def hears (n : SubscriberNode) (frames : List Frame) : SubscriberNode :=
  frames.foldl (hear host parse) n

/-- The node listens to this transport. -/
def ListensTo (n : SubscriberNode) (t : Nat) : Prop := n.closed = false ∧ n.transport = some t

instance decidableListensTo (n : SubscriberNode) (t : Nat) : Decidable (n.ListensTo t) :=
  inferInstanceAs (Decidable (_ ∧ _))

/-- `reassembler.clear()`, at the close. -/
def close (n : SubscriberNode) : SubscriberNode :=
  { n with closed := true, reassembler := { n.reassembler with entries := [] } }

variable {host parse} {n : SubscriberNode}

theorem hears_append (l m : List Frame) :
    n.hears host parse (l ++ m) = (n.hears host parse l).hears host parse m :=
  List.foldl_append

@[simp] theorem hear_config (frame : Frame) : (n.hear host parse frame).config = n.config := rfl

@[simp] theorem hear_closed (frame : Frame) : (n.hear host parse frame).closed = n.closed := rfl

@[simp] theorem hear_transport (frame : Frame) :
    (n.hear host parse frame).transport = n.transport := rfl

@[simp] theorem hears_config (frames : List Frame) :
    (n.hears host parse frames).config = n.config := by
  induction frames generalizing n with
  | nil => rfl
  | cons frame frames ih => exact ih

theorem hears_listensTo (frames : List Frame) (t : Nat) :
    (n.hears host parse frames).ListensTo t ↔ n.ListensTo t := by
  induction frames generalizing n with
  | nil => rfl
  | cons frame frames ih => exact ih

end SubscriberNode

/-! ## Holds -/

/-- Whom a call comes from. -/
def SharedTransportEvent.caller : SharedTransportEvent → Option Nat
  | .acquire consumer _ | .release consumer => some consumer
  | .start publisher | .unregister publisher => some publisher
  | .wait _ | .fire _ | .emits _ _ | .rejected _ => none

namespace SharedTransport

variable {s s' : SharedTransport} {event : SharedTransportEvent}

/-- A consumer that is given the transport holds it. -/
theorem acquire_cases (s : SharedTransport) (consumer : Nat) (creates : Bool) :
    (∃ t, (s.acquireTransport consumer creates).node.sharedTransport = some t ∧
      (s.acquireTransport consumer creates).held = ⟨consumer, t⟩ :: s.held) ∨
    ((s.acquireTransport consumer creates).node.sharedTransport = none ∧
      (s.acquireTransport consumer creates).held = s.held) := by
  cases hshared : s.node.sharedTransport with
  | some t =>
      rw [acquire_shared hshared]
      exact Or.inl ⟨t, hshared, rfl⟩
  | none =>
      cases creates with
      | true =>
          rw [acquire_creates hshared]
          exact Or.inl ⟨s.created, rfl, rfl⟩
      | false =>
          rw [acquire_throws hshared]
          exact Or.inr ⟨hshared, rfl⟩

theorem held_release (s : SharedTransport) : s.releaseTransport.held = s.held := by
  unfold releaseTransport
  dsimp only
  split <;> rfl

theorem held_fire (s : SharedTransport) : s.graceTimerFires.held = s.held := by
  unfold graceTimerFires
  dsimp only
  split
  next => split <;> rfl
  next => rfl

theorem held_emits (s : SharedTransport) (t : Nat) (status : Status) :
    (s.emits t status).held = s.held := by
  unfold emits fanOut
  split <;> rfl

/-- Only its own call takes a hold from a consumer. -/
theorem held_step (hstep : s.step event = some s') {hold : Hold} (hmem : hold ∈ s.held)
    (hother : event.caller ≠ some hold.consumer) : hold ∈ s'.held := by
  cases event with
  | acquire consumer creates =>
      cases hstep
      rcases acquire_cases s consumer creates with ⟨t, -, hheld⟩ | ⟨-, hheld⟩
      · rw [hheld]
        exact List.mem_cons_of_mem _ hmem
      · rw [hheld]
        exact hmem
  | release consumer =>
      simp only [step] at hstep
      split at hstep
      next found hfind =>
        cases hstep
        have hconsumer : found.consumer = consumer := by simpa using List.find?_some hfind
        rw [held_release]
        refine (List.mem_erase_of_ne fun heq => hother ?_).mpr hmem
        rw [heq, hconsumer]
        rfl
      next => cases hstep
  | start publisher =>
      cases hstep
      rw [startPublisher_eq]
      exact hmem
  | unregister publisher =>
      cases hstep
      exact hmem
  | wait ms =>
      cases hstep
      exact hmem
  | fire handle =>
      simp only [step] at hstep
      split at hstep
      next timer _ =>
        split at hstep
        next =>
          cases hstep
          rw [held_fire]
          exact hmem
        next => cases hstep
      next => cases hstep
  | emits t status =>
      simp only [step] at hstep
      split at hstep
      next =>
        cases hstep
        rw [held_emits]
        exact hmem
      next => cases hstep
  | rejected t =>
      simp only [step] at hstep
      split at hstep
      next =>
        cases hstep
        exact hmem
      next => cases hstep

end SharedTransport

/-! ## The flow -/

/-- A connection node with the subscribers; `listeners` are those added to a transport, in
their order. -/
structure Flow where
  shared : SharedTransport := {}
  reassemblers : Nat → Reassembler
  listeners : List (Nat × Nat) := []
  nodes : Nat → Option SubscriberNode := fun _ => none

/-- A subscriber is deployed or closes, a transport receives a frame, or something else
happens to the connection node. -/
inductive FlowEvent
  | deploy (subscriber : Nat) (config : SubscriberConfig) (creates : Bool)
  | close (subscriber : Nat)
  | receive (transport : Nat) (frame : Frame)
  | other (event : SharedTransportEvent)

/-- What an event of the UDP transport is to its listeners. -/
def udpMessage? : UdpOutput → Option Bytes
  | .message buffer => some buffer
  | .decodeError _ | .warn _ => none

/-- A datagram that is not decoded makes the transport emit an error. -/
def udpFails : UdpOutput → Bool
  | .decodeError _ => true
  | .message _ | .warn _ => false

namespace Flow

variable (transportType : TransportType) (w : Flow)

/-- What a transport makes of a frame: the reassembler it is left with, what it hands to its
listeners, and whether it emits an error. -/
def passes (t : Nat) (frame : Frame) : Reassembler × List Frame × Bool :=
  match transportType with
  | .mqtt => (w.reassemblers t, [frame], false)
  | .udp =>
      let (r, outputs) := onDatagram host frame.now (w.reassemblers t) frame.buffer
      (r, outputs.filterMap fun output =>
          (udpMessage? output).map fun buffer => { frame with topic := none, buffer := buffer },
        outputs.any udpFails)

/-- The listeners of a transport. -/
def listenersOf (t : Nat) : List Nat := (w.listeners.filter fun l => l.1 = t).map Prod.snd

/-- One frame for each of the listeners, in their order. -/
def handTo (subscribers : List Nat) (frame : Frame) (nodes : Nat → Option SubscriberNode) :
    Nat → Option SubscriberNode :=
  subscribers.foldl (fun nodes s =>
    Function.update nodes s ((nodes s).map fun n => n.hear host parse frame)) nodes

/-- A transport receives a frame. -/
def receives (t : Nat) (frame : Frame) : Flow :=
  let passed := w.passes host transportType t frame
  { w with
    shared := if passed.2.2 then w.shared.emits t .error else w.shared
    reassemblers := Function.update w.reassemblers t passed.1
    nodes := passed.2.1.foldl (fun nodes f => handTo host parse (w.listenersOf t) f nodes) w.nodes }

/-- The constructor of a subscriber: its status callback, the transport, its listener. -/
def deploys (subscriber : Nat) (config : SubscriberConfig) (creates : Bool) : Flow :=
  let shared := (w.shared.startPublisher subscriber).acquireTransport subscriber creates
  { w with
    shared := shared
    listeners := w.listeners ++ shared.node.sharedTransport.toList.map fun t => (t, subscriber)
    nodes := Function.update w.nodes subscriber (some ⟨config, shared.node.sharedTransport, false,
      ⟨mqttMaxReassembledSize, []⟩, []⟩) }

/-- The close handler of a subscriber that listens to `t`, with its hold. -/
def closes (subscriber t : Nat) (n : SubscriberNode) (hold : Hold) : Flow :=
  let shared := w.shared.unregisterStatusCallback subscriber
  { w with
    shared := SharedTransport.releaseTransport { shared with held := shared.held.erase hold }
    listeners := w.listeners.erase (t, subscriber)
    nodes := Function.update w.nodes subscriber (some n.close) }

/-- One event. Each node has a number of its own, and only one that was constructed closes,
once. -/
def step : FlowEvent → Option Flow
  | .deploy subscriber config creates =>
      if w.nodes subscriber = none ∧ (∀ h ∈ w.shared.held, h.consumer ≠ subscriber) ∧
          config.transportType = transportType then
        some (w.deploys subscriber config creates)
      else none
  | .close subscriber =>
      match w.nodes subscriber, w.shared.held.find? fun h => h.consumer = subscriber with
      | some n, some hold =>
          match n.closed, n.transport with
          | false, some t => some (w.closes subscriber t n hold)
          | _, _ => none
      | _, _ => none
  | .receive t frame =>
      if t < w.shared.created then some (w.receives host parse transportType t frame) else none
  | .other event =>
      if ∀ c, event.caller = some c → w.nodes c = none then
        (w.shared.step event).map fun shared => { w with shared := shared }
      else none

/-- The frames for a subscriber: those that the current transport passes on while the node is
open. -/
def offered (subscriber : Nat) : FlowEvent → List Frame
  | .receive t frame =>
      if w.shared.node.sharedTransport = some t ∧
          (w.nodes subscriber).any (fun n => !n.closed && n.transport.isSome) then
        (w.passes host transportType t frame).2.1
      else []
  | .deploy _ _ _ | .close _ | .other _ => []

/-- The frames for a subscriber over a run. -/
def heardBy (subscriber : Nat) : Flow → List FlowEvent → List Frame
  | _, [] => []
  | w, e :: es =>
      match w.step host parse transportType e with
      | none => []
      | some w' => w.offered host transportType subscriber e ++ heardBy subscriber w' es

/-! ## One step -/

variable {host parse transportType w} {w' : Flow} {e : FlowEvent}

theorem handTo_apply {subscribers : List Nat} (hnodup : subscribers.Nodup) (frame : Frame)
    (nodes : Nat → Option SubscriberNode) (s : Nat) :
    handTo host parse subscribers frame nodes s =
      if s ∈ subscribers then (nodes s).map (SubscriberNode.hear host parse · frame)
      else nodes s := by
  induction subscribers generalizing nodes with
  | nil => rfl
  | cons a subscribers ih =>
      obtain ⟨hfresh, hrest⟩ := List.nodup_cons.mp hnodup
      change handTo host parse subscribers frame (Function.update nodes a _) s = _
      rw [ih hrest]
      by_cases heq : s = a
      · subst heq
        rw [if_neg hfresh, if_pos List.mem_cons_self, Function.update_self]
      · rw [Function.update_of_ne heq]
        simp only [List.mem_cons, heq, false_or]

/-- Every listener hears all frames, and nobody else hears any. -/
theorem handTo_all {subscribers : List Nat} (hnodup : subscribers.Nodup) (frames : List Frame)
    (nodes : Nat → Option SubscriberNode) (s : Nat) :
    frames.foldl (fun nodes f => handTo host parse subscribers f nodes) nodes s =
      if s ∈ subscribers then (nodes s).map (SubscriberNode.hears host parse · frames)
      else nodes s := by
  induction frames generalizing nodes with
  | nil => cases h : nodes s <;> simp [h, SubscriberNode.hears]
  | cons frame frames ih =>
      rw [List.foldl_cons, ih, handTo_apply hnodup]
      split
      next =>
        rw [Option.map_map]
        rfl
      next => rfl

/-- Listeners are the open nodes with a transport, each at its own transport, which it holds. -/
structure Kept (w : Flow) : Prop where
  shared : ∃ failed, SharedTransport.Kept failed w.shared
  nodup : w.listeners.Nodup
  listening : ∀ t s, (t, s) ∈ w.listeners ↔ ∃ n, w.nodes s = some n ∧ n.ListensTo t
  holding : ∀ t s, (t, s) ∈ w.listeners → ⟨s, t⟩ ∈ w.shared.held

theorem kept_init (reassemblers : Nat → Reassembler) : Kept { reassemblers := reassemblers } where
  shared := ⟨0, SharedTransport.kept_init⟩
  nodup := List.nodup_nil
  listening t s := by simp
  holding t s h := by cases h

namespace Kept

theorem current (h : w.Kept) {t s : Nat} (hmem : (t, s) ∈ w.listeners) :
    w.shared.node.sharedTransport = some t := by
  obtain ⟨failed, hshared⟩ := h.shared
  exact hshared.held _ (h.holding t s hmem)

theorem listenersOf_nodup (h : w.Kept) (t : Nat) : (w.listenersOf t).Nodup := by
  refine (h.nodup.filter _).map_on fun l hl m hm heq => ?_
  have hl := (List.mem_filter.mp hl).2
  have hm := (List.mem_filter.mp hm).2
  exact Prod.ext ((of_decide_eq_true hl).trans (of_decide_eq_true hm).symm) heq

theorem mem_listenersOf {t s : Nat} : s ∈ w.listenersOf t ↔ (t, s) ∈ w.listeners := by
  simp [listenersOf]

theorem not_mem_of_none (h : w.Kept) {s : Nat} (hs : w.nodes s = none) (t : Nat) :
    (t, s) ∉ w.listeners := fun hmem => by
  obtain ⟨n, hn, -⟩ := (h.listening t s).mp hmem
  cases hs.symm.trans hn

/-- The new listener is the last one, at the transport the node was given. -/
theorem deploy (h : w.Kept) {s : Nat} {config : SubscriberConfig} (creates : Bool)
    (hnew : w.nodes s = none) : (w.deploys s config creates).Kept := by
  obtain ⟨failed, hshared⟩ := h.shared
  have hstarted := SharedTransport.kept_start hshared s
  have hheld : (w.shared.startPublisher s).held = w.shared.held := by
    rw [SharedTransport.startPublisher_eq]
  have hkept : ∃ failed, SharedTransport.Kept failed
      ((w.shared.startPublisher s).acquireTransport s creates) := by
    rcases SharedTransport.kept_acquire hstarted s creates with ⟨-, hkept⟩ | ⟨-, hkept⟩
    · exact ⟨_, hkept⟩
    · exact ⟨_, hkept⟩
  have hfresh := h.not_mem_of_none hnew
  have hothers : ∀ t s', s' ≠ s → ((t, s') ∈ w.listeners ↔
      ∃ n, Function.update w.nodes s (some ⟨config,
        ((w.shared.startPublisher s).acquireTransport s creates).node.sharedTransport, false,
        ⟨mqttMaxReassembledSize, []⟩, []⟩) s' = some n ∧ n.ListensTo t) := by
    intro t s' hne
    rw [Function.update_of_ne hne]
    exact h.listening t s'
  rcases SharedTransport.acquire_cases (w.shared.startPublisher s) s creates with
    ⟨u, hu, hacquired⟩ | ⟨hnone, hacquired⟩
  · refine ⟨hkept, ?_, fun t s' => ?_, fun t s' hmem => ?_⟩
    · simp only [deploys, hu, Option.toList_some, List.map_cons, List.map_nil]
      exact h.nodup.append (List.nodup_singleton _)
        (List.disjoint_singleton.mpr (hfresh u))
    · simp only [deploys, hu, Option.toList_some, List.map_cons, List.map_nil, List.mem_append,
        List.mem_singleton, Prod.mk.injEq]
      by_cases heq : s' = s
      · subst heq
        rw [Function.update_self]
        constructor
        · rintro (hmem | ⟨rfl, -⟩)
          · exact absurd hmem (hfresh t)
          · exact ⟨_, rfl, rfl, rfl⟩
        · rintro ⟨n, hn, -, htransport⟩
          cases hn
          exact Or.inr ⟨(Option.some.inj htransport).symm, rfl⟩
      · have hother := hothers t s' heq
        rw [hu] at hother
        simpa only [heq, and_false, or_false] using hother
    · simp only [deploys, hu, Option.toList_some, List.map_cons, List.map_nil, List.mem_append,
        List.mem_singleton, Prod.mk.injEq] at hmem
      change _ ∈ ((w.shared.startPublisher s).acquireTransport s creates).held
      rw [hacquired, hheld]
      rcases hmem with hmem | ⟨rfl, rfl⟩
      · exact List.mem_cons_of_mem _ (h.holding t s' hmem)
      · exact List.mem_cons_self
  · refine ⟨hkept, ?_, fun t s' => ?_, fun t s' hmem => ?_⟩
    · simp only [deploys, hnone, Option.toList_none, List.map_nil, List.append_nil]
      exact h.nodup
    · simp only [deploys, hnone, Option.toList_none, List.map_nil, List.append_nil]
      by_cases heq : s' = s
      · subst heq
        rw [Function.update_self]
        refine iff_of_false (hfresh t) ?_
        rintro ⟨n, hn, -, htransport⟩
        cases hn
        cases htransport
      · have hother := hothers t s' heq
        rwa [hnone] at hother
    · simp only [deploys, hnone, Option.toList_none, List.map_nil, List.append_nil] at hmem
      change _ ∈ ((w.shared.startPublisher s).acquireTransport s creates).held
      rw [hacquired, hheld]
      exact h.holding t s' hmem

/-- The node that closes takes its listener and its hold away, and no other. -/
theorem close (h : w.Kept) {s t : Nat} {n : SubscriberNode} {hold : Hold}
    (hs : w.nodes s = some n) (hlistens : n.ListensTo t) (hmem : hold ∈ w.shared.held)
    (hconsumer : hold.consumer = s) : (w.closes s t n hold).Kept := by
  obtain ⟨failed, hshared⟩ := h.shared
  refine ⟨⟨failed, ?_⟩, h.nodup.erase _, fun u s' => ?_, fun u s' hlistener => ?_⟩
  · exact SharedTransport.kept_release (SharedTransport.kept_unregister hshared s) hmem
  · simp only [closes, h.nodup.mem_erase_iff, ne_eq, Prod.mk.injEq]
    by_cases heq : s' = s
    · subst heq
      rw [Function.update_self]
      refine iff_of_false ?_ ?_
      · rintro ⟨hne, hlistener⟩
        obtain ⟨n', hn', hlistens'⟩ := (h.listening u s').mp hlistener
        cases hs.symm.trans hn'
        exact hne ⟨Option.some.inj (hlistens'.2.symm.trans hlistens.2), rfl⟩
      · rintro ⟨n', hn', hopen, -⟩
        cases hn'
        cases hopen
    · rw [Function.update_of_ne heq]
      simpa only [heq, and_false, not_false_eq_true, true_and] using h.listening u s'
  · simp only [closes, h.nodup.mem_erase_iff, ne_eq, Prod.mk.injEq] at hlistener
    have hne : s' ≠ s := by
      rintro rfl
      obtain ⟨n', hn', hlistens'⟩ := (h.listening u s').mp hlistener.2
      cases hs.symm.trans hn'
      exact hlistener.1 ⟨Option.some.inj (hlistens'.2.symm.trans hlistens.2), rfl⟩
    change _ ∈ (SharedTransport.releaseTransport _).held
    rw [SharedTransport.held_release]
    refine (List.mem_erase_of_ne fun heq => hne ?_).mpr (h.holding u s' hlistener.2)
    rw [← hconsumer, ← heq]

/-- A frame is heard by the listeners of its transport. -/
theorem nodes_receives (h : w.Kept) (t : Nat) (frame : Frame) (s : Nat) :
    (w.receives host parse transportType t frame).nodes s =
      if (t, s) ∈ w.listeners then
        (w.nodes s).map fun n => n.hears host parse (w.passes host transportType t frame).2.1
      else w.nodes s := by
  simp only [receives, handTo_all (h.listenersOf_nodup t), mem_listenersOf]

theorem shared_receives (t : Nat) (frame : Frame) :
    (w.receives host parse transportType t frame).shared = w.shared.emits t .error ∨
      (w.receives host parse transportType t frame).shared = w.shared :=
  ite_eq_or_eq ..

/-- A frame leaves the listeners as they are. -/
theorem receive (h : w.Kept) {t : Nat} (ht : t < w.shared.created) (frame : Frame) :
    (w.receives host parse transportType t frame).Kept := by
  obtain ⟨failed, hshared⟩ := h.shared
  refine ⟨⟨failed, ?_⟩, h.nodup, fun u s => ?_, fun u s hmem => ?_⟩
  · rcases @shared_receives host parse transportType w t frame with heq | heq
    · rw [heq]
      exact SharedTransport.kept_emits hshared ht .error
    · rw [heq]
      exact hshared
  · rw [h.nodes_receives]
    refine (h.listening u s).trans ?_
    split
    · cases hs : w.nodes s with
      | none => simp
      | some n => simp [SubscriberNode.hears_listensTo]
    · rfl
  · rcases @shared_receives host parse transportType w t frame with heq | heq
    · rw [heq, SharedTransport.held_emits]
      exact h.holding u s hmem
    · rw [heq]
      exact h.holding u s hmem

theorem other (h : w.Kept) {event : SharedTransportEvent} {shared : SharedTransport}
    (hforeign : ∀ c, event.caller = some c → w.nodes c = none)
    (hstep : w.shared.step event = some shared) : Kept { w with shared := shared } := by
  obtain ⟨failed, hshared⟩ := h.shared
  refine ⟨?_, h.nodup, h.listening, fun t s hmem => ?_⟩
  · rcases SharedTransport.kept_step hshared hstep with ⟨-, hkept⟩ | ⟨-, hkept⟩
    · exact ⟨_, hkept⟩
    · exact ⟨_, hkept⟩
  · refine SharedTransport.held_step hstep (h.holding t s hmem) fun hcaller => ?_
    exact h.not_mem_of_none (hforeign s hcaller) t hmem

/-- A node that can close listens to its transport. -/
theorem closing {s : Nat} (hstep : w.step host parse transportType (.close s) = some w') :
    ∃ n t hold, w.nodes s = some n ∧ n.ListensTo t ∧ hold ∈ w.shared.held ∧ hold.consumer = s ∧
      w' = w.closes s t n hold := by
  simp only [step] at hstep
  split at hstep
  next n hold hn hfind =>
    split at hstep
    next t hopen htransport =>
      cases hstep
      exact ⟨n, t, hold, hn, ⟨hopen, htransport⟩, List.mem_of_find?_eq_some hfind,
        by simpa using List.find?_some hfind, rfl⟩
    next => cases hstep
  next => cases hstep

theorem step (h : w.Kept) (hstep : w.step host parse transportType e = some w') : w'.Kept := by
  cases e with
  | deploy s config creates =>
      simp only [Flow.step] at hstep
      split at hstep
      next hproper =>
        cases hstep
        exact h.deploy creates hproper.1
      next => cases hstep
  | close s =>
      obtain ⟨n, t, hold, hs, hlistens, hmem, hconsumer, rfl⟩ := closing hstep
      exact h.close hs hlistens hmem hconsumer
  | receive t frame =>
      simp only [Flow.step] at hstep
      split at hstep
      next ht =>
        cases hstep
        exact h.receive ht frame
      next => cases hstep
  | other event =>
      simp only [Flow.step] at hstep
      split at hstep
      next hforeign =>
        obtain ⟨shared, hshared, rfl⟩ := Option.map_eq_some_iff.mp hstep
        exact h.other hforeign hshared
      next => cases hstep

end Kept

/-! ## What a node hears -/

/-- A frame reaches a node just when it is offered to it. -/
theorem node_receives (h : w.Kept) {s : Nat} {n : SubscriberNode} (hs : w.nodes s = some n) (t : Nat)
    (frame : Frame) : (w.receives host parse transportType t frame).nodes s =
      some (n.hears host parse (w.offered host transportType s (.receive t frame))) := by
  rw [h.nodes_receives, hs]
  simp only [offered, hs, Option.any_some, Bool.and_eq_true, Bool.not_eq_true', Option.map_some]
  by_cases hmem : (t, s) ∈ w.listeners
  · obtain ⟨n', hn', hlistens⟩ := (h.listening t s).mp hmem
    cases hs.symm.trans hn'
    rw [if_pos hmem, if_pos ⟨h.current hmem, hlistens.1, by rw [hlistens.2]; rfl⟩]
  · rw [if_neg hmem, if_neg]
    · rfl
    · rintro ⟨hcurrent, hopen, hgiven⟩
      obtain ⟨u, hu⟩ := Option.isSome_iff_exists.mp hgiven
      have hlistener := (h.listening u s).mpr ⟨n, hs, hopen, hu⟩
      obtain rfl := Option.some.inj (hcurrent.symm.trans (h.current hlistener))
      exact hmem hlistener

/-- A step hands a node what is offered to it, or closes it. -/
theorem node_step (h : w.Kept) (hstep : w.step host parse transportType e = some w') {s : Nat}
    {n : SubscriberNode} (hs : w.nodes s = some n) :
    w'.nodes s = some (n.hears host parse (w.offered host transportType s e)) ∨
      (n.closed = false ∧ w'.nodes s = some n.close ∧ w.offered host transportType s e = []) := by
  cases e with
  | deploy s' config creates =>
      simp only [step] at hstep
      split at hstep
      next hproper =>
        cases hstep
        have hne : s ≠ s' := by
          rintro rfl
          cases hs.symm.trans hproper.1
        exact Or.inl ((Function.update_of_ne hne _ _).trans hs)
      next => cases hstep
  | close s' =>
      obtain ⟨n', t, hold, hs', hlistens, -, -, rfl⟩ := Kept.closing hstep
      by_cases heq : s = s'
      · subst heq
        cases hs.symm.trans hs'
        exact Or.inr ⟨hlistens.1, Function.update_self .., rfl⟩
      · exact Or.inl ((Function.update_of_ne heq _ _).trans hs)
  | receive t frame =>
      simp only [step] at hstep
      split at hstep
      next =>
        cases hstep
        exact Or.inl (node_receives h hs t frame)
      next => cases hstep
  | other event =>
      simp only [step] at hstep
      split at hstep
      next =>
        obtain ⟨shared, -, rfl⟩ := Option.map_eq_some_iff.mp hstep
        exact Or.inl hs
      next => cases hstep

/-- A node is there from its deployment on, when it has heard nothing. -/
theorem node_begins (h : w.Kept) (hstep : w.step host parse transportType e = some w') {s : Nat}
    (hs : w.nodes s = none) :
    w.offered host transportType s e = [] ∧
      (w'.nodes s = none ∨ ∃ config transport, w'.nodes s = some { config, transport }) := by
  cases e with
  | deploy s' config creates =>
      simp only [step] at hstep
      split at hstep
      next hproper =>
        cases hstep
        refine ⟨rfl, ?_⟩
        by_cases heq : s = s'
        · subst heq
          exact Or.inr ⟨config, _, Function.update_self ..⟩
        · exact Or.inl ((Function.update_of_ne heq _ _).trans hs)
      next => cases hstep
  | close s' =>
      obtain ⟨n', t, hold, hs', -, -, -, rfl⟩ := Kept.closing hstep
      have hne : s ≠ s' := by
        rintro rfl
        cases hs.symm.trans hs'
      exact ⟨rfl, Or.inl ((Function.update_of_ne hne _ _).trans hs)⟩
  | receive t frame =>
      simp only [step] at hstep
      split at hstep
      next =>
        cases hstep
        refine ⟨?_, Or.inl ?_⟩
        · simp [offered, hs]
        · rw [h.nodes_receives, hs, Option.map_none, ite_self]
      next => cases hstep
  | other event =>
      simp only [step] at hstep
      split at hstep
      next =>
        obtain ⟨shared, -, rfl⟩ := Option.map_eq_some_iff.mp hstep
        exact ⟨rfl, Or.inl hs⟩
      next => cases hstep

/-! ## Runs -/

theorem heardBy_cons (hstep : w.step host parse transportType e = some w') (s : Nat)
    (es : List FlowEvent) : w.heardBy host parse transportType s (e :: es) =
      w.offered host transportType s e ++ w'.heardBy host parse transportType s es := by
  simp only [heardBy, hstep]

/-- A closed node hears nothing any more. -/
theorem closed_run (es : List FlowEvent) : ∀ {w w' : Flow}, w.Kept →
    Transition.run (step host parse transportType) w es = some w' →
      ∀ {s : Nat} {n : SubscriberNode}, w.nodes s = some n → n.closed = true →
        w.heardBy host parse transportType s es = [] ∧ w'.nodes s = some n := by
  induction es with
  | nil =>
      rintro w w' - ⟨⟩ s n hs -
      exact ⟨rfl, hs⟩
  | cons e es ih =>
      intro w w' h hrun s n hs hclosed
      obtain ⟨u, hstep, hrest⟩ := Transition.run_cons.mp hrun
      have hsilent : w.offered host transportType s e = [] := by
        cases e with
        | receive t frame => simp [offered, hs, hclosed]
        | deploy s' config creates => rfl
        | close s' => rfl
        | other event => rfl
      have hnode : u.nodes s = some n := by
        rcases node_step h hstep hs with hheard | ⟨hopen, -⟩
        · rwa [hsilent] at hheard
        · cases hopen.symm.trans hclosed
      obtain ⟨hnothing, hsame⟩ := ih (h.step hstep) hrest hnode hclosed
      exact ⟨by rw [heardBy_cons hstep, hsilent, hnothing]; rfl, hsame⟩

/-- A node sends what it makes of the frames offered to it. -/
theorem node_run (es : List FlowEvent) : ∀ {w w' : Flow}, w.Kept →
    Transition.run (step host parse transportType) w es = some w' →
      ∀ {s : Nat} {n : SubscriberNode}, w.nodes s = some n →
        ∃ n', w'.nodes s = some n' ∧ n'.config = n.config ∧
          n'.outputs = (n.hears host parse (w.heardBy host parse transportType s es)).outputs := by
  induction es with
  | nil =>
      rintro w w' - ⟨⟩ s n hs
      exact ⟨n, hs, rfl, rfl⟩
  | cons e es ih =>
      intro w w' h hrun s n hs
      obtain ⟨u, hstep, hrest⟩ := Transition.run_cons.mp hrun
      rcases node_step h hstep hs with hheard | ⟨-, hclose, hsilent⟩
      · obtain ⟨n', hn', hconfig, houtputs⟩ := ih (h.step hstep) hrest hheard
        refine ⟨n', hn', ?_, ?_⟩
        · rw [hconfig, SubscriberNode.hears_config]
        · rw [houtputs, heardBy_cons hstep, SubscriberNode.hears_append]
      · obtain ⟨hnothing, hsame⟩ := closed_run es (h.step hstep) hrest hclose rfl
        refine ⟨n.close, hsame, rfl, ?_⟩
        rw [heardBy_cons hstep, hsilent, hnothing]
        rfl

/-- What a node that is alone with its frames sends. -/
def alone (host : Host) (parse : Bytes → JsonEncoder.Text) (config : SubscriberConfig)
    (frames : List Frame) : List SubscriberOutput :=
  (SubscriberNode.hears host parse { config, transport := none } frames).outputs

/-- The transport plays no part in what a node makes of its frames. -/
theorem outputs_hears (n : SubscriberNode) (transport : Option Nat) (frames : List Frame) :
    (SubscriberNode.hears host parse { n with transport } frames).outputs =
      (n.hears host parse frames).outputs := by
  induction frames generalizing n with
  | nil => rfl
  | cons frame frames ih => exact ih (n.hear host parse frame)

/-- From before its deployment on, too. -/
theorem absent_run (es : List FlowEvent) : ∀ {w w' : Flow}, w.Kept →
    Transition.run (step host parse transportType) w es = some w' →
      ∀ {s : Nat}, w.nodes s = none → ∀ {n' : SubscriberNode}, w'.nodes s = some n' →
        n'.outputs = alone host parse n'.config (w.heardBy host parse transportType s es) := by
  induction es with
  | nil =>
      rintro w w' - ⟨⟩ s hs n' hn'
      cases hs.symm.trans hn'
  | cons e es ih =>
      intro w w' h hrun s hs n' hn'
      obtain ⟨u, hstep, hrest⟩ := Transition.run_cons.mp hrun
      obtain ⟨hsilent, hnone | ⟨config, transport, hnew⟩⟩ := node_begins h hstep hs
      · rw [heardBy_cons hstep, hsilent]
        exact ih (h.step hstep) hrest hnone hn'
      · obtain ⟨n'', hn'', hconfig, houtputs⟩ := node_run es (h.step hstep) hrest hnew
        cases hn'.symm.trans hn''
        rw [heardBy_cons hstep, hsilent, houtputs, hconfig]
        exact outputs_hears { config, transport := none } transport _

theorem kept_run {es : List FlowEvent} {w w' : Flow} (h : w.Kept)
    (hrun : Transition.run (step host parse transportType) w es = some w') : w'.Kept := by
  have hpreserves : Transition.Preserves (step host parse transportType) (fun _ _ => True) Kept :=
    fun _ _ _ h _ hstep => h.step hstep
  exact hpreserves.run h (Transition.along_of_forall (fun _ _ => trivial) w es) hrun

/-- Each subscriber that is open and was given a transport has one listener, at the current
transport, which is not being closed; there are no other listeners. -/
structure Listening (w : Flow) : Prop where
  once : w.listeners.Nodup
  exact : ∀ t s, (t, s) ∈ w.listeners ↔ ∃ n, w.nodes s = some n ∧ n.ListensTo t
  current : ∀ t s, (t, s) ∈ w.listeners →
    w.shared.node.sharedTransport = some t ∧ t ∉ w.shared.closing

/-- However subscribers, publishers and transports come and go, a subscriber sends exactly what
it would make, alone, of the frames the current transport passed on while it was open. -/
theorem subscriber_alone {mtu : Nat} {es : List FlowEvent} {w : Flow}
    (hrun : Transition.run (step host parse transportType)
      { reassemblers := fun _ => udpReassembler mtu } es = some w) :
    w.Listening ∧ ∀ s n, w.nodes s = some n → n.outputs = alone host parse n.config
      (heardBy host parse transportType s { reassemblers := fun _ => udpReassembler mtu } es) := by
  have hinit := kept_init fun _ => udpReassembler mtu
  have h := kept_run hinit hrun
  obtain ⟨failed, hshared⟩ := h.shared
  refine ⟨⟨h.nodup, h.listening, fun t s hmem => ?_⟩, fun s n hn => absent_run es hinit hrun rfl hn⟩
  have hcurrent := h.current hmem
  exact ⟨hcurrent, (hshared.current t hcurrent).2⟩

/-- Any message of writer group 2, over MQTT. -/
def groupTwo : SubscriberConfig where
  transportType := .mqtt
  reader := ⟨.undefined, .nat 2, .undefined, Or.inr (Or.inl (by decide))⟩
  udp_uadp _ := rfl

/-- The second subscriber comes after the first frame and the first one leaves before the third;
the fourth frame comes when the transport is closed. -/
def twoSubscribers : List FlowEvent :=
  [.deploy 0 groupTwo true, .receive 0 ⟨0, some (js "ua/1"), [0]⟩, .deploy 1 groupTwo true,
    .receive 0 ⟨1, some (js "ua/1"), [1]⟩, .close 0, .receive 0 ⟨2, some (js "ua/1"), []⟩, .close 1,
    .other (.wait 500), .other (.fire 0), .receive 0 ⟨503, some (js "ua/1"), [0]⟩]

set_option maxRecDepth 4096 in
theorem subscriber_alone_two :
    ∃ w, Transition.run (step Host.inert (fun _ => none) .mqtt)
        { reassemblers := fun _ => udpReassembler 1400 } twoSubscribers = some w ∧ w.Listening ∧
      ∀ s n, w.nodes s = some n → n.outputs = alone Host.inert (fun _ => none) n.config
        (heardBy Host.inert (fun _ => none) .mqtt s
          { reassemblers := fun _ => udpReassembler 1400 } twoSubscribers) := by
  have hruns : (Transition.run (step Host.inert (fun _ => none) .mqtt)
      { reassemblers := fun _ => udpReassembler 1400 } twoSubscribers).isSome = true := rfl
  obtain ⟨w, hrun⟩ := Option.isSome_iff_exists.mp hruns
  exact ⟨w, hrun, subscriber_alone hrun⟩

end Flow

end OpcUaSuite.Nodes
