import Mathlib.Data.List.ReduceOption
import OpcUaSuite.Nodes.BrowseKept
import OpcUaSuite.Nodes.EndpointSharing
import OpcUaSuite.Nodes.EventKept
import OpcUaSuite.Nodes.SubscriptionKept

/-!
# Client nodes that close

`terminateWithin` and the close handlers of the nodes that share a manager. A node tells what it
has subscribed to terminate, waits for that no longer than two seconds, gives the manager back,
and waits for its disconnect where it was the last to hold it. The nodes of a deployment close
side by side.
-/

namespace OpcUaSuite.Nodes

open Js

/-! ## The model -/

/-- `CLOSE_TERMINATE_TIMEOUT_MS` -/
def closeTerminateTimeoutMs : Nat := 2000

/-- What has a `terminate`. -/
inductive Handle
  | item (item : Nat)
  | subscription (subscription : Nat)
deriving DecidableEq

/-- The subscriptions of a node when its close handler begins; `opcua-browser` and
`opcua-method` have none. -/
inductive NodeWork
  | client (s : SubscriptionState)
  | event (s : EventState)
  | browseClient (s : BrowseState)
  | plain

namespace NodeWork

/-- The argument of `terminateWithin`, with a `null` for a subscription that is not there. -/
def handles : NodeWork → List (Option Handle)
  | .client s =>
      (s.monitorItems.map fun e => some (.item e.2)) ++ [s.subscription.map .subscription]
  | .event s => [s.monitoredItem.map .item, s.subscription.map .subscription]
  | .browseClient s =>
      (s.monitorItems.map fun e => some (.item e.2.item)) ++ [s.subscription.map .subscription]
  | .plain => []

/-- The subscriptions that the server has for the node. -/
def liveSubscriptions : NodeWork → List Nat
  | .client s => s.liveSubscriptions
  | .event s => s.liveSubscriptions
  | .browseClient s => s.liveSubscriptions
  | .plain => []

end NodeWork

inductive TeardownPhase
  | terminating
  | disconnecting (manager : Nat)
  | closed
deriving DecidableEq

/-- A close handler: what was told to terminate, what of it has not settled, and when it began. -/
structure Teardown where
  work : NodeWork
  told : List Handle
  pending : List Handle
  began : Nat
  phase : TeardownPhase

/-- The endpoint with the close handlers of its client nodes, and the calls of their `done`. -/
structure ClosingNodes where
  endpoint : SharedEndpoint := {}
  now : Nat := 0
  teardown : Nat → Option Teardown := fun _ => none
  dones : List Nat := []

/-- A node is deployed or closes, a `terminate` or a disconnect settles, time passes, the timer of
a node fires, a manager emits an event, or the endpoint closes. -/
inductive ClosingEvent
  | deploy (client : Nat) (exist : JsString → Bool) (config : ClientConfig)
  | emit (manager : Nat) (event : ManagerEvent)
  | close (client : Nat) (work : NodeWork)
  | settles (client : Nat) (handle : Handle)
  | wait (ms : Nat)
  | timer (client : Nat)
  | disconnected (client : Nat)
  | closeEndpoint

namespace NodeWork

/-- The subscriptions of a node at rest, after a run of its machine in which no step runs into
another one. -/
def InOrder : NodeWork → Prop
  | .client s => ∃ es,
      Transition.Along SubscriptionState.step (fun s e => s.isOrderly e = true) {} es ∧
      Transition.run SubscriptionState.step {} es = some s ∧ s.pending = [] ∧ s.replay = none
  | .event s => ∃ cfg es,
      Transition.Along (EventState.step cfg) (fun s e => s.isOrderly cfg e = true) {} es ∧
      Transition.run (EventState.step cfg) {} es = some s ∧ s.IsQuiescent
  | .browseClient s => ∃ cfg es,
      ((cfg.selectedItems.filter SelectedItem.isSubscribable).map SelectedItem.nodeId).Nodup ∧
      Transition.Along (BrowseState.step cfg) (fun s e => s.isOrderly cfg e = true) {} es ∧
      Transition.run (BrowseState.step cfg) {} es = some s ∧ s.pending = []
  | .plain => True

theorem recorded_client {s : SubscriptionState} (h : InOrder (.client s)) :
    ∀ x ∈ s.liveSubscriptions, s.subscription = some x := by
  obtain ⟨es, hok, hrun, hpending, hreplay⟩ := h
  have hkept := (SubscriptionState.kept_step.run SubscriptionState.kept_initial hok hrun).subscriptions
  intro x hx
  rcases hkept.owned x hx with hcurrent | hcreated | ⟨n, hterminating⟩
  · exact hcurrent
  · simp [SubscriptionState.created, hpending, hreplay] at hcreated
  · rw [hpending] at hterminating
    cases hterminating

theorem recorded_event {s : EventState} (h : InOrder (.event s)) :
    ∀ x ∈ s.liveSubscriptions, s.subscription = some x := by
  obtain ⟨cfg, es, hok, hrun, hpending, hreplay⟩ := h
  have hkept := (EventState.kept_step.run EventState.kept_initial hok hrun).subscriptions
  intro x hx
  refine (hkept.owned x hx).resolve_right fun hcreated => ?_
  simp [EventState.created, hpending, hreplay] at hcreated

theorem recorded_browseClient {s : BrowseState} (h : InOrder (.browseClient s)) :
    ∀ x ∈ s.liveSubscriptions, s.subscription = some x := by
  obtain ⟨cfg, es, hdistinct, hok, hrun, hpending⟩ := h
  have hkept := ((BrowseState.kept_step hdistinct).run BrowseState.kept_initial hok hrun).setUp
  intro x hx
  refine (hkept.owned x hx).resolve_right fun hcreated => ?_
  simp [BrowseState.created, hpending] at hcreated

/-- A node in order has every subscription of the server among what it tells to terminate. -/
theorem told_of_inOrder {work : NodeWork} (h : work.InOrder) :
    ∀ x ∈ work.liveSubscriptions, .subscription x ∈ work.handles.reduceOption := by
  intro x hx
  rw [List.reduceOption_mem_iff]
  cases work with
  | client s =>
      refine List.mem_append_right _ ?_
      rw [recorded_client h x hx]
      exact List.mem_singleton_self _
  | event s =>
      refine List.mem_cons_of_mem _ ?_
      rw [recorded_event h x hx]
      exact List.mem_singleton_self _
  | browseClient s =>
      refine List.mem_append_right _ ?_
      rw [recorded_browseClient h x hx]
      exact List.mem_singleton_self _
  | plain => cases hx

end NodeWork

namespace ClosingNodes

variable (host : Host) (settings : EndpointSettings) (w : ClosingNodes)

/-- The close handler of a node goes on. -/
def moves (client : Nat) (t : Teardown) : ClosingNodes :=
  { w with teardown := Function.update w.teardown client (some t) }

/-- The close handler after `terminateWithin`: the node unregisters and releases the manager, and
is done unless it has to wait for the disconnect. -/
def releases (client : Nat) (t : Teardown) : Option ClosingNodes :=
  (w.endpoint.step host settings (.leave client)).map fun endpoint =>
    match w.endpoint.sharedManager, endpoint.sharedManager with
    | some manager, none =>
        { w.moves client { t with phase := .disconnecting manager } with endpoint := endpoint }
    | _, _ =>
        { w.moves client { t with phase := .closed } with
          endpoint := endpoint
          dones := client :: w.dones }

/-- `terminateWithin` goes on waiting, or what it waits for has settled. -/
def awaits (client : Nat) (t : Teardown) : Option ClosingNodes :=
  if t.phase = .terminating ∧ t.pending = [] then w.releases host settings client t
  else some (w.moves client t)

/-- One event. A node closes once; its timer counts while it is terminating. -/
def step : ClosingEvent → Option ClosingNodes
  | .deploy client exist config =>
      (w.endpoint.step host settings (.deploy client exist config)).map fun endpoint =>
        { w with endpoint := endpoint }
  | .emit manager event =>
      (w.endpoint.step host settings (.emit manager event)).map fun endpoint =>
        { w with endpoint := endpoint }
  | .close client work =>
      if client ∈ w.endpoint.holders ∧ (w.teardown client).isNone then
        let told := work.handles.reduceOption
        w.awaits host settings client ⟨work, told, told, w.now, .terminating⟩
      else none
  | .settles client handle =>
      (w.teardown client).bind fun t =>
        if handle ∈ t.pending then
          w.awaits host settings client { t with pending := t.pending.erase handle }
        else none
  | .wait ms => some { w with now := w.now + ms }
  | .timer client =>
      (w.teardown client).bind fun t =>
        if t.phase = .terminating ∧ t.began + closeTerminateTimeoutMs ≤ w.now then
          w.releases host settings client t
        else none
  | .disconnected client =>
      (w.teardown client).bind fun t =>
        match t.phase with
        | .disconnecting _ =>
            some { w.moves client { t with phase := .closed } with dones := client :: w.dones }
        | _ => none
  | .closeEndpoint =>
      (w.endpoint.step host settings .close).map fun endpoint => { w with endpoint := endpoint }

/-! ## The endpoint among its nodes -/

section

variable {host : Host} {settings : EndpointSettings} {p q : SharedEndpoint} {client : Nat}

/-- What a node that leaves does to the endpoint: it holds the manager no more, and the last one
has it disconnect. -/
structure Leaves (p q : SharedEndpoint) (client : Nat) : Prop where
  held : client ∈ p.holders
  given : q.given = p.given
  holders : ∀ c, c ∈ q.holders ↔ c ∈ p.holders ∧ c ≠ client
  manager : (∃ m, p.sharedManager = some m ∧ q.sharedManager = none ∧
      q.disconnects = p.disconnects ++ [m]) ∨
    (q.sharedManager = p.sharedManager ∧ q.disconnects = p.disconnects)

theorem leaves_of_step (hstep : p.step host settings (.leave client) = some q) :
    Leaves p q client := by
  simp only [SharedEndpoint.step] at hstep
  split at hstep
  next hheld =>
    cases hstep
    unfold SharedEndpoint.releaseSharedManager SharedEndpoint.unregisterStatusCallback
    dsimp only
    have hholders : ∀ c, c ∈ p.holders.filter (· ≠ client) ↔ c ∈ p.holders ∧ c ≠ client := by
      intro c
      rw [List.mem_filter, decide_eq_true_iff]
    split
    next m hm =>
      split
      next => exact ⟨hheld, rfl, hholders, Or.inl ⟨m, hm, rfl, rfl⟩⟩
      next => exact ⟨hheld, rfl, hholders, Or.inr ⟨rfl, rfl⟩⟩
    next => exact ⟨hheld, rfl, hholders, Or.inr ⟨rfl, rfl⟩⟩
  next => cases hstep

/-- No node leaves the endpoint, and a new one holds the manager it is given. -/
structure Stays (p q : SharedEndpoint) : Prop where
  given : ∀ c ∈ InsertionMap.keys p.given, c ∈ InsertionMap.keys q.given ∧
    InsertionMap.get? c q.given = InsertionMap.get? c p.given
  holders : ∀ c ∈ InsertionMap.keys p.given, c ∈ q.holders ↔ c ∈ p.holders
  disconnects : ∀ m ∈ p.disconnects, m ∈ q.disconnects
  fresh : ∀ c ∈ InsertionMap.keys q.given, c ∈ InsertionMap.keys p.given ∨ c ∈ q.holders

theorem stays_of_deploy {exist : JsString → Bool} {config : ClientConfig}
    (hstep : p.step host settings (.deploy client exist config) = some q) : Stays p q := by
  simp only [SharedEndpoint.step] at hstep
  split at hstep
  next => cases hstep
  next hproper =>
    obtain ⟨-, hnew⟩ := not_or.mp hproper
    have hne : ∀ c ∈ InsertionMap.keys p.given, c ≠ client := by
      rintro c hc rfl
      exact hnew hc
    have hjoins : ∀ m : Nat, ∀ c ∈ InsertionMap.keys p.given,
        c ∈ InsertionMap.keys (InsertionMap.set client m p.given) ∧
          InsertionMap.get? c (InsertionMap.set client m p.given) = InsertionMap.get? c p.given :=
      fun m c hc =>
        ⟨InsertionMap.mem_keys_set.mpr (Or.inl hc), InsertionMap.get?_set_of_ne (hne c hc) m _⟩
    have hholders : ∀ c ∈ InsertionMap.keys p.given,
        c ∈ p.holders ++ [client] ↔ c ∈ p.holders := by
      intro c hc
      rw [List.mem_append, List.mem_singleton, or_iff_left (hne c hc)]
    have hfresh : ∀ m : Nat, ∀ c ∈ InsertionMap.keys (InsertionMap.set client m p.given),
        c ∈ InsertionMap.keys p.given ∨ c ∈ p.holders ++ [client] := by
      intro m c hc
      rcases InsertionMap.mem_keys_set.mp hc with hc | rfl
      · exact Or.inl hc
      · exact Or.inr (List.mem_append_right _ (List.mem_singleton_self c))
    cases hstep
    rcases SharedEndpoint.Kept.getSharedManager_cases host settings p exist config with
      ⟨m, -, heq⟩ | ⟨-, heq⟩
    · rw [heq]
      exact ⟨hjoins m, hholders, fun _ hm => hm, hfresh m⟩
    · rw [heq]
      exact ⟨hjoins p.created, hholders, fun _ hm => hm, hfresh p.created⟩

theorem stays_of_emit {m : Nat} {event : ManagerEvent}
    (hstep : p.step host settings (.emit m event) = some q) : Stays p q := by
  simp only [SharedEndpoint.step] at hstep
  split at hstep
  next =>
    cases hstep
    unfold SharedEndpoint.forward
    split
    next => exact ⟨fun _ hc => ⟨hc, rfl⟩, fun _ _ => Iff.rfl, fun _ hm => hm, fun _ hc => Or.inl hc⟩
    next => exact ⟨fun _ hc => ⟨hc, rfl⟩, fun _ _ => Iff.rfl, fun _ hm => hm, fun _ hc => Or.inl hc⟩
  next => cases hstep

theorem stays_of_close (hstep : p.step host settings .close = some q) : Stays p q := by
  simp only [SharedEndpoint.step] at hstep
  split at hstep
  next => cases hstep
  next =>
    cases hstep
    exact ⟨fun _ hc => ⟨hc, rfl⟩, fun _ _ => Iff.rfl, fun _ hm => List.mem_append_left _ hm,
      fun _ hc => Or.inl hc⟩

end

/-! ## The invariant -/

/-- A close handler holds the manager while it terminates what is left, and gives it back when
nothing is or the time is over. -/
structure NodeKept (endpoint : SharedEndpoint) (now client : Nat) (t : Teardown) : Prop where
  given : client ∈ InsertionMap.keys endpoint.given
  holds : client ∈ endpoint.holders ↔ t.phase = .terminating
  waits : t.phase = .terminating → t.pending ≠ []
  through : t.phase ≠ .terminating → t.pending = [] ∨ t.began + closeTerminateTimeoutMs ≤ now
  told : t.told = t.work.handles.reduceOption
  awaited : ∀ m, t.phase = .disconnecting m → m ∈ endpoint.disconnects ∧
    InsertionMap.get? client endpoint.given = some m

/-- The close handler of a node has called `done`. -/
def isDone (w : ClosingNodes) (client : Nat) : Bool :=
  (w.teardown client).any fun t => decide (t.phase = .closed)

structure Kept (w : ClosingNodes) : Prop where
  endpoint : w.endpoint.Kept
  nodes : ∀ c t, w.teardown c = some t → NodeKept w.endpoint w.now c t
  given : ∀ c ∈ InsertionMap.keys w.endpoint.given,
    c ∈ w.endpoint.holders ∨ (w.teardown c).isSome = true
  done : ∀ c, w.dones.count c = if w.isDone c = true then 1 else 0

theorem kept_init : Kept {} where
  endpoint := SharedEndpoint.kept_init
  nodes := by
    intro c t ht
    cases ht
  given := by
    intro c hc
    cases hc
  done _ := rfl

variable {host : Host} {settings : EndpointSettings} {w w' : ClosingNodes} {client : Nat}
  {t : Teardown} {p q : SharedEndpoint}

/-- Deployments, events and the close of the endpoint are no concern of a node that closes. -/
theorem NodeKept.stays {now : Nat} (h : NodeKept p now client t) (hstays : Stays p q) :
    NodeKept q now client t where
  given := (hstays.given client h.given).1
  holds := (hstays.holders client h.given).trans h.holds
  waits := h.waits
  through := h.through
  told := h.told
  awaited := by
    intro m hm
    obtain ⟨htold, hgiven⟩ := h.awaited m hm
    exact ⟨hstays.disconnects m htold, (hstays.given client h.given).2.trans hgiven⟩

theorem Kept.stays (h : w.Kept) (hq : q.Kept) (hstays : Stays w.endpoint q) :
    Kept { w with endpoint := q } where
  endpoint := hq
  nodes := fun c t ht => (h.nodes c t ht).stays hstays
  given := by
    intro c hc
    rcases hstays.fresh c hc with hold | hnew
    · rcases h.given c hold with hheld | hclosing
      · exact Or.inl ((hstays.holders c hold).mpr hheld)
      · exact Or.inr hclosing
    · exact Or.inl hnew
  done := h.done

theorem Kept.wait (h : w.Kept) (ms : Nat) : Kept { w with now := w.now + ms } where
  endpoint := h.endpoint
  nodes := by
    intro c t ht
    have hnode := h.nodes c t ht
    refine { hnode with through := fun hphase => ?_ }
    exact (hnode.through hphase).imp_right fun hover => le_trans hover (Nat.le_add_right _ _)
  given := h.given
  done := h.done

theorem teardown_moves (w : ClosingNodes) (client : Nat) (t : Teardown) (c : Nat) :
    (w.moves client t).teardown c = if c = client then some t else w.teardown c :=
  Function.update_apply w.teardown client (some t) c

theorem isDone_moves (w : ClosingNodes) (client : Nat) (t : Teardown) (c : Nat) :
    (w.moves client t).isDone c = if c = client then decide (t.phase = .closed) else w.isDone c := by
  rw [isDone, teardown_moves]
  split
  next => rfl
  next => rfl

/-- The invariant after a step of one close handler, which may let go of the manager. -/
theorem Kept.node (hq : q.Kept) {dones : List Nat} (ht : NodeKept q w.now client t)
    (hothers : ∀ c u, c ≠ client → w.teardown c = some u → NodeKept q w.now c u)
    (hgiven : ∀ c ∈ InsertionMap.keys q.given, c ≠ client →
      c ∈ q.holders ∨ (w.teardown c).isSome = true)
    (hdones : ∀ c, dones.count c =
      if (if c = client then decide (t.phase = .closed) else w.isDone c) = true then 1 else 0) :
    Kept { w.moves client t with endpoint := q, dones := dones } where
  endpoint := hq
  nodes := by
    intro c u hu
    replace hu : (w.moves client t).teardown c = some u := hu
    rw [teardown_moves] at hu
    split at hu
    next hc =>
      cases hu
      exact hc ▸ ht
    next hc => exact hothers c u hc hu
  given := by
    intro c hc
    change _ ∨ ((w.moves client t).teardown c).isSome = true
    rw [teardown_moves]
    split
    next => exact Or.inr rfl
    next hne => exact hgiven c hc hne
  done := by
    intro c
    refine (hdones c).trans ?_
    rw [← isDone_moves]
    rfl

theorem count_same (h : w.Kept) {flag : Bool} (hflag : w.isDone client = flag) (c : Nat) :
    w.dones.count c = if (if c = client then flag else w.isDone c) = true then 1 else 0 := by
  rw [h.done c]
  by_cases hc : c = client
  · rw [if_pos hc, hc, hflag]
  · rw [if_neg hc]

/-- A close handler goes on without calling `done`. -/
theorem Kept.moves (h : w.Kept) (ht : NodeKept w.endpoint w.now client t)
    (hdone : w.isDone client = decide (t.phase = .closed)) : (w.moves client t).Kept :=
  Kept.node h.endpoint ht (fun c u _ hu => h.nodes c u hu) (fun c hc _ => h.given c hc)
    (count_same h hdone)

/-- `done` is called by a node that has not called it. -/
theorem count_done (h : w.Kept) (hopen : w.isDone client = false) (c : Nat) :
    (client :: w.dones).count c =
      if (if c = client then true else w.isDone c) = true then 1 else 0 := by
  rw [List.count_cons, h.done c]
  by_cases hc : c = client
  · rw [hc, hopen, if_pos rfl, beq_self_eq_true]
    rfl
  · have hbeq : (client == c) = false := beq_false_of_ne fun heq => hc heq.symm
    rw [if_neg hc, hbeq]
    rfl

/-- The node gives the manager back. -/
theorem Kept.releases (h : w.Kept) (hopen : w.isDone client = false)
    (hthrough : t.pending = [] ∨ t.began + closeTerminateTimeoutMs ≤ w.now)
    (htold : t.told = t.work.handles.reduceOption)
    (hstep : w.releases host settings client t = some w') : w'.Kept := by
  obtain ⟨q, hleave, hw'⟩ := Option.map_eq_some_iff.mp hstep
  have hq := h.endpoint.step hleave
  have hleaves := leaves_of_step hleave
  have hkey : client ∈ InsertionMap.keys w.endpoint.given := by
    obtain ⟨m, hm⟩ := h.endpoint.given client hleaves.held
    exact InsertionMap.get?_isSome_iff.mp (by rw [hm]; rfl)
  have hnode : ∀ phase, phase ≠ .terminating →
      (∀ m, phase = .disconnecting m → m ∈ q.disconnects ∧
        InsertionMap.get? client q.given = some m) →
      NodeKept q w.now client { t with phase := phase } := by
    intro phase hphase hawaited
    constructor
    case given => exact hleaves.given ▸ hkey
    case holds => exact iff_of_false (fun hmem => ((hleaves.holders client).mp hmem).2 rfl) hphase
    case waits => exact fun heq => absurd heq hphase
    case through => exact fun _ => hthrough
    case told => exact htold
    case awaited => exact hawaited
  have hothers : ∀ c u, c ≠ client → w.teardown c = some u → NodeKept q w.now c u := by
    intro c u hc hu
    have hold := h.nodes c u hu
    refine { hold with
      given := hleaves.given ▸ hold.given
      holds := ?_
      awaited := fun m hm => ?_ }
    · rw [hleaves.holders c, and_iff_left hc]
      exact hold.holds
    · obtain ⟨hdisconnects, hgiven⟩ := hold.awaited m hm
      refine ⟨?_, hleaves.given ▸ hgiven⟩
      rcases hleaves.manager with ⟨m', -, -, heq⟩ | ⟨-, heq⟩
      · rw [heq]
        exact List.mem_append_left _ hdisconnects
      · rwa [heq]
  have hgiven : ∀ c ∈ InsertionMap.keys q.given, c ≠ client →
      c ∈ q.holders ∨ (w.teardown c).isSome = true := by
    intro c hc hne
    rw [hleaves.given] at hc
    refine (h.given c hc).imp_left fun hheld => (hleaves.holders c).mpr ⟨hheld, hne⟩
  split at hw'
  next m hm hnone =>
    subst hw'
    refine Kept.node hq (hnode (.disconnecting m) (by intro heq; cases heq) ?_) hothers hgiven ?_
    · rintro m' ⟨⟩
      have hclosed := h.endpoint.not_closed_of_shared hm
      refine ⟨?_, ?_⟩
      · rcases hleaves.manager with ⟨k, hk, -, heq⟩ | ⟨hsame, -⟩
        · obtain rfl : k = m := Option.some.inj (hk.symm.trans hm)
          rw [heq]
          exact List.mem_append_right _ (List.mem_singleton_self k)
        · cases hnone.symm.trans (hsame.trans hm)
      · rw [hleaves.given, h.endpoint.current hclosed client hleaves.held, hm]
    · exact count_same h hopen
  next =>
    subst hw'
    refine Kept.node hq (hnode .closed (by intro heq; cases heq) ?_) hothers hgiven ?_
    · intro m heq
      cases heq
    · exact count_done h hopen

/-- `terminateWithin` goes on waiting, or the node gives the manager back. -/
theorem Kept.awaits (h : w.Kept) (hnode : t.phase ≠ .terminating ∨ t.pending ≠ [] →
      NodeKept w.endpoint w.now client t)
    (hdone : w.isDone client = decide (t.phase = .closed))
    (htold : t.told = t.work.handles.reduceOption)
    (hstep : w.awaits host settings client t = some w') : w'.Kept := by
  unfold ClosingNodes.awaits at hstep
  split at hstep
  next hover =>
    refine h.releases ?_ (Or.inl hover.2) htold hstep
    rw [hdone, hover.1]
    rfl
  next hwaits =>
    cases hstep
    refine h.moves (hnode ?_) hdone
    by_contra hneither
    obtain ⟨hphase, hpending⟩ := not_or.mp hneither
    exact hwaits ⟨not_not.mp hphase, not_not.mp hpending⟩

theorem isDone_of_teardown (ht : w.teardown client = some t) :
    w.isDone client = decide (t.phase = .closed) := by
  rw [isDone, ht]
  rfl

/-- What one event does to the invariant: it stays. -/
theorem kept_step : Transition.Preserves (step host settings) (fun _ _ => True) Kept := by
  intro w e w' h _ hstep
  cases e with
  | deploy c exist config =>
      obtain ⟨q, hq, rfl⟩ := Option.map_eq_some_iff.mp hstep
      exact h.stays (h.endpoint.step hq) (stays_of_deploy hq)
  | emit m event =>
      obtain ⟨q, hq, rfl⟩ := Option.map_eq_some_iff.mp hstep
      exact h.stays (h.endpoint.step hq) (stays_of_emit hq)
  | close c work =>
      simp only [step] at hstep
      split at hstep
      next hcloses =>
        obtain ⟨hheld, hnone⟩ := hcloses
        have hnone : w.teardown c = none := Option.isNone_iff_eq_none.mp hnone
        refine h.awaits (fun hwaits => ?_) ?_ rfl hstep
        · obtain ⟨m, hm⟩ := h.endpoint.given c hheld
          constructor
          case given => exact InsertionMap.get?_isSome_iff.mp (by rw [hm]; rfl)
          case holds => exact iff_of_true hheld rfl
          case waits => exact fun _ => hwaits.resolve_left fun hphase => hphase rfl
          case through => exact fun hphase => absurd rfl hphase
          case told => rfl
          case awaited =>
            intro m' heq
            cases heq
        · rw [isDone, hnone]
          rfl
      next => cases hstep
  | settles c handle =>
      obtain ⟨t, ht, hstep⟩ := Option.bind_eq_some_iff.mp hstep
      split at hstep
      next hmem =>
        have hnode := h.nodes c t ht
        refine h.awaits (fun hwaits => ?_) ?_ ?_ hstep
        · refine { hnode with
            waits := fun hphase => hwaits.resolve_left fun hne => hne hphase
            through := fun hphase => ?_ }
          refine (hnode.through hphase).imp_left fun hnil => ?_
          rw [hnil] at hmem
          cases hmem
        · exact (isDone_of_teardown ht : w.isDone c = decide (t.phase = .closed))
        · exact hnode.told
      next => cases hstep
  | wait ms =>
      cases hstep
      exact h.wait ms
  | timer c =>
      obtain ⟨t, ht, hstep⟩ := Option.bind_eq_some_iff.mp hstep
      split at hstep
      next hover =>
        refine h.releases ?_ (Or.inr hover.2) (h.nodes c t ht).told hstep
        rw [isDone_of_teardown ht, hover.1]
        rfl
      next => cases hstep
  | disconnected c =>
      obtain ⟨t, ht, hstep⟩ := Option.bind_eq_some_iff.mp hstep
      split at hstep
      next m hphase =>
        have hnode := h.nodes c t ht
        cases hstep
        refine Kept.node h.endpoint ?_ (fun c u _ hu => h.nodes c u hu)
          (fun c hc _ => h.given c hc) (count_done h ?_)
        · refine { hnode with
            holds := ?_
            waits := ?_
            through := fun _ => hnode.through ?_
            awaited := ?_ }
          · rw [hnode.holds, hphase]
            exact iff_of_false (by intro heq; cases heq) (by intro heq; cases heq)
          · intro heq
            cases heq
          · rw [hphase]
            intro heq
            cases heq
          · intro m' heq
            cases heq
        · rw [isDone_of_teardown ht, hphase]
          rfl
      next => cases hstep
  | closeEndpoint =>
      obtain ⟨q, hq, rfl⟩ := Option.map_eq_some_iff.mp hstep
      exact h.stays (h.endpoint.step hq) (stays_of_close hq)

/-! ## The end of a close handler -/

/-- Time, the timer of a node and the disconnect it waits for: nothing that a server has to
answer to a `terminate`. -/
def unanswered (client : Nat) : ClosingEvent → Bool
  | .wait _ => true
  | .timer c | .disconnected c => decide (c = client)
  | _ => false

variable (host settings) in
/-- A close handler that has given the manager back is done as soon as the manager is
disconnected. -/
theorem ends_released (ht : w.teardown client = some t) (hphase : t.phase ≠ .terminating) :
    ∃ es w', Transition.run (step host settings) w es = some w' ∧
      (∀ e ∈ es, unanswered client e = true) ∧ w'.now = w.now ∧ w'.isDone client = true := by
  cases hreleased : t.phase with
  | terminating => exact absurd hreleased hphase
  | disconnecting m =>
      have hstep : w.step host settings (.disconnected client) = some
          { w.moves client { t with phase := .closed } with dones := client :: w.dones } := by
        simp only [step, ht, Option.bind_some, hreleased]
      refine ⟨[.disconnected client], _, Transition.run_cons.mpr ⟨_, hstep, rfl⟩, ?_, rfl, ?_⟩
      · intro e he
        rw [List.mem_singleton.mp he]
        exact decide_eq_true rfl
      · exact (isDone_moves w client _ client).trans (if_pos rfl)
  | closed =>
      refine ⟨[], w, rfl, fun e he => ?_, rfl, ?_⟩
      · cases he
      · rw [isDone_of_teardown ht, hreleased]
        rfl

variable (host settings) in
/-- A node that holds the manager can give it back. -/
theorem releases_of_held (w : ClosingNodes) (t : Teardown) (hheld : client ∈ w.endpoint.holders) :
    ∃ w' u, w.releases host settings client t = some w' ∧ w'.teardown client = some u ∧
      u.phase ≠ .terminating ∧ w'.now = w.now := by
  obtain ⟨q, hq⟩ : ∃ q, w.endpoint.step host settings (.leave client) = some q :=
    ⟨_, if_pos hheld⟩
  unfold ClosingNodes.releases
  rw [hq, Option.map_some]
  split
  next m _ _ =>
    refine ⟨_, { t with phase := .disconnecting m }, rfl, ?_, (by intro heq; cases heq), rfl⟩
    exact (teardown_moves w client _ client).trans (if_pos rfl)
  next =>
    refine ⟨_, { t with phase := .closed }, rfl, ?_, (by intro heq; cases heq), rfl⟩
    exact (teardown_moves w client _ client).trans (if_pos rfl)

/-- Whatever the server answers, a close handler can go on to its `done`, and no later than two
seconds after it began. -/
theorem ends (h : w.Kept) (ht : w.teardown client = some t) :
    ∃ es w', Transition.run (step host settings) w es = some w' ∧
      (∀ e ∈ es, unanswered client e = true) ∧
      w'.now ≤ max w.now (t.began + closeTerminateTimeoutMs) ∧ w'.isDone client = true := by
  by_cases hphase : t.phase = .terminating
  · have hheld := (h.nodes client t ht).holds.mpr hphase
    let ms := t.began + closeTerminateTimeoutMs - w.now
    have hdue : t.began + closeTerminateTimeoutMs ≤ w.now + ms := by omega
    obtain ⟨w₂, u, hreleases, hu, hreleased, hnow⟩ :=
      releases_of_held host settings { w with now := w.now + ms } t hheld
    have htimer : step host settings { w with now := w.now + ms } (.timer client) = some w₂ := by
      simp only [step, ht, Option.bind_some]
      rw [if_pos ⟨hphase, hdue⟩]
      exact hreleases
    obtain ⟨es, w', hrun, hown, hlast, hdone⟩ :=
      ends_released host settings hu hreleased
    refine ⟨.wait ms :: .timer client :: es, w', ?_, ?_, ?_, hdone⟩
    · exact Transition.run_cons.mpr ⟨_, rfl, Transition.run_cons.mpr ⟨w₂, htimer, hrun⟩⟩
    · intro e he
      rcases List.mem_cons.mp he with rfl | he
      · rfl
      · rcases List.mem_cons.mp he with rfl | he
        · exact decide_eq_true rfl
        · exact hown e he
    · have hw' : w'.now = w.now + ms := hlast.trans hnow
      omega
  · obtain ⟨es, w', hrun, hown, hnow, hdone⟩ :=
      ends_released host settings ht hphase
    exact ⟨es, w', hrun, hown, hnow.trans_le (le_max_left _ _), hdone⟩

/-! ## Every run -/

/-- A close handler told all there was to terminate. It gives the manager back, and hears of it no
more, when all of that has settled or two seconds are over, can always go on to its `done`, and
calls it once. No manager is told to disconnect while the endpoint is there before each of its
nodes has come so far, and a node waits for no disconnect but that of its own manager. -/
structure TornDown (host : Host) (settings : EndpointSettings) (w : ClosingNodes) : Prop where
  told : ∀ c t, w.teardown c = some t → t.told = t.work.handles.reduceOption ∧
    (t.work.InOrder → ∀ x ∈ t.work.liveSubscriptions, .subscription x ∈ t.told)
  released : ∀ c t, w.teardown c = some t → t.phase ≠ .terminating →
    (t.pending = [] ∨ t.began + closeTerminateTimeoutMs ≤ w.now) ∧
      c ∉ w.endpoint.holders ∧ (w.endpoint.closed = false → c ∉ w.endpoint.statusCallbacks)
  last : w.endpoint.closed = false → ∀ m ∈ w.endpoint.disconnects, ∀ c,
    InsertionMap.get? c w.endpoint.given = some m →
      ∃ t, w.teardown c = some t ∧ t.phase ≠ .terminating
  awaited : ∀ c t m, w.teardown c = some t → t.phase = .disconnecting m →
    m ∈ w.endpoint.disconnects ∧ InsertionMap.get? c w.endpoint.given = some m
  ends : ∀ c t, w.teardown c = some t → ∃ es w', Transition.run (step host settings) w es = some w' ∧
    (∀ e ∈ es, unanswered c e = true) ∧
    w'.now ≤ max w.now (t.began + closeTerminateTimeoutMs) ∧ w'.isDone c = true
  done : ∀ c, w.dones.count c = if w.isDone c = true then 1 else 0

theorem tornDown_of_kept (h : w.Kept) : w.TornDown host settings where
  told := by
    intro c t ht
    have htold := (h.nodes c t ht).told
    refine ⟨htold, fun horder x hx => ?_⟩
    rw [htold]
    exact NodeWork.told_of_inOrder horder x hx
  released := by
    intro c t ht hphase
    have hnode := h.nodes c t ht
    have hgone : c ∉ w.endpoint.holders := fun hheld => hphase (hnode.holds.mp hheld)
    refine ⟨hnode.through hphase, hgone, fun hopen => ?_⟩
    rwa [h.endpoint.registered hopen]
  last := by
    intro hopen m hm c hc
    have hgone : c ∉ w.endpoint.holders := by
      intro hheld
      have hshared := (h.endpoint.current hopen c hheld).symm.trans hc
      have hcount := h.endpoint.disconnected m
      rw [if_neg fun hboth => hboth.2 hshared] at hcount
      exact absurd hm (List.count_eq_zero.mp hcount)
    have hkey : c ∈ InsertionMap.keys w.endpoint.given :=
      InsertionMap.get?_isSome_iff.mp (by rw [hc]; rfl)
    obtain ⟨t, ht⟩ := Option.isSome_iff_exists.mp ((h.given c hkey).resolve_left hgone)
    exact ⟨t, ht, fun hphase => hgone ((h.nodes c t ht).holds.mpr hphase)⟩
  awaited := fun c t m ht hphase => (h.nodes c t ht).awaited m hphase
  ends := fun c t ht => ends h ht
  done := h.done

/-- Nodes that share a manager are torn down as they should, in every run of deployments, closes,
answers and timers. -/
theorem teardown_run {es : List ClosingEvent} (hrun : Transition.run (step host settings) {} es =
    some w) : w.TornDown host settings :=
  tornDown_of_kept (kept_step.run kept_init (Transition.along_of_forall (fun _ _ => trivial) _ _) hrun)

/-- Two nodes close at the same time; the server answers one of them, and the other one gives up
after two seconds and disconnects the manager. -/
def unansweredClose : List ClosingEvent :=
  [.deploy 0 (fun _ => false) SharedEndpoint.bareClient,
    .deploy 1 (fun _ => false) SharedEndpoint.bareClient,
    .close 0 (.event { monitoredItem := some 7, subscription := some 3 }),
    .close 1 (.client { monitorItems := [(js "i=2258", 5)], subscription := some 4 }),
    .settles 0 (.item 7), .settles 0 (.subscription 3), .wait 2000, .timer 1,
    .settles 1 (.item 5), .disconnected 1]

theorem teardown_unansweredClose :
    ∃ w, Transition.run (step .inert SharedEndpoint.bareEndpoint) {} unansweredClose = some w ∧
      w.dones = [1, 0] ∧ w.TornDown .inert SharedEndpoint.bareEndpoint := by
  have hruns : (Transition.run (step .inert SharedEndpoint.bareEndpoint) {} unansweredClose).map
      (fun w => w.dones) = some [1, 0] := rfl
  obtain ⟨w, hrun, hdones⟩ := Option.map_eq_some_iff.mp hruns
  exact ⟨w, hrun, hdones, teardown_run hrun⟩

end ClosingNodes

end OpcUaSuite.Nodes
