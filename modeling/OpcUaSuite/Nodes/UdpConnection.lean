import OpcUaSuite.Nodes.SharedTransport
import OpcUaSuite.Transports.UdpSockets

/-!
# A UDP connection and its sockets

The connection node from its first consumer to its own close, down to the sockets of the
transports it creates: whose socket is in use, what a publisher that is ready sends through,
and what is left when the node calls `done`.
-/

namespace OpcUaSuite.Nodes

open Js ByteCodec PubSub Transports

/-! ## The model -/

/-- The close handler of the connection node: not called yet, in the `await` of a transport, or
over. -/
inductive CloseHandler
  | idle
  | awaits (transport : Nat)
  | ended
deriving DecidableEq

/-- A connection node with the transports it created. `connecting` is the transport whose
`connect` waits in the microtask queue, and `dones` counts the calls of `done`. -/
structure UdpConnection where
  shared : SharedTransport := {}
  connecting : Option Nat := none
  transports : Nat → UdpTransport := fun _ => {}
  handler : CloseHandler := .idle
  dones : Nat := 0

/-- A call of a consumer, time or a timer, the microtask, an event of a socket, or the close of
the node. -/
inductive UdpConnectionEvent
  | call (event : SharedTransportEvent)
  | connects
  | socket (transport s : Nat) (event : SocketEvent)
  | close
deriving DecidableEq

namespace UdpConnection

variable (w : UdpConnection)

/-- Consumers come while the node is open; all else happens in a turn of its own, after the
microtasks of the turn before. The constructor of a UDP transport does not throw. -/
def admits : SharedTransportEvent → Bool
  | .acquire _ creates => creates && decide (w.handler = .idle)
  | .start _ => decide (w.handler = .idle)
  | .release _ | .unregister _ | .wait _ | .fire _ => w.connecting.isNone
  | .emits _ _ | .rejected _ => false

/-- The transport that a call takes from the node is closed, and one that it creates is
connected in a microtask. -/
def follows (shared : SharedTransport) : UdpConnection :=
  match w.shared.node.sharedTransport, shared.node.sharedTransport with
  | some t, none =>
      { w with
        shared := shared
        transports := Function.update w.transports t (w.transports t).close }
  | none, some t => { w with shared := shared, connecting := some t }
  | _, _ => { w with shared := shared }

/-- The end of the close handler. -/
def finish : UdpConnection :=
  { w with
    shared := { w.shared with node := { w.shared.node with refCount := 0, statusCallbacks := [] } }
    handler := .ended
    dones := w.dones + 1 }

/-- The close handler up to its `await`; the promise of a transport without a socket is
resolved at once. -/
def closes : UdpConnection :=
  let shared := w.shared.clearGraceTimer
  match shared.node.sharedTransport with
  | none => finish { w with shared := shared }
  | some t =>
      let w' := { w with
        shared := { shared with
          node := { shared.node with sharedTransport := none, transportConnected := false }
          closing := t :: shared.closing }
        transports := Function.update w.transports t (w.transports t).close
        handler := .awaits t }
      if (w.transports t).socket.isSome then w' else w'.finish

/-- What the connection node hears of its transport. -/
def hears (t : Nat) (output : SocketOutput) (shared : SharedTransport) : SharedTransport :=
  match output with
  | .connected => shared.emits t .connected
  | .disconnected => shared.emits t .disconnected
  | .error => shared.emits t .error
  | .rejected => shared.notify .error

/-- The close handler goes on when the socket it waits for is closed. -/
def resumes (t : Nat) (output : SocketOutput) : UdpConnection :=
  if w.handler = .awaits t ∧ output = .disconnected then w.finish else w

/-- One event. -/
def step : UdpConnectionEvent → Option UdpConnection
  | .call event =>
      if w.admits event then (w.shared.step event).map fun shared => w.follows shared else none
  | .connects =>
      w.connecting.map fun t =>
        { w with
          connecting := none
          transports := Function.update w.transports t (w.transports t).connect }
  | .socket t s event =>
      if w.connecting.isNone then
        ((w.transports t).handle s event).map fun (u, output) =>
          resumes { w with
            shared := hears t output w.shared
            transports := Function.update w.transports t u } t output
      else none
  | .close =>
      if w.connecting.isNone && decide (w.handler = .idle) then some w.closes else none

/-! ## The invariant -/

/-- The transport of an open node is connecting or has a socket in use, which is bound exactly
when the node heard so; the socket of every other transport was told to close. -/
structure SocketsKept (w : UdpConnection) : Prop where
  shared : w.handler = .idle → w.shared.Kept 0
  sealed : w.handler ≠ .idle → w.shared.node.sharedTransport = none ∧ w.shared.timers = []
  fresh : ∀ t, w.shared.created ≤ t → w.transports t = {}
  connecting : ∀ t, w.connecting = some t →
    w.shared.node.sharedTransport = some t ∧ w.transports t = {} ∧ w.shared.lastStatus t = none
  current : ∀ t, w.shared.node.sharedTransport = some t → w.connecting = none →
    ∃ state, UdpTransport.Opened (w.transports t) state ∧
      (w.shared.lastStatus t = some .connected ↔ state = .bound)
  others : ∀ t, t < w.shared.created → w.shared.node.sharedTransport ≠ some t →
    ∃ state, UdpTransport.Shut (w.transports t) state
  awaits : ∀ t, w.handler = .awaits t → UdpTransport.Shut (w.transports t) .closing
  ended : w.handler = .ended → w.shared.node.refCount = 0 ∧ w.shared.node.statusCallbacks = []
  dones : w.dones = if w.handler = .ended then 1 else 0

theorem socketsKept_init : SocketsKept {} where
  shared _ := SharedTransport.kept_init
  sealed h := absurd rfl h
  fresh _ _ := rfl
  connecting := by
    intro t ht
    cases ht
  current := by
    intro t ht
    cases ht
  others := by
    intro t ht
    cases ht
  awaits := by
    intro t ht
    cases ht
  ended := by
    intro h
    cases h
  dones := rfl

/-! ## Calls -/

variable {w} {w' : UdpConnection} {s s' : SharedTransport} {event : SharedTransportEvent}

/-- A call leaves the transport alone, or it is the first acquire, or the grace timer. -/
theorem call_cases (hadmits : w.admits event = true) (hstep : s.step event = some s') :
    s'.lastStatus = s.lastStatus ∧
    ((s'.node.sharedTransport = s.node.sharedTransport ∧ s'.created = s.created) ∨
      (s.node.sharedTransport = none ∧ s'.node.sharedTransport = some s.created ∧
        s'.created = s.created + 1 ∧ w.handler = .idle) ∨
      (∃ t, s.node.sharedTransport = some t ∧ s'.node.sharedTransport = none ∧
        s'.created = s.created ∧ w.connecting = none)) := by
  cases event with
  | acquire consumer creates =>
      simp only [admits, Bool.and_eq_true, decide_eq_true_eq] at hadmits
      obtain ⟨rfl, hidle⟩ := hadmits
      cases hstep
      cases hshared : s.node.sharedTransport with
      | some t =>
          rw [SharedTransport.acquire_shared hshared]
          exact ⟨rfl, Or.inl ⟨hshared, rfl⟩⟩
      | none =>
          rw [SharedTransport.acquire_creates hshared]
          exact ⟨rfl, Or.inr (Or.inl ⟨rfl, rfl, rfl, hidle⟩)⟩
  | release consumer =>
      simp only [SharedTransport.step] at hstep
      split at hstep
      next x _ =>
        cases hstep
        rw [SharedTransport.release_eq]
        split
        next => exact ⟨rfl, Or.inl ⟨rfl, rfl⟩⟩
        next => exact ⟨rfl, Or.inl ⟨rfl, rfl⟩⟩
      next => cases hstep
  | start publisher =>
      cases hstep
      rw [SharedTransport.startPublisher_eq]
      exact ⟨rfl, Or.inl ⟨rfl, rfl⟩⟩
  | unregister publisher =>
      cases hstep
      exact ⟨rfl, Or.inl ⟨rfl, rfl⟩⟩
  | wait ms =>
      cases hstep
      exact ⟨rfl, Or.inl ⟨rfl, rfl⟩⟩
  | fire handle =>
      have hnone : w.connecting = none := Option.isNone_iff_eq_none.mp hadmits
      simp only [SharedTransport.step] at hstep
      split at hstep
      next timer _ =>
        split at hstep
        next =>
          cases hstep
          cases hshared : s.node.sharedTransport with
          | none =>
              rw [SharedTransport.fire_none hshared]
              exact ⟨rfl, Or.inl ⟨hshared, rfl⟩⟩
          | some t =>
              by_cases hzero : s.node.refCount = 0
              · rw [SharedTransport.fire_some hshared hzero]
                exact ⟨rfl, Or.inr (Or.inr ⟨t, rfl, rfl, rfl, hnone⟩)⟩
              · simp only [SharedTransport.graceTimerFires, hshared, if_neg hzero]
                exact ⟨trivial, Or.inl ⟨trivial, trivial⟩⟩
        next => cases hstep
      next => cases hstep
  | emits t status => cases hadmits
  | rejected t => cases hadmits

/-- A node that closes starts no timer, and a closed one counts no consumer. -/
theorem sealed_step (hadmits : w.admits event = true) (hhandler : w.handler ≠ .idle)
    (hstep : s.step event = some s') (hnone : s.node.sharedTransport = none)
    (htimers : s.timers = []) :
    s'.timers = [] ∧ (s.node.refCount = 0 → s'.node.refCount = 0) ∧
      (s.node.statusCallbacks = [] → s'.node.statusCallbacks = []) := by
  cases event with
  | acquire consumer creates =>
      simp only [admits, Bool.and_eq_true, decide_eq_true_eq] at hadmits
      exact absurd hadmits.2 hhandler
  | start publisher => exact absurd (of_decide_eq_true hadmits) hhandler
  | release consumer =>
      simp only [SharedTransport.step] at hstep
      split at hstep
      next x _ =>
        cases hstep
        rw [SharedTransport.release_eq, if_neg]
        · refine ⟨htimers, fun hzero => ?_, fun hcallbacks => hcallbacks⟩
          change s.node.refCount - 1 = 0
          omega
        · rintro ⟨-, hsome⟩
          change s.node.sharedTransport.isSome = true at hsome
          rw [hnone] at hsome
          cases hsome
      next => cases hstep
  | unregister publisher =>
      cases hstep
      refine ⟨htimers, fun hzero => hzero, fun hcallbacks => ?_⟩
      change s.node.statusCallbacks.filter _ = []
      rw [hcallbacks]
      rfl
  | wait ms =>
      cases hstep
      exact ⟨htimers, fun hzero => hzero, fun hcallbacks => hcallbacks⟩
  | fire handle =>
      simp only [SharedTransport.step, htimers, List.find?_nil] at hstep
      cases hstep
  | emits t status => cases hadmits
  | rejected t => cases hadmits

theorem follows_same {shared : SharedTransport}
    (h : shared.node.sharedTransport = w.shared.node.sharedTransport) :
    w.follows shared = { w with shared := shared } := by
  unfold follows
  rw [h]
  cases w.shared.node.sharedTransport <;> rfl

/-- An open node stays lawful, since no acquire throws. -/
theorem kept_shared (h : w.SocketsKept) (hadmits : w.admits event = true)
    (hstep : w.shared.step event = some s') (hidle : w.handler = .idle) : s'.Kept 0 := by
  rcases SharedTransport.kept_step (h.shared hidle) hstep with ⟨-, hkept⟩ | ⟨hthrows, -⟩
  · exact hkept
  · obtain ⟨-, consumer, rfl⟩ := hthrows
    cases hadmits

/-- The first acquire leaves a transport whose `connect` is still to run. -/
theorem kept_acquires (h : w.SocketsKept) (hkept : s'.Kept 0)
    (hstatus : s'.lastStatus = w.shared.lastStatus)
    (hnone : w.shared.node.sharedTransport = none)
    (hnew : s'.node.sharedTransport = some w.shared.created)
    (hcreated : s'.created = w.shared.created + 1) (hidle : w.handler = .idle) :
    (w.follows s').SocketsKept := by
  have hfollows : w.follows s' =
      { w with shared := s', connecting := some w.shared.created } := by
    simp only [follows, hnone, hnew]
  rw [hfollows]
  constructor
  case shared => exact fun _ => hkept
  case sealed => exact fun hhandler => absurd hidle hhandler
  case fresh =>
    intro t ht
    change s'.created ≤ t at ht
    exact h.fresh t (by omega)
  case connecting =>
    rintro t ⟨⟩
    exact ⟨hnew, h.fresh _ (le_refl _),
      (congrFun hstatus _).trans ((h.shared hidle).unheard _ (le_refl _))⟩
  case current =>
    intro t _ hconnecting
    cases hconnecting
  case others =>
    intro t ht hother
    change s'.created > t at ht
    change s'.node.sharedTransport ≠ some t at hother
    have hne : w.shared.created ≠ t := fun heq => hother (heq ▸ hnew)
    refine h.others t (by omega) ?_
    rw [hnone]
    intro heq
    cases heq
  case awaits => exact h.awaits
  case ended =>
    intro hover
    cases hidle.symm.trans hover
  case dones => exact h.dones

/-- A transport that is taken from the node is told to close its socket. -/
theorem others_close (h : w.SocketsKept) {t : Nat} (hold : w.shared.node.sharedTransport = some t)
    (hconnecting : w.connecting = none) {u : Nat} (hu : u < w.shared.created) :
    ∃ state, UdpTransport.Shut
      (Function.update w.transports t (w.transports t).close u) state := by
  by_cases heq : u = t
  · subst heq
    obtain ⟨state, hopened, -⟩ := h.current u hold hconnecting
    rw [Function.update_self]
    exact ⟨.closing, UdpTransport.shut_close hopened⟩
  · rw [Function.update_of_ne heq]
    refine h.others u hu fun hcurrent => heq ?_
    exact Option.some.inj (hcurrent.symm.trans hold)

/-- The grace timer closes the transport, which nobody holds any more. -/
theorem kept_expires (h : w.SocketsKept) (hshared : w.handler = .idle → s'.Kept 0) {t : Nat}
    (hold : w.shared.node.sharedTransport = some t) (hnone : s'.node.sharedTransport = none)
    (hcreated : s'.created = w.shared.created) (hconnecting : w.connecting = none) :
    (w.follows s').SocketsKept := by
  have hfollows : w.follows s' = { w with
      shared := s', transports := Function.update w.transports t (w.transports t).close } := by
    simp only [follows, hold, hnone]
  have hidle : w.handler = .idle := by
    by_contra hhandler
    cases hold.symm.trans (h.sealed hhandler).1
  have hlt : t < w.shared.created := ((h.shared hidle).current t hold).1
  rw [hfollows]
  constructor
  case shared => exact hshared
  case sealed => exact fun hhandler => absurd hidle hhandler
  case fresh =>
    intro u hu
    change s'.created ≤ u at hu
    have hne : u ≠ t := by omega
    exact (Function.update_of_ne hne _ _).trans (h.fresh u (by omega))
  case connecting =>
    intro u hu
    cases hconnecting.symm.trans hu
  case current =>
    intro u hu _
    cases hnone.symm.trans hu
  case others =>
    intro u hu _
    change u < s'.created at hu
    exact others_close h hold hconnecting (by omega)
  case awaits =>
    intro u hu
    cases hidle.symm.trans hu
  case ended =>
    intro hover
    cases hidle.symm.trans hover
  case dones => exact h.dones

theorem kept_call (h : w.SocketsKept) (hadmits : w.admits event = true)
    (hstep : w.shared.step event = some s') : (w.follows s').SocketsKept := by
  have hshared := kept_shared h hadmits hstep
  obtain ⟨hstatus, ⟨hsame, hcreated⟩ | ⟨hnone, hnew, hcreated, hidle⟩ |
    ⟨t, hold, hnone, hcreated, hconnecting⟩⟩ := call_cases hadmits hstep
  · rw [follows_same hsame]
    constructor
    case shared => exact hshared
    case sealed =>
      intro hhandler
      obtain ⟨hshut, htimers⟩ := h.sealed hhandler
      exact ⟨hsame.trans hshut, (sealed_step hadmits hhandler hstep hshut htimers).1⟩
    case fresh =>
      intro t ht
      exact h.fresh t (hcreated ▸ ht)
    case connecting =>
      intro t ht
      obtain ⟨hcurrent, hclean, hunheard⟩ := h.connecting t ht
      exact ⟨hsame.trans hcurrent, hclean, (congrFun hstatus t).trans hunheard⟩
    case current =>
      intro t ht hnone
      obtain ⟨state, hopened, hbound⟩ := h.current t (hsame ▸ ht) hnone
      refine ⟨state, hopened, ?_⟩
      rw [show s'.lastStatus t = w.shared.lastStatus t from congrFun hstatus t]
      exact hbound
    case others =>
      intro t ht hother
      exact h.others t (hcreated ▸ ht) (hsame ▸ hother)
    case awaits => exact h.awaits
    case ended =>
      intro hover
      have hhandler : w.handler ≠ .idle := by
        rw [hover]
        intro hidle
        cases hidle
      obtain ⟨hshut, htimers⟩ := h.sealed hhandler
      obtain ⟨-, hzero, hcallbacks⟩ := sealed_step hadmits hhandler hstep hshut htimers
      exact ⟨hzero (h.ended hover).1, hcallbacks (h.ended hover).2⟩
    case dones => exact h.dones
  · exact kept_acquires h (hshared hidle) hstatus hnone hnew hcreated hidle
  · exact kept_expires h hshared hold hnone hcreated hconnecting

/-! ## Microtasks, sockets and the close of the node -/

theorem kept_connects (h : w.SocketsKept) {t : Nat} (hconnecting : w.connecting = some t) :
    SocketsKept { w with
      connecting := none
      transports := Function.update w.transports t (w.transports t).connect } := by
  obtain ⟨hcurrent, hclean, hunheard⟩ := h.connecting t hconnecting
  have hidle : w.handler = .idle := by
    by_contra hhandler
    cases hcurrent.symm.trans (h.sealed hhandler).1
  have hlt : t < w.shared.created := ((h.shared hidle).current t hcurrent).1
  constructor
  case shared => exact h.shared
  case sealed => exact h.sealed
  case fresh =>
    intro u hu
    change w.shared.created ≤ u at hu
    have hne : u ≠ t := by omega
    exact (Function.update_of_ne hne _ _).trans (h.fresh u hu)
  case connecting =>
    intro u hu
    cases hu
  case current =>
    intro u hu _
    obtain rfl : u = t := Option.some.inj (hu.symm.trans hcurrent)
    refine ⟨.binding, ?_, ?_⟩
    · change UdpTransport.Opened (Function.update w.transports u (w.transports u).connect u) _
      rw [Function.update_self, hclean]
      exact UdpTransport.opened_connect
    · change w.shared.lastStatus u = some .connected ↔ _
      rw [hunheard]
      exact iff_of_false (by intro heq; cases heq) (by intro heq; cases heq)
  case others =>
    intro u hu hother
    have hne : u ≠ t := by
      rintro rfl
      exact hother hcurrent
    obtain ⟨state, hshut⟩ := h.others u hu hother
    refine ⟨state, ?_⟩
    change UdpTransport.Shut (Function.update w.transports t _ u) state
    rwa [Function.update_of_ne hne]
  case awaits =>
    intro u hu
    cases hidle.symm.trans hu
  case ended => exact h.ended
  case dones => exact h.dones

/-- The end of the close handler, once the node has no transport and no timer. -/
theorem kept_finish (hnone : w.shared.node.sharedTransport = none) (htimers : w.shared.timers = [])
    (hconnecting : w.connecting = none) (hfresh : ∀ t, w.shared.created ≤ t → w.transports t = {})
    (hothers : ∀ t, t < w.shared.created → ∃ state, UdpTransport.Shut (w.transports t) state)
    (hdones : w.dones = 0) : w.finish.SocketsKept where
  shared hidle := by cases hidle
  sealed _ := ⟨hnone, htimers⟩
  fresh := hfresh
  connecting := by
    intro t ht
    cases hconnecting.symm.trans ht
  current := by
    intro t ht
    cases hnone.symm.trans ht
  others := fun t ht _ => hothers t ht
  awaits := by
    intro t ht
    cases ht
  ended := fun _ => ⟨rfl, rfl⟩
  dones := by
    change w.dones + 1 = 1
    rw [hdones]

/-- `clearTimeout` leaves no timer of an open node. -/
theorem timers_clear (h : s.Kept 0) : s.clearGraceTimer.timers = [] := by
  change s.timers.filter _ = []
  rcases h.grace with ⟨hnone, -⟩ | ⟨timer, htimers, hgrace, -⟩
  · rw [hnone]
    rfl
  · rw [htimers, hgrace]
    exact List.filter_cons_of_neg (by simp)

theorem kept_closes (h : w.SocketsKept) (hconnecting : w.connecting = none)
    (hidle : w.handler = .idle) : w.closes.SocketsKept := by
  have hkept := h.shared hidle
  have htimers := timers_clear hkept
  have hdones : w.dones = 0 := by
    rw [h.dones, if_neg]
    intro hover
    cases hidle.symm.trans hover
  unfold closes
  dsimp only
  split
  next hnone =>
    have hshared : w.shared.node.sharedTransport = none := hnone
    refine kept_finish hnone htimers hconnecting h.fresh (fun t ht => ?_) hdones
    refine h.others t ht ?_
    rw [hshared]
    intro heq
    cases heq
  next t hsome =>
    have hshared : w.shared.node.sharedTransport = some t := hsome
    have hlt : t < w.shared.created := (hkept.current t hshared).1
    obtain ⟨state, hopened, -⟩ := h.current t hshared hconnecting
    have hsocket : (w.transports t).socket.isSome = true := by rw [hopened.1]; rfl
    rw [if_pos hsocket]
    constructor
    case shared =>
      intro heq
      cases heq
    case sealed => exact fun _ => ⟨rfl, htimers⟩
    case fresh =>
      intro u hu
      change w.shared.created ≤ u at hu
      have hne : u ≠ t := by omega
      exact (Function.update_of_ne hne _ _).trans (h.fresh u hu)
    case connecting =>
      intro u hu
      cases hconnecting.symm.trans hu
    case current =>
      intro u hu
      cases hu
    case others => exact fun u hu _ => others_close h hshared hconnecting hu
    case awaits =>
      rintro u ⟨⟩
      change UdpTransport.Shut (Function.update w.transports t (w.transports t).close t) _
      rw [Function.update_self]
      exact UdpTransport.shut_close hopened
    case ended =>
      intro hover
      cases hover
    case dones => exact hdones

/-! ## Events of the sockets -/

variable {t : Nat} {output : SocketOutput} {state : SocketState}

/-- Hearing of a transport changes no member that says which one is current. -/
structure SameNode (s s' : SharedTransport) : Prop where
  sharedTransport : s'.node.sharedTransport = s.node.sharedTransport
  created : s'.created = s.created
  timers : s'.timers = s.timers
  refCount : s'.node.refCount = s.node.refCount
  statusCallbacks : s'.node.statusCallbacks = s.node.statusCallbacks

theorem sameNode_emits (s : SharedTransport) (t : Nat) (status : Status) :
    SameNode s (s.emits t status) := by
  by_cases hcurrent : s.node.sharedTransport = some t
  · rw [SharedTransport.emits_current hcurrent]
    exact ⟨rfl, rfl, rfl, rfl, rfl⟩
  · rw [SharedTransport.emits_other hcurrent]
    exact ⟨rfl, rfl, rfl, rfl, rfl⟩

theorem sameNode_hears (s : SharedTransport) (t : Nat) (output : SocketOutput) :
    SameNode s (hears t output s) := by
  cases output with
  | connected => exact sameNode_emits s t .connected
  | disconnected => exact sameNode_emits s t .disconnected
  | error => exact sameNode_emits s t .error
  | rejected => exact ⟨rfl, rfl, rfl, rfl, rfl⟩

theorem kept_hears (h : s.Kept 0) (ht : t < s.created) (output : SocketOutput) :
    (hears t output s).Kept 0 := by
  cases output with
  | connected => exact SharedTransport.kept_emits h ht .connected
  | disconnected => exact SharedTransport.kept_emits h ht .disconnected
  | error => exact SharedTransport.kept_emits h ht .error
  | rejected => exact SharedTransport.kept_notify h

theorem lastStatus_emits (s : SharedTransport) (t : Nat) (status : Status) (u : Nat) :
    (s.emits t status).lastStatus u =
      if u = t ∧ status ≠ .error then some status else s.lastStatus u := by
  by_cases hcurrent : s.node.sharedTransport = some t
  · rw [SharedTransport.emits_current hcurrent]
  · rw [SharedTransport.emits_other hcurrent]

/-- The transport in use is still in use, and bound once it says that it is connected. -/
theorem current_hears (h : UdpTransport.Opened (w.transports t) state)
    (hstatus : w.shared.lastStatus t = some .connected ↔ state = .bound) {k : Nat}
    {event : SocketEvent} {u : UdpTransport}
    (hevent : (w.transports t).handle k event = some (u, output)) :
    output ≠ .disconnected ∧ ∃ state', UdpTransport.Opened u state' ∧
      ((hears t output w.shared).lastStatus t = some .connected ↔ state' = .bound) := by
  rcases UdpTransport.opened_handle h hevent with ⟨rfl, rfl⟩ | ⟨hopened, rfl⟩ |
    ⟨hopened, hbinding, rfl⟩
  · refine ⟨(by intro heq; cases heq), state, h, ?_⟩
    rw [hears, lastStatus_emits, if_neg fun hboth => hboth.2 rfl]
    exact hstatus
  · refine ⟨(by intro heq; cases heq), .bound, hopened, ?_⟩
    rw [hears, lastStatus_emits, if_pos ⟨rfl, (by intro heq; cases heq)⟩]
    exact iff_of_true rfl rfl
  · refine ⟨(by intro heq; cases heq), .unjoined, hopened, ?_⟩
    change w.shared.lastStatus t = some .connected ↔ _
    rw [hstatus, hbinding]
    exact iff_of_false (by intro heq; cases heq) (by intro heq; cases heq)

/-- A socket reports something, before the close handler goes on. -/
theorem kept_reports (h : w.SocketsKept) (hconnecting : w.connecting = none) {k : Nat}
    {event : SocketEvent} {u : UdpTransport}
    (hevent : (w.transports t).handle k event = some (u, output))
    (hawaits : w.handler = .awaits t → output ≠ .disconnected) :
    SocketsKept { w with
      shared := hears t output w.shared
      transports := Function.update w.transports t u } := by
  have hlt : t < w.shared.created := by
    by_contra hge
    rw [h.fresh t (by omega), UdpTransport.handle_new] at hevent
    cases hevent
  have hsame := sameNode_hears w.shared t output
  have hother : ∀ {x}, x ≠ t → (hears t output w.shared).lastStatus x = w.shared.lastStatus x := by
    intro x hx
    cases output with
    | rejected => rfl
    | _ => exact (lastStatus_emits w.shared t _ x).trans (if_neg fun hboth => hx hboth.1)
  constructor
  case shared => exact fun hidle => kept_hears (h.shared hidle) hlt output
  case sealed =>
    intro hhandler
    exact ⟨hsame.sharedTransport.trans (h.sealed hhandler).1,
      hsame.timers.trans (h.sealed hhandler).2⟩
  case fresh =>
    intro x hx
    change (hears t output w.shared).created ≤ x at hx
    rw [hsame.created] at hx
    exact (Function.update_of_ne (by omega) _ _).trans (h.fresh x hx)
  case connecting =>
    intro x hx
    cases hconnecting.symm.trans hx
  case current =>
    intro x hx _
    replace hx : w.shared.node.sharedTransport = some x := hsame.sharedTransport.symm.trans hx
    obtain ⟨state, hopened, hstatus⟩ := h.current x hx hconnecting
    by_cases heq : x = t
    · subst heq
      obtain ⟨-, state', hopened', hstatus'⟩ := current_hears hopened hstatus hevent
      refine ⟨state', ?_, hstatus'⟩
      change UdpTransport.Opened (Function.update w.transports x u x) state'
      rwa [Function.update_self]
    · refine ⟨state, ?_, ?_⟩
      · change UdpTransport.Opened (Function.update w.transports t u x) state
        rwa [Function.update_of_ne heq]
      · change (hears t output w.shared).lastStatus x = some .connected ↔ _
        rwa [hother heq]
  case others =>
    intro x hx hnot
    change x < (hears t output w.shared).created at hx
    rw [hsame.created] at hx
    change (hears t output w.shared).node.sharedTransport ≠ some x at hnot
    rw [hsame.sharedTransport] at hnot
    obtain ⟨state, hshut⟩ := h.others x hx hnot
    by_cases heq : x = t
    · subst heq
      obtain ⟨hshut', -⟩ := UdpTransport.shut_handle hshut hevent
      refine ⟨.closed, ?_⟩
      change UdpTransport.Shut (Function.update w.transports x u x) _
      rwa [Function.update_self]
    · refine ⟨state, ?_⟩
      change UdpTransport.Shut (Function.update w.transports t u x) state
      rwa [Function.update_of_ne heq]
  case awaits =>
    intro x hx
    have hshut := h.awaits x hx
    by_cases heq : x = t
    · subst heq
      exact absurd (UdpTransport.shut_handle hshut hevent).2.2.2 (hawaits hx)
    · change UdpTransport.Shut (Function.update w.transports t u x) _
      rwa [Function.update_of_ne heq]
  case ended =>
    intro hover
    exact ⟨hsame.refCount.trans (h.ended hover).1, hsame.statusCallbacks.trans (h.ended hover).2⟩
  case dones => exact h.dones

/-- The socket that the close handler waits for closes, and the handler ends. -/
theorem kept_resumes (h : w.SocketsKept) (hconnecting : w.connecting = none) {k : Nat}
    {event : SocketEvent} {u : UdpTransport}
    (hevent : (w.transports t).handle k event = some (u, output)) (hawaits : w.handler = .awaits t) :
    SocketsKept (finish { w with
      shared := hears t output w.shared
      transports := Function.update w.transports t u }) := by
  have hsame := sameNode_hears w.shared t output
  have hhandler : w.handler ≠ .idle := by
    rw [hawaits]
    intro heq
    cases heq
  obtain ⟨hnone, htimers⟩ := h.sealed hhandler
  obtain ⟨hshut, -⟩ := UdpTransport.shut_handle (h.awaits t hawaits) hevent
  have hdones : w.dones = 0 := by
    rw [h.dones, if_neg]
    intro hover
    cases hawaits.symm.trans hover
  have hlt : t < w.shared.created := by
    by_contra hge
    rw [h.fresh t (by omega), UdpTransport.handle_new] at hevent
    cases hevent
  refine kept_finish (hsame.sharedTransport.trans hnone) (hsame.timers.trans htimers) hconnecting
    ?_ ?_ hdones
  · intro x hx
    change (hears t output w.shared).created ≤ x at hx
    rw [hsame.created] at hx
    exact (Function.update_of_ne (by omega) _ _).trans (h.fresh x hx)
  · intro x hx
    change x < (hears t output w.shared).created at hx
    rw [hsame.created] at hx
    change ∃ state, UdpTransport.Shut (Function.update w.transports t u x) state
    by_cases heq : x = t
    · subst heq
      rw [Function.update_self]
      exact ⟨.closed, hshut⟩
    · rw [Function.update_of_ne heq]
      refine h.others x hx ?_
      rw [hnone]
      intro hcurrent
      cases hcurrent

/-- What one event does to the invariant: it stays. -/
theorem kept_step {e : UdpConnectionEvent} (h : w.SocketsKept) (hstep : w.step e = some w') :
    w'.SocketsKept := by
  cases e with
  | call event =>
      simp only [step] at hstep
      split at hstep
      next hadmits =>
        obtain ⟨shared, hshared, rfl⟩ := Option.map_eq_some_iff.mp hstep
        exact kept_call h hadmits hshared
      next => cases hstep
  | connects =>
      obtain ⟨t, hconnecting, rfl⟩ := Option.map_eq_some_iff.mp hstep
      exact kept_connects h hconnecting
  | socket t k event =>
      simp only [step] at hstep
      split at hstep
      next hnone =>
        have hconnecting : w.connecting = none := Option.isNone_iff_eq_none.mp hnone
        obtain ⟨⟨u, output⟩, hevent, rfl⟩ := Option.map_eq_some_iff.mp hstep
        dsimp only
        unfold resumes
        split
        next hboth => exact kept_resumes h hconnecting hevent hboth.1
        next hneither =>
          exact kept_reports h hconnecting hevent fun hawaits houtput => hneither ⟨hawaits, houtput⟩
      next => cases hstep
  | close =>
      simp only [step] at hstep
      split at hstep
      next hopen =>
        simp only [Bool.and_eq_true, decide_eq_true_eq] at hopen
        cases hstep
        exact kept_closes h (Option.isNone_iff_eq_none.mp hopen.1) hopen.2
      next => cases hstep

/-! ## Every run -/

/-- The socket was not told to close. -/
def InUse (w : UdpConnection) (t s : Nat) : Prop :=
  (w.transports t).sockets[s]?.any SocketState.inUse = true

/-- No socket is in use but the one of the transport that the node hands out. A publisher that
is ready sends all its buffers through it, and it is bound. `done` is called once at most, and
nothing is left then; a close handler that is not over is ended by the socket it waits for. -/
structure SocketsLawful (w : UdpConnection) : Prop where
  once : ∀ t, (w.transports t).sockets.length ≤ 1
  owned : ∀ t s, w.InUse t s → w.shared.node.sharedTransport = some t
  sends : w.handler = .idle → ∀ x ∈ w.shared.held, x.consumer ∈ w.shared.node.statusCallbacks →
    w.shared.ready x.consumer = true →
      (w.transports x.transport).sockets = [.bound] ∧
        ∀ buffers, (w.transports x.transport).send buffers = buffers.map (.datagram 0)
  sealed : w.handler ≠ .idle → (∀ t s, ¬ w.InUse t s) ∧ w.shared.timers = []
  done : w.dones = if w.handler = .ended then 1 else 0
  ended : w.handler = .ended → w.shared.node.refCount = 0 ∧ w.shared.node.statusCallbacks = []
  ends : ∀ t, w.handler = .awaits t →
    ∃ w', w.step (.socket t 0 .closed) = some w' ∧ w'.handler = .ended

theorem inUse_zero {u : UdpTransport} {state : SocketState} (hu : u.sockets = [state]) {s : Nat}
    (h : u.sockets[s]?.any SocketState.inUse = true) : s = 0 ∧ state.inUse = true := by
  rw [hu] at h
  cases s with
  | zero => exact ⟨rfl, h⟩
  | succ s => cases h

/-- Every transport opened no socket yet, or it has one, which is in use or was told to close. -/
theorem sockets_cases (h : w.SocketsKept) (t : Nat) :
    w.transports t = {} ∨
      (w.shared.node.sharedTransport = some t ∧ ∃ state, (w.transports t).Opened state) ∨
      ∃ state, (w.transports t).Shut state := by
  by_cases hlt : t < w.shared.created
  · by_cases hcurrent : w.shared.node.sharedTransport = some t
    · cases hconnecting : w.connecting with
      | none =>
          obtain ⟨state, hopened, -⟩ := h.current t hcurrent hconnecting
          exact Or.inr (Or.inl ⟨hcurrent, state, hopened⟩)
      | some u =>
          obtain ⟨hu, hclean, -⟩ := h.connecting u hconnecting
          obtain rfl : u = t := Option.some.inj (hu.symm.trans hcurrent)
          exact Or.inl hclean
    · exact Or.inr (Or.inr (h.others t hlt hcurrent))
  · exact Or.inl (h.fresh t (not_lt.mp hlt))

theorem inUse_current (h : w.SocketsKept) {t s : Nat} (huse : w.InUse t s) :
    w.shared.node.sharedTransport = some t := by
  rcases sockets_cases h t with hclean | ⟨hcurrent, -⟩ | ⟨state, hshut, hfalse⟩
  · rw [InUse, hclean] at huse
    cases huse
  · exact hcurrent
  · have hsockets : (w.transports t).sockets = [state] := by rw [hshut]
    cases hfalse.symm.trans (inUse_zero hsockets huse).2

/-- A publisher that is ready was told so by the transport it holds, which is bound. -/
theorem bound_of_ready (h : w.SocketsKept) (hidle : w.handler = .idle) {x : Hold}
    (hx : x ∈ w.shared.held) (hregistered : x.consumer ∈ w.shared.node.statusCallbacks)
    (hready : w.shared.ready x.consumer = true) : w.transports x.transport = ⟨some 0, [.bound]⟩ := by
  have hkept := h.shared hidle
  have hcurrent := hkept.held x hx
  have hconnected : w.shared.lastStatus x.transport = some .connected := by
    rw [← hkept.status x.transport hcurrent, ← hkept.ready x.consumer hregistered]
    exact hready
  have hconnecting : w.connecting = none := by
    by_contra hne
    obtain ⟨u, hu⟩ := Option.ne_none_iff_exists'.mp hne
    obtain ⟨hsame, -, hunheard⟩ := h.connecting u hu
    obtain rfl : u = x.transport := Option.some.inj (hsame.symm.trans hcurrent)
    cases hunheard.symm.trans hconnected
  obtain ⟨state, hopened, hbound⟩ := h.current x.transport hcurrent hconnecting
  rw [hopened.1, hbound.mp hconnected]

/-- The close handler is ended by the socket it waits for. -/
theorem awaits_ends (h : w.SocketsKept) {t : Nat} (hawaits : w.handler = .awaits t) :
    ∃ w', w.step (.socket t 0 .closed) = some w' ∧ w'.handler = .ended := by
  have hconnecting : w.connecting = none := by
    by_contra hne
    obtain ⟨u, hu⟩ := Option.ne_none_iff_exists'.mp hne
    have hhandler : w.handler ≠ .idle := by
      rw [hawaits]
      intro heq
      cases heq
    cases (h.connecting u hu).1.symm.trans (h.sealed hhandler).1
  have hclosed : (w.transports t).handle 0 .closed =
      some (⟨none, [.closed]⟩, .disconnected) := by
    rw [(h.awaits t hawaits).1]
    rfl
  have hstep : w.step (.socket t 0 .closed) = some (finish { w with
      shared := hears t .disconnected w.shared
      transports := Function.update w.transports t ⟨none, [.closed]⟩ }) := by
    simp only [step, hconnecting, hclosed, Option.isNone_none, if_true, Option.map_some]
    rw [resumes, if_pos ⟨hawaits, rfl⟩]
  exact ⟨_, hstep, rfl⟩

theorem socketsLawful_of_kept (h : w.SocketsKept) : w.SocketsLawful where
  once := by
    intro t
    rcases sockets_cases h t with hclean | ⟨-, state, hopened, -⟩ | ⟨state, hshut, -⟩
    · rw [hclean]
      exact Nat.zero_le 1
    · rw [hopened]
      exact Nat.le_refl 1
    · rw [hshut]
      exact Nat.le_refl 1
  owned := fun t s huse => inUse_current h huse
  sends := by
    intro hidle x hx hregistered hready
    rw [bound_of_ready h hidle hx hregistered hready]
    exact ⟨rfl, fun buffers => rfl⟩
  sealed := by
    intro hhandler
    refine ⟨fun t s huse => ?_, (h.sealed hhandler).2⟩
    cases (inUse_current h huse).symm.trans (h.sealed hhandler).1
  done := h.dones
  ended := h.ended
  ends := fun t hawaits => awaits_ends h hawaits

/-- The sockets of a UDP connection are lawful after every run of the node. -/
theorem sockets_run {es : List UdpConnectionEvent} (hrun : Transition.run step {} es = some w) :
    w.SocketsLawful := by
  have hkeep : Transition.Preserves step (fun _ _ => True) SocketsKept :=
    fun _ _ _ h _ hstep => kept_step h hstep
  have halong : Transition.Along step (fun _ _ => True) {} es :=
    Transition.along_of_forall (fun _ _ => trivial) _ _
  exact socketsLawful_of_kept (hkeep.run socketsKept_init halong hrun)

/-- A publisher is replaced after the grace period, the first socket closes late, and the node
is closed while the second publisher still holds its transport. -/
def replacedAndClosed : List UdpConnectionEvent :=
  [.call (.start 1), .call (.acquire 1 true), .connects, .socket 0 0 (.bound true),
    .call (.release 1), .call (.wait 500), .call (.fire 0),
    .call (.start 2), .call (.acquire 2 true), .connects, .socket 1 0 (.bound true),
    .socket 0 0 .closed, .close, .call (.release 2), .socket 1 0 .closed]

theorem sockets_replacedAndClosed :
    ∃ w, Transition.run step {} replacedAndClosed = some w ∧ w.dones = 1 ∧
      (w.transports 1).sockets = [.closed] ∧ w.SocketsLawful :=
  ⟨_, rfl, rfl, rfl, @sockets_run _ replacedAndClosed rfl⟩

end UdpConnection

end OpcUaSuite.Nodes
