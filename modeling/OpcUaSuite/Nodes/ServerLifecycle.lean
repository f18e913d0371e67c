import OpcUaSuite.Lib.Transition
import OpcUaSuite.Nodes.ServerAtomic

/-!
# The life of a server node

opcua-server from its deployment to the end of its close handler: `startServer` up to
each of its awaits, the close handler that waits for it, and the messages that come in
between. Whatever the order, a closed node has given up its server.
-/

namespace OpcUaSuite.Server

open Js Variants

/-- What `startServer` waits for; in the end `startPromise` is fulfilled, as its rejection is
caught and reported one turn later. -/
inductive StartPhase
  | initializing
  | starting
  | stopping
  | failing (message : JsString)
  | settled
deriving DecidableEq

/-- What the close handler waits for. -/
inductive ClosePhase
  | unasked
  | awaitingStart
  | stopping
  | closed
deriving DecidableEq

structure Status where
  fill : JsString
  shape : JsString
  text : JsString
deriving DecidableEq

def stoppedStatus : Status := ⟨js "red", js "ring", js "stopped"⟩

def errorStatus : Status := ⟨js "red", js "ring", js "error"⟩

def portStatus (port : Nat) : Status := ⟨js "green", js "dot", js "Port " ++ decimal port⟩

/-- What a node has done, seen from outside: for a message what it sends and how it ends it. -/
inductive Emitted
  | status (s : Status)
  | log (text : JsString)
  | error (text : JsString)
  | sent (result : Except JsString Value)
  | done (error : Option JsString)
  | closed

/-- The variables of a node, with its address space and whether its port is bound. -/
structure ServerNode (S : Type) where
  space : S
  server : Bool
  nameSpace : Bool
  closing : Bool
  start : StartPhase
  close : ClosePhase
  listening : Bool
  shutdowns : Nat
  emitted : List Emitted

/-- What a call of the library comes to. -/
abbrev Outcome := Except JsString Unit

/-- A promise of the library settles, the event loop goes on, or a message comes. That the
engine has an address space is part of the first outcome; the outcome of a start comes
with the endpoint URL. -/
inductive ServerEvent
  | initialized (outcome : Outcome)
  | started (outcome : Outcome) (endpointUrl : Except JsString JsString)
  | stopped (outcome : Outcome)
  | reported
  | close
  | closeResumed
  | shutdown (outcome : Outcome)
  | input (msg : Value)

/-- What the node is configured with. -/
structure Settings where
  port : Nat
  allowMsgFunc : Bool

namespace ServerNode

variable {S N M : Type} (env : Environment) (space : AddressSpace S N M) (settings : Settings)
variable (n : ServerNode S)

def emit (es : List Emitted) : ServerNode S := { n with emitted := n.emitted ++ es }

/-- The catch block of `startServer`. -/
def fail (message : JsString) : ServerNode S :=
  ({ n with start := .failing message } : ServerNode S).emit
    [.error (js "Error starting server: " ++ message), .status errorStatus]

/-- The node is made, and `startServer` runs to its first await. -/
def deploy (s : S) (created : Outcome) : ServerNode S :=
  let n : ServerNode S :=
    { space := s, server := false, nameSpace := false, closing := false, start := .initializing,
      close := .unasked, listening := false, shutdowns := 0, emitted := [.status stoppedStatus] }
  match created with
  | .ok () => { n with server := true }
  | .error message => n.fail message

/-- The call of `server.shutdown()`. -/
def callShutdown : ServerNode S := { n with shutdowns := n.shutdowns + 1 }

/-- The server has started, and `close` has not been asked for. -/
def attach (endpointUrl : Except JsString JsString) : ServerNode S :=
  match endpointUrl with
  | .ok url => ({ n with start := .settled } : ServerNode S).emit
      [.status (portStatus settings.port), .log (js "OPC UA Server started on " ++ url)]
  | .error message => n.fail message

/-- `startServer` behind the start. A close that was asked for meanwhile ends it at once. -/
def startResumed (outcome : Outcome) (endpointUrl : Except JsString JsString) : ServerNode S :=
  match outcome with
  | .error message => n.fail message
  | .ok () =>
      let n := { n with listening := true }
      if n.closing then { n.callShutdown with start := .stopping } else attach settings n endpointUrl

/-- The close handler behind its wait for `startPromise`. -/
def closeResumed : ServerNode S :=
  if n.server then { n.callShutdown with close := .stopping }
  else ({ n with close := .closed } : ServerNode S).emit [.closed]

/-- The close handler behind its shutdown, which may have failed. -/
def closeEnds (outcome : Outcome) : ServerNode S :=
  let n : ServerNode S :=
    match outcome with
    | .ok () => ({ n with listening := false } : ServerNode S).emit
        [.status stoppedStatus, .log (js "OPC UA Server stopped")]
    | .error message => n.emit [.error (js "Error stopping server: " ++ message)]
  ({ n with server := false, nameSpace := false, close := .closed } : ServerNode S).emit [.closed]

/-- The input handler. -/
def input (msg : Value) : ServerNode S :=
  let (result, s) :=
    if n.server && n.nameSpace then inputHandler env space settings.allowMsgFunc msg n.space
    else (.error (js "Server not started"), n.space)
  match result with
  | .ok members => ({ n with space := s } : ServerNode S).emit [.sent (.ok members), .done none]
  | .error message => ({ n with space := s } : ServerNode S).emit
      [.error (js "Server command error: " ++ message), .sent (.error message), .done (some message)]

def step : ServerEvent → Option (ServerNode S)
  | .initialized outcome =>
      if n.start = .initializing then
        match outcome with
        | .ok () => some { n with nameSpace := true, start := .starting }
        | .error message => some (n.fail message)
      else none
  | .started outcome endpointUrl =>
      if n.start = .starting then some (startResumed settings n outcome endpointUrl) else none
  | .stopped outcome =>
      if n.start = .stopping then
        match outcome with
        | .ok () => some { n with listening := false, server := false, start := .settled }
        | .error message => some (n.fail message)
      else none
  | .reported =>
      match n.start with
      | .failing message => some (({ n with start := .settled } : ServerNode S).emit
          [.error (js "Critical error: " ++ message)])
      | _ => none
  | .close =>
      if n.close = .unasked then some { n with closing := true, close := .awaitingStart } else none
  | .closeResumed =>
      if n.close = .awaitingStart ∧ n.start = .settled then some n.closeResumed else none
  | .shutdown outcome => if n.close = .stopping then some (n.closeEnds outcome) else none
  | .input msg => some (input env space settings n msg)

end ServerNode

/-! ## What is kept -/

/-- A shutdown that the server rejects. -/
def ServerEvent.RejectsShutdown : ServerEvent → Prop
  | .stopped (.error _) | .shutdown (.error _) => True
  | _ => False

/-- `created` says whether there has been a server, `rejected` whether a shutdown failed. -/
structure Kept {S : Type} (created : Bool) (rejected : Prop) (n : ServerNode S) : Prop where
  closing : n.closing = true ↔ n.close ≠ .unasked
  serving : n.start = .initializing ∨ n.start = .starting ∨ n.start = .stopping → n.server = true
  overtaken : n.start = .stopping → n.closing = true ∧ 1 ≤ n.shutdowns
  closeStopping : n.close = .stopping → n.start = .settled ∧ n.server = true ∧ 1 ≤ n.shutdowns
  closed : n.close = .closed → n.start = .settled ∧ n.server = false
  listening : n.listening = true → n.server = true ∨ rejected
  uncreated : created = false → n.server = false ∧ n.shutdowns = 0
  shutDown : created = true → n.server = false → 1 ≤ n.shutdowns
  once : ¬rejected → n.shutdowns ≤ 1 ∧
    (n.server = true → n.start ≠ .stopping → n.close ≠ .stopping → n.shutdowns = 0)

namespace Kept

variable {S N M : Type} {env : Environment} {space : AddressSpace S N M} {settings : Settings}
variable {created : Bool} {rejected : Prop} {n n' : ServerNode S}

theorem deploy (s : S) (outcome : Outcome) :
    Kept outcome.toBool False (ServerNode.deploy s outcome) := by
  cases outcome with
  | ok u => constructor <;> simp [ServerNode.deploy, Except.toBool]
  | error message => constructor <;> simp [ServerNode.deploy, ServerNode.fail, ServerNode.emit, Except.toBool]

theorem mono (h : Kept created rejected n) {rejected' : Prop} (hle : rejected → rejected') :
    Kept created rejected' n :=
  { h with
    listening := fun hlistening => (h.listening hlistening).imp_right hle
    once := fun hnot => h.once fun hrejected => hnot (hle hrejected) }

theorem emit (h : Kept created rejected n) (es : List Emitted) : Kept created rejected (n.emit es) :=
  { h with }

/-- The start has failed, before a shutdown was called or by one that was rejected. -/
theorem fail (h : Kept created rejected n) (hclose : n.close ≠ .stopping) (hclosed : n.close ≠ .closed)
    (honce : ¬rejected → n.start ≠ .stopping) (message : JsString) :
    Kept created rejected (n.fail message) where
  closing := h.closing
  serving := by
    rintro (hstart | hstart | hstart) <;> cases hstart
  overtaken := by
    intro hstart
    cases hstart
  closeStopping := fun hstopping => absurd hstopping hclose
  closed := fun hclosed' => absurd hclosed' hclosed
  listening := h.listening
  uncreated := h.uncreated
  shutDown := h.shutDown
  once := fun hnot => ⟨(h.once hnot).1, fun hserver _ hstopping =>
    (h.once hnot).2 hserver (honce hnot) hstopping⟩

theorem not_closed_of_start (h : Kept created rejected n) (hstart : n.start ≠ .settled) :
    n.close ≠ .stopping ∧ n.close ≠ .closed :=
  ⟨fun hclose => hstart (h.closeStopping hclose).1, fun hclose => hstart (h.closed hclose).1⟩

theorem initialized (h : Kept created rejected n) (hstart : n.start = .initializing)
    {outcome : Outcome} (hstep : n.step env space settings (.initialized outcome) = some n') :
    Kept created rejected n' := by
  obtain ⟨hstopping, hclosed⟩ := h.not_closed_of_start (by rw [hstart]; decide)
  simp only [ServerNode.step, if_pos hstart] at hstep
  cases outcome with
  | error message =>
      cases hstep
      exact h.fail hstopping hclosed (fun _ => by rw [hstart]; decide) message
  | ok u =>
      cases hstep
      have hserver := h.serving (Or.inl hstart)
      exact
        { closing := h.closing
          serving := fun _ => hserver
          overtaken := fun hstart' => by cases hstart'
          closeStopping := fun hclose => absurd hclose hstopping
          closed := fun hclose => absurd hclose hclosed
          listening := h.listening
          uncreated := h.uncreated
          shutDown := h.shutDown
          once := fun hnot => ⟨(h.once hnot).1, fun hserver _ hclose =>
            (h.once hnot).2 hserver (by rw [hstart]; decide) hclose⟩ }

theorem started (h : Kept created rejected n) (hstart : n.start = .starting) (outcome : Outcome)
    (endpointUrl : Except JsString JsString) :
    Kept created rejected (n.startResumed settings outcome endpointUrl) := by
  obtain ⟨hstopping, hclosed⟩ := h.not_closed_of_start (by rw [hstart]; decide)
  have hnotStopping : n.start ≠ .stopping := by rw [hstart]; decide
  have hserver := h.serving (Or.inr (Or.inl hstart))
  cases outcome with
  | error message => exact h.fail hstopping hclosed (fun _ => hnotStopping) message
  | ok u =>
      have hbound : Kept created rejected { n with listening := true } :=
        { h with listening := fun _ => Or.inl hserver }
      simp only [ServerNode.startResumed]
      split
      next hclosing =>
        exact
          { closing := h.closing
            serving := fun _ => hserver
            overtaken := fun _ => ⟨hclosing, Nat.le_add_left 1 n.shutdowns⟩
            closeStopping := fun hclose => absurd hclose hstopping
            closed := fun hclose => absurd hclose hclosed
            listening := fun _ => Or.inl hserver
            uncreated := fun hcreated => by
              rw [(h.uncreated hcreated).1] at hserver
              cases hserver
            shutDown := fun _ _ => Nat.le_add_left 1 n.shutdowns
            once := fun hnot => by
              have hzero := (h.once hnot).2 hserver hnotStopping hstopping
              refine ⟨?_, fun _ hstart' => absurd rfl hstart'⟩
              change n.shutdowns + 1 ≤ 1
              omega }
      next =>
        cases endpointUrl with
        | error message => exact hbound.fail hstopping hclosed (fun _ => hnotStopping) message
        | ok url =>
            refine Kept.emit ?_ _
            exact
              { closing := h.closing
                serving := fun _ => hserver
                overtaken := fun hstart' => by cases hstart'
                closeStopping := fun hclose => absurd hclose hstopping
                closed := fun hclose => absurd hclose hclosed
                listening := fun _ => Or.inl hserver
                uncreated := h.uncreated
                shutDown := h.shutDown
                once := fun hnot => ⟨(h.once hnot).1, fun _ _ hclose =>
                  (h.once hnot).2 hserver hnotStopping hclose⟩ }

theorem stopped (h : Kept created rejected n) (hstart : n.start = .stopping) {outcome : Outcome}
    (hstep : n.step env space settings (.stopped outcome) = some n') :
    Kept created (rejected ∨ (ServerEvent.stopped outcome).RejectsShutdown) n' := by
  obtain ⟨hstopping, hclosed⟩ := h.not_closed_of_start (by rw [hstart]; decide)
  simp only [ServerNode.step, if_pos hstart] at hstep
  cases outcome with
  | error message =>
      cases hstep
      exact (h.mono Or.inl).fail hstopping hclosed (fun hnot => absurd (Or.inr trivial) hnot) message
  | ok u =>
      cases hstep
      have hserver := h.serving (Or.inr (Or.inr hstart))
      exact
        { closing := h.closing
          serving := by rintro (hstart' | hstart' | hstart') <;> cases hstart'
          overtaken := fun hstart' => by cases hstart'
          closeStopping := fun hclose => absurd hclose hstopping
          closed := fun hclose => absurd hclose hclosed
          listening := fun hlistening => by cases hlistening
          uncreated := fun hcreated => ⟨rfl, (h.uncreated hcreated).2⟩
          shutDown := fun _ _ => (h.overtaken hstart).2
          once := fun hnot => ⟨(h.once fun hr => hnot (Or.inl hr)).1, fun hserver' => by cases hserver'⟩ }

theorem close (h : Kept created rejected n) (hclose : n.close = .unasked) :
    Kept created rejected { n with closing := true, close := .awaitingStart } where
  closing := iff_of_true rfl (by intro hopen; cases hopen)
  serving := h.serving
  overtaken := fun hstart => ⟨rfl, (h.overtaken hstart).2⟩
  closeStopping := fun hclose' => by cases hclose'
  closed := fun hclose' => by cases hclose'
  listening := h.listening
  uncreated := h.uncreated
  shutDown := h.shutDown
  once := fun hnot => ⟨(h.once hnot).1, fun hserver hstart _ =>
    (h.once hnot).2 hserver hstart (by rw [hclose]; decide)⟩

theorem closeResumed (h : Kept created rejected n) (hclose : n.close = .awaitingStart)
    (hstart : n.start = .settled) : Kept created rejected n.closeResumed := by
  have hclosing : n.closing = true := h.closing.mpr (by rw [hclose]; decide)
  have hnotStopping : n.start ≠ .stopping := by rw [hstart]; decide
  have hidle : ¬(n.start = .initializing ∨ n.start = .starting ∨ n.start = .stopping) := by
    rw [hstart]
    decide
  unfold ServerNode.closeResumed
  split
  next hserver =>
    exact
      { closing := iff_of_true hclosing (by intro hopen; cases hopen)
        serving := fun hstart' => absurd hstart' hidle
        overtaken := fun hstart' => absurd hstart' hnotStopping
        closeStopping := fun _ => ⟨hstart, hserver, Nat.le_add_left 1 n.shutdowns⟩
        closed := fun hclose' => by cases hclose'
        listening := h.listening
        uncreated := fun hcreated => by
          rw [(h.uncreated hcreated).1] at hserver
          cases hserver
        shutDown := fun _ _ => Nat.le_add_left 1 n.shutdowns
        once := fun hnot => by
          have hzero := (h.once hnot).2 hserver hnotStopping (by rw [hclose]; decide)
          refine ⟨?_, fun _ _ hclose' => absurd rfl hclose'⟩
          change n.shutdowns + 1 ≤ 1
          omega }
  next hserver =>
    refine Kept.emit ?_ _
    have hnull : n.server = false := Bool.eq_false_iff.mpr hserver
    exact
      { closing := iff_of_true hclosing (by intro hopen; cases hopen)
        serving := fun hstart' => absurd hstart' hidle
        overtaken := fun hstart' => absurd hstart' hnotStopping
        closeStopping := fun hclose' => by cases hclose'
        closed := fun _ => ⟨hstart, hnull⟩
        listening := h.listening
        uncreated := h.uncreated
        shutDown := h.shutDown
        once := fun hnot => ⟨(h.once hnot).1, fun hserver' => absurd hserver' hserver⟩ }

theorem closeEnds (h : Kept created rejected n) (hclose : n.close = .stopping) (outcome : Outcome) :
    Kept created (rejected ∨ (ServerEvent.shutdown outcome).RejectsShutdown) (n.closeEnds outcome) := by
  obtain ⟨hstart, hserver, hcalled⟩ := h.closeStopping hclose
  have hclosing : n.closing = true := h.closing.mpr (by rw [hclose]; decide)
  have hidle : ¬(n.start = .initializing ∨ n.start = .starting ∨ n.start = .stopping) := by
    rw [hstart]
    decide
  have hends : ∀ (listening : Bool) (emitted : List Emitted),
      (listening = true → rejected ∨ (ServerEvent.shutdown outcome).RejectsShutdown) →
      Kept created (rejected ∨ (ServerEvent.shutdown outcome).RejectsShutdown)
        { n with listening, emitted, server := false, nameSpace := false, close := .closed } :=
    fun listening emitted hlistening =>
      { closing := iff_of_true hclosing (by intro hopen; cases hopen)
        serving := fun hstart' => absurd hstart' hidle
        overtaken := fun hstart' => by rw [hstart] at hstart'; cases hstart'
        closeStopping := fun hclose' => by cases hclose'
        closed := fun _ => ⟨hstart, rfl⟩
        listening := fun h => Or.inr (hlistening h)
        uncreated := fun hcreated => ⟨rfl, (h.uncreated hcreated).2⟩
        shutDown := fun _ _ => hcalled
        once := fun hnot => ⟨(h.once fun hr => hnot (Or.inl hr)).1, fun hserver' => by cases hserver'⟩ }
  cases outcome with
  | ok u => exact hends false _ (fun hfalse => by cases hfalse)
  | error message => exact hends n.listening _ (fun _ => Or.inr trivial)

theorem input (h : Kept created rejected n) (msg : Value) :
    Kept created rejected (n.input env space settings msg) := by
  unfold ServerNode.input
  dsimp only
  split <;> exact { h with }

/-- What one event keeps. -/
theorem step (h : Kept created rejected n) {e : ServerEvent}
    (hstep : n.step env space settings e = some n') :
    Kept created (rejected ∨ e.RejectsShutdown) n' := by
  cases e with
  | initialized outcome =>
      by_cases hstart : n.start = .initializing
      · exact (h.initialized hstart hstep).mono Or.inl
      · simp only [ServerNode.step, if_neg hstart] at hstep
        cases hstep
  | started outcome endpointUrl =>
      by_cases hstart : n.start = .starting
      · simp only [ServerNode.step, if_pos hstart] at hstep
        cases hstep
        exact (h.started hstart outcome endpointUrl).mono Or.inl
      · simp only [ServerNode.step, if_neg hstart] at hstep
        cases hstep
  | stopped outcome =>
      by_cases hstart : n.start = .stopping
      · exact h.stopped hstart hstep
      · simp only [ServerNode.step, if_neg hstart] at hstep
        cases hstep
  | reported =>
      simp only [ServerNode.step] at hstep
      split at hstep
      next message hstart =>
        cases hstep
        obtain ⟨hstopping, hclosed⟩ := h.not_closed_of_start (by rw [hstart]; intro heq; cases heq)
        refine Kept.mono (Kept.emit ?_ _) Or.inl
        exact
          { closing := h.closing
            serving := by rintro (hstart' | hstart' | hstart') <;> cases hstart'
            overtaken := fun hstart' => by cases hstart'
            closeStopping := fun hclose => absurd hclose hstopping
            closed := fun hclose => absurd hclose hclosed
            listening := h.listening
            uncreated := h.uncreated
            shutDown := h.shutDown
            once := fun hnot => ⟨(h.once hnot).1, fun hserver _ hclose =>
              (h.once hnot).2 hserver (by rw [hstart]; intro heq; cases heq) hclose⟩ }
      next => cases hstep
  | close =>
      simp only [ServerNode.step] at hstep
      split at hstep
      next hclose =>
        cases hstep
        exact (h.close hclose).mono Or.inl
      next => cases hstep
  | closeResumed =>
      simp only [ServerNode.step] at hstep
      split at hstep
      next hresumed =>
        cases hstep
        exact (h.closeResumed hresumed.1 hresumed.2).mono Or.inl
      next => cases hstep
  | shutdown outcome =>
      simp only [ServerNode.step] at hstep
      split at hstep
      next hclose =>
        cases hstep
        exact h.closeEnds hclose outcome
      next => cases hstep
  | input msg =>
      cases hstep
      exact (h.input msg).mono Or.inl

theorem run (h : Kept created rejected n) {es : List ServerEvent}
    (hrun : Transition.run (ServerNode.step env space settings) n es = some n') :
    Kept created (rejected ∨ ∃ e ∈ es, e.RejectsShutdown) n' := by
  induction es generalizing n rejected with
  | nil =>
      cases hrun
      exact h.mono Or.inl
  | cons e es ih =>
      obtain ⟨t, hstep, hrest⟩ := Transition.run_cons.mp hrun
      refine (ih (h.step hstep) hrest).mono ?_
      rintro ((hr | he) | ⟨f, hf, hr⟩)
      · exact Or.inl hr
      · exact Or.inr ⟨e, List.mem_cons_self, he⟩
      · exact Or.inr ⟨f, List.mem_cons_of_mem e hf, hr⟩

end Kept

section Runs

variable {S N M : Type} {env : Environment} {space : AddressSpace S N M} {settings : Settings}

/-- A closed node has no server, and answers every message so; the server there was has been
told to shut down; and where no shutdown was rejected, that happened once and the port is
free. -/
theorem closed_released {s : S} {created : Outcome} {es : List ServerEvent} {n : ServerNode S}
    (hrun : Transition.run (ServerNode.step env space settings) (.deploy s created) es = some n)
    (hclosed : n.close = .closed) :
    n.server = false ∧ (created.toBool = true → 1 ≤ n.shutdowns) ∧
      ((∀ e ∈ es, ¬e.RejectsShutdown) → n.listening = false ∧ n.shutdowns ≤ 1) ∧
      ∀ msg, n.step env space settings (.input msg) = some (n.emit
        [.error (js "Server command error: " ++ js "Server not started"),
          .sent (.error (js "Server not started")), .done (some (js "Server not started"))]) := by
  have h := (Kept.deploy s created).run hrun
  obtain ⟨-, hserver⟩ := h.closed hclosed
  refine ⟨hserver, fun hcreated => h.shutDown hcreated hserver, fun hcalm => ?_, fun msg => ?_⟩
  · have hnot : ¬(False ∨ ∃ e ∈ es, e.RejectsShutdown) := by
      rintro (hfalse | ⟨e, he, hrejects⟩)
      · exact hfalse
      · exact hcalm e he hrejects
    refine ⟨Bool.eq_false_iff.mpr fun hlistening => ?_, (h.once hnot).1⟩
    rcases h.listening hlistening with hserver' | hrejected
    · rw [hserver] at hserver'
      cases hserver'
    · exact hnot hrejected
  · have hstarted : (n.server && n.nameSpace) = false := by rw [hserver, Bool.false_and]
    have hinput : n.step env space settings (.input msg) = some (n.input env space settings msg) := rfl
    rw [hinput, ServerNode.input, hstarted]
    rfl

/-- The node is closed while its server starts. -/
def closedInStart : List ServerEvent :=
  [.initialized (.ok ()), .close, .started (.ok ()) (.ok (js "opc.tcp://plant:4840")),
    .stopped (.ok ()), .closeResumed]

theorem closed_released_inStart :
    let n : ServerNode (List Value) :=
      { space := [], server := false, nameSpace := true, closing := true, start := .settled,
        close := .closed, listening := false, shutdowns := 1,
        emitted := [.status stoppedStatus, .closed] }
    n.server = false ∧ ((Except.ok () : Outcome).toBool = true → 1 ≤ n.shutdowns) ∧
      ((∀ e ∈ closedInStart, ¬e.RejectsShutdown) → n.listening = false ∧ n.shutdowns ≤ 1) ∧
      ∀ msg, n.step plainEnvironment nameSpace ⟨4840, false⟩ (.input msg) = some (n.emit
        [.error (js "Server command error: " ++ js "Server not started"),
          .sent (.error (js "Server not started")), .done (some (js "Server not started"))]) := by
  have hrun : Transition.run (ServerNode.step plainEnvironment nameSpace ⟨4840, false⟩)
      (.deploy [] (.ok ())) closedInStart =
      some
        { space := [], server := false, nameSpace := true, closing := true, start := .settled,
          close := .closed, listening := false, shutdowns := 1,
          emitted := [.status stoppedStatus, .closed] } := rfl
  exact closed_released hrun rfl

/-! ## The close handler ends -/

def ServerEvent.isMessage : ServerEvent → Bool
  | .input _ => true
  | _ => false

def StartPhase.ahead : StartPhase → Nat
  | .initializing => 4
  | .starting => 3
  | .stopping => 2
  | .failing _ => 1
  | .settled => 0

def ClosePhase.ahead : ClosePhase → Nat
  | .unasked => 3
  | .awaitingStart => 2
  | .stopping => 1
  | .closed => 0

/-- A bound on the turns before the close handler has ended. -/
def ServerNode.ahead (n : ServerNode S) : Nat := n.start.ahead + n.close.ahead

theorem startResumed_phases (n : ServerNode S) (outcome : Outcome)
    (endpointUrl : Except JsString JsString) :
    (n.startResumed settings outcome endpointUrl).start.ahead ≤ 2 ∧
      (n.startResumed settings outcome endpointUrl).close = n.close := by
  cases outcome with
  | error message => exact ⟨Nat.le_succ 1, rfl⟩
  | ok u =>
      simp only [ServerNode.startResumed]
      split
      next => exact ⟨Nat.le_refl 2, rfl⟩
      next =>
        cases endpointUrl with
        | error message => exact ⟨Nat.le_succ 1, rfl⟩
        | ok url => exact ⟨Nat.zero_le 2, rfl⟩

theorem ahead_lt_of_start {n n' : ServerNode S} {phase : StartPhase} (hphase : n.start = phase)
    (hstart : n'.start.ahead < phase.ahead) (hclose : n'.close = n.close) : n'.ahead < n.ahead := by
  unfold ServerNode.ahead
  rw [hclose, hphase]
  exact Nat.add_lt_add_right hstart _

theorem ahead_lt_of_close {n n' : ServerNode S} {phase : ClosePhase} (hphase : n.close = phase)
    (hclose : n'.close.ahead < phase.ahead) (hstart : n'.start = n.start) : n'.ahead < n.ahead := by
  unfold ServerNode.ahead
  rw [hstart, hphase]
  exact Nat.add_lt_add_left hclose _

/-- Every turn but a message brings the node closer to the end of its close handler. -/
theorem ahead_lt {n n' : ServerNode S} {e : ServerEvent} (hmessage : e.isMessage = false)
    (hstep : n.step env space settings e = some n') : n'.ahead < n.ahead := by
  have h34 : 3 < 4 := by decide
  have h14 : 1 < 4 := by decide
  have h02 : 0 < 2 := by decide
  cases e with
  | initialized outcome =>
      simp only [ServerNode.step] at hstep
      split at hstep
      next hstart =>
        cases outcome with
        | ok u =>
            cases hstep
            exact ahead_lt_of_start hstart h34 rfl
        | error message =>
            cases hstep
            exact ahead_lt_of_start hstart h14 rfl
      next => cases hstep
  | started outcome endpointUrl =>
      simp only [ServerNode.step] at hstep
      split at hstep
      next hstart =>
        cases hstep
        obtain ⟨hphase, hclose⟩ := startResumed_phases n outcome endpointUrl
        exact ahead_lt_of_start hstart (Nat.lt_succ_of_le hphase) hclose
      next => cases hstep
  | stopped outcome =>
      simp only [ServerNode.step] at hstep
      split at hstep
      next hstart =>
        cases outcome with
        | ok u =>
            cases hstep
            exact ahead_lt_of_start hstart h02 rfl
        | error message =>
            cases hstep
            exact ahead_lt_of_start hstart (Nat.lt_succ_self 1) rfl
      next => cases hstep
  | reported =>
      simp only [ServerNode.step] at hstep
      split at hstep
      next message hstart =>
        cases hstep
        exact ahead_lt_of_start hstart Nat.zero_lt_one rfl
      next => cases hstep
  | close =>
      simp only [ServerNode.step] at hstep
      split at hstep
      next hclose =>
        cases hstep
        exact ahead_lt_of_close hclose (Nat.lt_succ_self 2) rfl
      next => cases hstep
  | closeResumed =>
      simp only [ServerNode.step] at hstep
      split at hstep
      next hresumed =>
        cases hstep
        unfold ServerNode.closeResumed
        split
        next => exact ahead_lt_of_close hresumed.1 (Nat.lt_succ_self 1) rfl
        next => exact ahead_lt_of_close hresumed.1 h02 rfl
      next => cases hstep
  | shutdown outcome =>
      simp only [ServerNode.step] at hstep
      split at hstep
      next hclose =>
        cases hstep
        cases outcome with
        | ok u => exact ahead_lt_of_close hclose Nat.zero_lt_one rfl
        | error message => exact ahead_lt_of_close hclose Nat.zero_lt_one rfl
      next => cases hstep
  | input msg => cases hmessage

theorem ahead_input {n n' : ServerNode S} {msg : Value}
    (hstep : n.step env space settings (.input msg) = some n') : n'.ahead = n.ahead := by
  cases hstep
  unfold ServerNode.input
  dsimp only
  split <;> rfl

/-- The turns of a run are paid for by the steps that are ahead. -/
theorem turns_le {n n' : ServerNode S} {es : List ServerEvent}
    (hrun : Transition.run (ServerNode.step env space settings) n es = some n') :
    es.countP (fun e => !e.isMessage) + n'.ahead ≤ n.ahead := by
  induction es generalizing n with
  | nil =>
      cases hrun
      exact Nat.le_of_eq (Nat.zero_add _)
  | cons e es ih =>
      obtain ⟨t, hstep, hrest⟩ := Transition.run_cons.mp hrun
      have hle := ih hrest
      cases hmessage : e.isMessage with
      | false =>
          have hlt := ahead_lt hmessage hstep
          rw [List.countP_cons_of_pos (by rw [hmessage]; rfl)]
          omega
      | true =>
          cases e with
          | input msg =>
              rw [List.countP_cons_of_neg (by rw [hmessage]; exact Bool.false_ne_true), ← ahead_input hstep]
              exact hle
          | _ => cases hmessage

/-- A node that is closing waits for something, until it is closed. -/
theorem exists_turn {created : Bool} {rejected : Prop} {n : ServerNode S} (h : Kept created rejected n)
    (hclosing : n.closing = true) (hclosed : n.close ≠ .closed) :
    ∃ e : ServerEvent, e.isMessage = false ∧ (n.step env space settings e).isSome = true := by
  cases hstart : n.start with
  | initializing => exact ⟨.initialized (.error []), rfl, by simp only [ServerNode.step, if_pos hstart]; rfl⟩
  | starting => exact ⟨.started (.error []) (.ok []), rfl, by simp only [ServerNode.step, if_pos hstart]; rfl⟩
  | stopping => exact ⟨.stopped (.ok ()), rfl, by simp only [ServerNode.step, if_pos hstart]; rfl⟩
  | failing message => exact ⟨.reported, rfl, by simp only [ServerNode.step, hstart]; rfl⟩
  | settled =>
      cases hclose : n.close with
      | unasked => exact absurd hclose (h.closing.mp hclosing)
      | awaitingStart =>
          exact ⟨.closeResumed, rfl, by simp only [ServerNode.step, if_pos (And.intro hclose hstart)]; rfl⟩
      | stopping => exact ⟨.shutdown (.ok ()), rfl, by simp only [ServerNode.step, if_pos hclose]; rfl⟩
      | closed => exact absurd hclose hclosed

/-- Once close has been asked for, the node is closed or waits for one more turn, and at
most six turns are left, whatever they bring and whatever messages come in between. -/
theorem close_ends {s : S} {created : Outcome} {es : List ServerEvent} {n : ServerNode S}
    (hrun : Transition.run (ServerNode.step env space settings) (.deploy s created) es = some n)
    (hclosing : n.closing = true) :
    (n.close = .closed ∨ ∃ e : ServerEvent, e.isMessage = false ∧
        (n.step env space settings e).isSome = true) ∧
      ∀ later n', Transition.run (ServerNode.step env space settings) n later = some n' →
        later.countP (fun e => !e.isMessage) + n'.ahead ≤ n.ahead ∧ n.ahead ≤ 6 := by
  have h := (Kept.deploy s created).run hrun
  have hstart : n.start.ahead ≤ 4 := by cases n.start <;> simp [StartPhase.ahead]
  have hclose : n.close.ahead ≤ 2 := by
    have hopen := h.closing.mp hclosing
    cases hphase : n.close with
    | unasked => exact absurd hphase hopen
    | awaitingStart => exact Nat.le_refl 2
    | stopping => exact Nat.le_succ 1
    | closed => exact Nat.zero_le 2
  refine ⟨?_, fun later n' hlater => ⟨turns_le hlater, Nat.add_le_add hstart hclose⟩⟩
  by_cases hclosed : n.close = .closed
  · exact Or.inl hclosed
  · exact Or.inr (exists_turn h hclosing hclosed)

theorem close_ends_starting :
    let n : ServerNode (List Value) :=
      { space := [], server := true, nameSpace := true, closing := true, start := .starting,
        close := .awaitingStart, listening := false, shutdowns := 0,
        emitted := [.status stoppedStatus] }
    (n.close = .closed ∨ ∃ e : ServerEvent, e.isMessage = false ∧
        (n.step plainEnvironment nameSpace ⟨4840, false⟩ e).isSome = true) ∧
      ∀ later n',
        Transition.run (ServerNode.step plainEnvironment nameSpace ⟨4840, false⟩) n later = some n' →
        later.countP (fun e => !e.isMessage) + n'.ahead ≤ n.ahead ∧ n.ahead ≤ 6 := by
  have hrun : Transition.run (ServerNode.step plainEnvironment nameSpace ⟨4840, false⟩)
      (.deploy [] (.ok ())) [.initialized (.ok ()), .close] =
      some
        { space := [], server := true, nameSpace := true, closing := true, start := .starting,
          close := .awaitingStart, listening := false, shutdowns := 0,
          emitted := [.status stoppedStatus] } := rfl
  exact close_ends hrun rfl

/-! ## Answers -/

def Emitted.isSent : Emitted → Bool
  | .sent _ => true
  | _ => false

def Emitted.isDone : Emitted → Bool
  | .done _ => true
  | _ => false

def Emitted.isClosed : Emitted → Bool
  | .closed => true
  | _ => false

/-- The answers that were sent, the messages that were done, and whether the close handler has
called its `done`. -/
structure Answered (messages : Nat) (n : ServerNode S) : Prop where
  sent : n.emitted.countP Emitted.isSent = messages
  done : n.emitted.countP Emitted.isDone = messages
  closed : n.emitted.countP Emitted.isClosed = if n.close = .closed then 1 else 0

/-- A status, a text of the log or an error. -/
def Emitted.isQuiet (x : Emitted) : Bool := !x.isSent && !x.isDone && !x.isClosed

theorem countP_quiet {es : List Emitted} (h : es.all Emitted.isQuiet = true) :
    es.countP Emitted.isSent = 0 ∧ es.countP Emitted.isDone = 0 ∧ es.countP Emitted.isClosed = 0 := by
  have hquiet : ∀ x ∈ es, x.isSent = false ∧ x.isDone = false ∧ x.isClosed = false := fun x hx => by
    have hx := List.all_eq_true.mp h x hx
    cases x <;> simp_all [Emitted.isQuiet, Emitted.isSent, Emitted.isDone, Emitted.isClosed]
  refine ⟨List.countP_eq_zero.mpr fun x hx => ?_, List.countP_eq_zero.mpr fun x hx => ?_,
    List.countP_eq_zero.mpr fun x hx => ?_⟩
  · rw [(hquiet x hx).1]
    exact Bool.false_ne_true
  · rw [(hquiet x hx).2.1]
    exact Bool.false_ne_true
  · rw [(hquiet x hx).2.2]
    exact Bool.false_ne_true

namespace Answered

variable {messages : Nat} {n n' : ServerNode S}

theorem quiet (h : Answered messages n) (es : List Emitted) (hes : es.all Emitted.isQuiet = true)
    (hemitted : n'.emitted = n.emitted ++ es) (hclose : n'.close = .closed ↔ n.close = .closed) :
    Answered messages n' := by
  obtain ⟨hsent, hdone, hclosed⟩ := countP_quiet hes
  refine ⟨?_, ?_, ?_⟩
  · rw [hemitted, List.countP_append, hsent, h.sent, Nat.add_zero]
  · rw [hemitted, List.countP_append, hdone, h.done, Nat.add_zero]
  · rw [hemitted, List.countP_append, hclosed, h.closed, Nat.add_zero]
    exact if_congr hclose.symm rfl rfl

/-- The close handler calls its `done`. -/
theorem closes (h : Answered messages n) (es : List Emitted) (hes : es.all Emitted.isQuiet = true)
    (hemitted : n'.emitted = n.emitted ++ es ++ [.closed]) (hclose : n.close ≠ .closed)
    (hclose' : n'.close = .closed) : Answered messages n' := by
  obtain ⟨hsent, hdone, hclosed⟩ := countP_quiet hes
  refine ⟨?_, ?_, ?_⟩
  · rw [hemitted, List.countP_append, List.countP_append, hsent, h.sent]
    rfl
  · rw [hemitted, List.countP_append, List.countP_append, hdone, h.done]
    rfl
  · rw [hemitted, List.countP_append, List.countP_append, hclosed, h.closed, if_neg hclose, if_pos hclose']
    rfl

theorem fail (h : Answered messages n) (message : JsString) : Answered messages (n.fail message) :=
  h.quiet [.error _, .status errorStatus] rfl rfl Iff.rfl

theorem started (h : Answered messages n) (outcome : Outcome) (endpointUrl : Except JsString JsString) :
    Answered messages (n.startResumed settings outcome endpointUrl) := by
  cases outcome with
  | error message => exact h.fail message
  | ok u =>
      simp only [ServerNode.startResumed]
      split
      next => exact h.quiet [] rfl (List.append_nil _).symm Iff.rfl
      next =>
        cases endpointUrl with
        | error message =>
            have hbound : Answered messages { n with listening := true } := { h with }
            exact hbound.fail message
        | ok url => exact h.quiet [.status _, .log _] rfl rfl Iff.rfl

/-- A message is answered once and done once. -/
theorem input (h : Answered messages n) (msg : Value) :
    Answered (messages + 1) (n.input env space settings msg) := by
  unfold ServerNode.input
  dsimp only
  split
  all_goals
    refine ⟨?_, ?_, ?_⟩
    · simp only [ServerNode.emit, List.countP_append, h.sent]
      rfl
    · simp only [ServerNode.emit, List.countP_append, h.done]
      rfl
    · simp only [ServerNode.emit, List.countP_append, h.closed]
      rfl

theorem closeResumed (h : Answered messages n) (hopen : n.close ≠ .closed) :
    Answered messages n.closeResumed := by
  unfold ServerNode.closeResumed
  split
  next =>
    refine h.quiet [] rfl (List.append_nil _).symm (iff_of_false ?_ hopen)
    intro hclosed
    cases hclosed
  next => exact h.closes [] rfl (by rw [List.append_nil]; rfl) hopen rfl

theorem step (h : Answered messages n) {e : ServerEvent}
    (hstep : n.step env space settings e = some n') :
    Answered (messages + if e.isMessage then 1 else 0) n' := by
  cases e with
  | initialized outcome =>
      simp only [ServerNode.step] at hstep
      split at hstep
      next =>
        cases outcome with
        | ok u =>
            cases hstep
            exact h.quiet [] rfl (List.append_nil _).symm Iff.rfl
        | error message =>
            cases hstep
            exact h.fail message
      next => cases hstep
  | started outcome endpointUrl =>
      simp only [ServerNode.step] at hstep
      split at hstep
      next =>
        cases hstep
        exact h.started outcome endpointUrl
      next => cases hstep
  | stopped outcome =>
      simp only [ServerNode.step] at hstep
      split at hstep
      next =>
        cases outcome with
        | ok u =>
            cases hstep
            exact h.quiet [] rfl (List.append_nil _).symm Iff.rfl
        | error message =>
            cases hstep
            exact h.fail message
      next => cases hstep
  | reported =>
      simp only [ServerNode.step] at hstep
      split at hstep
      next message _ =>
        cases hstep
        exact h.quiet [.error _] rfl rfl Iff.rfl
      next => cases hstep
  | close =>
      simp only [ServerNode.step] at hstep
      split at hstep
      next hclose =>
        cases hstep
        refine h.quiet [] rfl (List.append_nil _).symm (iff_of_false ?_ ?_)
        · intro hclosed
          cases hclosed
        · rw [hclose]
          decide
      next => cases hstep
  | closeResumed =>
      simp only [ServerNode.step] at hstep
      split at hstep
      next hresumed =>
        cases hstep
        have hopen : n.close ≠ .closed := by
          rw [hresumed.1]
          decide
        exact h.closeResumed hopen
      next => cases hstep
  | shutdown outcome =>
      simp only [ServerNode.step] at hstep
      split at hstep
      next hclose =>
        cases hstep
        have hopen : n.close ≠ .closed := by
          rw [hclose]
          decide
        cases outcome with
        | ok u => exact h.closes [.status stoppedStatus, .log _] rfl rfl hopen rfl
        | error message => exact h.closes [.error _] rfl rfl hopen rfl
      next => cases hstep
  | input msg =>
      cases hstep
      exact h.input msg

theorem run (h : Answered messages n) {es : List ServerEvent}
    (hrun : Transition.run (ServerNode.step env space settings) n es = some n') :
    Answered (messages + es.countP ServerEvent.isMessage) n' := by
  induction es generalizing n messages with
  | nil =>
      cases hrun
      exact h
  | cons e es ih =>
      obtain ⟨t, hstep, hrest⟩ := Transition.run_cons.mp hrun
      have hmessages := ih (h.step hstep) hrest
      rw [List.countP_cons]
      rwa [Nat.add_assoc, Nat.add_comm (if e.isMessage = true then 1 else 0)] at hmessages

end Answered

/-- In every run of a node each message is answered once and done once, before the start, after
it and after the close, and the close handler calls its `done` once, at its end. -/
theorem answered_once {s : S} {created : Outcome} {es : List ServerEvent} {n : ServerNode S}
    (hrun : Transition.run (ServerNode.step env space settings) (.deploy s created) es = some n) :
    Answered (es.countP ServerEvent.isMessage) n := by
  have hstart : Answered 0 (ServerNode.deploy s created) := by
    cases created with
    | ok u => exact ⟨rfl, rfl, rfl⟩
    | error message => exact ⟨rfl, rfl, rfl⟩
  have h := hstart.run hrun
  rwa [Nat.zero_add] at h

/-- A message comes while the start has failed, and then the node is closed. -/
def failedStart : List ServerEvent :=
  [.input (startMethod .undefined), .close, .reported, .closeResumed]

theorem answered_once_failed :
    ∃ n, Transition.run (ServerNode.step plainEnvironment nameSpace ⟨4840, false⟩)
        (.deploy [] (.error (js "port"))) failedStart = some n ∧
      Answered (failedStart.countP ServerEvent.isMessage) n := by
  have hruns : (Transition.run (ServerNode.step plainEnvironment nameSpace ⟨4840, false⟩)
      (.deploy [] (.error (js "port"))) failedStart).isSome = true := rfl
  obtain ⟨n, hrun⟩ := Option.isSome_iff_exists.mp hruns
  exact ⟨n, hrun, answered_once hrun⟩

end Runs

end OpcUaSuite.Server
