import OpcUaSuite.Js.Value
import OpcUaSuite.Lib.Transition
import Mathlib.Data.List.Infix

/-!
# The MQTT transport

`connect`, the fallback from protocol 5 to 3.1.1 and `close`, with the handlers
of every client the transport ever created: an ended client may still emit.
Whether the call of `mqtt.connect` for an attempt returns a client or throws is
a parameter.
-/

namespace OpcUaSuite.Transports

open Js ByteCodec

/-! ## Protocol rejections -/

/-- A code unit as the flag `i` of a regular expression sees it. -/
def foldCase (u : UInt16) : UInt16 := if 65 ≤ u ∧ u ≤ 90 then u + 32 else u

/-- `PROTOCOL_REJECTION` -/
def protocolRejection (text : JsString) : Bool :=
  [js "unsupported protocol", js "unacceptable protocol version",
    js "protocol version not supported"].any fun rejection =>
      decide (rejection <:+: text.map foldCase)

/-! ## The transport -/

/-- A call of `_tryConnect`: the `connect()` it belongs to and what came of
`mqtt.connect`. -/
structure Attempt where
  call : Nat
  protocolVersion : Nat
  created : Bool
deriving DecidableEq

/-- The text of an error is the one the test for a rejection reads. -/
inductive ClientEvent
  | connect
  | error (text : JsString)
  | close
  | reconnect
  | message (topic : JsString) (payload : Bytes)
deriving DecidableEq

inductive Emitted
  | connected
  | disconnected
  | reconnecting
  | error (text : JsString)
  | message (payload : Bytes) (topic : JsString)
deriving DecidableEq

/-- A client is the index of its attempt. `outcomes` are the promises of
`connect()` that are settled. -/
structure MqttTransport where
  client : Option Nat := none
  protocolFallbackDone : Bool := false
  attempts : List Attempt := []
  calls : Nat := 0
  outcomes : List (Nat × Bool) := []
  emitted : List Emitted := []
deriving DecidableEq

inductive MqttEvent
  | connect
  | close
  | emits (client : Nat) (event : ClientEvent)
deriving DecidableEq

namespace MqttTransport

variable (creates : Nat → Bool) (t : MqttTransport)

/-- A promise is settled once. -/
def settle (call : Nat) (resolved : Bool) : MqttTransport :=
  { t with outcomes :=
      if t.outcomes.any fun outcome => outcome.1 == call then t.outcomes
      else t.outcomes ++ [(call, resolved)] }

def emit (event : Emitted) : MqttTransport := { t with emitted := t.emitted ++ [event] }

def begins (call protocolVersion : Nat) (created : Bool) : MqttTransport :=
  { t with attempts := t.attempts ++ [⟨call, protocolVersion, created⟩] }

/-- `_tryConnect`; the promise is rejected when `mqtt.connect` throws. -/
def tryConnect (call protocolVersion : Nat) : MqttTransport :=
  if creates t.attempts.length then
    { t.begins call protocolVersion true with client := some t.attempts.length }
  else (t.begins call protocolVersion false).settle call false

/-- `connect` -/
def connect : MqttTransport :=
  if t.client.isSome then settle { t with calls := t.calls + 1 } t.calls true
  else tryConnect creates { t with calls := t.calls + 1 } t.calls 5

/-- `close` -/
def close : MqttTransport := { t with client := none, protocolFallbackDone := false }

/-- The error of an attempt makes the transport try the older protocol. -/
def fallsBack (attempt : Attempt) (text : JsString) : Bool :=
  !t.protocolFallbackDone && attempt.protocolVersion == 5 && protocolRejection text

/-- The handlers `_tryConnect` registers at the client of an attempt. -/
def handle (attempt : Attempt) : ClientEvent → MqttTransport
  | .connect =>
      settle (emit { t with protocolFallbackDone := true } .connected) attempt.call true
  | .error text =>
      if t.fallsBack attempt text then
        tryConnect creates { t with protocolFallbackDone := true, client := none } attempt.call 4
      else t.emit (.error text)
  | .close => t.emit .disconnected
  | .reconnect => t.emit .reconnecting
  | .message topic payload => t.emit (.message payload topic)

/-- One call or event; only a client that was created emits. -/
def step (t : MqttTransport) : MqttEvent → Option MqttTransport
  | .connect => some (t.connect creates)
  | .close => some t.close
  | .emits client event =>
      match t.attempts[client]? with
      | some attempt => if attempt.created then some (t.handle creates attempt event) else none
      | none => none

/-! ## Superseded clients -/

variable {creates t} {t' : MqttTransport} {e : MqttEvent}

/-- A client that is no longer the current one starts the fallback, or emits
what is passed on as if it were. -/
def Slips (t : MqttTransport) : MqttEvent → Prop
  | .connect | .close => False
  | .emits client event =>
      t.client ≠ some client ∧
        match event with
        | .close => False
        | .error text => (t.attempts[client]?.any fun attempt => t.fallsBack attempt text) = true
        | .connect | .reconnect | .message _ _ => True

instance decidableSlips (t : MqttTransport) (e : MqttEvent) : Decidable (Slips t e) :=
  match e with
  | .connect | .close => isFalse id
  | .emits client .close => inferInstanceAs (Decidable (t.client ≠ some client ∧ False))
  | .emits client (.error text) =>
      inferInstanceAs (Decidable (t.client ≠ some client ∧
        (t.attempts[client]?.any fun attempt => t.fallsBack attempt text) = true))
  | .emits client .connect => inferInstanceAs (Decidable (t.client ≠ some client ∧ True))
  | .emits client .reconnect => inferInstanceAs (Decidable (t.client ≠ some client ∧ True))
  | .emits client (.message _ _) => inferInstanceAs (Decidable (t.client ≠ some client ∧ True))

theorem slips_error {client : Nat} {attempt : Attempt} {text : JsString}
    (hattempt : t.attempts[client]? = some attempt) (hfalls : t.fallsBack attempt text = true)
    (hne : t.client ≠ some client) : Slips t (.emits client (.error text)) := by
  refine ⟨hne, ?_⟩
  simp only [hattempt, Option.any_some, hfalls]

/-- What is passed on comes from the current client. -/
def FromCurrent (t : MqttTransport) (e : MqttEvent) (_ : Emitted) : Prop :=
  ∃ client event, e = .emits client event ∧ t.client = some client

/-- An ended client reports its close, too: `close()` completes with it. -/
def FromCurrentOrEnded (t : MqttTransport) (e : MqttEvent) (x : Emitted) : Prop :=
  FromCurrent t e x ∨ x = .disconnected ∧ ∃ client, e = .emits client .close

/-- The isolation of superseded clients after a run, as far as steps are
possible that `ok` allows: an attempt of each version for a `connect()` at most,
no client and no attempt between a `close()` and the next `connect()`, and
`heard` for what is passed on. -/
structure Isolated (creates : Nat → Bool) (ok : MqttTransport → MqttEvent → Prop)
    (heard : MqttTransport → MqttEvent → Emitted → Prop) (t : MqttTransport) : Prop where
  once : ∀ call protocolVersion, (t.attempts.filter fun a =>
    a.call == call && a.protocolVersion == protocolVersion).length ≤ 1
  versions : ∀ a ∈ t.attempts, a.protocolVersion = 5 ∨ a.protocolVersion = 4
  closed : ∀ es t', Transition.run (step creates) t.close es = some t' →
    Transition.Along (step creates) ok t.close es → (∀ e ∈ es, e ≠ .connect) →
      t'.client = none ∧ t'.attempts = t.attempts
  passed : ∀ e t', step creates t e = some t' → ok t e →
    ∃ xs, t'.emitted = t.emitted ++ xs ∧ ∀ x ∈ xs, (∀ text, x ≠ .error text) → heard t e x

/-- The attempts of a transport whose superseded clients do nothing: an older
one is made only for a `connect()` whose first client is superseded. -/
structure Kept (t : MqttTransport) : Prop where
  once : ∀ call protocolVersion, (t.attempts.filter fun a =>
    a.call == call && a.protocolVersion == protocolVersion).length ≤ 1
  versions : ∀ a ∈ t.attempts, a.protocolVersion = 5 ∨ a.protocolVersion = 4
  begun : ∀ a ∈ t.attempts, a.call < t.calls
  current : ∀ k a, t.client = some k → t.attempts[k]? = some a → a.protocolVersion = 5 →
    ∀ b ∈ t.attempts, b.protocolVersion = 4 → b.call ≠ a.call

theorem kept_init : Kept {} where
  once := fun _ _ => Nat.zero_le _
  versions := by simp
  begun := by simp
  current := by simp

theorem tryConnect_attempts (call protocolVersion : Nat) :
    (t.tryConnect creates call protocolVersion).attempts =
      t.attempts ++ [⟨call, protocolVersion, creates t.attempts.length⟩] := by
  unfold tryConnect
  cases creates t.attempts.length <;> rfl

theorem tryConnect_calls (call protocolVersion : Nat) :
    (t.tryConnect creates call protocolVersion).calls = t.calls := by
  unfold tryConnect
  split <;> rfl

theorem tryConnect_emitted (call protocolVersion : Nat) :
    (t.tryConnect creates call protocolVersion).emitted = t.emitted := by
  unfold tryConnect
  split <;> rfl

theorem tryConnect_client (hclient : t.client = none) {call protocolVersion k : Nat}
    (hk : (t.tryConnect creates call protocolVersion).client = some k) :
    k = t.attempts.length := by
  unfold tryConnect at hk
  split at hk
  · cases hk
    rfl
  · cases hclient.symm.trans hk

theorem kept_tryConnect (h : Kept t) (hclient : t.client = none) {call protocolVersion : Nat}
    (hversion : protocolVersion = 5 ∨ protocolVersion = 4) (hcall : call < t.calls)
    (hfirst : ∀ a ∈ t.attempts, a.call = call → a.protocolVersion ≠ protocolVersion)
    (hnewer : protocolVersion = 5 → ∀ a ∈ t.attempts, a.call ≠ call) :
    Kept (t.tryConnect creates call protocolVersion) where
  once := by
    intro c v
    have hc := h.once c v
    rw [tryConnect_attempts, List.filter_append, List.length_append]
    by_cases heq : call = c ∧ protocolVersion = v
    · obtain ⟨rfl, rfl⟩ := heq
      have hnone : (t.attempts.filter fun a =>
          a.call == call && a.protocolVersion == protocolVersion) = [] := by
        refine List.filter_eq_nil_iff.mpr fun a ha hboth => ?_
        simp only [Bool.and_eq_true, beq_iff_eq] at hboth
        exact hfirst a ha hboth.1 hboth.2
      simp [hnone]
    · have hnone : (([⟨call, protocolVersion, creates t.attempts.length⟩] : List Attempt).filter
          fun a => a.call == c && a.protocolVersion == v) = [] := by
        simpa using heq
      rw [hnone]
      exact hc
  versions := by
    intro a ha
    rw [tryConnect_attempts, List.mem_append, List.mem_singleton] at ha
    rcases ha with ha | rfl
    · exact h.versions a ha
    · exact hversion
  begun := by
    intro a ha
    rw [tryConnect_attempts, List.mem_append, List.mem_singleton] at ha
    rw [tryConnect_calls]
    rcases ha with ha | rfl
    · exact h.begun a ha
    · exact hcall
  current := by
    intro k a hk ha hfive b hb hfour
    cases tryConnect_client hclient hk
    rw [tryConnect_attempts, List.getElem?_concat_length] at ha
    cases ha
    rw [tryConnect_attempts, List.mem_append, List.mem_singleton] at hb
    rcases hb with hb | rfl
    · exact hnewer hfive b hb
    · exact absurd (hfive.symm.trans hfour) (by decide)

theorem kept_connect (h : Kept t) : Kept (t.connect creates) := by
  have hbegun : Kept { t with calls := t.calls + 1 } :=
    { h with begun := fun a ha => Nat.lt_succ_of_lt (h.begun a ha) }
  have hnew : ∀ a ∈ t.attempts, a.call ≠ t.calls := fun a ha => Nat.ne_of_lt (h.begun a ha)
  unfold connect
  split
  · exact { hbegun with }
  · rename_i hclient
    exact kept_tryConnect hbegun (by simpa using hclient) (Or.inl rfl) (Nat.lt_succ_self _)
      (fun a ha hcall => absurd hcall (hnew a ha)) fun _ => hnew

/-- A fallback is that of the current client: it supersedes the first client of
its `connect()`. -/
theorem kept_handle (h : Kept t) {client : Nat} {attempt : Attempt} {event : ClientEvent}
    (hattempt : t.attempts[client]? = some attempt) (hok : ¬ Slips t (.emits client event)) :
    Kept (t.handle creates attempt event) := by
  cases event with
  | connect => exact { h with }
  | close => exact { h with }
  | reconnect => exact { h with }
  | message topic payload => exact { h with }
  | error text =>
      simp only [handle]
      split
      · rename_i hfalls
        have hclient : t.client = some client := by
          by_contra hne
          exact hok (slips_error hattempt hfalls hne)
        simp only [fallsBack, Bool.and_eq_true, beq_iff_eq] at hfalls
        have hended : Kept { t with protocolFallbackDone := true, client := none } :=
          { h with current := by rintro k a ⟨⟩ }
        refine kept_tryConnect hended rfl (Or.inr rfl)
          (h.begun attempt (List.mem_of_getElem? hattempt)) (fun a ha hcall hfour => ?_)
          (fun hfive => absurd hfive (by decide))
        exact h.current client attempt hclient hattempt hfalls.1.2 a ha hfour hcall
      · exact { h with }

theorem kept_step : Transition.Preserves (step creates) (fun t e => ¬ Slips t e) Kept := by
  intro t e t' h hok hstep
  cases e with
  | connect =>
      cases hstep
      exact kept_connect h
  | close =>
      cases hstep
      exact { h with current := by rintro k a ⟨⟩ }
  | emits client event =>
      simp only [step] at hstep
      split at hstep
      · rename_i attempt hattempt
        split at hstep
        · cases hstep
          exact kept_handle h hattempt hok
        · cases hstep
      · cases hstep

/-! ## After `close()` -/

/-- Without a current client nothing but `connect()` makes an attempt. -/
theorem closed_step (hclient : t.client = none) (hok : ¬ Slips t e) (hne : e ≠ .connect)
    (hstep : step creates t e = some t') : t'.client = none ∧ t'.attempts = t.attempts := by
  cases e with
  | connect => exact absurd rfl hne
  | close =>
      cases hstep
      exact ⟨rfl, rfl⟩
  | emits client event =>
      simp only [step] at hstep
      split at hstep
      · rename_i attempt hattempt
        split at hstep
        · cases hstep
          cases event with
          | connect => exact ⟨hclient, rfl⟩
          | close => exact ⟨hclient, rfl⟩
          | reconnect => exact ⟨hclient, rfl⟩
          | message topic payload => exact ⟨hclient, rfl⟩
          | error text =>
              simp only [handle]
              split
              · rename_i hfalls
                exact absurd (slips_error hattempt hfalls (by simp [hclient])) hok
              · exact ⟨hclient, rfl⟩
        · cases hstep
      · cases hstep

theorem closed_run (es : List MqttEvent) : ∀ {t t' : MqttTransport}, t.client = none →
    Transition.run (step creates) t es = some t' →
      Transition.Along (step creates) (fun t e => ¬ Slips t e) t es →
        (∀ e ∈ es, e ≠ .connect) → t'.client = none ∧ t'.attempts = t.attempts := by
  induction es with
  | nil =>
      rintro t t' hclient ⟨⟩ - -
      exact ⟨hclient, rfl⟩
  | cons e es ih =>
      intro t t' hclient hrun hok hne
      obtain ⟨u, hstep, hrest⟩ := Transition.run_cons.mp hrun
      obtain ⟨hu, hattempts⟩ := closed_step hclient hok.1 (hne e List.mem_cons_self) hstep
      obtain ⟨ht', hattempts'⟩ := ih hu hrest (hok.2 u hstep)
        fun e' he' => hne e' (List.mem_cons_of_mem e he')
      exact ⟨ht', hattempts'.trans hattempts⟩

/-! ## What is passed on -/

theorem passed_handle {client : Nat} {attempt : Attempt} {event : ClientEvent}
    (hok : ¬ Slips t (.emits client event)) :
    ∃ xs, (t.handle creates attempt event).emitted = t.emitted ++ xs ∧
      ∀ x ∈ xs, (∀ text, x ≠ .error text) → FromCurrentOrEnded t (.emits client event) x := by
  have hcurrent : (∀ text, event ≠ .error text) → event ≠ .close → t.client = some client := by
    intro herror hclose
    by_contra hne
    cases event with
    | error text => exact herror text rfl
    | close => exact hclose rfl
    | connect => exact hok ⟨hne, trivial⟩
    | reconnect => exact hok ⟨hne, trivial⟩
    | message topic payload => exact hok ⟨hne, trivial⟩
  cases event with
  | connect => exact ⟨[.connected], rfl, fun x _ _ => Or.inl ⟨client, _, rfl, hcurrent nofun nofun⟩⟩
  | close =>
      refine ⟨[.disconnected], rfl, fun x hx _ => Or.inr ⟨List.mem_singleton.mp hx, client, rfl⟩⟩
  | reconnect =>
      exact ⟨[.reconnecting], rfl, fun x _ _ => Or.inl ⟨client, _, rfl, hcurrent nofun nofun⟩⟩
  | message topic payload =>
      exact ⟨[.message payload topic], rfl,
        fun x _ _ => Or.inl ⟨client, _, rfl, hcurrent nofun nofun⟩⟩
  | error text =>
      simp only [handle]
      split
      · rw [tryConnect_emitted]
        exact ⟨[], (List.append_nil _).symm, fun x hx => nomatch hx⟩
      · refine ⟨[.error text], rfl, fun x hx herror => ?_⟩
        exact absurd (List.mem_singleton.mp hx) (herror text)

theorem passed_step (hok : ¬ Slips t e) (hstep : step creates t e = some t') :
    ∃ xs, t'.emitted = t.emitted ++ xs ∧
      ∀ x ∈ xs, (∀ text, x ≠ .error text) → FromCurrentOrEnded t e x := by
  cases e with
  | connect =>
      cases hstep
      refine ⟨[], ?_, fun x hx => nomatch hx⟩
      unfold connect
      split
      · exact (List.append_nil _).symm
      · rw [tryConnect_emitted, List.append_nil]
  | close =>
      cases hstep
      exact ⟨[], (List.append_nil _).symm, fun x hx => nomatch hx⟩
  | emits client event =>
      simp only [step] at hstep
      split at hstep
      · split at hstep
        · cases hstep
          exact passed_handle hok
        · cases hstep
      · cases hstep

/-! ## Isolation -/

/-- As long as superseded clients emit nothing but their close and errors that
start no fallback, they are isolated. -/
theorem isolated_run {es : List MqttEvent} {t : MqttTransport}
    (hrun : Transition.run (step creates) {} es = some t)
    (hok : Transition.Along (step creates) (fun t e => ¬ Slips t e) {} es) :
    Isolated creates (fun t e => ¬ Slips t e) FromCurrentOrEnded t :=
  have h := kept_step.run kept_init hok hrun
  { once := h.once
    versions := h.versions
    closed := fun es' t' => @closed_run creates es' t.close t' rfl
    passed := fun _ _ hstep hok' => passed_step hok' hstep }

/-- A fallback, a `close()` and a second `connect()`; both ended clients close late. -/
def fallback : List MqttEvent :=
  [.connect, .emits 0 (.error (js "Unsupported protocol version")), .emits 1 .connect,
    .emits 0 .close, .close, .connect, .emits 1 .close, .emits 2 .connect]

theorem isolated_fallback :
    ∃ t, Transition.run (step fun _ => true) {} fallback = some t ∧
      t.client = some 2 ∧
      Isolated (fun _ => true) (fun t e => ¬ Slips t e) FromCurrentOrEnded t :=
  ⟨_, rfl, rfl, @isolated_run (fun _ => true) fallback _ rfl (by decide +kernel)⟩

/-- The close that `close()` completes with is that of a client which is not the
current one any more. -/
theorem disconnected_after_close :
    ¬ ∀ creates es t, Transition.run (step creates) {} es = some t →
      Isolated creates (fun _ _ => True) FromCurrent t := by
  intro h
  obtain ⟨xs, hxs, hcurrent⟩ :=
    (h (fun _ => true) [.connect, .emits 0 .connect, .close] _ rfl).passed (.emits 0 .close) _ rfl
      trivial
  have hdisconnected : xs = [.disconnected] := (List.cons.inj hxs).2.symm
  obtain ⟨client, event, -, hclient⟩ := hcurrent .disconnected (by simp [hdisconnected]) nofun
  cases hclient

end MqttTransport

end OpcUaSuite.Transports
