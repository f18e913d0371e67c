import OpcUaSuite.Client.Manager
import OpcUaSuite.Client.Operations

/-!
# Work that outlives its session

The calls of `OpcUaClientManager` on its session, each behind `_withTimeout`, over
the manager that replaces the session while they are pending. A timer of
`_withTimeout` clears `isConnected`, and the last step of `_getVariableDataType`
writes to the cache, whatever the session is by then.
-/

namespace OpcUaSuite.Client

open Js

/-- A call on a session that has not settled; `_getVariableDataType` makes two of
them, one after the other. -/
inductive Work (V : Type)
  | operation (session : SessionId)
  | readingDataType (key : JsString) (session : SessionId)
  | readingBuiltIn (key : JsString) (dataTypeNodeId : V) (readOn session : SessionId)
deriving DecidableEq

/-- The session the pending call was made on. -/
def Work.session {V : Type} : Work V → SessionId
  | .operation s | .readingDataType _ s | .readingBuiltIn _ _ _ s => s

/-- An entry of `_dataTypeCache`, with the sessions its two parts were read on. -/
structure CachedType (V : Type) where
  info : DataTypeInfo V
  readOn : SessionId
  builtInOn : SessionId

/-- A timeout that cleared `isConnected`: the session of its call, and the session
of the manager at that time. -/
structure Cleared where
  started : SessionId
  current : Option SessionId
deriving DecidableEq

/-- The manager with its pending calls, its cache of DataTypes, and the timeouts
that cleared `isConnected`. Before the first session the cache is that of no session. -/
structure WorkingManager (V : Type) where
  manager : ClientManager := {}
  pending : InsertionMap Nat (Work V) := []
  nextWork : Nat := 0
  dataTypeCacheSession : Option SessionId := none
  dataTypeCache : InsertionMap JsString (CachedType V) := []
  cleared : List Cleared := []

inductive WorkEvent (V : Type)
  | ensureConnected (a : Answers)
  | operation
  | operationSettled (id : Nat)
  | getVariableDataType (key : JsString)
  | dataTypeRead (id : Nat) (dataTypeNodeId : Option V)
  | builtInRead (id : Nat) (builtIn : Option Nat)
  | timedOut (id : Nat)
  | manager (e : Event)

variable {V : Type}

namespace WorkingManager

def markDead (m : WorkingManager V) : WorkingManager V :=
  { m with manager := { m.manager with isConnected := false } }

/-- `_ensureConnected` -/
def ensureConnected (m : WorkingManager V) (a : Answers) : WorkingManager V :=
  if m.manager.isConnected && m.manager.session.isSome && (a.reconnecting || a.closed) then
    m.markDead
  else m

/-- A call on `this.session` and its timer; on null the call throws. -/
def request (m : WorkingManager V) (work : SessionId → Work V) : WorkingManager V :=
  match m.manager.session with
  | none => m
  | some s => { m with
      pending := InsertionMap.set m.nextWork (work s) m.pending
      nextWork := m.nextWork + 1 }

/-- A call has settled, and its timer is cleared. -/
def settle (m : WorkingManager V) (id : Nat) : WorkingManager V :=
  { m with pending := InsertionMap.erase id m.pending }

/-- The cache is that of the current session, or a new one. -/
def refreshCache (m : WorkingManager V) : WorkingManager V :=
  if m.dataTypeCacheSession = m.manager.session then m
  else { m with dataTypeCacheSession := m.manager.session, dataTypeCache := [] }

/-- `_getVariableDataType`, up to its first `await`. -/
def getVariableDataType (m : WorkingManager V) (key : JsString) : WorkingManager V :=
  let m := m.refreshCache
  match InsertionMap.get? key m.dataTypeCache with
  | some _ => m
  | none => m.request (.readingDataType key)

/-- The DataType attribute has been read; a bad one is thrown. -/
def dataTypeRead (m : WorkingManager V) (id : Nat) (dataTypeNodeId : Option V) :
    Option (WorkingManager V) :=
  match InsertionMap.get? id m.pending with
  | some (.readingDataType key readOn) =>
      some (match dataTypeNodeId with
        | none => m.settle id
        | some dataTypeNodeId => (m.settle id).request (.readingBuiltIn key dataTypeNodeId readOn))
  | _ => none

/-- The built-in type has been read; the result is cached. -/
def builtInRead (m : WorkingManager V) (id : Nat) (builtIn : Option Nat) :
    Option (WorkingManager V) :=
  match InsertionMap.get? id m.pending with
  | some (.readingBuiltIn key dataTypeNodeId readOn session) =>
      some (match builtIn with
        | none => m.settle id
        | some builtIn =>
            let info : CachedType V := ⟨⟨dataTypeNodeId, builtIn⟩, readOn, session⟩
            { m.settle id with dataTypeCache := InsertionMap.set key info m.dataTypeCache })
  | _ => none

/-- The timer of `_withTimeout` fires. -/
def timedOut (m : WorkingManager V) (id : Nat) : Option (WorkingManager V) :=
  (InsertionMap.get? id m.pending).map fun work =>
    { (m.settle id).markDead with
      cleared := m.cleared ++
        if m.manager.isConnected then [⟨work.session, m.manager.session⟩] else [] }

def step (m : WorkingManager V) : WorkEvent V → Option (WorkingManager V)
  | .ensureConnected a => some (m.ensureConnected a)
  | .operation => some (m.request .operation)
  | .operationSettled id =>
      match InsertionMap.get? id m.pending with
      | some (.operation _) => some (m.settle id)
      | _ => none
  | .getVariableDataType key => some (m.getVariableDataType key)
  | .dataTypeRead id dataTypeNodeId => m.dataTypeRead id dataTypeNodeId
  | .builtInRead id builtIn => m.builtInRead id builtIn
  | .timedOut id => m.timedOut id
  | .manager .markedDead => none
  | .manager e => (Client.step m.manager e).map fun manager => { m with manager := manager }

/-- No timeout of a call on an earlier session cleared the flag of a later one, and
the cache holds what was read on its session. -/
structure Faithful (m : WorkingManager V) : Prop where
  own : ∀ c ∈ m.cleared, ∀ s, c.current = some s → s = c.started
  cached : ∀ e ∈ m.dataTypeCache,
    m.dataTypeCacheSession = some e.2.readOn ∧ e.2.builtInOn = e.2.readOn

/-- The step is not one of the two that go wrong: a timer that fires while a later
session is connected, and a DataType that was not read on one session, or that
comes to the cache of another. -/
def Timely (m : WorkingManager V) : WorkEvent V → Prop
  | .timedOut id => ∀ work, InsertionMap.get? id m.pending = some work →
      m.manager.isConnected = true → ∀ s, m.manager.session = some s → s = work.session
  | .builtInRead id (some _) => ∀ key dataTypeNodeId readOn session,
      InsertionMap.get? id m.pending = some (.readingBuiltIn key dataTypeNodeId readOn session) →
        m.dataTypeCacheSession = some readOn ∧ session = readOn
  | _ => True

/-! ## What the steps do to the cache -/

@[simp] theorem cleared_request (m : WorkingManager V) (work : SessionId → Work V) :
    (m.request work).cleared = m.cleared := by
  rw [request]
  split <;> rfl

@[simp] theorem dataTypeCache_request (m : WorkingManager V) (work : SessionId → Work V) :
    (m.request work).dataTypeCache = m.dataTypeCache := by
  rw [request]
  split <;> rfl

@[simp] theorem dataTypeCacheSession_request (m : WorkingManager V) (work : SessionId → Work V) :
    (m.request work).dataTypeCacheSession = m.dataTypeCacheSession := by
  rw [request]
  split <;> rfl

/-- What does not touch the cache or the flag leaves both faithful. -/
theorem Faithful.same {m m' : WorkingManager V} (h : Faithful m)
    (hcleared : m'.cleared = m.cleared) (hcache : m'.dataTypeCache = m.dataTypeCache)
    (hsession : m'.dataTypeCacheSession = m.dataTypeCacheSession) : Faithful m' where
  own := by
    rw [hcleared]
    exact h.own
  cached := by
    rw [hcache, hsession]
    exact h.cached

theorem Faithful.request {m : WorkingManager V} (h : Faithful m) (work : SessionId → Work V) :
    Faithful (m.request work) :=
  h.same (cleared_request m work) (dataTypeCache_request m work)
    (dataTypeCacheSession_request m work)

/-- A cache that is made for another session is empty. -/
theorem Faithful.refreshCache {m : WorkingManager V} (h : Faithful m) :
    Faithful m.refreshCache := by
  rw [WorkingManager.refreshCache]
  split
  · exact h
  · exact ⟨h.own, fun e he => by cases he⟩

theorem Faithful.getVariableDataType {m : WorkingManager V} (h : Faithful m) (key : JsString) :
    Faithful (m.getVariableDataType key) := by
  rw [WorkingManager.getVariableDataType]
  split
  · exact h.refreshCache
  · exact h.refreshCache.request _

/-- A timeout is faithful just when its call was made on the session it clears. -/
theorem faithful_timedOut {m : WorkingManager V} (h : Faithful m) (id : Nat) :
    (∀ m', m.timedOut id = some m' → Faithful m') ↔ Timely m (.timedOut id) := by
  rw [timedOut]
  cases hget : InsertionMap.get? id m.pending with
  | none =>
      refine iff_of_true (fun m' hm' => nomatch hm') fun work hwork => ?_
      cases hget.symm.trans hwork
  | some work =>
      constructor
      · intro hfaithful work' hwork hconnected s hs
        cases hget.symm.trans hwork
        have hown := (hfaithful _ rfl).own ⟨work.session, m.manager.session⟩
        refine hown ?_ s hs
        simp [hconnected]
      · rintro htimely m' hm'
        cases hm'
        refine ⟨fun c hc s hs => ?_, h.cached⟩
        rcases List.mem_append.mp hc with hbefore | hnew
        · exact h.own c hbefore s hs
        · split at hnew
          next hconnected =>
            obtain rfl := List.mem_singleton.mp hnew
            exact htimely work hget hconnected s hs
          next => cases hnew

/-- An entry is faithful just when both its parts were read on the session of the cache. -/
theorem faithful_builtInRead {m : WorkingManager V} (h : Faithful m) (id : Nat)
    (builtIn : Option Nat) :
    (∀ m', m.builtInRead id builtIn = some m' → Faithful m') ↔
      Timely m (.builtInRead id builtIn) := by
  cases builtIn with
  | none =>
      refine iff_of_true (fun m' hm' => ?_) trivial
      rw [builtInRead] at hm'
      split at hm' <;> cases hm'
      exact h.same rfl rfl rfl
  | some builtIn =>
      constructor
      · intro hfaithful key dataTypeNodeId readOn session hget
        have hcached := (hfaithful _ (by rw [builtInRead, hget])).cached
          (key, ⟨⟨dataTypeNodeId, builtIn⟩, readOn, session⟩)
        exact hcached (InsertionMap.mem_of_get? (InsertionMap.get?_set_self key _ _))
      · intro htimely m' hm'
        rw [builtInRead] at hm'
        split at hm' <;> cases hm'
        next key dataTypeNodeId readOn session hget =>
          obtain ⟨hreadOn, hsession⟩ := htimely key dataTypeNodeId readOn session hget
          refine ⟨h.own, fun e he => ?_⟩
          rcases InsertionMap.mem_of_mem_set he with hold | rfl
          · exact h.cached e hold
          · exact ⟨hreadOn, hsession⟩

theorem step_manager_event {m m' : WorkingManager V} {e : Event}
    (hstep : m.step (.manager e) = some m') :
    ∃ manager, Client.step m.manager e = some manager ∧ m' = { m with manager := manager } := by
  have hmap : (Client.step m.manager e).map (fun manager => { m with manager := manager }) =
      some m' := by
    cases e with
    | markedDead => cases hstep
    | _ => exact hstep
  obtain ⟨manager, hmanager, rfl⟩ := Option.map_eq_some_iff.mp hmap
  exact ⟨manager, hmanager, rfl⟩

/-- The other steps keep the manager faithful. -/
theorem Faithful.step_other {m m' : WorkingManager V} (h : Faithful m) {e : WorkEvent V}
    (hstep : m.step e = some m') (htimeout : ∀ id, e ≠ .timedOut id)
    (hread : ∀ id builtIn, e ≠ .builtInRead id builtIn) : Faithful m' := by
  cases e with
  | ensureConnected a =>
      cases hstep
      rw [WorkingManager.ensureConnected]
      split
      · exact h.same rfl rfl rfl
      · exact h
  | operation =>
      cases hstep
      exact h.request _
  | operationSettled id =>
      simp only [step] at hstep
      split at hstep <;> cases hstep
      exact h.same rfl rfl rfl
  | getVariableDataType key =>
      cases hstep
      exact h.getVariableDataType key
  | dataTypeRead id dataTypeNodeId =>
      simp only [step, dataTypeRead] at hstep
      split at hstep <;> cases hstep
      cases dataTypeNodeId with
      | none => exact h.same rfl rfl rfl
      | some dataTypeNodeId =>
          have hsettled : Faithful (m.settle id) := h.same rfl rfl rfl
          exact hsettled.request _
  | builtInRead id builtIn => exact absurd rfl (hread id builtIn)
  | timedOut id => exact absurd rfl (htimeout id)
  | manager e =>
      obtain ⟨manager, -, rfl⟩ := step_manager_event hstep
      exact h.same rfl rfl rfl

/-- A step of the manager with its work leaves the manager alone or is one of its steps. -/
theorem step_manager {m m' : WorkingManager V} {e : WorkEvent V} (hstep : m.step e = some m') :
    m'.manager = m.manager ∨ ∃ e', Client.step m.manager e' = some m'.manager := by
  have hrequest : ∀ (m : WorkingManager V) (work : SessionId → Work V),
      (m.request work).manager = m.manager := by
    intro m work
    rw [request]
    split <;> rfl
  cases e with
  | ensureConnected a =>
      cases hstep
      rw [ensureConnected]
      split
      · exact .inr ⟨.markedDead, rfl⟩
      · exact .inl rfl
  | operation =>
      cases hstep
      exact .inl (hrequest m _)
  | operationSettled id =>
      simp only [step] at hstep
      split at hstep <;> cases hstep
      exact .inl rfl
  | getVariableDataType key =>
      cases hstep
      have hrefresh : m.refreshCache.manager = m.manager := by
        rw [refreshCache]
        split <;> rfl
      rw [getVariableDataType]
      split
      · exact .inl hrefresh
      · exact .inl ((hrequest _ _).trans hrefresh)
  | dataTypeRead id dataTypeNodeId =>
      simp only [step, dataTypeRead] at hstep
      split at hstep <;> cases hstep
      cases dataTypeNodeId with
      | none => exact .inl rfl
      | some dataTypeNodeId => exact .inl (hrequest _ _)
  | builtInRead id builtIn =>
      simp only [step, builtInRead] at hstep
      split at hstep <;> cases hstep
      cases builtIn <;> exact .inl rfl
  | timedOut id =>
      obtain ⟨work, -, rfl⟩ := Option.map_eq_some_iff.mp hstep
      exact .inr ⟨.markedDead, rfl⟩
  | manager e =>
      obtain ⟨manager, hmanager, rfl⟩ := step_manager_event hstep
      exact .inr ⟨e, hmanager⟩

/-- A run of the manager with its work is a run of the manager. -/
theorem run_manager {es : List (WorkEvent V)} {m m' : WorkingManager V}
    (hrun : Transition.run step m es = some m') :
    ∃ es', Transition.run Client.step m.manager es' = some m'.manager := by
  induction es generalizing m with
  | nil =>
      cases hrun
      exact ⟨[], rfl⟩
  | cons e es ih =>
      obtain ⟨t, hstep, hrest⟩ := Transition.run_cons.mp hrun
      obtain ⟨es', hes'⟩ := ih hrest
      rcases step_manager hstep with hsame | ⟨e', he'⟩
      · exact ⟨es', hsame ▸ hes'⟩
      · exact ⟨e' :: es', Transition.run_cons.mpr ⟨t.manager, he', hes'⟩⟩

/-- The work of the manager is faithful throughout a run just when every step of it
is timely. -/
theorem faithful_iff_timely (es : List (WorkEvent V)) :
    Transition.Throughout step Faithful {} es ↔ Transition.Along step Timely {} es := by
  apply Transition.throughout_iff_along
  · intro m e m' h hok hstep
    cases e with
    | timedOut id => exact (faithful_timedOut h id).mpr hok m' hstep
    | builtInRead id builtIn => exact (faithful_builtInRead h id builtIn).mpr hok m' hstep
    | _ => exact h.step_other hstep nofun nofun
  · intro m e h hfaithful
    cases e with
    | timedOut id => exact (faithful_timedOut h id).mp hfaithful
    | builtInRead id builtIn => exact (faithful_builtInRead h id builtIn).mp hfaithful
    | _ => trivial
  · exact ⟨fun c hc => (by cases hc), fun e he => (by cases he)⟩

/-- A read is pending when the connection is lost and a new session is opened; its
timer clears the flag of the new session. -/
theorem stale_timer_marks_new_session : ¬ ∀ es : List (WorkEvent Nat),
    Transition.Throughout step Faithful {} es := by
  intro h
  have hend := (h
    [.manager (.connect {}), .manager (.attemptResumed true {}), .manager (.attemptResumed true {}),
      .manager (.attemptResumed true {}), .manager .attemptOver, .operation,
      .manager (.connectionLost 0), .manager (.reconnect 0 {}), .manager (.attemptResumed true {}),
      .manager (.attemptResumed true {}), .manager (.attemptResumed true {}),
      .manager (.attemptResumed true {}), .manager (.attemptResumed true {}),
      .manager .attemptOver, .timedOut 0]).last rfl
  exact absurd (hend.own ⟨0, some 1⟩ (by decide +kernel) 1 rfl) (by decide)

end WorkingManager

end OpcUaSuite.Client
