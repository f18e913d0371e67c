import OpcUaSuite.Js.Json
import OpcUaSuite.Lib.InsertionMap
import OpcUaSuite.Lib.Transition

/-!
# The browse connections of the editor

The managers that opcua-browse-client keeps for the editor, one for each endpoint,
with the attempts that open them and the timers that close them when they are
idle. A request uses a manager when it is handed over, at once or at the end of
the attempt the request shares. A timer that is cleared never fires; one that is
not may fire any time after it is due.
-/

namespace OpcUaSuite.Nodes

open Js

/-- `IDLE_TIMEOUT_MS` -/
def idleTimeoutMs : Nat := 60000

/-- An entry of `browseConnections`. -/
structure BrowseConnection where
  mgr : Nat
  timer : Nat
deriving DecidableEq

/-- The attempt behind an entry of `pendingConnections`, until its `finally` has
run. It awaits `connect()`, or the `disconnect()` after a failure. -/
inductive BrowseAttempt
  | connecting (mgr : Nat)
  | disconnecting (mgr : Nat)
  | settled (mgr : Option Nat)
deriving DecidableEq

/-- A timer that closes the connection of an endpoint. -/
structure IdleTimer where
  endpointId : JsString
  deadline : Nat
deriving DecidableEq

/-- A manager that a timer closed: when, and when it was last used. -/
structure IdleClose where
  mgr : Nat
  closedAt : Nat
  lastUse : Option Nat
deriving DecidableEq

/-- The cache, the clock and the timers, and of the managers those connected, those
told to disconnect, and the last use of each. -/
structure BrowseCache where
  now : Nat := 0
  browseConnections : InsertionMap JsString BrowseConnection := []
  pendingConnections : InsertionMap JsString BrowseAttempt := []
  timers : InsertionMap Nat IdleTimer := []
  nextTimer : Nat := 0
  nextManager : Nat := 0
  connected : List Nat := []
  told : List Nat := []
  lastUse : InsertionMap Nat Nat := []
  idleCloses : List IdleClose := []
deriving DecidableEq

inductive CacheEvent
  | wait (ms : Nat)
  | request (id : JsString) (constructs : Bool)
  | connectSettled (id : JsString) (ok : Bool)
  | disconnectSettled (id : JsString)
  | attemptOver (id : JsString)
  | connectionChanged (mgr : Nat) (isConnected : Bool)
  | timerFired (timer : Nat)
  | disconnectRequest (id : JsString)
  | flowsStopped
deriving DecidableEq

namespace BrowseCache

/-! ## The cache -/

/-- The manager is handed to a request. -/
def use (c : BrowseCache) (mgr : Nat) : BrowseCache :=
  { c with lastUse := InsertionMap.set mgr c.now c.lastUse }

/-- `clearTimeout` of the timer of an entry, and a new one in its place. -/
def renew (c : BrowseCache) (id : JsString) (e : BrowseConnection) : BrowseCache :=
  { c with
    browseConnections := InsertionMap.set id ⟨e.mgr, c.nextTimer⟩ c.browseConnections
    timers := InsertionMap.set c.nextTimer ⟨id, c.now + idleTimeoutMs⟩
      (InsertionMap.erase e.timer c.timers)
    nextTimer := c.nextTimer + 1 }

/-- The entry is deleted and its manager told to disconnect. -/
def remove (c : BrowseCache) (id : JsString) (mgr : Nat) : BrowseCache :=
  { c with
    browseConnections := InsertionMap.erase id c.browseConnections
    told := mgr :: c.told }

def clearTimer (c : BrowseCache) (timer : Nat) : BrowseCache :=
  { c with timers := InsertionMap.erase timer c.timers }

/-- The attempt in flight, or a new one: `createBrowseConnection` up to its `await`,
which ends at once when the manager cannot be made. -/
def share (c : BrowseCache) (id : JsString) (constructs : Bool) : BrowseCache :=
  match InsertionMap.get? id c.pendingConnections with
  | some _ => c
  | none =>
      if constructs then
        { c with
          pendingConnections := InsertionMap.set id (.connecting c.nextManager) c.pendingConnections
          nextManager := c.nextManager + 1 }
      else
        { c with pendingConnections := InsertionMap.set id (.settled none) c.pendingConnections }

/-- `getBrowseConnection` -/
def getBrowseConnection (c : BrowseCache) (id : JsString) (constructs : Bool) : BrowseCache :=
  match InsertionMap.get? id c.browseConnections with
  | none => c.share id constructs
  | some existing =>
      let c := c.renew id existing
      if existing.mgr ∈ c.connected then c.use existing.mgr
      else (c.remove id existing.mgr).share id constructs

/-- The manager of a successful attempt joins the cache. -/
def adopt (c : BrowseCache) (id : JsString) (mgr : Nat) : BrowseCache :=
  { c with
    browseConnections := InsertionMap.set id ⟨mgr, c.nextTimer⟩ c.browseConnections
    pendingConnections := InsertionMap.set id (.settled (some mgr)) c.pendingConnections
    timers := InsertionMap.set c.nextTimer ⟨id, c.now + idleTimeoutMs⟩ c.timers
    nextTimer := c.nextTimer + 1
    lastUse := InsertionMap.set mgr c.now c.lastUse }

/-- `createBrowseConnection` after its `await` of `connect()`. -/
def connectSettled (c : BrowseCache) (id : JsString) (ok : Bool) : Option BrowseCache :=
  match InsertionMap.get? id c.pendingConnections with
  | some (.connecting mgr) =>
      some (if ok then c.adopt id mgr
        else { c with
          pendingConnections := InsertionMap.set id (.disconnecting mgr) c.pendingConnections
          told := mgr :: c.told })
  | _ => none

/-- The `disconnect()` after a failure has settled, and the error is thrown. -/
def disconnectSettled (c : BrowseCache) (id : JsString) : Option BrowseCache :=
  match InsertionMap.get? id c.pendingConnections with
  | some (.disconnecting _) =>
      some { c with pendingConnections := InsertionMap.set id (.settled none) c.pendingConnections }
  | _ => none

/-- The `finally` of `getBrowseConnection`. -/
def attemptOver (c : BrowseCache) (id : JsString) : Option BrowseCache :=
  match InsertionMap.get? id c.pendingConnections with
  | some (.settled _) =>
      some { c with pendingConnections := InsertionMap.erase id c.pendingConnections }
  | _ => none

/-- `closeBrowseConnection`, up to its `await`. -/
def closeBrowseConnection (c : BrowseCache) (id : JsString) : BrowseCache :=
  match InsertionMap.get? id c.browseConnections with
  | none => c
  | some entry => (c.remove id entry.mgr).clearTimer entry.timer

/-- `closeAllBrowseConnections` -/
def closeAllBrowseConnections (c : BrowseCache) : BrowseCache :=
  (InsertionMap.keys c.browseConnections).foldl closeBrowseConnection c

/-- The manager is closed by a timer. -/
def recordIdleClose (c : BrowseCache) (mgr : Nat) : BrowseCache :=
  { c with idleCloses := ⟨mgr, c.now, InsertionMap.get? mgr c.lastUse⟩ :: c.idleCloses }

/-- A timer closes whatever connection its endpoint has by then. -/
def timerFired (c : BrowseCache) (t : Nat) : Option BrowseCache :=
  match InsertionMap.get? t c.timers with
  | none => none
  | some timer =>
      if timer.deadline ≤ c.now then
        let c := c.clearTimer t
        some (match InsertionMap.get? timer.endpointId c.browseConnections with
          | none => c
          | some entry =>
              (c.recordIdleClose entry.mgr).closeBrowseConnection timer.endpointId)
      else none

def step (c : BrowseCache) : CacheEvent → Option BrowseCache
  | .wait ms => some { c with now := c.now + ms }
  | .request id constructs => some (c.getBrowseConnection id constructs)
  | .connectSettled id ok => c.connectSettled id ok
  | .disconnectSettled id => c.disconnectSettled id
  | .attemptOver id => c.attemptOver id
  | .connectionChanged mgr isConnected =>
      some { c with connected :=
        if isConnected then mgr :: c.connected else c.connected.filter (· ≠ mgr) }
  | .timerFired t => c.timerFired t
  | .disconnectRequest id => some (c.closeBrowseConnection id)
  | .flowsStopped => some c.closeAllBrowseConnections

/-! ## What a step can do -/

theorem connectSettled_cases {c c' : BrowseCache} {id : JsString} {ok : Bool}
    (h : c.connectSettled id ok = some c') :
    ∃ mgr, InsertionMap.get? id c.pendingConnections = some (.connecting mgr) ∧
      c' = if ok then c.adopt id mgr
        else { c with
          pendingConnections := InsertionMap.set id (.disconnecting mgr) c.pendingConnections
          told := mgr :: c.told } := by
  unfold connectSettled at h
  split at h
  next mgr hattempt => exact ⟨mgr, hattempt, (Option.some.inj h).symm⟩
  next => cases h

theorem disconnectSettled_cases {c c' : BrowseCache} {id : JsString}
    (h : c.disconnectSettled id = some c') :
    ∃ mgr, InsertionMap.get? id c.pendingConnections = some (.disconnecting mgr) ∧
      c' = { c with
        pendingConnections := InsertionMap.set id (.settled none) c.pendingConnections } := by
  unfold disconnectSettled at h
  split at h
  next mgr hattempt => exact ⟨mgr, hattempt, (Option.some.inj h).symm⟩
  next => cases h

theorem attemptOver_cases {c c' : BrowseCache} {id : JsString} (h : c.attemptOver id = some c') :
    ∃ m, InsertionMap.get? id c.pendingConnections = some (.settled m) ∧
      c' = { c with pendingConnections := InsertionMap.erase id c.pendingConnections } := by
  unfold attemptOver at h
  split at h
  next m hattempt => exact ⟨m, hattempt, (Option.some.inj h).symm⟩
  next => cases h

/-- A timer that fires is due, and closes the connection of its endpoint if there is one. -/
theorem timerFired_cases {c c' : BrowseCache} {t : Nat} (h : c.timerFired t = some c') :
    ∃ timer, InsertionMap.get? t c.timers = some timer ∧ timer.deadline ≤ c.now ∧
      ((InsertionMap.get? timer.endpointId c.browseConnections = none ∧ c' = c.clearTimer t) ∨
        ∃ e, InsertionMap.get? timer.endpointId c.browseConnections = some e ∧
          c' = ((c.clearTimer t).recordIdleClose e.mgr).closeBrowseConnection
            timer.endpointId) := by
  unfold timerFired at h
  split at h
  next => cases h
  next timer htimer =>
    split at h
    next hdue =>
      refine ⟨timer, htimer, hdue, ?_⟩
      have hresult := (Option.some.inj h).symm
      split at hresult
      next hnone => exact .inl ⟨hnone, hresult⟩
      next e he => exact .inr ⟨e, he, hresult⟩
    next => cases h

end BrowseCache

end OpcUaSuite.Nodes
