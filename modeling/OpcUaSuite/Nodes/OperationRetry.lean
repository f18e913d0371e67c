import OpcUaSuite.Client.ConnectionLoss
import OpcUaSuite.Nodes.ItemChain

/-!
# The retry loop of the client node

The input handler of opcua-client from the message to `done`: it resolves the
operation, ensures the connection, runs the operation, and reconnects and tries
again after the error of a lost connection. What connecting, the operation and
`reconnect()` come to is given from outside, an outcome for each `await`. The
attempts are counted by a number, which stops counting at 2 ^ 53.
-/

namespace OpcUaSuite.Nodes.OperationRetry

open Js Variants Client BinaryFloat

/-- The members of a message. -/
abbrev Message := InsertionMap JsString Value

def member (msg : Message) (name : JsString) : Value :=
  (InsertionMap.get? name msg).getD .undefined

/-- `Object.assign(msg, result)` -/
def assign (msg result : Message) : Message :=
  result.foldl (fun msg e => InsertionMap.set e.1 e.2 msg) msg

/-- `createError` without the error it wraps. -/
def createError (message : JsString) : Value :=
  .object [(js "message", .str message), (js "error", .str message)]

/-- The message has an error. -/
def hasError (msg : Message) : Bool := !(member msg (js "error")).isUndefined

structure Config where
  defaultOperation : Value := .undefined
  maxOperationRetries : JsValue := .undefined

/-- `Number(v)`, which raises nothing on what the editor stores. -/
def number (host : Host) (v : JsValue) : Double :=
  match host.number v with
  | .ok d => d
  | .error _ => .nan

/-- The bound of the loop; 3 where none is configured. -/
def Config.maxRetries (config : Config) (host : Host) : Double :=
  if config.maxOperationRetries.isNullish then Double.ofInt 3
  else number host config.maxOperationRetries

/-- `attempt >= maxOperationRetries` -/
def reached (max : Double) (attempt : Nat) : Bool :=
  !decide (max = .nan) && !max.gtInt attempt

/-- `attempt++` of a number. -/
def increment (attempt : Nat) : Nat := if attempt < 2 ^ 53 then attempt + 1 else attempt

/-! ## The operation -/

/-- The members a read replies with. -/
def readMembers : List JsString :=
  [js "payload", js "statusCode", js "sourceTimestamp", js "serverTimestamp", js "nodeId",
    js "dataType", js "itemName", js "operation", js "count"]

def writeMembers : List JsString :=
  [js "payload", js "statusCode", js "nodeId", js "operation", js "count"]

/-- The operations, with the members of their replies. -/
def replies : InsertionMap JsString (List JsString) :=
  [(js "read", readMembers), (js "readmultiple", readMembers), (js "write", writeMembers),
    (js "writemultiple", writeMembers), (js "subscribe", []),
    (js "unsubscribe", [js "nodeId", js "payload"]),
    (js "browse", [js "payload", js "references", js "nodeId", js "count"]),
    (js "method", [js "payload", js "methodResult", js "statusCode"]),
    (js "history", [js "payload", js "statusCode", js "nodeId", js "count"]),
    (js "getendpoints", [js "payload", js "count"]),
    (js "readattribute", [js "payload", js "statusCode", js "nodeId"]),
    (js "registernodes", [js "payload", js "operation"]),
    (js "unregisternodes", [js "payload", js "operation"]),
    (js "translatebrowsepath", [js "payload", js "statusCode"])]

/-- What `executeOperation` comes to: the reply, or no reply of a subscribe. -/
abbrev Result := Except JsString (Option Message)

def unknownOperation (operation : JsString) : JsString := js "Unknown operation: " ++ operation

/-- The results `executeOperation` may have. -/
def possible (operation : JsString) (result : Result) : Bool :=
  match InsertionMap.get? operation replies, result with
  | none, .error e => decide (e = unknownOperation operation)
  | none, .ok _ => false
  | some _, .error _ => true
  | some _, .ok none => decide (operation = js "subscribe")
  | some members, .ok (some reply) =>
      decide (operation ≠ js "subscribe") && reply.all fun e => decide (e.1 ∈ members)

/-! ## The handler -/

inductive Action
  | ran
  | failed (error : JsString)
  | succeeded
  | reconnected (error : Option JsString)
  | sent (msg : Message)
  | done (error : Option JsString)

namespace Action

def isRan : Action → Bool
  | .ran => true
  | _ => false

def isSent : Action → Bool
  | .sent _ => true
  | _ => false

def isDone : Action → Bool
  | .done _ => true
  | _ => false

/-- The end of an attempt, and whether it failed. -/
def attemptEnd? : Action → Option Bool
  | .failed _ => some true
  | .succeeded => some false
  | _ => none

end Action

/-- What the handler awaits, or how it ended. -/
inductive Point
  | connecting
  | operating
  | reconnecting
  | backingOff
  | ended
  | rejected (error : JsString)
deriving DecidableEq

structure Handling where
  point : Point
  attempt : Nat := 0
  operation : JsString := []
  msg : Message
  log : List Action := []

/-- The call of the handler, up to the loop. The operation is resolved before the
`try`, so a value without `toLowerCase` rejects the handler itself. -/
def input (env : Items.Environment) (config : Config) (msg : Message) : Handling :=
  match Items.resolveOperation env { defaultOperation := config.defaultOperation }
      { operation := member msg (js "operation") } with
  | .error e => { point := .rejected e, msg := msg }
  | .ok operation => {
      point := .connecting
      operation := operation
      msg := InsertionMap.set (js "operation") (.str operation) msg }

/-- How an `await` of the handler settles. -/
inductive Outcome
  | connected
  | connectFailed (error : JsString)
  | operationSettled (result : Result)
  | reconnectSettled (error : Option JsString)
  | backoffOver

namespace Handling

def record (s : Handling) (actions : List Action) : Handling :=
  { s with log := s.log ++ actions }

/-- The outer `catch`. -/
def surface (s : Handling) (error : JsString) : Handling :=
  let msg := InsertionMap.set (js "error") (createError error) s.msg
  { s with point := .ended, msg := msg, log := s.log ++ [.sent msg, .done (some error)] }

/-- The end of the handler after an operation that succeeded. -/
def succeed (s : Handling) (reply : Option Message) : Handling :=
  match reply with
  | none => { s with point := .ended, log := s.log ++ [.succeeded, .done none] }
  | some reply =>
      let msg := assign s.msg reply
      { s with point := .ended, msg := msg, log := s.log ++ [.succeeded, .sent msg, .done none] }

/-- The inner `catch`, up to `reconnect()`. -/
def caught (max : Double) (s : Handling) (error : JsString) : Handling :=
  let s := s.record [.failed error]
  if !isConnectionLostError error || reached max s.attempt then s.surface error
  else { s with point := .reconnecting, attempt := increment s.attempt }

def step (max : Double) (s : Handling) : Outcome → Option Handling
  | .connected =>
      if s.point = .connecting then some { s.record [.ran] with point := .operating } else none
  | .connectFailed error => if s.point = .connecting then some (s.caught max error) else none
  | .operationSettled result =>
      if s.point = .operating ∧ possible s.operation result then
        match result with
        | .error error => some (s.caught max error)
        | .ok reply => some (s.succeed reply)
      else none
  | .reconnectSettled error =>
      if s.point = .reconnecting then
        let s := s.record [.reconnected error]
        match error with
        | some error =>
            if reached max s.attempt then some (s.surface error)
            else some { s with point := .backingOff }
        | none => some { s with point := .backingOff }
      else none
  | .backoffOver =>
      if s.point = .backingOff then some { s with point := .connecting } else none

/-- How often the operation was run. -/
def runs (s : Handling) : Nat := s.log.countP Action.isRan

/-- The last attempt, if there was one, failed. -/
def lastFailed (s : Handling) : Bool :=
  ((s.log.filterMap Action.attemptEnd?).getLast?).getD false

/-- The handler has returned or was rejected. -/
def isOver (s : Handling) : Prop := s.point = .ended ∨ ∃ e, s.point = .rejected e

end Handling

/-! ## What the handler promises -/

/-- The number of runs is at most one more than the bound. -/
def AtMostOneMore (max : Double) (runs : Nat) : Prop :=
  max ≠ .nan ∧ max.ltInt (runs - 1) = false

/-- What is done once an attempt has run goes by the rules of the loop. -/
structure Answers (max : Double) (s : Handling) : Prop where
  bounded : AtMostOneMore max s.runs
  again : ∀ before after, s.log = before ++ .ran :: after → Action.ran ∈ before →
    ∃ earlier e r, before = earlier ++ [.failed e, .reconnected r] ∧
      isConnectionLostError e = true
  surfaced : ∀ e, .failed e ∈ s.log → isConnectionLostError e = false →
    ∃ earlier, s.log = earlier ++ [.failed e, .sent s.msg, .done (some e)] ∧
      member s.msg (js "error") = createError e
  doneOnce : s.isOver → s.log.countP Action.isDone = 1
  sentOnce : s.isOver → s.log.filter Action.isSent =
    if s.operation = js "subscribe" ∧ s.lastFailed = false then [] else [.sent s.msg]
  error_iff : s.isOver → (hasError s.msg = true ↔ s.lastFailed = true)

/-! ## What a step can do -/

/-- The steps of the handler. -/
inductive Moves (max : Double) (s : Handling) : Handling → Prop
  | starts (hpoint : s.point = .connecting) :
      Moves max s { s.record [.ran] with point := .operating }
  | retries (e : JsString) (hpoint : s.point = .connecting ∨ s.point = .operating)
      (hlost : isConnectionLostError e = true) (hpossible : s.point = .operating →
        possible s.operation (.error e) = true) (hleft : reached max s.attempt = false) :
      Moves max s { s.record [.failed e] with
        point := .reconnecting, attempt := increment s.attempt }
  | fails (e : JsString) (hpoint : s.point = .connecting ∨ s.point = .operating) :
      Moves max s ((s.record [.failed e]).surface e)
  | succeeds (reply : Option Message) (hpoint : s.point = .operating)
      (hpossible : possible s.operation (.ok reply) = true) : Moves max s (s.succeed reply)
  | reconnects (r : Option JsString) (hpoint : s.point = .reconnecting) :
      Moves max s { s.record [.reconnected r] with point := .backingOff }
  | givesUp (e : JsString) (hpoint : s.point = .reconnecting) :
      Moves max s ((s.record [.reconnected (some e)]).surface e)
  | resumes (hpoint : s.point = .backingOff) : Moves max s { s with point := .connecting }

theorem moves_caught {max : Double} {s : Handling} {e : JsString}
    (hpoint : s.point = .connecting ∨ s.point = .operating)
    (hpossible : s.point = .operating → possible s.operation (.error e) = true) :
    Moves max s (s.caught max e) := by
  simp only [Handling.caught]
  split
  next => exact .fails e hpoint
  next h =>
    rw [Bool.or_eq_true, not_or, Bool.not_eq_true, Bool.not_eq_false', Bool.not_eq_true] at h
    exact .retries e hpoint h.1 hpossible h.2

theorem moves_of_step {max : Double} {s s' : Handling} {o : Outcome}
    (h : s.step max o = some s') : Moves max s s' := by
  cases o with
  | connected =>
      simp only [Handling.step] at h
      split at h <;> cases h
      next hpoint => exact .starts hpoint
  | connectFailed e =>
      simp only [Handling.step] at h
      split at h <;> cases h
      next hpoint =>
        exact moves_caught (.inl hpoint) fun hother => by cases hpoint.symm.trans hother
  | operationSettled result =>
      simp only [Handling.step] at h
      split at h
      next hpoint =>
        cases result with
        | error e =>
            cases h
            exact moves_caught (.inr hpoint.1) fun _ => hpoint.2
        | ok reply =>
            cases h
            exact .succeeds reply hpoint.1 hpoint.2
      next => cases h
  | reconnectSettled r =>
      simp only [Handling.step] at h
      split at h
      next hpoint =>
        cases r with
        | none =>
            cases h
            exact .reconnects none hpoint
        | some e =>
            dsimp only at h
            split at h <;> cases h
            · exact .givesUp e hpoint
            · exact .reconnects (some e) hpoint
      next => cases h
  | backoffOver =>
      simp only [Handling.step] at h
      split at h <;> cases h
      next hpoint => exact .resumes hpoint

end OpcUaSuite.Nodes.OperationRetry
