import OpcUaSuite.Nodes.EndpointSharing

/-!
# Waiting before the next attempt

The delays of a manager: `toCount` on what the editor stored, the strategy handed to the
library for the retries inside one connect attempt, and the back-off of the background
reconnect. Delays are integers, and doubling one is exact; what exceeds the range of
numbers is above the cap anyway.
-/

namespace OpcUaSuite.Client

open Js Nodes

/-- `BACKGROUND_RECONNECT_MAX_DELAY_MS` -/
def backgroundReconnectMaxDelayMs : Nat := 60000

def toCount (host : Host) (value : JsValue) (fallback : Nat) : Nat :=
  if value.isNullish || decide (value = .str []) then fallback
  else
    match host.number value with
    | .ok n => if n.isFinite && !n.ltInt 0 then n.trunc.toNat else fallback
    | .error _ => fallback

/-- The fields of a manager that its waiting depends on; a delay of zero is replaced. -/
structure Waiting where
  maxReconnectAttempts : Nat
  reconnectDelay : Nat
  reconnectDelay_pos : 0 < reconnectDelay

/-- A number that is set, or undefined. -/
def numberOrUndefined : Option Double → JsValue
  | some d => .num d
  | none => .undefined

/-- `a || b` for a count -/
def orCount (a b : Nat) : Nat := if a = 0 then b else a

/-- The constructor of the manager. -/
def waiting (host : Host) (config : ManagerConfig) : Waiting where
  maxReconnectAttempts := toCount host (numberOrUndefined config.maxReconnectAttempts) 10
  reconnectDelay := orCount (toCount host (numberOrUndefined config.reconnectDelay) 5000) 5000
  reconnectDelay_pos := by
    unfold orCount
    split
    next => decide
    next h => exact Nat.pos_of_ne_zero h

structure ConnectionStrategy where
  initialDelay : Nat
  maxRetry : Nat
  maxDelay : Nat
deriving DecidableEq

namespace Waiting

variable (w : Waiting)

def connectionStrategy : ConnectionStrategy :=
  let maxDelay := max w.reconnectDelay 2
  ⟨min 1000 (maxDelay / 2), w.maxReconnectAttempts, maxDelay⟩

/-- `_backgroundReconnectDelay`, for attempts counted from one. -/
def backgroundReconnectDelay (attempt : Nat) : Nat :=
  min (w.reconnectDelay * 2 ^ min (attempt - 1) 16) (max backgroundReconnectMaxDelayMs w.reconnectDelay)

/-- The cap of the background delays. -/
def cap : Nat := max backgroundReconnectMaxDelayMs w.reconnectDelay

/-! ## The background reconnect -/

/-- The timer and the counter of `scheduleReconnect`, and the delays since the counter was
last reset. -/
structure Background where
  timer : Bool := false
  reconnectAttempts : Nat := 0
  delays : List Nat := []

/-- A connect attempt fails, the timer fires, or the counter is reset, by an attempt that
succeeds or by `reconnect()`. -/
inductive BackgroundEvent
  | failed
  | fired
  | reset

/-- `scheduleReconnect` -/
def scheduleReconnect (b : Background) : Background :=
  if b.timer then b
  else
    { timer := true
      reconnectAttempts := b.reconnectAttempts + 1
      delays := b.delays ++ [w.backgroundReconnectDelay (b.reconnectAttempts + 1)] }

def step (b : Background) : BackgroundEvent → Option Background
  | .failed => some (w.scheduleReconnect b)
  | .fired => if b.timer then some { b with timer := false } else none
  | .reset => some { b with reconnectAttempts := 0, delays := [] }

/-- The delays that follow a first one, each twice the one before, up to a cap. -/
def doubling (cap : Nat) : Nat → Nat → List Nat
  | 0, _ => []
  | n + 1, delay => delay :: doubling cap n (min (2 * delay) cap)

/-- The library requires a back-off whose cap is above its first delay. -/
theorem connectionStrategy_accepted :
    0 < w.connectionStrategy.initialDelay ∧
      w.connectionStrategy.initialDelay < w.connectionStrategy.maxDelay := by
  have hcap : 2 ≤ max w.reconnectDelay 2 := Nat.le_max_right ..
  have hhalf : 1 ≤ max w.reconnectDelay 2 / 2 := by omega
  constructor
  · exact Nat.lt_min.mpr ⟨by decide, hhalf⟩
  · exact Nat.lt_of_le_of_lt (Nat.min_le_right ..) (Nat.div_lt_self (by omega) (by decide))

theorem backgroundReconnectDelay_first : w.backgroundReconnectDelay 1 = w.reconnectDelay := by
  rw [backgroundReconnectDelay, Nat.sub_self, Nat.zero_min, Nat.pow_zero, Nat.mul_one]
  exact Nat.min_eq_left (Nat.le_max_right ..)

/-- From the seventeenth attempt on the delay is the cap, as a second doubled so often is more
than a minute. -/
theorem backgroundReconnectDelay_settled {attempt : Nat} (h : 17 ≤ attempt) :
    w.backgroundReconnectDelay attempt = w.cap := by
  have hexp : min (attempt - 1) 16 = 16 := Nat.min_eq_right (by omega)
  have hpos := w.reconnectDelay_pos
  rw [backgroundReconnectDelay, hexp]
  refine Nat.min_eq_right (Nat.max_le.mpr ⟨?_, ?_⟩)
  · change 60000 ≤ w.reconnectDelay * 65536
    omega
  · omega

/-- Each background delay is twice the one before, up to the cap. -/
theorem backgroundReconnectDelay_next (k : Nat) :
    w.backgroundReconnectDelay (k + 2) = min (2 * w.backgroundReconnectDelay (k + 1)) w.cap := by
  rcases Nat.lt_or_ge k 16 with hlt | hge
  · have hexp : min (k + 2 - 1) 16 = k + 1 := Nat.min_eq_left (by omega)
    have hexp' : min (k + 1 - 1) 16 = k := Nat.min_eq_left (by omega)
    have hdouble : w.reconnectDelay * 2 ^ (k + 1) = 2 * (w.reconnectDelay * 2 ^ k) := by
      rw [Nat.pow_succ, ← Nat.mul_assoc, Nat.mul_comm]
    unfold backgroundReconnectDelay cap
    rw [hexp, hexp', hdouble]
    omega
  · rw [w.backgroundReconnectDelay_settled (by omega), w.backgroundReconnectDelay_settled (by omega)]
    omega

theorem doubling_eq (n k : Nat) : doubling w.cap n (w.backgroundReconnectDelay (k + 1)) =
    (List.range n).map fun i => w.backgroundReconnectDelay (k + i + 1) := by
  induction n generalizing k with
  | zero => rfl
  | succ n ih =>
      rw [doubling, ← w.backgroundReconnectDelay_next, ih, List.range_succ_eq_map, List.map_cons,
        List.map_map]
      refine congrArg _ (List.map_congr_left fun i _ => ?_)
      exact congrArg _ (by simp only [Nat.succ_eq_add_one]; omega)

/-- The delays since the counter was reset are those of its attempts. -/
def Recorded (b : Background) : Prop :=
  b.delays = (List.range b.reconnectAttempts).map fun i => w.backgroundReconnectDelay (i + 1)

theorem recorded_step {b b' : Background} {e : BackgroundEvent} (h : w.Recorded b)
    (hstep : w.step b e = some b') : w.Recorded b' := by
  cases e with
  | failed =>
      cases hstep
      unfold scheduleReconnect
      split
      next => exact h
      next =>
        change b.delays ++ _ = _
        rw [List.range_succ, List.map_append, ← h]
        rfl
  | fired =>
      simp only [step] at hstep
      split at hstep
      next =>
        cases hstep
        exact h
      next => cases hstep
  | reset =>
      cases hstep
      rfl

theorem recorded_run {b : Background} {es : List BackgroundEvent}
    (hrun : Transition.run w.step {} es = some b) : w.Recorded b := by
  have hstart : w.Recorded {} := rfl
  have hkeep : Transition.Preserves w.step (fun _ _ => True) w.Recorded :=
    fun _ _ _ h _ hstep => w.recorded_step h hstep
  exact hkeep.run hstart (Transition.along_of_forall (fun _ _ => trivial) _ es) hrun

theorem backgroundReconnectDelay_mem (attempt : Nat) :
    w.reconnectDelay ≤ w.backgroundReconnectDelay attempt ∧
      w.backgroundReconnectDelay attempt ≤ w.cap := by
  refine ⟨Nat.le_min.mpr ⟨?_, Nat.le_max_right ..⟩, Nat.min_le_right ..⟩
  exact Nat.le_mul_of_pos_right _ (Nat.pow_pos (by decide))

/-- Whatever was configured, the library accepts the strategy of the manager, and in every
run the background delays since the last success start at the configured one and double up
to the cap. -/
theorem waits_double (host : Host) (config : ManagerConfig) {es : List BackgroundEvent}
    {b : Background} (hrun : Transition.run (waiting host config).step {} es = some b) :
    let w := waiting host config
    (0 < w.connectionStrategy.initialDelay ∧
        w.connectionStrategy.initialDelay < w.connectionStrategy.maxDelay) ∧
      b.delays = doubling w.cap b.reconnectAttempts w.reconnectDelay ∧
      ∀ delay ∈ b.delays, w.reconnectDelay ≤ delay ∧ delay ≤ w.cap := by
  have hrecorded : b.delays = _ := recorded_run _ hrun
  refine ⟨connectionStrategy_accepted _, ?_, fun delay hdelay => ?_⟩
  · have hdoubling := (waiting host config).doubling_eq b.reconnectAttempts 0
    simp only [Nat.zero_add, backgroundReconnectDelay_first] at hdoubling
    rw [hdoubling, hrecorded]
  · rw [hrecorded] at hdelay
    obtain ⟨i, -, rfl⟩ := List.mem_map.mp hdelay
    exact backgroundReconnectDelay_mem _ _

/-- Nothing is set, the first attempt fails, and so does the one the timer starts. -/
theorem waits_double_default :
    let w := waiting .inert (managerConfig .inert SharedEndpoint.bareEndpoint (fun _ => false)
      SharedEndpoint.bareClient)
    (0 < w.connectionStrategy.initialDelay ∧
        w.connectionStrategy.initialDelay < w.connectionStrategy.maxDelay) ∧
      [5000, 10000] = doubling w.cap 2 w.reconnectDelay ∧
      ∀ delay ∈ [5000, 10000], w.reconnectDelay ≤ delay ∧ delay ≤ w.cap := by
  have hrun : Transition.run (waiting .inert (managerConfig .inert SharedEndpoint.bareEndpoint
      (fun _ => false) SharedEndpoint.bareClient)).step {} [.failed, .fired, .failed] =
      some ⟨true, 2, [5000, 10000]⟩ := rfl
  exact waits_double .inert _ hrun

end Waiting

end OpcUaSuite.Client
