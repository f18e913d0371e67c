import OpcUaSuite.Lib.Transition
import Mathlib.Data.List.Basic

/-!
# Certificate initialisation, one at a time

pki-lock: every server and every client initialises its certificate in a chain of
promises. A call waits for the promise that was the end of the chain when it came, and
its own promise, caught, becomes the end. The chain runs the initialisations in the
order of the calls, and none begins before all earlier ones have settled.
-/

namespace OpcUaSuite.PkiLock

/-- Where a call stands: its task has not been called; it has; its promise has settled; and
so has the caught one that the next call waits for. -/
inductive Stage
  | queued
  | running
  | settled (fulfilled : Bool)
  | released (fulfilled : Bool)
deriving DecidableEq

/-- Whether a call in that stage lets the next one go. -/
def hasReleased : Option Stage → Bool
  | some (.released _) => true
  | _ => false

/-- A call, with the one whose caught promise it waits for. -/
structure Call where
  previous : Option Nat
  stage : Stage

/-- The calls in the order they came, and the end of the chain. -/
structure Chain where
  calls : List Call
  tail : Option Nat

def Chain.start : Chain := ⟨[], none⟩

/-- What the event loop can do next: a server initialises, or a client that may have
`initializeCM` connects; or the chain goes on. A task that is no promise, or throws, settles
as one. -/
inductive Turn
  | server
  | client (initializeCM : Bool)
  | begin (i : Nat)
  | settle (i : Nat) (fulfilled : Bool)
  | release (i : Nat)

namespace Chain

variable (c : Chain)

def stage? (i : Nat) : Option Stage := (c.calls[i]?).map Call.stage

def isReleased (i : Nat) : Bool := hasReleased (c.stage? i)

def moveTo (i : Nat) (stage : Stage) : Chain :=
  { c with calls := c.calls.modify i fun call => { call with stage } }

/-- `withPkiLock` -/
def withPkiLock : Chain := ⟨c.calls ++ [⟨c.tail, .queued⟩], some c.calls.length⟩

/-- `prepareClientCertificate`: a client without `initializeCM` is left alone. -/
def prepareClientCertificate (initializeCM : Bool) : Chain :=
  if initializeCM then c.withPkiLock else c

/-- The first call waits for a promise that is resolved from the start. -/
def ready (call : Call) : Bool :=
  match call.previous with
  | none => true
  | some i => c.isReleased i

def step : Turn → Option Chain
  | .server => some c.withPkiLock
  | .client initializeCM => some (c.prepareClientCertificate initializeCM)
  | .begin i =>
      match c.calls[i]? with
      | some call => if call.stage = .queued ∧ c.ready call then some (c.moveTo i .running) else none
      | none => none
  | .settle i fulfilled =>
      if c.stage? i = some .running then some (c.moveTo i (.settled fulfilled)) else none
  | .release i =>
      match c.stage? i with
      | some (.settled fulfilled) => some (c.moveTo i (.released fulfilled))
      | _ => none

/-- Nothing is left to do: no task is running, and no promise is about to call or settle. -/
def AtRest : Prop :=
  ∀ i, c.stage? i ≠ some .running ∧ c.step (.begin i) = none ∧ c.step (.release i) = none

end Chain

/-! ## What is done, in order -/

/-- A task is called, or its promise settles. -/
inductive Mark
  | began (i : Nat)
  | ended (i : Nat)
deriving DecidableEq

def mark? : Turn → Option Mark
  | .server | .client _ | .release _ => none
  | .begin i => some (.began i)
  | .settle i _ => some (.ended i)

/-- The calls of the lock. -/
def requests (turns : List Turn) : Nat :=
  turns.countP fun
    | .server => true
    | .client initializeCM => initializeCM
    | _ => false

def marks (turns : List Turn) : List Mark := turns.filterMap mark?

/-- The tasks of the first calls one after another. -/
def inTurn (n : Nat) : List Mark := (List.range n).flatMap fun i => [.began i, .ended i]

/-- The marks of a call by the stage it is in. -/
def marksOf (i : Nat) : Option Stage → List Mark
  | some .running => [.began i]
  | some (.settled _) => [.began i, .ended i]
  | _ => []

theorem inTurn_succ (n : Nat) : inTurn (n + 1) = inTurn n ++ [.began n, .ended n] := by
  rw [inTurn, List.range_succ, List.flatMap_append]
  rfl

/-- The call before a position. -/
def before : Nat → Option Nat
  | 0 => none
  | i + 1 => some i

/-- The calls up to `done` are over, those behind the next one have not begun, and the
marks are those of the tasks one after another. -/
structure Serial (c : Chain) (done : Nat) (log : List Mark) : Prop where
  tail : c.tail = before c.calls.length
  linked : ∀ i call, c.calls[i]? = some call → call.previous = before i
  bound : done ≤ c.calls.length
  released : ∀ i, i < done → c.isReleased i = true
  current : c.isReleased done = false
  queued : ∀ i stage, done < i → c.stage? i = some stage → stage = .queued
  log_eq : log = inTurn done ++ marksOf done (c.stage? done)

theorem serial_start : Serial .start 0 [] := by
  refine ⟨rfl, ?_, Nat.zero_le _, fun _ h => absurd h (Nat.not_lt_zero _), rfl, ?_, rfl⟩
  · intro i call h
    cases h
  · intro i stage _ h
    cases h

namespace Chain

variable {c : Chain}

theorem stage?_moveTo (i j : Nat) (stage : Stage) :
    (c.moveTo i stage).stage? j = if i = j then (c.stage? j).map fun _ => stage else c.stage? j := by
  unfold stage? moveTo
  rw [List.getElem?_modify]
  split
  next => cases c.calls[j]? <;> rfl
  next => cases c.calls[j]? <;> rfl

theorem stage?_moveTo_self {i : Nat} {old : Stage} (h : c.stage? i = some old) (stage : Stage) :
    (c.moveTo i stage).stage? i = some stage := by
  rw [stage?_moveTo, if_pos rfl, h]
  rfl

theorem stage?_moveTo_of_ne {i j : Nat} (h : i ≠ j) (stage : Stage) :
    (c.moveTo i stage).stage? j = c.stage? j := by
  rw [stage?_moveTo, if_neg h]

theorem stage?_lt {i : Nat} {stage : Stage} (h : c.stage? i = some stage) : i < c.calls.length := by
  obtain ⟨call, hcall, -⟩ := Option.map_eq_some_iff.mp h
  exact (List.getElem?_eq_some_iff.mp hcall).1

theorem exists_stage? {i : Nat} (h : i < c.calls.length) : ∃ stage, c.stage? i = some stage :=
  ⟨_, by rw [stage?, List.getElem?_eq_getElem h]; rfl⟩

theorem stage?_withPkiLock (i : Nat) :
    c.withPkiLock.stage? i = if i = c.calls.length then some .queued else c.stage? i := by
  unfold stage? withPkiLock
  split
  next h => rw [h, List.getElem?_concat_length]; rfl
  next h =>
    rcases Nat.lt_or_gt_of_ne h with hlt | hgt
    · rw [List.getElem?_append_left hlt]
    · rw [List.getElem?_eq_none (by simp; omega), List.getElem?_eq_none (by omega)]

/-- A call begins behind the one that came before it. -/
theorem step_begin {i : Nat} {c' : Chain} (h : c.step (.begin i) = some c') :
    ∃ call, c.calls[i]? = some call ∧ call.stage = .queued ∧ c.ready call = true ∧
      c' = c.moveTo i .running := by
  simp only [step] at h
  split at h
  next call hcall =>
    split at h
    next hready => exact ⟨call, hcall, hready.1, hready.2, (Option.some.inj h).symm⟩
    next => cases h
  next => cases h

theorem step_settle {i : Nat} {fulfilled : Bool} {c' : Chain}
    (h : c.step (.settle i fulfilled) = some c') :
    c.stage? i = some .running ∧ c' = c.moveTo i (.settled fulfilled) := by
  simp only [step] at h
  split at h
  next hrunning => exact ⟨hrunning, (Option.some.inj h).symm⟩
  next => cases h

theorem step_release {i : Nat} {c' : Chain} (h : c.step (.release i) = some c') :
    ∃ fulfilled, c.stage? i = some (.settled fulfilled) ∧ c' = c.moveTo i (.released fulfilled) := by
  simp only [step] at h
  split at h
  next fulfilled hsettled => exact ⟨fulfilled, hsettled, (Option.some.inj h).symm⟩
  next => cases h

end Chain

namespace Serial

variable {c : Chain} {done : Nat} {log : List Mark}

/-- A call that is neither queued nor over is the current one. -/
theorem eq_done (h : Serial c done log) {i : Nat} {stage : Stage} (hstage : c.stage? i = some stage)
    (hqueued : stage ≠ .queued) (hreleased : ∀ fulfilled, stage ≠ .released fulfilled) : i = done := by
  rcases Nat.lt_trichotomy i done with hlt | heq | hgt
  · have hover := h.released i hlt
    rw [Chain.isReleased, hstage] at hover
    cases stage with
    | queued => exact absurd rfl hqueued
    | running => cases hover
    | settled fulfilled => cases hover
    | released fulfilled => exact absurd rfl (hreleased fulfilled)
  · exact heq
  · exact absurd (h.queued i stage hgt hstage) hqueued

theorem isReleased_of_stage {c c' : Chain} {i : Nat} (h : c'.stage? i = c.stage? i) :
    c'.isReleased i = c.isReleased i := by
  unfold Chain.isReleased
  rw [h]

theorem linked_moveTo (h : ∀ i call, c.calls[i]? = some call → call.previous = before i) {j : Nat}
    {stage : Stage} : ∀ i call, (c.moveTo j stage).calls[i]? = some call → call.previous = before i := by
  intro i call hcall
  rw [Chain.moveTo, List.getElem?_modify] at hcall
  obtain ⟨old, hold, heq⟩ := Option.map_eq_some_iff.mp hcall
  rw [← h i old hold, ← heq]
  split <;> rfl

theorem withPkiLock (h : Serial c done log) : Serial c.withPkiLock done log := by
  have hlength : c.withPkiLock.calls.length = c.calls.length + 1 := List.length_append
  have hold : ∀ i, i < c.calls.length → c.withPkiLock.stage? i = c.stage? i := fun i hi => by
    rw [Chain.stage?_withPkiLock, if_neg (Nat.ne_of_lt hi)]
  have hmarks : marksOf done (c.withPkiLock.stage? done) = marksOf done (c.stage? done) := by
    rw [Chain.stage?_withPkiLock]
    split
    next hdone =>
      have hnone : c.stage? done = none := by
        rw [Chain.stage?, List.getElem?_eq_none (Nat.le_of_eq hdone.symm)]
        rfl
      rw [hnone]
      rfl
    next => rfl
  refine ⟨?_, ?_, ?_, ?_, ?_, ?_, ?_⟩
  · rw [hlength]
    rfl
  · intro i call hcall
    rcases Nat.lt_or_ge i c.calls.length with hlt | hge
    · exact h.linked i call (by rwa [Chain.withPkiLock, List.getElem?_append_left hlt] at hcall)
    · have hi : i = c.calls.length := by
        have hlt := (List.getElem?_eq_some_iff.mp hcall).1
        omega
      subst hi
      rw [Chain.withPkiLock, List.getElem?_concat_length] at hcall
      rw [← Option.some.inj hcall]
      exact h.tail
  · rw [hlength]
    exact Nat.le_succ_of_le h.bound
  · intro i hi
    rw [isReleased_of_stage (hold i (Nat.lt_of_lt_of_le hi h.bound))]
    exact h.released i hi
  · rw [Chain.isReleased, Chain.stage?_withPkiLock]
    split
    next => rfl
    next => exact h.current
  · intro i stage hi hstage
    rw [Chain.stage?_withPkiLock] at hstage
    split at hstage
    next => exact (Option.some.inj hstage).symm
    next => exact h.queued i stage hi hstage
  · rw [hmarks]
    exact h.log_eq

/-- The current call goes on to a stage that does not let the next one go. -/
theorem moveTo (h : Serial c done log) {old stage : Stage} (hold : c.stage? done = some old)
    (hstage : hasReleased (some stage) = false) {log' : List Mark}
    (hlog : log' = inTurn done ++ marksOf done (some stage)) :
    Serial (c.moveTo done stage) done log' := by
  have hself := Chain.stage?_moveTo_self hold stage
  have hother : ∀ {i}, done ≠ i → (c.moveTo done stage).stage? i = c.stage? i :=
    fun hi => Chain.stage?_moveTo_of_ne hi stage
  refine ⟨?_, ?_, ?_, fun i hi => ?_, ?_, fun i later hi hlater => ?_, ?_⟩
  · rw [Chain.moveTo, List.length_modify]
    exact h.tail
  · exact linked_moveTo h.linked
  · rw [Chain.moveTo, List.length_modify]
    exact h.bound
  · rw [isReleased_of_stage (hother (Nat.ne_of_gt hi))]
    exact h.released i hi
  · rw [Chain.isReleased, hself]
    exact hstage
  · rw [hother (Nat.ne_of_lt hi)] at hlater
    exact h.queued i later hi hlater
  · rw [hself]
    exact hlog

/-- The current call is over, and the next one is the current one. -/
theorem release (h : Serial c done log) {fulfilled : Bool}
    (hold : c.stage? done = some (.settled fulfilled)) :
    Serial (c.moveTo done (.released fulfilled)) (done + 1) log := by
  have hself := Chain.stage?_moveTo_self hold (.released fulfilled)
  have hother : ∀ {i}, done ≠ i → (c.moveTo done (.released fulfilled)).stage? i = c.stage? i :=
    fun hi => Chain.stage?_moveTo_of_ne hi _
  have hnext : ∀ stage, c.stage? (done + 1) = some stage → stage = .queued :=
    fun stage => h.queued (done + 1) stage (Nat.lt_succ_self done)
  refine ⟨?_, ?_, ?_, fun i hi => ?_, ?_, fun i later hi hlater => ?_, ?_⟩
  · rw [Chain.moveTo, List.length_modify]
    exact h.tail
  · exact linked_moveTo h.linked
  · rw [Chain.moveTo, List.length_modify]
    exact Chain.stage?_lt hold
  · rcases Nat.lt_succ_iff_lt_or_eq.mp hi with hlt | rfl
    · rw [isReleased_of_stage (hother (Nat.ne_of_gt hlt))]
      exact h.released i hlt
    · rw [Chain.isReleased, hself]
      rfl
  · rw [Chain.isReleased, hother (Nat.ne_of_lt (Nat.lt_succ_self done))]
    cases hstage : c.stage? (done + 1) with
    | none => rfl
    | some stage => rw [hnext stage hstage]; rfl
  · rw [hother (by omega)] at hlater
    exact h.queued i later (by omega) hlater
  · have hmarks : marksOf (done + 1) (c.stage? (done + 1)) = [] := by
      cases hstage : c.stage? (done + 1) with
      | none => rfl
      | some stage => rw [hnext stage hstage]; rfl
    rw [hother (Nat.ne_of_lt (Nat.lt_succ_self done)), hmarks, List.append_nil, inTurn_succ, h.log_eq,
      hold]
    rfl

/-- A call whose predecessor is over, and that has not begun, is the current one. -/
theorem begin_eq_done (h : Serial c done log) {i : Nat} {call : Call}
    (hcall : c.calls[i]? = some call) (hqueued : call.stage = .queued) (hready : c.ready call = true) :
    i = done := by
  have hstage : c.stage? i = some .queued := by rw [Chain.stage?, hcall, ← hqueued]; rfl
  rcases Nat.lt_trichotomy i done with hlt | heq | hgt
  · have hover := h.released i hlt
    rw [Chain.isReleased, hstage] at hover
    cases hover
  · exact heq
  · exfalso
    rw [Chain.ready, h.linked i call hcall] at hready
    cases i with
    | zero => exact Nat.not_lt_zero _ hgt
    | succ j =>
        change c.isReleased j = true at hready
        rcases Nat.eq_or_lt_of_le (Nat.le_of_lt_succ hgt) with rfl | hlt
        · rw [h.current] at hready
          cases hready
        · obtain ⟨stage, hstage⟩ := Chain.exists_stage? (c := c) (i := j)
            (Nat.lt_of_succ_lt (List.getElem?_eq_some_iff.mp hcall).1)
          rw [Chain.isReleased, hstage, h.queued j stage hlt hstage] at hready
          cases hready

/-- One turn keeps the marks in order. -/
theorem step (h : Serial c done log) {t : Turn} {c' : Chain} (hstep : c.step t = some c') :
    ∃ done', Serial c' done' (log ++ (mark? t).toList) := by
  cases t with
  | server =>
      cases hstep
      refine ⟨done, ?_⟩
      rw [mark?, Option.toList_none, List.append_nil]
      exact h.withPkiLock
  | client initializeCM =>
      cases hstep
      refine ⟨done, ?_⟩
      rw [mark?, Option.toList_none, List.append_nil]
      cases initializeCM with
      | true => exact h.withPkiLock
      | false => exact h
  | begin i =>
      obtain ⟨call, hcall, hqueued, hready, rfl⟩ := Chain.step_begin hstep
      obtain rfl := h.begin_eq_done hcall hqueued hready
      have hstage : c.stage? i = some .queued := by rw [Chain.stage?, hcall, ← hqueued]; rfl
      refine ⟨i, h.moveTo hstage rfl ?_⟩
      rw [h.log_eq, hstage, List.append_assoc]
      rfl
  | settle i fulfilled =>
      obtain ⟨hrunning, rfl⟩ := Chain.step_settle hstep
      obtain rfl := h.eq_done hrunning (by decide) (fun _ heq => by cases heq)
      refine ⟨i, h.moveTo hrunning rfl ?_⟩
      rw [h.log_eq, hrunning, List.append_assoc]
      rfl
  | release i =>
      obtain ⟨fulfilled, hsettled, rfl⟩ := Chain.step_release hstep
      obtain rfl := h.eq_done hsettled (by intro heq; cases heq) (fun _ heq => by cases heq)
      refine ⟨i + 1, ?_⟩
      rw [mark?, Option.toList_none, List.append_nil]
      exact h.release hsettled

theorem run (h : Serial c done log) {turns : List Turn} {c' : Chain}
    (hrun : Transition.run Chain.step c turns = some c') :
    ∃ done', Serial c' done' (log ++ marks turns) := by
  induction turns generalizing c done log with
  | nil =>
      cases hrun
      exact ⟨done, by rwa [marks, List.filterMap_nil, List.append_nil]⟩
  | cons t turns ih =>
      obtain ⟨u, hstep, hrest⟩ := Transition.run_cons.mp hrun
      obtain ⟨done', hu⟩ := h.step hstep
      obtain ⟨last, hlast⟩ := ih hu hrest
      refine ⟨last, ?_⟩
      have hmarks : marks (t :: turns) = (mark? t).toList ++ marks turns := by
        unfold marks
        cases hmark : mark? t with
        | none => rw [List.filterMap_cons_none hmark]; rfl
        | some mark => rw [List.filterMap_cons_some hmark]; rfl
      rwa [hmarks, ← List.append_assoc]

end Serial

/-! ## Runs of the chain -/

theorem inTurn_isPrefix {m n : Nat} (h : m ≤ n) : inTurn m <+: inTurn n := by
  induction n with
  | zero => exact Nat.le_zero.mp h ▸ List.prefix_rfl
  | succ n ih =>
      rcases Nat.lt_succ_iff_lt_or_eq.mp (Nat.lt_succ_of_le h) with hlt | rfl
      · rw [inTurn_succ]
        exact (ih (Nat.le_of_lt_succ hlt)).trans (List.prefix_append _ _)
      · exact List.prefix_rfl

theorem length_run {c c' : Chain} {turns : List Turn}
    (hrun : Transition.run Chain.step c turns = some c') :
    c'.calls.length = c.calls.length + requests turns := by
  induction turns generalizing c with
  | nil =>
      cases hrun
      rfl
  | cons t turns ih =>
      obtain ⟨u, hstep, hrest⟩ := Transition.run_cons.mp hrun
      have hmove : ∀ i stage, (c.moveTo i stage).calls.length = c.calls.length := fun i stage =>
        List.length_modify ..
      rw [ih hrest]
      unfold requests
      cases t with
      | server =>
          cases hstep
          rw [List.countP_cons_of_pos rfl, Chain.withPkiLock, List.length_append, List.length_singleton]
          omega
      | client initializeCM =>
          cases hstep
          cases initializeCM with
          | true =>
              rw [List.countP_cons_of_pos rfl, Chain.prepareClientCertificate, if_pos rfl,
                Chain.withPkiLock, List.length_append, List.length_singleton]
              omega
          | false =>
              rw [List.countP_cons_of_neg Bool.false_ne_true, Chain.prepareClientCertificate,
                if_neg Bool.false_ne_true]
      | begin i =>
          obtain ⟨call, -, -, -, rfl⟩ := Chain.step_begin hstep
          rw [List.countP_cons_of_neg Bool.false_ne_true, hmove]
      | settle i fulfilled =>
          obtain ⟨-, rfl⟩ := Chain.step_settle hstep
          rw [List.countP_cons_of_neg Bool.false_ne_true, hmove]
      | release i =>
          obtain ⟨fulfilled, -, rfl⟩ := Chain.step_release hstep
          rw [List.countP_cons_of_neg Bool.false_ne_true, hmove]

theorem Serial.isPrefix {c : Chain} {done : Nat} {log : List Mark} (h : Serial c done log) :
    log <+: inTurn c.calls.length := by
  rw [h.log_eq]
  rcases Nat.eq_or_lt_of_le h.bound with heq | hlt
  · have hnone : c.stage? done = none := by
      rw [Chain.stage?, List.getElem?_eq_none (Nat.le_of_eq heq.symm)]
      rfl
    rw [hnone, ← heq]
    exact (List.append_nil _).symm ▸ List.prefix_rfl
  · refine List.IsPrefix.trans ?_ (inTurn_isPrefix hlt)
    rw [inTurn_succ, List.prefix_append_right_inj]
    obtain ⟨stage, hstage⟩ := Chain.exists_stage? hlt
    rw [hstage]
    cases stage with
    | queued => exact List.nil_prefix
    | running => exact ⟨[.ended done], rfl⟩
    | settled fulfilled => exact List.prefix_rfl
    | released fulfilled => exact List.nil_prefix

/-- At rest every call is over. -/
theorem Serial.done_of_atRest {c : Chain} {done : Nat} {log : List Mark} (h : Serial c done log)
    (hrest : c.AtRest) : done = c.calls.length := by
  rcases Nat.eq_or_lt_of_le h.bound with heq | hlt
  · exact heq
  · exfalso
    obtain ⟨hrunning, hbegin, hrelease⟩ := hrest done
    obtain ⟨stage, hstage⟩ := Chain.exists_stage? hlt
    cases stage with
    | queued =>
        obtain ⟨call, hcall, hqueued⟩ := Option.map_eq_some_iff.mp hstage
        have hready : c.ready call = true := by
          rw [Chain.ready, h.linked done call hcall]
          cases done with
          | zero => rfl
          | succ k => exact h.released k (Nat.lt_succ_self k)
        simp only [Chain.step, hcall, hqueued, hready, and_self, if_true] at hbegin
        cases hbegin
    | running => exact hrunning hstage
    | settled fulfilled =>
        simp only [Chain.step, hstage] at hrelease
        cases hrelease
    | released fulfilled =>
        have hcurrent := h.current
        rw [Chain.isReleased, hstage] at hcurrent
        cases hcurrent

/-- In every order of the turns the tasks run one after another in the order of the calls,
whatever comes of them; and once nothing is left to do, all of them have. -/
theorem tasks_in_turn {turns : List Turn} {c : Chain}
    (hrun : Transition.run Chain.step .start turns = some c) :
    marks turns <+: inTurn (requests turns) ∧
      (c.AtRest → marks turns = inTurn (requests turns)) := by
  obtain ⟨done, h⟩ := serial_start.run hrun
  have hlength : c.calls.length = requests turns := (length_run hrun).trans (Nat.zero_add _)
  rw [List.nil_append] at h
  rw [← hlength]
  refine ⟨h.isPrefix, fun hrest => ?_⟩
  have hdone := h.done_of_atRest hrest
  have hnone : c.stage? done = none := by
    rw [Chain.stage?, List.getElem?_eq_none (Nat.le_of_eq hdone.symm)]
    rfl
  rw [h.log_eq, hnone, ← hdone]
  exact List.append_nil _

/-- A client comes while the initialisation of a server runs, which then fails. -/
def twoCalls : List Turn :=
  [.server, .begin 0, .client true, .client false, .settle 0 false, .release 0, .begin 1,
    .settle 1 true, .release 1]

theorem tasks_in_turn_twoCalls :
    let c : Chain := ⟨[⟨none, .released false⟩, ⟨some 0, .released true⟩], some 1⟩
    marks twoCalls <+: inTurn (requests twoCalls) ∧
      (c.AtRest → marks twoCalls = inTurn (requests twoCalls)) :=
  tasks_in_turn rfl

end OpcUaSuite.PkiLock
