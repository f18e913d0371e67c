import Mathlib.Data.List.Basic

/-!
# Deferred computations

A deferred computation runs in a state under the handlers around it, and settles
with a value and the next state or with an error. It keeps the steps it took. A
handler rewords the error that passes it. Computations started together go on in
states of their own, and the first to be rejected settles them all.

An account says which steps fail, with what error and under which handlers. A
computation is accounted for when it fails exactly with its last step, in the
words of the handlers between the two.
-/

/-- What a computation did: its steps, and how it settled. -/
structure Deferred.Run (σ τ ε α : Type) where
  steps : List τ
  outcome : Except ε (α × σ)

def Deferred (η σ τ ε α : Type) := List η → σ → Deferred.Run σ τ ε α

namespace Deferred

variable {η σ τ ε α β : Type}

/-- The value, for a run that has one. -/
def Run.value? (r : Run σ τ ε α) : Option α := r.outcome.toOption.map Prod.fst

def Run.isRejected (r : Run σ τ ε α) : Bool := r.outcome.toOption.isNone

instance : Monad (Deferred η σ τ ε) where
  pure a := fun _ s => ⟨[], .ok (a, s)⟩
  bind t k := fun handlers s =>
    match t handlers s with
    | ⟨steps, .error e⟩ => ⟨steps, .error e⟩
    | ⟨steps, .ok (a, s')⟩ =>
        let rest := k a handlers s'
        ⟨steps ++ rest.steps, rest.outcome⟩

/-- What the state says now. -/
def gets (f : σ → α) : Deferred η σ τ ε α := fun _ s => ⟨[], .ok (f s, s)⟩

/-- One step, with what comes of it. -/
def step (f : List η → σ → τ × Except ε (α × σ)) : Deferred η σ τ ε α := fun handlers s =>
  let (taken, outcome) := f handlers s
  ⟨[taken], outcome⟩

/-- Under one more handler, which rewords the error. -/
def within (reword : η → ε → ε) (h : η) (t : Deferred η σ τ ε α) : Deferred η σ τ ε α :=
  fun handlers s =>
    let run := t (h :: handlers) s
    ⟨run.steps, run.outcome.mapError (reword h)⟩

/-- All of them at once. Of the rejected ones the state says which is the first. -/
def all (fork : σ → Nat → σ) (join : σ → σ) (first : σ → Nat)
    (ts : List (Deferred η σ τ ε α)) : Deferred η σ τ ε (List α) := fun handlers s =>
  let runs := ts.mapIdx fun i t => t handlers (fork s i)
  match runs.filter Run.isRejected with
  | [] => ⟨runs.flatMap Run.steps, .ok (runs.filterMap Run.value?, join s)⟩
  | run :: rest =>
      let rejected := (run :: rest).getD (first s) run
      ⟨rejected.steps, rejected.outcome.map fun (a, s') => ([a], s')⟩

theorem outcome_bind (t : Deferred η σ τ ε α) (k : α → Deferred η σ τ ε β) (handlers : List η)
    (s : σ) : ((t >>= k) handlers s).outcome =
      match (t handlers s).outcome with
      | .error e => .error e
      | .ok (a, s') => (k a handlers s').outcome := by
  change (match t handlers s with
    | ⟨steps, .error e⟩ => (⟨steps, .error e⟩ : Run σ τ ε β)
    | ⟨steps, .ok (a, s')⟩ => ⟨steps ++ (k a handlers s').steps, (k a handlers s').outcome⟩).outcome = _
  rcases t handlers s with ⟨steps, e | ⟨a, s'⟩⟩
  · rfl
  · rfl

/-- Which steps fail, with what error and under which handlers, innermost first. -/
structure Account (η τ ε : Type) where
  handlers : τ → List η
  failure : τ → Option ε
  reword : η → ε → ε

namespace Account

variable (account : Account η τ ε)

/-- An error in the words of handlers. -/
def words (handlers : List η) (e : ε) : ε := handlers.foldl (fun e h => account.reword h e) e

/-- A fulfilled run has no failed step; a rejected one fails with its last step. -/
def Explains (handlers : List η) (run : Run σ τ ε α) : Prop :=
  match run.outcome with
  | .ok _ => ∀ taken ∈ run.steps, account.failure taken = none
  | .error e => ∃ before taken inner core, run.steps = before ++ [taken] ∧
      (∀ s ∈ before, account.failure s = none) ∧ account.failure taken = some core ∧
      account.handlers taken = inner ++ handlers ∧ e = account.words inner core

/-- Every run of the computation is explained. -/
def Accounted (t : Deferred η σ τ ε α) : Prop :=
  ∀ handlers s, account.Explains handlers (t handlers s)

variable {account}

theorem Accounted.pure (a : α) : account.Accounted (Pure.pure a : Deferred η σ τ ε α) :=
  fun _ _ _ h => (List.not_mem_nil h).elim

theorem Accounted.gets (f : σ → α) : account.Accounted (Deferred.gets f : Deferred η σ τ ε α) :=
  fun _ _ _ h => (List.not_mem_nil h).elim

theorem Accounted.bind {t : Deferred η σ τ ε α} {k : α → Deferred η σ τ ε β}
    (ht : account.Accounted t) (hk : ∀ a, account.Accounted (k a)) :
    account.Accounted (t >>= k) := by
  intro handlers s
  have hfirst := ht handlers s
  change account.Explains handlers (match t handlers s with
    | ⟨steps, .error e⟩ => ⟨steps, .error e⟩
    | ⟨steps, .ok (a, s')⟩ => ⟨steps ++ (k a handlers s').steps, (k a handlers s').outcome⟩)
  rcases hrun : t handlers s with ⟨steps, e | ⟨a, s'⟩⟩
  · rw [hrun] at hfirst
    exact hfirst
  · rw [hrun] at hfirst
    have hrest := hk a handlers s'
    dsimp only
    unfold Explains at hfirst hrest ⊢
    dsimp only at hfirst ⊢
    cases houtcome : (k a handlers s').outcome with
    | ok p =>
        rw [houtcome] at hrest
        intro taken htaken
        rcases List.mem_append.mp htaken with hleft | hright
        · exact hfirst taken hleft
        · exact hrest taken hright
    | error e =>
        rw [houtcome] at hrest
        obtain ⟨before, taken, inner, core, hsteps, hbefore, hcore⟩ := hrest
        refine ⟨steps ++ before, taken, inner, core, ?_, ?_, hcore⟩
        · rw [hsteps, List.append_assoc]
        · intro step hstep
          rcases List.mem_append.mp hstep with hleft | hright
          · exact hfirst step hleft
          · exact hbefore step hright

/-- A step that settles as the account says. -/
theorem Accounted.step {f : List η → σ → τ × Except ε (α × σ)}
    (h : ∀ handlers s, account.handlers (f handlers s).1 = handlers ∧
      match (f handlers s).2 with
      | .ok _ => account.failure (f handlers s).1 = none
      | .error e => account.failure (f handlers s).1 = some e) :
    account.Accounted (Deferred.step f) := by
  intro handlers s
  obtain ⟨hhandlers, hfailure⟩ := h handlers s
  unfold Explains
  change match (f handlers s).2 with
    | .ok _ => ∀ taken ∈ [(f handlers s).1], account.failure taken = none
    | .error e => ∃ before taken inner core, [(f handlers s).1] = before ++ [taken] ∧
        (∀ s ∈ before, account.failure s = none) ∧ account.failure taken = some core ∧
        account.handlers taken = inner ++ handlers ∧ e = account.words inner core
  cases houtcome : (f handlers s).2 with
  | ok p =>
      rw [houtcome] at hfailure
      intro taken htaken
      rw [List.mem_singleton.mp htaken]
      exact hfailure
  | error e =>
      rw [houtcome] at hfailure
      exact ⟨[], (f handlers s).1, [], e, rfl, fun _ h => (List.not_mem_nil h).elim, hfailure,
        hhandlers, rfl⟩

theorem words_append (inner outer : List η) (e : ε) :
    account.words (inner ++ outer) e = account.words outer (account.words inner e) :=
  List.foldl_append

theorem Accounted.within {t : Deferred η σ τ ε α} (ht : account.Accounted t) (h : η) :
    account.Accounted (Deferred.within account.reword h t) := by
  intro handlers s
  have hinner := ht (h :: handlers) s
  unfold Explains at hinner ⊢
  change match ((t (h :: handlers) s).outcome.mapError (account.reword h)) with
    | .ok _ => ∀ taken ∈ (t (h :: handlers) s).steps, account.failure taken = none
    | .error e => ∃ before taken inner core,
        (t (h :: handlers) s).steps = before ++ [taken] ∧
        (∀ s ∈ before, account.failure s = none) ∧ account.failure taken = some core ∧
        account.handlers taken = inner ++ handlers ∧ e = account.words inner core
  cases houtcome : (t (h :: handlers) s).outcome with
  | ok p =>
      rw [houtcome] at hinner
      exact hinner
  | error e =>
      rw [houtcome] at hinner
      obtain ⟨before, taken, inner, core, hsteps, hbefore, hcore, hhandlers, he⟩ := hinner
      refine ⟨before, taken, inner ++ [h], core, hsteps, hbefore, hcore, ?_, ?_⟩
      · rw [hhandlers, List.append_assoc, List.singleton_append]
      · rw [words_append, ← he]
        rfl

theorem isRejected_iff {run : Run σ τ ε α} : run.isRejected = true ↔ ∃ e, run.outcome = .error e := by
  unfold Run.isRejected
  cases run.outcome with
  | ok p => exact iff_of_false Bool.noConfusion fun ⟨_, h⟩ => nomatch h
  | error e => exact iff_of_true rfl ⟨e, rfl⟩

theorem Accounted.all {fork : σ → Nat → σ} {join : σ → σ} {first : σ → Nat}
    {ts : List (Deferred η σ τ ε α)} (hts : ∀ t ∈ ts, account.Accounted t) :
    account.Accounted (Deferred.all fork join first ts) := by
  intro handlers s
  have hruns : ∀ run ∈ ts.mapIdx fun i t => t handlers (fork s i),
      account.Explains handlers run := by
    intro run hrun
    obtain ⟨i, hi, rfl⟩ := List.mem_mapIdx.mp hrun
    exact hts _ (List.getElem_mem hi) handlers (fork s i)
  unfold Deferred.all
  dsimp only
  cases hrejected : (ts.mapIdx fun i t => t handlers (fork s i)).filter Run.isRejected with
  | nil =>
      intro taken htaken
      obtain ⟨run, hrun, hstep⟩ := List.mem_flatMap.mp htaken
      have hexplained := hruns run hrun
      have hok := List.filter_eq_nil_iff.mp hrejected run hrun
      unfold Explains at hexplained
      cases houtcome : run.outcome with
      | error e => exact absurd (isRejected_iff.mpr ⟨e, houtcome⟩) hok
      | ok p =>
          rw [houtcome] at hexplained
          exact hexplained taken hstep
  | cons run rest =>
      dsimp only
      have hmem : (run :: rest).getD (first s) run ∈ run :: rest := by
        rw [List.getD_eq_getElem?_getD]
        cases hget : (run :: rest)[first s]? with
        | none => exact List.mem_cons_self
        | some other => exact List.mem_of_getElem? hget
      generalize (run :: rest).getD (first s) run = chosen at hmem
      rw [← hrejected, List.mem_filter] at hmem
      have hexplained := hruns chosen hmem.1
      obtain ⟨e, he⟩ := isRejected_iff.mp hmem.2
      unfold Explains at hexplained ⊢
      rw [he] at hexplained
      dsimp only
      rw [he]
      exact hexplained

end Account

end Deferred
