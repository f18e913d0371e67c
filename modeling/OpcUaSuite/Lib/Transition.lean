import Mathlib.Data.List.Basic
import Mathlib.Order.Basic

/-!
# Runs of a step function

A system is a partial step function on states and events; a step that is not
enabled has no result. A condition on steps holds along a run when every step
meets it in the state it starts from, and an invariant carries over from steps
to runs.
-/

namespace Transition

variable {σ ε : Type*} (step : σ → ε → Option σ)

/-- The state after a sequence of events, all of them enabled. -/
def run : σ → List ε → Option σ
  | s, [] => some s
  | s, e :: es => (step s e).bind fun s' => run s' es

/-- Every step of the run meets a condition in the state it starts from. -/
def Along (ok : σ → ε → Prop) : σ → List ε → Prop
  | _, [] => True
  | s, e :: es => ok s e ∧ ∀ s', step s e = some s' → Along ok s' es

/-- Steps that meet a condition keep a property of states. -/
def Preserves (ok : σ → ε → Prop) (Inv : σ → Prop) : Prop :=
  ∀ ⦃s e s'⦄, Inv s → ok s e → step s e = some s' → Inv s'

variable {step} {ok : σ → ε → Prop} {Inv : σ → Prop}

theorem run_cons {s s' : σ} {e : ε} {es : List ε} :
    run step s (e :: es) = some s' ↔ ∃ t, step s e = some t ∧ run step t es = some s' :=
  Option.bind_eq_some_iff

theorem run_append {s t u : σ} {es es' : List ε} (h : run step s es = some t)
    (h' : run step t es' = some u) : run step s (es ++ es') = some u := by
  induction es generalizing s with
  | nil =>
      cases h
      exact h'
  | cons e es ih =>
      obtain ⟨v, hstep, hrest⟩ := run_cons.mp h
      exact run_cons.mpr ⟨v, hstep, ih hrest⟩

theorem along_append {s t : σ} {es es' : List ε} (hok : Along step ok s (es ++ es'))
    (h : run step s es = some t) : Along step ok s es ∧ Along step ok t es' := by
  induction es generalizing s with
  | nil =>
      cases h
      exact ⟨trivial, hok⟩
  | cons e es ih =>
      obtain ⟨u, hstep, hrest⟩ := run_cons.mp h
      obtain ⟨hleft, hright⟩ := ih (hok.2 u hstep) hrest
      refine ⟨⟨hok.1, fun u' hstep' => ?_⟩, hright⟩
      cases hstep.symm.trans hstep'
      exact hleft

/-- A condition on the events of a run is one on its steps. -/
theorem Along.and_forall {s : σ} {es : List ε} (h : Along step ok s es) {P : ε → Prop}
    (hP : ∀ e ∈ es, P e) : Along step (fun s e => ok s e ∧ P e) s es := by
  induction es generalizing s with
  | nil => trivial
  | cons e es ih =>
      exact ⟨⟨h.1, hP e List.mem_cons_self⟩,
        fun s' hstep => ih (h.2 s' hstep) fun e' he => hP e' (List.mem_cons_of_mem e he)⟩

/-- What steps keep, runs keep. -/
theorem Preserves.run (h : Preserves step ok Inv) {s s' : σ} {es : List ε} (hs : Inv s)
    (hok : Along step ok s es) (hrun : Transition.run step s es = some s') : Inv s' := by
  induction es generalizing s with
  | nil =>
      cases hrun
      exact hs
  | cons e es ih =>
      obtain ⟨t, hstep, hrest⟩ := run_cons.mp hrun
      exact ih (h hs hok.1 hstep) (hok.2 t hstep) hrest

variable (step) in
/-- A property holds in every state of the run. -/
def Throughout (P : σ → Prop) : σ → List ε → Prop
  | s, [] => P s
  | s, e :: es => P s ∧ ∀ s', step s e = some s' → Throughout P s' es

theorem Throughout.first {P : σ → Prop} {s : σ} {es : List ε} (h : Throughout step P s es) :
    P s := by
  cases es with
  | nil => exact h
  | cons e es => exact h.1

theorem Throughout.last {P : σ → Prop} {s s' : σ} {es : List ε} (h : Throughout step P s es)
    (hrun : run step s es = some s') : P s' := by
  induction es generalizing s with
  | nil =>
      cases hrun
      exact h
  | cons e es ih =>
      obtain ⟨t, hstep, hrest⟩ := run_cons.mp hrun
      exact ih (h.2 t hstep) hrest

/-- What every step keeps may be added to a property that holds throughout. -/
theorem Throughout.and_preserved {P : σ → Prop} (hkeep : Preserves step (fun _ _ => True) Inv)
    {s : σ} (hs : Inv s) {es : List ε} (h : Throughout step P s es) :
    Throughout step (fun s => Inv s ∧ P s) s es := by
  induction es generalizing s with
  | nil => exact ⟨hs, h⟩
  | cons e es ih =>
      exact ⟨⟨hs, h.1⟩, fun s' hstep => ih (hkeep hs trivial hstep) (h.2 s' hstep)⟩

theorem Throughout.mono {P Q : σ → Prop} (hPQ : ∀ s, P s → Q s) {s : σ} {es : List ε}
    (h : Throughout step P s es) : Throughout step Q s es := by
  induction es generalizing s with
  | nil => exact hPQ s h
  | cons e es ih => exact ⟨hPQ s h.1, fun s' hstep => ih (h.2 s' hstep)⟩

/-- What steps keep just when they meet a condition holds throughout just the runs
along it. -/
theorem throughout_iff_along (hkeep : Preserves step ok Inv)
    (hforced : ∀ s e, Inv s → (∀ s', step s e = some s' → Inv s') → ok s e) {s : σ}
    (hs : Inv s) (es : List ε) : Throughout step Inv s es ↔ Along step ok s es := by
  induction es generalizing s with
  | nil => exact iff_of_true hs trivial
  | cons e es ih =>
      constructor
      · rintro ⟨-, hrest⟩
        refine ⟨hforced s e hs fun s' hstep => (hrest s' hstep).first, fun s' hstep => ?_⟩
        exact (ih (hrest s' hstep).first).mp (hrest s' hstep)
      · rintro ⟨hok, hrest⟩
        exact ⟨hs, fun s' hstep => (ih (hkeep hs hok hstep)).mpr (hrest s' hstep)⟩

/-- What holds of every entry of a history and those before it still does when
one more entry meets it. -/
theorem forall_split_concat {α : Type*} {P : List α → α → Prop} {l : List α} {a : α}
    (h : ∀ before b after, l = before ++ b :: after → P before b) (ha : P l a) :
    ∀ before b after, l ++ [a] = before ++ b :: after → P before b := by
  intro before b after hsplit
  rcases List.eq_nil_or_concat after with rfl | ⟨after', last, rfl⟩
  · obtain ⟨rfl, heq⟩ := List.append_inj' hsplit rfl
    obtain rfl := List.singleton_inj.mp heq
    exact ha
  · rw [List.concat_eq_append, ← List.cons_append, ← List.append_assoc] at hsplit
    exact h before b after' (List.append_inj' hsplit rfl).1

/-- A condition every step meets holds along every run. -/
theorem along_of_forall (h : ∀ s e, ok s e) (s : σ) (es : List ε) : Along step ok s es := by
  induction es generalizing s with
  | nil => trivial
  | cons e es ih => exact ⟨h s e, fun s' _ => ih s'⟩

/-- Conditions that agree at every step agree along every run. -/
theorem along_congr {ok' : σ → ε → Prop} (h : ∀ s e, ok s e ↔ ok' s e) (s : σ) (es : List ε) :
    Along step ok s es ↔ Along step ok' s es := by
  induction es generalizing s with
  | nil => exact Iff.rfl
  | cons e es ih => exact and_congr (h s e) (forall₂_congr fun s' _ => ih s')

instance decidableAlong [∀ s e, Decidable (ok s e)] (s : σ) :
    (es : List ε) → Decidable (Along step ok s es)
  | [] => isTrue trivial
  | e :: es =>
      match hstep : step s e with
      | none => decidable_of_iff (ok s e) (by simp [Along, hstep])
      | some t =>
          match decidableAlong t es with
          | isTrue h => decidable_of_iff (ok s e) (by simp [Along, hstep, h])
          | isFalse h => isFalse fun hall => h (hall.2 t hstep)

end Transition
