import Mathlib.Logic.Basic

/-!
# Effects that can fail

A computation on a state that ends with a value or with an error, and with a state
in both cases. It is atomic when an error leaves the state as it was.
-/

/-- A computation that keeps its state when it fails. -/
def Effect (ε σ α : Type) : Type := σ → Except ε α × σ

namespace Effect

variable {ε σ α β : Type}

instance : Monad (Effect ε σ) where
  pure a := fun s => (.ok a, s)
  bind m f := fun s =>
    match m s with
    | (.ok a, s') => f a s'
    | (.error e, s') => (.error e, s')

/-- One call that is atomic by itself. -/
def call (f : σ → Except ε (α × σ)) : Effect ε σ α := fun s =>
  match f s with
  | .ok (a, s') => (.ok a, s')
  | .error e => (.error e, s)

/-- A call that only looks at the state. -/
def query (f : σ → Except ε α) : Effect ε σ α := fun s => (f s, s)

def lift (r : Except ε α) : Effect ε σ α := fun s => (r, s)

/-- A change that cannot fail. -/
def modify (f : σ → σ) : Effect ε σ Unit := fun s => (.ok (), f s)

def fail (e : ε) : Effect ε σ α := fun s => (.error e, s)

def require (b : Bool) (e : ε) : Effect ε σ Unit := if b then pure () else fail e

/-- The state stays as it is, whatever comes out. -/
def Reads (m : Effect ε σ α) : Prop := ∀ s, (m s).2 = s

/-- The state stays as it is where an error comes out. -/
def Atomic (m : Effect ε σ α) : Prop := ∀ s e, (m s).1 = .error e → (m s).2 = s

def Succeeds (m : Effect ε σ α) : Prop := ∀ s e, (m s).1 ≠ .error e

theorem bind_ok {m : Effect ε σ α} {f : α → Effect ε σ β} {s s' : σ} {a : α}
    (h : m s = (.ok a, s')) : (m >>= f) s = f a s' := by
  change (match m s with
    | (.ok a, s') => f a s'
    | (.error e, s') => (.error e, s')) = _
  rw [h]

theorem bind_error {m : Effect ε σ α} {f : α → Effect ε σ β} {s s' : σ} {e : ε}
    (h : m s = (.error e, s')) : (m >>= f) s = (.error e, s') := by
  change (match m s with
    | (.ok a, s') => f a s'
    | (.error e, s') => (.error e, s')) = _
  rw [h]

theorem exists_of_bind_ok {m : Effect ε σ α} {f : α → Effect ε σ β} {s s' : σ} {b : β}
    (h : (m >>= f) s = (.ok b, s')) : ∃ a t, m s = (.ok a, t) ∧ f a t = (.ok b, s') := by
  cases hms : m s with
  | mk r t =>
      cases r with
      | ok a => exact ⟨a, t, rfl, (bind_ok hms).symm.trans h⟩
      | error e => cases (bind_error hms).symm.trans h

/-- Behind a computation that only reads, the state is still the first one. -/
theorem exists_of_reads_bind_ok {m : Effect ε σ α} {f : α → Effect ε σ β} {s s' : σ} {b : β}
    (hm : Reads m) (h : (m >>= f) s = (.ok b, s')) : ∃ a, f a s = (.ok b, s') := by
  obtain ⟨a, t, hms, hrest⟩ := exists_of_bind_ok h
  have ht : t = s := by rw [← hm s, hms]
  exact ⟨a, ht ▸ hrest⟩

namespace Reads

theorem pure (a : α) : Reads (Pure.pure a : Effect ε σ α) := fun _ => rfl

theorem query (f : σ → Except ε α) : Reads (Effect.query f) := fun _ => rfl

theorem lift (r : Except ε α) : Reads (Effect.lift r : Effect ε σ α) := fun _ => rfl

theorem fail (e : ε) : Reads (Effect.fail e : Effect ε σ α) := fun _ => rfl

theorem require (b : Bool) (e : ε) : Reads (Effect.require b e : Effect ε σ Unit) := by
  cases b <;> exact fun _ => rfl

theorem bind {m : Effect ε σ α} {f : α → Effect ε σ β} (hm : Reads m) (hf : ∀ a, Reads (f a)) :
    Reads (m >>= f) := by
  intro s
  cases hms : m s with
  | mk r s' =>
      have hs : s' = s := by rw [← hm s, hms]
      subst hs
      cases r with
      | ok a => rw [bind_ok hms, hf]
      | error e => rw [bind_error hms]

theorem atomic {m : Effect ε σ α} (h : Reads m) : Atomic m := fun s _ _ => h s

end Reads

theorem succeeds_pure (a : α) : Succeeds (Pure.pure a : Effect ε σ α) := fun _ _ h => nomatch h

theorem succeeds_modify_bind {f : σ → σ} {g : Unit → Effect ε σ α} (hg : Succeeds (g ())) :
    Succeeds (modify f >>= g) := fun s => hg (f s)

namespace Atomic

theorem call (f : σ → Except ε (α × σ)) : Atomic (Effect.call f) := by
  intro s e h
  unfold Effect.call at h ⊢
  split at h
  next => cases h
  next => rfl

/-- What comes before has changed nothing. -/
theorem bind_of_reads {m : Effect ε σ α} {f : α → Effect ε σ β} (hm : Reads m)
    (hf : ∀ a, Atomic (f a)) : Atomic (m >>= f) := by
  intro s e h
  cases hms : m s with
  | mk r s' =>
      have hs : s' = s := by rw [← hm s, hms]
      subst hs
      cases r with
      | ok a =>
          rw [bind_ok hms] at h ⊢
          exact hf a _ e h
      | error e' => rw [bind_error hms]

/-- What comes after cannot fail. -/
theorem bind_of_succeeds {m : Effect ε σ α} {f : α → Effect ε σ β} (hm : Atomic m)
    (hf : ∀ a, Succeeds (f a)) : Atomic (m >>= f) := by
  intro s e h
  cases hms : m s with
  | mk r s' =>
      cases r with
      | ok a =>
          rw [bind_ok hms] at h
          exact absurd h (hf a s' e)
      | error e' =>
          rw [bind_error hms]
          have hs := hm s e' (by rw [hms])
          rw [hms] at hs
          exact hs

theorem of_succeeds {m : Effect ε σ α} (h : Succeeds m) : Atomic m :=
  fun s e heq => absurd heq (h s e)

end Atomic

end Effect
