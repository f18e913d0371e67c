import OpcUaSuite.Lib.Reader

/-!
# Readers that leave a trace

A traced reader records every access to the buffer and every element it puts
into a list, also when it fails later. Forgetting the trace gives the reader it
is a refinement of. `Contained` bounds both: accesses stay inside the buffer,
and every element is paid for by a byte of its own.
-/

namespace ByteCodec

/-- An access to a buffer of the given size, or an element put into a list. -/
inductive Event
  | access (offset length size : Nat)
  | push
deriving DecidableEq

def Event.inside : Event → Prop
  | .access offset length size => offset + length ≤ size
  | .push => True

/-- The elements put into lists. -/
def pushes (events : List Event) : Nat := events.count .push

@[simp] theorem pushes_nil : pushes [] = 0 := rfl

@[simp] theorem pushes_append (es fs : List Event) : pushes (es ++ fs) = pushes es + pushes fs :=
  List.count_append

def Cursor.size (c : Cursor) : Nat := c.position + c.rest.length

/-- The events of a run, with its outcome. -/
def Traced (ε α : Type) := Cursor → List Event × Except ε (α × Cursor)

namespace Traced

variable {ε α β : Type}

instance : Monad (Traced ε) where
  pure a := fun c => ([], .ok (a, c))
  bind t f := fun c =>
    match t c with
    | (es, .ok (a, c')) => (es ++ (f a c').1, (f a c').2)
    | (es, .error e) => (es, .error e)

theorem pure_apply (a : α) (c : Cursor) : (pure a : Traced ε α) c = ([], .ok (a, c)) := rfl

theorem bind_apply (t : Traced ε α) (f : α → Traced ε β) (c : Cursor) :
    (t >>= f) c = match t c with
      | (es, .ok (a, c')) => (es ++ (f a c').1, (f a c').2)
      | (es, .error e) => (es, .error e) := rfl

def fail (e : Cursor → ε) : Traced ε α := fun c => ([], .error (e c))

def remaining : Traced ε Nat := fun c => ([], .ok (c.rest.length, c))

/-- Reject unless `n` bytes are left. -/
def ensure (short : Nat → Nat → Nat → ε) (n : Nat) : Traced ε Unit := fun c =>
  if c.position + n > c.size then ([], .error (short c.position n c.rest.length))
  else ([], .ok ((), c))

/-- The access itself, with the error of the buffer for what lies outside. -/
def access (outside : ε) (n : Nat) : Traced ε Bytes := fun c =>
  ([.access c.position n c.size],
    if c.rest.length < n then .error outside
    else .ok (c.rest.take n, ⟨c.position + n, c.rest.drop n⟩))

def push : Traced ε Unit := fun c => ([.push], .ok ((), c))

/-- The loop that fills a list. -/
def many (t : Traced ε α) : Nat → Traced ε (List α)
  | 0 => pure []
  | n + 1 => do
      let a ← t
      push
      let as ← many t n
      return a :: as

/-- A run on a buffer of its own. -/
def nested (t : Traced ε α) (bs : Bytes) : Traced ε α := fun c =>
  ((t ⟨0, bs⟩).1,
    match (t ⟨0, bs⟩).2 with
    | .ok (a, _) => .ok (a, c)
    | .error e => .error e)

/-! ## Forgetting the trace -/

def erase (t : Traced ε α) : Reader ε α := fun c => (t c).2

@[simp] theorem erase_pure (a : α) : (pure a : Traced ε α).erase = pure a := rfl

@[simp] theorem erase_fail (e : Cursor → ε) :
    (fail e : Traced ε α).erase = Reader.fail e := rfl

@[simp] theorem erase_remaining : (remaining : Traced ε Nat).erase = Reader.remaining := rfl

@[simp] theorem erase_bind (t : Traced ε α) (f : α → Traced ε β) :
    (t >>= f).erase = t.erase >>= fun a => (f a).erase := by
  funext c
  change (match t c with
    | (es, .ok (a, c')) => (es ++ (f a c').1, (f a c').2)
    | (es, .error e) => (es, .error e)).2 = match (t c).2 with
    | .ok (a, c') => (f a c').2
    | .error e => .error e
  rcases t c with ⟨es, _ | ⟨a, c'⟩⟩ <;> rfl

@[simp] theorem erase_ite (p : Prop) [Decidable p] (t u : Traced ε α) :
    (if p then t else u).erase = if p then t.erase else u.erase := by
  split <;> rfl

/-- Behind its guard an access succeeds exactly when the bytes are there. -/
theorem guarded_apply (short : Nat → Nat → Nat → ε) (outside : ε) (n : Nat) (c : Cursor) :
    (do ensure short n; access outside n : Traced ε Bytes) c =
      if c.rest.length < n then ([], .error (short c.position n c.rest.length))
      else ([.access c.position n c.size],
        .ok (c.rest.take n, ⟨c.position + n, c.rest.drop n⟩)) := by
  rw [bind_apply]
  by_cases hlen : c.rest.length < n
  · have hsize : c.position + n > c.size := by unfold Cursor.size; omega
    simp only [ensure, hsize, if_true, hlen]
  · have hsize : ¬ c.position + n > c.size := by unfold Cursor.size; omega
    simp only [ensure, hsize, if_false, access, hlen, List.nil_append]

/-- A guarded access is the reader that reports what is missing. -/
theorem erase_guarded (short : Nat → Nat → Nat → ε) (outside : ε) (n : Nat) :
    (do ensure short n; access outside n : Traced ε Bytes).erase = Reader.take short n := by
  funext c
  unfold erase Reader.take
  rw [guarded_apply]
  split <;> rfl

@[simp] theorem erase_many (t : Traced ε α) (n : Nat) :
    (many t n).erase = Reader.many t.erase n := by
  induction n with
  | zero => rfl
  | succ n ih =>
      rw [many, erase_bind, Reader.many]
      congr 1
      funext a
      rw [erase_bind]
      change (many t n >>= fun as => pure (a :: as)).erase = _
      rw [erase_bind, ih]
      rfl

/-! ## Containment -/

/-- Accesses stay inside the buffer, the cursor stays within it, the elements
put into lists and `slack` more are paid for by the bytes consumed, and what is
thrown satisfies `P`. -/
structure Contained (P : ε → Prop) (t : Traced ε α) (slack : Nat) : Prop where
  inside : ∀ c, ∀ e ∈ (t c).1, e.inside
  ok : ∀ c a c', (t c).2 = .ok (a, c') →
    c'.size = c.size ∧ pushes (t c).1 + slack + c'.rest.length ≤ c.rest.length
  error : ∀ c e, (t c).2 = .error e → P e ∧ pushes (t c).1 ≤ c.rest.length

namespace Contained

variable {P : ε → Prop} {t : Traced ε α} {f : α → Traced ε β} {k l : Nat}

theorem pure (a : α) : Contained P (Pure.pure a : Traced ε α) 0 where
  inside c e h := by cases h
  ok c b c' h := by
    cases h
    exact ⟨rfl, by change pushes [] + 0 + c.rest.length ≤ _; simp⟩
  error c e h := by cases h

theorem fail {e : Cursor → ε} (h : ∀ c, P (e c)) (k : Nat) :
    Contained P (Traced.fail e : Traced ε α) k where
  inside c e h := by cases h
  ok c b c' h := by cases h
  error c e' h' := by
    cases h'
    exact ⟨h c, by change pushes [] ≤ _; simp⟩

theorem remaining : Contained P (Traced.remaining : Traced ε Nat) 0 where
  inside c e h := by cases h
  ok c b c' h := by
    cases h
    exact ⟨rfl, by change pushes [] + 0 + c.rest.length ≤ _; simp⟩
  error c e h := by cases h

theorem weaken (h : Contained P t k) (hle : l ≤ k) : Contained P t l where
  inside := h.inside
  ok c a c' hc := by
    obtain ⟨hsize, hpaid⟩ := h.ok c a c' hc
    exact ⟨hsize, by omega⟩
  error := h.error

/-- The bytes left over by the first part pay for the second. -/
theorem bind (ht : Contained P t k) (hf : ∀ a, Contained P (f a) l) :
    Contained P (t >>= f) (k + l) := by
  constructor
  · intro c e he
    have hfirst := ht.inside c
    rw [bind_apply] at he
    rcases hc : t c with ⟨es, e' | ⟨a, c'⟩⟩ <;> rw [hc] at he hfirst
    · exact hfirst e he
    · rcases List.mem_append.mp he with he | he
      · exact hfirst e he
      · exact (hf a).inside c' e he
  · intro c b c'' h
    have hfirst := ht.ok c
    rw [bind_apply] at h ⊢
    rcases hc : t c with ⟨es, e' | ⟨a, c'⟩⟩ <;> rw [hc] at h hfirst
    · cases h
    · obtain ⟨hsize, hpaid⟩ := hfirst a c' rfl
      obtain ⟨hsize', hpaid'⟩ := (hf a).ok c' b c'' h
      refine ⟨hsize'.trans hsize, ?_⟩
      rw [pushes_append]
      dsimp only at hpaid
      omega
  · intro c e h
    have hfirst := ht.ok c
    have herror := ht.error c
    rw [bind_apply] at h ⊢
    rcases hc : t c with ⟨es, e' | ⟨a, c'⟩⟩ <;> rw [hc] at h hfirst herror
    · cases h
      exact herror e rfl
    · obtain ⟨-, hpaid⟩ := hfirst a c' rfl
      obtain ⟨hP, hpaid'⟩ := (hf a).error c' e h
      refine ⟨hP, ?_⟩
      rw [pushes_append]
      dsimp only at hpaid
      omega

/-- Computing on what was read costs nothing. -/
theorem map {g : α → β} (ht : Contained P t k) :
    Contained P (t >>= fun a => Pure.pure (g a)) k :=
  ht.bind (l := 0) fun a => pure (g a)

theorem ite {p : Prop} [Decidable p] {u : Traced ε α} (ht : p → Contained P t k)
    (hu : ¬p → Contained P u k) : Contained P (if p then t else u) k := by
  split
  next h => exact ht h
  next h => exact hu h

/-- An access behind its guard is inside, and fails only as the guard does. -/
theorem guarded {short : Nat → Nat → Nat → ε} (h : ∀ p n m, P (short p n m)) (outside : ε)
    (n : Nat) : Contained P (do ensure short n; access outside n : Traced ε Bytes) n := by
  constructor
  · intro c e he
    rw [guarded_apply] at he
    split at he
    · cases he
    · simp only [List.mem_singleton] at he
      subst he
      unfold Event.inside Cursor.size
      omega
  · intro c a c' hc
    rw [guarded_apply] at hc ⊢
    split at hc
    · cases hc
    next hlen =>
      cases hc
      rw [if_neg hlen]
      refine ⟨?_, ?_⟩
      · simp only [Cursor.size, List.length_drop]
        omega
      · change 0 + n + (c.rest.drop n).length ≤ _
        rw [List.length_drop]
        omega
  · intro c e hc
    rw [guarded_apply] at hc ⊢
    split at hc
    next hlen =>
      cases hc
      rw [if_pos hlen]
      exact ⟨h _ _ _, Nat.zero_le _⟩
    · cases hc

/-- One byte pays for the element. -/
theorem push (ht : Contained P t (k + 1)) {g : α → Traced ε β}
    (hg : ∀ a, Contained P (g a) l) :
    Contained P (t >>= fun a => Traced.push >>= fun _ => g a) (k + l) := by
  have hpush : Contained P (t >>= fun a => Traced.push >>= fun _ => Pure.pure a) k := by
    have hrun : ∀ c, (t >>= fun a => Traced.push >>= fun _ => (Pure.pure a : Traced ε α)) c =
        match t c with
        | (es, .ok (a, c')) => (es ++ [.push], .ok (a, c'))
        | (es, .error e) => (es, .error e) := fun _ => rfl
    constructor
    · intro c e he
      have hfirst := ht.inside c
      rw [hrun] at he
      rcases hc : t c with ⟨es, e' | ⟨a, c'⟩⟩ <;> rw [hc] at he hfirst
      · exact hfirst e he
      · rcases List.mem_append.mp he with he | he
        · exact hfirst e he
        · simp only [List.mem_singleton] at he
          subst he
          trivial
    · intro c b c'' h
      have hfirst := ht.ok c
      rw [hrun] at h ⊢
      rcases hc : t c with ⟨es, e' | ⟨a, c'⟩⟩ <;> rw [hc] at h hfirst
      · cases h
      · cases h
        obtain ⟨hsize, hpaid⟩ := hfirst _ _ rfl
        refine ⟨hsize, ?_⟩
        change pushes (es ++ [.push]) + k + _ ≤ _
        have hone : pushes [Event.push] = 1 := rfl
        rw [pushes_append, hone]
        dsimp only at hpaid
        omega
    · intro c e h
      have herror := ht.error c
      rw [hrun] at h ⊢
      rcases hc : t c with ⟨es, e' | ⟨a, c'⟩⟩ <;> rw [hc] at h herror
      · cases h
        exact herror e rfl
      · cases h
  have hbind := hpush.bind hg
  have hassoc : ((t >>= fun a => Traced.push >>= fun _ => (Pure.pure a : Traced ε α)) >>= g) =
      (t >>= fun a => Traced.push >>= fun _ => g a) := by
    funext c
    rw [bind_apply, bind_apply, bind_apply]
    rcases t c with ⟨es, e' | ⟨a, c'⟩⟩
    · rfl
    · simp only [bind_apply, pure_apply, Traced.push, List.append_assoc, List.nil_append]
  rwa [hassoc] at hbind

/-- A loop of any length is paid for by its rounds, each of which takes a byte. -/
theorem many (ht : Contained P t 1) (n : Nat) : Contained P (Traced.many t n) 0 := by
  induction n with
  | zero => exact pure []
  | succ n ih => exact push (k := 0) (l := 0) ht fun a => ih.map

/-- A buffer of its own pays for the run on it. -/
theorem nested {outside : ε} {short : Nat → Nat → Nat → ε} (h : ∀ p n m, P (short p n m))
    (ht : Contained P t k) (n : Nat) :
    Contained P (do
      let bs ← (do ensure short n; access outside n : Traced ε Bytes)
      Traced.nested t bs) 0 := by
  have hguard := guarded (P := P) h outside n
  have hlen : ∀ c bs c', (do ensure short n; access outside n : Traced ε Bytes).erase c =
      .ok (bs, c') → bs.length = n ∧ c'.rest.length + n = c.rest.length := by
    intro c bs c' hc
    rw [erase_guarded] at hc
    unfold Reader.take at hc
    split at hc
    · cases hc
    · cases hc
      rw [List.length_take, List.length_drop]
      omega
  have hfree : ∀ c, pushes ((do ensure short n; access outside n : Traced ε Bytes) c).1 = 0 := by
    intro c
    rw [guarded_apply]
    split <;> rfl
  generalize (do ensure short n; access outside n : Traced ε Bytes) = guard at *
  have hrun : ∀ c, (guard >>= fun bs => Traced.nested t bs) c = match guard c with
    | (es, .ok (bs, c')) => (es ++ (t ⟨0, bs⟩).1, match (t ⟨0, bs⟩).2 with
        | .ok (a, _) => .ok (a, c')
        | .error e => .error e)
    | (es, .error e) => (es, .error e) := by
    intro c
    rw [bind_apply]
    rcases guard c with ⟨es, e | ⟨bs, c'⟩⟩ <;> rfl
  constructor
  · intro c e he
    have hfirst := hguard.inside c
    rw [hrun] at he
    rcases hc : guard c with ⟨es, e' | ⟨bs, c'⟩⟩ <;> rw [hc] at he hfirst
    · exact hfirst e he
    · rcases List.mem_append.mp he with he | he
      · exact hfirst e he
      · exact ht.inside _ e he
  · intro c a c'' h
    have hfirst := hguard.ok c
    have hbytes := hlen c
    have hzero := hfree c
    unfold erase at hbytes
    rw [hrun] at h ⊢
    rcases hc : guard c with ⟨es, e' | ⟨bs, c'⟩⟩ <;> rw [hc] at h hfirst hbytes hzero
    · cases h
    · obtain ⟨hsize, -⟩ := hfirst bs c' rfl
      obtain ⟨hn, hrest⟩ := hbytes bs c' rfl
      dsimp only at h hzero ⊢
      rcases hinner : (t ⟨0, bs⟩).2 with e | ⟨b, d⟩ <;> rw [hinner] at h
      · cases h
      · cases h
        obtain ⟨-, hpaid⟩ := ht.ok _ _ _ hinner
        refine ⟨hsize, ?_⟩
        rw [pushes_append]
        dsimp only at hpaid
        omega
  · intro c e h
    have hfirst := hguard.error c
    have hbytes := hlen c
    have hzero := hfree c
    unfold erase at hbytes
    rw [hrun] at h ⊢
    rcases hc : guard c with ⟨es, e' | ⟨bs, c'⟩⟩ <;> rw [hc] at h hfirst hbytes hzero
    · cases h
      exact hfirst e rfl
    · obtain ⟨hn, hrest⟩ := hbytes bs c' rfl
      dsimp only at h hzero ⊢
      rcases hinner : (t ⟨0, bs⟩).2 with e' | ⟨b, d⟩ <;> rw [hinner] at h
      · cases h
        obtain ⟨hP, hpaid⟩ := ht.error _ _ hinner
        refine ⟨hP, ?_⟩
        rw [pushes_append]
        dsimp only at hpaid
        omega
      · cases h

end Contained

end Traced

end ByteCodec
