import OpcUaSuite.Lib.Bytes

/-!
# Cursor-based readers

A reader consumes a prefix of the unread bytes and reports where it stands, so
that a truncation error can name its offset. `Reads r bs a` says that `r`
consumes exactly `bs`, whatever follows, and returns `a`: the readers of a
self-delimiting format are put together from this one relation.
-/

namespace ByteCodec

/-- The unread bytes, with the number of bytes already consumed. -/
structure Cursor where
  position : Nat
  rest : Bytes
deriving DecidableEq

/-- A reader either fails or returns a value and the cursor after it. -/
def Reader (ε α : Type) := Cursor → Except ε (α × Cursor)

namespace Reader

variable {ε α β : Type}

instance : Monad (Reader ε) where
  pure a := fun c => .ok (a, c)
  bind r f := fun c =>
    match r c with
    | .ok (a, c') => f a c'
    | .error e => .error e

theorem bind_apply (r : Reader ε α) (f : α → Reader ε β) (c : Cursor) :
    (r >>= f) c = match r c with
      | .ok (a, c') => f a c'
      | .error e => .error e := rfl

/-- Abandon the read with an error that may name the position. -/
def fail (e : Cursor → ε) : Reader ε α := fun c => .error (e c)

/-- The bytes not yet consumed. -/
def remaining : Reader ε Nat := fun c => .ok (c.rest.length, c)

/-- The next `n` bytes, or the error built from the position, the bytes needed
and the bytes left. -/
def take (short : Nat → Nat → Nat → ε) (n : Nat) : Reader ε Bytes := fun c =>
  if c.rest.length < n then .error (short c.position n c.rest.length)
  else .ok (c.rest.take n, ⟨c.position + n, c.rest.drop n⟩)

/-- The same reader `n` times in a row. -/
def many (r : Reader ε α) : Nat → Reader ε (List α)
  | 0 => pure []
  | n + 1 => do
      let a ← r
      let as ← many r n
      return a :: as

theorem length_of_many {r : Reader ε α} {n : Nat} {c c' : Cursor} {as : List α}
    (h : many r n c = .ok (as, c')) : as.length = n := by
  induction n generalizing c as with
  | zero =>
      cases h
      rfl
  | succ n ih =>
      rw [many, bind_apply] at h
      rcases hr : r c with e | ⟨a, d⟩ <;> rw [hr] at h
      · cases h
      · dsimp only at h
        rw [bind_apply] at h
        rcases hmany : many r n d with e | ⟨bs, d'⟩ <;> rw [hmany] at h
        · cases h
        · cases h
          rw [List.length_cons, ih hmany]

/-- Run a reader on a byte string of its own. -/
def run (r : Reader ε α) (bs : Bytes) : Except ε α :=
  match r ⟨0, bs⟩ with
  | .ok (a, _) => .ok a
  | .error e => .error e

end Reader

variable {ε α β : Type}

/-- The reader consumes exactly `bs` and returns `a`, whatever bytes follow. -/
structure Reads (r : Reader ε α) (bs : Bytes) (a : α) : Prop where
  exact : ∀ pos tail, r ⟨pos, bs ++ tail⟩ = .ok (a, ⟨pos + bs.length, tail⟩)

namespace Reads

theorem pure (a : α) : Reads (Pure.pure a : Reader ε α) [] a := ⟨fun _ _ => rfl⟩

theorem bind {r : Reader ε α} {f : α → Reader ε β} {bs cs : Bytes} {a : α} {b : β}
    (hr : Reads r bs a) (hf : Reads (f a) cs b) : Reads (r >>= f) (bs ++ cs) b := by
  constructor
  intro pos tail
  have hfirst := hr.exact pos (cs ++ tail)
  have hsecond := hf.exact (pos + bs.length) tail
  change (match r ⟨pos, bs ++ cs ++ tail⟩ with
    | .ok (a, c') => f a c'
    | .error e => .error e) = _
  rw [List.append_assoc, hfirst]
  simp only [hsecond, List.length_append, Nat.add_assoc]

/-- The last step of a reader may compute on what was read. -/
theorem bind_pure {r : Reader ε α} {g : α → β} {bs : Bytes} {a : α}
    (hr : Reads r bs a) : Reads (r >>= fun x => Pure.pure (g x)) bs (g a) := by
  have h := hr.bind (f := fun x => Pure.pure (g x)) (Reads.pure (g a))
  rwa [List.append_nil] at h

theorem take (short : Nat → Nat → Nat → ε) (bs : Bytes) :
    Reads (Reader.take short bs.length) bs bs := by
  constructor
  intro pos tail
  simp [Reader.take]

/-- The bytes a reader consumes exactly determine what it returns. -/
theorem unique {r : Reader ε α} {bs : Bytes} {a b : α} (h : Reads r bs a) (h' : Reads r bs b) :
    a = b := by
  have heq := (h.exact 0 []).symm.trans (h'.exact 0 [])
  simpa using heq

end Reads

/-- The reader consumes `n` bytes whenever it succeeds. -/
structure Takes (r : Reader ε α) (n : Nat) : Prop where
  position : ∀ c a c', r c = .ok (a, c') → c'.position = c.position + n

namespace Takes

theorem pure (a : α) : Takes (Pure.pure a : Reader ε α) 0 := by
  constructor
  rintro c b c' h
  cases h
  rfl

theorem bind {r : Reader ε α} {f : α → Reader ε β} {m n : Nat} (hr : Takes r m)
    (hf : ∀ a, Takes (f a) n) : Takes (r >>= f) (m + n) := by
  constructor
  intro c b c' h
  change (match r c with
    | .ok (a, c') => f a c'
    | .error e => .error e) = _ at h
  cases hc : r c with
  | error e =>
      rw [hc] at h
      cases h
  | ok p =>
      obtain ⟨a, d⟩ := p
      rw [hc] at h
      have hfirst := hr.position c a d hc
      have hsecond := (hf a).position d b c' h
      omega

theorem take (short : Nat → Nat → Nat → ε) (n : Nat) : Takes (Reader.take short n) n := by
  constructor
  intro c bs c' h
  unfold Reader.take at h
  split at h
  · cases h
  · cases h
    rfl

/-- A reader of fixed width consumes exactly a byte string of that width only. -/
theorem length_eq {r : Reader ε α} {n : Nat} {bs : Bytes} {a : α} (h : Takes r n)
    (hr : Reads r bs a) : bs.length = n := by
  have hpos := h.position _ _ _ (hr.exact 0 [])
  simpa using hpos

end Takes

/-- The reader consumes the whole of `bs`, when nothing follows. -/
structure ReadsAll (r : Reader ε α) (bs : Bytes) (a : α) : Prop where
  exact : ∀ pos, r ⟨pos, bs⟩ = .ok (a, ⟨pos + bs.length, []⟩)

namespace ReadsAll

theorem ofReads {r : Reader ε α} {bs : Bytes} {a : α} (h : Reads r bs a) : ReadsAll r bs a := by
  constructor
  intro pos
  have hr := h.exact pos []
  rwa [List.append_nil] at hr

theorem bind {r : Reader ε α} {f : α → Reader ε β} {bs cs : Bytes} {a : α} {b : β}
    (hr : Reads r bs a) (hf : ReadsAll (f a) cs b) : ReadsAll (r >>= f) (bs ++ cs) b := by
  constructor
  intro pos
  have hfirst := hr.exact pos cs
  have hsecond := hf.exact (pos + bs.length)
  change (match r ⟨pos, bs ++ cs⟩ with
    | .ok (a, c') => f a c'
    | .error e => .error e) = _
  rw [hfirst]
  simp only [hsecond, List.length_append, Nat.add_assoc]

theorem bind_pure {r : Reader ε α} {g : α → β} {bs : Bytes} {a : α}
    (hr : ReadsAll r bs a) : ReadsAll (r >>= fun x => Pure.pure (g x)) bs (g a) := by
  constructor
  intro pos
  change (match r ⟨pos, bs⟩ with
    | .ok (a, c') => (Pure.pure (g a) : Reader ε β) c'
    | .error e => .error e) = _
  rw [hr.exact pos]
  rfl

/-- A reader that consumes a whole byte string returns its value when run on it. -/
theorem run {r : Reader ε α} {bs : Bytes} {a : α} (h : ReadsAll r bs a) : r.run bs = .ok a := by
  simp only [Reader.run, h.exact 0]

end ReadsAll

/-- Whatever the reader returns has a property. -/
def Yields {ε α : Type} (r : Reader ε α) (P : α → Prop) : Prop :=
  ∀ ⦃c a c'⦄, r c = .ok (a, c') → P a

namespace Yields

variable {ε α β : Type} {P : α → Prop} {Q : β → Prop}

theorem any (r : Reader ε α) : Yields r fun _ => True := fun _ _ _ _ => trivial

theorem pure {a : α} (h : P a) : Yields (Pure.pure a : Reader ε α) P := by
  intro c a' c' hr
  cases hr
  exact h

theorem fail (e : Cursor → ε) : Yields (Reader.fail e) P := by
  intro c a c' hr
  cases hr

theorem bind {r : Reader ε α} {f : α → Reader ε β} (hr : Yields r P)
    (hf : ∀ a, P a → Yields (f a) Q) : Yields (r >>= f) Q := by
  intro c b c' h
  rw [Reader.bind_apply] at h
  cases hread : r c with
  | error e =>
      rw [hread] at h
      cases h
  | ok result =>
      rw [hread] at h
      exact hf result.1 (hr hread) h

/-- What was read before does not matter. -/
theorem after {r : Reader ε α} {f : α → Reader ε β} (hf : ∀ a, Yields (f a) Q) :
    Yields (r >>= f) Q :=
  bind (any r) fun a _ => hf a

theorem run {r : Reader ε α} (h : Yields r P) {bs : Bytes} {a : α} (hrun : r.run bs = .ok a) :
    P a := by
  rw [Reader.run] at hrun
  cases hread : r ⟨0, bs⟩ with
  | error e =>
      rw [hread] at hrun
      cases hrun
  | ok result =>
      rw [hread] at hrun
      cases hrun
      exact h hread

end Yields

/-- Of at most `n` bytes, the reader returns what has a property. -/
def YieldsWithin {ε α : Type} (n : Nat) (r : Reader ε α) (P : α → Prop) : Prop :=
  ∀ ⦃c a c'⦄, c.rest.length ≤ n → r c = .ok (a, c') → c'.rest.length ≤ n ∧ P a

namespace YieldsWithin

variable {ε α β : Type} {n : Nat} {P : α → Prop} {Q : β → Prop}

theorem pure {a : α} (h : P a) : YieldsWithin n (Pure.pure a : Reader ε α) P := by
  intro c a' c' hc hr
  cases hr
  exact ⟨hc, h⟩

theorem fail (e : Cursor → ε) : YieldsWithin n (Reader.fail e) P := by
  intro c a c' hc hr
  cases hr

theorem bind {r : Reader ε α} {f : α → Reader ε β} (hr : YieldsWithin n r P)
    (hf : ∀ a, P a → YieldsWithin n (f a) Q) : YieldsWithin n (r >>= f) Q := by
  intro c b c' hc h
  rw [Reader.bind_apply] at h
  cases hread : r c with
  | error e =>
      rw [hread] at h
      cases h
  | ok result =>
      rw [hread] at h
      obtain ⟨hrest, hresult⟩ := hr hc hread
      exact hf result.1 hresult hrest h

/-- The last step of a reader may compute on what was read. -/
theorem map {r : Reader ε α} {g : α → β} (hr : YieldsWithin n r fun a => Q (g a)) :
    YieldsWithin n (r >>= fun a => Pure.pure (g a)) Q :=
  bind hr fun _ ha => pure ha

theorem mono {P' : α → Prop} {r : Reader ε α} (hr : YieldsWithin n r P) (h : ∀ a, P a → P' a) :
    YieldsWithin n r P' := by
  intro c a c' hc hread
  obtain ⟨hrest, ha⟩ := hr hc hread
  exact ⟨hrest, h a ha⟩

theorem take (short : Nat → Nat → Nat → ε) (k : Nat) :
    YieldsWithin n (Reader.take short k) fun bs => bs.length = k ∧ k ≤ n := by
  intro c bs c' hc hr
  unfold Reader.take at hr
  split at hr
  next => cases hr
  next hlong =>
    cases hr
    refine ⟨?_, ?_, ?_⟩
    · rw [List.length_drop]
      omega
    · rw [List.length_take]
      omega
    · omega

theorem remaining : YieldsWithin n (Reader.remaining : Reader ε Nat) fun _ => True := by
  intro c a c' hc hr
  cases hr
  exact ⟨hc, trivial⟩

theorem many {r : Reader ε α} (hr : YieldsWithin n r P) (k : Nat) :
    YieldsWithin n (Reader.many r k) fun as => as.length = k ∧ ∀ a ∈ as, P a := by
  induction k with
  | zero => exact pure ⟨rfl, fun a ha => by cases ha⟩
  | succ k ih =>
      refine bind hr fun a ha => bind ih fun as has => pure ⟨?_, ?_⟩
      · rw [List.length_cons, has.1]
      · exact List.forall_mem_cons.mpr ⟨ha, has.2⟩

theorem run {r : Reader ε α} {bs : Bytes} (h : YieldsWithin bs.length r P) {a : α}
    (hrun : r.run bs = .ok a) : P a := by
  rw [Reader.run] at hrun
  cases hread : r ⟨0, bs⟩ with
  | error e =>
      rw [hread] at hrun
      cases hrun
  | ok result =>
      rw [hread] at hrun
      cases hrun
      exact (h (Nat.le_refl _) hread).2

end YieldsWithin

end ByteCodec
