import OpcUaSuite.Lib.Reader

/-!
# Grammars of byte strings

A grammar relates the byte strings of a format to what later parts depend on: a
count, a flag byte, or nothing. `Recognizes` ties a reader to a grammar in both
directions, part by part.
-/

namespace ByteCodec

/-- The byte strings of a format, with the value each of them stands for. -/
def Grammar (β : Type) := Bytes → β → Prop

namespace Grammar

variable {β γ : Type}

instance : Monad Grammar where
  pure b := fun z b' => z = [] ∧ b' = b
  bind S T := fun z c => ∃ x y b, z = x ++ y ∧ S x b ∧ T b y c

/-- No byte string. -/
def none : Grammar β := fun _ _ => False

/-- Any `n` bytes. -/
def bytes (n : Nat) : Grammar Unit := fun z _ => z.length = n

/-- A little-endian word of `k` bytes. -/
def word (k : Nat) : Grammar Nat := fun z n => z.length = k ∧ n = ofLe z

/-- `n` byte strings one after another. -/
def times (S : Grammar Unit) : Nat → Grammar Unit
  | 0 => pure ()
  | n + 1 => do
      S
      times S n

end Grammar

variable {ε α α' β γ : Type}

/-- The reader consumes exactly the byte strings of the grammar, and `view` of
what it returns is what they stand for. -/
structure Recognizes (r : Reader ε α) (view : α → β) (S : Grammar β) : Prop where
  accepts : ∀ x b, S x b → ∃ a, view a = b ∧ Reads r x a
  only : ∀ c a c', r c = .ok (a, c') → ∃ x, c.rest = x ++ c'.rest ∧ S x (view a)

namespace Recognizes

variable {r : Reader ε α} {view : α → β} {S : Grammar β}

theorem pure (a : α) : Recognizes (Pure.pure a : Reader ε α) view (Pure.pure (view a)) where
  accepts := by
    rintro x b ⟨rfl, rfl⟩
    exact ⟨a, rfl, Reads.pure a⟩
  only := by
    rintro c b c' h
    cases h
    exact ⟨[], rfl, rfl, rfl⟩

theorem fail (e : Cursor → ε) : Recognizes (Reader.fail e : Reader ε α) view Grammar.none where
  accepts := by rintro x b ⟨⟩
  only := by rintro c b c' ⟨⟩

theorem bind {f : α → Reader ε α'} {view' : α' → γ} {T : β → Grammar γ}
    (hr : Recognizes r view S) (hf : ∀ a, Recognizes (f a) view' (T (view a))) :
    Recognizes (r >>= f) view' (S >>= T) where
  accepts := by
    rintro z c ⟨x, y, b, rfl, hx, hy⟩
    obtain ⟨a, rfl, hread⟩ := hr.accepts x b hx
    obtain ⟨a', rfl, hread'⟩ := (hf a).accepts y c hy
    exact ⟨a', rfl, hread.bind hread'⟩
  only := by
    intro c a' c'' h
    rw [Reader.bind_apply] at h
    rcases hc : r c with e | ⟨a, c'⟩ <;> rw [hc] at h
    · cases h
    · obtain ⟨x, hrest, hx⟩ := hr.only c a c' hc
      obtain ⟨y, hrest', hy⟩ := (hf a).only c' a' c'' h
      exact ⟨x ++ y, by rw [hrest, hrest', List.append_assoc], x, y, view a, rfl, hx, hy⟩

/-- What a later step computes is a view of what was read. -/
theorem map {g : α → α'} {view' : α' → β} (hr : Recognizes r view S)
    (h : ∀ a, view' (g a) = view a) : Recognizes (r >>= fun a => Pure.pure (g a)) view' S where
  accepts := by
    intro x b hx
    obtain ⟨a, rfl, hread⟩ := hr.accepts x b hx
    exact ⟨g a, h a, hread.bind_pure⟩
  only := by
    intro c a' c' hc
    rw [Reader.bind_apply] at hc
    rcases hrc : r c with e | ⟨a, d⟩ <;> rw [hrc] at hc
    · cases hc
    · cases hc
      obtain ⟨x, hrest, hx⟩ := hr.only c a _ hrc
      exact ⟨x, hrest, by rw [h]; exact hx⟩

theorem ite {p : Prop} [Decidable p] {r' : Reader ε α} {S' : Grammar β}
    (h : p → Recognizes r view S) (h' : ¬p → Recognizes r' view S') :
    Recognizes (if p then r else r') view (if p then S else S') := by
  split
  next hp => exact h hp
  next hp => exact h' hp

theorem take (short : Nat → Nat → Nat → ε) (n : Nat) (view : Bytes → Unit) :
    Recognizes (Reader.take short n) view (Grammar.bytes n) where
  accepts := by
    rintro x - rfl
    exact ⟨x, rfl, Reads.take short x⟩
  only := by
    intro c bs c' h
    unfold Reader.take at h
    split at h
    · cases h
    · cases h
      refine ⟨c.rest.take n, (List.take_append_drop n c.rest).symm, ?_⟩
      change (c.rest.take n).length = n
      rw [List.length_take]
      omega

theorem word (short : Nat → Nat → Nat → ε) (k : Nat) :
    Recognizes (do
      let bs ← Reader.take short k
      return ofLe bs : Reader ε Nat) id (Grammar.word k) where
  accepts := by
    rintro x b ⟨rfl, rfl⟩
    exact ⟨ofLe x, rfl, Reads.bind_pure (Reads.take short x)⟩
  only := by
    intro c n c' h
    rw [Reader.bind_apply] at h
    unfold Reader.take at h
    split at h
    next bs d hd =>
      split at hd
      · cases hd
      · cases hd
        cases h
        refine ⟨c.rest.take k, (List.take_append_drop k c.rest).symm, ?_, rfl⟩
        rw [List.length_take]
        omega
    next => cases h

theorem many {view : α → Unit} {S : Grammar Unit} (hr : Recognizes r view S)
    (view' : List α → Unit) (n : Nat) :
    Recognizes (Reader.many r n) view' (Grammar.times S n) := by
  induction n generalizing view' with
  | zero => exact pure []
  | succ n ih => exact hr.bind fun a => (ih fun _ => ()).map fun _ => rfl

/-- The list read is as long as its count. -/
theorem many_length {S : Grammar Unit} {view : α → Unit} (hr : Recognizes r view S) (n : Nat) :
    Recognizes (Reader.many r n) List.length (do
      Grammar.times S n
      return n) where
  accepts := by
    rintro x b ⟨y, z, _, rfl, hy, rfl, rfl⟩
    obtain ⟨as, -, has⟩ := (hr.many (fun _ => ()) b).accepts y () hy
    rw [List.append_nil]
    exact ⟨as, Reader.length_of_many (has.exact 0 []), has⟩
  only := by
    intro c as c' h
    obtain ⟨x, hrest, hx⟩ := (hr.many (fun _ => ()) n).only c as c' h
    exact ⟨x, hrest, x, [], (), (List.append_nil x).symm, hx, rfl, Reader.length_of_many h⟩

/-- A reader accepts what begins with a byte string of its grammar. -/
theorem run_iff (hr : Recognizes r view S) (bs : Bytes) :
    (∃ a, r.run bs = .ok a) ↔ ∃ x tail b, bs = x ++ tail ∧ S x b := by
  constructor
  · rintro ⟨a, ha⟩
    unfold Reader.run at ha
    rcases hc : r ⟨0, bs⟩ with e | ⟨a', c'⟩ <;> rw [hc] at ha
    · cases ha
    · obtain ⟨x, hrest, hx⟩ := hr.only _ _ _ hc
      exact ⟨x, c'.rest, view a', hrest, hx⟩
  · rintro ⟨x, tail, b, rfl, hx⟩
    obtain ⟨a, -, hread⟩ := hr.accepts x b hx
    exact ⟨a, by rw [Reader.run, hread.exact 0 tail]⟩

end Recognizes

end ByteCodec
