import OpcUaSuite.Lib.Reader
import Mathlib.Data.List.Forall2

/-!
# Writers that may reject, and their readers

A writer is the byte string it appends, or the error that abandons the whole
message. `Encodes w r a` says that whatever `w` writes, `r` reads back as `a`
and consumes exactly; a rejecting writer satisfies it trivially. The relation
follows the sequence of writes, so a format is verified part by part in wire
order.
-/

namespace ByteCodec

variable {ε ε' α β : Type}

theorem bind_eq_ok {x : Except ε α} {f : α → Except ε β} {b : β} :
    x >>= f = .ok b ↔ ∃ a, x = .ok a ∧ f a = .ok b := by
  cases x with
  | error e =>
      constructor
      · intro h
        cases h
      · rintro ⟨_, h, _⟩
        cases h
  | ok a =>
      constructor
      · intro h
        exact ⟨a, rfl, h⟩
      · rintro ⟨_, h, h'⟩
        cases h
        exact h'

theorem map_eq_ok {x : Except ε α} {f : α → β} {b : β} :
    x.map f = .ok b ↔ ∃ a, x = .ok a ∧ f a = b := by
  cases x with
  | error e =>
      constructor
      · intro h
        cases h
      · rintro ⟨_, h, _⟩
        cases h
  | ok a => simp [Except.map]

/-- The parts written one after another; the first rejection abandons all. -/
def cat : List (Except ε Bytes) → Except ε Bytes
  | [] => .ok []
  | w :: ws => do
      let bs ← w
      let cs ← cat ws
      return bs ++ cs

/-- A part that is on the wire only when its flag is set. -/
def opt (present : Bool) (w : Except ε Bytes) : Except ε Bytes :=
  if present then w else .ok []

theorem cat_cons_eq_ok {w : Except ε Bytes} {ws : List (Except ε Bytes)} {bs : Bytes} :
    cat (w :: ws) = .ok bs ↔ ∃ b c, w = .ok b ∧ cat ws = .ok c ∧ bs = b ++ c := by
  rw [cat, bind_eq_ok]
  constructor
  · rintro ⟨b, hb, h⟩
    obtain ⟨c, hc, h'⟩ := bind_eq_ok.mp h
    exact ⟨b, c, hb, hc, (Except.ok.inj h').symm⟩
  · rintro ⟨b, c, hb, hc, rfl⟩
    exact ⟨b, hb, bind_eq_ok.mpr ⟨c, hc, rfl⟩⟩

theorem cat_append_eq_ok {ws vs : List (Except ε Bytes)} {bs : Bytes} :
    cat (ws ++ vs) = .ok bs ↔ ∃ b c, cat ws = .ok b ∧ cat vs = .ok c ∧ bs = b ++ c := by
  induction ws generalizing bs with
  | nil =>
      constructor
      · exact fun h => ⟨[], bs, rfl, h, rfl⟩
      · rintro ⟨_, c, hb, hc, rfl⟩
        cases hb
        exact hc
  | cons w ws ih =>
      rw [List.cons_append, cat_cons_eq_ok]
      constructor
      · rintro ⟨b, c, hb, hc, rfl⟩
        obtain ⟨d, e, hd, he, rfl⟩ := ih.mp hc
        exact ⟨b ++ d, e, cat_cons_eq_ok.mpr ⟨b, d, hb, hd, rfl⟩, he, (List.append_assoc b d e).symm⟩
      · rintro ⟨_, e, hb, he, rfl⟩
        obtain ⟨b, d, hw, hd, rfl⟩ := cat_cons_eq_ok.mp hb
        exact ⟨b, d ++ e, hw, ih.mpr ⟨d, e, hd, he, rfl⟩, List.append_assoc b d e⟩

@[simp] theorem cat_singleton (w : Except ε Bytes) : cat [w] = w := by
  cases w with
  | error e => rfl
  | ok bs => exact congrArg Except.ok (List.append_nil bs)

theorem cat_ok_cons (bs : Bytes) (ws : List (Except ε Bytes)) :
    cat (.ok bs :: ws) = (cat ws).map (bs ++ ·) := by
  rw [cat]
  cases cat ws <;> rfl

/-- Parts may be grouped. -/
theorem cat_append (ws vs : List (Except ε Bytes)) : cat (ws ++ vs) = cat [cat ws, cat vs] := by
  induction ws with
  | nil =>
      rw [List.nil_append, cat, cat_ok_cons, cat_singleton]
      cases cat vs <;> rfl
  | cons w ws ih =>
      cases w with
      | error e => rfl
      | ok bs =>
          rw [List.cons_append, cat_ok_cons, ih, cat_ok_cons]
          cases cat ws with
          | error e => rfl
          | ok cs =>
              rw [cat_ok_cons, cat_singleton]
              change _ = cat [.ok (bs ++ cs), cat vs]
              rw [cat_ok_cons, cat_singleton]
              cases cat vs with
              | error e => rfl
              | ok ds => exact congrArg Except.ok (List.append_assoc bs cs ds).symm

/-- Parts grouped by what they make up. -/
theorem cat_flatMap {parts : α → List (Except ε Bytes)} {whole : α → Except ε Bytes}
    (items : List α) (h : ∀ item, cat (parts item) = whole item) :
    cat (items.flatMap parts) = cat (items.map whole) := by
  induction items with
  | nil => rfl
  | cons item items ih =>
      rw [List.flatMap_cons, cat_append, ih, h, List.map_cons]
      cases whole item with
      | error e => rfl
      | ok bs => rw [cat_ok_cons, cat_singleton, cat_ok_cons]

/-- Every part of a message that was written has been written. -/
theorem cat_part {w : Except ε Bytes} {ws : List (Except ε Bytes)} {bs : Bytes}
    (h : cat ws = .ok bs) (hw : w ∈ ws) : ∃ b, w = .ok b ∧ b.length ≤ bs.length := by
  induction ws generalizing bs with
  | nil => cases hw
  | cons v ws ih =>
      obtain ⟨b, c, hb, hc, rfl⟩ := cat_cons_eq_ok.mp h
      rw [List.length_append]
      rcases List.mem_cons.mp hw with rfl | hw
      · exact ⟨b, hb, by omega⟩
      · obtain ⟨d, hd, hle⟩ := ih hc hw
        exact ⟨d, hd, by omega⟩

theorem exists_left_of_forall₂ {R : α → β → Prop} {as : List α} {bs : List β}
    (h : List.Forall₂ R as bs) {b : β} (hb : b ∈ bs) : ∃ a ∈ as, R a b := by
  induction h with
  | nil => cases hb
  | @cons a c as bs ha _ ih =>
      rcases List.mem_cons.mp hb with rfl | hb
      · exact ⟨a, List.mem_cons_self, ha⟩
      · obtain ⟨a', ha', hR⟩ := ih hb
        exact ⟨a', List.mem_cons_of_mem a ha', hR⟩

theorem exists_right_of_forall₂ {R : α → β → Prop} {as : List α} {bs : List β}
    (h : List.Forall₂ R as bs) {a : α} (ha : a ∈ as) : ∃ b ∈ bs, R a b :=
  exists_left_of_forall₂ h.flip ha

/-- Lists whose elements agree pairwise agree as a whole. -/
theorem forall_iff_of_forall₂ {P : α → Prop} {Q : β → Prop} {as : List α} {bs : List β}
    (h : List.Forall₂ (fun a b => P a ↔ Q b) as bs) : (∀ a ∈ as, P a) ↔ ∀ b ∈ bs, Q b := by
  induction h with
  | nil => exact iff_of_true (fun a ha => nomatch ha) (fun b hb => nomatch hb)
  | cons hab _ ih => rw [List.forall_mem_cons, List.forall_mem_cons, hab, ih]

/-- A list of results that all succeed. -/
theorem mapM_eq_ok {f : α → Except ε β} {as : List α} {bs : List β}
    (h : as.mapM f = .ok bs) : List.Forall₂ (fun a b => f a = .ok b) as bs := by
  induction as generalizing bs with
  | nil =>
      cases h
      exact List.Forall₂.nil
  | cons a as ih =>
      rw [List.mapM_cons] at h
      obtain ⟨b, hb, h⟩ := bind_eq_ok.mp h
      obtain ⟨cs, hcs, h⟩ := bind_eq_ok.mp h
      cases h
      exact List.Forall₂.cons hb (ih hcs)

/-- Whatever the writer appends, the reader consumes exactly and returns `a`. -/
structure Encodes (w : Except ε Bytes) (r : Reader ε' α) (a : α) : Prop where
  reads : ∀ bs, w = .ok bs → Reads r bs a

namespace Encodes

theorem ok {r : Reader ε' α} {bs : Bytes} {a : α} (h : Reads r bs a) :
    Encodes (.ok bs : Except ε Bytes) r a :=
  ⟨fun _ hb => Except.ok.inj hb ▸ h⟩

theorem error {r : Reader ε' α} {a : α} (e : ε) : Encodes (.error e) r a :=
  ⟨fun _ hb => by cases hb⟩

theorem nil (a : α) : Encodes (cat [] : Except ε Bytes) (pure a : Reader ε' α) a :=
  ok (Reads.pure a)

/-- The next part is read first; the rest of the reader may depend on it. -/
theorem cons {w : Except ε Bytes} {ws : List (Except ε Bytes)} {r : Reader ε' α}
    {f : α → Reader ε' β} {a : α} {b : β} (hw : Encodes w r a)
    (hws : Encodes (cat ws) (f a) b) : Encodes (cat (w :: ws)) (r >>= f) b := by
  constructor
  intro bs h
  obtain ⟨b₁, b₂, h₁, h₂, rfl⟩ := cat_cons_eq_ok.mp h
  exact (hw.reads b₁ h₁).bind (hws.reads b₂ h₂)

/-- A writer of one part. -/
theorem single {w : Except ε Bytes} {r : Reader ε' α} {a : α} (hw : Encodes w r a) :
    Encodes (cat [w]) r a := by
  constructor
  intro bs h
  obtain ⟨b₁, b₂, h₁, h₂, rfl⟩ := cat_cons_eq_ok.mp h
  cases h₂
  rw [List.append_nil]
  exact hw.reads b₁ h₁

/-- The value read may be computed on. -/
theorem map {w : Except ε Bytes} {r : Reader ε' α} {a : α} (g : α → β) (hw : Encodes w r a) :
    Encodes w (r >>= fun x => pure (g x)) (g a) :=
  ⟨fun bs h => Reads.bind_pure (hw.reads bs h)⟩

/-- An optional part is guarded by the same flag on both sides. -/
theorem opt {w : Except ε Bytes} {r : Reader ε' α} {a d : α} {present : Bool}
    (hw : present = true → Encodes w r a) :
    Encodes (opt present w) (if present then r else pure d) (if present then a else d) := by
  cases present with
  | false => exact ok (Reads.pure d)
  | true => exact hw rfl

/-- A list of parts is read by repeating the reader of one part. -/
theorem many {γ : Type} {w : γ → Except ε Bytes} {r : Reader ε' α} {g : γ → α} {cs : List γ}
    (h : ∀ c ∈ cs, Encodes (w c) r (g c)) :
    Encodes (cat (cs.map w)) (Reader.many r cs.length) (cs.map g) := by
  induction cs with
  | nil => exact nil []
  | cons c cs ih =>
      exact cons (h c List.mem_cons_self)
        (map (fun as => g c :: as) (ih fun d hd => h d (List.mem_cons_of_mem c hd)))

/-- Parts that are each read back as something related to them. -/
theorem many_related {γ : Type} {w : γ → Except ε Bytes} {r : Reader ε' α} {R : γ → α → Prop}
    {cs : List γ} (h : ∀ c ∈ cs, ∃ a, Encodes (w c) r a ∧ R c a) :
    ∃ as, Encodes (cat (cs.map w)) (Reader.many r cs.length) as ∧ List.Forall₂ R cs as := by
  induction cs with
  | nil => exact ⟨[], nil [], List.Forall₂.nil⟩
  | cons c cs ih =>
      obtain ⟨a, ha, hR⟩ := h c List.mem_cons_self
      obtain ⟨as, has, hRs⟩ := ih fun d hd => h d (List.mem_cons_of_mem c hd)
      exact ⟨a :: as, cons ha (map (fun as => a :: as) has), List.Forall₂.cons hR hRs⟩

end Encodes

/-- Whatever the writer appends, the reader consumes exactly and returns a value
with the property. -/
def Recovers (w : Except ε Bytes) (r : Reader ε' α) (P : α → Prop) : Prop :=
  ∀ bs, w = .ok bs → ∃ a, Reads r bs a ∧ P a

namespace Recovers

variable {w : Except ε Bytes} {r : Reader ε' α} {P : α → Prop}

theorem of_error {e : ε} (h : w = .error e) : Recovers w r P := by
  intro bs hbs
  rw [h] at hbs
  cases hbs

/-- What the reader returns decides, since it is determined by the bytes. -/
theorem iff_of_reads {bs : Bytes} {a : α} (hw : w = .ok bs) (hr : Reads r bs a) :
    Recovers w r P ↔ P a := by
  constructor
  · intro h
    obtain ⟨b, hb, hP⟩ := h bs hw
    rwa [hr.unique hb]
  · intro hP cs hcs
    rw [hw] at hcs
    cases hcs
    exact ⟨a, hr, hP⟩

theorem iff_of_encodes {bs : Bytes} {a : α} (hw : w = .ok bs) (h : Encodes w r a) :
    Recovers w r P ↔ P a :=
  iff_of_reads hw (h.reads bs hw)

end Recovers

/-! ## Writers that succeed -/

/-- The writer does not reject. -/
def Succeeds (w : Except ε α) : Prop := ∃ a, w = .ok a

/-- A writer that succeeds writes at most so many bytes. -/
def AtMost (n : Nat) (w : Except ε Bytes) : Prop := ∀ bs, w = .ok bs → bs.length ≤ n

theorem succeeds_ok (a : α) : Succeeds (.ok a : Except ε α) := ⟨a, rfl⟩

theorem not_succeeds_error (e : ε) : ¬ Succeeds (.error e : Except ε α) := nofun

theorem succeeds_bind {β : Type} {x : Except ε α} {f : α → Except ε β} :
    Succeeds (x >>= f) ↔ ∃ a, x = .ok a ∧ Succeeds (f a) := by
  constructor
  · rintro ⟨b, hb⟩
    obtain ⟨a, ha, hfa⟩ := bind_eq_ok.mp hb
    exact ⟨a, ha, b, hfa⟩
  · rintro ⟨a, ha, b, hb⟩
    exact ⟨b, bind_eq_ok.mpr ⟨a, ha, hb⟩⟩

theorem succeeds_cat {ws : List (Except ε Bytes)} :
    Succeeds (cat ws) ↔ ∀ w ∈ ws, Succeeds w := by
  induction ws with
  | nil => exact iff_of_true ⟨[], rfl⟩ fun w hw => nomatch hw
  | cons w ws ih =>
      rw [List.forall_mem_cons, ← ih]
      constructor
      · rintro ⟨bs, hbs⟩
        obtain ⟨b, c, hb, hc, -⟩ := cat_cons_eq_ok.mp hbs
        exact ⟨⟨b, hb⟩, ⟨c, hc⟩⟩
      · rintro ⟨⟨b, hb⟩, ⟨c, hc⟩⟩
        exact ⟨b ++ c, cat_cons_eq_ok.mpr ⟨b, c, hb, hc, rfl⟩⟩

theorem succeeds_opt {present : Bool} {w : Except ε Bytes} :
    Succeeds (opt present w) ↔ (present = true → Succeeds w) := by
  cases present with
  | false => exact iff_of_true ⟨[], rfl⟩ nofun
  | true => exact ⟨fun h _ => h, fun h => h rfl⟩

namespace AtMost

theorem of_error (n : Nat) (e : ε) : AtMost n (.error e) := fun _ h => nomatch h

theorem mono {m n : Nat} {w : Except ε Bytes} (h : AtMost m w) (hmn : m ≤ n) : AtMost n w :=
  fun bs hbs => (h bs hbs).trans hmn

theorem nil : AtMost 0 (cat [] : Except ε Bytes) := by
  intro bs hbs
  cases hbs
  exact le_refl _

theorem cons {m n : Nat} {w : Except ε Bytes} {ws : List (Except ε Bytes)} (hw : AtMost m w)
    (hws : AtMost n (cat ws)) : AtMost (m + n) (cat (w :: ws)) := by
  intro bs hbs
  obtain ⟨b, c, hb, hc, rfl⟩ := cat_cons_eq_ok.mp hbs
  rw [List.length_append]
  exact Nat.add_le_add (hw b hb) (hws c hc)

theorem opt {n : Nat} {w : Except ε Bytes} (h : AtMost n w) (present : Bool) :
    AtMost n (opt present w) := by
  cases present with
  | false =>
      intro bs hbs
      cases hbs
      exact Nat.zero_le n
  | true => exact h

theorem absent (w : Except ε Bytes) : AtMost 0 (ByteCodec.opt false w) := by
  intro bs hbs
  cases hbs
  exact le_refl _

/-- Parts of one bound. -/
theorem all {n : Nat} {ws : List (Except ε Bytes)} (h : ∀ w ∈ ws, AtMost n w) :
    AtMost (ws.length * n) (cat ws) := by
  induction ws with
  | nil => exact nil.mono (Nat.zero_le _)
  | cons w ws ih =>
      obtain ⟨hw, hws⟩ := List.forall_mem_cons.mp h
      rw [List.length_cons, Nat.succ_mul, Nat.add_comm]
      exact cons hw (ih hws)

end AtMost

end ByteCodec
