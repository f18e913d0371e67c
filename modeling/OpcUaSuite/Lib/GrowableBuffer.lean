import Mathlib.Data.List.Basic

/-!
# A buffer that grows under its writers

A stream owns a buffer of uninitialised cells and the position of its next
write. An action may make room, store at the position and move it, and may fail
at any point with the stream left as it is. `Appends act ws` says that on every
sound stream the action does what appending the parts `ws` to a list would do,
up to the first part that is refused, whatever the memory held and wherever the
buffer grew. The relation follows the sequence of writes.
-/

namespace GrowableBuffer

variable {ε α β : Type}

/-- The cells of a fresh allocation, by the number of the allocation. -/
abbrev Memory (α : Type) := Nat → Nat → α

structure Stream (α : Type) where
  buf : List α
  cursor : Nat
  allocations : Nat

abbrev Action (ε α β : Type) := ExceptT ε (StateM (Stream α)) β

/-- `n` cells as the memory left them. -/
def allocUnsafe (memory : Memory α) (k n : Nat) : List α := (List.range n).map (memory k)

@[simp] theorem length_allocUnsafe (memory : Memory α) (k n : Nat) :
    (allocUnsafe memory k n).length = n := by
  rw [allocUnsafe, List.length_map, List.length_range]

/-- A copy to a position, as far as the target reaches. -/
def copyTo (target : List α) (start : Nat) (source : List α) : List α :=
  target.take start ++ source.take (target.length - start) ++ target.drop (start + source.length)

theorem length_copyTo {target source : List α} {start : Nat}
    (h : start + source.length ≤ target.length) :
    (copyTo target start source).length = target.length := by
  simp only [copyTo, List.length_append, List.length_take, List.length_drop]
  omega

/-- Up to the end of the copy only what stood before it and the source are left. -/
theorem take_copyTo {target : List α} (start : Nat) (source : List α)
    (h : start + source.length ≤ target.length) :
    (copyTo target start source).take (start + source.length) = target.take start ++ source := by
  have hsource : source.take (target.length - start) = source :=
    List.take_of_length_le (by omega)
  have hlength : (target.take start ++ source).length = start + source.length := by
    rw [List.length_append, List.length_take]
    omega
  rw [copyTo, hsource, ← hlength, List.take_left]

namespace Stream

def alloc (memory : Memory α) (size : Nat) : Stream α := ⟨allocUnsafe memory 0 size, 0, 1⟩

/-- The written portion of the buffer. -/
def contents (s : Stream α) : List α := s.buf.take s.cursor

/-- The position lies in the buffer. -/
def Sound (s : Stream α) : Prop := s.cursor ≤ s.buf.length

theorem alloc_sound (memory : Memory α) (size : Nat) : (alloc memory size).Sound :=
  Nat.zero_le _

end Stream

/-! ## Actions -/

variable (memory : Memory α) (capacity : Nat → Nat → Nat)

/-- Room for `n` more cells; a larger buffer takes over what was written. -/
def makeRoom (n : Nat) (s : Stream α) : Stream α :=
  if s.buf.length < s.cursor + n then
    let grown := allocUnsafe memory s.allocations (capacity s.buf.length (s.cursor + n))
    ⟨copyTo grown 0 (s.buf.take s.cursor), s.cursor, s.allocations + 1⟩
  else s

def ensureWrite (n : Nat) : Action ε α Unit := modify (makeRoom memory capacity n)

/-- A write method of the raw buffer at the position: the value is refused
first, then a position without enough cells behind it. -/
def store (outOfBounds : ε) (w : Except ε (List α)) : Action ε α Unit :=
  match w with
  | .error e => throw e
  | .ok bs => do
      let s ← get
      if s.cursor + bs.length ≤ s.buf.length then
        set { s with buf := copyTo s.buf s.cursor bs }
      else throw outOfBounds

/-- A copy to the position; what finds no room is dropped. -/
def copy (bs : List α) : Action ε α Unit :=
  modify fun s => { s with buf := copyTo s.buf s.cursor bs }

def advance (n : Nat) : Action ε α Unit := modify fun s => { s with cursor := s.cursor + n }

/-! ## The append model -/

/-- The outcome of appending the parts one after another, and what was appended
when it ends. -/
def appended : List (Except ε (List α)) → Except ε Unit × List α
  | [] => (.ok (), [])
  | .error e :: _ => (.error e, [])
  | .ok bs :: ws => ((appended ws).1, bs ++ (appended ws).2)

theorem appended_append_ok {ws vs : List (Except ε (List α))} (h : (appended ws).1 = .ok ()) :
    appended (ws ++ vs) = ((appended vs).1, (appended ws).2 ++ (appended vs).2) := by
  induction ws with
  | nil => rfl
  | cons w ws ih =>
      cases w with
      | error e => cases h
      | ok bs =>
          rw [List.cons_append, appended, ih h, appended, List.append_assoc]

theorem appended_append_error {ws vs : List (Except ε (List α))} {e : ε}
    (h : (appended ws).1 = .error e) : appended (ws ++ vs) = appended ws := by
  induction ws with
  | nil => cases h
  | cons w ws ih =>
      cases w with
      | error e => rfl
      | ok bs => rw [List.cons_append, appended, ih h, appended]

/-- The outcome of an action and the stream it leaves. -/
def exec (act : Action ε α β) (s : Stream α) : Except ε β × Stream α := act.run.run s

theorem exec_bind (act : Action ε α β) (next : β → Action ε α Unit) (s : Stream α) :
    exec (act >>= next) s =
      match (exec act s).1 with
      | .ok b => exec (next b) (exec act s).2
      | .error e => (.error e, (exec act s).2) := by
  have hrun : exec (act >>= next) s =
      StateT.run (ExceptT.bindCont next (exec act s).1) (exec act s).2 := rfl
  rw [hrun]
  cases (exec act s).1 with
  | error e => rfl
  | ok b => rfl

/-- On every sound stream the action does to the contents what appending does. -/
def Appends (act : Action ε α Unit) (ws : List (Except ε (List α))) : Prop :=
  ∀ s : Stream α, s.Sound →
    (exec act s).1 = (appended ws).1 ∧ (exec act s).2.Sound ∧
      (exec act s).2.contents = s.contents ++ (appended ws).2

@[simp] theorem makeRoom_cursor (n : Nat) (s : Stream α) :
    (makeRoom memory capacity n s).cursor = s.cursor := by
  rw [makeRoom]
  split <;> rfl

/-- A policy that never allocates less than is needed. -/
def Suffices : Prop := ∀ len need, need ≤ capacity len need

section Room

variable {memory capacity}

theorem makeRoom_room (hcapacity : Suffices capacity) (n : Nat) (s : Stream α) :
    (makeRoom memory capacity n s).cursor + n ≤ (makeRoom memory capacity n s).buf.length := by
  rw [makeRoom_cursor, makeRoom]
  split
  · have hroom := hcapacity s.buf.length (s.cursor + n)
    rw [length_copyTo (by rw [length_allocUnsafe, List.length_take]; omega), length_allocUnsafe]
    exact hroom
  · omega

theorem makeRoom_contents (hcapacity : Suffices capacity) (n : Nat) {s : Stream α}
    (hs : s.Sound) : (makeRoom memory capacity n s).contents = s.contents := by
  have hlength : (s.buf.take s.cursor).length = s.cursor := by
    rw [List.length_take]
    exact Nat.min_eq_left hs
  rw [makeRoom]
  split
  · have hroom := hcapacity s.buf.length (s.cursor + n)
    have hfits : 0 + (s.buf.take s.cursor).length ≤ (allocUnsafe memory s.allocations
        (capacity s.buf.length (s.cursor + n))).length := by
      rw [length_allocUnsafe, hlength]
      omega
    have htake := take_copyTo 0 (s.buf.take s.cursor) hfits
    rw [Nat.zero_add, hlength, List.take_zero, List.nil_append] at htake
    exact htake
  · rfl

end Room

namespace Appends

variable {memory capacity}

theorem nothing : Appends (pure () : Action ε α Unit) [] := by
  intro s hs
  exact ⟨rfl, hs, (List.append_nil s.contents).symm⟩

theorem refuse (e : ε) : Appends (throw e : Action ε α Unit) [.error e] := by
  intro s hs
  exact ⟨rfl, hs, (List.append_nil s.contents).symm⟩

/-- The second action runs only when the first one ends. -/
theorem seq {act next : Action ε α Unit} {ws vs : List (Except ε (List α))}
    (hact : Appends act ws) (hnext : Appends next vs) :
    Appends (act >>= fun _ => next) (ws ++ vs) := by
  intro s hs
  obtain ⟨hout, hsound, hcontents⟩ := hact s hs
  rw [exec_bind]
  cases hws : (appended ws).1 with
  | error e =>
      rw [hout, hws, appended_append_error hws]
      exact ⟨hws.symm, hsound, hcontents⟩
  | ok =>
      obtain ⟨hout', hsound', hcontents'⟩ := hnext (exec act s).2 hsound
      rw [hout, hws, appended_append_ok hws]
      refine ⟨hout', hsound', ?_⟩
      rw [hcontents', hcontents, List.append_assoc]

/-- What an action does to a stream with room it does once the room is made. -/
theorem after_ensureWrite (hcapacity : Suffices capacity) (n : Nat) {act : Action ε α Unit}
    {ws : List (Except ε (List α))}
    (h : ∀ s : Stream α, s.Sound → s.cursor + n ≤ s.buf.length →
      (exec act s).1 = (appended ws).1 ∧ (exec act s).2.Sound ∧
        (exec act s).2.contents = s.contents ++ (appended ws).2) :
    Appends (ensureWrite memory capacity n >>= fun _ => act) ws := by
  intro s hs
  have hroom : (makeRoom memory capacity n s).cursor + n ≤
      (makeRoom memory capacity n s).buf.length := makeRoom_room hcapacity n s
  have hsound : (makeRoom memory capacity n s).Sound := Nat.le_trans (Nat.le_add_right _ n) hroom
  have hact := h (makeRoom memory capacity n s) hsound hroom
  rw [makeRoom_contents hcapacity n hs] at hact
  exact hact

/-- Cells that fit stand behind what was written once the position has moved. -/
theorem stored {s : Stream α} {bs : List α} (hroom : s.cursor + bs.length ≤ s.buf.length) :
    (Stream.mk (copyTo s.buf s.cursor bs) (s.cursor + bs.length) s.allocations).Sound ∧
      (Stream.mk (copyTo s.buf s.cursor bs) (s.cursor + bs.length) s.allocations).contents =
        s.contents ++ bs := by
  constructor
  · rw [Stream.Sound, length_copyTo hroom]
    exact hroom
  · exact take_copyTo s.cursor bs hroom

/-- Room for the encoding, a raw write and the move of the position. -/
theorem put (hcapacity : Suffices capacity) {n : Nat} {outOfBounds : ε}
    {w : Except ε (List α)} (hw : ∀ bs, w = .ok bs → bs.length = n) :
    Appends (do ensureWrite memory capacity n; store outOfBounds w; advance n) [w] := by
  apply after_ensureWrite hcapacity
  intro s hs hroom
  cases w with
  | error e => exact refuse e s hs
  | ok bs =>
      obtain rfl := hw bs rfl
      have hrun : exec (store outOfBounds (.ok bs)) s =
          (.ok (), { s with buf := copyTo s.buf s.cursor bs }) := by
        rw [store, exec_bind]
        change exec (if s.cursor + bs.length ≤ s.buf.length then _ else _) s = _
        rw [if_pos hroom]
        rfl
      rw [exec_bind, hrun, appended, appended, List.append_nil]
      exact ⟨rfl, stored hroom⟩

/-- Room for the source, its copy and the move of the position. -/
theorem putCopy (hcapacity : Suffices capacity) (bs : List α) :
    Appends (do ensureWrite memory capacity bs.length; copy bs; advance bs.length :
      Action ε α Unit) [.ok bs] := by
  apply after_ensureWrite hcapacity
  intro s _ hroom
  rw [appended, appended, List.append_nil]
  exact ⟨rfl, stored hroom⟩

/-- A loop appends what its rounds append. -/
theorem loop {γ : Type} {act : γ → Action ε α Unit} {ws : γ → List (Except ε (List α))}
    {items : List γ} (h : ∀ item ∈ items, Appends (act item) (ws item)) :
    Appends (items.forM act) (items.flatMap ws) := by
  induction items with
  | nil => exact nothing
  | cons item items ih =>
      rw [List.flatMap_cons]
      exact seq (h item List.mem_cons_self) (ih fun other hother =>
        h other (List.mem_cons_of_mem item hother))

end Appends

end GrowableBuffer
