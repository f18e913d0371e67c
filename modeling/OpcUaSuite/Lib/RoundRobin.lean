import Mathlib.Data.List.Rotate
import Mathlib.Data.Nat.ModEq

/-!
# Taking turns in a ring

A ring is a list whose head stands at the cursor. A turn goes to the first
enabled entry, and the cursor moves behind it. As long as the same entries are
enabled, turns go through them in order, each once before any of them again. A
list with a cursor, searched from there and around, is the ring it rotates to.
-/

namespace RoundRobin

variable {α : Type*}

/-- Who has the turn, and the ring after it. -/
def next? (enabled : α → Bool) (ring : List α) : Option (α × List α) :=
  match ring.dropWhile fun a => !enabled a with
  | [] => none
  | x :: rest => some (x, rest ++ ring.takeWhile (fun a => !enabled a) ++ [x])

/-- So many turns in a row. -/
def turns (enabled : α → Bool) : Nat → List α → List α
  | 0, _ => []
  | k + 1, ring =>
      match next? enabled ring with
      | none => []
      | some (x, ring') => x :: turns enabled k ring'

variable {enabled : α → Bool}

theorem next?_append {before rest : List α} {x : α} (hbefore : ∀ a ∈ before, enabled a = false)
    (hx : enabled x = true) :
    next? enabled (before ++ x :: rest) = some (x, rest ++ before ++ [x]) := by
  have hnone : ∀ a ∈ before, (!enabled a) = true := fun a ha => by rw [hbefore a ha]; rfl
  have hdrop : (x :: rest).dropWhile (fun a => !enabled a) = x :: rest :=
    List.dropWhile_cons_of_neg (by simp [hx])
  have htake : (x :: rest).takeWhile (fun a => !enabled a) = [] :=
    List.takeWhile_cons_of_neg (by simp [hx])
  rw [next?, List.dropWhile_append_of_pos hnone, hdrop, List.takeWhile_append_of_pos hnone, htake,
    List.append_nil]

/-- A turn moves the first enabled entry behind the others. -/
theorem next?_filter {ring rest : List α} {x : α} (h : ring.filter enabled = x :: rest) :
    ∃ ring', next? enabled ring = some (x, ring') ∧ ring'.filter enabled = rest ++ [x] := by
  obtain ⟨before, after, rfl, hbefore, hx, hafter⟩ := List.filter_eq_cons_iff.mp h
  have hnone : ∀ a ∈ before, enabled a = false := fun a ha => Bool.eq_false_iff.mpr (hbefore a ha)
  refine ⟨after ++ before ++ [x], next?_append hnone hx, ?_⟩
  have hempty : before.filter enabled = [] := List.filter_eq_nil_iff.mpr hbefore
  rw [List.filter_append, List.filter_append, hempty, hafter, List.append_nil,
    List.filter_cons_of_pos hx, List.filter_nil]

theorem turns_eq_take {k : Nat} {ring : List α} (h : k ≤ (ring.filter enabled).length) :
    turns enabled k ring = (ring.filter enabled).take k := by
  induction k generalizing ring with
  | zero => rfl
  | succ k ih =>
      cases hfilter : ring.filter enabled with
      | nil =>
          rw [hfilter] at h
          exact absurd h (Nat.not_succ_le_zero k)
      | cons x rest =>
          obtain ⟨ring', hnext, hring'⟩ := next?_filter hfilter
          rw [hfilter, List.length_cons] at h
          have hk : k ≤ rest.length := Nat.le_of_succ_le_succ h
          have hlength : k ≤ (ring'.filter enabled).length := by
            rw [hring', List.length_append]
            exact Nat.le_add_right_of_le hk
          rw [turns, hnext, List.take_succ_cons]
          dsimp only
          rw [ih hlength, hring', List.take_append_of_le_length hk]

/-- In as many turns as there are enabled entries each has one. -/
theorem turns_round (ring : List α) :
    turns enabled (ring.filter enabled).length ring = ring.filter enabled := by
  rw [turns_eq_take le_rfl, List.take_length]

/-! ## A list with a cursor -/

/-- The distance from the cursor to the first enabled entry, around the list. -/
def scan? (enabled : α → Bool) (l : List α) (cursor : Nat) : Option Nat :=
  (List.range l.length).find? fun i => (l[(cursor + i) % l.length]?).any enabled

theorem getElem?_rotate_cursor {l : List α} {cursor i : Nat} (h : i < l.length) :
    (l.rotate cursor)[i]? = l[(cursor + i) % l.length]? := by
  rw [List.getElem?_rotate h, Nat.add_comm]

/-- What is found splits the ring. -/
theorem scan?_eq_some {l : List α} {cursor i : Nat} (h : scan? enabled l cursor = some i) :
    ∃ before x rest, l.rotate cursor = before ++ x :: rest ∧ before.length = i ∧
      (∀ a ∈ before, enabled a = false) ∧ enabled x = true := by
  obtain ⟨hfound, hmem, hearlier⟩ := List.find?_range_eq_some.mp h
  have hi : i < l.length := List.mem_range.mp hmem
  have hlength : i < (l.rotate cursor).length := by rwa [List.length_rotate]
  rw [← getElem?_rotate_cursor hi, List.getElem?_eq_getElem hlength] at hfound
  refine ⟨(l.rotate cursor).take i, (l.rotate cursor)[i], (l.rotate cursor).drop (i + 1), ?_, ?_,
    ?_, hfound⟩
  · rw [List.getElem_cons_drop, List.take_append_drop]
  · rw [List.length_take, Nat.min_eq_left (Nat.le_of_lt hlength)]
  · intro a ha
    obtain ⟨j, hj, rfl⟩ := List.mem_take_iff_getElem.mp ha
    have hji : j < i := by omega
    have hnot := hearlier j hji
    rw [← getElem?_rotate_cursor (by omega), List.getElem?_eq_getElem (by omega)] at hnot
    simpa using hnot

theorem scan?_eq_none {l : List α} {cursor : Nat} (h : scan? enabled l cursor = none) :
    ∀ a ∈ l, enabled a = false := by
  intro a ha
  obtain ⟨i, hi, rfl⟩ := List.mem_iff_getElem.mp (List.mem_rotate.mpr ha : a ∈ l.rotate cursor)
  have hlength : i < l.length := by rwa [List.length_rotate] at hi
  have hnot := List.find?_eq_none.mp h i (List.mem_range.mpr hlength)
  rw [← getElem?_rotate_cursor hlength, List.getElem?_eq_getElem hi] at hnot
  simpa using hnot

/-- The cursor behind the entry found. -/
theorem rotate_behind {l before rest : List α} {x : α} {cursor : Nat}
    (h : l.rotate cursor = before ++ x :: rest) :
    l.rotate ((cursor + before.length) % l.length + 1) = rest ++ before ++ [x] := by
  have hsplit : before ++ x :: rest = (before ++ [x]) ++ rest := by simp
  have hcount : (before ++ [x]).length = before.length + 1 := by simp
  rw [← List.rotate_rotate, List.rotate_mod, List.rotate_rotate, Nat.add_assoc,
    ← List.rotate_rotate, h, hsplit, ← hcount, List.rotate_append_length_eq, List.append_assoc]

/-- The entry found may be replaced on the way. -/
theorem rotate_set {l before rest : List α} {x y : α} {cursor : Nat}
    (h : l.rotate cursor = before ++ x :: rest) :
    (l.set ((cursor + before.length) % l.length) y).rotate cursor = before ++ y :: rest := by
  have hlength : (before ++ x :: rest).length = l.length := by rw [← h, List.length_rotate]
  have hbefore : before.length < l.length := by
    rw [← hlength]
    simp
  have hlt : 0 < l.length := by omega
  have hset : before ++ y :: rest = (l.rotate cursor).set before.length y := by
    rw [h, List.set_append_right _ _ le_rfl, Nat.sub_self, List.set_cons_zero]
  rw [hset]
  apply List.ext_getElem?
  intro i
  by_cases hi : i < l.length
  · rw [getElem?_rotate_cursor (by rwa [List.length_set]), List.length_set, List.getElem?_set,
      List.getElem?_set, getElem?_rotate_cursor hi, List.length_rotate]
    have hiff : (cursor + before.length) % l.length = (cursor + i) % l.length ↔
        before.length = i := by
      constructor
      · intro hmod
        have hcancel : Nat.ModEq l.length before.length i := Nat.ModEq.add_left_cancel' cursor hmod
        exact hcancel.eq_of_lt_of_lt hbefore hi
      · rintro rfl
        rfl
    simp only [hiff, Nat.mod_lt _ hlt, hbefore]
  · have hout : ∀ m : List α, m.length = l.length → m[i]? = none := fun m hm => by
      rw [List.getElem?_eq_none]
      omega
    rw [hout _ (by rw [List.length_rotate, List.length_set]),
      hout _ (by rw [List.length_set, List.length_rotate])]

end RoundRobin
