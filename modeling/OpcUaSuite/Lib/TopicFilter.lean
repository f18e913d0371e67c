import Mathlib.Data.List.Basic

/-!
# Topics and filters

A topic is a text of levels between separators. A filter may have a wildcard for one
level in any place, and one for all further levels at its end; topics that start with
the reserved character are not met by a wildcard in the first place.
-/

namespace TopicFilter

structure Alphabet (α : Type*) where
  sep : α
  single : α
  multi : α
  reserved : α
  nodup : [sep, single, multi].Nodup

variable {α : Type*} [DecidableEq α] (A : Alphabet α)

/-- A level without a separator or a wildcard. -/
structure Alphabet.IsLevel (l : List α) : Prop where
  sep_free : A.sep ∉ l
  single_free : A.single ∉ l
  multi_free : A.multi ∉ l

def levels (t : List α) : List (List α) := t.splitOn A.sep

/-- Filter levels against topic levels; the wildcard for all further levels also meets none. -/
def meets : List (List α) → List (List α) → Bool
  | [], [] => true
  | f :: fs, ts =>
      if f = [A.multi] ∧ fs = [] then true
      else
        match ts with
        | t :: ts => (decide (f = [A.single]) || decide (f = t)) && meets fs ts
        | [] => false
  | [], _ :: _ => false

def reservedFor (f t : List α) : Bool :=
  decide (t.head? = some A.reserved) && (decide (f.head? = some A.single) || decide (f.head? = some A.multi))

/-- The topic belongs to a subscription with that filter. -/
def matchesTopic (filter topic : List α) : Bool :=
  !reservedFor A filter topic && meets A (levels A filter) (levels A topic)

variable {A}

theorem levels_intercalate {ls : List (List α)} (h : ∀ l ∈ ls, A.sep ∉ l) (hne : ls ≠ []) :
    levels A ([A.sep].intercalate ls) = ls :=
  List.splitOn_intercalate A.sep h hne

/-- A subtree filter under a plain level takes the topics whose first level it is. -/
theorem matchesTopic_subtree {l : List α} (hl : A.IsLevel l) {topic : List α} {first : List α}
    {rest : List (List α)} (htopic : levels A topic = first :: rest) (hne : l ≠ []) :
    matchesTopic A (l ++ [A.sep, A.multi]) topic = true ↔ l = first := by
  have hmulti : A.sep ∉ [A.multi] := by
    have hnodup := A.nodup
    simp only [List.nodup_cons, List.mem_cons, not_or, List.not_mem_nil] at hnodup ⊢
    exact ⟨hnodup.1.2.1, not_false⟩
  have hfilter : levels A (l ++ [A.sep, A.multi]) = [l, [A.multi]] := by
    change (l ++ A.sep :: [A.multi]).splitOn A.sep = _
    rw [List.splitOn_append_cons_self, List.splitOn_eq_singleton hl.sep_free,
      List.splitOn_eq_singleton hmulti]
    rfl
  obtain ⟨x, l', rfl⟩ := List.exists_cons_of_ne_nil hne
  have hplain : reservedFor A ((x :: l') ++ [A.sep, A.multi]) topic = false := by
    have hx : x ≠ A.single ∧ x ≠ A.multi :=
      ⟨fun h => hl.single_free (h ▸ List.mem_cons_self), fun h => hl.multi_free (h ▸ List.mem_cons_self)⟩
    simp [reservedFor, hx.1, hx.2]
  have hnotMulti : x :: l' ≠ [A.multi] := fun h => hl.multi_free (h ▸ List.mem_cons_self)
  have hnotSingle : x :: l' ≠ [A.single] := fun h => hl.single_free (h ▸ List.mem_cons_self)
  rw [matchesTopic, hplain, hfilter, htopic, meets, if_neg fun h => hnotMulti h.1]
  simp [hnotSingle, meets]

end TopicFilter
