import Mathlib.Data.List.Perm.Subperm

/-!
# Resources that suspended calls open

A call opens a resource, is suspended, and then records the resource in the one
place there is for it. Resources are numbered as they are opened, and a resource
may end at any time. At most one lives as long as a call opens one only while no
other is on its way, and records one only over one that has ended.
-/

/-- A resource that lives is the recorded one or the only one on its way. -/
structure OpenedOnce (recorded : Option Nat) (live created : List Nat) (next : Nat) : Prop where
  owned : ∀ x ∈ live, recorded = some x ∨ x ∈ created
  single : ∀ x ∈ created, ∀ y ∈ created, x ∈ live → y ∈ live → x = y
  unset : ∀ x ∈ created, x ∈ live → ∀ y, recorded = some y → y ∉ live
  nodup : created.Nodup
  distinct : live.Nodup
  numbers : ∀ x, x ∈ live ∨ x ∈ created ∨ recorded = some x → x < next

namespace OpenedOnce

/-- A list of one value at most. -/
theorem length_le_one_of_forall {α : Type*} {l : List α} {o : Option α} (hl : l.Nodup)
    (h : ∀ x ∈ l, o = some x) : l.length ≤ 1 := by
  have hsub : l ⊆ o.toList := fun x hx => by
    rw [h x hx]
    exact List.mem_cons_self
  exact Nat.le_trans (List.subperm_of_subset hl hsub).length_le o.length_toList_le

variable {recorded : Option Nat} {live live' created created' : List Nat} {next : Nat}

theorem initial (next : Nat) : OpenedOnce none [] [] next where
  owned _ h := by cases h
  single _ h := by cases h
  unset _ h := by cases h
  nodup := List.nodup_nil
  distinct := List.nodup_nil
  numbers _ h := by rcases h with h | h | h <;> cases h

theorem perm (h : OpenedOnce recorded live created next) (hperm : created.Perm created') :
    OpenedOnce recorded live created' next where
  owned x hx := (h.owned x hx).imp_right hperm.mem_iff.mp
  single x hx y hy := h.single x (hperm.mem_iff.mpr hx) y (hperm.mem_iff.mpr hy)
  unset x hx := h.unset x (hperm.mem_iff.mpr hx)
  nodup := hperm.nodup_iff.mp h.nodup
  distinct := h.distinct
  numbers x hx := h.numbers x (hx.imp_right (Or.imp_left hperm.mem_iff.mpr))

/-- A call opens the only resource. -/
theorem opening (h : OpenedOnce none live created next) (hnone : ∀ x ∈ created, x ∉ live) :
    OpenedOnce none (next :: live) (next :: created) (next + 1) where
  owned x hx := by
    rcases List.mem_cons.mp hx with rfl | hx
    · exact .inr List.mem_cons_self
    · exact (h.owned x hx).imp_right (List.mem_cons_of_mem _)
  single := by
    have hlast : ∀ x ∈ next :: created, x ∈ next :: live → x = next := by
      intro x hx hlive
      rcases List.mem_cons.mp hx with heq | hx
      · exact heq
      · rcases List.mem_cons.mp hlive with heq | hlive
        · exact heq
        · exact absurd hlive (hnone x hx)
    exact fun x hx y hy hlive hlive' => (hlast x hx hlive).trans (hlast y hy hlive').symm
  unset _ _ _ _ hy := by cases hy
  nodup := List.nodup_cons.mpr
    ⟨fun hmem => Nat.lt_irrefl _ (h.numbers _ (.inr (.inl hmem))), h.nodup⟩
  distinct := List.nodup_cons.mpr
    ⟨fun hmem => Nat.lt_irrefl _ (h.numbers _ (.inl hmem)), h.distinct⟩
  numbers := by
    rintro x (hx | hx | hx)
    · rcases List.mem_cons.mp hx with rfl | hx
      · exact Nat.lt_succ_self _
      · exact Nat.lt_succ_of_lt (h.numbers x (.inl hx))
    · rcases List.mem_cons.mp hx with rfl | hx
      · exact Nat.lt_succ_self _
      · exact Nat.lt_succ_of_lt (h.numbers x (.inr (.inl hx)))
    · cases hx

/-- What is recorded has ended if it makes way for a living resource, or had already. -/
theorem replaced {x : Nat} (h : OpenedOnce recorded live (x :: created) next)
    (hlost : x ∈ live ∨ ∀ y, recorded = some y → y ∉ live) :
    ∀ y, recorded = some y → y ∉ live := by
  rcases hlost with hlive | hlost
  · exact h.unset x List.mem_cons_self hlive
  · exact hlost

/-- The resource on its way is recorded, and no living one is lost. -/
theorem record {x : Nat} (h : OpenedOnce recorded live (x :: created) next)
    (hlost : x ∈ live ∨ ∀ y, recorded = some y → y ∉ live) :
    OpenedOnce (some x) live created next := by
  have hold := h.replaced hlost
  have hfree := (List.nodup_cons.mp h.nodup).1
  constructor
  case owned =>
    intro y hy
    rcases h.owned y hy with hcur | hmem
    · exact absurd hy (hold y hcur)
    · rcases List.mem_cons.mp hmem with rfl | hmem
      · exact .inl rfl
      · exact .inr hmem
  case single =>
    exact fun y hy z hz => h.single y (List.mem_cons_of_mem _ hy) z (List.mem_cons_of_mem _ hz)
  case unset =>
    intro y hy hlive z hz hlive'
    obtain rfl := Option.some.inj hz
    obtain rfl := h.single y (List.mem_cons_of_mem _ hy) x List.mem_cons_self hlive hlive'
    exact hfree hy
  case nodup => exact (List.nodup_cons.mp h.nodup).2
  case distinct => exact h.distinct
  case numbers =>
    rintro y (hy | hy | hy)
    · exact h.numbers y (.inl hy)
    · exact h.numbers y (.inr (.inl (List.mem_cons_of_mem _ hy)))
    · obtain rfl := Option.some.inj hy
      exact h.numbers x (.inr (.inl List.mem_cons_self))

/-- Resources have ended. -/
theorem fewer (h : OpenedOnce recorded live created next) (hsub : live'.Sublist live) :
    OpenedOnce recorded live' created next where
  owned x hx := h.owned x (hsub.subset hx)
  single x hx y hy hlive hlive' := h.single x hx y hy (hsub.subset hlive) (hsub.subset hlive')
  unset x hx hlive y hy hlive' := h.unset x hx (hsub.subset hlive) y hy (hsub.subset hlive')
  nodup := h.nodup
  distinct := h.distinct.sublist hsub
  numbers x hx := h.numbers x (hx.imp_left fun hx => hsub.subset hx)

/-- The place is cleared once what it recorded has ended. -/
theorem discarded (h : OpenedOnce recorded live created next)
    (hdead : ∀ x, recorded = some x → x ∉ live) : OpenedOnce none live created next where
  owned x hx := .inr ((h.owned x hx).resolve_left fun hcur => hdead x hcur hx)
  single := h.single
  unset _ _ _ _ hy := by cases hy
  nodup := h.nodup
  distinct := h.distinct
  numbers x hx := h.numbers x (hx.imp_right (Or.imp_right fun hx => by cases hx))

/-- Nothing lives where neither what is recorded nor what is on its way does. -/
theorem eq_nil (h : OpenedOnce recorded live created next)
    (hdead : ∀ x, recorded = some x → x ∉ live) (hnone : ∀ x ∈ created, x ∉ live) : live = [] := by
  refine List.eq_nil_iff_forall_not_mem.mpr fun x hx => ?_
  rcases h.owned x hx with hcur | hcreated
  · exact hdead x hcur hx
  · exact hnone x hcreated hx

/-- With nothing on its way at most one resource lives. -/
theorem length_le_one (h : OpenedOnce recorded live [] next) : live.length ≤ 1 :=
  length_le_one_of_forall h.distinct fun x hx => (h.owned x hx).resolve_right List.not_mem_nil

end OpenedOnce
