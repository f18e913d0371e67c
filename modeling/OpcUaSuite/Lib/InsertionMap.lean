import Mathlib.Data.List.Perm.Basic
import Mathlib.Data.List.Basic
import Mathlib.Data.List.Forall2

/-!
# Maps that remember the order of insertion

A map is the list of its entries, oldest first. Setting a key that is present
replaces its value in place; a new key goes to the end.
-/

abbrev InsertionMap (κ α : Type) := List (κ × α)

namespace InsertionMap

variable {κ α : Type} [DecidableEq κ]

def keys (m : InsertionMap κ α) : List κ := m.map Prod.fst

def get? (k : κ) : InsertionMap κ α → Option α
  | [] => none
  | (l, v) :: m => if l = k then some v else get? k m

def set (k : κ) (v : α) : InsertionMap κ α → InsertionMap κ α
  | [] => [(k, v)]
  | (l, w) :: m => if l = k then (l, v) :: m else (l, w) :: set k v m

def erase (k : κ) (m : InsertionMap κ α) : InsertionMap κ α := m.filter fun e => e.1 ≠ k

theorem get?_set_self (k : κ) (v : α) (m : InsertionMap κ α) : get? k (set k v m) = some v := by
  induction m with
  | nil => simp [set, get?]
  | cons e m ih =>
      obtain ⟨l, w⟩ := e
      by_cases h : l = k
      · simp [set, get?, h]
      · simp only [set, if_neg h, get?, ih]

theorem get?_set_of_ne {k l : κ} (h : l ≠ k) (v : α) (m : InsertionMap κ α) :
    get? l (set k v m) = get? l m := by
  induction m with
  | nil => simp [set, get?, Ne.symm h]
  | cons e m ih =>
      obtain ⟨j, w⟩ := e
      by_cases hj : j = k
      · have hjl : j ≠ l := fun heq => h (heq.symm.trans hj)
        simp only [set, if_pos hj, get?, if_neg hjl]
      · simp only [set, if_neg hj, get?, ih]

theorem get?_filter_of_keep {p : κ × α → Bool} {k : κ} {v : α} {m : InsertionMap κ α}
    (h : get? k m = some v) (hp : p (k, v) = true) : get? k (m.filter p) = some v := by
  induction m with
  | nil => cases h
  | cons e m ih =>
      obtain ⟨l, w⟩ := e
      by_cases hl : l = k
      · subst hl
        simp only [get?, if_true, Option.some.injEq] at h
        subst h
        simp [hp, get?]
      · simp only [get?, if_neg hl] at h
        cases hpe : p (l, w) with
        | false => simpa [hpe] using ih h
        | true => simpa [hpe, get?, hl] using ih h

theorem get?_filter_of_none {p : κ × α → Bool} {k : κ} {m : InsertionMap κ α}
    (h : get? k m = none) : get? k (m.filter p) = none := by
  induction m with
  | nil => rfl
  | cons e m ih =>
      obtain ⟨l, w⟩ := e
      by_cases hl : l = k
      · simp [get?, hl] at h
      · simp only [get?, if_neg hl] at h
        cases hpe : p (l, w) with
        | false => simpa [hpe] using ih h
        | true => simpa [hpe, get?, hl] using ih h

theorem get?_erase_of_ne {k l : κ} (h : l ≠ k) (m : InsertionMap κ α) :
    get? l (erase k m) = get? l m := by
  cases hm : get? l m with
  | none => exact get?_filter_of_none hm
  | some v => exact get?_filter_of_keep hm (by simpa using h)

theorem get?_erase_self (k : κ) (m : InsertionMap κ α) : get? k (erase k m) = none := by
  induction m with
  | nil => rfl
  | cons e m ih =>
      obtain ⟨l, w⟩ := e
      by_cases hl : l = k
      · simpa [erase, hl] using ih
      · simpa [erase, hl, get?] using ih

theorem get?_erase_eq_some {k l : κ} {v : α} {m : InsertionMap κ α} :
    get? l (erase k m) = some v ↔ l ≠ k ∧ get? l m = some v := by
  by_cases h : l = k
  · subst h
    rw [get?_erase_self]
    exact iff_of_false nofun fun h => h.1 rfl
  · rw [get?_erase_of_ne h]
    exact (and_iff_right h).symm

theorem get?_set_eq_some {k l : κ} {v w : α} {m : InsertionMap κ α} :
    get? l (set k v m) = some w ↔ (l = k ∧ v = w) ∨ (l ≠ k ∧ get? l m = some w) := by
  by_cases h : l = k
  · subst h
    rw [get?_set_self, Option.some.injEq]
    simp
  · rw [get?_set_of_ne h]
    simp [h]

/-- Setting a key to the value it has changes nothing. -/
theorem set_of_get? {k : κ} {v : α} {m : InsertionMap κ α} (h : get? k m = some v) :
    set k v m = m := by
  induction m with
  | nil => cases h
  | cons e m ih =>
      obtain ⟨l, w⟩ := e
      by_cases hl : l = k
      · simp only [get?, if_pos hl, Option.some.injEq] at h
        simp only [set, if_pos hl, h]
      · simp only [get?, if_neg hl] at h
        simp only [set, if_neg hl, ih h]

theorem mem_of_get? {k : κ} {v : α} {m : InsertionMap κ α} (h : get? k m = some v) :
    (k, v) ∈ m := by
  induction m with
  | nil => cases h
  | cons e m ih =>
      obtain ⟨l, w⟩ := e
      by_cases hl : l = k
      · simp only [get?, if_pos hl, Option.some.injEq] at h
        subst hl h
        exact List.mem_cons_self
      · simp only [get?, if_neg hl] at h
        exact List.mem_cons_of_mem _ (ih h)

theorem get?_isSome_iff {k : κ} {m : InsertionMap κ α} :
    (get? k m).isSome ↔ k ∈ keys m := by
  induction m with
  | nil => simp [get?, keys]
  | cons e m ih =>
      obtain ⟨l, w⟩ := e
      by_cases hl : l = k
      · simp [get?, keys, hl]
      · have hne : ¬ k = l := Ne.symm hl
        simpa [get?, keys, hl, hne] using ih

theorem get?_eq_none_iff {k : κ} {m : InsertionMap κ α} : get? k m = none ↔ k ∉ keys m := by
  rw [← get?_isSome_iff, Option.isSome_iff_ne_none, not_not]

theorem get?_append_of_not_mem {k : κ} {m : InsertionMap κ α} (h : k ∉ keys m)
    (m' : InsertionMap κ α) : get? k (m ++ m') = get? k m' := by
  induction m with
  | nil => rfl
  | cons e m ih =>
      obtain ⟨hne, hm⟩ := not_or.mp (List.mem_cons.not.mp h)
      rw [List.cons_append, get?, if_neg (Ne.symm hne), ih hm]

/-- With distinct keys every entry is found under its key. -/
theorem get?_of_mem {k : κ} {v : α} {m : InsertionMap κ α} (hm : (keys m).Nodup)
    (h : (k, v) ∈ m) : get? k m = some v := by
  induction m with
  | nil => cases h
  | cons e m ih =>
      obtain ⟨l, w⟩ := e
      simp only [keys, List.map_cons, List.nodup_cons] at hm
      rcases List.mem_cons.mp h with heq | hmem
      · cases heq
        simp [get?]
      · have hl : l ≠ k := by
          rintro rfl
          exact hm.1 (List.mem_map_of_mem (f := Prod.fst) hmem)
        simpa only [get?, if_neg hl] using ih hm.2 hmem

theorem set_of_not_mem {k : κ} {v : α} {m : InsertionMap κ α} (h : k ∉ keys m) :
    set k v m = m ++ [(k, v)] := by
  induction m with
  | nil => rfl
  | cons e m ih =>
      obtain ⟨l, w⟩ := e
      simp only [keys, List.map_cons, List.mem_cons, not_or] at h
      simp only [set, if_neg (Ne.symm h.1), ih h.2, List.cons_append]

theorem mem_of_mem_set {k : κ} {v : α} {e : κ × α} {m : InsertionMap κ α} (h : e ∈ set k v m) :
    e ∈ m ∨ e = (k, v) := by
  induction m with
  | nil => exact Or.inr (List.mem_singleton.mp h)
  | cons f m ih =>
      obtain ⟨l, w⟩ := f
      by_cases hl : l = k
      · subst hl
        simp only [set, if_pos] at h
        rcases List.mem_cons.mp h with rfl | h
        · exact Or.inr rfl
        · exact Or.inl (List.mem_cons_of_mem _ h)
      · simp only [set, if_neg hl] at h
        rcases List.mem_cons.mp h with rfl | h
        · exact Or.inl List.mem_cons_self
        · exact (ih h).imp_left (List.mem_cons_of_mem _)

theorem keys_set_of_mem {k : κ} {v : α} {m : InsertionMap κ α} (h : k ∈ keys m) :
    keys (set k v m) = keys m := by
  induction m with
  | nil => cases h
  | cons e m ih =>
      obtain ⟨l, w⟩ := e
      by_cases hl : l = k
      · simp [set, keys, hl]
      · have hmem : k ∈ keys m := by
          rcases List.mem_cons.mp h with heq | hmem
          · exact absurd heq.symm hl
          · exact hmem
        have htail := ih hmem
        simp only [keys] at htail
        simp only [set, if_neg hl, keys, List.map_cons, htail]

theorem mem_keys_set {k l : κ} {v : α} {m : InsertionMap κ α} :
    l ∈ keys (set k v m) ↔ l ∈ keys m ∨ l = k := by
  by_cases hk : k ∈ keys m
  · rw [keys_set_of_mem hk]
    exact ⟨Or.inl, fun h => h.elim id fun heq => heq ▸ hk⟩
  · simp [set_of_not_mem hk, keys]

theorem mem_keys_erase {k l : κ} {m : InsertionMap κ α} :
    l ∈ keys (erase k m) ↔ l ∈ keys m ∧ l ≠ k := by
  simp [keys, erase]

theorem erase_set (k : κ) (v : α) (m : InsertionMap κ α) : erase k (set k v m) = erase k m := by
  induction m with
  | nil => simp [set, erase]
  | cons e m ih =>
      obtain ⟨l, w⟩ := e
      by_cases hl : l = k
      · simp [set, erase, hl]
      · simp only [erase] at ih
        simp only [set, if_neg hl, erase, List.filter_cons, ih]

/-- A value that agrees with the old one in some respect keeps the list of all values in it. -/
theorem map_set_of_get? {β : Type} {f : α → β} {k : κ} {v w : α} {m : InsertionMap κ α}
    (h : get? k m = some w) (hf : f v = f w) :
    (set k v m).map (fun e => f e.2) = m.map fun e => f e.2 := by
  induction m with
  | nil => cases h
  | cons e m ih =>
      obtain ⟨l, u⟩ := e
      by_cases hl : l = k
      · simp only [get?, if_pos hl, Option.some.injEq] at h
        simp only [set, if_pos hl, List.map_cons, hf, h]
      · simp only [get?, if_neg hl] at h
        simp only [set, if_neg hl, List.map_cons, ih h]

theorem nodup_set {k : κ} {v : α} {m : InsertionMap κ α} (h : (keys m).Nodup) :
    (keys (set k v m)).Nodup := by
  by_cases hk : k ∈ keys m
  · rwa [keys_set_of_mem hk]
  · rw [set_of_not_mem hk, keys, List.map_append, List.nodup_append]
    refine ⟨h, List.pairwise_singleton _ _, ?_⟩
    rintro a ha b hb rfl
    obtain rfl := List.mem_singleton.mp hb
    exact hk ha

/-- With each key once, the entries of other keys are kept, and one is new. -/
theorem mem_set_cases {k : κ} {v : α} {e : κ × α} {m : InsertionMap κ α} (hm : (keys m).Nodup)
    (h : e ∈ set k v m) : (e ∈ m ∧ e.1 ≠ k) ∨ e = (k, v) := by
  by_cases hkey : e.1 = k
  · right
    have hget := get?_of_mem (nodup_set hm) (v := e.2) h
    rw [hkey, get?_set_self] at hget
    exact Prod.ext hkey (Option.some.inj hget).symm
  · exact Or.inl ⟨(mem_of_mem_set h).resolve_right fun heq => hkey (congrArg Prod.fst heq), hkey⟩

omit [DecidableEq κ] in
theorem nodup_filter {p : κ × α → Bool} {m : InsertionMap κ α} (h : (keys m).Nodup) :
    (keys (m.filter p)).Nodup :=
  h.sublist (List.filter_sublist.map Prod.fst)

theorem get?_of_get?_filter {p : κ × α → Bool} {k : κ} {v : α} {m : InsertionMap κ α}
    (hm : (keys m).Nodup) (h : get? k (m.filter p) = some v) : get? k m = some v :=
  get?_of_mem hm (List.mem_filter.mp (mem_of_get? h)).1

omit [DecidableEq κ] in
theorem keys_of_forall₂ {β : Type} {R : κ × α → κ × β → Prop} {m : InsertionMap κ α}
    {m' : InsertionMap κ β} (h : List.Forall₂ (fun e d => d.1 = e.1 ∧ R e d) m m') :
    keys m' = keys m := by
  induction h with
  | nil => rfl
  | cons he _ ih => exact congrArg₂ List.cons he.1 ih

/-- Maps whose entries pair up key by key hold related values. -/
theorem get?_of_forall₂ {β : Type} {R : κ × α → κ × β → Prop} {m : InsertionMap κ α}
    {m' : InsertionMap κ β} (h : List.Forall₂ (fun e d => d.1 = e.1 ∧ R e d) m m') {k : κ} {v : α}
    (hget : get? k m = some v) : ∃ w, R (k, v) (k, w) ∧ get? k m' = some w := by
  induction h with
  | nil => cases hget
  | @cons e d m m' he _ ih =>
      obtain ⟨l, u⟩ := e
      obtain ⟨l', w⟩ := d
      obtain ⟨rfl, hR⟩ := he
      by_cases hl : l' = k
      · subst hl
        simp only [get?, if_true, Option.some.injEq] at hget
        subst hget
        exact ⟨w, hR, if_pos rfl⟩
      · simp only [get?, if_neg hl] at hget ⊢
        exact ih hget

theorem ext_of_keys {m m' : InsertionMap κ α} (hm : (keys m).Nodup) (hkeys : keys m = keys m')
    (hget : ∀ k, get? k m = get? k m') : m = m' := by
  induction m generalizing m' with
  | nil => exact (List.map_eq_nil_iff.mp hkeys.symm).symm
  | cons e m ih =>
      cases m' with
      | nil => cases hkeys
      | cons e' m' =>
          obtain ⟨hhead, htail⟩ := List.cons.inj hkeys
          obtain ⟨hnot, hnodup⟩ := List.nodup_cons.mp hm
          have hnot' : e.1 ∉ keys m' := fun hmem => hnot ((congrArg (e.1 ∈ ·) htail).mpr hmem)
          have hvalue := hget e.1
          rw [get?, get?, if_pos rfl, if_pos hhead.symm] at hvalue
          obtain rfl : e = e' := Prod.ext hhead (Option.some.inj hvalue)
          refine congrArg (List.cons e) (ih hnodup htail fun k => ?_)
          by_cases hk : e.1 = k
          · subst hk
            rw [get?_eq_none_iff.mpr hnot, get?_eq_none_iff.mpr hnot']
          · have hrest := hget k
            rwa [get?, get?, if_neg hk, if_neg hk] at hrest

/-- Maps that hold some of the keys of one list, in its order, are equal when
every key reads the same in both. -/
theorem ext_of_sublist {ks : List κ} (hks : ks.Nodup) {m m' : InsertionMap κ α}
    (hm : (keys m).Sublist ks) (hm' : (keys m').Sublist ks) (hget : ∀ k, get? k m = get? k m') :
    m = m' := by
  refine ext_of_keys (hks.sublist hm) ?_ hget
  have hmem : ∀ k, k ∈ keys m ↔ k ∈ keys m' := by
    intro k
    rw [← get?_isSome_iff, ← get?_isSome_iff, hget k]
  exact (hks.perm_iff_eq_of_sublist hm hm').mp
    ((List.perm_ext_iff_of_nodup (hks.sublist hm) (hks.sublist hm')).mpr hmem)

end InsertionMap
