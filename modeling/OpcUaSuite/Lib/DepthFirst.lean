import Mathlib.Data.List.Nodup
import Mathlib.Logic.Relation

/-!
# Depth-first search with a limit

The search lists the nodes it meets, each once, with the levels left below it.
A node met with no level left is cut off: it is not searched, nor is it when a
shorter path comes to it later.
-/

namespace DepthFirst

variable {N : Type*}

/-- The nodes met, oldest first, each with the levels left below it. -/
abbrev Met (N : Type*) := List (N × Nat)

def nodes (met : Met N) : List N := met.map Prod.fst

/-- The nodes met with a level left, in their order. -/
def searched (met : Met N) : List N :=
  met.filterMap fun e => if e.2 = 0 then none else some e.1

/-- A path of `k` steps. -/
inductive Reaches (adj : N → List N) (u : N) : Nat → N → Prop
  | start : Reaches adj u 0 u
  | step {k : Nat} {v w : N} : Reaches adj u k v → w ∈ adj v → Reaches adj u (k + 1) w

theorem Reaches.trans {adj : N → List N} {u v w : N} {i j : Nat} (h : Reaches adj u i v)
    (h' : Reaches adj v j w) : Reaches adj u (i + j) w := by
  induction h' with
  | start => exact h
  | step _ hw ih => exact ih.step hw

variable [DecidableEq N]

/-- The nodes of a list in turn; each that is new is met, and searched. -/
def visitAll (search : N → Met N → Met N) (levels : Nat) : List N → Met N → Met N
  | [], met => met
  | w :: ws, met =>
      visitAll search levels ws (if w ∈ nodes met then met else search w (met ++ [(w, levels)]))

/-- The search below a node, so many levels down. -/
def visit (adj : N → List N) : Nat → N → Met N → Met N
  | 0, _, met => met
  | levels + 1, u, met => visitAll (visit adj levels) levels (adj u) met

variable {adj : N → List N}

omit [DecidableEq N] in
theorem mem_searched {met : Met N} {u : N} :
    u ∈ searched met ↔ ∃ levels, (u, levels + 1) ∈ met := by
  rw [searched, List.mem_filterMap]
  constructor
  · rintro ⟨⟨v, levels⟩, hmem, hsome⟩
    cases levels with
    | zero => cases hsome
    | succ levels =>
        cases hsome
        exact ⟨levels, hmem⟩
  · rintro ⟨levels, hmem⟩
    exact ⟨_, hmem, if_neg (Nat.succ_ne_zero levels)⟩

omit [DecidableEq N] in
/-- A node is met with a level left, or cut off. -/
theorem mem_nodes {met : Met N} {u : N} :
    u ∈ nodes met ↔ u ∈ searched met ∨ (u, 0) ∈ met := by
  rw [mem_searched, nodes, List.mem_map]
  constructor
  · rintro ⟨⟨v, levels⟩, hmem, rfl⟩
    cases levels with
    | zero => exact Or.inr hmem
    | succ levels => exact Or.inl ⟨levels, hmem⟩
  · rintro (⟨levels, hmem⟩ | hmem)
    · exact ⟨_, hmem, rfl⟩
    · exact ⟨_, hmem, rfl⟩

omit [DecidableEq N] in
theorem nodes_concat (met : Met N) (u : N) (levels : Nat) :
    nodes (met ++ [(u, levels)]) = nodes met ++ [u] := by
  rw [nodes, List.map_append]
  rfl

omit [DecidableEq N] in
theorem searched_concat (met : Met N) (u : N) (levels : Nat) :
    searched (met ++ [(u, levels)]) = searched met ++ if levels = 0 then [] else [u] := by
  rw [searched, List.filterMap_append]
  cases levels <;> rfl

omit [DecidableEq N] in
theorem nodup_searched {met : Met N} (h : (nodes met).Nodup) : (searched met).Nodup := by
  refine h.sublist ?_
  induction met with
  | nil => exact List.Sublist.refl _
  | cons e met ih =>
      have hrest := ih (List.nodup_cons.mp h).2
      unfold searched at hrest ⊢
      rw [List.filterMap_cons]
      split
      next => exact hrest.cons e.1
      next v hv =>
        split at hv
        · cases hv
        · cases hv
          exact hrest.cons_cons e.1

omit [DecidableEq N] in
theorem nodes_mono {met met' : Met N} (h : met <+: met') {u : N} (hu : u ∈ nodes met) :
    u ∈ nodes met' :=
  List.map_subset Prod.fst h.subset hu

/-! ## What the search keeps -/

theorem nodup_visitAll {search : N → Met N → Met N}
    (hsearch : ∀ w met, (nodes met).Nodup → (nodes (search w met)).Nodup) (levels : Nat)
    (ws : List N) {met : Met N} (h : (nodes met).Nodup) :
    (nodes (visitAll search levels ws met)).Nodup := by
  induction ws generalizing met with
  | nil => exact h
  | cons w ws ih =>
      refine ih ?_
      split
      next => exact h
      next hnew =>
        refine hsearch w _ ?_
        rw [nodes_concat]
        exact h.append (List.nodup_singleton w) (by simpa using hnew)

/-- Every node is met once. -/
theorem nodup_visit (levels : Nat) (u : N) {met : Met N} (h : (nodes met).Nodup) :
    (nodes (visit adj levels u met)).Nodup := by
  induction levels generalizing u met with
  | zero => exact h
  | succ levels ih => exact nodup_visitAll (fun w _ h => ih w h) levels _ h

/-- What a search adds to the nodes met: it keeps them, and the successors of every
node that it meets with a level left, and of its own, are met in the end. -/
structure Closes (adj : N → List N) (levels : Nat) (u : N) (met met' : Met N) : Prop where
  kept : met <+: met'
  own : levels ≠ 0 → ∀ w ∈ adj u, w ∈ nodes met'
  added : ∀ x, x ∈ searched met' → x ∈ searched met ∨ ∀ w ∈ adj x, w ∈ nodes met'

theorem closes_visitAll {search : N → Met N → Met N} {levels : Nat}
    (hsearch : ∀ w met, Closes adj levels w met (search w met)) (ws : List N) (met : Met N) :
    met <+: visitAll search levels ws met ∧
      (∀ w ∈ ws, w ∈ nodes (visitAll search levels ws met)) ∧
      ∀ x, x ∈ searched (visitAll search levels ws met) →
        x ∈ searched met ∨ ∀ w ∈ adj x, w ∈ nodes (visitAll search levels ws met) := by
  induction ws generalizing met with
  | nil => exact ⟨List.prefix_refl _, List.forall_mem_nil _, fun _ h => Or.inl h⟩
  | cons w ws ih =>
      rw [visitAll]
      split
      next hold =>
        obtain ⟨hkept, hall, hadded⟩ := ih met
        exact ⟨hkept, List.forall_mem_cons.mpr ⟨nodes_mono hkept hold, hall⟩, hadded⟩
      next hnew =>
        obtain ⟨hkept, hown, hadded⟩ := hsearch w (met ++ [(w, levels)])
        obtain ⟨hkept', hall', hadded'⟩ := ih (search w (met ++ [(w, levels)]))
        have hw : w ∈ nodes (search w (met ++ [(w, levels)])) :=
          nodes_mono hkept (by simp [nodes])
        refine ⟨(List.prefix_append _ _).trans (hkept.trans hkept'),
          List.forall_mem_cons.mpr ⟨nodes_mono hkept' hw, hall'⟩, fun x hx => ?_⟩
        rcases hadded' x hx with hx | hx
        · rcases hadded x hx with hx | hx
          · rw [searched_concat] at hx
            rcases List.mem_append.mp hx with hx | hx
            · exact Or.inl hx
            · split at hx
              · cases hx
              next hlevels =>
                obtain rfl := List.mem_singleton.mp hx
                exact Or.inr fun v hv => nodes_mono hkept' (hown hlevels v hv)
          · exact Or.inr fun v hv => nodes_mono hkept' (hx v hv)
        · exact Or.inr hx

theorem closes_visit (levels : Nat) (u : N) (met : Met N) :
    Closes adj levels u met (visit adj levels u met) := by
  induction levels generalizing u met with
  | zero => exact ⟨List.prefix_refl _, fun h => absurd rfl h, fun _ h => Or.inl h⟩
  | succ levels ih =>
      obtain ⟨hkept, hall, hadded⟩ := closes_visitAll (fun w met => ih w met) (adj u) met
      exact ⟨hkept, fun _ => hall, hadded⟩

/-- The successors of the start and of every node searched are met. -/
theorem met_of_searched {levels : Nat} {start v w : N}
    (hv : v = start ∨ v ∈ searched (visit adj (levels + 1) start [])) (hw : w ∈ adj v) :
    w ∈ nodes (visit adj (levels + 1) start []) := by
  obtain ⟨-, hown, hadded⟩ := @closes_visit N _ adj (levels + 1) start []
  rcases hv with rfl | hv
  · exact hown (Nat.succ_ne_zero _) w hw
  · rcases hadded v hv with hnone | hall
    · cases hnone
    · exact hall w hw

/-! ## The nodes searched, by their paths -/

/-- A step that ends in a node that is searched. -/
def StepsOver (adj : N → List N) (met : Met N) (v w : N) : Prop := w ∈ adj v ∧ w ∈ searched met

/-- A step that does not end in a node that was cut off. -/
def StepsUncut (adj : N → List N) (met : Met N) (v w : N) : Prop := w ∈ adj v ∧ (w, 0) ∉ met

omit [DecidableEq N] in
theorem searched_mono {met met' : Met N} (h : met <+: met') {u : N} (hu : u ∈ searched met) :
    u ∈ searched met' := by
  obtain ⟨levels, hmem⟩ := mem_searched.mp hu
  exact mem_searched.mpr ⟨levels, h.subset hmem⟩

omit [DecidableEq N] in
theorem StepsOver.mono {met met' : Met N} (h : met <+: met') {v w : N}
    (hstep : StepsOver adj met v w) : StepsOver adj met' v w :=
  ⟨hstep.1, searched_mono h hstep.2⟩

omit [DecidableEq N] in
theorem StepsOver.uncut {met : Met N} (h : (nodes met).Nodup) {v w : N}
    (hstep : StepsOver adj met v w) : StepsUncut adj met v w := by
  refine ⟨hstep.1, fun hcut => ?_⟩
  obtain ⟨levels, hmem⟩ := mem_searched.mp hstep.2
  cases List.inj_on_of_nodup_map h hmem hcut rfl

/-- What a search adds to the nodes searched lies on paths from its node over such nodes. -/
def Extends (adj : N → List N) (levels : Nat) (u : N) (met met' : Met N) : Prop :=
  ∀ x ∈ searched met',
    x ∈ searched met ∨ levels ≠ 0 ∧ Relation.ReflTransGen (StepsOver adj met') u x

theorem extends_visitAll {search : N → Met N → Met N} {levels : Nat}
    (hcloses : ∀ w met, Closes adj levels w met (search w met))
    (hsearch : ∀ w met, Extends adj levels w met (search w met)) {u : N} (ws : List N)
    (hws : ∀ w ∈ ws, w ∈ adj u) (met : Met N) :
    ∀ x ∈ searched (visitAll search levels ws met), x ∈ searched met ∨
      Relation.ReflTransGen (StepsOver adj (visitAll search levels ws met)) u x := by
  induction ws generalizing met with
  | nil => exact fun x hx => Or.inl hx
  | cons w ws ih =>
      obtain ⟨hw, hws⟩ := List.forall_mem_cons.mp hws
      rw [visitAll]
      split
      next => exact ih hws met
      next =>
        intro x hx
        have hkept := (closes_visitAll hcloses ws (search w (met ++ [(w, levels)]))).1
        have hhead : levels ≠ 0 → StepsOver adj
            (visitAll search levels ws (search w (met ++ [(w, levels)]))) u w := by
          intro hlevels
          refine ⟨hw, searched_mono ((hcloses w _).kept.trans hkept) ?_⟩
          rw [searched_concat, if_neg hlevels]
          exact List.mem_append_right _ (List.mem_singleton_self w)
        rcases ih hws _ x hx with hx | hpath
        · rcases hsearch w _ x hx with hx | ⟨hlevels, hpath⟩
          · rw [searched_concat] at hx
            rcases List.mem_append.mp hx with hx | hx
            · exact Or.inl hx
            · split at hx
              next => cases hx
              next hlevels =>
                obtain rfl := List.mem_singleton.mp hx
                exact Or.inr (.single (hhead hlevels))
          · exact Or.inr (.head (hhead hlevels) (Relation.ReflTransGen.mono (fun _ _ h => h.mono hkept) _ _ hpath))
        · exact Or.inr hpath

theorem extends_visit (levels : Nat) (u : N) (met : Met N) :
    Extends adj levels u met (visit adj levels u met) := by
  induction levels generalizing u met with
  | zero => exact fun x hx => Or.inl hx
  | succ levels ih =>
      intro x hx
      have hall := extends_visitAll (closes_visit levels) ih (adj u) (fun w hw => hw) met x hx
      exact hall.imp_right fun hpath => ⟨Nat.succ_ne_zero levels, hpath⟩

/-- The nodes searched are those that a path leads to over no node that was cut off. -/
theorem searched_iff_uncut {levels : Nat} {start x : N} :
    (x = start ∨ x ∈ searched (visit adj (levels + 1) start [])) ↔
      Relation.ReflTransGen (StepsUncut adj (visit adj (levels + 1) start [])) start x := by
  constructor
  · rintro (rfl | hx)
    · exact .refl
    · have honce : (nodes (visit adj (levels + 1) start [])).Nodup :=
        nodup_visit _ _ List.nodup_nil
      rcases extends_visit (levels + 1) start [] x hx with hnone | ⟨-, hpath⟩
      · cases hnone
      · exact Relation.ReflTransGen.mono (fun _ _ h => h.uncut honce) _ _ hpath
  · intro hpath
    induction hpath with
    | refl => exact Or.inl rfl
    | @tail v w _ hstep ih =>
        have hmet := mem_nodes.mp (met_of_searched ih hstep.1)
        exact Or.inr (hmet.resolve_right hstep.2)

/-! ## What a search misses -/

/-- A path from the start ends in a node that is searched, or leads over a node
that was cut off. -/
theorem searched_or_cut {levels : Nat} {start : N} {k : Nat} {u : N}
    (h : Reaches adj start k u) :
    (u = start ∨ u ∈ searched (visit adj (levels + 1) start [])) ∨
      ∃ i j v, i + j = k ∧ Reaches adj start i v ∧ (v, 0) ∈ visit adj (levels + 1) start [] ∧
        Reaches adj v j u := by
  induction h with
  | start => exact Or.inl (Or.inl rfl)
  | @step k v w hpath hw ih =>
      rcases ih with hsearched | ⟨i, j, x, hk, hstart, hcut, hrest⟩
      · rcases mem_nodes.mp (met_of_searched hsearched hw) with hw' | hcut
        · exact Or.inl (Or.inr hw')
        · exact Or.inr ⟨k + 1, 0, w, rfl, hpath.step hw, hcut, Reaches.start⟩
      · exact Or.inr ⟨i, j + 1, x, by omega, hstart, hcut, hrest.step hw⟩

end DepthFirst
