import Mathlib.Data.List.Nodup

/-!
# Traversals that mark what they have seen

A traversal of a graph with sharing carries the nodes it has met. Against it stands
the unfolding of the graph, with the nodes it visits, once for each way to them. The
two agree exactly when no node is visited twice.
-/

namespace Unfolding

variable {N A B C : Type*}

/-- A computation that carries the nodes seen. -/
abbrev Run (N B : Type*) := List N → B × List N

/-- What an unfolding results in, the nodes it visits, and whether what it results in
is also what a traversal of it can show. -/
structure Unfolded (N B : Type*) where
  result : B
  visits : List N
  shown : Bool

namespace Unfolded

/-- A result that visits nothing. -/
def leaf (b : B) : Unfolded N B := ⟨b, [], true⟩

def map (f : B → C) (u : Unfolded N B) : Unfolded N C := ⟨f u.result, u.visits, u.shown⟩

/-- The node is visited before what lies below it. -/
def enter (i : N) (u : Unfolded N B) : Unfolded N B := ⟨u.result, i :: u.visits, u.shown⟩

/-- Unfoldings side by side. -/
def all (us : List (Unfolded N B)) : Unfolded N (List B) :=
  ⟨us.map result, us.flatMap visits, us.all shown⟩

/-- Nothing is visited that was seen before, and nothing twice. -/
structure Fresh (u : Unfolded N B) (seen : List N) : Prop where
  shown : u.shown = true
  nodup : u.visits.Nodup
  unseen : ∀ i ∈ u.visits, i ∉ seen

theorem fresh_leaf (b : B) (seen : List N) : (leaf b : Unfolded N B).Fresh seen :=
  ⟨rfl, List.nodup_nil, nofun⟩

theorem fresh_enter_iff {u : Unfolded N B} {i : N} {seen : List N} (hi : i ∉ seen) :
    (u.enter i).Fresh seen ↔ u.Fresh (i :: seen) := by
  constructor
  · rintro ⟨hshown, hnodup, hunseen⟩
    obtain ⟨hnot, hnodup⟩ := List.nodup_cons.mp hnodup
    refine ⟨hshown, hnodup, fun j hj hmem => ?_⟩
    rcases List.mem_cons.mp hmem with rfl | hmem
    · exact hnot hj
    · exact hunseen j (List.mem_cons_of_mem _ hj) hmem
  · rintro ⟨hshown, hnodup, hunseen⟩
    refine ⟨hshown, List.nodup_cons.mpr ⟨?_, hnodup⟩, fun j hj => ?_⟩
    · exact fun hmem => hunseen i hmem List.mem_cons_self
    · rcases List.mem_cons.mp hj with rfl | hj
      · exact hi
      · exact fun hmem => hunseen j hj (List.mem_cons_of_mem _ hmem)

/-- What stands first is visited before the rest is. -/
theorem fresh_all_cons_iff {u : Unfolded N B} {us : List (Unfolded N B)} {seen : List N} :
    (all (u :: us)).Fresh seen ↔
      u.Fresh seen ∧ (all us).Fresh (u.visits.reverse ++ seen) := by
  constructor
  · rintro ⟨hshown, hnodup, hunseen⟩
    obtain ⟨hfirst, hrest⟩ := Bool.and_eq_true_iff.mp hshown
    obtain ⟨hnodupFirst, hnodupRest, hdisjoint⟩ := List.nodup_append.mp hnodup
    refine ⟨⟨hfirst, hnodupFirst, fun i hi => hunseen i (List.mem_append_left _ hi)⟩,
      ⟨hrest, hnodupRest, fun i hi hmem => ?_⟩⟩
    rcases List.mem_append.mp hmem with hmem | hmem
    · exact hdisjoint i (List.mem_reverse.mp hmem) i hi rfl
    · exact hunseen i (List.mem_append_right _ hi) hmem
  · rintro ⟨⟨hfirst, hnodupFirst, hunseenFirst⟩, ⟨hrest, hnodupRest, hunseenRest⟩⟩
    have hdisjoint : ∀ i ∈ u.visits, ∀ j ∈ (all us).visits, i ≠ j := by
      rintro i hi j hj rfl
      exact hunseenRest i hj (List.mem_append_left _ (List.mem_reverse.mpr hi))
    refine ⟨Bool.and_eq_true_iff.mpr ⟨hfirst, hrest⟩,
      List.nodup_append.mpr ⟨hnodupFirst, hnodupRest, hdisjoint⟩, fun i hi => ?_⟩
    rcases List.mem_append.mp hi with hi | hi
    · exact hunseenFirst i hi
    · exact fun hmem => hunseenRest i hi (List.mem_append_right _ hmem)

end Unfolded

/-- The items in turn, each with what the ones before it have seen. -/
def thread (run : A → Run N B) : List A → Run N (List B)
  | [], seen => ([], seen)
  | a :: items, seen =>
      let first := run a seen
      let rest := thread run items first.2
      (first.1 :: rest.1, rest.2)

/-- Once the nodes on the path are seen, the computation has the result of the
unfolding exactly when nothing is visited twice, and then it has seen the visits. -/
def Marks (path : List N) (run : Run N B) (u : Unfolded N B) : Prop :=
  ∀ seen, (∀ i ∈ path, i ∈ seen) →
    ((run seen).1 = u.result ↔ u.Fresh seen) ∧
      (u.Fresh seen → (run seen).2 = u.visits.reverse ++ seen)

namespace Marks

variable {path : List N} {run : Run N B} {u : Unfolded N B}

theorem leaf (path : List N) (b : B) :
    Marks path (fun seen => (b, seen)) (Unfolded.leaf b : Unfolded N B) := by
  intro seen _
  exact ⟨iff_of_true rfl (Unfolded.fresh_leaf b seen), fun _ => rfl⟩

/-- A longer path only asks for more to have been seen. -/
theorem mono {path' : List N} (h : Marks path run u) (hpath : ∀ i ∈ path, i ∈ path') :
    Marks path' run u :=
  fun seen hseen => h seen fun i hi => hseen i (hpath i hi)

/-- A result no traversal shows. -/
theorem of_ne (path : List N) (hshown : u.shown = false) (h : ∀ seen, (run seen).1 ≠ u.result) :
    Marks path run u := by
  have hnot : ∀ seen, ¬ u.Fresh seen := fun seen hfresh => by
    rw [hfresh.shown] at hshown
    cases hshown
  exact fun seen _ => ⟨iff_of_false (h seen) (hnot seen), fun hfresh => absurd hfresh (hnot seen)⟩

theorem map {f : B → C} (hf : Function.Injective f) (h : Marks path run u) :
    Marks path (fun seen => (f (run seen).1, (run seen).2)) (u.map f) := by
  intro seen hpath
  obtain ⟨hresult, hseen⟩ := h seen hpath
  have hfresh : (u.map f).Fresh seen ↔ u.Fresh seen :=
    ⟨fun ⟨hs, hn, hu⟩ => ⟨hs, hn, hu⟩, fun ⟨hs, hn, hu⟩ => ⟨hs, hn, hu⟩⟩
  rw [hfresh, ← hresult]
  exact ⟨hf.eq_iff, fun heq => hseen (hresult.mp heq)⟩

/-- A node that is not on the path is entered unless it was seen. -/
theorem enter [DecidableEq N] {i : N} {again : B} (hne : again ≠ u.result)
    (hi : i ∉ path) (h : Marks (i :: path) run u) :
    Marks path (fun seen => if i ∈ seen then (again, seen) else run (i :: seen)) (u.enter i) := by
  intro seen hpath
  dsimp only
  by_cases hseen : i ∈ seen
  · have hnot : ¬ (u.enter i).Fresh seen := fun hfresh =>
      hfresh.unseen i List.mem_cons_self hseen
    rw [if_pos hseen]
    exact ⟨iff_of_false hne hnot, fun hfresh => absurd hfresh hnot⟩
  · have hpath' : ∀ j ∈ i :: path, j ∈ i :: seen := by
      intro j hj
      rcases List.mem_cons.mp hj with rfl | hj
      · exact List.mem_cons_self
      · exact List.mem_cons_of_mem _ (hpath j hj)
    obtain ⟨hresult, hrun⟩ := h (i :: seen) hpath'
    rw [if_neg hseen, Unfolded.fresh_enter_iff hseen]
    refine ⟨hresult, fun hfresh => ?_⟩
    rw [hrun hfresh, Unfolded.enter, List.reverse_cons, List.append_assoc]
    rfl

/-- Items in turn agree with their unfoldings side by side. -/
theorem thread {run : A → Run N B} {items : List A} {us : List (Unfolded N B)}
    (h : List.Forall₂ (fun a u => Marks path (run a) u) items us) :
    Marks path (Unfolding.thread run items) (Unfolded.all us) := by
  induction h with
  | nil => exact leaf path []
  | @cons a u items us hfirst _ ih =>
      intro seen hpath
      obtain ⟨hresult, hseen⟩ := hfirst seen hpath
      rw [Unfolded.fresh_all_cons_iff]
      have hpath' : ∀ i ∈ path, i ∈ u.visits.reverse ++ seen := fun i hi =>
        List.mem_append_right _ (hpath i hi)
      obtain ⟨hresultRest, hseenRest⟩ := ih (u.visits.reverse ++ seen) hpath'
      constructor
      · constructor
        · intro heq
          obtain ⟨heqFirst, heqRest⟩ := List.cons.inj heq
          have hfresh := hresult.mp heqFirst
          rw [hseen hfresh] at heqRest
          exact ⟨hfresh, hresultRest.mp heqRest⟩
        · rintro ⟨hfresh, hfreshRest⟩
          refine List.cons_eq_cons.mpr ⟨hresult.mpr hfresh, ?_⟩
          rw [hseen hfresh]
          exact hresultRest.mpr hfreshRest
      · rintro ⟨hfresh, hfreshRest⟩
        have hrest := hseenRest hfreshRest
        rw [← hseen hfresh] at hrest
        have hvisits : (Unfolded.all (u :: us)).visits = u.visits ++ (Unfolded.all us).visits := rfl
        refine hrest.trans ?_
        rw [hseen hfresh, hvisits, List.reverse_append, List.append_assoc]

/-- From nothing seen, the result is that of the unfolding exactly when each node is
visited once. -/
theorem result_iff (h : Marks [] run u) :
    (run []).1 = u.result ↔ u.shown = true ∧ u.visits.Nodup := by
  rw [(h [] nofun).1]
  exact ⟨fun hfresh => ⟨hfresh.shown, hfresh.nodup⟩,
    fun ⟨hshown, hnodup⟩ => ⟨hshown, hnodup, fun _ _ => List.not_mem_nil⟩⟩

end Marks

end Unfolding
