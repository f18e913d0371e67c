import OpcUaSuite.Js.Numeral
import OpcUaSuite.Lib.DepthFirst
import OpcUaSuite.Lib.Writer

/-!
# The recursive browse of the browser node

A walk over the address space with a set of visited nodes and a limit on the
depth. Nodes are known by the texts of their ids. A node counts as visited from
the moment a reference to it is followed, also when the limit stops it there.
-/

namespace OpcUaSuite.Nodes

open Js DepthFirst

/-- A reference as `manager.browse` returns it, with the name of its node class. -/
structure Reference (N : Type) where
  browseName : JsString
  nodeId : Option N
  nodeClass : JsString
  isForward : Bool
deriving DecidableEq

/-- An entry of the result, with the entries below it. -/
inductive BrowseItem (N : Type)
  | mk (browseName : JsString) (nodeId : Option N) (nodeClass : JsString) (depth : Nat)
      (children : List (BrowseItem N))

/-- The nodes visited, and the nodes that were browsed, in their order. -/
structure Walk (N : Type) where
  visited : List N := []
  browsed : List N := []
deriving DecidableEq

variable {N ε : Type} [DecidableEq N]

/-- Only objects and variables are browsed recursively, along forward references. -/
def followed? (ref : Reference N) : Option N :=
  if (ref.nodeClass = js "Object" ∨ ref.nodeClass = js "Variable") ∧ ref.isForward = true then
    ref.nodeId
  else none

/-- The loop over the references of a node. -/
def browseReferences (recurse : N → Walk N → List (BrowseItem N) × Walk N) (currentDepth : Nat) :
    List (Reference N) → Walk N → List (BrowseItem N) × Walk N
  | [], walk => ([], walk)
  | ref :: refs, walk =>
      let (children, walk₁) := match followed? ref with
        | some id =>
            if id ∈ walk.visited then ([], walk)
            else recurse id { walk with visited := walk.visited ++ [id] }
        | none => ([], walk)
      let (items, walk₂) := browseReferences recurse currentDepth refs walk₁
      (.mk ref.browseName ref.nodeId ref.nodeClass currentDepth children :: items, walk₂)

variable (browse : N → Except ε (List (Reference N)))

/-- `browseRecursive` with the levels left; an error leaves the entry without children. -/
def browseLevels : Nat → Nat → N → Walk N → List (BrowseItem N) × Walk N
  | 0, _, _, walk => ([], walk)
  | levels + 1, currentDepth, nodeId, walk =>
      let walk' := { walk with browsed := walk.browsed ++ [nodeId] }
      match browse nodeId with
      | .error _ => ([], walk')
      | .ok references =>
          browseReferences (browseLevels levels (currentDepth + 1)) currentDepth references walk'

/-- `browseRecursive` -/
def browseRecursive (maxDepth currentDepth : Nat) (nodeId : N) (walk : Walk N) :
    List (BrowseItem N) × Walk N :=
  browseLevels browse (maxDepth - currentDepth) currentDepth nodeId walk

/-- The recursion as the node states it. -/
theorem browseRecursive_eq (maxDepth currentDepth : Nat) (nodeId : N) (walk : Walk N) :
    browseRecursive browse maxDepth currentDepth nodeId walk =
      if currentDepth ≥ maxDepth then ([], walk)
      else
        let walk' := { walk with browsed := walk.browsed ++ [nodeId] }
        match browse nodeId with
        | .error _ => ([], walk')
        | .ok references =>
            browseReferences (browseRecursive browse maxDepth (currentDepth + 1)) currentDepth
              references walk' := by
  unfold browseRecursive
  split
  next hge => rw [Nat.sub_eq_zero_of_le hge, browseLevels]
  next hlt =>
    have hlevels : maxDepth - currentDepth = (maxDepth - (currentDepth + 1)) + 1 := by omega
    rw [hlevels, browseLevels]

/-! ## The address space -/

variable (graph : N → List (Reference N))

/-- The nodes that a walk follows the references of a node to, in their order. -/
def followedOf (u : N) : List N := (graph u).filterMap followed?

/-- A reference of the node leads to the other. -/
def RefersTo (u v : N) : Prop := ∃ ref ∈ graph u, ref.nodeId = some v

/-- A forward reference of the node leads to the other. -/
def RefersForward (u v : N) : Prop := ∃ ref ∈ graph u, ref.nodeId = some v ∧ ref.isForward = true

mutual

/-- The nodes an entry lists, its own first. -/
def BrowseItem.listed : BrowseItem N → List N
  | .mk _ nodeId _ _ children => nodeId.toList ++ listedAll children

def listedAll : List (BrowseItem N) → List N
  | [] => []
  | item :: items => item.listed ++ listedAll items

end

/-- The walk lists every node at the end of at most `maxDepth` forward references
that lead over objects and variables, and browses no node twice. -/
structure CompleteBrowse (start : N) (maxDepth : Nat) (result : List (BrowseItem N) × Walk N) :
    Prop where
  listed : ∀ k u v, Reaches (followedOf graph) start k u → k < maxDepth →
    RefersForward graph u v → v ∈ listedAll result.1
  once : result.2.browsed.Nodup

/-- A walk meets these nodes, each with the levels left below it. -/
def metBy (maxDepth : Nat) (start : N) : Met N := visit (followedOf graph) maxDepth start []

/-- The walk does not come back to its start before the limit. -/
def NoReturn (start : N) (maxDepth : Nat) : Prop := start ∉ searched (metBy graph maxDepth start)

/-- No node that the walk meets at the limit is nearer to the start on another path
and leads, within the limit, to a node to which no path leads that goes, up to its
last reference, over no node met at the limit. -/
def HidesNothing (start : N) (maxDepth : Nat) : Prop :=
  ∀ i v, (v, 0) ∈ metBy graph maxDepth start → Reaches (followedOf graph) start i v →
    ∀ j u w, Reaches (followedOf graph) v j u → i + j < maxDepth → RefersForward graph u w →
      ∃ x, Relation.ReflTransGen (StepsUncut (followedOf graph) (metBy graph maxDepth start))
        start x ∧ RefersTo graph x w

/-! ## The walk is a depth-first search -/

variable {browse} {graph}

omit [DecidableEq N] in
/-- The entries and the walk record the search so far. -/
structure Records (pre : List N) (met : Met N) (walk : Walk N) : Prop where
  visited : walk.visited = nodes met
  browsed : walk.browsed = pre ++ searched met

/-- Below a node that was met the walk goes on as the search does. -/
def Simulates (pre : List N) (levels : Nat) (search : N → Met N → Met N)
    (recurse : N → Walk N → List (BrowseItem N) × Walk N) : Prop :=
  ∀ w met walk, walk.visited = nodes met →
    walk.browsed ++ (if levels = 0 then [] else [w]) = pre ++ searched met →
      Records pre (search w met) (recurse w walk).2

theorem records_browseReferences {pre : List N} {levels : Nat} {search : N → Met N → Met N}
    {recurse : N → Walk N → List (BrowseItem N) × Walk N}
    (hrecurse : Simulates pre levels search recurse) (currentDepth : Nat)
    (refs : List (Reference N)) {met : Met N} {walk : Walk N} (h : Records pre met walk) :
    Records pre (visitAll search levels (refs.filterMap followed?) met)
      (browseReferences recurse currentDepth refs walk).2 := by
  induction refs generalizing met walk with
  | nil => exact h
  | cons ref refs ih =>
      rw [List.filterMap_cons, browseReferences]
      cases hfollowed : followed? ref with
      | none => exact ih h
      | some id =>
          dsimp only
          rw [visitAll, h.visited]
          by_cases hold : id ∈ nodes met
          · rw [if_pos hold, if_pos hold]
            exact ih h
          · rw [if_neg hold, if_neg hold]
            refine ih (hrecurse id _ _ ?_ ?_)
            · exact (nodes_concat met id levels).symm
            · change walk.browsed ++ _ = _
              rw [searched_concat, h.browsed, List.append_assoc]

theorem simulates_browseLevels (hbrowse : ∀ n, browse n = .ok (graph n)) (pre : List N)
    (levels currentDepth : Nat) :
    Simulates pre levels (visit (followedOf graph) levels)
      (browseLevels browse levels currentDepth) := by
  induction levels generalizing currentDepth with
  | zero =>
      intro w met walk hvisited hbrowsed
      rw [if_pos rfl, List.append_nil] at hbrowsed
      exact ⟨hvisited, hbrowsed⟩
  | succ levels ih =>
      intro w met walk hvisited hbrowsed
      rw [if_neg (Nat.succ_ne_zero levels)] at hbrowsed
      rw [browseLevels, hbrowse]
      exact records_browseReferences (ih (currentDepth + 1)) currentDepth (graph w)
        ⟨hvisited, hbrowsed⟩

/-! ## The entries -/

/-- The entries list what the nodes browsed on the way refer to, and besides them
the nodes of some references. -/
def Lists (graph : N → List (Reference N)) (refs : List (Reference N)) (walk : Walk N)
    (result : List (BrowseItem N) × Walk N) : Prop :=
  ∃ news, result.2.browsed = walk.browsed ++ news ∧ ∀ v, v ∈ listedAll result.1 ↔
    (∃ ref ∈ refs, ref.nodeId = some v) ∨ ∃ x ∈ news, RefersTo graph x v

theorem lists_browseReferences {recurse : N → Walk N → List (BrowseItem N) × Walk N}
    (hrecurse : ∀ w walk, Lists graph [] walk (recurse w walk)) (currentDepth : Nat)
    (refs : List (Reference N)) (walk : Walk N) :
    Lists graph refs walk (browseReferences recurse currentDepth refs walk) := by
  induction refs generalizing walk with
  | nil => exact ⟨[], (List.append_nil _).symm, fun v => by simp [browseReferences, listedAll]⟩
  | cons ref refs ih =>
      have hchildren : ∃ children walk₁, Lists graph [] walk (children, walk₁) ∧
          browseReferences recurse currentDepth (ref :: refs) walk =
            (.mk ref.browseName ref.nodeId ref.nodeClass currentDepth children ::
              (browseReferences recurse currentDepth refs walk₁).1,
              (browseReferences recurse currentDepth refs walk₁).2) := by
        have hnone : Lists graph [] walk ([], walk) :=
          ⟨[], (List.append_nil _).symm, fun v => by simp [listedAll]⟩
        rw [browseReferences]
        cases followed? ref with
        | none => exact ⟨[], walk, hnone, rfl⟩
        | some id =>
            dsimp only
            split
            · exact ⟨[], walk, hnone, rfl⟩
            · obtain ⟨news, hbrowsed, hlisted⟩ :=
                hrecurse id { walk with visited := walk.visited ++ [id] }
              exact ⟨_, _, ⟨news, hbrowsed, hlisted⟩, rfl⟩
      obtain ⟨children, walk₁, ⟨news, hbrowsed, hlisted⟩, hresult⟩ := hchildren
      obtain ⟨news', hbrowsed', hlisted'⟩ := ih walk₁
      rw [hresult]
      refine ⟨news ++ news', ?_, fun v => ?_⟩
      · rw [hbrowsed', hbrowsed, List.append_assoc]
      · have hnews : (∃ x ∈ news ++ news', RefersTo graph x v) ↔
            (∃ x ∈ news, RefersTo graph x v) ∨ ∃ x ∈ news', RefersTo graph x v := by
          simp only [List.mem_append, or_and_right, exists_or]
        have hchildren : v ∈ listedAll children ↔ ∃ x ∈ news, RefersTo graph x v := by
          simpa using hlisted v
        rw [listedAll, BrowseItem.listed, List.mem_append, List.mem_append, hlisted', hchildren,
          List.exists_mem_cons_iff, hnews, Option.mem_toList]
        exact or_or_or_comm

theorem lists_browseLevels (hbrowse : ∀ n, browse n = .ok (graph n)) (levels currentDepth : Nat)
    (w : N) (walk : Walk N) :
    Lists graph [] walk (browseLevels browse levels currentDepth w walk) := by
  induction levels generalizing currentDepth w walk with
  | zero => exact ⟨[], (List.append_nil _).symm, fun v => by simp [browseLevels, listedAll]⟩
  | succ levels ih =>
      rw [browseLevels, hbrowse]
      obtain ⟨news, hbrowsed, hlisted⟩ := lists_browseReferences
        (fun w walk => ih (currentDepth + 1) w walk) currentDepth (graph w)
        { walk with browsed := walk.browsed ++ [w] }
      refine ⟨w :: news, ?_, fun v => ?_⟩
      · rw [hbrowsed, List.append_assoc, List.singleton_append]
      · rw [hlisted, List.exists_mem_cons_iff]
        simp only [List.not_mem_nil, false_and, exists_false, false_or]
        rfl

/-! ## Completeness -/

/-- What a walk from the start browses and lists. -/
theorem browseRecursive_spec (hbrowse : ∀ n, browse n = .ok (graph n)) (levels : Nat) (start : N) :
    (browseRecursive browse (levels + 1) 0 start {}).2.browsed =
        start :: searched (metBy graph (levels + 1) start) ∧
      ∀ v, v ∈ listedAll (browseRecursive browse (levels + 1) 0 start {}).1 ↔
        ∃ x, Relation.ReflTransGen
          (StepsUncut (followedOf graph) (metBy graph (levels + 1) start)) start x ∧
            RefersTo graph x v := by
  obtain ⟨-, hbrowsed⟩ := simulates_browseLevels hbrowse [start] (levels + 1) 0 start [] {} rfl rfl
  obtain ⟨news, hnews, hlisted⟩ := lists_browseLevels hbrowse (levels + 1) 0 start {}
  have heq : news = start :: searched (metBy graph (levels + 1) start) :=
    (List.nil_append news).symm.trans (hnews.symm.trans hbrowsed)
  refine ⟨hbrowsed, fun v => (hlisted v).trans ?_⟩
  rw [heq]
  simp only [List.not_mem_nil, false_and, exists_false, false_or, List.mem_cons]
  exact exists_congr fun x => and_congr_left' searched_iff_uncut

/-- The recursive browse is complete, and browses no node twice, exactly when it
does not come back to its start before the limit and a node that it meets at the
limit hides nothing. -/
theorem completeBrowse_iff {N ε : Type} [DecidableEq N]
    {browse : N → Except ε (List (Reference N))} {graph : N → List (Reference N)}
    (hbrowse : ∀ n, browse n = .ok (graph n)) (start : N) (maxDepth : Nat) :
    CompleteBrowse graph start maxDepth (browseRecursive browse maxDepth 0 start {}) ↔
      NoReturn graph start maxDepth ∧ HidesNothing graph start maxDepth := by
  cases maxDepth with
  | zero =>
      refine iff_of_true ⟨fun _ _ _ _ hk => absurd hk (Nat.not_lt_zero _), List.nodup_nil⟩ ⟨?_, ?_⟩
      · exact List.not_mem_nil
      · intro i v hcut
        cases hcut
  | succ levels =>
      obtain ⟨hbrowsed, hlisted⟩ := browseRecursive_spec hbrowse levels start
      constructor
      · rintro ⟨hcomplete, honce⟩
        rw [hbrowsed] at honce
        refine ⟨(List.nodup_cons.mp honce).1, fun i v _ hi j u w hj hlt hw => ?_⟩
        exact (hlisted w).mp (hcomplete (i + j) u w (hi.trans hj) hlt hw)
      · rintro ⟨hreturn, hhides⟩
        refine ⟨fun k u w hk hlt hw => (hlisted w).mpr ?_, ?_⟩
        · rcases @searched_or_cut N _ _ levels start k u hk with
            hu | ⟨i, j, v, rfl, hi, hcut, hj⟩
          · obtain ⟨ref, href, hid, -⟩ := hw
            exact ⟨u, searched_iff_uncut.mp hu, ref, href, hid⟩
          · exact hhides i v hcut hi j u w hj hlt hw
        · rw [hbrowsed]
          exact List.nodup_cons.mpr ⟨hreturn, nodup_searched (nodup_visit _ _ List.nodup_nil)⟩

/-- An object that a reference leads to. -/
def objectRef (n : Nat) : Reference Nat where
  browseName := decimal n
  nodeId := some n
  nodeClass := js "Object"
  isForward := true

/-- A start with two objects, which share a child. -/
def sharedChild : Nat → List (Reference Nat)
  | 0 => [objectRef 1, objectRef 2]
  | 1 | 2 => [objectRef 3]
  | _ => []

/-- Two levels down the shared child is browsed once, and nothing is missed. -/
theorem sharedChild_complete : CompleteBrowse sharedChild 0 3
    (browseRecursive (fun n => (.ok (sharedChild n) : Except Unit _)) 3 0 0 {}) := by
  refine (completeBrowse_iff (fun _ => rfl) 0 3).mpr ⟨?_, fun i v hcut => ?_⟩
  · unfold NoReturn
    decide +kernel
  · have hnone : ∀ e ∈ metBy sharedChild 3 0, e.2 ≠ 0 := by decide +kernel
    exact absurd rfl (hnone (v, 0) hcut)

/-- The start leads to 2 at once, and before that over 1. -/
def shortCut : Nat → List (Reference Nat)
  | 0 => [objectRef 1, objectRef 2]
  | 1 => [objectRef 2]
  | 2 => [objectRef 3]
  | _ => []

/-- Node 2 is first met at the limit, so that the node below it, two references
from the start, is missed. -/
theorem shortCut_hides :
    ¬ ∀ (N ε : Type) [DecidableEq N] (browse : N → Except ε (List (Reference N)))
      (graph : N → List (Reference N)) (start : N) (maxDepth : Nat),
      (∀ n, browse n = .ok (graph n)) →
        CompleteBrowse graph start maxDepth (browseRecursive browse maxDepth 0 start {}) := by
  intro h
  have hcomplete := h Nat Unit (fun n => .ok (shortCut n)) shortCut 0 2 fun _ => rfl
  have hpath : Reaches (followedOf shortCut) 0 1 2 :=
    Reaches.start.step (by decide +kernel)
  have hforward : RefersForward shortCut 2 3 := ⟨objectRef 3, by decide, rfl, rfl⟩
  have hlisted := hcomplete.listed 1 2 3 hpath (by decide) hforward
  revert hlisted
  decide +kernel

end OpcUaSuite.Nodes
