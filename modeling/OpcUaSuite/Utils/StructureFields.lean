import OpcUaSuite.Utils.Serialize

/-!
# The fields of a serialised structure

A typed structure is written back from what it was serialised to, so each level must
have an entry for each of its schema fields. Names that the serialiser takes for
internal ones are passed over, and a member named `constructor` can pass the
structure off as an opaque one.
-/

namespace OpcUaSuite.Serialize

open Js Unfolding

variable {N : Type}

namespace Instance

/-- A typed structure: its own members are the fields of its schema, whatever their
names, and hold data. -/
def isStructure (o : Instance N) (s : Schema) : Bool :=
  decide (s.name ≠ [] ∧ s.fields.Nodup ∧ (o.props.map Prod.fst).Perm s.fields) &&
    o.props.all fun p => !p.2.isFunction

/-- No field has an internal name, and the structure does not look opaque. -/
def keepsFields (heap : Heap N) (o : Instance N) : Bool :=
  !o.isOpaque heap && (o.props.map Prod.fst).all fun key => !isInternal key

end Instance

def Node.keepsFields (heap : Heap N) : Node N → Bool
  | .object o => o.schema.isNone || o.keepsFields heap
  | .date _ | .buffer _ | .array _ => true

/-! ## Every field -/

/-- Each level of a structure with its type name and one entry for each field. -/
def fullNode (rt : Printing N) (heap : Heap N) (full : Member N → Option (Unfolded N Out)) :
    Node N → Option (Unfolded N Out)
  | .object o =>
      match o.schema with
      | some s =>
          if o.isStructure s then
            (o.props.mapM (unfoldEntry full)).map fun us =>
              ⟨.object ((js "_typeName", .text s.name) :: us.map Unfolded.result),
                us.flatMap Unfolded.visits, o.keepsFields heap && us.all Unfolded.shown⟩
          else none
      | none => unfoldNode rt heap full (.object o)
  | node => unfoldNode rt heap full node

/-- A tree of structures so many levels deep with all its fields, `none` for anything
that is no such tree. -/
def full (rt : Printing N) (heap : Heap N) : Nat → Member N → Option (Unfolded N Out)
  | _, .undefined | _, .null => some (.leaf .null)
  | 0, .primitive _ | 0, .function _ | 0, .object _ => none
  | _ + 1, .primitive v => some (.leaf (.primitive v))
  | _ + 1, .function name => some (.leaf (.function name))
  | levels + 1, .object i => (fullNode rt heap (full rt heap levels) (heap i)).map (.enter i)

variable {rt : Printing N} {heap : Heap N}

/-! ## Keys and entries -/

namespace Instance

variable {o : Instance N} {s : Schema}

theorem foldl_addKey_of_mem {keys names : List JsString} (h : ∀ name ∈ names, name ∈ keys) :
    names.foldl addKey keys = keys := by
  induction names with
  | nil => rfl
  | cons name names ih =>
      rw [List.foldl_cons, addKey, if_pos (h name List.mem_cons_self)]
      exact ih fun other hother => h other (List.mem_cons_of_mem _ hother)

theorem keys_eq (hschema : o.schema = some s) (h : (o.props.map Prod.fst).Perm s.fields) :
    o.keys = o.props.map Prod.fst := by
  rw [keys, hschema]
  refine foldl_addKey_of_mem fun name hname => ?_
  exact h.mem_iff.mpr (List.mem_filter.mp hname).1

theorem isInternal_of_mem_entries {e : JsString × Member N} (h : e ∈ o.entries) :
    isInternal e.1 = false := by
  obtain ⟨key, -, hentry⟩ := List.mem_filterMap.mp h
  rw [entryAt?] at hentry
  split at hentry
  next => cases hentry
  next hno =>
    cases hentry
    simp only [Bool.or_eq_true, not_or, Bool.not_eq_true] at hno
    exact hno.1

/-- The entries of a structure that keeps its fields are its members. -/
theorem entries_eq (hschema : o.schema = some s) (hstructure : o.isStructure s = true)
    (hkeeps : o.keepsFields heap = true) : o.entries = o.props := by
  obtain ⟨hs, hdata⟩ := Bool.and_eq_true_iff.mp hstructure
  obtain ⟨-, hnodup, hperm⟩ := of_decide_eq_true hs
  obtain ⟨-, hnames⟩ := Bool.and_eq_true_iff.mp hkeeps
  have hentry : ∀ p ∈ o.props, (o.entryAt? ∘ Prod.fst) p = some p := by
    intro p hp
    have hkeys : (InsertionMap.keys o.props).Nodup := hperm.nodup_iff.mpr hnodup
    have hmember : o.member p.1 = p.2 := by
      rw [member, InsertionMap.get?_of_mem hkeys hp]
      rfl
    have hname : isInternal p.1 = false := by
      simpa using List.all_eq_true.mp hnames p.1 (List.mem_map_of_mem hp)
    have hvalue : p.2.isFunction = false := by simpa using List.all_eq_true.mp hdata p hp
    rw [Function.comp_apply, entryAt?, hmember, hname, hvalue]
    rfl
  rw [entries, keys_eq hschema hperm, List.filterMap_map]
  exact (List.filterMap_congr hentry).trans List.filterMap_some

theorem typeEntry_eq (hschema : o.schema = some s) (hstructure : o.isStructure s = true) :
    o.typeEntry = [(js "_typeName", .text s.name)] := by
  obtain ⟨hs, -⟩ := Bool.and_eq_true_iff.mp hstructure
  rw [typeEntry, hschema]
  exact if_neg (of_decide_eq_true hs).1

end Instance

theorem thread_keys {run : Member N → Run N Out} (entries : List (JsString × Member N))
    (seen : List N) :
    (thread (serializeEntry run) entries seen).1.map Prod.fst = entries.map Prod.fst := by
  induction entries generalizing seen with
  | nil => rfl
  | cons e entries ih =>
      have hfirst : (serializeEntry run e seen).1.1 = e.1 := by
        obtain ⟨key, v⟩ := e
        cases v <;> rfl
      rw [thread, List.map_cons, List.map_cons, hfirst, ih]

theorem unfoldEntry_key {full : Member N → Option (Unfolded N Out)} {e : JsString × Member N}
    {u : Unfolded N (JsString × Out)} (h : unfoldEntry full e = some u) : u.result.1 = e.1 := by
  obtain ⟨key, v⟩ := e
  cases v with
  | object i =>
      obtain ⟨w, -, rfl⟩ := Option.map_eq_some_iff.mp h
      rfl
  | _ =>
      cases h
      rfl

theorem results_keys {full : Member N → Option (Unfolded N Out)}
    {entries : List (JsString × Member N)} {us : List (Unfolded N (JsString × Out))}
    (h : List.Forall₂ (fun e u => unfoldEntry full e = some u) entries us) :
    (us.map Unfolded.result).map Prod.fst = entries.map Prod.fst := by
  induction h with
  | nil => rfl
  | cons hfirst _ ih => rw [List.map_cons, List.map_cons, List.map_cons, unfoldEntry_key hfirst, ih]

/-! ## The serialiser against the full tree -/

/-- A typed structure is serialised entry by entry. -/
theorem serializeNode_structure {run : Member N → Run N Out} {o : Instance N} {s : Schema}
    (hschema : o.schema = some s) (hopen : o.isOpaque heap = false) :
    serializeNode rt heap run (.object o) = fun seen =>
      (.object (o.typeEntry ++ (thread (serializeEntry run) o.entries seen).1),
        (thread (serializeEntry run) o.entries seen).2) := by
  rw [serializeNode, if_neg (by simp [hopen]), hschema]
  cases o.toJson <;> rfl

/-- A structure that loses a field, or passes for an opaque one, is not shown in full. -/
theorem serializeNode_ne {run : Member N → Run N Out} {full : Member N → Option (Unfolded N Out)}
    {o : Instance N} {s : Schema} {us : List (Unfolded N (JsString × Out))}
    (hschema : o.schema = some s) (hstructure : o.isStructure s = true)
    (hus : List.Forall₂ (fun e u => unfoldEntry full e = some u) o.props us)
    (hkeeps : o.keepsFields heap = false) (seen : List N) :
    (serializeNode rt heap run (.object o) seen).1 ≠
      .object ((js "_typeName", .text s.name) :: us.map Unfolded.result) := by
  intro heq
  cases hopen : o.isOpaque heap with
  | true =>
      rw [serializeNode, if_pos hopen] at heq
      cases heq
  | false =>
      obtain ⟨key, hkey, hinternal⟩ : ∃ key ∈ o.props.map Prod.fst, isInternal key = true := by
        simpa [Instance.keepsFields, hopen] using hkeeps
      rw [serializeNode_structure hschema hopen, Instance.typeEntry_eq hschema hstructure] at heq
      have hentries := (List.cons.inj (Out.object.inj heq)).2
      have hkeys := congrArg (List.map Prod.fst) hentries
      rw [results_keys hus] at hkeys
      rw [← hkeys] at hkey
      obtain ⟨e, he, rfl⟩ := List.mem_map.mp ((thread_keys o.entries seen) ▸ hkey)
      rw [Instance.isInternal_of_mem_entries he] at hinternal
      cases hinternal

/-- A node is serialised in full exactly when its fields are kept. -/
theorem marks_fullNode {run : Member N → Run N Out} {full : Member N → Option (Unfolded N Out)}
    (h : ∀ v u, full v = some u → Marks [] (run v) u) {node : Node N} {u : Unfolded N Out}
    (hu : fullNode rt heap full node = some u) :
    Marks [] (serializeNode rt heap run node) u ∧ Out.circular ≠ u.result := by
  cases node with
  | date time | buffer bytes | array items => exact marks_node h hu
  | object o =>
      rw [fullNode] at hu
      cases hschema : o.schema with
      | none =>
          rw [hschema] at hu
          exact marks_node h hu
      | some s =>
          rw [hschema] at hu
          dsimp only at hu
          split at hu
          next hstructure =>
            obtain ⟨us, hus, rfl⟩ := Option.map_eq_some_iff.mp hu
            have hentries := forall₂_of_mapM hus
            refine ⟨?_, nofun⟩
            cases hkeeps : o.keepsFields heap with
            | false =>
                exact .of_ne [] rfl fun seen =>
                  serializeNode_ne hschema hstructure hentries hkeeps seen
            | true =>
                have hopen : o.isOpaque heap = false := by
                  simpa using (Bool.and_eq_true_iff.mp hkeeps).1
                have hobject : Function.Injective fun entries =>
                    Out.object ([(js "_typeName", .text s.name)] ++ entries) :=
                  fun _ _ heq => List.append_cancel_left (Out.object.inj heq)
                have hmarks :=
                  (Marks.thread (hentries.imp fun e w hw => marks_entry h hw)).map hobject
                rw [serializeNode_structure hschema hopen,
                  Instance.typeEntry_eq hschema hstructure,
                  Instance.entries_eq hschema hstructure hkeeps]
                exact hmarks
          next => cases hu

section

variable [DecidableEq N]

theorem marks_full (levels : Nat) (v : Member N) (u : Unfolded N Out)
    (hu : full rt heap levels v = some u) : Marks [] (serialize rt heap levels v) u := by
  induction levels generalizing v u with
  | zero =>
      cases v with
      | undefined | null =>
          cases hu
          exact .leaf [] _
      | _ => cases hu
  | succ levels ih =>
      cases v with
      | undefined | null | primitive v | function name =>
          cases hu
          exact .leaf [] _
      | object i =>
          obtain ⟨w, hw, rfl⟩ := Option.map_eq_some_iff.mp hu
          obtain ⟨hmarks, hne⟩ := marks_fullNode ih hw
          exact (hmarks.mono nofun).enter hne List.not_mem_nil

end

/-! ## Which trees keep their fields -/

theorem all_shown_iff {A B : Type} {f : A → Option (Unfolded N B)} {items : List A}
    {us : List (Unfolded N B)} {P : N → Prop}
    (h : List.Forall₂ (fun a u => f a = some u) items us)
    (hf : ∀ a u, f a = some u → (u.shown = true ↔ ∀ i ∈ u.visits, P i)) :
    us.all Unfolded.shown = true ↔ ∀ i ∈ us.flatMap Unfolded.visits, P i := by
  induction h with
  | nil => simp
  | @cons a u items us hfirst _ ih =>
      rw [List.all_cons, List.flatMap_cons, Bool.and_eq_true, hf a u hfirst, ih,
        List.forall_mem_append]

theorem entry_shown_iff {full : Member N → Option (Unfolded N Out)} {P : N → Prop}
    (h : ∀ v u, full v = some u → (u.shown = true ↔ ∀ i ∈ u.visits, P i))
    (e : JsString × Member N) (u : Unfolded N (JsString × Out)) (hu : unfoldEntry full e = some u) :
    u.shown = true ↔ ∀ i ∈ u.visits, P i := by
  obtain ⟨key, v⟩ := e
  cases v with
  | object i =>
      obtain ⟨w, hw, rfl⟩ := Option.map_eq_some_iff.mp hu
      exact h _ _ hw
  | _ =>
      cases hu
      exact iff_of_true rfl nofun

/-- Below a node the tree is shown in full where each node below it keeps its fields. -/
theorem node_shown_iff {full : Member N → Option (Unfolded N Out)} {P : N → Prop}
    (h : ∀ v u, full v = some u → (u.shown = true ↔ ∀ i ∈ u.visits, P i)) {node : Node N}
    {u : Unfolded N Out} (hu : fullNode rt heap full node = some u) :
    u.shown = true ↔ node.keepsFields heap = true ∧ ∀ i ∈ u.visits, P i := by
  cases node with
  | date time | buffer bytes =>
      cases hu
      exact iff_of_true rfl ⟨rfl, nofun⟩
  | array items =>
      obtain ⟨us, hus, rfl⟩ := Option.map_eq_some_iff.mp hu
      exact (all_shown_iff (forall₂_of_mapM hus) h).trans (and_iff_right rfl).symm
  | object o =>
      rw [fullNode] at hu
      cases hschema : o.schema with
      | none =>
          have hkeeps : (Node.object o).keepsFields heap = true := by
            rw [Node.keepsFields, hschema]
            rfl
          rw [hschema] at hu
          rw [hkeeps, and_iff_right rfl]
          dsimp only [unfoldNode] at hu
          split at hu
          next =>
            cases hu
            exact iff_of_true rfl nofun
          next =>
            split at hu
            next =>
              cases hu
              exact iff_of_true rfl nofun
            next =>
              obtain ⟨us, hus, rfl⟩ := Option.map_eq_some_iff.mp hu
              exact all_shown_iff (forall₂_of_mapM hus) (entry_shown_iff h)
      | some s =>
          have hkeeps : (Node.object o).keepsFields heap = o.keepsFields heap := by
            rw [Node.keepsFields, hschema]
            rfl
          rw [hschema] at hu
          dsimp only at hu
          split at hu
          next =>
            obtain ⟨us, hus, rfl⟩ := Option.map_eq_some_iff.mp hu
            rw [hkeeps, Bool.and_eq_true,
              all_shown_iff (forall₂_of_mapM hus) (entry_shown_iff h)]
          next => cases hu

theorem shown_iff_keepsFields (levels : Nat) (v : Member N) (u : Unfolded N Out)
    (hu : full rt heap levels v = some u) :
    u.shown = true ↔ ∀ i ∈ u.visits, (heap i).keepsFields heap = true := by
  induction levels generalizing v u with
  | zero =>
      cases v with
      | undefined | null =>
          cases hu
          exact iff_of_true rfl nofun
      | _ => cases hu
  | succ levels ih =>
      cases v with
      | undefined | null | primitive v | function name =>
          cases hu
          exact iff_of_true rfl nofun
      | object i =>
          obtain ⟨w, hw, rfl⟩ := Option.map_eq_some_iff.mp hu
          have hnode := node_shown_iff ih hw
          exact hnode.trans
            (List.forall_mem_cons (p := fun j => (heap j).keepsFields heap = true)).symm

/-- A tree of typed structures without sharing is serialised with every field exactly
when each structure in it keeps its fields. -/
theorem fields_survive_iff [DecidableEq N] (rt : Printing N) (heap : Heap N) {root : Member N}
    {u : Unfolded N Out} (h : full rt heap (maxSerializeDepth + 1) root = some u)
    (hnodup : u.visits.Nodup) :
    serializeExtensionObject rt heap root = u.result ↔
      ∀ i ∈ u.visits, (heap i).keepsFields heap = true := by
  rw [← shown_iff_keepsFields _ _ _ h]
  exact (marks_full _ _ _ h).result_iff.trans (and_iff_left hnodup)

/-- A structure with one field. -/
def oneField (name : JsString) : Heap Unit := fun _ =>
  .object ⟨some ⟨js "Motor", [name]⟩, none, [(name, .primitive (.bool true))], []⟩

theorem speed_survives :
    serializeExtensionObject plainPrinting (oneField (js "speed")) (.object ()) =
      .object [(js "_typeName", .text (js "Motor")), (js "speed", .primitive (.bool true))] := by
  have h : full plainPrinting (oneField (js "speed")) (maxSerializeDepth + 1) (.object ()) =
      some ⟨.object [(js "_typeName", .text (js "Motor")),
        (js "speed", .primitive (.bool true))], [()], true⟩ := rfl
  exact (fields_survive_iff plainPrinting _ h (by decide)).mpr (by decide +kernel)

/-- The field `nodeId` is passed over. -/
theorem nodeId_field_lost :
    ¬ ∀ (heap : Heap Unit) (root : Member Unit) (u : Unfolded Unit Out),
      full plainPrinting heap (maxSerializeDepth + 1) root = some u → u.visits.Nodup →
        serializeExtensionObject plainPrinting heap root = u.result := by
  intro h
  have hfull : full plainPrinting (oneField (js "nodeId")) (maxSerializeDepth + 1) (.object ()) =
      some ⟨.object [(js "_typeName", .text (js "Motor")),
        (js "nodeId", .primitive (.bool true))], [()], false⟩ := rfl
  have hkept := h _ _ _ hfull (by decide)
  have hdropped : serializeExtensionObject plainPrinting (oneField (js "nodeId")) (.object ()) =
      .object [(js "_typeName", .text (js "Motor"))] := rfl
  cases (List.cons.inj (Out.object.inj (hdropped.symm.trans hkept))).2

end OpcUaSuite.Serialize
