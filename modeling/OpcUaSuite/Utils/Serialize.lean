import OpcUaSuite.Js.Date
import OpcUaSuite.Js.Object
import OpcUaSuite.Lib.Unfolding

/-!
# Serialising structures

`serializeExtensionObject` over a heap of objects. Objects have an identity, so a
value can be shared or lie below itself; the objects met so far are carried along,
and what was met before is marked as circular.
-/

namespace OpcUaSuite.Serialize

open Js ByteCodec Unfolding

/-! ## The heap -/

/-- What the schema of a structure says: its name and its field names, empty where
there is none. -/
structure Schema where
  name : JsString
  fields : List JsString
deriving DecidableEq

/-- What a member or an array element holds. -/
inductive Member (N : Type)
  | undefined
  | null
  | primitive (v : JsValue)
  | function (name : JsString)
  | object (i : N)

def Member.truthy {N : Type} : Member N → Bool
  | .undefined | .null => false
  | .primitive v => v.truthy
  | .function _ | .object _ => true

def Member.isFunction {N : Type} : Member N → Bool
  | .function _ => true
  | _ => false

/-- An object with members: what it reads as its `schema`, what its `toJSON` method
returns, its own members and those of its prototypes. -/
structure Instance (N : Type) where
  schema : Option Schema
  toJson : Option JsValue
  props : List (JsString × Member N)
  inherited : List (JsString × Member N)

/-- An object of the heap; a date is a valid one. -/
inductive Node (N : Type)
  | date (time : Int)
  | buffer (bytes : Bytes)
  | array (items : List (Member N))
  | object (o : Instance N)

abbrev Heap (N : Type) := N → Node N

/-- The text `toString` makes of a member, and the bytes `Buffer.from` takes of one. -/
structure Printing (N : Type) where
  text : Member N → JsString
  bytes : Member N → Bytes

/-- What the serialiser makes of a value. The marks are the objects
`{ _circular: true }` and `{ _truncated: true, _reason: "max depth exceeded" }`, an
opaque structure is `{ _opaque: true, _typeName, _raw }`; an object is the list of
its entries in the order in which they are assigned. -/
inductive Out
  | null
  | primitive (v : JsValue)
  | function (name : JsString)
  | text (s : JsString)
  | json (v : JsValue)
  | circular
  | truncated
  | opaqueStructure (typeName : JsString) (raw : Option JsString)
  | array (items : List Out)
  | object (entries : List (JsString × Out))

/-- `MAX_SERIALIZE_DEPTH` -/
def maxSerializeDepth : Nat := 32

variable {N : Type}

namespace Instance

def member (o : Instance N) (name : JsString) : Member N :=
  ((InsertionMap.get? name o.props).or (InsertionMap.get? name o.inherited)).getD .undefined

/-- `extObj.constructor.name`, where the constructor can be a member of the structure. -/
def constructorName (heap : Heap N) (o : Instance N) : Option JsString :=
  match o.member (js "constructor") with
  | .function name => some name
  | .object i =>
      match heap i with
      | .object c =>
          match c.member (js "name") with
          | .primitive (.str s) => some s
          | .function _ | .primitive _ | .undefined | .null | .object _ => none
      | _ => none
  | _ => none

def isOpaque (heap : Heap N) (o : Instance N) : Bool :=
  decide (o.constructorName heap = some (js "OpaqueStructure"))

/-- The form of an `OpaqueStructure`. -/
def opaqueOut (rt : Printing N) (o : Instance N) : Out :=
  .opaqueStructure
    (if (o.member (js "nodeId")).truthy then rt.text (o.member (js "nodeId")) else js "unknown")
    (if (o.member (js "body")).truthy then some (Base64.encode (rt.bytes (o.member (js "body"))))
      else none)

/-- `keys.add` -/
def addKey (keys : List JsString) (key : JsString) : List JsString :=
  if key ∈ keys then keys else keys ++ [key]

/-- The own keys, and the field names of the schema that are none. -/
def keys (o : Instance N) : List JsString :=
  (((o.schema.map Schema.fields).getD []).filter fun name => name ≠ []).foldl addKey
    (o.props.map Prod.fst)

end Instance

/-- The keys that are passed over as internal. -/
def isInternal (key : JsString) : Bool :=
  key.head? == some 95 || decide (key = js "schema") || decide (key = js "nodeId")

namespace Instance

/-- The entry of a key, unless it is internal or holds a function. -/
def entryAt? (o : Instance N) (key : JsString) : Option (JsString × Member N) :=
  if isInternal key || (o.member key).isFunction then none else some (key, o.member key)

def entries (o : Instance N) : List (JsString × Member N) := o.keys.filterMap o.entryAt?

/-- `result._typeName` -/
def typeEntry (o : Instance N) : List (JsString × Out) :=
  match o.schema with
  | some s => if s.name = [] then [] else [(js "_typeName", .text s.name)]
  | none => []

end Instance

/-! ## The serialiser -/

/-- A member that is an object is serialised, any other is kept as it is. -/
def serializeEntry (run : Member N → Run N Out) (e : JsString × Member N) :
    Run N (JsString × Out) := fun seen =>
  match e.2 with
  | .undefined | .null => ((e.1, .null), seen)
  | .primitive v => ((e.1, .primitive v), seen)
  | .function name => ((e.1, .function name), seen)
  | .object i => ((e.1, (run (.object i) seen).1), (run (.object i) seen).2)

/-- An object that was not met before. -/
def serializeNode (rt : Printing N) (heap : Heap N) (run : Member N → Run N Out) :
    Node N → Run N Out
  | .date time => fun seen => (.text (isoText time), seen)
  | .buffer bytes => fun seen => (.text (Base64.encode bytes), seen)
  | .array items => fun seen => (.array (thread run items seen).1, (thread run items seen).2)
  | .object o =>
      if o.isOpaque heap then fun seen => (o.opaqueOut rt, seen)
      else match o.toJson, o.schema with
        | some v, none => fun seen => (.json v, seen)
        | _, _ => fun seen =>
            (.object (o.typeEntry ++ (thread (serializeEntry run) o.entries seen).1),
              (thread (serializeEntry run) o.entries seen).2)

variable [DecidableEq N]

/-- `serializeExtensionObject`, with the levels that are left down to
`MAX_SERIALIZE_DEPTH`. -/
def serialize (rt : Printing N) (heap : Heap N) : Nat → Member N → Run N Out
  | _, .undefined | _, .null => fun seen => (.null, seen)
  | 0, .primitive _ | 0, .function _ | 0, .object _ => fun seen => (.truncated, seen)
  | _ + 1, .primitive v => fun seen => (.primitive v, seen)
  | _ + 1, .function name => fun seen => (.function name, seen)
  | levels + 1, .object i => fun seen =>
      if i ∈ seen then (.circular, seen)
      else serializeNode rt heap (serialize rt heap levels) (heap i) (i :: seen)

def serializeExtensionObject (rt : Printing N) (heap : Heap N) (root : Member N) : Out :=
  (serialize rt heap (maxSerializeDepth + 1) root []).1

/-! ## The unfolding by ancestors -/

def unfoldEntry (unfold : Member N → Option (Unfolded N Out)) (e : JsString × Member N) :
    Option (Unfolded N (JsString × Out)) :=
  match e.2 with
  | .undefined | .null => some (.leaf (e.1, .null))
  | .primitive v => some (.leaf (e.1, .primitive v))
  | .function name => some (.leaf (e.1, .function name))
  | .object i => (unfold (.object i)).map (Unfolded.map (Prod.mk e.1))

def unfoldNode (rt : Printing N) (heap : Heap N) (unfold : Member N → Option (Unfolded N Out)) :
    Node N → Option (Unfolded N Out)
  | .date time => some (.leaf (.text (isoText time)))
  | .buffer bytes => some (.leaf (.text (Base64.encode bytes)))
  | .array items => (items.mapM unfold).map fun us => (Unfolded.all us).map .array
  | .object o =>
      if o.isOpaque heap then some (.leaf (o.opaqueOut rt))
      else match o.toJson, o.schema with
        | some v, none => some (.leaf (.json v))
        | _, _ => (o.entries.mapM (unfoldEntry unfold)).map fun us =>
            (Unfolded.all us).map fun entries => .object (o.typeEntry ++ entries)

/-- The value with its own ancestors, and nothing else, marked as circular; `none` for
a path that goes deeper than the levels without closing a cycle. A reference back
from below the last level is none the serialiser shows. -/
def unfold (rt : Printing N) (heap : Heap N) :
    Nat → List N → Member N → Option (Unfolded N Out)
  | _, _, .undefined | _, _, .null => some (.leaf .null)
  | 0, _, .primitive _ | 0, _, .function _ => none
  | 0, path, .object i => if i ∈ path then some ⟨.circular, [], false⟩ else none
  | _ + 1, _, .primitive v => some (.leaf (.primitive v))
  | _ + 1, _, .function name => some (.leaf (.function name))
  | levels + 1, path, .object i =>
      if i ∈ path then some (.leaf .circular)
      else (unfoldNode rt heap (unfold rt heap levels (i :: path)) (heap i)).map (.enter i)

/-! ## The two agree where nothing is shared -/

variable {rt : Printing N} {heap : Heap N}

theorem forall₂_of_mapM {A B : Type} {f : A → Option B} {as : List A} {bs : List B}
    (h : as.mapM f = some bs) : List.Forall₂ (fun a b => f a = some b) as bs := by
  induction as generalizing bs with
  | nil =>
      cases h
      exact .nil
  | cons a as ih =>
      rw [List.mapM_cons] at h
      obtain ⟨b, hb, h⟩ := Option.bind_eq_some_iff.mp h
      obtain ⟨bs', hbs, h⟩ := Option.bind_eq_some_iff.mp h
      cases h
      exact .cons hb (ih hbs)

omit [DecidableEq N] in
theorem marks_entry {path : List N} {run : Member N → Run N Out}
    {unfold : Member N → Option (Unfolded N Out)}
    (h : ∀ v u, unfold v = some u → Marks path (run v) u) {e : JsString × Member N}
    {u : Unfolded N (JsString × Out)} (hu : unfoldEntry unfold e = some u) :
    Marks path (serializeEntry run e) u := by
  obtain ⟨key, v⟩ := e
  cases v with
  | object i =>
      obtain ⟨w, hw, rfl⟩ := Option.map_eq_some_iff.mp hu
      exact (h _ _ hw).map (Prod.mk_right_injective key)
  | _ =>
      cases hu
      exact .leaf path _

omit [DecidableEq N] in
/-- What an object that is met first unfolds to is what the serialiser makes of it. -/
theorem marks_node {path : List N} {run : Member N → Run N Out}
    {unfold : Member N → Option (Unfolded N Out)}
    (h : ∀ v u, unfold v = some u → Marks path (run v) u) {node : Node N} {u : Unfolded N Out}
    (hu : unfoldNode rt heap unfold node = some u) :
    Marks path (serializeNode rt heap run node) u ∧ Out.circular ≠ u.result := by
  cases node with
  | date time | buffer bytes =>
      cases hu
      exact ⟨.leaf path _, nofun⟩
  | array items =>
      obtain ⟨us, hus, rfl⟩ := Option.map_eq_some_iff.mp hu
      have hitems := (forall₂_of_mapM hus).imp fun v w hw => h v w hw
      exact ⟨(Marks.thread hitems).map fun _ _ => Out.array.inj, nofun⟩
  | object o =>
      rw [unfoldNode] at hu
      rw [serializeNode]
      split at hu
      next hopen =>
        rw [if_pos hopen]
        cases hu
        exact ⟨.leaf path _, nofun⟩
      next hopen =>
        rw [if_neg hopen]
        split at hu
        next =>
          cases hu
          exact ⟨.leaf path _, nofun⟩
        next hjson =>
          obtain ⟨us, hus, rfl⟩ := Option.map_eq_some_iff.mp hu
          have hentries := (forall₂_of_mapM hus).imp fun e w hw => marks_entry h hw
          have hobject : Function.Injective fun entries => Out.object (o.typeEntry ++ entries) :=
            fun _ _ heq => List.append_cancel_left (Out.object.inj heq)
          exact ⟨(Marks.thread hentries).map hobject, nofun⟩

/-- The serialiser shows the unfolding exactly when it visits nothing twice. -/
theorem marks_unfold (levels : Nat) (path : List N) (v : Member N) (u : Unfolded N Out)
    (hu : unfold rt heap levels path v = some u) : Marks path (serialize rt heap levels v) u := by
  induction levels generalizing path v u with
  | zero =>
      cases v with
      | undefined | null =>
          cases hu
          exact .leaf path _
      | primitive v => cases hu
      | function name => cases hu
      | object i =>
          rw [unfold] at hu
          split at hu
          next =>
            cases hu
            exact .of_ne path rfl fun _ => nofun
          next => cases hu
  | succ levels ih =>
      cases v with
      | undefined | null | primitive v | function name =>
          cases hu
          exact .leaf path _
      | object i =>
          rw [unfold] at hu
          split at hu
          next hi =>
            cases hu
            intro seen hpath
            rw [serialize]
            dsimp only
            rw [if_pos (hpath i hi)]
            exact ⟨iff_of_true rfl (Unfolded.fresh_leaf _ seen), fun _ => rfl⟩
          next hi =>
            obtain ⟨w, hw, rfl⟩ := Option.map_eq_some_iff.mp hu
            obtain ⟨hmarks, hne⟩ := marks_node (ih (i :: path)) hw
            exact hmarks.enter hne hi

/-- `_circular` marks the ancestors of a value and nothing else exactly when no object
is reached a second time by another way than through itself, and no cycle closes
below the last level. -/
theorem circular_iff_ancestor (rt : Printing N) (heap : Heap N) {root : Member N}
    {u : Unfolded N Out} (h : unfold rt heap (maxSerializeDepth + 1) [] root = some u) :
    serializeExtensionObject rt heap root = u.result ↔ u.shown = true ∧ u.visits.Nodup :=
  (marks_unfold _ _ _ _ h).result_iff

/-- No member prints or has bytes of its own. -/
def plainPrinting : Printing N := ⟨fun _ => [], fun _ => []⟩

/-- A structure with itself as a member. -/
def selfHeap : Heap Unit := fun _ =>
  .object ⟨some ⟨js "A", []⟩, none, [(js "self", .object ())], []⟩

theorem self_circular :
    serializeExtensionObject plainPrinting selfHeap (.object ()) =
      .object [(js "_typeName", .text (js "A")), (js "self", .circular)] := by
  have h : unfold plainPrinting selfHeap (maxSerializeDepth + 1) [] (.object ()) =
      some ⟨.object [(js "_typeName", .text (js "A")), (js "self", .circular)], [()], true⟩ := rfl
  exact (circular_iff_ancestor plainPrinting selfHeap h).mpr ⟨rfl, by decide⟩

/-- Two members that hold the same date. -/
def sharedHeap : Heap Bool
  | true => .object ⟨none, none, [(js "first", .object false), (js "second", .object false)], []⟩
  | false => .date 0

/-- The second of them is marked as circular. -/
theorem shared_date_circular :
    ¬ ∀ (heap : Heap Bool) (root : Member Bool) (u : Unfolded Bool Out),
      unfold plainPrinting heap (maxSerializeDepth + 1) [] root = some u →
        serializeExtensionObject plainPrinting heap root = u.result := by
  intro h
  have hshared : serializeExtensionObject plainPrinting sharedHeap (.object true) =
      .object [(js "first", .text (isoText 0)), (js "second", .text (isoText 0))] :=
    h sharedHeap (.object true) _ rfl
  have hmarked : serializeExtensionObject plainPrinting sharedHeap (.object true) =
      .object [(js "first", .text (isoText 0)), (js "second", .circular)] := rfl
  have hentries := Out.object.inj (hmarked.symm.trans hshared)
  cases (List.cons.inj (List.cons.inj hentries).2).1

end OpcUaSuite.Serialize
