import OpcUaSuite.Js.Value
import OpcUaSuite.Lib.InsertionMap
import Mathlib.Data.List.Induction
import Mathlib.Data.Nat.Digits.Defs

/-!
# Own properties of a plain object

An object is the list of its own enumerable string keys in the order in which
`Object.keys` lists them: array indices ascending, then the other keys in the
order of their creation. Assigning to `__proto__` creates no own property.
-/

namespace OpcUaSuite.Js

variable {α : Type}

/-- The array index a key spells, if it spells one. -/
def arrayIndex? (key : JsString) : Option Nat :=
  match digits key with
  | none | some [] => none
  | some [0] => some 0
  | some (0 :: _) => none
  | some ds =>
      let n := ds.foldl (fun acc d => 10 * acc + d) 0
      if n < 2 ^ 32 - 1 then some n else none

def protoKey : JsString := js "__proto__"

/-- The names every object inherits. -/
def inheritedNames : List JsString :=
  [js "constructor", js "__defineGetter__", js "__defineSetter__", js "hasOwnProperty",
    js "__lookupGetter__", js "__lookupSetter__", js "isPrototypeOf", js "propertyIsEnumerable",
    js "toString", js "valueOf", js "__proto__", js "toLocaleString"]

/-- A key whose assignment appends an own property when it is new. -/
def plainKey (key : JsString) : Bool :=
  decide (key ≠ protoKey) && (arrayIndex? key).isNone

namespace Props

/-- The value of an own property. -/
def get? (key : JsString) (props : List (JsString × α)) : Option α := InsertionMap.get? key props

/-- Place a new array index before the first key that comes after it. -/
def insertIndex (i : Nat) (key : JsString) (value : α) :
    List (JsString × α) → List (JsString × α)
  | [] => [(key, value)]
  | (k, v) :: rest =>
      match arrayIndex? k with
      | some j => if i < j then (key, value) :: (k, v) :: rest
          else (k, v) :: insertIndex i key value rest
      | none => (key, value) :: (k, v) :: rest

/-- The assignment `obj[key] = value`. -/
def set (props : List (JsString × α)) (key : JsString) (value : α) : List (JsString × α) :=
  if key = protoKey then props
  else if (get? key props).isSome then InsertionMap.set key value props
  else
    match arrayIndex? key with
    | some i => insertIndex i key value props
    | none => props ++ [(key, value)]

/-- The value of the last entry with a key. -/
def last? (key : JsString) (entries : List (JsString × α)) : Option α :=
  ((entries.filter fun e => e.1 = key).getLast?).map Prod.snd

/-- The object built by assigning the entries in order. -/
def ofEntries (entries : List (JsString × α)) : List (JsString × α) :=
  entries.foldl (fun props entry => set props entry.1 entry.2) []

/-- Keys in the order in which `Object.keys` lists them. -/
def Ordered (keys : List JsString) : Prop :=
  keys.Pairwise fun k l => k ≠ l ∧ ∀ j, arrayIndex? l = some j → ∃ i, arrayIndex? k = some i ∧ i < j

theorem insertIndex_append {i : Nat} {key : JsString} {value : α} {props : List (JsString × α)}
    (h : ∀ k ∈ props.map Prod.fst, ∃ j, arrayIndex? k = some j ∧ j < i) :
    insertIndex i key value props = props ++ [(key, value)] := by
  induction props with
  | nil => rfl
  | cons e props ih =>
      obtain ⟨j, hj, hlt⟩ := h e.1 List.mem_cons_self
      have hrest := ih fun k hk => h k (List.mem_cons_of_mem _ hk)
      simp only [insertIndex, hj, if_neg (Nat.lt_asymm hlt), hrest, List.cons_append]

/-- A new key that comes after all others goes to the end. -/
theorem set_append {key : JsString} {value : α} {props : List (JsString × α)}
    (hproto : key ≠ protoKey) (hnew : key ∉ props.map Prod.fst)
    (hlast : ∀ i, arrayIndex? key = some i →
      ∀ k ∈ props.map Prod.fst, ∃ j, arrayIndex? k = some j ∧ j < i) :
    set props key value = props ++ [(key, value)] := by
  have hnone : get? key props = none := InsertionMap.get?_eq_none_iff.mpr hnew
  rw [set, if_neg hproto, hnone, Option.isSome_none, if_neg Bool.false_ne_true]
  cases hindex : arrayIndex? key with
  | none => rfl
  | some i => exact insertIndex_append (hlast i hindex)

private theorem foldl_set_append {entries props : List (JsString × α)}
    (hproto : protoKey ∉ entries.map Prod.fst)
    (hordered : Ordered ((props ++ entries).map Prod.fst)) :
    entries.foldl (fun props entry => set props entry.1 entry.2) props = props ++ entries := by
  induction entries generalizing props with
  | nil => simp
  | cons e entries ih =>
      have hsplit : props ++ e :: entries = (props ++ [e]) ++ entries := by simp
      have hbefore := (List.pairwise_append.mp (List.map_append ▸ hordered)).2.2
      have hlast : ∀ k ∈ props.map Prod.fst, k ≠ e.1 ∧ ∀ i, arrayIndex? e.1 = some i →
          ∃ j, arrayIndex? k = some j ∧ j < i :=
        fun k hk => hbefore k hk e.1 List.mem_cons_self
      rw [List.map_cons, List.mem_cons, not_or] at hproto
      rw [List.foldl_cons, set_append (Ne.symm hproto.1) (fun hmem => (hlast e.1 hmem).1 rfl)
        fun i hi k hk => (hlast k hk).2 i hi, hsplit]
      exact ih hproto.2 (hsplit ▸ hordered)

/-- The entries of an object give the object back, unless one is called `__proto__`. -/
theorem ofEntries_of_ordered {entries : List (JsString × α)}
    (hproto : protoKey ∉ entries.map Prod.fst) (hordered : Ordered (entries.map Prod.fst)) :
    ofEntries entries = entries := by
  have h := @foldl_set_append α entries [] hproto hordered
  rwa [List.nil_append] at h

/-- Distinct plain keys keep the order in which they were assigned. -/
theorem ofEntries_eq {entries : List (JsString × α)}
    (hplain : ∀ e ∈ entries, plainKey e.1 = true) (hnodup : (entries.map Prod.fst).Nodup) :
    ofEntries entries = entries := by
  have hkey : ∀ k ∈ entries.map Prod.fst, k ≠ protoKey ∧ arrayIndex? k = none := by
    intro k hk
    obtain ⟨e, he, rfl⟩ := List.mem_map.mp hk
    simpa [plainKey] using hplain e he
  refine ofEntries_of_ordered (fun hmem => (hkey _ hmem).1 rfl) ?_
  refine hnodup.imp_of_mem fun {k l} _ hl hne => ⟨hne, fun j hj => ?_⟩
  rw [(hkey l hl).2] at hj
  cases hj

theorem get?_insertIndex_of_ne {key other : JsString} (h : other ≠ key) (i : Nat) (value : α)
    (props : List (JsString × α)) :
    get? other (insertIndex i key value props) = get? other props := by
  induction props with
  | nil => simp [insertIndex, get?, InsertionMap.get?, Ne.symm h]
  | cons p props ih =>
      have hfront : get? other ((key, value) :: p :: props) = get? other (p :: props) := by
        simp [get?, InsertionMap.get?, Ne.symm h]
      have hbehind : get? other (p :: insertIndex i key value props) = get? other (p :: props) := by
        simp only [get?, InsertionMap.get?]
        split
        · rfl
        · exact ih
      unfold insertIndex
      split
      · split
        · exact hfront
        · exact hbehind
      · exact hfront

theorem get?_insertIndex_self {key : JsString} (i : Nat) (value : α) {props : List (JsString × α)}
    (hnew : get? key props = none) : get? key (insertIndex i key value props) = some value := by
  induction props with
  | nil => simp [insertIndex, get?, InsertionMap.get?]
  | cons p props ih =>
      have hfront : get? key ((key, value) :: p :: props) = some value := by
        simp [get?, InsertionMap.get?]
      have hne : p.1 ≠ key := by
        rintro rfl
        simp [get?, InsertionMap.get?] at hnew
      have hrest : get? key props = none := by
        simpa [get?, InsertionMap.get?, hne] using hnew
      have hbehind : get? key (p :: insertIndex i key value props) = some value := by
        rw [← ih hrest]
        simp [get?, InsertionMap.get?, hne]
      unfold insertIndex
      split
      · split
        · exact hfront
        · exact hbehind
      · exact hfront

theorem get?_set_self {key : JsString} (h : key ≠ protoKey) (props : List (JsString × α))
    (value : α) : get? key (set props key value) = some value := by
  unfold set
  rw [if_neg h]
  split
  next => exact InsertionMap.get?_set_self key value props
  next hnew =>
    have hnone : get? key props = none := by simpa using hnew
    split
    next i _ => exact get?_insertIndex_self i value hnone
    next =>
      have happend := InsertionMap.get?_set_self key value props
      rwa [InsertionMap.set_of_not_mem (InsertionMap.get?_eq_none_iff.mp hnone)] at happend

theorem get?_set_of_ne {key other : JsString} (h : other ≠ key) (props : List (JsString × α))
    (value : α) : get? other (set props key value) = get? other props := by
  unfold set
  split
  · rfl
  · split
    next => exact InsertionMap.get?_set_of_ne h value props
    next hnew =>
      split
      next i _ => exact get?_insertIndex_of_ne h i value props
      next =>
        have hnone : get? key props = none := by simpa using hnew
        have happend := InsertionMap.get?_set_of_ne h value props
        rwa [InsertionMap.set_of_not_mem (InsertionMap.get?_eq_none_iff.mp hnone)] at happend

theorem ofEntries_concat (entries : List (JsString × α)) (e : JsString × α) :
    ofEntries (entries ++ [e]) = set (ofEntries entries) e.1 e.2 := by
  simp [ofEntries]

/-- No object built by assignments has an own property `__proto__`. -/
theorem get?_protoKey_ofEntries (entries : List (JsString × α)) :
    get? protoKey (ofEntries entries) = none := by
  induction entries using List.reverseRecOn with
  | nil => rfl
  | append_singleton entries e ih =>
      rw [ofEntries_concat]
      by_cases hkey : protoKey = e.1
      · rw [set, if_pos hkey.symm]
        exact ih
      · rw [get?_set_of_ne hkey]
        exact ih

theorem last?_concat (key : JsString) (entries : List (JsString × α)) (e : JsString × α) :
    last? key (entries ++ [e]) = if e.1 = key then some e.2 else last? key entries := by
  rw [last?, List.filter_append]
  by_cases hkey : e.1 = key
  · simp [hkey]
  · simp [hkey, last?]

/-- Of several values assigned to a key the last one stays. -/
theorem get?_ofEntries_eq {key : JsString} (h : key ≠ protoKey) (entries : List (JsString × α)) :
    get? key (ofEntries entries) = last? key entries := by
  induction entries using List.reverseRecOn with
  | nil => rfl
  | append_singleton entries e ih =>
      rw [ofEntries_concat, last?_concat]
      by_cases hkey : e.1 = key
      · subst hkey
        rw [if_pos rfl, get?_set_self h]
      · rw [if_neg hkey, get?_set_of_ne (Ne.symm hkey)]
        exact ih

theorem last?_eq_some {key : JsString} {value : α} {entries : List (JsString × α)}
    (h : last? key entries = some value) : (key, value) ∈ entries := by
  obtain ⟨e, he, rfl⟩ := Option.map_eq_some_iff.mp h
  obtain ⟨hmem, hkey⟩ := List.mem_filter.mp (List.mem_of_getLast? he)
  rw [decide_eq_true_eq] at hkey
  exact hkey ▸ hmem

theorem last?_isSome_iff {key : JsString} {entries : List (JsString × α)} :
    (last? key entries).isSome ↔ key ∈ entries.map Prod.fst := by
  rw [last?, Option.isSome_map, List.getLast?_isSome, ne_eq, List.filter_eq_nil_iff]
  simp

/-- A key of the entries reads as the value of one of them, another key as before. -/
theorem get?_ofEntries {key : JsString} (h : key ≠ protoKey) (entries : List (JsString × α)) :
    (key ∉ entries.map Prod.fst ∧ get? key (ofEntries entries) = none) ∨
      ∃ value, (key, value) ∈ entries ∧ get? key (ofEntries entries) = some value := by
  rw [get?_ofEntries_eq h]
  cases hlast : last? key entries with
  | none =>
      refine Or.inl ⟨fun hmem => ?_, rfl⟩
      rw [← last?_isSome_iff, hlast] at hmem
      cases hmem
  | some value => exact Or.inr ⟨value, last?_eq_some hlast, rfl⟩

theorem keys_insertIndex_perm (i : Nat) (key : JsString) (value : α) (props : List (JsString × α)) :
    (insertIndex i key value props).Perm ((key, value) :: props) := by
  induction props with
  | nil => exact List.Perm.refl _
  | cons p props ih =>
      unfold insertIndex
      split
      · split
        · exact List.Perm.refl _
        · exact (ih.cons p).trans (List.Perm.swap _ _ _)
      · exact List.Perm.refl _

theorem nodup_set {key : JsString} {value : α} {props : List (JsString × α)}
    (h : (InsertionMap.keys props).Nodup) : (InsertionMap.keys (set props key value)).Nodup := by
  unfold set
  split
  next => exact h
  next =>
    split
    next => exact InsertionMap.nodup_set h
    next hnew =>
      have hkey : key ∉ InsertionMap.keys props := by
        rw [← InsertionMap.get?_eq_none_iff]
        simpa [get?] using hnew
      have hcons : (InsertionMap.keys ((key, value) :: props)).Nodup := List.nodup_cons.mpr ⟨hkey, h⟩
      split
      next i _ => exact ((keys_insertIndex_perm i key value props).map Prod.fst).nodup_iff.mpr hcons
      next => exact ((List.perm_append_singleton _ _).map Prod.fst).nodup_iff.mpr hcons

theorem sublist_insertIndex (i : Nat) (key : JsString) (value : α) (props : List (JsString × α)) :
    props.Sublist (insertIndex i key value props) := by
  induction props with
  | nil => exact List.nil_sublist _
  | cons p props ih =>
      unfold insertIndex
      split
      · split
        · exact List.sublist_cons_self _ _
        · exact ih.cons_cons p
      · exact List.sublist_cons_self _ _

/-- An assignment keeps the keys in their order. -/
theorem keys_sublist_set (key : JsString) (value : α) (props : List (JsString × α)) :
    (InsertionMap.keys props).Sublist (InsertionMap.keys (set props key value)) := by
  unfold set
  split
  next => exact List.Sublist.refl _
  next =>
    split
    next hold =>
      rw [InsertionMap.keys_set_of_mem (InsertionMap.get?_isSome_iff.mp hold)]
    next =>
      split
      next i _ => exact (sublist_insertIndex i key value props).map Prod.fst
      next => exact (List.sublist_append_left _ _).map Prod.fst

/-- The keys of an object are distinct. -/
theorem nodup_ofEntries (entries : List (JsString × α)) :
    (InsertionMap.keys (ofEntries entries)).Nodup := by
  induction entries using List.reverseRecOn with
  | nil => exact List.nodup_nil
  | append_singleton entries e ih =>
      rw [ofEntries_concat]
      exact nodup_set ih

/-- Where the keys are distinct the last entry of a key is the first. -/
theorem last?_of_nodup {entries : List (JsString × α)} (h : (InsertionMap.keys entries).Nodup)
    (key : JsString) : last? key entries = get? key entries := by
  cases hlast : last? key entries with
  | none =>
      refine (InsertionMap.get?_eq_none_iff.mpr fun hmem => ?_).symm
      rw [InsertionMap.keys, ← last?_isSome_iff, hlast] at hmem
      cases hmem
  | some value => exact (InsertionMap.get?_of_mem h (last?_eq_some hlast)).symm

theorem last?_filter {p : JsString → Bool} {key : JsString} (h : p key = true)
    (entries : List (JsString × α)) :
    last? key (entries.filter fun e => p e.1) = last? key entries := by
  rw [last?, last?, List.filter_filter]
  congr 2
  refine List.filter_congr fun e _ => ?_
  by_cases hkey : e.1 = key
  · rw [hkey, h, Bool.and_true]
  · rw [decide_eq_false hkey, Bool.false_and]

/-- The object built by assignments has the last value of each key. -/
theorem forall_mem_ofEntries {P : JsString → α → Prop} {entries : List (JsString × α)} :
    (∀ e ∈ ofEntries entries, P e.1 e.2) ↔
      ∀ key ≠ protoKey, ∀ value, last? key entries = some value → P key value := by
  constructor
  · intro h key hkey value hlast
    rw [← get?_ofEntries_eq hkey] at hlast
    exact h (key, value) (InsertionMap.mem_of_get? hlast)
  · intro h e he
    have hget : get? e.1 (ofEntries entries) = some e.2 :=
      InsertionMap.get?_of_mem (nodup_ofEntries entries) he
    have hkey : e.1 ≠ protoKey := by
      intro hproto
      rw [hproto, get?_protoKey_ofEntries] at hget
      cases hget
    rw [get?_ofEntries_eq hkey] at hget
    exact h e.1 hkey e.2 hget

theorem last?_map {β : Type} (f : α → β) (key : JsString) (entries : List (JsString × α)) :
    last? key (entries.map fun e => (e.1, f e.2)) = (last? key entries).map f := by
  induction entries using List.reverseRecOn with
  | nil => rfl
  | append_singleton entries e ih =>
      rw [List.map_append, List.map_singleton, last?_concat, last?_concat, ih]
      split <;> rfl

end Props

/-- The items of an array under their indices. -/
def indexed (items : List JsValue) : List (JsString × JsValue) :=
  items.mapIdx fun i v => (decimal i, v)

/-- The own enumerable properties of a value. -/
def ownProps : JsValue → List (JsString × JsValue)
  | .object props => props
  | .array items => indexed items
  | .buffer bytes => indexed (bytes.map fun b => JsValue.nat b.toNat)
  | _ => []

/-- `value[name]` -/
def Host.member (host : Host) (value : JsValue) (name : JsString) : JsValue :=
  (Props.get? name (ownProps value)).getD (host.inherited value name)

mutual

/-- The conversion to a primitive does not raise: no own `toString`, which is
never a function here, hides the one every object inherits. -/
def convertible : JsValue → Bool
  | .object props => (Props.get? (js "toString") props).isNone
  | .array items => allConvertible items
  | .undefined | .null | .bool _ | .num _ | .bigint _ | .str _ | .date _ | .buffer _ => true

/-- The items of an array are converted one by one. -/
def allConvertible : List JsValue → Bool
  | [] => true
  | v :: vs => convertible v && allConvertible vs

end

/-- What a plain object inherits: its methods stand as objects without own
properties, from which no buffer can be made. -/
structure Host.Standard (host : Host) : Prop where
  inherited : ∀ props name, host.inherited (.object props) name =
    if name ∈ inheritedNames then .object [] else .undefined
  bufferFrom : host.bufferFrom (.object []) = .error .typeError

/-- A host that makes nothing of texts and gives objects the members every object has. -/
def Host.plain : Host :=
  { Host.inert with
    inherited := fun _ name => if name ∈ inheritedNames then .object [] else .undefined }

theorem Host.standard_plain : Host.plain.Standard := ⟨fun _ _ => rfl, rfl⟩

/-- `Object.assign(target, source)`. An own `__proto__` of the source goes to the setter
that the target inherits, which makes an object or null the prototype of the target;
the members read through another prototype are not modelled. -/
def assign (target : List (JsString × JsValue)) (source : JsValue) : List (JsString × JsValue) :=
  (ownProps source).foldl (fun props p => Props.set props p.1 p.2) target

/-- The value makes `Object.assign` replace the prototype of its target. -/
def isPrototype : JsValue → Bool
  | .null | .object _ | .array _ | .buffer _ | .date _ => true
  | .undefined | .bool _ | .num _ | .bigint _ | .str _ => false

/-- Assigning the members of the source leaves the prototype of the target alone. -/
def KeepsPrototype (source : JsValue) : Prop :=
  ∀ p ∈ ownProps source, p.1 = protoKey → isPrototype p.2 = false

instance (source : JsValue) : Decidable (KeepsPrototype source) := by
  unfold KeepsPrototype
  infer_instance

theorem nodup_assign {target : List (JsString × JsValue)} (source : JsValue)
    (h : (InsertionMap.keys target).Nodup) : (InsertionMap.keys (assign target source)).Nodup := by
  unfold assign
  induction ownProps source generalizing target with
  | nil => exact h
  | cons p props ih => exact ih (Props.nodup_set h)

theorem keys_sublist_assign (target : List (JsString × JsValue)) (source : JsValue) :
    (InsertionMap.keys target).Sublist (InsertionMap.keys (assign target source)) := by
  unfold assign
  induction ownProps source generalizing target with
  | nil => exact List.Sublist.refl _
  | cons p props ih => exact (Props.keys_sublist_set p.1 p.2 target).trans (ih _)

/-! ## The order of the keys -/

theorem ofDigits_eq (ds : List Nat) : ofDigits ds = Nat.ofDigits 10 ds.reverse := by
  induction ds using List.reverseRecOn with
  | nil => rfl
  | append_singleton ds d ih =>
      rw [ofDigits_append, ih, List.reverse_append, List.reverse_singleton, List.singleton_append,
        Nat.ofDigits_cons, Nat.add_comm]

/-- A text of digits is the text of its digits. -/
theorem text_of_digits {s : JsString} {ds : List Nat} (h : digits s = some ds) :
    s = ds.map (fun d => UInt16.ofNat (48 + d)) ∧ ∀ d ∈ ds, d < 10 := by
  induction s generalizing ds with
  | nil =>
      cases h
      exact ⟨rfl, fun d hd => by cases hd⟩
  | cons u s ih =>
      rw [digits] at h
      split at h
      next hu =>
        obtain ⟨es, hes, rfl⟩ := Option.map_eq_some_iff.mp h
        obtain ⟨htext, hlt⟩ := ih hes
        refine ⟨?_, List.forall_mem_cons.mpr ⟨by omega, hlt⟩⟩
        rw [List.map_cons, ← htext, Nat.add_sub_cancel' hu.1, UInt16.ofNat_toNat]
      next => cases h

/-- Digits without a leading zero are those of the number they spell. -/
theorem digits_ofDigits {ds : List Nat} (hlt : ∀ d ∈ ds, d < 10) (hhead : ds.head? ≠ some 0) :
    (Nat.digits 10 (ofDigits ds)).reverse = ds := by
  rw [ofDigits_eq, Nat.digits_ofDigits 10 (by decide) ds.reverse
    (fun d hd => hlt d (List.mem_reverse.mp hd)), List.reverse_reverse]
  intro hne heq
  rw [List.getLast_reverse] at heq
  exact hhead (by rw [← heq, List.head?_eq_some_head])

theorem digits_of_arrayIndex? {key : JsString} {i : Nat} (h : arrayIndex? key = some i) :
    digits key = some (if i = 0 then [0] else (Nat.digits 10 i).reverse) := by
  unfold arrayIndex? at h
  split at h
  next => cases h
  next => cases h
  next hdigits =>
    cases h
    exact hdigits
  next => cases h
  next ds hne hzero hleading hdigits =>
    dsimp only at h
    split at h
    next =>
      cases h
      have hhead : ds.head? ≠ some 0 := by
        intro heq
        obtain ⟨rest, rfl⟩ := List.head?_eq_some_iff.mp heq
        exact hleading rest rfl
      have hback := digits_ofDigits (text_of_digits hdigits).2 hhead
      have hpos : ofDigits ds ≠ 0 := by
        intro hval
        rw [hval, Nat.digits_zero, List.reverse_nil] at hback
        exact hne hback.symm
      rw [hdigits]
      change _ = some (if ofDigits ds = 0 then [0] else (Nat.digits 10 (ofDigits ds)).reverse)
      rw [if_neg hpos, hback]
    next => cases h

/-- An array index is spelled in one way only. -/
theorem arrayIndex?_inj {k l : JsString} {i : Nat} (hk : arrayIndex? k = some i)
    (hl : arrayIndex? l = some i) : k = l := by
  rw [(text_of_digits (digits_of_arrayIndex? hk)).1, (text_of_digits (digits_of_arrayIndex? hl)).1]

namespace Props

theorem mem_keys_insertIndex {i : Nat} {key k : JsString} {value : α} {props : List (JsString × α)} :
    k ∈ InsertionMap.keys (insertIndex i key value props) ↔ k = key ∨ k ∈ InsertionMap.keys props := by
  rw [InsertionMap.keys, ((keys_insertIndex_perm i key value props).map Prod.fst).mem_iff]
  exact List.mem_cons

/-- A new array index is placed so that the keys stay in order. -/
theorem ordered_insertIndex {i : Nat} {key : JsString} {value : α} {props : List (JsString × α)}
    (hindex : arrayIndex? key = some i) (hnew : key ∉ InsertionMap.keys props)
    (h : Ordered (InsertionMap.keys props)) :
    Ordered (InsertionMap.keys (insertIndex i key value props)) := by
  induction props with
  | nil => exact List.pairwise_singleton _ _
  | cons p props ih =>
      obtain ⟨hfirst, hrest⟩ := List.pairwise_cons.mp h
      have hne : p.1 ≠ key := fun heq => hnew (heq ▸ List.mem_cons_self)
      have hfresh : key ∉ InsertionMap.keys props := fun hmem => hnew (List.mem_cons_of_mem _ hmem)
      have hfront : (∀ j, arrayIndex? p.1 = some j → i < j) →
          Ordered (InsertionMap.keys ((key, value) :: p :: props)) := by
        intro hbefore
        refine List.pairwise_cons.mpr ⟨fun l hl => ⟨?_, fun j hj => ⟨i, hindex, ?_⟩⟩, h⟩
        · rintro rfl
          exact hnew hl
        rcases List.mem_cons.mp hl with rfl | hl
        · exact hbefore j hj
        · obtain ⟨k, hk, hlt⟩ := (hfirst l hl).2 j hj
          exact (hbefore k hk).trans hlt
      unfold insertIndex
      split
      next j hj =>
        split
        next hlt =>
          refine hfront fun k hk => ?_
          obtain rfl := Option.some.inj (hj.symm.trans hk)
          exact hlt
        next hle =>
          refine List.pairwise_cons.mpr ⟨fun l hl => ?_, ih hfresh hrest⟩
          rcases mem_keys_insertIndex.mp hl with rfl | hl
          · refine ⟨hne, fun k hk => ⟨j, hj, ?_⟩⟩
            obtain rfl := Option.some.inj (hindex.symm.trans hk)
            refine lt_of_le_of_ne (not_lt.mp hle) fun heq => hne ?_
            exact arrayIndex?_inj (heq ▸ hj) hindex
          · exact hfirst l hl
      next hnone =>
        refine hfront fun k hk => ?_
        cases hnone.symm.trans hk

theorem ordered_set {key : JsString} {value : α} {props : List (JsString × α)}
    (h : Ordered (InsertionMap.keys props)) : Ordered (InsertionMap.keys (set props key value)) := by
  unfold set
  split
  next => exact h
  next =>
    split
    next hold => rwa [InsertionMap.keys_set_of_mem (InsertionMap.get?_isSome_iff.mp hold)]
    next hnew =>
      have hkey : key ∉ InsertionMap.keys props := by
        rw [← InsertionMap.get?_eq_none_iff]
        simpa [get?] using hnew
      split
      next i hi => exact ordered_insertIndex hi hkey h
      next hplain =>
        rw [InsertionMap.keys, List.map_append]
        refine List.pairwise_append.mpr ⟨h, List.pairwise_singleton _ _, fun k hk l hl => ?_⟩
        obtain rfl := List.mem_singleton.mp hl
        refine ⟨fun heq => hkey (heq ▸ hk), fun j hj => ?_⟩
        cases hplain.symm.trans hj

/-- However the entries come, `Object.keys` lists array indices first, ascending. -/
theorem ordered_ofEntries (entries : List (JsString × α)) :
    Ordered (InsertionMap.keys (ofEntries entries)) := by
  induction entries using List.reverseRecOn with
  | nil => exact List.Pairwise.nil
  | append_singleton entries e ih =>
      rw [ofEntries_concat]
      exact ordered_set ih

/-- An object that is copied key by key is the same object. -/
theorem ofEntries_ofEntries (entries : List (JsString × α)) :
    ofEntries (ofEntries entries) = ofEntries entries := by
  refine ofEntries_of_ordered ?_ (ordered_ofEntries entries)
  exact InsertionMap.get?_eq_none_iff.mp (get?_protoKey_ofEntries entries)

end Props

end OpcUaSuite.Js
