import OpcUaSuite.Variants.Delivered

/-!
# Shape and elements of a write

A value that a read delivered is written back as a Variant of its type, its shape and
its elements, unless it is a typed array, holds a null byte string or is an array of
Variants. In auto mode
the first element alone decides the DataType of an array.
-/

namespace OpcUaSuite.Variants

open Js

variable {lib : Library} {rt : Runtime} {t : DataType} {shape : ArrayType}
  {v datatype arrayType : Value}

/-- The elements are held by a JS array, none is a null byte string and none a Variant. -/
def PlainForm (t : DataType) (v : Value) : Prop :=
  t ≠ .Variant ∧ (∀ kind items, v ≠ .typedArray kind items) ∧
    (t = .ByteString → v ≠ .null ∧ ∀ items, v = .array items → .null ∉ items)

/-- The write is a Variant of the type and the shape that holds the value. -/
def WritesBack (lib : Library) (rt : Runtime) (t : DataType) (shape : ArrayType)
    (v datatype arrayType : Value) : Prop :=
  ∃ held, buildVariant lib rt v datatype arrayType = .ok (.variant t shape held) ∧
    Holds shape held v

theorem not_writesBack {message : JsString}
    (h : buildVariant lib rt v datatype arrayType = .error message) :
    ¬ WritesBack lib rt t shape v datatype arrayType := by
  rintro ⟨held, hbuild, -⟩
  cases hbuild.symm.trans h

/-! ## Scalars -/

/-- An element is no Variant, or its type is. -/
theorem Element.ne_variant (h : Element t v) (ht : t ≠ .Variant) :
    ∀ s a w, v ≠ .variant s a w := by
  rintro s a w rfl
  cases t <;> simp_all [Element]

/-- What a read delivers for an element is not converted. -/
theorem coerceScalar_element (h : Element t v) (hnull : t = .ByteString → v ≠ .null) :
    coerceScalar lib rt t v = .ok v := by
  cases t with
  | Boolean =>
      obtain ⟨b, rfl⟩ := h
      rfl
  | String =>
      rcases h with rfl | ⟨s, rfl⟩ <;> rfl
  | DateTime =>
      obtain ⟨ms, rfl⟩ := h
      rfl
  | ByteString =>
      rcases h with rfl | ⟨bytes, rfl⟩
      · exact absurd rfl (hnull rfl)
      · rfl
  | NodeId =>
      obtain ⟨id, rfl⟩ := h
      rfl
  | ExpandedNodeId =>
      obtain ⟨id, rfl⟩ := h
      rfl
  | Int64 | UInt64 =>
      obtain ⟨high, low, rfl, -⟩ := h
      rfl
  | _ => rfl

/-! ## Arrays -/

theorem mapM_eq_self {f : Value → Except JsString Value} {items : List Value}
    (h : ∀ v ∈ items, f v = .ok v) : items.mapM f = .ok items := by
  induction items with
  | nil => rfl
  | cons v items ih =>
      rw [List.mapM_cons, h v List.mem_cons_self,
        ih fun w hw => h w (List.mem_cons_of_mem _ hw)]
      rfl

theorem mapM_error {f : Value → Except JsString Value} {items : List Value}
    (hitem : v ∈ items) (h : ∃ message, f v = .error message) :
    ∃ message, items.mapM f = .error message := by
  induction items with
  | nil => cases hitem
  | cons w items ih =>
      rw [List.mapM_cons]
      cases hw : f w with
      | error message => exact ⟨message, rfl⟩
      | ok w' =>
          rcases List.mem_cons.mp hitem with rfl | hmem
          · obtain ⟨message, herror⟩ := h
            rw [hw] at herror
            cases herror
          · obtain ⟨message, herror⟩ := ih hmem
            refine ⟨message, ?_⟩
            rw [herror]
            rfl

/-- The JS array of a 64-bit integer is a scalar. -/
theorem asArray_element (h : Element t v) : asArray false (some t) v = false := by
  cases v with
  | array items =>
      cases t with
      | Int64 | UInt64 =>
          obtain ⟨high, low, heq, hhigh, hlow⟩ := h
          have hinteger : ∀ n : Nat, n < 2 ^ 32 → (Double.ofInt n).isInteger = true := by
            intro n hn
            exact (Double.denotes_ofInt (by omega)).isInteger
          obtain rfl := Value.array.inj heq
          simp [asArray, isScalarArrayForm, Value.isInteger, hinteger high hhigh,
            hinteger low hlow]
      | _ => simp_all [Element]
  | _ => rfl

/-! ## A DataType is given -/

/-- A typed Variant is built from what the conversion gives. -/
theorem buildTyped_ok (hlib : lib.Documented) (hdelivered : Delivered t shape v)
    (harray : (wantsArray arrayType && !v.isArray) = false)
    (hshape : (if asArray (wantsArray arrayType) (some t) v then ArrayType.Array else .Scalar) =
      shape)
    (hconvert : convert lib rt t (asArray (wantsArray arrayType) (some t) v) v = .ok v) :
    ∃ held, buildTyped lib rt v (some t) arrayType = .ok (.variant t shape held) ∧
      Holds shape held v := by
  obtain ⟨held, haccepts, hholds⟩ := hlib.accepts hdelivered
  refine ⟨held, ?_, hholds⟩
  have hchosen : chosenType (some t) v = some t := rfl
  dsimp only [buildTyped]
  rw [hchosen, harray]
  simp only [Bool.false_eq_true, if_false, hconvert]
  rw [hshape, haccepts]

theorem buildTyped_error (h : ∃ message,
      convert lib rt t (asArray (wantsArray arrayType) (some t) v) v = .error message) :
    ∃ message, buildTyped lib rt v (some t) arrayType = .error message := by
  obtain ⟨message, hconvert⟩ := h
  rw [buildTyped]
  simp only [chosenType, Option.some_or, hconvert]
  split <;> exact ⟨_, rfl⟩

/-- A scalar is written as one. -/
theorem buildVariant_scalar_iff (hlib : lib.Documented) (ht : t ≠ .Variant) (h : Element t v)
    (hname : Names datatype t) (hwants : wantsArray arrayType = false) :
    WritesBack lib rt t .Scalar v datatype arrayType ↔ PlainForm t v := by
  have hbuilt : buildVariant lib rt v datatype arrayType = _ :=
    buildVariant_of_names hname ht (h.ne_variant ht)
  have hform := asArray_element h
  by_cases hnull : t = .ByteString ∧ v = .null
  · obtain ⟨rfl, rfl⟩ := hnull
    have herror : ∃ message, convert lib rt .ByteString
        (asArray (wantsArray arrayType) (some .ByteString) .null) .null = .error message := by
      rw [hwants]
      exact ⟨_, rfl⟩
    obtain ⟨message, hbuild⟩ := buildTyped_error herror
    exact iff_of_false (not_writesBack (hbuilt.trans hbuild))
      fun hplain => (hplain.2.2 rfl).1 rfl
  · have hcoerce : coerceScalar lib rt t v = .ok v :=
      coerceScalar_element h fun ht hv => hnull ⟨ht, hv⟩
    rw [WritesBack, hbuilt]
    refine iff_of_true (buildTyped_ok hlib (.scalar ht h) ?_ ?_ ?_) ⟨ht, ?_, ?_⟩
    · rw [hwants]
      rfl
    · rw [hwants, hform]
      rfl
    · rw [hwants, hform]
      cases v <;> exact hcoerce
    · rintro kind items rfl
      cases t <;> simp_all [Element]
    · rintro rfl
      refine ⟨fun hv => hnull ⟨rfl, hv⟩, ?_⟩
      rintro items rfl
      rcases h with h | ⟨bytes, h⟩ <;> cases h

/-- A JS array is written with its elements. -/
theorem buildVariant_array_iff (hlib : lib.Documented) {items : List Value} (ht : t ≠ .Variant)
    (hnothing : t ≠ .Null) (h : ∀ v ∈ items, Element t v) (hname : Names datatype t)
    (hwants : wantsArray arrayType = true) :
    WritesBack lib rt t .Array (.array items) datatype arrayType ↔ PlainForm t (.array items) := by
  have hbuilt : buildVariant lib rt (.array items) datatype arrayType = _ :=
    buildVariant_of_names hname ht (by rintro _ _ _ h; cases h)
  by_cases hnull : t = .ByteString ∧ Value.null ∈ items
  · obtain ⟨rfl, hmem⟩ := hnull
    have herror : ∃ message, convert lib rt .ByteString
        (asArray (wantsArray arrayType) (some .ByteString) (.array items)) (.array items) =
          .error message := by
      obtain ⟨message, hmap⟩ := mapM_error (f := coerceScalar lib rt .ByteString) hmem ⟨_, rfl⟩
      rw [hwants]
      refine ⟨message, ?_⟩
      change (items.mapM (coerceScalar lib rt .ByteString)).map Value.array = _
      rw [hmap]
      rfl
    obtain ⟨message, hbuild⟩ := buildTyped_error herror
    exact iff_of_false (not_writesBack (hbuilt.trans hbuild))
      fun hplain => (hplain.2.2 rfl).2 items rfl hmem
  · have hcoerce : ∀ v ∈ items, coerceScalar lib rt t v = .ok v := by
      intro v hv
      refine coerceScalar_element (h v hv) fun ht hvnull => hnull ⟨ht, ?_⟩
      rw [← hvnull]
      exact hv
    rw [WritesBack, hbuilt]
    refine iff_of_true (buildTyped_ok hlib (.array hnothing h) ?_ ?_ ?_) ⟨ht, nofun, ?_⟩
    · rw [hwants]
      rfl
    · rw [hwants]
      rfl
    · rw [hwants]
      change (items.mapM (coerceScalar lib rt t)).map Value.array = _
      rw [mapM_eq_self hcoerce]
      rfl
    · rintro rfl
      refine ⟨nofun, fun items' heq hmem => hnull ⟨rfl, ?_⟩⟩
      rw [Value.array.inj heq]
      exact hmem

/-- A typed array is refused. -/
theorem buildVariant_typedArray {kind : TypedArray} {items : List Js.Double}
    (ht : t ≠ .Variant) (hname : Names datatype t) (hwants : wantsArray arrayType = true) :
    ∃ message, buildVariant lib rt (.typedArray kind items) datatype arrayType =
      .error message := by
  rw [buildVariant_of_names hname ht (by rintro _ _ _ h; cases h), buildTyped, hwants]
  exact ⟨_, rfl⟩

/-- An array of Variants is written without a DataType. -/
theorem buildVariant_variants (hlib : lib.Documented) {items : List Value}
    (h : ∀ v ∈ items, Element .Variant v) (hname : Names datatype .Variant) :
    ¬ WritesBack lib rt .Variant .Array (.array items) datatype arrayType := by
  rintro ⟨held, hbuild, -⟩
  have hinfer : inferDataType (items.headD .undefined) = none := by
    cases items with
    | nil => rfl
    | cons v items =>
        obtain ⟨s, a, w, rfl⟩ := h v List.mem_cons_self
        rfl
  rw [buildVariant.eq_def] at hbuild
  simp only [resolveDataType_of_names hname] at hbuild
  rw [dif_neg (by rintro ⟨hplain, -⟩; cases hplain), buildTyped] at hbuild
  simp only [chosenType, Option.none_or, hinfer, Value.isArray, Bool.not_true, Bool.and_false,
    Bool.false_eq_true, if_false] at hbuild
  obtain ⟨shape, value, heq⟩ := hlib.untyped hbuild
  cases heq

/-- What a read delivered is written back exactly when it is held plainly. -/
theorem buildVariant_delivered_iff (hlib : lib.Documented) (h : Delivered t shape v)
    (hname : Names datatype t) (hwants : wantsArray arrayType = decide (shape = .Array)) :
    WritesBack lib rt t shape v datatype arrayType ↔ PlainForm t v := by
  cases h with
  | scalar ht h => exact buildVariant_scalar_iff hlib ht h hname hwants
  | array hnothing h =>
      by_cases ht : t = .Variant
      · subst ht
        exact iff_of_false (buildVariant_variants hlib h hname) fun hplain => hplain.1 rfl
      · exact buildVariant_array_iff hlib ht hnothing h hname hwants
  | typed hkind h =>
      have ht : t ≠ .Variant := by
        rintro rfl
        cases hkind
      obtain ⟨message, hbuild⟩ := buildVariant_typedArray ht hname hwants
      exact iff_of_false (not_writesBack hbuild) fun hplain => hplain.2.1 _ _ rfl

/-! ## Auto mode -/

/-- The values an array without a DataType can hold. -/
def Inferable : Value → Prop
  | .num _ | .bool _ | .str _ | .bigint _ | .date _ | .buffer _ => True
  | _ => False

/-- The 100 ns since 1601 of a time value are an Int64 from zero on. -/
def FitsDateTime (ms : Int) : Prop :=
  0 ≤ (ms + 11644473600000) * 10000 ∧ (ms + 11644473600000) * 10000 < 2 ^ 63

/-- The values of the DataTypes that are inferred. -/
def Admits : DataType → Value → Prop
  | .Boolean, .bool _ => True
  | .Int32, .num d => d.isInteger = true ∧ -2 ^ 31 ≤ d.trunc ∧ d.trunc < 2 ^ 31
  | .Double, .num _ => True
  | .String, .str _ => True
  | .Int64, .bigint i => -2 ^ 63 ≤ i ∧ i < 2 ^ 63
  | .DateTime, .date (some ms) => FitsDateTime ms
  | .ByteString, .buffer _ => True
  | _, _ => False

/-- One DataType is chosen in whatever order the elements stand, and it admits them all. -/
def AutoFaithful (items : List Value) : Prop :=
  ∃ t, (∀ v ∈ items, Admits t v) ∧
    ∀ items', items'.Perm items → chosenType none (.array items') = some t

/-- An integral number is an Int32, a BigInt an Int64 and a date a DateTime. -/
def FitsInferred : Value → Prop
  | .num d => d.isInteger = true → -2 ^ 31 ≤ d.trunc ∧ d.trunc < 2 ^ 31
  | .bigint i => -2 ^ 63 ≤ i ∧ i < 2 ^ 63
  | .date (some ms) => FitsDateTime ms
  | .date none => False
  | _ => True

theorem inferDataType_isSome {v : Value} (h : Inferable v) : ∃ t, inferDataType v = some t := by
  cases v <;> first | exact ⟨_, rfl⟩ | cases h

/-- The DataType inferred from a value admits it exactly when the value fits. -/
theorem admits_iff {v : Value} {t : DataType} (h : Inferable v) (ht : inferDataType v = some t) :
    Admits t v ↔ FitsInferred v := by
  cases v with
  | num d =>
      rw [inferDataType] at ht
      obtain rfl := Option.some.inj ht
      cases hd : d.isInteger with
      | true => simp [Admits, FitsInferred, hd]
      | false => simp [Admits, FitsInferred, hd]
  | bigint i | bool b | str s | buffer bytes =>
      obtain rfl := Option.some.inj ht
      rfl
  | date time =>
      obtain rfl := Option.some.inj ht
      cases time <;> rfl
  | _ => cases h

/-- Only elements of one inferred type leave the choice to no order. -/
theorem autoFaithful_iff {items : List Value} (hne : items ≠ [])
    (hitems : ∀ v ∈ items, Inferable v) :
    AutoFaithful items ↔
      (∀ v ∈ items, ∀ w ∈ items, inferDataType v = inferDataType w) ∧
        ∀ v ∈ items, FitsInferred v := by
  constructor
  · rintro ⟨t, hadmits, hperm⟩
    have hinfer : ∀ v ∈ items, inferDataType v = some t := by
      intro v hv
      -- each element stands first in one of the orders
      obtain ⟨start, rest, rfl⟩ := List.append_of_mem hv
      exact hperm (v :: (start ++ rest)) List.perm_middle.symm
    refine ⟨fun v hv w hw => (hinfer v hv).trans (hinfer w hw).symm, fun v hv => ?_⟩
    exact (admits_iff (hitems v hv) (hinfer v hv)).mp (hadmits v hv)
  · rintro ⟨hsame, hfits⟩
    obtain ⟨first, rest, rfl⟩ := List.exists_cons_of_ne_nil hne
    obtain ⟨t, ht⟩ := inferDataType_isSome (hitems first List.mem_cons_self)
    have hinfer : ∀ v ∈ first :: rest, inferDataType v = some t := fun v hv =>
      (hsame v hv first List.mem_cons_self).trans ht
    refine ⟨t, fun v hv => ?_, fun items' hperm => ?_⟩
    · exact (admits_iff (hitems v hv) (hinfer v hv)).mpr (hfits v hv)
    · cases items' with
      | nil => exact absurd hperm.nil_eq (List.cons_ne_nil _ _).symm
      | cons v items' => exact hinfer v (hperm.mem_iff.mp List.mem_cons_self)

/-- A write keeps shape and elements of what was read exactly where the elements are
held plainly; in auto mode an array is typed faithfully exactly where its elements
are of one inferred type that has room for them. -/
theorem writeConversion_faithful_iff (rt : Runtime) (hlib : lib.Documented) :
    (∀ t shape v datatype arrayType, Delivered t shape v → Names datatype t →
      wantsArray arrayType = decide (shape = .Array) →
      (WritesBack lib rt t shape v datatype arrayType ↔ PlainForm t v)) ∧
    ∀ items, items ≠ [] → (∀ v ∈ items, Inferable v) →
      (AutoFaithful items ↔
        (∀ v ∈ items, ∀ w ∈ items, inferDataType v = inferDataType w) ∧
          ∀ v ∈ items, FitsInferred v) :=
  ⟨fun _ _ _ _ _ h hname hwants => buildVariant_delivered_iff hlib h hname hwants,
    fun _ hne hitems => autoFaithful_iff hne hitems⟩

/-- The words of a 64-bit integer. -/
def sevenWords : Value :=
  .array [.num (Double.ofInt (0 : Nat)), .num (Double.ofInt (7 : Nat))]

theorem sevenWords_written :
    WritesBack literalLibrary plainRuntime .Int64 .Scalar sevenWords (.str (js "Int64")) .null ∧
    WritesBack literalLibrary plainRuntime .Double .Array sevenWords (.str (js "Double"))
      (.str (js "Array")) ∧
    AutoFaithful [.bool true, .bool false] := by
  obtain ⟨hgiven, hauto⟩ := writeConversion_faithful_iff plainRuntime literalLibrary_documented
  have hwords : Delivered .Int64 .Scalar sevenWords :=
    .scalar (by decide) ⟨0, 7, rfl, by decide, by decide⟩
  have hdoubles : Delivered .Double .Array sevenWords :=
    .array (by decide) (by simp [Element])
  refine ⟨(hgiven _ _ _ _ _ hwords (Or.inl rfl) rfl).mpr ⟨by decide, nofun, nofun⟩,
    (hgiven _ _ _ _ _ hdoubles (Or.inl rfl) rfl).mpr ⟨by decide, nofun, nofun⟩, ?_⟩
  exact (hauto _ (List.cons_ne_nil _ _) (by simp [Inferable])).mpr
    ⟨by simp [inferDataType], by simp [FitsInferred]⟩

/-- The typed array a read of UInt16 elements delivers is refused. -/
theorem typedArray_refused :
    ¬ ∀ t shape v datatype arrayType, Delivered t shape v → Names datatype t →
      wantsArray arrayType = decide (shape = .Array) →
      WritesBack literalLibrary plainRuntime t shape v datatype arrayType := by
  intro h
  have hone : Delivered .UInt16 .Array (.typedArray .Uint16 [Double.ofInt (1 : Nat)]) := by
    refine .typed rfl fun d hd => ?_
    obtain rfl := List.mem_singleton.mp hd
    exact ⟨1, 0, 2 ^ 16, rfl, rfl, by decide, by decide⟩
  have hname : Names (.str (js "UInt16")) .UInt16 := Or.inl rfl
  have hwants : wantsArray (.str (js "Array")) = true := rfl
  obtain ⟨message, hbuild⟩ := buildVariant_typedArray (by decide) hname hwants
  exact not_writesBack hbuild (h _ _ _ _ _ hone hname hwants)

end OpcUaSuite.Variants
