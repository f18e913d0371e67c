import OpcUaSuite.Utils.StrictNodeId
import OpcUaSuite.Variants.Build

/-!
# What a read delivers, and what the library does

The values a read hands over for each DataType, and the assumptions on the
library: its Variant constructor takes what a read delivers under the types given,
with the elements of an array in an array of its own, and it reads a NodeId text
literally.
-/

namespace OpcUaSuite.Variants

open Js Utils

/-! ## Elements -/

namespace DataType

/-- The range of an integer type, without its upper bound. -/
def range? : DataType → Option (Int × Int)
  | .SByte => some (-2 ^ 7, 2 ^ 7)
  | .Byte => some (0, 2 ^ 8)
  | .Int16 => some (-2 ^ 15, 2 ^ 15)
  | .UInt16 => some (0, 2 ^ 16)
  | .Int32 => some (-2 ^ 31, 2 ^ 31)
  | .UInt32 => some (0, 2 ^ 32)
  | _ => none

/-- The typed array of a numeric type. -/
def typedArray? : DataType → Option TypedArray
  | .SByte => some .Int8
  | .Byte => some .Uint8
  | .Int16 => some .Int16
  | .UInt16 => some .Uint16
  | .Int32 => some .Int32
  | .UInt32 => some .Uint32
  | .Float => some .Float32
  | .Double => some .Float64
  | _ => none

end DataType

/-- A value of the type, alone or in an array. Texts and byte strings can be null,
and a 64-bit integer is its high and its low word. -/
def Element (t : DataType) (v : Value) : Prop :=
  match t with
  | .Null => v = .null
  | .Boolean => ∃ b, v = .bool b
  | .SByte | .Byte | .Int16 | .UInt16 | .Int32 | .UInt32 =>
      ∃ i lo hi, v = .num (Double.ofInt i) ∧ t.range? = some (lo, hi) ∧ lo ≤ i ∧ i < hi
  | .Int64 | .UInt64 =>
      ∃ high low : Nat, v = .array [.num (Double.ofInt high), .num (Double.ofInt low)] ∧
        high < 2 ^ 32 ∧ low < 2 ^ 32
  | .Float => ∃ d, v = .num d ∧ d.fround = d
  | .Double => ∃ d, v = .num d
  | .String | .XmlElement => v = .null ∨ ∃ s, v = .str s
  | .DateTime => ∃ ms, v = .date (some ms)
  | .Guid => ∃ s, v = .str s
  | .ByteString => v = .null ∨ ∃ bytes, v = .buffer bytes
  | .NodeId => ∃ id, v = .nodeId id
  | .ExpandedNodeId => ∃ id, v = .expandedNodeId id
  | .Variant => ∃ s a w, v = .variant s a w
  | .StatusCode | .QualifiedName | .LocalizedText | .ExtensionObject | .DataValue
  | .DiagnosticInfo => ∃ props, v = .library t props

/-- What a read delivers: a scalar, an array of elements, or the typed array of a
numeric type. A Variant is held by an array only, and there is no array of nothing. -/
inductive Delivered (t : DataType) : ArrayType → Value → Prop
  | scalar {v : Value} (ht : t ≠ .Variant) (h : Element t v) : Delivered t .Scalar v
  | array {items : List Value} (ht : t ≠ .Null) (h : ∀ v ∈ items, Element t v) :
      Delivered t .Array (.array items)
  | typed {kind : TypedArray} {items : List Js.Double} (hkind : t.typedArray? = some kind)
      (h : ∀ d ∈ items, Element t (.num d)) : Delivered t .Array (.typedArray kind items)

/-- The elements of an array, plain or typed. -/
def elements? : Value → Option (List Value)
  | .array items => some items
  | .typedArray _ items => some (items.map .num)
  | _ => none

/-- What a Variant holds for a value: the value itself, or the elements of an array
in a plain or a typed array. -/
def Holds (shape : ArrayType) (held v : Value) : Prop :=
  match shape with
  | .Array => ∃ items, elements? v = some items ∧ elements? held = some items
  | .Scalar | .Matrix => held = v

/-- The assumptions on the Variant constructor of the library. -/
structure Library.Documented (lib : Library) : Prop where
  /-- The constructor takes what a read delivers, under the types given; it makes a
  typed array of the elements of a numeric type. -/
  accepts : ∀ {t shape v}, Delivered t shape v →
    ∃ held, lib.newVariant ⟨some t, some shape, v⟩ = .ok (.variant t shape held) ∧
      Holds shape held v
  /-- Without a DataType the Variant is one of the type Null. -/
  untyped : ∀ {arrayType v w}, lib.newVariant ⟨none, arrayType, v⟩ = .ok w →
    ∃ shape value, w = .variant .Null shape value

/-- The assumptions on the NodeIds of the library. -/
structure Library.ReadsNodeIds (lib : Library) : Prop where
  /-- `ns=<n>;<t>=<v>` is read literally. -/
  literal : ∀ {n : JsString} {t : UInt16} (v : JsString), (∀ u ∈ n, u ≠ 59) →
    t ∈ [105, 115, 103, 98] →
      lib.resolveNodeId (js "ns=" ++ n ++ 59 :: t :: 61 :: v) = .ok ⟨n, t, v⟩
  /-- A Variant keeps the NodeId it is made of. -/
  keeps : ∀ id, lib.newVariant ⟨some .NodeId, some .Scalar, .nodeId id⟩ =
    .ok (.variant .NodeId .Scalar (.nodeId id))

/-- A configured DataType, by its name or by its number. -/
def Names (datatype : Value) (t : DataType) : Prop :=
  datatype = .str t.name ∨ datatype = .num (Double.ofInt t.ordinal)

/-! ## A library and a runtime -/

/-- The numbers among values. -/
def numbers (items : List Value) : List Js.Double :=
  items.filterMap fun
    | .num d => some d
    | _ => none

/-- The typed array that is made of a plain array of a numeric type. -/
def inTypedArray (t : DataType) (shape : ArrayType) (v : Value) : Value :=
  match shape, t.typedArray?, v with
  | .Array, some kind, .array items => .typedArray kind (numbers items)
  | _, _, _ => v

/-- A library that keeps what it is given, numbers of an array in a typed array. -/
def literalLibrary : Library where
  resolveNodeId s :=
    match (s.dropWhile (· != 59)).drop 1 with
    | t :: 61 :: v => .ok ⟨namespaceText s, t, v⟩
    | _ => .error (js "Invalid NodeId")
  newVariant options :=
    match options.dataType with
    | some t =>
        let shape := options.arrayType.getD .Scalar
        .ok (.variant t shape (inTypedArray t shape options.value))
    | none => .ok (.variant .Null .Scalar .null)

theorem Element.number {t : DataType} {kind : TypedArray} {v : Value} (h : Element t v)
    (ht : t.typedArray? = some kind) : ∃ d, v = .num d := by
  cases t with
  | SByte | Byte | Int16 | UInt16 | Int32 | UInt32 =>
      obtain ⟨i, -, -, rfl, -⟩ := h
      exact ⟨_, rfl⟩
  | Float =>
      obtain ⟨d, rfl, -⟩ := h
      exact ⟨d, rfl⟩
  | Double => exact h
  | _ => cases ht

theorem map_numbers {items : List Value} (h : ∀ v ∈ items, ∃ d, v = .num d) :
    (numbers items).map .num = items := by
  induction items with
  | nil => rfl
  | cons v items ih =>
      obtain ⟨⟨d, rfl⟩, hrest⟩ := List.forall_mem_cons.mp h
      exact congrArg (Value.num d :: ·) (ih hrest)

/-- A typed array has the elements of the plain one. -/
theorem Delivered.holds_inTypedArray {t : DataType} {shape : ArrayType} {v : Value}
    (h : Delivered t shape v) : Holds shape (inTypedArray t shape v) v := by
  cases h with
  | scalar ht h => rfl
  | typed hkind h => exact ⟨_, rfl, by cases t <;> rfl⟩
  | @array items ht h =>
      refine ⟨items, rfl, ?_⟩
      unfold inTypedArray
      cases hkind : t.typedArray? with
      | none => rfl
      | some kind => exact congrArg some (map_numbers fun v hv => (h v hv).number hkind)

theorem literalLibrary_documented : literalLibrary.Documented where
  accepts h := ⟨_, rfl, h.holds_inTypedArray⟩
  untyped h := ⟨.Scalar, .null, (Except.ok.inj h).symm⟩

theorem literalLibrary_readsNodeIds : literalLibrary.ReadsNodeIds where
  keeps _ := rfl
  literal := by
    intro n t v hn _
    obtain ⟨hhead, hrest⟩ := split_namespace (by simpa using hn) (t :: 61 :: v)
    have hnamespace : namespaceText (js "ns=" ++ n ++ 59 :: t :: 61 :: v) = n := by
      rw [namespaceText, hhead]
      rfl
    change (match ((js "ns=" ++ n ++ 59 :: t :: 61 :: v).dropWhile (· != 59)).drop 1 with
      | t :: 61 :: v' => Except.ok (LibraryNodeId.mk (namespaceText _) t v')
      | _ => .error (js "Invalid NodeId")) = _
    rw [hrest, hnamespace]
    rfl

/-- A runtime that makes nothing of the values it is given. -/
def plainRuntime : Runtime where
  host := Host.inert
  stringify _ := none
  string _ := []
  timeOf _ := none
  bytesOf _ := .error []
  inheritedText _ := []

/-! ## The DataType given -/

variable {lib : Library} {rt : Runtime} {t : DataType}

theorem trim_name (t : DataType) : trim t.name = t.name ∧ t.name ∉ autoNames := by
  cases t <;> decide +kernel

/-- A DataType given by name or number is resolved. -/
theorem resolveDataType_of_names {datatype : Value} (h : Names datatype t) :
    resolveDataType rt datatype = .ok (some t) := by
  rcases h with rfl | rfl
  · obtain ⟨htrim, hauto⟩ := trim_name t
    simp only [resolveDataType, htrim, if_neg hauto, DataType.ofName?_name]
  · have hsmall : t.ordinal < 26 := by cases t <;> decide
    have hd : (Double.ofInt t.ordinal).Denotes t.ordinal := Double.denotes_ofInt (by omega)
    simp [resolveDataType, hd.isInteger, hd.trunc, DataType.getElem?_ordinal]

theorem buildVariant_of_names {v datatype arrayType : Value} (h : Names datatype t)
    (ht : t ≠ .Variant) (hv : ∀ s a w, v ≠ .variant s a w) :
    buildVariant lib rt v datatype arrayType = buildTyped lib rt v (some t) arrayType := by
  rw [buildVariant.eq_def]
  split
  next s a w => exact absurd rfl (hv s a w)
  next =>
    rw [resolveDataType_of_names h]
    split
    next heq => cases heq
    next heq => exact absurd (Option.some.inj (Except.ok.inj heq)) ht
    next heq => rw [Except.ok.inj heq]

end OpcUaSuite.Variants
