import OpcUaSuite.JsonEncoder.Codec
import OpcUaSuite.Uadp.RoundTrip

/-!
# The JSON round trip of a value

A value in the domain of its type is always printed. It comes back as it was
unless a JSON number cannot hold it, or it is an array of a type the decoder
converts as a whole.
-/

namespace OpcUaSuite.JsonEncoder

open Js ByteCodec PubSub Utils BinaryFloat
open Uadp (BuiltInType IntegerIn BigIntIn Optional elements isArray unsignZero)

/-! ## Types and their values -/

/-- The types of `UA_TYPE`. -/
inductive UaType
  | builtIn (t : BuiltInType)
  | nodeId
deriving DecidableEq

namespace UaType

def ordinal : UaType → Nat
  | .builtIn t => t.ordinal
  | .nodeId => nodeIdOrdinal

/-- The types whose values `_convertValueFromJson` converts, arrays included. -/
def converted : UaType → Bool
  | .builtIn .Int64 | .builtIn .UInt64 | .builtIn .DateTime | .builtIn .ByteString | .nodeId => true
  | _ => false

def isFloat : UaType → Bool
  | .builtIn .Float | .builtIn .Double => true
  | _ => false

end UaType

/-- The type a Variant names. -/
def typeOf? (dataType : DataTypeRef) : Option UaType :=
  match uaTypeOf dataType with
  | .number n => if n = nodeIdOrdinal then some .nodeId else (BuiltInType.ofOrdinal? n).map .builtIn
  | _ => none

/-- The values of a type, null aside. -/
def InDomain (t : UaType) (v : JsValue) : Prop :=
  match t with
  | .builtIn .Boolean => ∃ b, v = .bool b
  | .builtIn .SByte => IntegerIn (-2 ^ 7) (2 ^ 7 - 1) v
  | .builtIn .Byte => IntegerIn 0 (2 ^ 8 - 1) v
  | .builtIn .Int16 => IntegerIn (-2 ^ 15) (2 ^ 15 - 1) v
  | .builtIn .UInt16 => IntegerIn 0 (2 ^ 16 - 1) v
  | .builtIn .Int32 => IntegerIn (-2 ^ 31) (2 ^ 31 - 1) v
  | .builtIn .UInt32 | .builtIn .StatusCode => IntegerIn 0 (2 ^ 32 - 1) v
  | .builtIn .Int64 => BigIntIn (-2 ^ 63) (2 ^ 63 - 1) v
  | .builtIn .UInt64 => BigIntIn 0 (2 ^ 64 - 1) v
  | .builtIn .Float | .builtIn .Double => ∃ d, v = .num d
  | .builtIn .String | .builtIn .Guid => ∃ s, v = .str s
  | .builtIn .DateTime => ∃ time, v = .date (some time) ∧ time.natAbs ≤ maxTime
  | .builtIn .ByteString => ∃ bytes, v = .buffer bytes
  | .nodeId => ∃ n : NodeId, n.InRange ∧ ∃ props, v = .object props ∧ props.Perm n.props

def ScalarInDomain (t : UaType) (v : JsValue) : Prop := v = .null ∨ InDomain t v

/-- The same scalar: integers have one zero, and the members of a NodeId object
have no order. -/
def SameScalar (t : UaType) (v w : JsValue) : Prop :=
  if t.isFloat then w = v
  else w = unsignZero v ∨ ∃ props props', v = .object props ∧ w = .object props' ∧ props'.Perm props

/-- A null, a scalar or an array of these. -/
def ValueInDomain (t : UaType) (v : JsValue) : Prop := ∀ x ∈ elements v, ScalarInDomain t x

/-- The same scalar, or an array of the same scalars. -/
def SameValue (t : UaType) (v w : JsValue) : Prop :=
  isArray w = isArray v ∧ List.Forall₂ (SameScalar t) (elements v) (elements w)

/-- A JSON number is finite, and its zero has no sign. -/
def Printable (t : UaType) (v : JsValue) : Prop :=
  t.isFloat = true → ∀ d, v = .num d → d.isFinite = true ∧ d ≠ Double.negZero

/-- What a text can hold: printable scalars, and arrays of the types that are not
converted as a whole. -/
structure ValueKept (t : UaType) (v : JsValue) : Prop where
  printable : ∀ x ∈ elements v, Printable t x
  plain : isArray v = true → t.converted = false

variable {host : Host}

theorem isZero_cases {d : Double} (h : d.isZero = true) : d = Double.zero ∨ d = Double.negZero := by
  cases d with
  | nan => cases h
  | inf neg => cases h
  | finite neg exp frac =>
      simp only [Value.isZero, decide_eq_true_eq] at h
      obtain ⟨hexp, hfrac⟩ := h
      have hexp' : exp = ⟨0, by decide⟩ := Fin.ext hexp
      have hfrac' : frac = ⟨0, by decide⟩ := Fin.ext hfrac
      subst hexp' hfrac'
      cases neg
      · exact Or.inl rfl
      · exact Or.inr rfl

/-- A finite number is printed up to the sign of zero. -/
theorem number_eq (d : Double) :
    Json.number d = if d.isFinite then unsignZero (.num d) else .null := by
  cases d with
  | nan => rfl
  | inf neg => rfl
  | finite neg exp frac =>
      change JsValue.num (if Value.isZero _ then _ else _) = unsignZero _
      split
      next h =>
        rcases isZero_cases h with h | h
        · rw [h]
          decide
        · rw [h]
          decide
      next h =>
        rw [unsignZero, if_neg]
        intro heq
        rw [JsValue.num.injEq] at heq
        rw [heq] at h
        exact h (by decide)

theorem number_cases (d : Double) : Json.number d = .null ∨ ∃ e, Json.number d = .num e := by
  cases d with
  | nan => exact Or.inl rfl
  | inf neg => exact Or.inl rfl
  | finite neg exp frac => exact Or.inr ⟨_, rfl⟩

/-- A number comes back as it was when it is finite and no negative zero. -/
theorem number_eq_self {d : Double} :
    Json.number d = .num d ↔ d.isFinite = true ∧ d ≠ Double.negZero := by
  rw [number_eq]
  by_cases hfinite : d.isFinite = true
  · rw [if_pos hfinite, unsignZero]
    by_cases hzero : d = Double.negZero
    · subst hzero
      decide
    · simp [hfinite, hzero]
  · rw [if_neg hfinite]
    simp [hfinite]

/-! ## Scalars -/

theorem isFinite_of_integerIn {lo hi : Int} {v : JsValue} (hlo : -2 ^ 53 < lo) (hhi : hi < 2 ^ 53)
    (h : IntegerIn lo hi v) : ∃ d : Double, v = .num d ∧ d.isFinite = true := by
  obtain ⟨i, hi₁, hi₂, rfl | ⟨-, rfl⟩⟩ := h
  · exact ⟨_, rfl, (Double.denotes_ofInt (by omega)).isFinite⟩
  · exact ⟨_, rfl, rfl⟩

/-- The values of the types that are printed as JSON values. -/
theorem plain_cases {t : UaType} {v : JsValue} (hplain : t.converted = false)
    (h : ScalarInDomain t v) :
    v = .null ∨ (∃ b, v = .bool b) ∨ (∃ s, v = .str s) ∨
      ∃ d, v = .num d ∧ (t.isFloat = false → d.isFinite = true) := by
  refine h.imp_right fun hv => ?_
  have hinteger : ∀ {lo hi : Int}, -2 ^ 53 < lo → hi < 2 ^ 53 → IntegerIn lo hi v →
      (∃ b, v = .bool b) ∨ (∃ s, v = .str s) ∨
        ∃ d, v = .num d ∧ (t.isFloat = false → d.isFinite = true) := by
    intro lo hi hlo hhi hv
    obtain ⟨d, hd, hfinite⟩ := isFinite_of_integerIn hlo hhi hv
    exact Or.inr (Or.inr ⟨d, hd, fun _ => hfinite⟩)
  cases t with
  | nodeId => cases hplain
  | builtIn t =>
      cases t with
      | Boolean => exact Or.inl hv
      | SByte | Byte | Int16 | UInt16 | Int32 | UInt32 | StatusCode =>
          exact hinteger (by decide) (by decide) hv
      | Int64 | UInt64 | DateTime | ByteString => cases hplain
      | Float | Double =>
          obtain ⟨d, hd⟩ := hv
          exact Or.inr (Or.inr ⟨d, hd, fun hfloat => nomatch hfloat⟩)
      | String | Guid => exact Or.inr (Or.inl hv)

/-- A scalar whose type has no conversion is printed, and what comes back is the
same scalar exactly when it is printable. -/
theorem plain_scalar {t : UaType} {v : JsValue} (hplain : t.converted = false)
    (h : ScalarInDomain t v) :
    ∃ c j, convertValueForJson host v = .ok c ∧ Json.stringify c = .ok (some j) ∧
      plainFromJson j = j ∧ isArray j = false ∧ (SameScalar t v j ↔ Printable t v) := by
  have hsame : ∀ {v : JsValue}, (∀ d, v ≠ .num d) → unsignZero v = v →
      (SameScalar t v v ↔ Printable t v) := by
    intro v hnum hzero
    refine iff_of_true ?_ fun _ d hd => absurd hd (hnum d)
    unfold SameScalar
    split
    · rfl
    · exact Or.inl hzero.symm
  rcases plain_cases hplain h with rfl | ⟨b, rfl⟩ | ⟨s, rfl⟩ | ⟨d, rfl, hfinite⟩
  · exact ⟨.null, .null, rfl, rfl, rfl, rfl, hsame nofun rfl⟩
  · exact ⟨.bool b, .bool b, rfl, rfl, rfl, rfl, hsame nofun rfl⟩
  · exact ⟨.str s, .str s, rfl, rfl, rfl, rfl, hsame nofun rfl⟩
  · refine ⟨.num d, Json.number d, rfl, rfl, ?_, ?_, ?_⟩
    · rcases number_cases d with hd | ⟨e, hd⟩
      · rw [hd]
        rfl
      · rw [hd]
        rfl
    · rcases number_cases d with hd | ⟨e, hd⟩
      · rw [hd]
        rfl
      · rw [hd]
        rfl
    · unfold SameScalar Printable
      cases hfloat : t.isFloat with
      | true =>
          rw [if_pos rfl, number_eq_self]
          refine ⟨fun hd _ e he => ?_, fun hd => hd rfl d rfl⟩
          cases he
          exact hd
      | false =>
          rw [if_neg Bool.false_ne_true, number_eq, if_pos (hfinite hfloat)]
          exact iff_of_true (Or.inl rfl) fun h => nomatch h

theorem ofInt_inj {i j : Int} (hi : i.natAbs < 2 ^ 53) (hj : j.natAbs < 2 ^ 53) :
    Double.ofInt i = Double.ofInt j ↔ i = j := by
  refine ⟨fun h => ?_, fun h => h ▸ rfl⟩
  rw [← (Double.denotes_ofInt hi).trunc, ← (Double.denotes_ofInt hj).trunc, h]

/-- The conversion by the ordinal of a type. -/
theorem convertValueFromJson_ordinal {n : Nat} (hn : n < 2 ^ 53) (v : JsValue) :
    convertValueFromJson host v (Double.ofInt n) =
      if v.isNullish then .ok .null
      else if n = 13 then dateOf host v
      else if n = 15 then (host.bufferBase64 v).map .buffer
      else if n = 17 then .ok (parseNodeId v)
      else if n = 8 ∨ n = 9 then (host.toBigInt v).map .bigint
      else mapped host v := by
  have hinj : ∀ k : Nat, k < 100 → (Double.ofInt n = Double.ofInt k ↔ n = k) := by
    intro k hk
    rw [ofInt_inj (by omega) (by omega), Int.natCast_inj]
  have h13 := hinj 13 (by decide)
  have h15 := hinj 15 (by decide)
  have h17 := hinj 17 (by decide)
  have h8 := hinj 8 (by decide)
  have h9 := hinj 9 (by decide)
  simp only [Nat.cast_ofNat] at h13 h15 h17 h8 h9
  simp only [convertValueFromJson, h13, h15, h17, h8, h9]

theorem ordinal_lt (t : UaType) : t.ordinal < 2 ^ 53 := by
  cases t with
  | nodeId => decide
  | builtIn t => exact Nat.lt_trans t.ordinal_lt (by decide)

/-- The ordinals `_convertValueFromJson` names are those of the converted types. -/
theorem ordinal_plain {t : UaType} (hplain : t.converted = false) :
    t.ordinal ≠ 13 ∧ t.ordinal ≠ 15 ∧ t.ordinal ≠ 17 ∧ t.ordinal ≠ 8 ∧ t.ordinal ≠ 9 := by
  revert hplain
  cases t with
  | nodeId => decide
  | builtIn t => cases t <;> decide

theorem arrayLevels_scalar {v : JsValue} (h : isArray v = false) : arrayLevels v = 0 := by
  cases v with
  | array items => cases h
  | _ => rfl

/-- An array of scalars has one level. -/
theorem arrayLevels_array {items : List JsValue} (h : ∀ v ∈ items, isArray v = false) :
    arrayLevels (.array items) = 1 := by
  have hitems : itemLevels items = 0 := by
    induction items with
    | nil => rfl
    | cons v vs ih =>
        obtain ⟨hv, hvs⟩ := List.forall_mem_cons.mp h
        rw [itemLevels, arrayLevels_scalar hv, ih hvs, Nat.max_self]
  rw [arrayLevels, hitems]

/-- Where a type has no conversion, a value of the text is taken as it is. -/
theorem convertValueFromJson_plain {t : UaType} (hplain : t.converted = false) {v : JsValue}
    (hlevels : arrayLevels v ≤ 1) :
    convertValueFromJson host v (Double.ofInt t.ordinal) = .ok (plainFromJson v) := by
  obtain ⟨h13, h15, h17, h8, h9⟩ := ordinal_plain hplain
  rw [convertValueFromJson_ordinal (ordinal_lt t), if_neg h13, if_neg h15, if_neg h17,
    if_neg (not_or.mpr ⟨h8, h9⟩)]
  split
  next hnull =>
    cases v with
    | undefined => rfl
    | null => rfl
    | _ => cases hnull
  next => exact if_pos (hlevels.trans host.mapLevels_pos)

/-- Every NodeId text gives an object or null. -/
theorem isArray_parseIdentifier (s : JsString) (namespaceIndex : JsValue) :
    isArray (parseIdentifier s namespaceIndex) = false := by
  unfold parseIdentifier
  split <;> rfl

theorem isArray_parseNodeId (v : JsValue) : isArray (parseNodeId v) = false := by
  unfold parseNodeId
  split
  next => rfl
  next s _ =>
    split
    next => rfl
    next =>
      unfold parseNodeIdText parseNamespace
      repeat' split
      all_goals first
        | exact isArray_parseIdentifier _ _
        | rfl
  next => rfl

theorem isArray_newDate (host : Host) (v : JsValue) : isArray (host.newDate v) = false := by
  unfold Host.newDate
  repeat' split
  all_goals rfl

theorem toPrimitive_text (s : JsString) : toPrimitive host (.str s) = .ok () := by
  have hlevels : arrayLevels (.str s) ≤ host.joinLevels := Nat.zero_le _
  rw [toPrimitive, if_neg (by simp [convertible]), if_pos hlevels]

theorem dateOf_eq_ok {v w : JsValue} (h : dateOf host v = .ok w) : w = host.newDate v := by
  unfold dateOf at h
  cases hprimitive : toPrimitive host v with
  | error e =>
      rw [hprimitive] at h
      cases h
  | ok u =>
      rw [hprimitive] at h
      exact (Except.ok.inj h).symm

/-- The conversion of a type that has one never gives an array. -/
theorem isArray_converted {t : UaType} (hconverted : t.converted = true) {v w : JsValue}
    (h : convertValueFromJson host v (Double.ofInt t.ordinal) = .ok w) : isArray w = false := by
  have hordinal : t.ordinal = 13 ∨ t.ordinal = 15 ∨ t.ordinal = 17 ∨ t.ordinal = 8 ∨
      t.ordinal = 9 := by
    revert hconverted
    cases t with
    | nodeId => decide
    | builtIn t => cases t <;> decide
  rw [convertValueFromJson_ordinal (ordinal_lt t)] at h
  split_ifs at h with hnull h13 h15 h17 h8
  · cases h
    rfl
  · rw [dateOf_eq_ok h]
    exact isArray_newDate host v
  · obtain ⟨bytes, -, rfl⟩ := map_eq_ok.mp h
    rfl
  · cases h
    exact isArray_parseNodeId v
  · obtain ⟨i, -, rfl⟩ := map_eq_ok.mp h
    rfl
  · omega

theorem sameScalar_self {t : UaType} {v : JsValue} (h : unsignZero v = v) : SameScalar t v v := by
  unfold SameScalar
  split
  · rfl
  · exact Or.inl h.symm

theorem convertValueFromJson_text {n : Nat} (hn : n < 2 ^ 53) (s : JsString) :
    convertValueFromJson host (.str s) (Double.ofInt n) =
      if n = 13 then dateOf host (.str s)
      else if n = 15 then (host.bufferBase64 (.str s)).map .buffer
      else if n = 17 then .ok (parseNodeId (.str s))
      else if n = 8 ∨ n = 9 then (host.toBigInt (.str s)).map .bigint
      else mapped host (.str s) := by
  rw [convertValueFromJson_ordinal hn,
    if_neg (show ¬ (JsValue.str s).isNullish = true from Bool.false_ne_true)]

theorem converted_bigint {n : Nat} (hn : n = 8 ∨ n = 9) (i : Int) :
    convertValueFromJson host (.str (intText i)) (Double.ofInt n) = .ok (.bigint i) := by
  have hbig : host.toBigInt (.str (intText i)) = .ok i := by
    unfold Host.toBigInt
    simp only [integer?_intText]
  rw [convertValueFromJson_text (by omega), if_neg (by omega),
    if_neg (by omega), if_neg (by omega), if_pos hn, hbig]
  rfl

theorem dateOf_isoText {time : Int} (h : time.natAbs ≤ maxTime) :
    dateOf host (.str (isoText time)) = .ok (.date (some time)) := by
  rw [dateOf, toPrimitive_text, Except.map, newDate_isoText host h]

theorem converted_date {time : Int} (h : time.natAbs ≤ maxTime) :
    convertValueFromJson host (.str (isoText time)) (Double.ofInt (13 : Nat)) =
      .ok (.date (some time)) := by
  rw [convertValueFromJson_text (by decide), if_pos rfl, dateOf_isoText h]

theorem converted_buffer (bytes : Bytes) :
    convertValueFromJson host (.str (Base64.encode bytes)) (Double.ofInt (15 : Nat)) =
      .ok (.buffer bytes) := by
  rw [convertValueFromJson_text (by decide), if_neg (by decide),
    if_pos rfl, Host.bufferBase64, Base64.decode?_encode]
  rfl

theorem converted_nodeId {n : NodeId} (h : n.InRange) :
    convertValueFromJson host (.str n.text) (Double.ofInt (17 : Nat)) = .ok n.toValue := by
  rw [convertValueFromJson_text (by decide), if_neg (by decide),
    if_neg (by decide), if_pos rfl, parseNodeId_text h]

/-- A scalar whose type has a conversion is printed as a text, or as null, and
comes back. -/
theorem converted_scalar {t : UaType} {v : JsValue} (hconverted : t.converted = true)
    (h : ScalarInDomain t v) :
    ∃ c j w, convertValueForJson host v = .ok c ∧ Json.stringify c = .ok (some j) ∧
      convertValueFromJson host j (Double.ofInt t.ordinal) = .ok w ∧ SameScalar t v w := by
  rcases h with rfl | h
  · exact ⟨.null, .null, .null, rfl, rfl, rfl, sameScalar_self rfl⟩
  · cases t with
    | nodeId =>
        obtain ⟨n, hn, props, rfl, hprops⟩ := h
        refine ⟨.str n.text, .str n.text, n.toValue, ?_, rfl, converted_nodeId hn,
          Or.inr ⟨props, n.props, rfl, rfl, hprops.symm⟩⟩
        have hobject : isNodeIdObject props = true := by
          rw [isNodeIdObject,
            get?_of_perm hprops (List.mem_cons_of_mem _ List.mem_cons_self),
            get?_of_perm hprops List.mem_cons_self]
          rfl
        rw [convertValueForJson, if_pos hobject, nodeIdToString_of_perm hn hprops]
    | builtIn t =>
        cases t with
        | Int64 | UInt64 =>
            obtain ⟨i, -, -, rfl⟩ := h
            exact ⟨_, _, _, rfl, rfl, converted_bigint (by decide) i, sameScalar_self rfl⟩
        | DateTime =>
            obtain ⟨time, rfl, htime⟩ := h
            exact ⟨_, _, _, rfl, rfl, converted_date htime, sameScalar_self rfl⟩
        | ByteString =>
            obtain ⟨bytes, rfl⟩ := h
            exact ⟨_, _, _, rfl, rfl, converted_buffer bytes, sameScalar_self rfl⟩
        | _ => cases hconverted

/-! ## Values -/

/-- Arrays are converted and printed item by item. -/
theorem items_text {R : JsValue → JsValue → Prop} {vs : List JsValue}
    (h : ∀ v ∈ vs, ∃ c j, convertValueForJson host v = .ok c ∧
      Json.stringify c = .ok (some j) ∧ R v j) :
    ∃ cs js, convertItemsForJson host vs = .ok cs ∧ Json.stringifyItems cs = .ok js ∧
      List.Forall₂ R vs js := by
  induction vs with
  | nil => exact ⟨[], [], rfl, rfl, List.Forall₂.nil⟩
  | cons v vs ih =>
      obtain ⟨c, j, hc, hj, hR⟩ := h v List.mem_cons_self
      obtain ⟨cs, js, hcs, hjs, hRs⟩ := ih fun x hx => h x (List.mem_cons_of_mem v hx)
      refine ⟨c :: cs, j :: js, ?_, ?_, List.Forall₂.cons hR hRs⟩
      · rw [convertItemsForJson, hc, hcs]
        rfl
      · rw [Json.stringifyItems, hj, hjs]
        rfl

theorem plainItemsFromJson_eq {vs js : List JsValue} {P : JsValue → JsValue → Prop}
    (h : List.Forall₂ (fun v j => plainFromJson j = j ∧ P v j) vs js) :
    plainItemsFromJson js = js := by
  induction h with
  | nil => rfl
  | cons hj _ ih => rw [plainItemsFromJson, hj.1, ih]

theorem forall₂_iff {R : JsValue → JsValue → Prop} {P : JsValue → Prop} {vs js : List JsValue}
    (h : List.Forall₂ (fun v j => R v j ↔ P v) vs js) :
    List.Forall₂ R vs js ↔ ∀ v ∈ vs, P v := by
  induction h with
  | nil => simp
  | cons hvj _ ih => rw [List.forall₂_cons, List.forall_mem_cons, hvj, ih]

/-- No scalar of a type is an array. -/
theorem isArray_of_scalar {t : UaType} {v : JsValue} (h : ScalarInDomain t v) :
    isArray v = false := by
  rcases h with rfl | h
  · rfl
  · cases t with
    | nodeId =>
        obtain ⟨-, -, props, rfl, -⟩ := h
        rfl
    | builtIn t =>
        cases t with
        | Boolean | String | Guid | ByteString | Float | Double =>
            obtain ⟨x, rfl⟩ := h
            rfl
        | SByte | Byte | Int16 | UInt16 | Int32 | UInt32 | StatusCode =>
            obtain ⟨i, -, -, rfl | ⟨-, rfl⟩⟩ := h
            · rfl
            · rfl
        | Int64 | UInt64 =>
            obtain ⟨i, -, -, rfl⟩ := h
            rfl
        | DateTime =>
            obtain ⟨time, rfl, -⟩ := h
            rfl

theorem elements_of_not_array {v : JsValue} (h : isArray v = false) : elements v = [v] := by
  cases v with
  | array items => cases h
  | _ => rfl

theorem sameValue_scalar {t : UaType} {v w : JsValue} (hv : isArray v = false)
    (hw : isArray w = false) : SameValue t v w ↔ SameScalar t v w := by
  rw [SameValue, hv, hw, elements_of_not_array hv, elements_of_not_array hw]
  simp

theorem printable_of_converted {t : UaType} (hconverted : t.converted = true) (v : JsValue) :
    Printable t v := by
  have hfloat : t.isFloat = false := by
    revert hconverted
    cases t with
    | nodeId => decide
    | builtIn t => cases t <;> decide
  intro h
  rw [hfloat] at h
  cases h

/-- What is printed for a value, and when it comes back. -/
def KeptWhen (host : Host) (t : UaType) (v : JsValue) (P : Prop) : Prop :=
  ∃ c j, convertValueForJson host v = .ok c ∧ Json.stringify c = .ok (some j) ∧
    ((∃ w, convertValueFromJson host j (Double.ofInt t.ordinal) = .ok w ∧ SameValue t v w) ↔ P)

theorem scalar_kept {t : UaType} {v : JsValue} (h : ScalarInDomain t v) :
    KeptWhen host t v (Printable t v) := by
  have harray := isArray_of_scalar h
  cases hconverted : t.converted with
  | false =>
      obtain ⟨c, j, hc, hj, hback, hjarray, hsame⟩ := @plain_scalar host t v hconverted h
      refine ⟨c, j, hc, hj, ?_⟩
      rw [convertValueFromJson_plain hconverted (arrayLevels_scalar hjarray ▸ Nat.zero_le 1), hback]
      simp [sameValue_scalar harray hjarray, hsame]
  | true =>
      obtain ⟨c, j, w, hc, hj, hw, hsame⟩ := @converted_scalar host t v hconverted h
      refine ⟨c, j, hc, hj, iff_of_true ⟨w, hw, ?_⟩ (printable_of_converted hconverted v)⟩
      exact (sameValue_scalar harray (isArray_converted hconverted hw)).mpr hsame

/-- An array of a type that is not converted as a whole keeps its items. -/
theorem array_plain {t : UaType} {vs : List JsValue} (hplain : t.converted = false)
    (h : ∀ v ∈ vs, ScalarInDomain t v) :
    KeptWhen host t (.array vs) (∀ v ∈ vs, Printable t v) := by
  obtain ⟨cs, js, hcs, hjs, hitems⟩ := @items_text host
    (fun v j => plainFromJson j = j ∧ isArray j = false ∧ (SameScalar t v j ↔ Printable t v)) vs
    fun v hv => by
      obtain ⟨c, j, hc, hj, hback, hjarray, hsame⟩ := @plain_scalar host t v hplain (h v hv)
      exact ⟨c, j, hc, hj, hback, hjarray, hsame⟩
  have hsame := forall₂_iff (hitems.imp fun _ _ hvj => hvj.2.2)
  have hscalars : ∀ j ∈ js, isArray j = false := by
    intro j hj
    obtain ⟨v, -, -, hjarray, -⟩ := exists_left_of_forall₂ hitems hj
    exact hjarray
  refine ⟨.array cs, .array js, ?_, ?_, ?_⟩
  · rw [convertValueForJson, hcs]
    rfl
  · rw [Json.stringify, hjs]
    rfl
  · rw [convertValueFromJson_plain hplain (arrayLevels_array hscalars).le, plainFromJson, plainItemsFromJson_eq hitems,
      ← hsame]
    constructor
    · rintro ⟨w, hw, hwsame⟩
      cases hw
      exact hwsame.2
    · exact fun hjs => ⟨.array js, rfl, rfl, hjs⟩

/-- An array of a type that is converted as a whole comes back as no array. -/
theorem array_converted {t : UaType} {vs : List JsValue} (hconverted : t.converted = true)
    (h : ∀ v ∈ vs, ScalarInDomain t v) : KeptWhen host t (.array vs) False := by
  obtain ⟨cs, js, hcs, hjs, -⟩ := @items_text host (fun _ _ => True) vs fun x hx => by
    obtain ⟨c, j, -, hc, hj, -⟩ := @converted_scalar host t x hconverted (h x hx)
    exact ⟨c, j, hc, hj, trivial⟩
  refine ⟨.array cs, .array js, ?_, ?_, ?_⟩
  · rw [convertValueForJson, hcs]
    rfl
  · rw [Json.stringify, hjs]
    rfl
  · refine iff_false_intro ?_
    rintro ⟨w, hw, hsame⟩
    have hwarray := hsame.1
    rw [isArray_converted hconverted hw] at hwarray
    cases hwarray

theorem KeptWhen.congr {t : UaType} {v : JsValue} {P Q : Prop} (h : KeptWhen host t v P)
    (hPQ : P ↔ Q) : KeptWhen host t v Q := propext hPQ ▸ h

/-- A value in the domain of its type is printed, and comes back exactly when a
text can hold it. -/
theorem value_kept {t : UaType} {v : JsValue} (h : ValueInDomain t v) :
    KeptWhen host t v (ValueKept t v) := by
  cases harray : isArray v with
  | false =>
      have helements := elements_of_not_array harray
      refine (scalar_kept (h v (by simp [helements]))).congr ⟨fun hv => ⟨?_, ?_⟩, fun hv => ?_⟩
      · intro x hx
        rw [helements, List.mem_singleton] at hx
        exact hx ▸ hv
      · rw [harray]
        nofun
      · exact hv.printable v (by simp [helements])
  | true =>
      cases v with
      | array vs =>
          cases hconverted : t.converted with
          | false =>
              exact (array_plain hconverted h).congr
                ⟨fun hv => ⟨hv, fun _ => hconverted⟩, fun hv => hv.printable⟩
          | true =>
              refine (array_converted hconverted h).congr ⟨nofun, fun hv => ?_⟩
              have hplain := hv.plain rfl
              rw [hconverted] at hplain
              cases hplain
      | _ => cases harray

end OpcUaSuite.JsonEncoder
