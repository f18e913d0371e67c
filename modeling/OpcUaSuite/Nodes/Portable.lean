import OpcUaSuite.JsonEncoder.RoundTrip
import OpcUaSuite.Nodes.Subscriber

/-!
# Values that both encodings carry

The binary encoder goes by the declared type of a value, the JSON encoder by the
value. A portable value is one that both decoders return alike, up to the rounding
of a Float and the case of a GUID.
-/

namespace OpcUaSuite.Nodes

open Js ByteCodec BinaryFloat PubSub Uadp
open JsonEncoder (UaType convertValueForJson convertValueFromJson plainFromJson
  plainItemsFromJson)

variable (host : Host)

/-- A primitive that stands for an integer of 64 bits, or an empty buffer that stands
for the same as its empty Base64 text. -/
def Wide (lo hi : Int) (v : JsValue) : Prop :=
  ((∃ b, v = .bool b) ∨ (∃ d, v = .num d) ∨ (∃ i, v = .bigint i) ∨ (∃ s, v = .str s) ∨
    v = .buffer [] ∧ host.toBigInt (.str []) = host.toBigInt v) ∧
    ∃ i, host.toBigInt v = .ok i ∧ lo ≤ i ∧ i ≤ hi

/-- The scalars that both decoders return alike. -/
def Portable (t : BuiltInType) (v : JsValue) : Prop :=
  match t with
  | .Int64 => Wide host (-2 ^ 63) (2 ^ 63 - 1) v
  | .UInt64 => Wide host 0 (2 ^ 64 - 1) v
  | .Float | .Double => ∃ d, v = .num d ∧ d.isFinite = true ∧ d ≠ Double.negZero
  | .String => v.isNullish = true ∨ v = .buffer [] ∨ ScalarInRange .String v
  | .DateTime => ∃ time, v = .date (some time) ∧ time.natAbs ≤ maxTime
  | .ByteString => v = .null ∨ ScalarInRange .ByteString v
  | t => ScalarInRange t v

/-- Arrays are portable where the JSON decoder does not convert a value as a whole. -/
def PortableValue (t : BuiltInType) (v : JsValue) : Prop :=
  (∀ x ∈ elements v, Portable host t x) ∧
    (isArray v = true → (UaType.builtIn t).converted = false)

/-- The text a null, an empty buffer or a string is written as. -/
def textOf : JsValue → JsValue
  | .undefined | .null => .null
  | .buffer _ => .str []
  | v => v

/-- The BigInt a value is written as. -/
def bigIntOf (v : JsValue) : JsValue :=
  match host.toBigInt v with
  | .ok i => .bigint i
  | .error _ => v

/-- What both decoders return for a portable scalar, up to rounding and case. -/
def carried (t : BuiltInType) (v : JsValue) : JsValue :=
  match t with
  | .SByte | .Byte | .Int16 | .UInt16 | .Int32 | .UInt32 | .StatusCode => unsignZero v
  | .Int64 | .UInt64 => bigIntOf host v
  | .String => textOf v
  | _ => v

/-- A Float rounded, a GUID in upper case. -/
def rounded (t : BuiltInType) (v : JsValue) : JsValue :=
  match t, v with
  | .Float, .num d => .num (Double.fround d)
  | .Guid, .str s => .str (toUpper s)
  | _, v => v

variable {host} {t : BuiltInType} {v : JsValue}

/-! ## The binary encoding -/

theorem bigIntOf_eq {i : Int} (h : host.toBigInt v = .ok i) : bigIntOf host v = .bigint i := by
  rw [bigIntOf, h]

theorem encodes_emptyText : Encodes (writeString host (.buffer [])) readString (.str []) := by
  change Encodes (cat [putUInt 4 0, .ok []]) _ _
  refine Encodes.cons (encodes_putUInt 4 0) ?_
  exact Encodes.map (fun bs => JsValue.str (Utf.decode bs))
    (Encodes.single (Encodes.ok (reads_bytes [])))

/-- The binary decoder returns what is carried, rounded. -/
theorem encodes_portable (h : Portable host t v) :
    Encodes (writeScalar host t v) (readScalar t) (rounded t (carried host t v)) := by
  cases t with
  | Int64 =>
      obtain ⟨-, i, hi, -⟩ := h
      have hread := encodes_int64_of hi
      rwa [← bigIntOf_eq hi] at hread
  | UInt64 =>
      obtain ⟨-, i, hi, -⟩ := h
      have hread := encodes_uint64_of hi
      rwa [← bigIntOf_eq hi] at hread
  | Float =>
      obtain ⟨d, rfl, -⟩ := h
      exact encodes_float d
  | Double =>
      obtain ⟨d, rfl, -⟩ := h
      exact encodes_double d
  | String =>
      rcases h with hnull | rfl | ⟨s, rfl, hs⟩
      · cases v with
        | undefined => exact @encodes_string_null host
        | null => exact @encodes_string_null host
        | _ => cases hnull
      · exact encodes_emptyText
      · exact encodes_string hs
  | DateTime =>
      obtain ⟨time, rfl, -⟩ := h
      exact encodes_dateTime time
  | ByteString =>
      rcases h with rfl | h
      · exact encodes_byteString_null
      · exact encodes_scalarInRange h
  | Guid =>
      obtain ⟨s, rfl, hs⟩ := h
      exact encodes_guid hs
  | _ => exact encodes_scalarInRange h

/-! ## The JSON encoding -/

theorem number_integer {lo hi : Int} (hlo : -2 ^ 53 < lo) (hhi : hi < 2 ^ 53)
    (h : IntegerIn lo hi v) : ∃ d, v = .num d ∧ Json.number d = unsignZero v := by
  obtain ⟨d, rfl, hfinite⟩ := JsonEncoder.isFinite_of_integerIn hlo hhi h
  exact ⟨d, rfl, by rw [JsonEncoder.number_eq, if_pos hfinite]⟩

theorem plainFromJson_number (d : Double) : plainFromJson (Json.number d) = Json.number d ∧
    isArray (Json.number d) = false := by
  rcases JsonEncoder.number_cases d with hd | ⟨e, hd⟩
  · rw [hd]
    exact ⟨rfl, rfl⟩
  · rw [hd]
    exact ⟨rfl, rfl⟩

/-- A text is read back as what is carried, where the type has no conversion. -/
theorem text_plain (hplain : (UaType.builtIn t).converted = false) (h : Portable host t v) :
    ∃ c j, convertValueForJson host v = .ok c ∧ Json.stringify c = .ok (some j) ∧
      plainFromJson j = carried host t v ∧ isArray j = false := by
  have hinteger : ∀ {lo hi : Int}, -2 ^ 53 < lo → hi < 2 ^ 53 → IntegerIn lo hi v →
      carried host t v = unsignZero v →
      ∃ c j, convertValueForJson host v = .ok c ∧ Json.stringify c = .ok (some j) ∧
        plainFromJson j = carried host t v ∧ isArray j = false := by
    intro lo hi hlo hhi hv hcarried
    obtain ⟨d, rfl, hd⟩ := number_integer hlo hhi hv
    obtain ⟨hplain, harray⟩ := plainFromJson_number d
    exact ⟨_, _, rfl, rfl, hplain.trans (hd.trans hcarried.symm), harray⟩
  cases t with
  | Boolean =>
      obtain ⟨b, rfl⟩ := h
      exact ⟨_, _, rfl, rfl, rfl, rfl⟩
  | SByte | Byte | Int16 | UInt16 | Int32 | UInt32 | StatusCode =>
      exact hinteger (by decide) (by decide) h rfl
  | Int64 | UInt64 | DateTime | ByteString => cases hplain
  | Float | Double =>
      obtain ⟨d, rfl, hd⟩ := h
      obtain ⟨hplain, harray⟩ := plainFromJson_number d
      exact ⟨_, _, rfl, rfl, hplain.trans (JsonEncoder.number_eq_self.mpr hd), harray⟩
  | String =>
      rcases h with hnull | rfl | ⟨s, rfl, -⟩
      · cases v with
        | undefined => exact ⟨_, _, rfl, rfl, rfl, rfl⟩
        | null => exact ⟨_, _, rfl, rfl, rfl, rfl⟩
        | _ => cases hnull
      · exact ⟨_, _, rfl, rfl, rfl, rfl⟩
      · exact ⟨_, _, rfl, rfl, rfl, rfl⟩
  | Guid =>
      obtain ⟨s, rfl, -⟩ := h
      exact ⟨_, _, rfl, rfl, rfl, rfl⟩

/-- The zero of a text is still the same integer. -/
theorem toBigInt_number {d : Double} {i : Int} (h : host.toBigInt (.num d) = .ok i) :
    ∃ e, Json.number d = .num e ∧ host.toBigInt (.num e) = .ok i := by
  simp only [Host.toBigInt] at h
  split at h
  next hint =>
    have hfinite : d.isFinite = true := (Value.denotes_trunc hint).isFinite
    cases h
    rw [JsonEncoder.number_eq, if_pos hfinite, unsignZero]
    by_cases hzero : d = Double.negZero
    · subst hzero
      have hdenotes : Double.zero.Denotes 0 := Value.denotes_zero false _ _
      refine ⟨Double.zero, if_pos rfl, ?_⟩
      simp only [Host.toBigInt, hdenotes.isInteger, if_true, hdenotes.trunc,
        Double.denotes_negZero.trunc]
    · refine ⟨d, if_neg (by simpa using hzero), ?_⟩
      simp only [Host.toBigInt, hint, if_true]
  next => cases h

/-- A BigInt is read from the text of each value that stands for one. -/
theorem text_wide {n : Nat} (hn : n = 8 ∨ n = 9) {lo hi : Int} (h : Wide host lo hi v) :
    ∃ c j, convertValueForJson host v = .ok c ∧ Json.stringify c = .ok (some j) ∧
      convertValueFromJson host j (Double.ofInt n) = .ok (bigIntOf host v) := by
  obtain ⟨hprimitive, i, hi, -⟩ := h
  have hback : ∀ j, j.isNullish = false → host.toBigInt j = .ok i →
      convertValueFromJson host j (Double.ofInt n) = .ok (bigIntOf host v) := by
    intro j hj hbig
    rw [JsonEncoder.convertValueFromJson_ordinal (by omega), hj, if_neg Bool.false_ne_true,
      if_neg (by omega), if_neg (by omega), if_neg (by omega), if_pos hn, hbig, bigIntOf_eq hi]
    rfl
  rcases hprimitive with ⟨b, rfl⟩ | ⟨d, rfl⟩ | ⟨k, rfl⟩ | ⟨s, rfl⟩ | ⟨rfl, hempty⟩
  · exact ⟨_, _, rfl, rfl, hback _ rfl hi⟩
  · obtain ⟨e, he, hbig⟩ := toBigInt_number hi
    exact ⟨_, _, rfl, congrArg (fun j => Except.ok (some j)) he, hback _ rfl hbig⟩
  · exact ⟨_, _, rfl, rfl, JsonEncoder.converted_bigint hn k⟩
  · exact ⟨_, _, rfl, rfl, hback _ rfl hi⟩
  · exact ⟨.str [], .str [], rfl, rfl, hback _ rfl (hempty.trans hi)⟩

/-- A text is read back as what is carried, where the type has a conversion. -/
theorem text_converted (hconverted : (UaType.builtIn t).converted = true) (h : Portable host t v) :
    ∃ c j, convertValueForJson host v = .ok c ∧ Json.stringify c = .ok (some j) ∧
      convertValueFromJson host j (Double.ofInt t.ordinal) = .ok (carried host t v) := by
  cases t with
  | Int64 => exact text_wide (by decide) h
  | UInt64 => exact text_wide (by decide) h
  | DateTime =>
      obtain ⟨time, rfl, htime⟩ := h
      exact ⟨_, _, rfl, rfl, JsonEncoder.converted_date htime⟩
  | ByteString =>
      rcases h with rfl | ⟨bytes, rfl, -⟩
      · exact ⟨_, _, rfl, rfl, rfl⟩
      · exact ⟨_, _, rfl, rfl, JsonEncoder.converted_buffer bytes⟩
  | _ => cases hconverted

theorem plainItems_eq {vs js : List JsValue} {g : JsValue → JsValue}
    (h : List.Forall₂ (fun v j => plainFromJson j = g v) vs js) :
    plainItemsFromJson js = vs.map g := by
  induction h with
  | nil => rfl
  | cons hj _ ih => rw [plainItemsFromJson, hj, ih, List.map_cons]

/-- The JSON decoder returns what is carried. -/
theorem text_portable (h : PortableValue host t v) :
    ∃ c j, convertValueForJson host v = .ok c ∧ Json.stringify c = .ok (some j) ∧
      convertValueFromJson host j (Double.ofInt t.ordinal) =
        .ok (mapElements (carried host t) v) := by
  obtain ⟨hscalars, harray⟩ := h
  have hscalar : isArray v = false → ∃ c j, convertValueForJson host v = .ok c ∧
      Json.stringify c = .ok (some j) ∧
      convertValueFromJson host j (Double.ofInt t.ordinal) = .ok (carried host t v) := by
    intro hv
    have hportable := hscalars v (by simp [JsonEncoder.elements_of_not_array hv])
    cases hconverted : (UaType.builtIn t).converted with
    | true => exact text_converted hconverted hportable
    | false =>
        obtain ⟨c, j, hc, hj, hback, hjarray⟩ := text_plain hconverted hportable
        exact ⟨c, j, hc, hj, by
          rw [show t.ordinal = (UaType.builtIn t).ordinal from rfl,
            JsonEncoder.convertValueFromJson_plain hconverted
              (JsonEncoder.arrayLevels_scalar hjarray ▸ Nat.zero_le 1), hback]⟩
  cases v with
  | array items =>
      have hplain := harray rfl
      obtain ⟨cs, js, hcs, hjs, hitems⟩ := @JsonEncoder.items_text host
        (fun v j => plainFromJson j = carried host t v ∧ isArray j = false) items fun x hx =>
          text_plain hplain (hscalars x hx)
      have hjs' : ∀ j ∈ js, isArray j = false := by
        intro j hj
        obtain ⟨x, -, -, hjarray⟩ := exists_left_of_forall₂ hitems hj
        exact hjarray
      refine ⟨.array cs, .array js, ?_, ?_, ?_⟩
      · rw [convertValueForJson, hcs]
        rfl
      · rw [Json.stringify, hjs]
        rfl
      · rw [show t.ordinal = (UaType.builtIn t).ordinal from rfl,
          JsonEncoder.convertValueFromJson_plain hplain (JsonEncoder.arrayLevels_array hjs').le,
          plainFromJson, plainItems_eq (hitems.imp fun _ _ hvj => hvj.1)]
        rfl
  | _ => exact hscalar rfl

/-! ## What is returned -/

/-- Neither decoder returns an array or an object for a scalar. -/
theorem carried_scalar (h : Portable host t v) :
    isArray (carried host t v) = false ∧ (∀ props, carried host t v ≠ .object props) ∧
      ∀ props, rounded t (carried host t v) ≠ .object props := by
  have hinteger : ∀ {lo hi : Int}, IntegerIn lo hi v →
      isArray (unsignZero v) = false ∧ ∀ props, unsignZero v ≠ .object props := by
    rintro lo hi ⟨i, -, -, rfl | ⟨-, rfl⟩⟩
    · unfold unsignZero
      split <;> exact ⟨rfl, nofun⟩
    · exact ⟨rfl, nofun⟩
  cases t with
  | Boolean =>
      obtain ⟨b, rfl⟩ := h
      exact ⟨rfl, nofun, nofun⟩
  | SByte | Byte | Int16 | UInt16 | Int32 | UInt32 | StatusCode =>
      obtain ⟨harray, hobject⟩ := hinteger h
      exact ⟨harray, hobject, hobject⟩
  | Int64 | UInt64 =>
      obtain ⟨-, i, hi, -⟩ := h
      have heq := bigIntOf_eq hi
      refine ⟨?_, fun props => ?_, fun props => ?_⟩
      · change isArray (bigIntOf host v) = false
        rw [heq]
        rfl
      · change bigIntOf host v ≠ _
        rw [heq]
        nofun
      · change bigIntOf host v ≠ _
        rw [heq]
        nofun
  | Float | Double =>
      obtain ⟨d, rfl, -⟩ := h
      exact ⟨rfl, nofun, nofun⟩
  | String =>
      rcases h with hnull | rfl | ⟨s, rfl, -⟩
      · cases v with
        | undefined => exact ⟨rfl, nofun, nofun⟩
        | null => exact ⟨rfl, nofun, nofun⟩
        | _ => cases hnull
      · exact ⟨rfl, nofun, nofun⟩
      · exact ⟨rfl, nofun, nofun⟩
  | DateTime =>
      obtain ⟨time, rfl, -⟩ := h
      exact ⟨rfl, nofun, nofun⟩
  | Guid =>
      obtain ⟨s, rfl, -⟩ := h
      exact ⟨rfl, nofun, nofun⟩
  | ByteString =>
      rcases h with rfl | ⟨bytes, rfl, -⟩
      · exact ⟨rfl, nofun, nofun⟩
      · exact ⟨rfl, nofun, nofun⟩

end OpcUaSuite.Nodes
