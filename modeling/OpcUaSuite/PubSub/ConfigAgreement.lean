import Mathlib.Data.List.ReduceOption
import OpcUaSuite.Lib.Writer
import OpcUaSuite.PubSub.Config

/-!
# Validators and factories agree

Each factory throws what its validator finds and builds a value otherwise. The
rules of each type are stated on their own; a validator finds nothing exactly
when they hold. What a factory builds keeps them, but for members that are only
inherited, a PublishedDataSet the writer's validator does not look at, and a
timeout that overflows.
-/

namespace OpcUaSuite.PubSub.Config

open Js BinaryFloat ByteCodec

/-- The validator answers, the factory returns exactly what is valid and throws
exactly the issues of the validator, and what it returns is valid and built again
as it is. -/
def Agrees (validate : Value → Except RuntimeError Validation)
    (factory : Value → Except ConfigError Value) (cfg : Value) : Prop :=
  ∃ result, validate cfg = .ok result ∧ (result.valid = true ↔ result.errors = []) ∧
    (result.valid = true ↔ ∃ v, factory cfg = .ok v) ∧
    (∀ e, factory cfg = .error e → e.errors = some result.errors) ∧
    ∀ v, factory cfg = .ok v →
      (∃ result', validate v = .ok result' ∧ result'.valid = true) ∧ factory v = .ok v

/-! ## Factories in general -/

/-- A validator counts its issues. -/
def Counts (validate : Value → Except RuntimeError Validation) : Prop :=
  ∀ cfg result, validate cfg = .ok result → result.valid = result.errors.isEmpty

variable {validate : Value → Except RuntimeError Validation}
  {build : Value → Except ConfigError Value} {cfg : Value}

theorem Counts.valid_iff (h : Counts validate) {result : Validation}
    (hresult : validate cfg = .ok result) : result.valid = true ↔ result = ⟨true, []⟩ := by
  have hvalid := h cfg result hresult
  obtain ⟨valid, errors⟩ := result
  constructor
  · rintro rfl
    obtain rfl : errors = [] := List.isEmpty_iff.mp hvalid.symm
    rfl
  · intro hpair
    rw [hpair]

/-- A factory returns what it builds of a value without issues. -/
theorem construct_eq_ok (hcounts : Counts validate) {type : JsString}
    {built : Except ConfigError Value} {v : Value} :
    construct type (validate cfg) built = .ok v ↔ validate cfg = .ok ⟨true, []⟩ ∧ built = .ok v := by
  rw [construct.eq_def]
  cases hresult : validate cfg with
  | error e => simp
  | ok result =>
      have hvalid := hcounts.valid_iff hresult
      cases hpair : result.valid with
      | false =>
          rw [hpair] at hvalid
          have hne : result ≠ ⟨true, []⟩ := fun h => Bool.false_ne_true (hvalid.mpr h)
          simp [hpair, hne]
      | true => simp [hvalid.mp hpair]

/-- A factory agrees with its validator exactly when the validator answers and
each valid value is built into a valid value that is built again as it is. -/
theorem agrees_construct_iff (hcounts : Counts validate) (type : JsString) (cfg : Value) :
    Agrees validate (fun cfg => construct type (validate cfg) (build cfg)) cfg ↔
      ∃ result, validate cfg = .ok result ∧ (result.valid = true →
        ∃ v, build cfg = .ok v ∧ validate v = .ok ⟨true, []⟩ ∧ build v = .ok v) := by
  constructor
  · rintro ⟨result, hresult, -, hreturns, -, hbuilt⟩
    refine ⟨result, hresult, fun hvalid => ?_⟩
    obtain ⟨v, hv⟩ := hreturns.mp hvalid
    obtain ⟨⟨result', hresult', hvalid'⟩, hagain⟩ := hbuilt v hv
    obtain rfl := (hcounts.valid_iff hresult').mp hvalid'
    exact ⟨v, ((construct_eq_ok hcounts).mp hv).2, hresult', ((construct_eq_ok hcounts).mp hagain).2⟩
  · rintro ⟨result, hresult, hbuilds⟩
    have hfactory : construct type (validate cfg) (build cfg) =
        if result.valid then build cfg else .error (.invalid type result.errors) := by
      rw [hresult]
      rfl
    have hcount := hcounts cfg result hresult
    refine ⟨result, hresult, by rw [hcount, List.isEmpty_iff], ?_, ?_, ?_⟩
    · simp only [hfactory]
      cases hvalid : result.valid with
      | false => exact iff_of_false Bool.false_ne_true nofun
      | true =>
          obtain ⟨v, hv, -⟩ := hbuilds hvalid
          exact iff_of_true rfl ⟨v, hv⟩
    · intro e he
      simp only [hfactory] at he
      cases hvalid : result.valid with
      | false =>
          rw [hvalid] at he
          cases he
          rfl
      | true =>
          obtain ⟨v, hv, -⟩ := hbuilds hvalid
          rw [hvalid, if_pos rfl, hv] at he
          cases he
    · intro v hv
      simp only [hfactory] at hv
      cases hvalid : result.valid with
      | false =>
          rw [hvalid] at hv
          cases hv
      | true =>
          obtain ⟨w, hw, hvalidw, hagain⟩ := hbuilds hvalid
          rw [hvalid, if_pos rfl, hw] at hv
          cases hv
          refine ⟨⟨_, hvalidw, rfl⟩, ?_⟩
          exact (construct_eq_ok hcounts).mpr ⟨hvalidw, hagain⟩

/-! ## Rules -/

@[simp] theorem require_eq_nil {holds : Bool} {path code message : JsString} :
    require holds path code message = [] ↔ holds = true := by
  cases holds <;> simp [require]

/-- A member that may be absent keeps its rule. -/
def Allowed (holds : Value → Bool) (v : Value) : Prop := v = .undefined ∨ holds v = true

theorem isUndefined_iff {v : Value} : v.isUndefined = true ↔ v = .undefined := by
  cases v <;> simp [Value.isUndefined]

@[simp] theorem optional_eq_nil {v : Value} {holds : Value → Bool} {path code message : JsString} :
    optional v holds path code message = [] ↔ Allowed holds v := by
  rw [optional, require_eq_nil, Bool.or_eq_true, isUndefined_iff]
  rfl

theorem holds_orElse {holds : Value → Bool} {v d : Value} (h : Allowed holds v)
    (hnull : holds .null = false) (hd : holds d = true) : holds (v.orElse d) = true := by
  rcases h with rfl | h
  · exact hd
  · cases v with
    | undefined => exact hd
    | null => exact Bool.noConfusion (hnull.symm.trans h)
    | _ => exact h

/-- A value that is there is taken again. -/
theorem orElse_orElse {d : Value} (hd : d.isNullish = false) (v d' : Value) :
    (v.orElse d).orElse d' = v.orElse d := by
  have hkept : (v.orElse d).isNullish = false := by
    unfold Value.orElse
    split
    · exact hd
    next h => exact Bool.eq_false_iff.mpr h
  rw [Value.orElse.eq_def (v.orElse d), hkept, if_neg Bool.false_ne_true]

variable (host : Host)

/-! ## WriterGroup -/

/-- A KeepAliveTime is not below the publishing interval. -/
def KeepsInterval (keepAliveTime publishingInterval : Value) : Prop :=
  keepAliveTime = .undefined ∨ (keepAliveTime.isPositiveNumber = true ∧
    ∀ k p, keepAliveTime = .num k → publishingInterval = .num p → k.lt p = false)

structure WriterGroupRules (cfg : Value) : Prop where
  object : cfg.isObject = true
  publishingInterval : (cfg.member (js "publishingInterval")).isPositiveNumber = true
  keepAliveTime : KeepsInterval (cfg.member (js "keepAliveTime"))
    (cfg.member (js "publishingInterval"))
  maxNetworkMessageSize : Allowed Value.isPositiveNumber (cfg.member (js "maxNetworkMessageSize"))
  priority : Allowed (Value.isIntegerIn 0 255) (cfg.member (js "priority"))
  writerGroupId : (cfg.member (js "writerGroupId")).isUInt16 = true ∧
    (cfg.member (js "writerGroupId")).isZero = false

theorem keepAliveIssues_eq_nil {keepAliveTime publishingInterval : Value}
    (h : publishingInterval.isPositiveNumber = true) :
    keepAliveIssues host keepAliveTime publishingInterval = [] ↔
      KeepsInterval keepAliveTime publishingInterval := by
  cases publishingInterval with
  | num p =>
      cases keepAliveTime with
      | undefined => exact iff_of_true rfl (Or.inl rfl)
      | num k =>
          simp only [keepAliveIssues, h, Bool.true_and, KeepsInterval]
          cases hpositive : (Value.num k).isPositiveNumber with
          | false => simp
          | true =>
              cases hlt : k.lt p <;> simp [hlt]
      | _ => simp [keepAliveIssues, KeepsInterval, Value.isPositiveNumber]
  | _ => exact Bool.noConfusion h

theorem writerGroupIdIssues_eq_nil {v : Value} :
    writerGroupIdIssues v = [] ↔ v.isUInt16 = true ∧ v.isZero = false := by
  unfold writerGroupIdIssues
  cases v.isUInt16 <;> simp

/-- A validator that answers with what it counted. -/
theorem counted_iff {object : Bool} {errors : List Issue} :
    (if !object then Except.ok notAnObject else .ok (validation errors) :
      Except RuntimeError Validation) = .ok ⟨true, []⟩ ↔ object = true ∧ errors = [] := by
  cases object with
  | false => simp [notAnObject]
  | true =>
      cases errors with
      | nil => simp [validation]
      | cons issue errors => simp [validation]

theorem counts_of_counted {object : Value → Bool} {errors : Value → List Issue}
    {validate : Value → Except RuntimeError Validation}
    (h : ∀ cfg, validate cfg =
      if !object cfg then .ok notAnObject else .ok (validation (errors cfg))) : Counts validate := by
  intro cfg result hresult
  rw [h] at hresult
  split at hresult
  · cases hresult
    rfl
  · cases hresult
    rfl

theorem answers_of_counted {object : Value → Bool} {errors : Value → List Issue}
    {validate : Value → Except RuntimeError Validation}
    (h : ∀ cfg, validate cfg =
      if !object cfg then .ok notAnObject else .ok (validation (errors cfg))) (cfg : Value) :
    ∃ result, validate cfg = .ok result := by
  rw [h]
  split
  · exact ⟨_, rfl⟩
  · exact ⟨_, rfl⟩

theorem validateWriterGroup_iff {cfg : Value} :
    validateWriterGroup host cfg = .ok ⟨true, []⟩ ↔ WriterGroupRules cfg := by
  rw [validateWriterGroup, counted_iff]
  simp only [List.append_eq_nil_iff, require_eq_nil, optional_eq_nil, writerGroupIdIssues_eq_nil]
  constructor
  · rintro ⟨hobject, ⟨⟨⟨hinterval, hkeepAlive⟩, hsize⟩, hpriority⟩, hid⟩
    exact ⟨hobject, hinterval, (keepAliveIssues_eq_nil host hinterval).mp hkeepAlive, hsize,
      hpriority, hid⟩
  · intro h
    exact ⟨h.object, ⟨⟨⟨h.publishingInterval,
      (keepAliveIssues_eq_nil host h.publishingInterval).mpr h.keepAliveTime⟩,
      h.maxNetworkMessageSize⟩, h.priority⟩, h.writerGroupId⟩

theorem orElse_of_there {v : Value} (h : v.isNullish = false) (d : Value) : v.orElse d = v := by
  rw [Value.orElse, h, if_neg Bool.false_ne_true]

theorem there_of_positive {v : Value} (h : v.isPositiveNumber = true) : v.isNullish = false := by
  cases v with
  | num d => rfl
  | _ => cases h

/-- The object of a WriterGroup keeps the rules. -/
theorem WriterGroupRules.object_rules {cfg : Value} (h : WriterGroupRules cfg) :
    WriterGroupRules (writerGroupObject cfg) := by
  constructor
  case object => rfl
  case publishingInterval => exact h.publishingInterval
  case keepAliveTime =>
    change KeepsInterval ((cfg.member (js "keepAliveTime")).orElse _)
      (cfg.member (js "publishingInterval"))
    rcases h.keepAliveTime with habsent | hpresent
    · rw [habsent]
      refine Or.inr ⟨h.publishingInterval, fun k p hk hp => ?_⟩
      obtain rfl : k = p := Value.num.inj (hk.symm.trans hp)
      exact Value.lt_self k
    · rw [orElse_of_there (there_of_positive hpresent.1)]
      exact Or.inr hpresent
  case maxNetworkMessageSize =>
    exact Or.inr (holds_orElse h.maxNetworkMessageSize rfl (by decide))
  case priority => exact Or.inr (holds_orElse h.priority rfl (by decide))
  case writerGroupId => exact h.writerGroupId

theorem writerGroupObject_again {cfg : Value} (h : WriterGroupRules cfg) :
    writerGroupObject (writerGroupObject cfg) = writerGroupObject cfg := by
  have hkeepAlive := orElse_orElse (there_of_positive h.publishingInterval)
    (cfg.member (js "keepAliveTime")) (cfg.member (js "publishingInterval"))
  have hsize := @orElse_orElse (.num (Double.ofInt 1400)) rfl
    (cfg.member (js "maxNetworkMessageSize")) (.num (Double.ofInt 1400))
  have hpriority := @orElse_orElse (.num (Double.ofInt 128)) rfl (cfg.member (js "priority"))
    (.num (Double.ofInt 128))
  change Value.plain [(_, cfg.member (js "publishingInterval")),
    (_, Value.orElse (Value.orElse _ _) (cfg.member (js "publishingInterval"))),
    (_, Value.orElse (Value.orElse _ _) _), (_, Value.orElse (Value.orElse _ _) _),
    (_, cfg.member (js "writerGroupId"))] = _
  rw [hkeepAlive, hsize, hpriority]
  rfl

theorem writerGroup_eq_ok {cfg v : Value} : writerGroup host cfg = .ok v ↔
    WriterGroupRules cfg ∧ v = writerGroupObject cfg := by
  have hcounts : Counts (validateWriterGroup host) :=
    counts_of_counted (validateWriterGroup.eq_1 host)
  rw [writerGroup, construct_eq_ok hcounts, validateWriterGroup_iff]
  simp [eq_comm]

/-- A WriterGroup always agrees with its validator. -/
theorem writerGroup_agrees (cfg : Value) :
    Agrees (validateWriterGroup host) (writerGroup host) cfg := by
  have hcounts : Counts (validateWriterGroup host) :=
    counts_of_counted (validateWriterGroup.eq_1 host)
  refine (@agrees_construct_iff _ (fun cfg => .ok (writerGroupObject cfg)) hcounts _ cfg).mpr ?_
  obtain ⟨result, hresult⟩ := answers_of_counted (validateWriterGroup.eq_1 host) cfg
  refine ⟨result, hresult, fun hvalid => ?_⟩
  rw [(hcounts.valid_iff hresult).mp hvalid] at hresult
  have hrules := (validateWriterGroup_iff host).mp hresult
  exact ⟨_, rfl, (validateWriterGroup_iff host).mpr hrules.object_rules,
    congrArg Except.ok (writerGroupObject_again hrules)⟩

/-! ## PublishedDataSet -/

def FieldRules (f : Value) : Prop :=
  f.isObject = true ∧ (f.member (js "name")).isNonEmptyString = true ∧
    (f.member (js "dataType")).isString = true

structure PublishedDataSetRules (cfg : Value) : Prop where
  object : cfg.isObject = true
  name : (cfg.member (js "name")).isNonEmptyString = true
  fields : ∃ items, (cfg.member (js "fields")).items? = some items ∧ items ≠ [] ∧
    ∀ f, some f ∈ items → FieldRules f
  configurationVersion : Allowed isVersionPair (cfg.member (js "configurationVersion"))

theorem fieldIssues_eq_nil {i : Nat} {f : Value} : fieldIssues i f = [] ↔ FieldRules f := by
  unfold fieldIssues FieldRules
  cases f.isObject <;> simp

theorem forall_some_cons {P : Value → Prop} {f : Value} {items : List (Option Value)} :
    (∀ g, some g ∈ some f :: items → P g) ↔ P f ∧ ∀ g, some g ∈ items → P g := by
  simp only [List.mem_cons, Option.some.injEq, forall_eq_or_imp]

theorem fieldsIssues_eq_nil {i : Nat} {items : List (Option Value)} :
    fieldsIssues i items = [] ↔ ∀ f, some f ∈ items → FieldRules f := by
  induction items generalizing i with
  | nil => exact iff_of_true rfl fun f hf => nomatch hf
  | cons item items ih =>
      cases item with
      | none => simp [fieldsIssues, ih]
      | some f =>
          rw [forall_some_cons, fieldsIssues, List.append_eq_nil_iff, fieldIssues_eq_nil, ih]

theorem fieldListIssues_eq_nil {fields : Value} :
    fieldListIssues fields = [] ↔ ∃ items, fields.items? = some items ∧ items ≠ [] ∧
      ∀ f, some f ∈ items → FieldRules f := by
  unfold fieldListIssues
  cases fields.items? with
  | none => simp
  | some items =>
      cases items with
      | nil => simp
      | cons item items => simp [fieldsIssues_eq_nil]

theorem validatePublishedDataSet_iff {cfg : Value} :
    validatePublishedDataSet cfg = .ok ⟨true, []⟩ ↔ PublishedDataSetRules cfg := by
  rw [validatePublishedDataSet, counted_iff]
  simp only [List.append_eq_nil_iff, require_eq_nil, optional_eq_nil, fieldListIssues_eq_nil]
  constructor
  · rintro ⟨hobject, ⟨hname, hfields⟩, hversion⟩
    exact ⟨hobject, hname, hfields, hversion⟩
  · intro h
    exact ⟨h.object, ⟨h.name, h.fields⟩, h.configurationVersion⟩

/-- A member is the value's own. -/
def Owns (f : Value) (name : JsString) : Prop := (f.ownMember? name).isSome = true

/-- Each field has its name and its type as own members. -/
def FieldsOwn (cfg : Value) : Prop :=
  ∀ items, (cfg.member (js "fields")).items? = some items → ∀ f, some f ∈ items →
    Owns f (js "name") ∧ Owns f (js "dataType")

theorem member_plain (members : List (JsString × Value)) (name : JsString) :
    (Value.plain members).member name = (Props.get? name members).getD .undefined := by
  rw [Value.member, show (Value.plain members).ownMember? name = Props.get? name members from rfl]
  cases Props.get? name members <;> rfl

/-- A copy has the own members of a value. -/
theorem member_spread {name : JsString} (hname : numeral? name = none) (f : Value) :
    f.spread.member name = (f.ownMember? name).getD .undefined := by
  cases f with
  | object kind own inherited items =>
      have hindex : name ∉ InsertionMap.keys
          (items.mapIdx fun i item => item.map fun v => (decimal i, v)).reduceOption := by
        intro hmem
        obtain ⟨e, he, rfl⟩ := List.mem_map.mp hmem
        obtain ⟨i, hi, hitem⟩ := List.mem_mapIdx.mp (List.reduceOption_mem_iff.mp he)
        obtain ⟨v, -, rfl⟩ := Option.map_eq_some_iff.mp hitem
        rw [numeral?_decimal] at hname
        cases hname
      rw [Value.spread, member_plain, Props.get?, InsertionMap.get?_append_of_not_mem hindex]
      rfl
  | _ => rfl

theorem owned_spread {name : JsString} (hname : numeral? name = none) {f : Value}
    {holds : Value → Bool} (hundefined : holds .undefined = false)
    (hf : holds (f.member name) = true) : holds (f.spread.member name) = true ↔ Owns f name := by
  rw [member_spread hname, Owns]
  rw [Value.member] at hf
  cases howned : f.ownMember? name with
  | none => exact iff_of_false (Bool.eq_false_iff.mp hundefined) nofun
  | some m =>
      rw [howned] at hf
      exact iff_of_true hf rfl

theorem fieldRules_spread {f : Value} (h : FieldRules f) :
    FieldRules f.spread ↔ Owns f (js "name") ∧ Owns f (js "dataType") := by
  obtain ⟨hobject, hname, htype⟩ := h
  have hspread : f.spread.isObject = true := by
    cases f with
    | object kind own inherited items => rfl
    | _ => cases hobject
  rw [FieldRules, owned_spread (by decide) rfl hname, owned_spread (by decide) rfl htype]
  exact and_iff_right hspread

theorem mem_copies {items : List (Option Value)} {f : Value} :
    some f ∈ items.map (fun item => item.map Value.spread) ↔
      ∃ g, some g ∈ items ∧ g.spread = f := by
  constructor
  · intro hf
    obtain ⟨item, hitem, hmap⟩ := List.mem_map.mp hf
    obtain ⟨g, rfl, rfl⟩ := Option.map_eq_some_iff.mp hmap
    exact ⟨g, hitem, rfl⟩
  · rintro ⟨g, hg, rfl⟩
    exact List.mem_map.mpr ⟨some g, hg, rfl⟩

theorem isInteger_ofInt {i : Int} (hi : i.natAbs < 2 ^ 53) :
    (Value.num (Double.ofInt i)).isInteger = true := by
  have hd : (Double.ofInt i).Denotes i := Double.denotes_ofInt hi
  rw [Value.isInteger]
  exact hd.isInteger

theorem isNonNegativeInt_one : (Value.num (Double.ofInt 1)).isNonNegativeInt = true := by
  have hd : (Double.ofInt 1).Denotes 1 := Double.denotes_ofInt (by decide)
  rw [Value.isNonNegativeInt, hd.isInteger, hd.ltInt]
  rfl

theorem isInteger_zero : (Value.num Double.zero).isInteger = true := by
  have hd : Double.zero.Denotes 0 := Value.denotes_zero false _ _
  rw [Value.isInteger]
  exact hd.isInteger

theorem isVersionPair_default : isVersionPair defaultVersion = true := by
  have hmajor : defaultVersion.member (js "major") = .num (Double.ofInt 1) := rfl
  have hminor : defaultVersion.member (js "minor") = .num (Double.ofInt 0) := rfl
  rw [isVersionPair, hmajor, hminor, Bool.and_eq_true, Bool.and_eq_true]
  exact ⟨⟨rfl, isInteger_ofInt (by decide)⟩, isInteger_ofInt (by decide)⟩

/-- The object of a PublishedDataSet keeps the rules exactly when no field loses
its name or its type in the copy. -/
theorem PublishedDataSetRules.object_iff {cfg : Value} (h : PublishedDataSetRules cfg) :
    PublishedDataSetRules (publishedDataSetObject cfg) ↔ FieldsOwn cfg := by
  obtain ⟨items, hitems, hne, hfields⟩ := h.fields
  have hcopies : ((publishedDataSetObject cfg).member (js "fields")).items? =
      some (items.map fun item => item.map Value.spread) := by
    change some (((cfg.member (js "fields")).items?.getD []).map _) = _
    rw [hitems]
    rfl
  constructor
  · intro hobject items' hitems' f hf
    obtain rfl : items = items' := Option.some.inj (hitems.symm.trans hitems')
    obtain ⟨copies, hcopies', -, hrules⟩ := hobject.fields
    obtain rfl := Option.some.inj (hcopies.symm.trans hcopies')
    exact (fieldRules_spread (hfields f hf)).mp (hrules _ (mem_copies.mpr ⟨f, hf, rfl⟩))
  · intro hown
    constructor
    case object => rfl
    case name => exact h.name
    case fields =>
      refine ⟨_, hcopies, fun hnil => hne (List.map_eq_nil_iff.mp hnil), fun f hf => ?_⟩
      obtain ⟨g, hg, rfl⟩ := mem_copies.mp hf
      exact (fieldRules_spread (hfields g hg)).mpr (hown items hitems g hg)
    case configurationVersion =>
      exact Or.inr (holds_orElse h.configurationVersion rfl isVersionPair_default)

theorem spread_spread (f : Value) : f.spread.spread = f.spread := by
  cases f <;> rfl

theorem publishedDataSetObject_again (cfg : Value) :
    publishedDataSetObject (publishedDataSetObject cfg) = publishedDataSetObject cfg := by
  have hversion := @orElse_orElse defaultVersion rfl (cfg.member (js "configurationVersion"))
    defaultVersion
  have hcopies (items : List (Option Value)) :
      (items.map fun item => item.map Value.spread).map (fun item => item.map Value.spread) =
        items.map fun item => item.map Value.spread := by
    rw [List.map_map]
    refine List.map_congr_left fun item _ => ?_
    cases item with
    | none => rfl
    | some f => exact congrArg some (spread_spread f)
  change Value.plain [(_, cfg.member (js "name")),
    (_, .object .array [] [] ((((cfg.member (js "fields")).items?.getD []).map
      fun item => item.map Value.spread).map fun item => item.map Value.spread)),
    (_, Value.orElse (Value.orElse _ _) _)] = _
  rw [hversion, hcopies]
  rfl

/-- A PublishedDataSet agrees with its validator exactly when its fields own
their names and types. -/
theorem publishedDataSet_agrees_iff (cfg : Value) :
    Agrees validatePublishedDataSet publishedDataSet cfg ↔
      (PublishedDataSetRules cfg → FieldsOwn cfg) := by
  have hcounts : Counts validatePublishedDataSet :=
    counts_of_counted validatePublishedDataSet.eq_1
  refine (@agrees_construct_iff _ (fun cfg => .ok (publishedDataSetObject cfg)) hcounts _
    cfg).trans ?_
  obtain ⟨result, hresult⟩ := answers_of_counted validatePublishedDataSet.eq_1 cfg
  constructor
  · rintro ⟨result', hresult', hbuilds⟩ hrules
    rw [validatePublishedDataSet_iff.mpr hrules] at hresult'
    cases hresult'
    obtain ⟨v, hv, hvalid, -⟩ := hbuilds rfl
    cases hv
    exact hrules.object_iff.mp (validatePublishedDataSet_iff.mp hvalid)
  · intro hown
    refine ⟨result, hresult, fun hvalid => ?_⟩
    rw [(hcounts.valid_iff hresult).mp hvalid] at hresult
    have hrules := validatePublishedDataSet_iff.mp hresult
    exact ⟨_, rfl, validatePublishedDataSet_iff.mpr (hrules.object_iff.mpr (hown hrules)),
      congrArg Except.ok (publishedDataSetObject_again cfg)⟩

/-! ## DataSetWriter -/

/-- The mask asks for RawData. -/
def AsksRawData (mask : Value) : Prop := host.hasRawDataBit (mask.orElse (.num Double.zero)) = .ok true

/-- A field that the cross-validation can report: it has members, and its name has
a text when the field is at fault. -/
def Reportable (f : Value) : Prop :=
  f.isNullish = false ∧ ((isAbstract f).isSome ∨ lacksMaxLength f = true →
    ∃ name, host.text (f.member (js "name")) = .ok name)

/-- The mask has bits, and under RawData each field can be reported. -/
def Readable (mask publishedDataSet : Value) : Prop :=
  (∃ raw, host.hasRawDataBit (mask.orElse (.num Double.zero)) = .ok raw) ∧
    (AsksRawData host mask → ∀ items, fieldsOf? publishedDataSet = some items →
      ∀ f, some f ∈ items → Reportable host f)

/-- A field that RawData can carry. -/
def Concrete (f : Value) : Prop :=
  f.isNullish = false ∧ isAbstract f = none ∧ lacksMaxLength f = false

/-- The mask has bits, and under RawData there are fields, all of them concrete. -/
def RawDataRules (mask publishedDataSet : Value) : Prop :=
  (∃ raw, host.hasRawDataBit (mask.orElse (.num Double.zero)) = .ok raw) ∧
    (AsksRawData host mask → ∃ items, fieldsOf? publishedDataSet = some items ∧
      ∀ f, some f ∈ items → Concrete f)

structure DataSetWriterRules (cfg : Value) : Prop where
  object : cfg.isObject = true
  dataSetWriterId : (cfg.member (js "dataSetWriterId")).isUInt16 = true ∧
    (cfg.member (js "dataSetWriterId")).isZero = false
  dataSetName : Allowed Value.isString (cfg.member (js "dataSetName"))
  keyFrameCount : Allowed Value.isNonNegativeInt (cfg.member (js "keyFrameCount"))
  dataSetFieldContentMask : Allowed Value.isInteger (cfg.member (js "dataSetFieldContentMask"))
  rawData : RawDataRules host (cfg.member (js "dataSetFieldContentMask"))
    (cfg.member (js "publishedDataSet"))

theorem rawDataIssues_answers {i : Nat} {f : Value} :
    (∃ issues, rawDataIssues host i f = .ok issues) ↔ Reportable host f := by
  rw [rawDataIssues, Reportable]
  cases f.isNullish with
  | true => simp
  | false =>
      cases isAbstract f <;> cases lacksMaxLength f <;>
        cases host.text (f.member (js "name")) <;> simp [bind, pure, Except.bind, Except.pure]

theorem rawDataIssues_eq_nil {i : Nat} {f : Value} :
    rawDataIssues host i f = .ok [] ↔ Concrete f := by
  rw [rawDataIssues, Concrete]
  cases f.isNullish with
  | true => simp
  | false =>
      cases isAbstract f <;> cases lacksMaxLength f <;>
        cases host.text (f.member (js "name")) <;> simp [bind, pure, Except.bind, Except.pure]

theorem rawDataFieldsIssues_answers {i : Nat} {items : List (Option Value)} :
    (∃ issues, rawDataFieldsIssues host i items = .ok issues) ↔
      ∀ f, some f ∈ items → Reportable host f := by
  induction items generalizing i with
  | nil => exact iff_of_true ⟨[], rfl⟩ fun f hf => nomatch hf
  | cons item items ih =>
      cases item with
      | none => simp [rawDataFieldsIssues, ih]
      | some f =>
          rw [forall_some_cons, ← @ih (i + 1), ← @rawDataIssues_answers host i f,
            rawDataFieldsIssues]
          cases rawDataIssues host i f <;> cases rawDataFieldsIssues host (i + 1) items <;>
            simp [bind, pure, Except.bind, Except.pure]

theorem rawDataFieldsIssues_eq_nil {i : Nat} {items : List (Option Value)} :
    rawDataFieldsIssues host i items = .ok [] ↔ ∀ f, some f ∈ items → Concrete f := by
  induction items generalizing i with
  | nil => exact iff_of_true rfl fun f hf => nomatch hf
  | cons item items ih =>
      cases item with
      | none => simp [rawDataFieldsIssues, ih]
      | some f =>
          rw [forall_some_cons, ← @ih (i + 1), ← @rawDataIssues_eq_nil host i f,
            rawDataFieldsIssues]
          cases rawDataIssues host i f <;> cases rawDataFieldsIssues host (i + 1) items <;>
            simp [bind, pure, Except.bind, Except.pure]

theorem crossIssues_answers {mask pds : Value} :
    (∃ issues, crossIssues host mask pds = .ok issues) ↔ Readable host mask pds := by
  rw [crossIssues, Readable, AsksRawData]
  cases host.hasRawDataBit (mask.orElse (.num Double.zero)) with
  | error e => simp [bind, Except.bind]
  | ok raw =>
      cases raw with
      | false => simp [bind, pure, Except.bind, Except.pure]
      | true =>
          cases hfields : fieldsOf? pds with
          | none => simp [bind, pure, Except.bind, Except.pure]
          | some items =>
              simpa [bind, Except.bind] using rawDataFieldsIssues_answers host

theorem crossIssues_eq_nil {mask pds : Value} :
    crossIssues host mask pds = .ok [] ↔ RawDataRules host mask pds := by
  rw [crossIssues, RawDataRules, AsksRawData]
  cases host.hasRawDataBit (mask.orElse (.num Double.zero)) with
  | error e => simp [bind, Except.bind]
  | ok raw =>
      cases raw with
      | false => simp [bind, pure, Except.bind, Except.pure]
      | true =>
          cases hfields : fieldsOf? pds with
          | none => simp [bind, pure, Except.bind, Except.pure]
          | some items =>
              simpa [bind, Except.bind] using rawDataFieldsIssues_eq_nil host

theorem validateDataSetWriter_answers {cfg : Value} :
    (∃ result, validateDataSetWriter host cfg = .ok result) ↔ (cfg.isObject = true →
      Readable host (cfg.member (js "dataSetFieldContentMask"))
        (cfg.member (js "publishedDataSet"))) := by
  rw [← crossIssues_answers, validateDataSetWriter]
  cases cfg.isObject with
  | false => simp
  | true =>
      cases crossIssues host (cfg.member (js "dataSetFieldContentMask"))
        (cfg.member (js "publishedDataSet")) <;> simp [bind, pure, Except.bind, Except.pure]

theorem validateDataSetWriter_iff {cfg : Value} :
    validateDataSetWriter host cfg = .ok ⟨true, []⟩ ↔ DataSetWriterRules host cfg := by
  have hrules : DataSetWriterRules host cfg ↔ cfg.isObject = true ∧
      ((cfg.member (js "dataSetWriterId")).isUInt16 = true ∧
        (cfg.member (js "dataSetWriterId")).isZero = false) ∧
      Allowed Value.isString (cfg.member (js "dataSetName")) ∧
      Allowed Value.isNonNegativeInt (cfg.member (js "keyFrameCount")) ∧
      Allowed Value.isInteger (cfg.member (js "dataSetFieldContentMask")) ∧
      crossIssues host (cfg.member (js "dataSetFieldContentMask"))
        (cfg.member (js "publishedDataSet")) = .ok [] := by
    rw [crossIssues_eq_nil]
    exact ⟨fun h => ⟨h.object, h.dataSetWriterId, h.dataSetName, h.keyFrameCount,
      h.dataSetFieldContentMask, h.rawData⟩, fun ⟨h₁, h₂, h₃, h₄, h₅, h₆⟩ =>
      ⟨h₁, h₂, h₃, h₄, h₅, h₆⟩⟩
  rw [hrules, validateDataSetWriter]
  cases cfg.isObject with
  | false => simp [notAnObject]
  | true =>
      cases crossIssues host (cfg.member (js "dataSetFieldContentMask"))
        (cfg.member (js "publishedDataSet")) with
      | error e => simp [bind, Except.bind]
      | ok issues => simp [bind, pure, Except.bind, Except.pure, validation, and_assoc]

theorem counts_validateDataSetWriter : Counts (validateDataSetWriter host) := by
  intro cfg result hresult
  rw [validateDataSetWriter] at hresult
  cases hobject : cfg.isObject with
  | false =>
      rw [hobject] at hresult
      cases hresult
      rfl
  | true =>
      rw [hobject] at hresult
      obtain ⟨issues, -, hpure⟩ := bind_eq_ok.mp hresult
      cases hpure
      rfl

/-- Each String field has its length as an own member. -/
def OwnLengths (cfg : Value) : Prop :=
  ∀ items, (cfg.member (js "fields")).items? = some items → ∀ f, some f ∈ items →
    f.member (js "dataType") = .str (js "String") → Owns f (js "maxStringLength")

theorem fieldsOf?_eq {pds : Value} (h : pds.truthy = true) :
    fieldsOf? pds = (pds.member (js "fields")).items? := by
  rw [fieldsOf?, if_pos h]

/-- The copy of a concrete field whose type is its own is concrete exactly when
a String's length is its own. -/
theorem concrete_spread {f : Value} (h : Concrete f) (htype : Owns f (js "dataType")) :
    Concrete f.spread ↔
      (f.member (js "dataType") = .str (js "String") → Owns f (js "maxStringLength")) := by
  obtain ⟨-, habstract, hlength⟩ := h
  have hthere : f.spread.isNullish = false := by
    cases f <;> rfl
  have hsame : f.spread.member (js "dataType") = f.member (js "dataType") := by
    rw [member_spread (by decide), Value.member]
    obtain ⟨m, hm⟩ := Option.isSome_iff_exists.mp htype
    rw [hm]
    rfl
  rw [Concrete, isAbstract, lacksMaxLength, hsame, ← isAbstract, habstract]
  rw [lacksMaxLength] at hlength
  cases hdata : f.member (js "dataType") with
  | str s =>
      rw [hdata] at hlength
      by_cases hs : s = js "String"
      · subst hs
        have hmax : (f.member (js "maxStringLength")).isNonNegativeInt = true := by simpa using hlength
        have howned := owned_spread (by decide) rfl hmax
        simp [hthere, ← howned]
      · simp [hthere, hs]
  | _ => simp [hthere]

/-- The writer's rules over the copy of its PublishedDataSet. -/
theorem rawDataRules_copy {mask pds : Value} (h : RawDataRules host mask pds)
    (hpds : pds.truthy = true) (hrules : PublishedDataSetRules pds) (hown : FieldsOwn pds) :
    RawDataRules host mask (publishedDataSetObject pds) ↔
      (AsksRawData host mask → OwnLengths pds) := by
  obtain ⟨items, hitems, -⟩ := hrules.fields
  have hcopies : fieldsOf? (publishedDataSetObject pds) =
      some (items.map fun item => item.map Value.spread) := by
    change some (((pds.member (js "fields")).items?.getD []).map _) = _
    rw [hitems]
    rfl
  have hconcrete (hraw : AsksRawData host mask) : ∀ f, some f ∈ items → Concrete f := by
    obtain ⟨items', hitems', hall⟩ := h.2 hraw
    rw [fieldsOf?_eq hpds, hitems] at hitems'
    cases hitems'
    exact hall
  constructor
  · rintro ⟨-, hcopy⟩ hraw items' hitems' f hf
    obtain rfl : items = items' := Option.some.inj (hitems.symm.trans hitems')
    obtain ⟨copies, hcopies', hall⟩ := hcopy hraw
    obtain rfl := Option.some.inj (hcopies.symm.trans hcopies')
    exact (concrete_spread (hconcrete hraw f hf) (hown items hitems f hf).2).mp
      (hall _ (mem_copies.mpr ⟨f, hf, rfl⟩))
  · intro hlengths
    refine ⟨h.1, fun hraw => ⟨_, hcopies, fun f hf => ?_⟩⟩
    obtain ⟨g, hg, rfl⟩ := mem_copies.mp hf
    exact (concrete_spread (hconcrete hraw g hg) (hown items hitems g hg).2).mpr
      (hlengths hraw items hitems g hg)

theorem dataSetWriterObject_again (cfg pds pds' : Value) :
    dataSetWriterObject (dataSetWriterObject cfg pds) pds' = dataSetWriterObject cfg pds' := by
  have hcount := @orElse_orElse (.num (Double.ofInt 1)) rfl (cfg.member (js "keyFrameCount"))
    (.num (Double.ofInt 1))
  have hmask := @orElse_orElse (.num Double.zero) rfl
    (cfg.member (js "dataSetFieldContentMask")) (.num Double.zero)
  change Value.plain [(_, cfg.member (js "dataSetWriterId")), (_, cfg.member (js "dataSetName")),
    (_, Value.orElse (Value.orElse _ _) _), (_, Value.orElse (Value.orElse _ _) _), (_, pds')] = _
  rw [hcount, hmask]
  rfl

/-- The object of a DataSetWriter keeps the rules exactly when the PublishedDataSet
it holds keeps those of RawData. -/
theorem DataSetWriterRules.object_iff {cfg : Value} (h : DataSetWriterRules host cfg)
    (pds : Value) : DataSetWriterRules host (dataSetWriterObject cfg pds) ↔
      RawDataRules host (cfg.member (js "dataSetFieldContentMask")) pds := by
  have hmask := @orElse_orElse (.num Double.zero) rfl
    (cfg.member (js "dataSetFieldContentMask")) (.num Double.zero)
  have hsame : RawDataRules host ((cfg.member (js "dataSetFieldContentMask")).orElse
      (.num Double.zero)) pds ↔
      RawDataRules host (cfg.member (js "dataSetFieldContentMask")) pds := by
    rw [RawDataRules, AsksRawData, hmask]
    rfl
  rw [← hsame]
  constructor
  · intro hobject
    exact hobject.rawData
  · intro hraw
    constructor
    case object => rfl
    case dataSetWriterId => exact h.dataSetWriterId
    case dataSetName => exact h.dataSetName
    case keyFrameCount => exact Or.inr (holds_orElse h.keyFrameCount rfl isNonNegativeInt_one)
    case dataSetFieldContentMask =>
      exact Or.inr (holds_orElse h.dataSetFieldContentMask rfl isInteger_zero)
    case rawData => exact hraw

/-- What the PublishedDataSet of a valid writer is built into. -/
theorem nestedDataSet_eq_ok {pds v : Value} : nestedDataSet pds = .ok v ↔
    (pds.truthy = false ∧ v = .undefined) ∨
      (pds.truthy = true ∧ PublishedDataSetRules pds ∧ v = publishedDataSetObject pds) := by
  rw [nestedDataSet]
  cases pds.truthy with
  | false => simp [eq_comm]
  | true =>
      have hcounts : Counts validatePublishedDataSet :=
        counts_of_counted validatePublishedDataSet.eq_1
      rw [if_pos rfl, publishedDataSet, construct_eq_ok hcounts, validatePublishedDataSet_iff]
      simp [eq_comm]

theorem dataSetWriter_eq_ok {cfg v : Value} : dataSetWriter host cfg = .ok v ↔
    DataSetWriterRules host cfg ∧
      ∃ pds, nestedDataSet (cfg.member (js "publishedDataSet")) = .ok pds ∧
        v = dataSetWriterObject cfg pds := by
  rw [dataSetWriter, construct_eq_ok (counts_validateDataSetWriter host), validateDataSetWriter_iff,
    map_eq_ok]
  simp [eq_comm]

/-- A DataSetWriter agrees with its validator exactly when the validator can read
it, its PublishedDataSet is one, and the copy of the fields keeps what the rules
look at. -/
theorem dataSetWriter_agrees_iff (cfg : Value) :
    Agrees (validateDataSetWriter host) (dataSetWriter host) cfg ↔
      (cfg.isObject = true → Readable host (cfg.member (js "dataSetFieldContentMask"))
        (cfg.member (js "publishedDataSet"))) ∧
      (DataSetWriterRules host cfg → (cfg.member (js "publishedDataSet")).truthy = true →
        PublishedDataSetRules (cfg.member (js "publishedDataSet")) ∧
          FieldsOwn (cfg.member (js "publishedDataSet")) ∧
          (AsksRawData host (cfg.member (js "dataSetFieldContentMask")) →
            OwnLengths (cfg.member (js "publishedDataSet")))) := by
  have hcounts := counts_validateDataSetWriter host
  refine (@agrees_construct_iff _ (fun cfg =>
    (nestedDataSet (cfg.member (js "publishedDataSet"))).map (dataSetWriterObject cfg)) hcounts _
    cfg).trans ?_
  rw [← validateDataSetWriter_answers]
  constructor
  · rintro ⟨result, hresult, hbuilds⟩
    refine ⟨⟨result, hresult⟩, fun hrules hpds => ?_⟩
    rw [(validateDataSetWriter_iff host).mpr hrules] at hresult
    cases hresult
    obtain ⟨v, hv, hvalid, hagain⟩ := hbuilds rfl
    obtain ⟨pds', hpds', rfl⟩ := map_eq_ok.mp hv
    obtain ⟨hfalsy, -⟩ | ⟨-, hpdsRules, rfl⟩ := nestedDataSet_eq_ok.mp hpds'
    · exact Bool.noConfusion (hpds.symm.trans hfalsy)
    have hraw := (hrules.object_iff host _).mp ((validateDataSetWriter_iff host).mp hvalid)
    obtain ⟨pds'', hpds'', -⟩ := map_eq_ok.mp hagain
    obtain ⟨hfalsy, -⟩ | ⟨-, hcopyRules, -⟩ := nestedDataSet_eq_ok.mp hpds''
    · cases hfalsy
    have hown := hpdsRules.object_iff.mp hcopyRules
    exact ⟨hpdsRules, hown, (rawDataRules_copy host hrules.rawData hpds hpdsRules hown).mp hraw⟩
  · rintro ⟨⟨result, hresult⟩, hnested⟩
    refine ⟨result, hresult, fun hvalid => ?_⟩
    rw [(hcounts.valid_iff hresult).mp hvalid] at hresult
    have hrules := (validateDataSetWriter_iff host).mp hresult
    cases hpds : (cfg.member (js "publishedDataSet")).truthy with
    | false =>
        have hraw : RawDataRules host (cfg.member (js "dataSetFieldContentMask")) .undefined := by
          refine ⟨hrules.rawData.1, fun hasks => ?_⟩
          obtain ⟨items, hitems, -⟩ := hrules.rawData.2 hasks
          rw [fieldsOf?, hpds] at hitems
          cases hitems
        refine ⟨dataSetWriterObject cfg .undefined, ?_, ?_, ?_⟩
        · rw [nestedDataSet_eq_ok.mpr (Or.inl ⟨hpds, rfl⟩)]
          rfl
        · exact (validateDataSetWriter_iff host).mpr ((hrules.object_iff host _).mpr hraw)
        · exact congrArg Except.ok (dataSetWriterObject_again cfg _ _)
    | true =>
        obtain ⟨hpdsRules, hown, hlengths⟩ := hnested hrules hpds
        refine ⟨dataSetWriterObject cfg (publishedDataSetObject
          (cfg.member (js "publishedDataSet"))), ?_, ?_, ?_⟩
        · rw [nestedDataSet_eq_ok.mpr (Or.inr ⟨hpds, hpdsRules, rfl⟩)]
          rfl
        · exact (validateDataSetWriter_iff host).mpr ((hrules.object_iff host _).mpr
            ((rawDataRules_copy host hrules.rawData hpds hpdsRules hown).mpr hlengths))
        · have hcopy : nestedDataSet (publishedDataSetObject (cfg.member (js "publishedDataSet"))) =
              .ok (publishedDataSetObject (cfg.member (js "publishedDataSet"))) :=
            nestedDataSet_eq_ok.mpr (Or.inr ⟨rfl, hpdsRules.object_iff.mpr hown,
              (publishedDataSetObject_again _).symm⟩)
          change (nestedDataSet (publishedDataSetObject (cfg.member (js "publishedDataSet")))).map
            _ = _
          rw [hcopy]
          exact congrArg Except.ok (dataSetWriterObject_again cfg _ _)

/-! ## DataSetReader -/

structure DataSetReaderRules (cfg : Value) : Prop where
  object : cfg.isObject = true
  filter : (cfg.member (js "publisherId")).isUndefined = false ∨
    (cfg.member (js "writerGroupId")).isUndefined = false ∨
    (cfg.member (js "dataSetWriterId")).isUndefined = false
  keepAliveTime : Allowed Value.isPositiveNumber (cfg.member (js "keepAliveTime"))
  messageReceiveTimeout : Allowed Value.isPositiveNumber
    (cfg.member (js "messageReceiveTimeout"))
  dataSetFieldContentMask : Allowed Value.isInteger (cfg.member (js "dataSetFieldContentMask"))

theorem validateDataSetReader_iff {cfg : Value} :
    validateDataSetReader cfg = .ok ⟨true, []⟩ ↔ DataSetReaderRules cfg := by
  rw [validateDataSetReader, counted_iff]
  simp only [List.append_eq_nil_iff, require_eq_nil, optional_eq_nil, Bool.or_eq_true,
    Bool.not_eq_true', or_assoc]
  constructor
  · rintro ⟨hobject, ⟨⟨hfilter, hkeepAlive⟩, htimeout⟩, hmask⟩
    exact ⟨hobject, hfilter, hkeepAlive, htimeout, hmask⟩
  · intro h
    exact ⟨h.object, ⟨⟨h.filter, h.keepAliveTime⟩, h.messageReceiveTimeout⟩,
      h.dataSetFieldContentMask⟩

/-- Three times the KeepAliveTime is a number. -/
def TimeoutFits (keepAliveTime : Value) : Prop :=
  ∀ d, keepAliveTime = .num d → (d.scale 3).isFinite = true

theorem defaultTimeout_positive_iff {keepAliveTime : Value}
    (h : Allowed Value.isPositiveNumber keepAliveTime) :
    (Value.num (defaultTimeout keepAliveTime)).isPositiveNumber = true ↔
      TimeoutFits keepAliveTime := by
  have hfloor : (Value.num (Double.ofInt 5000)).isPositiveNumber = true := by decide
  cases keepAliveTime with
  | num d =>
      obtain h | hpositive := h
      · cases h
      obtain ⟨hfinite, hpos⟩ : d.isFinite = true ∧ d.gtInt 0 = true := by
        simpa [Value.isPositiveNumber] using hpositive
      have hfits : TimeoutFits (.num d) ↔ (d.scale 3).isFinite = true := by
        simp [TimeoutFits]
      rw [hfits, defaultTimeout, hpositive, Bool.true_and]
      cases hgt : (d.scale 3).gtInt 5000 with
      | true => simp [Value.isPositiveNumber, BinaryFloat.Value.gtInt_zero (by decide) hgt]
      | false =>
          refine iff_of_true hfloor ?_
          obtain hscaled | hinf := BinaryFloat.Value.scale_cases hfinite hpos 3
          · exact hscaled
          · rw [hinf] at hgt
            cases hgt
  | _ => exact iff_of_true hfloor fun d hd => nomatch hd

theorem DataSetReaderRules.object_iff {cfg : Value} (h : DataSetReaderRules cfg) :
    DataSetReaderRules (dataSetReaderObject cfg) ↔
      (cfg.member (js "messageReceiveTimeout") = .undefined →
        TimeoutFits (cfg.member (js "keepAliveTime"))) := by
  rw [← defaultTimeout_positive_iff h.keepAliveTime]
  constructor
  · intro hobject habsent
    have htimeout : Allowed Value.isPositiveNumber
      ((cfg.member (js "messageReceiveTimeout")).orElse _) := hobject.messageReceiveTimeout
    rw [habsent] at htimeout
    obtain hundefined | hpositive := htimeout
    · cases hundefined
    · exact hpositive
  · intro hdefault
    constructor
    case object => rfl
    case filter => exact h.filter
    case keepAliveTime => exact h.keepAliveTime
    case messageReceiveTimeout =>
      change Allowed _ ((cfg.member (js "messageReceiveTimeout")).orElse _)
      obtain habsent | hpresent := h.messageReceiveTimeout
      · rw [habsent]
        exact Or.inr (hdefault habsent)
      · rw [orElse_of_there (there_of_positive hpresent)]
        exact Or.inr hpresent
    case dataSetFieldContentMask =>
      exact Or.inr (holds_orElse h.dataSetFieldContentMask rfl isInteger_zero)

theorem dataSetReaderObject_again (cfg : Value) :
    dataSetReaderObject (dataSetReaderObject cfg) = dataSetReaderObject cfg := by
  have htimeout := @orElse_orElse (.num (defaultTimeout (cfg.member (js "keepAliveTime")))) rfl
    (cfg.member (js "messageReceiveTimeout"))
    (.num (defaultTimeout (cfg.member (js "keepAliveTime"))))
  have hmask := @orElse_orElse (.num Double.zero) rfl
    (cfg.member (js "dataSetFieldContentMask")) (.num Double.zero)
  change Value.plain [(_, cfg.member (js "publisherId")), (_, cfg.member (js "writerGroupId")),
    (_, cfg.member (js "dataSetWriterId")), (_, cfg.member (js "keepAliveTime")),
    (_, Value.orElse (Value.orElse _ _)
      (.num (defaultTimeout (cfg.member (js "keepAliveTime"))))),
    (_, Value.orElse (Value.orElse _ _) _)] = _
  rw [htimeout, hmask]
  rfl

/-- A DataSetReader agrees with its validator exactly when its default timeout
does not overflow. -/
theorem dataSetReader_agrees_iff (cfg : Value) :
    Agrees validateDataSetReader dataSetReader cfg ↔ (DataSetReaderRules cfg →
      cfg.member (js "messageReceiveTimeout") = .undefined →
        TimeoutFits (cfg.member (js "keepAliveTime"))) := by
  have hcounts : Counts validateDataSetReader := counts_of_counted validateDataSetReader.eq_1
  refine (@agrees_construct_iff _ (fun cfg => .ok (dataSetReaderObject cfg)) hcounts _
    cfg).trans ?_
  obtain ⟨result, hresult⟩ := answers_of_counted validateDataSetReader.eq_1 cfg
  constructor
  · rintro ⟨result', hresult', hbuilds⟩ hrules
    rw [validateDataSetReader_iff.mpr hrules] at hresult'
    cases hresult'
    obtain ⟨v, hv, hvalid, -⟩ := hbuilds rfl
    cases hv
    exact hrules.object_iff.mp (validateDataSetReader_iff.mp hvalid)
  · intro hfits
    refine ⟨result, hresult, fun hvalid => ?_⟩
    rw [(hcounts.valid_iff hresult).mp hvalid] at hresult
    have hrules := validateDataSetReader_iff.mp hresult
    exact ⟨_, rfl, validateDataSetReader_iff.mpr (hrules.object_iff.mpr (hfits hrules)),
      congrArg Except.ok (dataSetReaderObject_again cfg)⟩

/-! ## All four -/

/-- Integers and objects as a template prints them. -/
def plainHost : Host where
  numText d := intText d.trunc
  objectText _ := .ok (js "[object Object]")
  rawDataBit _ := .ok false

/-- A writer under RawData with a null field. -/
def nullFieldWriter : Value :=
  Value.plain [
    (js "dataSetWriterId", .num (Double.ofInt 1)),
    (js "dataSetFieldContentMask", .num (Double.ofInt 32)),
    (js "publishedDataSet", Value.plain [(js "fields", .object .array [] [] [some .null])])]

end OpcUaSuite.PubSub.Config
