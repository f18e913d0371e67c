import Mathlib.Data.List.TakeWhile
import OpcUaSuite.Nodes.EndToEnd

/-!
# What a subscriber emits for a message

A message for every DataSetMessage that passes the filter and carries no other
version, with the raw values of its fields. A Variant and a DataValue are told
apart by the members of the value alone.
-/

namespace OpcUaSuite.Nodes

open Js ByteCodec PubSub

variable (host : Host)

/-! ## The expected version -/

/-- `Number(text)`; a plain numeral is the number it spells. -/
def numberOfText (text : JsString) : Double :=
  match numeral? text with
  | some n => Double.ofInt n
  | none => host.numberOfText text

/-- The first two parts of `text.split(".")`. -/
def versionParts (text : JsString) : JsString × Option JsString :=
  (text.takeWhile (· ≠ 46), match text.dropWhile (· ≠ 46) with
    | [] => none
    | _ :: rest => some (rest.takeWhile (· ≠ 46)))

/-- The `expectedCv` of a configuration with this `expectedConfigVersion`. -/
def expectedVersionOf (text : JsString) : Option ExpectedVersion :=
  let major := numberOfText host (versionParts text).1
  let minor := match (versionParts text).2 with
    | none => .nan
    | some part => numberOfText host part
  if text = [] then none
  else if h : major ≠ .nan ∧ minor ≠ .nan then some ⟨major, minor, h⟩
  else none

/-- The text is of the form `<major>.<minor>`. -/
def VersionText (text : JsString) (major minor : Nat) : Prop :=
  ∃ s t, text = s ++ js "." ++ t ∧ numeral? s = some major ∧ numeral? t = some minor

/-! ## What is to be emitted -/

variable (config : SubscriberConfig) (nm : NetworkMessage)

/-- The id of a DataSetMessage: its own, or the one of its place in the header. -/
def dataSetWriterIdOf (p : DataSetMessage × Nat) : JsValue :=
  if p.1.dataSetWriterId ≠ .undefined then p.1.dataSetWriterId
  else (nm.payloadHeader.getD []).getD p.2 .undefined

/-- All filters that are set hold: PublisherIds have the same text, ids are equal. -/
structure Matches (p : DataSetMessage × Nat) : Prop where
  publisherId : config.reader.publisherId = .undefined ∨
    (convertible config.reader.publisherId = true ∧ convertible nm.publisherId = true) ∧
      host.toText config.reader.publisherId = host.toText nm.publisherId
  writerGroupId : config.reader.writerGroupId = .undefined ∨
    config.reader.writerGroupId.strictEq
      ((nm.groupHeader.map (·.writerGroupId)).getD .undefined) = true
  dataSetWriterId : config.reader.dataSetWriterId = .undefined ∨
    config.reader.dataSetWriterId.strictEq (dataSetWriterIdOf nm p) = true

/-- The DataSetMessage carries another version. -/
def OtherVersion (major minor : Nat) : Option ConfigurationVersion → Prop
  | none => False
  | some got => ¬ (got.major.strictEq (.nat major) = true ∧ got.minor.strictEq (.nat minor) = true)

/-- The raw value of a field; a DataValue without a Variant has none. -/
def Holds (v : JsValue) : Field → Prop
  | .null => v = .null
  | .variant w => v = w.value
  | .dataValue dv =>
      match dv.value with
      | some (some w) => v = w.value
      | some none | none => v = .null ∨ v = .undefined

/-- The payload has the raw value of each field under its name, and nothing else. -/
def PayloadHolds (fields : List (JsString × Field)) (payload : List (JsString × JsValue)) : Prop :=
  ∀ name, Option.Rel (fun field v => Holds v field) (Props.get? name fields)
    (Props.get? name payload)

structure MsgOf (p : DataSetMessage × Nat) (msg : Msg) : Prop where
  dataSetWriterId : msg.dataSetWriterId = dataSetWriterIdOf nm p
  payload : PayloadHolds (p.1.fields.getD []) msg.payload

/-- The filter of the node is the conjunction of the filters that are set. -/
theorem accepts_iff (p : DataSetMessage × Nat) :
    accepts host config nm.publisherId ((nm.groupHeader.map (·.writerGroupId)).getD .undefined)
      (dataSetWriterIdOf nm p) = true ↔ Matches host config nm p := by
  constructor
  · intro h
    simp only [accepts, comparable, Bool.and_eq_true, Bool.or_eq_true, decide_eq_true_eq] at h
    exact ⟨by tauto, by tauto, by tauto⟩
  · rintro ⟨hpublisher, hgroup, hwriter⟩
    simp only [accepts, comparable, Bool.and_eq_true, Bool.or_eq_true, decide_eq_true_eq]
    tauto

instance (p : DataSetMessage × Nat) : Decidable (Matches host config nm p) :=
  decidable_of_iff _ (accepts_iff host config nm p)

instance (major minor : Nat) : (got : Option ConfigurationVersion) →
    Decidable (OtherVersion major minor got)
  | none => isFalse id
  | some _ => inferInstanceAs (Decidable (¬ _))

/-- The DataSetMessage is to be emitted. -/
def Passes (major minor : Nat) (p : DataSetMessage × Nat) : Prop :=
  Matches host config nm p ∧ ¬ OtherVersion major minor p.1.configurationVersion

instance (major minor : Nat) (p : DataSetMessage × Nat) :
    Decidable (Passes host config nm major minor p) := by
  unfold Passes
  infer_instance

/-- One message for each DataSetMessage to be emitted, in the order of the payload. -/
def EmitsPassing (major minor : Nat) (now : Int) (topic : Option JsString) : Prop :=
  List.Forall₂ (MsgOf nm) (nm.payload.zipIdx.filter fun p => Passes host config nm major minor p)
    (sent (handleNetworkMessage host config now topic nm))

/-! ## What goes wrong -/

/-- An object with a member called `value`. -/
def hasValueMember : JsValue → Bool
  | .object props => (Props.get? (js "value") props).isSome
  | _ => false

/-- The field is not taken for another kind: the value of a Variant has no member
`value`, and a DataValue has a Variant, if a null one. -/
def Unmistakable : Field → Prop
  | .null => True
  | .variant v => hasValueMember v.value = false
  | .dataValue dv => dv.value ≠ none

instance : (field : Field) → Decidable (Unmistakable field)
  | .null => isTrue trivial
  | .variant _ => inferInstanceAs (Decidable (_ = _))
  | .dataValue _ => inferInstanceAs (Decidable (_ ≠ _))

/-- The error about another version cannot be put together. -/
def Raises (major minor : Nat) (p : DataSetMessage × Nat) : Prop :=
  Matches host config nm p ∧ OtherVersion major minor p.1.configurationVersion ∧
    printableVersion p.1.configurationVersion = false

instance (major minor : Nat) (p : DataSetMessage × Nat) :
    Decidable (Raises host config nm major minor p) := by
  unfold Raises
  infer_instance

/-! ## The version text -/

theorem digits_ne_dot {s : JsString} {ds : List Nat} (h : digits s = some ds) :
    ∀ u ∈ s, u ≠ 46 := by
  induction s generalizing ds with
  | nil => exact List.forall_mem_nil _
  | cons u s ih =>
      rw [digits] at h
      split at h
      next hu =>
        obtain ⟨ds', hds', -⟩ := Option.map_eq_some_iff.mp h
        refine List.forall_mem_cons.mpr ⟨?_, ih hds'⟩
        rintro rfl
        exact absurd hu.1 (by decide)
      next => cases h

theorem numeral?_ne_dot {s : JsString} {n : Nat} (h : numeral? s = some n) : ∀ u ∈ s, u ≠ 46 := by
  rw [numeral?] at h
  cases hds : digits s with
  | none =>
      rw [hds] at h
      cases h
  | some ds => exact digits_ne_dot hds

theorem versionParts_eq {s t : JsString} (hs : ∀ u ∈ s, u ≠ 46) (ht : ∀ u ∈ t, u ≠ 46) :
    versionParts (s ++ js "." ++ t) = (s, some t) := by
  have hs' : ∀ u ∈ s, decide (u ≠ 46) = true := fun u hu => decide_eq_true (hs u hu)
  have ht' : ∀ u ∈ t, decide (u ≠ 46) = true := fun u hu => decide_eq_true (ht u hu)
  have hdot : s ++ js "." ++ t = s ++ (46 :: t) := by
    rw [List.append_assoc]
    rfl
  rw [versionParts, hdot, List.takeWhile_append_of_pos hs', List.dropWhile_append_of_pos hs']
  have hself := List.takeWhile_eq_self_iff.mpr ht'
  simpa using hself

theorem ofInt_ne_nan (i : Int) : Double.ofInt i ≠ .nan := BinaryFloat.Value.round_ne_nan _ _ _

/-- A text of the form `<major>.<minor>` is read as these two numbers. -/
theorem expectedVersionOf_text {text : JsString} {major minor : Nat}
    (h : VersionText text major minor) : expectedVersionOf host text =
      some ⟨Double.ofInt major, Double.ofInt minor, ofInt_ne_nan major, ofInt_ne_nan minor⟩ := by
  obtain ⟨s, t, rfl, hs, ht⟩ := h
  have hparts := versionParts_eq (numeral?_ne_dot hs) (numeral?_ne_dot ht)
  have hmajor : numberOfText host s = Double.ofInt major := by rw [numberOfText, hs]
  have hminor : numberOfText host t = Double.ofInt minor := by rw [numberOfText, ht]
  have hne : s ++ js "." ++ t ≠ [] := by
    rw [List.append_assoc]
    exact List.append_ne_nil_of_right_ne_nil _ (List.cons_ne_nil _ _)
  simp only [expectedVersionOf, hparts, hmajor, hminor]
  rw [if_neg hne, dif_pos ⟨ofInt_ne_nan major, ofInt_ne_nan minor⟩]

/-! ## Fields of decoded messages -/

/-- The fields were put together by assignments. -/
def FieldsBuilt (dsm : DataSetMessage) : Prop :=
  ∀ fields, dsm.fields = some fields → ∃ entries, fields = Props.ofEntries entries

theorem yields_dataSetMessage : Yields Uadp.readDataSetMessage FieldsBuilt := by
  have hbody : ∀ encoding messageType, Yields (Uadp.readBody encoding messageType)
      fun fields => ∀ fs, fields = some fs → ∃ entries, fs = Props.ofEntries entries := by
    intro encoding messageType
    unfold Uadp.readBody
    split
    · refine Yields.bind (P := fun fs => ∃ entries, fs = Props.ofEntries entries) ?_ ?_
      · exact Yields.after fun count => Yields.after fun entries => Yields.pure ⟨entries, rfl⟩
      · rintro fs hfs
        refine Yields.pure fun fs' hfs' => ?_
        cases hfs'
        exact hfs
    · refine Yields.pure fun fs hfs => ?_
      cases hfs
  unfold Uadp.readDataSetMessage
  iterate 8 refine Yields.after fun _ => ?_
  split
  · exact Yields.fail _
  · exact Yields.bind (hbody _ _) fun fields hfields => Yields.pure hfields

theorem yields_payload (count : Nat) :
    Yields (Uadp.readPayload count) fun dsms => ∀ dsm ∈ dsms, FieldsBuilt dsm := by
  have hsized : ∀ size, Yields (Uadp.readSized size) FieldsBuilt := by
    intro size
    refine Yields.after fun bytes => ?_
    split
    next dsm hdsm => exact Yields.pure (yields_dataSetMessage.run hdsm)
    next => exact Yields.fail _
  have hall : ∀ sizes, Yields (Uadp.readSizedAll sizes)
      fun dsms => ∀ dsm ∈ dsms, FieldsBuilt dsm := by
    intro sizes
    induction sizes with
    | nil => exact Yields.pure (List.forall_mem_nil _)
    | cons size sizes ih =>
        exact Yields.bind (hsized size) fun dsm hdsm => Yields.bind ih fun dsms hdsms =>
          Yields.pure (List.forall_mem_cons.mpr ⟨hdsm, hdsms⟩)
  unfold Uadp.readPayload
  split
  · exact Yields.after fun sizes => hall sizes
  · refine Yields.after fun remaining => ?_
    split
    · exact Yields.bind yields_dataSetMessage fun dsm hdsm =>
        Yields.pure (List.forall_mem_singleton.mpr hdsm)
    · exact Yields.pure (List.forall_mem_nil _)

theorem fieldsBuilt_uadp {buffer : Bytes} {nm : NetworkMessage}
    (h : Uadp.decodeNetworkMessage buffer = .ok nm) : ∀ dsm ∈ nm.payload, FieldsBuilt dsm := by
  have hyields : Yields Uadp.readNetworkMessage
      fun nm => ∀ dsm ∈ nm.payload, FieldsBuilt dsm := by
    refine Yields.after fun header => ?_
    obtain ⟨nm, extFlags2⟩ := header
    dsimp only
    split
    · exact Yields.fail _
    · split
      · exact Yields.after fun chunk => Yields.pure (List.forall_mem_nil _)
      · exact Yields.bind (yields_payload _) fun payload hpayload => Yields.pure hpayload
  exact hyields.run h

theorem fieldsBuilt_json {text : JsonEncoder.Text} {nm : NetworkMessage}
    (h : JsonEncoder.decodeNetworkMessage host text = .ok nm) :
    ∀ dsm ∈ nm.payload, FieldsBuilt dsm := by
  have hone : ∀ v path dsm, JsonEncoder.decodeDataSetMessage host v path = .ok dsm →
      FieldsBuilt dsm := by
    intro v path dsm hdsm
    unfold JsonEncoder.decodeDataSetMessage at hdsm
    split at hdsm
    next =>
      obtain ⟨timestamp, -, hdsm⟩ := bind_eq_ok.mp hdsm
      obtain ⟨messageType, -, hdsm⟩ := bind_eq_ok.mp hdsm
      split at hdsm
      next =>
        obtain ⟨fields, -, hdsm⟩ := bind_eq_ok.mp hdsm
        cases hdsm
        intro fs hfs
        exact ⟨fields, (Option.some.inj hfs).symm⟩
      next => cases hdsm
    next => cases hdsm
  have hall : ∀ i vs dsms, JsonEncoder.decodeMessages host i vs = .ok dsms →
      ∀ dsm ∈ dsms, FieldsBuilt dsm := by
    intro i vs
    induction vs generalizing i with
    | nil =>
        intro dsms hdsms
        cases hdsms
        exact List.forall_mem_nil _
    | cons v vs ih =>
        intro dsms hdsms
        obtain ⟨dsm, hdsm, hdsms⟩ := bind_eq_ok.mp hdsms
        obtain ⟨rest, hrest, hdsms⟩ := bind_eq_ok.mp hdsms
        cases hdsms
        exact List.forall_mem_cons.mpr ⟨hone _ _ _ hdsm, ih _ _ hrest⟩
  unfold JsonEncoder.decodeNetworkMessage at h
  split at h
  · cases h
  · split at h
    · split at h
      · cases h
      · unfold JsonEncoder.decodeObject at h
        split at h
        next messages _ =>
          obtain ⟨timestamp, -, h⟩ := bind_eq_ok.mp h
          obtain ⟨payload, hpayload, h⟩ := bind_eq_ok.mp h
          cases h
          exact hall 0 messages payload hpayload
        next => cases h
    · cases h

/-! ## One message -/

/-- An object is no member of its own. -/
theorem get?_ne_self {key : JsString} {props : List (JsString × JsValue)} :
    Props.get? key props ≠ some (.object props) := by
  intro h
  have hlt := List.sizeOf_lt_of_mem (InsertionMap.mem_of_get? h)
  simp only [Prod.mk.sizeOf_spec, JsValue.object.sizeOf_spec] at hlt
  omega

/-- A field is unwrapped to its raw value exactly when it cannot be mistaken. -/
theorem holds_unwrap_iff (field : Field) : Holds (unwrap field) field ↔ Unmistakable field := by
  cases field with
  | null => exact iff_of_true rfl trivial
  | variant v =>
      obtain ⟨dataType, value, dimensions⟩ := v
      cases value with
      | object props =>
          change (Props.get? (js "value") props).getD (.object props) = .object props ↔
            (Props.get? (js "value") props).isSome = false
          cases hget : Props.get? (js "value") props with
          | none => exact iff_of_true rfl rfl
          | some w =>
              refine iff_of_false (fun h => ?_) (fun h => (nomatch h))
              exact get?_ne_self (hget.trans (congrArg some h))
      | _ => exact iff_of_true rfl rfl
  | dataValue dv =>
      obtain ⟨value, statusCode, sourceTimestamp, serverTimestamp, sourcePicoseconds,
        serverPicoseconds⟩ := dv
      match value with
      | some (some v) => exact iff_of_true rfl (Option.some_ne_none _)
      | some none => exact iff_of_true (Or.inl rfl) (Option.some_ne_none _)
      | none =>
          refine iff_of_false ?_ (fun h => h rfl)
          rintro (h | h) <;> cases h

theorem payloadHolds_iff {dsm : DataSetMessage} (h : FieldsBuilt dsm) :
    PayloadHolds (dsm.fields.getD []) (unwrapFields (dsm.fields.getD [])) ↔
      ∀ e ∈ dsm.fields.getD [], Unmistakable e.2 := by
  obtain ⟨entries, hentries⟩ : ∃ entries, dsm.fields.getD [] = Props.ofEntries entries := by
    cases hfields : dsm.fields with
    | none => exact ⟨[], rfl⟩
    | some fields => exact h fields hfields
  rw [hentries]
  have hget : ∀ name, Props.get? name (unwrapFields (Props.ofEntries entries)) =
      (Props.get? name (Props.ofEntries entries)).map unwrap := by
    intro name
    by_cases hname : name = protoKey
    · rw [hname, Props.get?_protoKey_ofEntries, unwrapFields, Props.get?_protoKey_ofEntries]
      rfl
    · rw [get?_unwrapFields hname, Props.get?_ofEntries_eq hname]
  constructor
  · intro hholds e he
    have hrel := hholds e.1
    have hfield : Props.get? e.1 (Props.ofEntries entries) = some e.2 :=
      InsertionMap.get?_of_mem (Props.nodup_ofEntries entries) he
    rw [hget, hfield] at hrel
    cases hrel with
    | some hrel => exact (holds_unwrap_iff e.2).mp hrel
  · intro hplain name
    rw [hget]
    cases hfield : Props.get? name (Props.ofEntries entries) with
    | none => exact Option.Rel.none
    | some field =>
        refine Option.Rel.some ((holds_unwrap_iff field).mpr ?_)
        exact hplain (name, field) (InsertionMap.mem_of_get? hfield)

/-! ## The loop -/

section Loop

variable {host} {config} {nm} {major minor : Nat} {now : Int} {topic : Option JsString}

/-- The version check reports exactly another version. -/
theorem mismatch?_eq_none_iff
    (hcv : config.expectedCv =
      some ⟨Double.ofInt major, Double.ofInt minor, ofInt_ne_nan major, ofInt_ne_nan minor⟩)
    {got : Option ConfigurationVersion} :
    mismatch? config got = none ↔ ¬ OtherVersion major minor got := by
  unfold mismatch?
  rw [hcv]
  cases got with
  | none => exact iff_of_true rfl id
  | some got =>
      change (if (got.major.strictEq (.nat major) && got.minor.strictEq (.nat minor)) = true then
        none else _) = none ↔ ¬ ¬ _
      rw [not_not, ← Bool.and_eq_true]
      split
      next h => exact iff_of_true rfl h
      next h => exact iff_of_false (fun heq => (nomatch heq)) h

/-- What one round makes of a DataSetMessage. -/
inductive Round (host : Host) (config : SubscriberConfig) (now : Int) (topic : Option JsString)
    (nm : NetworkMessage) (major minor : Nat) (p : DataSetMessage × Nat) :
    Except RuntimeError (List SubscriberOutput) → Prop
  | passed (passes : Passes host config nm major minor p) :
      Round host config now topic nm major minor p
        (.ok [.send (msgOf config now topic nm (dataSetWriterIdOf nm p) p.1)])
  | skipped {outputs : List SubscriberOutput} (fails : ¬ Passes host config nm major minor p)
      (quiet : ¬ Raises host config nm major minor p) (silent : sent outputs = []) :
      Round host config now topic nm major minor p (.ok outputs)
  | raised (raises : Raises host config nm major minor p) :
      Round host config now topic nm major minor p (.error .typeError)

theorem round_handle
    (hcv : config.expectedCv =
      some ⟨Double.ofInt major, Double.ofInt minor, ofInt_ne_nan major, ofInt_ne_nan minor⟩)
    (hcomparable : comparable config nm.publisherId = true) (p : DataSetMessage × Nat) :
    Round host config now topic nm major minor p
      (handleDataSetMessage host config now topic nm p.2 p.1) := by
  rw [handleDataSetMessage, hcomparable]
  change Round host config now topic nm major minor p
    (if accepts host config nm.publisherId ((nm.groupHeader.map (·.writerGroupId)).getD .undefined)
      (dataSetWriterIdOf nm p) = true then _ else _)
  by_cases hmatches : Matches host config nm p
  · rw [if_pos ((accepts_iff host config nm p).mpr hmatches)]
    by_cases hother : OtherVersion major minor p.1.configurationVersion
    · obtain ⟨error, herror⟩ : ∃ error, mismatch? config p.1.configurationVersion = some error := by
        refine Option.ne_none_iff_exists'.mp fun hnone => ?_
        exact (mismatch?_eq_none_iff hcv).mp hnone hother
      rw [herror]
      dsimp only
      cases hprintable : printableVersion p.1.configurationVersion with
      | false => exact Round.raised ⟨hmatches, hother, hprintable⟩
      | true =>
          refine Round.skipped (fun h => h.2 hother) (fun h => ?_) (mismatch?_not_sent herror)
          rw [h.2.2] at hprintable
          cases hprintable
    · rw [(mismatch?_eq_none_iff hcv).mpr hother]
      exact Round.passed ⟨hmatches, hother⟩
  · rw [if_neg fun h => hmatches ((accepts_iff host config nm p).mp h)]
    exact Round.skipped (fun h => hmatches h.1) (fun h => hmatches h.1) rfl

/-- The message of a DataSetMessage is right exactly when no field is mistaken. -/
theorem msgOf_iff {p : DataSetMessage × Nat} (h : FieldsBuilt p.1) :
    MsgOf nm p (msgOf config now topic nm (dataSetWriterIdOf nm p) p.1) ↔
      ∀ e ∈ p.1.fields.getD [], Unmistakable e.2 :=
  ⟨fun hmsg => (payloadHolds_iff h).mp hmsg.payload,
    fun hplain => ⟨rfl, (payloadHolds_iff h).mpr hplain⟩⟩

/-- The loop emits what is to be emitted exactly when no field of it is mistaken
and no error raised before takes it along. -/
theorem emits_loop_iff
    (hcv : config.expectedCv =
      some ⟨Double.ofInt major, Double.ofInt minor, ofInt_ne_nan major, ofInt_ne_nan minor⟩)
    (hcomparable : comparable config nm.publisherId = true) (dsms : List DataSetMessage)
    (hbuilt : ∀ dsm ∈ dsms, FieldsBuilt dsm) (k : Nat) :
    List.Forall₂ (MsgOf nm) ((dsms.zipIdx k).filter fun p => Passes host config nm major minor p)
        (sent (handleMessages host config now topic nm k dsms)) ↔
      (∀ p ∈ dsms.zipIdx k, Passes host config nm major minor p →
        ∀ e ∈ p.1.fields.getD [], Unmistakable e.2) ∧
      (dsms.zipIdx k).Pairwise fun p q =>
        Raises host config nm major minor p → ¬ Passes host config nm major minor q := by
  induction dsms generalizing k with
  | nil => exact iff_of_true List.Forall₂.nil ⟨List.forall_mem_nil _, List.Pairwise.nil⟩
  | cons dsm dsms ih =>
      obtain ⟨hdsm, hdsms⟩ := List.forall_mem_cons.mp hbuilt
      rw [List.zipIdx_cons, List.forall_mem_cons, List.pairwise_cons, handleMessages]
      have hround := @round_handle host config nm major minor now topic hcv hcomparable (dsm, k)
      cases hresult : handleDataSetMessage host config now topic nm k dsm with
      | error e =>
          rw [hresult] at hround
          cases hround with
          | raised hraises =>
              have hfails : ¬ Passes host config nm major minor (dsm, k) := fun h =>
                h.2 hraises.2.1
              rw [List.filter_cons_of_neg (by simpa using hfails)]
              change List.Forall₂ _ _ [] ↔ _
              rw [List.forall₂_nil_right_iff, List.filter_eq_nil_iff]
              constructor
              · intro hnone
                have hnone' : ∀ q ∈ dsms.zipIdx (k + 1), ¬ Passes host config nm major minor q :=
                  fun q hq => by simpa using hnone q hq
                refine ⟨⟨fun h => absurd h hfails, fun q hq h => absurd h (hnone' q hq)⟩,
                  fun q hq _ => hnone' q hq, ?_⟩
                exact List.Pairwise.imp_of_mem (fun _ hq _ _ => hnone' _ hq)
                  (List.pairwise_of_forall (R := fun _ _ => True) fun _ _ => trivial)
              · rintro ⟨-, hafter, -⟩ q hq
                simpa using hafter q hq hraises
      | ok outputs =>
          rw [hresult] at hround
          dsimp only
          rw [sent_append]
          cases hround with
          | passed hpasses =>
              have hquiet : ¬ Raises host config nm major minor (dsm, k) := fun h =>
                hpasses.2 h.2.1
              rw [List.filter_cons_of_pos (by simpa using hpasses)]
              change List.Forall₂ _ _ (_ :: sent (handleMessages host config now topic nm (k + 1)
                dsms)) ↔ _
              rw [List.forall₂_cons, ih hdsms, msgOf_iff hdsm]
              constructor
              · rintro ⟨hplain, hrest, hpairwise⟩
                exact ⟨⟨fun _ => hplain, hrest⟩, fun _ _ h => absurd h hquiet, hpairwise⟩
              · rintro ⟨⟨hplain, hrest⟩, -, hpairwise⟩
                exact ⟨hplain hpasses, hrest, hpairwise⟩
          | skipped hfails hquiet hsilent =>
              rw [List.filter_cons_of_neg (by simpa using hfails), hsilent, List.nil_append,
                ih hdsms]
              constructor
              · rintro ⟨hrest, hpairwise⟩
                exact ⟨⟨fun h => absurd h hfails, hrest⟩, fun _ _ h => absurd h hquiet, hpairwise⟩
              · rintro ⟨⟨-, hrest⟩, -, hpairwise⟩
                exact ⟨hrest, hpairwise⟩

theorem not_matches_of_incomparable (h : comparable config nm.publisherId = false)
    (p : DataSetMessage × Nat) : ¬ Matches host config nm p := by
  intro hmatches
  have haccepts := (accepts_iff host config nm p).mpr hmatches
  rw [accepts, h] at haccepts
  cases haccepts

end Loop

/-! ## Decoded messages -/

/-- One of the decoders returned the message. -/
def DecodedMessage (host : Host) (nm : NetworkMessage) : Prop :=
  (∃ buffer, Uadp.decodeNetworkMessage buffer = .ok nm) ∨
    ∃ text, JsonEncoder.decodeNetworkMessage host text = .ok nm

/-- A subscriber of the UADP messages of WriterGroup 1 that expects version 1.0. -/
def versionedReader : SubscriberConfig where
  transportType := .udp
  reader :=
    { writerGroupId := JsValue.nat 1
      given := Or.inr (Or.inl (by decide)) }
  expectedCv := some ⟨Double.ofInt 1, Double.ofInt 0, ofInt_ne_nan 1, ofInt_ne_nan 0⟩
  udp_uadp _ := rfl

theorem versionText_one : VersionText (js "1.0") 1 0 :=
  ⟨js "1", js "0", by decide, by decide, by decide⟩

/-- A keyframe of WriterGroup 1 with one field, `v`, whose encoding follows. -/
def keyframeOfField (fieldFlags : UInt8) (field : Bytes) : Bytes :=
  [0x21, 0x01, 0x00, 0, 0, 0, 0, 0, 0, 0, 0, fieldFlags, 0x01, 0x00, 0x01, 0x00, 0x76] ++ field

theorem versionedReader_expects (host : Host) :
    versionedReader.expectedCv = expectedVersionOf host (js "1.0") :=
  (expectedVersionOf_text host versionText_one).symm

end OpcUaSuite.Nodes
