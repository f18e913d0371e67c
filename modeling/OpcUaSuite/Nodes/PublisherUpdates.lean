import OpcUaSuite.Lib.Transition
import OpcUaSuite.Nodes.Publisher
import OpcUaSuite.Uadp.NetworkMessage

/-!
# KeepAlives of a cyclic publisher

A KeepAlive tells subscribers that the values of the last keyframe still hold.
The trace of a publisher keeps, next to its state, the values known when each
message was built; an invariant relates them to the keyframe that is waiting or
was handed over last.
-/

namespace OpcUaSuite.Nodes

open Js PubSub Transition

/-- All DataSetMessages of a message are of one type. -/
def IsFrame (type : MessageType) (nm : NetworkMessage) : Prop :=
  nm.payload ≠ [] ∧ ∀ dsm ∈ nm.payload, dsm.messageType = some type

instance (type : MessageType) (nm : NetworkMessage) : Decidable (IsFrame type nm) := by
  unfold IsFrame
  infer_instance

theorem IsFrame.unique {type type' : MessageType} {nm : NetworkMessage} (h : IsFrame type nm)
    (h' : IsFrame type' nm) : type = type' := by
  obtain ⟨dsm, hdsm⟩ := List.exists_mem_of_ne_nil _ h.1
  exact Option.some.inj ((h.2 dsm hdsm).symm.trans (h'.2 dsm hdsm))

/-- The value a DataSetMessage carries for a field. -/
def fieldValue (dsm : DataSetMessage) (name : JsString) : JsValue :=
  match dsm.fields.bind (Props.get? name) with
  | some (.variant v) => v.value
  | _ => .undefined

variable (host : Host) (config : PublisherConfig)

/-- Every declared field of every writer reads in the message as in the values. -/
def Carries (nm : NetworkMessage) (known : JsValue) : Prop :=
  List.Forall₂ (fun writer dsm => ∀ field ∈ writer.publishedDataSet.fields,
    fieldValue dsm field.name = host.member known field.name) config.writers nm.payload

/-- Every declared field reads the same in both values. -/
def SameDeclared (a b : JsValue) : Prop :=
  ∀ writer ∈ config.writers, ∀ field ∈ writer.publishedDataSet.fields,
    host.member a field.name = host.member b field.name

instance (a b : JsValue) : Decidable (SameDeclared host config a b) := by
  unfold SameDeclared
  infer_instance

/-- No declared field is called `__proto__`, which no object has as a property. -/
def NoProtoField : Prop :=
  ∀ writer ∈ config.writers, ∀ field ∈ writer.publishedDataSet.fields, field.name ≠ protoKey

instance : Decidable (NoProtoField config) := by
  unfold NoProtoField
  infer_instance

/-- The payload of an input leaves the prototype of the accumulated values alone. -/
def PublisherEvent.KeepsPrototype : PublisherEvent → Prop
  | .input payload _ _ => Js.KeepsPrototype (sourceValuesOf payload)
  | .tick _ _ | .status _ _ => True

instance : (e : PublisherEvent) → Decidable e.KeepsPrototype
  | .input payload _ _ => by
      change Decidable (Js.KeepsPrototype (sourceValuesOf payload))
      infer_instance
  | .tick _ _ | .status _ _ => isTrue trivial

/-! ## The messages built -/

variable {host config}

theorem Carries.congr {nm : NetworkMessage} {a b : JsValue} (h : Carries host config nm a)
    (hsame : SameDeclared host config a b) : Carries host config nm b := by
  unfold Carries at h ⊢
  rw [List.forall₂_iff_zip] at h ⊢
  refine ⟨h.1, ?_⟩
  intro writer dsm hmem field hfield
  have hwriter := (List.of_mem_zip hmem).1
  exact (h.2 hmem field hfield).trans (hsame writer hwriter field hfield)

theorem forall_buildPayload {message : DataSetWriter → Nat → DataSetMessage}
    {P : DataSetMessage → Prop} (h : ∀ writer seq, P (message writer seq))
    (writers : List DataSetWriter) (seqs : InsertionMap Nat Nat) :
    ∀ dsm ∈ (buildPayload message writers seqs).1, P dsm := by
  induction writers generalizing seqs with
  | nil =>
      intro dsm hdsm
      cases hdsm
  | cons writer writers ih =>
      intro dsm hdsm
      rcases List.mem_cons.mp hdsm with rfl | hdsm
      · exact h writer _
      · exact ih _ dsm hdsm

theorem isFrame_buildMessage {message : DataSetWriter → Nat → DataSetMessage} {type : MessageType}
    (h : ∀ writer seq, (message writer seq).messageType = some type) (now : Int)
    (st : PublisherState) : IsFrame type (buildMessage config message now st).1 := by
  constructor
  · obtain ⟨writer, writers, hwriters⟩ := List.exists_cons_of_ne_nil config.writers_ne
    change (buildPayload message config.writers st.dsmSeq).1 ≠ []
    rw [hwriters]
    exact List.cons_ne_nil _ _
  · exact forall_buildPayload h config.writers st.dsmSeq

theorem fieldValue_keyframe {fields : List FieldMetaData} {field : FieldMetaData}
    (hproto : field.name ≠ protoKey) (hfield : field ∈ fields) (sourceValues : JsValue)
    {dsm : DataSetMessage} (hdsm : dsm.fields = some (keyframeFields host fields sourceValues)) :
    fieldValue dsm field.name = host.member sourceValues field.name := by
  unfold fieldValue
  rw [hdsm, Option.bind_some, keyframeFields]
  rcases Props.get?_ofEntries hproto ((fields.filter fun field =>
    decide (host.member sourceValues field.name ≠ .undefined)).map fun field =>
      (field.name, Field.variant ⟨.name field.dataType, host.member sourceValues field.name,
        none⟩)) with ⟨hnot, hnone⟩ | ⟨value, hmem, hsome⟩
  · rw [hnone]
    by_contra hvalue
    refine hnot (List.mem_map.mpr ⟨_, List.mem_map_of_mem (List.mem_filter.mpr ⟨hfield, ?_⟩), rfl⟩)
    exact decide_eq_true fun h => hvalue h.symm
  · rw [hsome]
    obtain ⟨other, -, heq⟩ := List.mem_map.mp hmem
    obtain ⟨hname, rfl⟩ := Prod.mk.inj heq
    rw [← hname]

theorem carries_buildNetworkMessage (hproto : NoProtoField config) (sourceValues : JsValue)
    (now : Int) (st : PublisherState) :
    Carries host config (buildNetworkMessage host config sourceValues now st).1 sourceValues :=
  buildPayload_forall₂ config.writers (fun writer hwriter _ _ field hfield =>
    fieldValue_keyframe (hproto writer hwriter field hfield) hfield sourceValues rfl) st.dsmSeq

/-! ## The trace -/

/-- A message handed over, with the values known at the event that built it. -/
structure LogEntry (α : Type) where
  handed : Handed α
  known : JsValue
deriving DecidableEq

/-- A publisher with the values known when its pending message and its last
keyframe were built, and all it handed over. -/
structure PublisherTrace (α : Type) where
  state : PublisherState := {}
  pendingKnown : JsValue := .undefined
  keyframeKnown : Option JsValue := none
  log : List (LogEntry α) := []
deriving DecidableEq

variable {α ε : Type} (host config) (encode : NetworkMessage → Except ε α)

def PublisherTrace.latest (t : PublisherTrace α) : JsValue := .object t.state.latestValues

/-- The answer of the comparison at the next tick. -/
def PublisherTrace.changed (t : PublisherTrace α) : Except RuntimeError Bool :=
  valuesChanged t.latest t.state.publishedSnapshot

/-- `publisherStep` with its trace. A tick that fails to compare builds nothing. -/
def traceStep (t : PublisherTrace α) (e : PublisherEvent) : Option (PublisherTrace α) :=
  (publisherStep host config encode t.state e).map fun (st, handed) =>
    match e, t.changed with
    | .tick _ _, .ok changed =>
        { state := st
          pendingKnown := t.latest
          keyframeKnown := if changed then some t.latest else t.keyframeKnown
          log := t.log ++ (handed.map fun h => ⟨h, t.latest⟩).toList }
    | _, _ =>
        { t with state := st, log := t.log ++ (handed.map fun h => ⟨h, t.pendingKnown⟩).toList }

/-- The keyframe handed over last. -/
def lastKeyframe (log : List (LogEntry α)) : Option NetworkMessage :=
  ((log.map fun entry => entry.handed.message).filter fun nm => IsFrame .keyframe nm).getLast?

/-- Before every KeepAlive a keyframe was handed over, and the last one carried
the values known when the KeepAlive was built. -/
def FollowsValues (log : List (LogEntry α)) : Prop :=
  ∀ before entry after, log = before ++ entry :: after → IsFrame .keepalive entry.handed.message →
    ∃ nm, lastKeyframe before = some nm ∧ Carries host config nm entry.known

/-- Nothing of a keyframe is lost at a step: an input is merged without another
prototype, a tick that finds the text of the values unchanged finds the declared
values unchanged and no keyframe waiting, and the encoder accepts every keyframe. -/
def LosesNothing (t : PublisherTrace α) : PublisherEvent → Prop
  | .input payload now accepts => (PublisherEvent.input payload now accepts).KeepsPrototype
  | .tick now _ =>
      (∀ known, t.keyframeKnown = some known → Json.stringify t.latest = Json.stringify known →
        SameDeclared host config known t.latest) ∧
      (t.changed = .ok false → ∀ nm, t.state.pendingSend = some nm → ¬ IsFrame .keyframe nm) ∧
      (t.changed = .ok true → t.state.connected = true →
        (encode (buildNetworkMessage host config t.latest now t.state).1).isOk)
  | .status status _ =>
      status = .connected → ∀ nm, t.state.pendingSend = some nm → IsFrame .keyframe nm →
        (encode nm).isOk

instance [DecidableEq α] (t : PublisherTrace α) :
    (e : PublisherEvent) → Decidable (LosesNothing host config encode t e)
  | .input payload now accepts => by
      change Decidable (PublisherEvent.input payload now accepts).KeepsPrototype
      infer_instance
  | .tick now _ => by
      change Decidable ((∀ known ∈ t.keyframeKnown, _ → _) ∧ (_ → ∀ nm ∈ t.state.pendingSend, _) ∧ _)
      infer_instance
  | .status status _ => by
      change Decidable (_ → ∀ nm ∈ t.state.pendingSend, _ → _)
      infer_instance

/-! ## The invariant -/

/-- The keyframe handed over last carries the values. -/
def Published (log : List (LogEntry α)) (known : JsValue) : Prop :=
  ∃ nm, lastKeyframe log = some nm ∧ Carries host config nm known

/-- The values of the last keyframe built wait with it or were handed over with
it, and a KeepAlive that waits was built while those values held. -/
structure UpdatesKept (t : PublisherTrace α) : Prop where
  connected : t.state.connected = true → t.state.pendingSend = none
  silent : t.state.publishedSnapshot = none → t.state.pendingSend = none ∧ t.log = []
  snapshot : ∀ text, t.state.publishedSnapshot = some text → ∃ known,
    t.keyframeKnown = some known ∧ Json.stringify known = .ok (some text) ∧
      (∀ nm, t.state.pendingSend = some nm → IsFrame .keyframe nm → Carries host config nm known) ∧
      ((∀ nm, t.state.pendingSend = some nm → ¬ IsFrame .keyframe nm) →
        Published host config t.log known)
  pending : ∀ nm, t.state.pendingSend = some nm → IsFrame .keyframe nm ∨
    IsFrame .keepalive nm ∧ Published host config t.log t.pendingKnown
  follows : FollowsValues host config t.log

variable {host config} {encode}

theorem lastKeyframe_keyframe {log : List (LogEntry α)} {entry : LogEntry α}
    (h : IsFrame .keyframe entry.handed.message) :
    lastKeyframe (log ++ [entry]) = some entry.handed.message := by
  simp [lastKeyframe, List.filter_append, h]

theorem lastKeyframe_keepalive {log : List (LogEntry α)} {entry : LogEntry α}
    (h : IsFrame .keepalive entry.handed.message) :
    lastKeyframe (log ++ [entry]) = lastKeyframe log := by
  have hnot : ¬ IsFrame .keyframe entry.handed.message := fun h' => by cases h.unique h'
  simp [lastKeyframe, List.filter_append, hnot]

theorem Published.congr {log : List (LogEntry α)} {a b : JsValue}
    (h : Published host config log a) (hsame : SameDeclared host config a b) :
    Published host config log b := by
  obtain ⟨nm, hlast, hcarries⟩ := h
  exact ⟨nm, hlast, hcarries.congr hsame⟩

theorem Published.keepalive {log : List (LogEntry α)} {known : JsValue} {entry : LogEntry α}
    (h : Published host config log known) (hentry : IsFrame .keepalive entry.handed.message) :
    Published host config (log ++ [entry]) known := by
  obtain ⟨nm, hlast, hcarries⟩ := h
  exact ⟨nm, (lastKeyframe_keepalive hentry).trans hlast, hcarries⟩

theorem Published.keyframe {log : List (LogEntry α)} {known : JsValue} {entry : LogEntry α}
    (hentry : IsFrame .keyframe entry.handed.message)
    (hcarries : Carries host config entry.handed.message known) :
    Published host config (log ++ [entry]) known :=
  ⟨_, lastKeyframe_keyframe hentry, hcarries⟩

theorem FollowsValues.append {log : List (LogEntry α)} {entry : LogEntry α}
    (h : FollowsValues host config log)
    (hentry : IsFrame .keepalive entry.handed.message → Published host config log entry.known) :
    FollowsValues host config (log ++ [entry]) :=
  forall_split_concat (P := fun (before : List (LogEntry α)) (e : LogEntry α) =>
    IsFrame .keepalive e.handed.message → Published host config before e.known) h hentry

theorem emit_cases {accepts : Bool} {nm : NetworkMessage} {st st' : PublisherState}
    {handed : Option (Handed α)} (h : emit encode accepts nm st = (st', handed)) :
    (st.connected = false ∧ st' = { st with pendingSend := some nm } ∧ handed = none) ∨
    (st.connected = true ∧ st' = st ∧ (encode nm).isOk = false ∧ handed = none) ∨
    (st.connected = true ∧ st' = st ∧
      ∃ encoded, encode nm = .ok encoded ∧ handed = some ⟨nm, encoded, accepts⟩) := by
  unfold emit at h
  cases hconn : st.connected with
  | false =>
      rw [hconn] at h
      cases h
      exact Or.inl ⟨rfl, rfl, rfl⟩
  | true =>
      rw [hconn] at h
      cases henc : encode nm with
      | error e =>
          rw [henc] at h
          cases h
          exact Or.inr (Or.inl ⟨rfl, rfl, rfl, rfl⟩)
      | ok encoded =>
          rw [henc] at h
          cases h
          exact Or.inr (Or.inr ⟨rfl, rfl, encoded, rfl, rfl⟩)

theorem stringify_object {props : List (JsString × JsValue)} {text : Option JsValue}
    (h : Json.stringify (.object props) = .ok text) : ∃ t, text = some t := by
  rw [Json.stringify] at h
  obtain ⟨texts, -, h⟩ := ByteCodec.bind_eq_ok.mp h
  exact ⟨_, (Except.ok.inj h).symm⟩

theorem valuesChanged_false {current : JsValue} {snapshot : Option JsValue}
    (h : valuesChanged current snapshot = .ok false) :
    ∃ text, snapshot = some text ∧ Json.stringify current = Json.stringify text := by
  cases snapshot with
  | none => cases h
  | some text =>
      obtain ⟨a, ha, h⟩ := ByteCodec.bind_eq_ok.mp h
      obtain ⟨b, hb, h⟩ := ByteCodec.bind_eq_ok.mp h
      have hab : a = b := by simpa using Except.ok.inj h
      exact ⟨text, rfl, by rw [ha, hb, hab]⟩

theorem valuesChanged_error {current : JsValue} {snapshot : Option JsValue} {e : RuntimeError}
    (h : valuesChanged current snapshot = .ok true) (he : Json.stringify current = .error e) :
    snapshot = none := by
  cases snapshot with
  | none => rfl
  | some text =>
      obtain ⟨a, ha, -⟩ := ByteCodec.bind_eq_ok.mp h
      rw [he] at ha
      cases ha

/-- An interval ends in one of four ways. -/
theorem tick_cases {now : Int} {accepts : Bool} {st st' : PublisherState}
    {handed : Option (Handed α)} (h : tick host config encode now accepts st = (st', handed)) :
    (∃ e, valuesChanged (.object st.latestValues) st.publishedSnapshot = .error e ∧ st' = st ∧
      handed = none) ∨
    (∃ e, valuesChanged (.object st.latestValues) st.publishedSnapshot = .ok true ∧
      Json.stringify (.object st.latestValues) = .error e ∧
      st' = (buildNetworkMessage host config (.object st.latestValues) now st).2 ∧
      handed = none) ∨
    (∃ text, valuesChanged (.object st.latestValues) st.publishedSnapshot = .ok true ∧
      Json.stringify (.object st.latestValues) = .ok (some text) ∧
      emit encode accepts (buildNetworkMessage host config (.object st.latestValues) now st).1
        { (buildNetworkMessage host config (.object st.latestValues) now st).2 with
          publishedSnapshot := some text } = (st', handed)) ∨
    (valuesChanged (.object st.latestValues) st.publishedSnapshot = .ok false ∧
      emit encode accepts (buildKeepAlive config now st).1 (buildKeepAlive config now st).2 =
        (st', handed)) := by
  unfold tick at h
  dsimp only at h
  cases hchanged : valuesChanged (.object st.latestValues) st.publishedSnapshot with
  | error e =>
      rw [hchanged] at h
      cases h
      exact Or.inl ⟨e, rfl, rfl, rfl⟩
  | ok changed =>
      rw [hchanged] at h
      cases changed with
      | false => exact Or.inr (Or.inr (Or.inr ⟨rfl, h⟩))
      | true =>
          cases hprint : Json.stringify (.object st.latestValues) with
          | error e =>
              dsimp only at h
              rw [hprint] at h
              cases h
              exact Or.inr (Or.inl ⟨e, rfl, rfl, rfl, rfl⟩)
          | ok snapshot =>
              obtain ⟨text, rfl⟩ := stringify_object hprint
              dsimp only at h
              rw [hprint] at h
              exact Or.inr (Or.inr (Or.inl ⟨text, rfl, rfl, h⟩))

/-! ## The steps -/

theorem updatesKept_init : UpdatesKept host config ({} : PublisherTrace α) where
  connected _ := rfl
  silent _ := ⟨rfl, rfl⟩
  snapshot _ h := by cases h
  pending _ h := by cases h
  follows before entry after h := by
    cases (List.append_eq_nil_iff.mp h.symm).2

theorem UpdatesKept.disconnect {t : PublisherTrace α} (h : UpdatesKept host config t) :
    UpdatesKept host config { t with state := { t.state with connected := false } } where
  connected hconn := by cases hconn
  silent := h.silent
  snapshot := h.snapshot
  pending := h.pending
  follows := h.follows

theorem UpdatesKept.connect {t : PublisherTrace α} (h : UpdatesKept host config t)
    (hnone : t.state.pendingSend = none) :
    UpdatesKept host config { t with state := { t.state with connected := true } } where
  connected _ := hnone
  silent := h.silent
  snapshot := h.snapshot
  pending := h.pending
  follows := h.follows

theorem UpdatesKept.input {t : PublisherTrace α} (h : UpdatesKept host config t)
    (latest : List (JsString × JsValue)) :
    UpdatesKept host config { t with state := { t.state with latestValues := latest } } where
  connected := h.connected
  silent := h.silent
  snapshot := h.snapshot
  pending := h.pending
  follows := h.follows

/-- A first keyframe that has no text is built and forgotten. -/
theorem UpdatesKept.unpublished {t : PublisherTrace α} (h : UpdatesKept host config t)
    (hnone : t.state.publishedSnapshot = none) {nmSeq : Nat} {dsmSeq : InsertionMap Nat Nat}
    {pendingKnown : JsValue} {keyframeKnown : Option JsValue} :
    UpdatesKept host config
      { state := { t.state with nmSeq := nmSeq, dsmSeq := dsmSeq }, pendingKnown := pendingKnown,
        keyframeKnown := keyframeKnown, log := t.log } where
  connected := h.connected
  silent := h.silent
  snapshot text htext := by cases hnone.symm.trans htext
  pending nm hnm := by cases (h.silent hnone).1.symm.trans hnm
  follows := h.follows

/-- Nothing waits, so the values of the last keyframe were handed over. -/
theorem updatesKept_idle {t : PublisherTrace α} {text known : JsValue}
    (hpending : t.state.pendingSend = none) (htext : t.state.publishedSnapshot = some text)
    (hknown : t.keyframeKnown = some known) (hprint : Json.stringify known = .ok (some text))
    (hpublished : Published host config t.log known) (hfollows : FollowsValues host config t.log) :
    UpdatesKept host config t where
  connected _ := hpending
  silent hnone := absurd (htext.symm.trans hnone) (Option.some_ne_none text)
  snapshot text' htext' := by
    obtain rfl := Option.some.inj (htext.symm.trans htext')
    refine ⟨known, hknown, hprint, ?_, fun _ => hpublished⟩
    intro nm hnm
    cases hpending.symm.trans hnm
  pending nm hnm := by cases hpending.symm.trans hnm
  follows := hfollows

/-- A message waits: the keyframe that carries its values, or a KeepAlive. -/
theorem updatesKept_waiting {t : PublisherTrace α} {text known : JsValue} {nm : NetworkMessage}
    (hpending : t.state.pendingSend = some nm) (hconn : t.state.connected = false)
    (htext : t.state.publishedSnapshot = some text) (hknown : t.keyframeKnown = some known)
    (hprint : Json.stringify known = .ok (some text))
    (hcases : (IsFrame .keyframe nm ∧ Carries host config nm known) ∨
      (IsFrame .keepalive nm ∧ Published host config t.log known ∧
        Published host config t.log t.pendingKnown))
    (hfollows : FollowsValues host config t.log) : UpdatesKept host config t where
  connected h := by cases hconn.symm.trans h
  silent hnone := absurd (htext.symm.trans hnone) (Option.some_ne_none text)
  snapshot text' htext' := by
    obtain rfl := Option.some.inj (htext.symm.trans htext')
    refine ⟨known, hknown, hprint, ?_, ?_⟩
    · intro nm' hnm' hkeyframe
      obtain rfl := Option.some.inj (hpending.symm.trans hnm')
      rcases hcases with ⟨-, hcarries⟩ | ⟨hkeepalive, -⟩
      · exact hcarries
      · cases hkeyframe.unique hkeepalive
    · intro hnot
      rcases hcases with ⟨hkeyframe, -⟩ | ⟨-, hpublished, -⟩
      · exact absurd hkeyframe (hnot nm hpending)
      · exact hpublished
  pending nm' hnm' := by
    obtain rfl := Option.some.inj (hpending.symm.trans hnm')
    exact hcases.imp And.left fun h => ⟨h.1, h.2.2⟩
  follows := hfollows

/-- The pending message is handed over, or dropped when the encoder refuses it. -/
theorem UpdatesKept.flush {t : PublisherTrace α} (h : UpdatesKept host config t)
    {queued : NetworkMessage} (hqueued : t.state.pendingSend = some queued)
    (hkeyframe : IsFrame .keyframe queued → (encode queued).isOk) {accepts : Bool}
    {st : PublisherState} {handed : Option (Handed α)}
    (hemit : emit encode accepts queued { t.state with connected := true, pendingSend := none } =
      (st, handed)) :
    UpdatesKept host config { t with state := st, log := t.log ++
      (handed.map fun h => ⟨h, t.pendingKnown⟩).toList } := by
  obtain ⟨text, htext⟩ : ∃ text, t.state.publishedSnapshot = some text := by
    refine Option.ne_none_iff_exists'.mp fun hnone => ?_
    cases (h.silent hnone).1.symm.trans hqueued
  obtain ⟨known, hknown, hprint, hwaiting, hpublished⟩ := h.snapshot text htext
  have hpublished' : IsFrame .keepalive queued → Published host config t.log known := by
    intro hkeepalive
    refine hpublished fun nm hnm hframe => ?_
    obtain rfl := Option.some.inj (hqueued.symm.trans hnm)
    cases hframe.unique hkeepalive
  rcases emit_cases hemit with ⟨hconn, -, -⟩ | ⟨-, rfl, henc, rfl⟩ | ⟨-, rfl, encoded, -, rfl⟩
  · cases hconn
  · rw [Option.map_none, Option.toList_none, List.append_nil]
    rcases h.pending queued hqueued with hframe | ⟨hframe, -⟩
    · rw [hkeyframe hframe] at henc
      cases henc
    · exact updatesKept_idle rfl htext hknown hprint (hpublished' hframe) h.follows
  · rw [Option.map_some, Option.toList_some]
    rcases h.pending queued hqueued with hframe | ⟨hframe, hpub⟩
    · refine updatesKept_idle rfl htext hknown hprint
        (Published.keyframe hframe (hwaiting queued hqueued hframe)) (h.follows.append ?_)
      intro hkeepalive
      cases hframe.unique hkeepalive
    · exact updatesKept_idle rfl htext hknown hprint ((hpublished' hframe).keepalive hframe)
        (h.follows.append fun _ => hpub)

/-- A KeepAlive is built while the values of the last keyframe still hold. -/
theorem UpdatesKept.keepAlive {t : PublisherTrace α} (h : UpdatesKept host config t)
    {text : JsValue} (htext : t.state.publishedSnapshot = some text)
    (hsame : ∀ known, t.keyframeKnown = some known →
      Json.stringify t.latest = Json.stringify known → SameDeclared host config known t.latest)
    (hlatest : Json.stringify t.latest = Json.stringify text)
    (hpending : ∀ nm, t.state.pendingSend = some nm → ¬ IsFrame .keyframe nm)
    {nm : NetworkMessage} (hframe : IsFrame .keepalive nm) {accepts : Bool} {nmSeq : Nat}
    {dsmSeq : InsertionMap Nat Nat} {st : PublisherState} {handed : Option (Handed α)}
    (hemit : emit encode accepts nm { t.state with nmSeq := nmSeq, dsmSeq := dsmSeq } =
      (st, handed)) :
    UpdatesKept host config
      { state := st, pendingKnown := t.latest, keyframeKnown := t.keyframeKnown,
        log := t.log ++ (handed.map fun h => ⟨h, t.latest⟩).toList } := by
  obtain ⟨known, hknown, hprint, -, hpublished⟩ := h.snapshot text htext
  have hkept := hsame known hknown (by rw [hlatest, Json.stringify_stringify hprint, hprint])
  have hpub := hpublished hpending
  rcases emit_cases hemit with ⟨hconn, rfl, rfl⟩ | ⟨hconn, rfl, -, rfl⟩ |
    ⟨hconn, rfl, encoded, -, rfl⟩
  · rw [Option.map_none, Option.toList_none, List.append_nil]
    exact updatesKept_waiting rfl hconn htext hknown hprint
      (Or.inr ⟨hframe, hpub, hpub.congr hkept⟩) h.follows
  · rw [Option.map_none, Option.toList_none, List.append_nil]
    exact updatesKept_idle (h.connected hconn) htext hknown hprint hpub h.follows
  · rw [Option.map_some, Option.toList_some]
    exact updatesKept_idle (h.connected hconn) htext hknown hprint (hpub.keepalive hframe)
      (h.follows.append fun _ => hpub.congr hkept)

/-- A keyframe is built with the latest values. -/
theorem UpdatesKept.keyframe {t : PublisherTrace α} (h : UpdatesKept host config t)
    {text : JsValue} (hprint : Json.stringify t.latest = .ok (some text)) {nm : NetworkMessage}
    (hframe : IsFrame .keyframe nm) (hcarries : Carries host config nm t.latest)
    (hencode : t.state.connected = true → (encode nm).isOk) {accepts : Bool} {nmSeq : Nat}
    {dsmSeq : InsertionMap Nat Nat} {st : PublisherState} {handed : Option (Handed α)}
    (hemit : emit encode accepts nm { t.state with
      nmSeq := nmSeq, dsmSeq := dsmSeq, publishedSnapshot := some text } = (st, handed)) :
    UpdatesKept host config
      { state := st, pendingKnown := t.latest, keyframeKnown := some t.latest,
        log := t.log ++ (handed.map fun h => ⟨h, t.latest⟩).toList } := by
  rcases emit_cases hemit with ⟨hconn, rfl, rfl⟩ | ⟨hconn, -, henc, -⟩ |
    ⟨hconn, rfl, encoded, -, rfl⟩
  · rw [Option.map_none, Option.toList_none, List.append_nil]
    exact updatesKept_waiting rfl hconn rfl rfl hprint (Or.inl ⟨hframe, hcarries⟩) h.follows
  · rw [hencode hconn] at henc
    cases henc
  · rw [Option.map_some, Option.toList_some]
    refine updatesKept_idle (h.connected hconn) rfl rfl hprint
      (Published.keyframe hframe hcarries) (h.follows.append ?_)
    intro hkeepalive
    cases hframe.unique hkeepalive

/-- What every step keeps when it loses nothing. -/
theorem updatesKept_step (hcyclic : config.publishMode = .cyclic)
    (hproto : NoProtoField config) :
    Preserves (traceStep host config encode) (LosesNothing host config encode)
      (UpdatesKept host config) := by
  intro t e t' h hok hstep
  obtain ⟨⟨st, handed⟩, hpub, rfl⟩ := Option.map_eq_some_iff.mp hstep
  cases e with
  | input payload now accepts =>
      rw [publisherStep, input, hcyclic] at hpub
      cases hpub
      simp only [Option.map_none, Option.toList_none, List.append_nil]
      exact h.input _
  | status status accepts =>
      rw [publisherStep] at hpub
      cases status with
      | connected =>
          cases hqueued : t.state.pendingSend with
          | none =>
              rw [statusCb, hqueued] at hpub
              cases hpub
              simp only [Option.map_none, Option.toList_none, List.append_nil]
              have hconnect := h.connect hqueued
              simp only [hqueued] at hconnect
              exact hconnect
          | some queued =>
              rw [statusCb, hqueued] at hpub
              exact h.flush hqueued (hok rfl queued hqueued) (Option.some.inj hpub)
      | disconnected | reconnecting =>
          cases hpub
          simp only [Option.map_none, Option.toList_none, List.append_nil]
          exact h.disconnect
      | error =>
          cases hpub
          simp only [Option.map_none, Option.toList_none, List.append_nil]
          exact h
  | tick now accepts =>
      obtain ⟨hsame, hpending, hencode⟩ := hok
      rw [publisherStep, hcyclic] at hpub
      rcases tick_cases (Option.some.inj hpub) with
        ⟨e, hchanged, rfl, rfl⟩ | ⟨e, hchanged, hprint, rfl, rfl⟩ |
        ⟨text, hchanged, hprint, hemit⟩ | ⟨hchanged, hemit⟩
      · simp only [PublisherTrace.changed, PublisherTrace.latest, hchanged, Option.map_none,
          Option.toList_none, List.append_nil]
        exact h
      · have hsnapshot := valuesChanged_error hchanged hprint
        simp only [PublisherTrace.changed, PublisherTrace.latest, hchanged, Option.map_none,
          Option.toList_none, List.append_nil]
        exact h.unpublished hsnapshot
      · have hkept := h.keyframe hprint (isFrame_buildMessage (fun _ _ => rfl) now t.state)
          (carries_buildNetworkMessage hproto t.latest now t.state) (hencode hchanged) hemit
        simp only [PublisherTrace.changed, PublisherTrace.latest, hchanged]
        exact hkept
      · obtain ⟨text, htext, hlatest⟩ := valuesChanged_false hchanged
        have hkept := h.keepAlive htext hsame hlatest (hpending hchanged)
          (isFrame_buildMessage (fun _ _ => rfl) now t.state) hemit
        simp only [PublisherTrace.changed, PublisherTrace.latest, hchanged]
        exact hkept

/-- Every KeepAlive follows a keyframe with the values known when it was built,
in every run that loses no keyframe. -/
theorem keepAlives_follow_values {host : Host} {config : PublisherConfig} {α ε : Type}
    {encode : NetworkMessage → Except ε α} (hcyclic : config.publishMode = .cyclic)
    (hproto : NoProtoField config) {events : List PublisherEvent} {t : PublisherTrace α}
    (hok : Along (traceStep host config encode) (LosesNothing host config encode) {} events)
    (hrun : run (traceStep host config encode) {} events = some t) :
    FollowsValues host config t.log :=
  ((updatesKept_step hcyclic hproto).run updatesKept_init hok hrun).follows

theorem int32Writers_ne :
    [(⟨1, ⟨[⟨js "t", js "Int32"⟩], ⟨JsValue.nat 1, JsValue.nat 0⟩⟩⟩ : DataSetWriter)] ≠ [] :=
  List.cons_ne_nil _ _

/-- A cyclic publisher of one Int32. -/
def counterPublisher : PublisherConfig where
  publisherId := JsValue.nat 5
  writerGroupId := 1
  publishMode := .cyclic
  writers := [⟨1, ⟨[⟨js "t", js "Int32"⟩], ⟨JsValue.nat 1, JsValue.nat 0⟩⟩⟩]
  writers_ne := int32Writers_ne

/-- The UADP encoder with the message size of the configuration. -/
def uadpEncoder (host : Host) (config : PublisherConfig) (nm : NetworkMessage) :
    Except Uadp.UadpError Uadp.Encoded :=
  Uadp.encodeNetworkMessage host nm config.maxNetworkMessageSize

/-- A value arrives once and is published, then confirmed by a KeepAlive. -/
theorem counter_followed : ∃ t : PublisherTrace Uadp.Encoded,
    run (traceStep Host.inert counterPublisher (uadpEncoder Host.inert counterPublisher)) {}
      [.input (.object [(js "t", JsValue.nat 1)]) 0 true, .status .connected true, .tick 0 true,
        .tick 1000 true] = some t ∧
    t.log.map (fun entry => decide (IsFrame .keepalive entry.handed.message)) = [false, true] ∧
    FollowsValues Host.inert counterPublisher t.log := by
  have hlog : (run (traceStep Host.inert counterPublisher
      (uadpEncoder Host.inert counterPublisher)) {}
      [.input (.object [(js "t", JsValue.nat 1)]) 0 true, .status .connected true, .tick 0 true,
        .tick 1000 true]).map (fun t =>
          t.log.map fun entry => decide (IsFrame .keepalive entry.handed.message)) =
      some [false, true] := by
    decide +kernel
  obtain ⟨t, hrun, hframes⟩ := Option.map_eq_some_iff.mp hlog
  exact ⟨t, hrun, hframes, keepAlives_follow_values rfl (by decide) (by decide +kernel) hrun⟩

/-- A keyframe waits for the connection, and the KeepAlive of the next interval
takes its place. -/
theorem waiting_keyframe_replaced :
    ¬ ∀ (host : Host) (config : PublisherConfig) (events : List PublisherEvent)
      (t : PublisherTrace Uadp.Encoded), config.publishMode = .cyclic →
      run (traceStep host config (uadpEncoder host config)) {} events = some t →
        FollowsValues host config t.log := by
  intro h
  have hlog : (run (traceStep Host.inert counterPublisher
      (uadpEncoder Host.inert counterPublisher)) {}
      [.input (.object [(js "t", JsValue.nat 1)]) 0 true, .tick 0 true, .tick 1000 true,
        .status .connected true]).map (fun t =>
          t.log.map fun entry => decide (IsFrame .keepalive entry.handed.message)) =
      some [true] := by
    decide +kernel
  obtain ⟨t, hrun, hframes⟩ := Option.map_eq_some_iff.mp hlog
  obtain ⟨entry, hentry, hkeepalive⟩ := List.map_eq_singleton_iff.mp hframes
  obtain ⟨nm, hlast, -⟩ := h _ _ _ t rfl hrun [] entry [] hentry (of_decide_eq_true hkeepalive)
  cases hlast

end OpcUaSuite.Nodes
