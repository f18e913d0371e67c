import OpcUaSuite.Nodes.Keyframe
import OpcUaSuite.Nodes.Received

/-!
# From the publisher to the subscriber over UADP

A message is built, encoded at some size, delivered frame by frame in any order
and handled. The stages compose: the encoder and its reader, the chunks and the
reassembler, the filter and the payload.
-/

namespace OpcUaSuite.Nodes

open Js ByteCodec BinaryFloat PubSub Uadp

/-- A configuration the factories accept, with a PublisherId of one of its types
and versions of 32 bits. -/
structure Configured (config : PublisherConfig) : Prop where
  publisherId : Optional IsPublisherId config.publisherId
  writerGroupId : 1 ≤ config.writerGroupId ∧ config.writerGroupId ≤ 65535
  writerIds : ∀ w ∈ config.writers, 1 ≤ w.dataSetWriterId ∧ w.dataSetWriterId ≤ 65535
  versions : ∀ w ∈ config.writers,
    IntegerIn 0 (256 ^ 4 - 1) w.publishedDataSet.configurationVersion.major ∧
      IntegerIn 0 (256 ^ 4 - 1) w.publishedDataSet.configurationVersion.minor

/-- A writer passes the filter of a subscriber. -/
def passes (host : Host) (config : PublisherConfig) (sub : SubscriberConfig) (w : DataSetWriter) :
    Bool :=
  accepts host sub config.publisherId (.nat config.writerGroupId) (.nat w.dataSetWriterId) &&
    (mismatch? sub (some w.publishedDataSet.configurationVersion)).isNone

/-- A message a subscriber sends for a writer: under its id, with the declared
fields that the input has, with their values, and with nothing else. -/
def MsgFor (props : List (JsString × JsValue)) (w : DataSetWriter) (msg : Msg) : Prop :=
  msg.dataSetWriterId = .nat w.dataSetWriterId ∧
    ∀ name, Props.get? name msg.payload = publishedValue w.publishedDataSet.fields props name

/-- One message for each writer that passes the filter, in the order of the writers. -/
def Delivered (host : Host) (config : PublisherConfig) (sub : SubscriberConfig)
    (props : List (JsString × JsValue)) (msgs : List Msg) : Prop :=
  List.Forall₂ (MsgFor props) (config.writers.filter (passes host config sub)) msgs

/-! ## The message and its encoding -/

variable {host : Host} {config : PublisherConfig} {props : List (JsString × JsValue)}

theorem integerIn_nat {n hi : Nat} (h : n ≤ hi) : IntegerIn 0 hi (.nat n) :=
  ⟨n, Int.natCast_nonneg n, Int.ofNat_le.mpr h, Or.inl rfl⟩

theorem unsignZero_nat {n : Nat} (h : n ≤ 65535) : unsignZero (.nat n) = .nat n :=
  unsignZero_num (i := n) (by omega) (Or.inl rfl)

theorem headerInRange_build (h : Configured config)
    (message : DataSetWriter → Nat → DataSetMessage) (now : Int) (st : PublisherState) :
    HeaderInRange (buildMessage config message now st).1 where
  publisherId := h.publisherId
  dataSetClassId := Or.inl rfl
  groupHeader := by
    intro gh hgh
    cases hgh
    exact ⟨integerIn_nat h.writerGroupId.2, Or.inl rfl, Or.inl rfl, integerIn_nat (nextSeq_le _)⟩
  payloadHeader := by
    intro ids hids
    cases hids
    rw [List.length_map]
    refine ⟨List.length_pos_iff.mpr config.writers_ne, fun id hid => ?_⟩
    obtain ⟨w, hw, rfl⟩ := List.mem_map.mp hid
    exact integerIn_nat (h.writerIds w hw).2
  timestamp := Or.inr ⟨now, rfl⟩
  picoseconds := Or.inl rfl
  timed hp := absurd rfl hp

/-- What a decoder reads for the DataSetMessage of a writer. -/
def KeyframeRead (host : Host) (props : List (JsString × JsValue)) (w : DataSetWriter)
    (d : DataSetMessage) : Prop :=
  ∃ seq entries, d = decodedMessage (keyframeMessage host (.object props) w seq)
      (some (Props.ofEntries entries)) ∧
    List.Forall₂ EntryRead (keyframeFields host w.publishedDataSet.fields (.object props)) entries

theorem membersInRange_keyframe {source : JsValue} {w : DataSetWriter} {seq : Nat}
    (hversion : IntegerIn 0 (256 ^ 4 - 1) w.publishedDataSet.configurationVersion.major ∧
      IntegerIn 0 (256 ^ 4 - 1) w.publishedDataSet.configurationVersion.minor)
    (hseq : seq ≤ 65535) : MembersInRange (keyframeMessage host source w seq) where
  fieldEncoding := FieldEncoding.noConfusion
  sequenceNumber := Or.inr (integerIn_nat hseq)
  status := Or.inl rfl
  major := Or.inr hversion.1
  minor := Or.inr hversion.2
  timestamp := Or.inl rfl
  picoseconds := Or.inl rfl
  timed hp := absurd rfl hp

theorem encodes_keyframeMessage (hstd : host.Standard) {w : DataSetWriter}
    (hrange : ValuesInRange w.publishedDataSet.fields props)
    (hversion : IntegerIn 0 (256 ^ 4 - 1) w.publishedDataSet.configurationVersion.major ∧
      IntegerIn 0 (256 ^ 4 - 1) w.publishedDataSet.configurationVersion.minor)
    {seq : Nat} (hseq : seq ≤ 65535) :
    ∃ d, Encodes (encodeDataSetMessage host (keyframeMessage host (.object props) w seq))
      readDataSetMessage d ∧ KeyframeRead host props w d := by
  obtain ⟨entries, hfields, hentries⟩ := @consumes_keyframe host props hstd w seq hrange
  refine ⟨_, encodes_dataSetMessage_of (membersInRange_keyframe hversion hseq) ?_, seq, entries, rfl,
    hentries⟩
  exact Encodes.map some hfields

theorem encodes_payload (hstd : host.Standard) {writers : List DataSetWriter}
    (hrange : ∀ w ∈ writers, ValuesInRange w.publishedDataSet.fields props)
    (hversions : ∀ w ∈ writers,
      IntegerIn 0 (256 ^ 4 - 1) w.publishedDataSet.configurationVersion.major ∧
        IntegerIn 0 (256 ^ 4 - 1) w.publishedDataSet.configurationVersion.minor)
    (seqs : InsertionMap Nat Nat) :
    ∃ ds, MessagesEncode host
        (buildPayload (keyframeMessage host (.object props)) writers seqs).1 ds ∧
      List.Forall₂ (KeyframeRead host props) writers ds := by
  induction writers generalizing seqs with
  | nil => exact ⟨[], List.Forall₂.nil, List.Forall₂.nil⟩
  | cons w writers ih =>
      obtain ⟨d, hd, hread⟩ := encodes_keyframeMessage hstd (hrange w List.mem_cons_self)
        (hversions w List.mem_cons_self)
        (nextSeq_le ((InsertionMap.get? w.dataSetWriterId seqs).getD 0))
      obtain ⟨ds, hds, hreads⟩ := ih (fun v hv => hrange v (List.mem_cons_of_mem w hv))
        (fun v hv => hversions v (List.mem_cons_of_mem w hv)) _
      exact ⟨d :: ds, List.Forall₂.cons hd hds, List.Forall₂.cons hread hreads⟩

/-- A decoder reads the header back with the messages it reads. -/
theorem decode_build (hconfig : Configured config) {message : DataSetWriter → Nat → DataSetMessage}
    (now : Int) {st : PublisherState} {ds : List DataSetMessage}
    (hds : MessagesEncode host (buildPayload message config.writers st.dsmSeq).1 ds)
    (hlength : ds.length = config.writers.length) {whole : Bytes}
    (hwhole : encodeWhole host (buildMessage config message now st).1 = .ok whole) :
    Uadp.decodeNetworkMessage whole =
      .ok { headerNormal (buildMessage config message now st).1 with payload := ds } := by
  have hheader := headerInRange_build hconfig message now st
  have hflags : buildExtendedFlags2 (buildMessage config message now st).1 = 0 := by
    simp [buildExtendedFlags2, buildMessage, JsValue.truthy, Flags.bit]
  refine decode_encodeWhole_of (fun typeBits hbits => headerEncodes_of_inRange hheader hbits) hds
    hflags (length_headerNormal_writerIds _) (Or.inl ?_) hwhole
  change (config.writers.map fun w => JsValue.nat w.dataSetWriterId).length = _
  rw [List.length_map, ← hlength, ← hds.length_eq]
  rfl

/-! ## The subscriber -/

variable {sub : SubscriberConfig} {now : Int} {topic : Option JsString} {nm : NetworkMessage}

theorem toText_unsignZero (v : JsValue) : host.toText (unsignZero v) = host.toText v := by
  unfold unsignZero
  split
  next h =>
    subst h
    have hzero : Double.zero.Denotes 0 := Value.denotes_zero false _ _
    simp only [Host.toText, hzero.isInteger, hzero.trunc, Double.denotes_negZero.isInteger,
      Double.denotes_negZero.trunc, Int.natAbs_zero, Nat.pow_pos (Nat.zero_lt_succ 1), decide_true,
      Bool.and_self, if_true]
  next => rfl

theorem convertible_unsignZero (v : JsValue) : convertible (unsignZero v) = convertible v := by
  unfold unsignZero
  split
  next h =>
    subst h
    rfl
  next => rfl

/-- The filter does not see the sign of a zero. -/
theorem accepts_unsignZero (publisherId writerGroupId id : JsValue) :
    accepts host sub (unsignZero publisherId) writerGroupId id =
      accepts host sub publisherId writerGroupId id := by
  rw [accepts, accepts, comparable, comparable, toText_unsignZero, convertible_unsignZero]

theorem strictEq_unsignZero (v : JsValue) (e : Double) :
    (unsignZero v).strictEq (.num e) = v.strictEq (.num e) := by
  unfold unsignZero
  split
  next h =>
    subst h
    have hzero : Double.zero ≠ .nan ∧ Double.zero.isZero = true := by decide
    have hnegZero : Double.negZero ≠ .nan ∧ Double.negZero.isZero = true := by decide
    have hsame : ∀ d : Double, d.isZero = true →
        (decide (d = e) || (d.isZero && e.isZero)) = e.isZero := by
      intro d hd
      by_cases heq : d = e
      · subst heq
        simp [hd]
      · simp [heq, hd]
    simp only [JsValue.strictEq, hsame _ hzero.2, hsame _ hnegZero.2, decide_eq_false hzero.1,
      decide_eq_false hnegZero.1]
  next => rfl

/-- The version check does not see the sign of a zero. -/
theorem mismatch?_unsignZero (cv : ConfigurationVersion) :
    (mismatch? sub (some ⟨unsignZero cv.major, unsignZero cv.minor⟩)).isNone =
      (mismatch? sub (some cv)).isNone := by
  unfold mismatch?
  cases sub.expectedCv with
  | none => rfl
  | some expected =>
      simp only [strictEq_unsignZero]
      split <;> rfl

theorem mismatch?_not_sent {cv : Option ConfigurationVersion} {error : SubscriberOutput}
    (h : mismatch? sub cv = some error) : sent [error] = [] := by
  unfold mismatch? at h
  split at h
  · split at h
    · cases h
    · cases h
      rfl
  · cases h

/-- What the node makes of a DataSetMessage whose writer is known by its place. -/
def outputsFor (host : Host) (sub : SubscriberConfig) (now : Int) (topic : Option JsString)
    (nm : NetworkMessage) (id : JsValue) (dsm : DataSetMessage) : List SubscriberOutput :=
  if accepts host sub nm.publisherId
      ((nm.groupHeader.map (·.writerGroupId)).getD .undefined) id then
    match mismatch? sub dsm.configurationVersion with
    | some error => [error]
    | none => [.send (msgOf sub now topic nm id dsm)]
  else []

theorem sent_outputsFor (id : JsValue) (dsm : DataSetMessage) :
    sent (outputsFor host sub now topic nm id dsm) =
      if accepts host sub nm.publisherId
          ((nm.groupHeader.map (·.writerGroupId)).getD .undefined) id &&
        (mismatch? sub dsm.configurationVersion).isNone then
        [msgOf sub now topic nm id dsm]
      else [] := by
  unfold outputsFor
  cases accepts host sub nm.publisherId
      ((nm.groupHeader.map (·.writerGroupId)).getD .undefined) id with
  | false => rfl
  | true =>
      rw [if_pos rfl, Bool.true_and]
      cases hmismatch : mismatch? sub dsm.configurationVersion with
      | none => rfl
      | some error => exact mismatch?_not_sent hmismatch

/-- Every version of a message has a text. -/
def Versioned (nm : NetworkMessage) : Prop :=
  ∀ dsm ∈ nm.payload, printableVersion dsm.configurationVersion = true

theorem handleDataSetMessage_eq (i : Nat) {dsm : DataSetMessage} {id : JsValue}
    (hversion : printableVersion dsm.configurationVersion = true)
    (hid : (if dsm.dataSetWriterId ≠ .undefined then dsm.dataSetWriterId
      else (nm.payloadHeader.getD []).getD i .undefined) = id)
    (hcomparable : comparable sub nm.publisherId = true) :
    handleDataSetMessage host sub now topic nm i dsm =
      .ok (outputsFor host sub now topic nm id dsm) := by
  rw [handleDataSetMessage, hid, hcomparable, outputsFor, hversion]
  simp only [Bool.not_true, Bool.false_eq_true, if_false, if_true]
  split
  · split <;> simp_all
  · rfl

theorem outputsFor_of_incomparable (hcomparable : comparable sub nm.publisherId = false)
    (id : JsValue) (dsm : DataSetMessage) : outputsFor host sub now topic nm id dsm = [] := by
  rw [outputsFor, accepts, hcomparable]
  rfl

/-- Without a text to compare the first round raises, and no message passes. -/
theorem sent_handleMessages_incomparable (hcomparable : comparable sub nm.publisherId = false)
    (i : Nat) (dsms : List DataSetMessage) :
    sent (handleMessages host sub now topic nm i dsms) = [] := by
  cases dsms with
  | nil => rfl
  | cons dsm dsms =>
      have hround : handleDataSetMessage host sub now topic nm i dsm = .error .typeError := by
        rw [handleDataSetMessage, hcomparable]
        rfl
      simp only [handleMessages, hround]
      rfl

theorem handleMessages_eq (hcomparable : comparable sub nm.publisherId = true) {ids : List JsValue}
    {dsms : List DataSetMessage} (hlength : ids.length = dsms.length)
    (hversions : ∀ dsm ∈ dsms, printableVersion dsm.configurationVersion = true) (k : Nat)
    (hids : ∀ i dsm, dsms[i]? = some dsm →
      (if dsm.dataSetWriterId ≠ .undefined then dsm.dataSetWriterId
        else (nm.payloadHeader.getD []).getD (k + i) .undefined) = ids.getD i .undefined) :
    handleMessages host sub now topic nm k dsms =
      (List.zipWith (outputsFor host sub now topic nm) ids dsms).flatten := by
  induction dsms generalizing ids k with
  | nil =>
      rw [List.zipWith_nil_right]
      rfl
  | cons dsm dsms ih =>
      obtain ⟨id, ids, rfl⟩ := List.exists_cons_of_length_eq_add_one hlength
      have hround := @handleDataSetMessage_eq host sub now topic nm k dsm id
        (hversions dsm List.mem_cons_self) (hids 0 dsm rfl) hcomparable
      have hrest := @ih ids (Nat.succ.inj hlength)
        (fun d hd => hversions d (List.mem_cons_of_mem dsm hd)) (k + 1) fun i d hd => by
          rw [Nat.add_assoc, Nat.add_comm 1 i]
          exact hids (i + 1) d hd
      simp only [handleMessages, hround, hrest, List.zipWith_cons_cons, List.flatten_cons]

/-- The ids of the writers are those of the messages, or those of the payload header. -/
theorem handleNetworkMessage_eq {ids : List JsValue} (hlength : ids.length = nm.payload.length)
    (hversions : Versioned nm) (hids : ∀ i dsm, nm.payload[i]? = some dsm →
      (if dsm.dataSetWriterId ≠ .undefined then dsm.dataSetWriterId
        else (nm.payloadHeader.getD []).getD i .undefined) = ids.getD i .undefined) :
    sent (handleNetworkMessage host sub now topic nm) =
      sent (List.zipWith (outputsFor host sub now topic nm) ids nm.payload).flatten := by
  cases hcomparable : comparable sub nm.publisherId with
  | false =>
      have hnone : ∀ outputs ∈ List.zipWith (outputsFor host sub now topic nm) ids nm.payload,
          outputs = [] := by
        intro outputs houtputs
        rw [← List.map_uncurry_zip_eq_zipWith] at houtputs
        obtain ⟨⟨id, dsm⟩, -, rfl⟩ := List.mem_map.mp houtputs
        exact outputsFor_of_incomparable hcomparable id dsm
      rw [handleNetworkMessage, sent_handleMessages_incomparable hcomparable,
        List.flatten_eq_nil_iff.mpr hnone]
      rfl
  | true =>
      rw [handleNetworkMessage, handleMessages_eq hcomparable hlength hversions 0]
      intro i dsm hdsm
      rw [Nat.zero_add]
      exact hids i dsm hdsm

/-- Messages that are sent one by one for the items that pass are right when each is. -/
theorem forall₂_sent_iff {α β : Type} {K : α → β → Prop} {M : α → Msg → Prop} {P : α → Prop}
    {pass : α → Bool} {f : α → β → List SubscriberOutput} {g : α → β → Msg} {as : List α}
    {bs : List β} (h : List.Forall₂ K as bs)
    (hsent : ∀ a ∈ as, ∀ b, K a b → sent (f a b) = if pass a then [g a b] else [])
    (hmsg : ∀ a ∈ as, ∀ b, K a b → (M a (g a b) ↔ P a)) :
    List.Forall₂ M (as.filter pass) (sent (List.zipWith f as bs).flatten) ↔
      ∀ a ∈ as, pass a = true → P a := by
  induction h with
  | nil => exact iff_of_true List.Forall₂.nil (List.forall_mem_nil _)
  | @cons a b as bs hab _ ih =>
      have hrest := ih (fun c hc => hsent c (List.mem_cons_of_mem a hc))
        fun c hc => hmsg c (List.mem_cons_of_mem a hc)
      rw [List.zipWith_cons_cons, List.flatten_cons, sent_append,
        hsent a List.mem_cons_self b hab, List.forall_mem_cons, ← hrest]
      cases hpass : pass a with
      | false => simp [hpass]
      | true =>
          rw [List.filter_cons_of_pos hpass, if_pos rfl, List.singleton_append,
            List.forall₂_cons, hmsg a List.mem_cons_self b hab]
          exact and_congr_left' ⟨fun hP _ => hP, fun hP => hP rfl⟩

/-! ## The stages together -/

theorem ne_undefined_of_integerIn {lo hi : Int} {v : JsValue} (h : IntegerIn lo hi v) :
    v ≠ .undefined := by
  obtain ⟨i, -, -, rfl | ⟨-, rfl⟩⟩ := h
  · exact JsValue.noConfusion
  · exact JsValue.noConfusion

theorem decoded_version {w : DataSetWriter} {seq : Nat} {fields : Option (List (JsString × Field))}
    (hversion : IntegerIn 0 (256 ^ 4 - 1) w.publishedDataSet.configurationVersion.major ∧
      IntegerIn 0 (256 ^ 4 - 1) w.publishedDataSet.configurationVersion.minor) :
    (decodedMessage (keyframeMessage host (.object props) w seq) fields).configurationVersion =
      some ⟨unsignZero w.publishedDataSet.configurationVersion.major,
        unsignZero w.publishedDataSet.configurationVersion.minor⟩ := by
  have hmajor := decide_eq_true (ne_undefined_of_integerIn hversion.1)
  change configurationVersionOf (decide (w.publishedDataSet.configurationVersion.major ≠
    .undefined)) _ _ _ = _
  rw [hmajor]
  rfl

/-- The version that was decoded is checked like the one that was published. -/
theorem mismatch?_decoded {w : DataSetWriter} {seq : Nat}
    {fields : Option (List (JsString × Field))}
    (hversion : IntegerIn 0 (256 ^ 4 - 1) w.publishedDataSet.configurationVersion.major ∧
      IntegerIn 0 (256 ^ 4 - 1) w.publishedDataSet.configurationVersion.minor) :
    (mismatch? sub (decodedMessage (keyframeMessage host (.object props) w seq)
        fields).configurationVersion).isNone =
      (mismatch? sub (some w.publishedDataSet.configurationVersion)).isNone := by
  rw [decoded_version hversion, mismatch?_unsignZero]

theorem convertible_of_integerIn {lo hi : Int} {v : JsValue} (h : IntegerIn lo hi v) :
    convertible (unsignZero v) = true := by
  obtain ⟨i, -, -, rfl | ⟨-, rfl⟩⟩ := h
  · unfold unsignZero
    split <;> rfl
  · rfl

theorem printable_decoded {w : DataSetWriter} {seq : Nat}
    {fields : Option (List (JsString × Field))}
    (hversion : IntegerIn 0 (256 ^ 4 - 1) w.publishedDataSet.configurationVersion.major ∧
      IntegerIn 0 (256 ^ 4 - 1) w.publishedDataSet.configurationVersion.minor) :
    printableVersion (decodedMessage (keyframeMessage host (.object props) w seq)
      fields).configurationVersion = true := by
  rw [decoded_version hversion]
  exact Bool.and_eq_true_iff.mpr
    ⟨convertible_of_integerIn hversion.1, convertible_of_integerIn hversion.2⟩

/-- The node sends the right messages for a decoded keyframe exactly when the
payload of each writer that passes the filter is kept. -/
theorem delivered_handle_iff (hstd : host.Standard) (hconfig : Configured config)
    (hrange : ∀ w ∈ config.writers, ValuesInRange w.publishedDataSet.fields props)
    {ds : List DataSetMessage} (hreads : List.Forall₂ (KeyframeRead host props) config.writers ds)
    (built : Int) (st : PublisherState) :
    Delivered host config sub props (sent (handleNetworkMessage host sub now topic
        { headerNormal (buildNetworkMessage host config (.object props) built st).1 with
          payload := ds })) ↔
      ∀ w ∈ config.writers, passes host config sub w = true →
        PayloadKept w.publishedDataSet.fields props := by
  generalize hnm : ({ headerNormal (buildNetworkMessage host config (.object props) built st).1 with
    payload := ds } : NetworkMessage) = nm
  have hpayload : nm.payload = ds := by rw [← hnm]
  have hids : nm.payloadHeader =
      some (config.writers.map fun w => JsValue.nat w.dataSetWriterId) := by
    rw [← hnm]
    change some ((config.writers.map fun w => JsValue.nat w.dataSetWriterId).map unsignZero) = _
    rw [List.map_map]
    congr 1
    exact List.map_congr_left fun w hw => unsignZero_nat (hconfig.writerIds w hw).2
  have hgroup : (nm.groupHeader.map (·.writerGroupId)).getD .undefined =
      .nat config.writerGroupId := by
    rw [← hnm]
    exact unsignZero_nat hconfig.writerGroupId.2
  have hpublisher : nm.publisherId = unsignZero config.publisherId := by rw [← hnm]; rfl
  have hplace : ∀ i dsm, nm.payload[i]? = some dsm →
      (if dsm.dataSetWriterId ≠ .undefined then dsm.dataSetWriterId
        else (nm.payloadHeader.getD []).getD i .undefined) =
          (config.writers.map fun w => JsValue.nat w.dataSetWriterId).getD i .undefined := by
    intro i dsm hdsm
    rw [hpayload] at hdsm
    obtain ⟨w, -, seq, entries, rfl, -⟩ :=
      exists_left_of_forall₂ hreads (List.mem_of_getElem? hdsm)
    rw [hids]
    rfl
  have hlength : (config.writers.map fun w => JsValue.nat w.dataSetWriterId).length =
      nm.payload.length := by
    rw [List.length_map, hpayload, hreads.length_eq]
  have hversions : Versioned nm := by
    intro dsm hdsm
    rw [hpayload] at hdsm
    obtain ⟨w, hw, seq, entries, rfl, -⟩ := exists_left_of_forall₂ hreads hdsm
    exact printable_decoded (hconfig.versions w hw)
  rw [handleNetworkMessage_eq hlength hversions hplace, List.zipWith_map_left, hpayload]
  refine forall₂_sent_iff (g := fun w d => msgOf sub now topic nm (.nat w.dataSetWriterId) d) hreads
    ?_ ?_
  · rintro w hw d ⟨seq, entries, rfl, -⟩
    rw [sent_outputsFor, hgroup, hpublisher, mismatch?_decoded (hconfig.versions w hw), passes,
      accepts_unsignZero]
  · rintro w hw d ⟨seq, entries, rfl, hentries⟩
    rw [← payload_iff hstd (hrange w hw) hentries]
    exact and_iff_right rfl

theorem not_taken_iff {α : Type} {p q : α → Prop} {h : Prop} (hnot : ¬ h) {as : List α} :
    (∀ a ∈ as, p a → h ∧ q a) ↔ ∀ a ∈ as, ¬ p a :=
  forall₂_congr fun _ _ => ⟨fun hp ha => hnot (hp ha).1, fun hp ha => (hp ha).elim⟩

/-- A keyframe of an input in range reaches the subscriber, in any order of its
frames, as one message for each writer that passes the filter, with the declared
fields the input has and no other, exactly when the reassembler takes the message
and the payload of each such writer is kept. -/
theorem published_iff_kept (hstd : host.Standard) (hconfig : Configured config)
    (_huadp : sub.encoding = .uadp)
    (hrange : ∀ w ∈ config.writers, ValuesInRange w.publishedDataSet.fields props)
    {built : Int} {st : PublisherState} {mtu : Int} {encoded : Encoded}
    (hencode : Uadp.encodeNetworkMessage host
      (buildNetworkMessage host config (.object props) built st).1 mtu = .ok encoded)
    {udpMtu : Nat} {arrivals : List Arrival} {t0 : Int}
    (hperm : (arrivals.map Prod.snd).Perm encoded.frames)
    (hwindow : ∀ a ∈ arrivals, t0 ≤ a.1 ∧ a.1 ≤ t0 + reassemblyExpiryMs) :
    Delivered host config sub props
        (sent (receiveAll host sub topic (initialReassembler sub udpMtu) arrivals)) ↔
      ∀ w ∈ config.writers, passes host config sub w = true →
        Taken host (buildNetworkMessage host config (.object props) built st).1
            (initialReassembler sub udpMtu) encoded ∧
          PayloadKept w.publishedDataSet.fields props := by
  obtain ⟨ds, hds, hreads⟩ := encodes_payload hstd hrange hconfig.versions st.dsmSeq
  have hdecode := fun whole => @decode_build host config hconfig _ built st ds hds
    hreads.length_eq.symm whole
  have hclass : ClassIdFits (buildNetworkMessage host config (.object props) built st).1 :=
    fun h => nomatch h
  obtain ⟨now, htaken, hlost⟩ := @sent_receiveAll host sub topic _ _ mtu encoded
    (initialReassembler sub udpMtu) arrivals t0 hencode hclass hdecode rfl
    (initialReassembler_entries sub udpMtu) hperm hwindow
  by_cases h : Taken host (buildNetworkMessage host config (.object props) built st).1
      (initialReassembler sub udpMtu) encoded
  · rw [htaken h]
    refine (delivered_handle_iff hstd hconfig hrange hreads built st).trans ?_
    exact forall₂_congr fun w _ => ⟨fun hkept hw => ⟨h, hkept hw⟩, fun hkept hw => (hkept hw).2⟩
  · rw [hlost h, not_taken_iff h, Delivered, List.forall₂_nil_right_iff, List.filter_eq_nil_iff]

/-- A publisher with one writer and one field. -/
def oneField (name dataType : JsString) : PublisherConfig where
  publisherId := .nat 5
  writerGroupId := 7
  publishMode := .acyclic
  writers := [{ dataSetWriterId := 3, publishedDataSet := { fields := [⟨name, dataType⟩] } }]
  writers_ne := List.cons_ne_nil _ _

theorem oneField_configured (name dataType : JsString) : Configured (oneField name dataType) where
  publisherId := Or.inr (Or.inl (@integerIn_nat 5 4294967295 (by decide)))
  writerGroupId := by change 1 ≤ 7 ∧ 7 ≤ 65535; decide
  writerIds := by
    intro w hw
    obtain rfl := List.mem_singleton.mp hw
    change 1 ≤ 3 ∧ 3 ≤ 65535
    decide
  versions := by
    intro w hw
    obtain rfl := List.mem_singleton.mp hw
    exact ⟨@integerIn_nat 1 4294967295 (by decide),
      @integerIn_nat 0 4294967295 (by decide)⟩

/-- A subscriber to that group over MQTT. -/
def groupReader : SubscriberConfig where
  transportType := .mqtt
  reader := { writerGroupId := .nat 7, given := Or.inr (Or.inl JsValue.noConfusion) }
  udp_uadp h := nomatch h

theorem oneField_inRange {name dataType : JsString} {t : BuiltInType}
    (ht : typeOf? (.name dataType) = some t)
    (h : ∀ v, publishedValue [⟨name, dataType⟩] props name = some v → ∀ x ∈ elements v, InRange t x) :
    ∀ w ∈ (oneField name dataType).writers, ValuesInRange w.publishedDataSet.fields props := by
  intro w hw
  obtain rfl := List.mem_singleton.mp hw
  intro other dataType' v hdeclared hvalue
  obtain ⟨heq, rfl⟩ := Prod.mk.inj (List.mem_singleton.mp (Props.last?_eq_some hdeclared))
  subst heq
  exact ⟨rfl, t, ht, h v hvalue⟩

/-- An Int32 that is published and delivered. -/
theorem published_int32 : ∃ frame,
    Uadp.encodeNetworkMessage Host.plain
        (buildNetworkMessage Host.plain (oneField (js "t") (js "Int32"))
          (.object [(js "t", .num (Double.ofInt (-7)))]) 0 {}).1 1400 = .ok (.single frame) ∧
      (Delivered Host.plain (oneField (js "t") (js "Int32")) groupReader
          [(js "t", .num (Double.ofInt (-7)))]
          (sent (receiveAll Host.plain groupReader none (initialReassembler groupReader 1400)
            [(0, frame)])) ↔
        ∀ w ∈ (oneField (js "t") (js "Int32")).writers,
          passes Host.plain (oneField (js "t") (js "Int32")) groupReader w = true →
            Taken Host.plain (buildNetworkMessage Host.plain (oneField (js "t") (js "Int32"))
                (.object [(js "t", .num (Double.ofInt (-7)))]) 0 {}).1
              (initialReassembler groupReader 1400) (.single frame) ∧
            PayloadKept w.publishedDataSet.fields [(js "t", .num (Double.ofInt (-7)))]) := by
  have hencode : Uadp.encodeNetworkMessage Host.plain
      (buildNetworkMessage Host.plain (oneField (js "t") (js "Int32"))
        (.object [(js "t", .num (Double.ofInt (-7)))]) 0 {}).1 1400 =
          .ok (.single [241, 32, 5, 7, 0, 0, 0, 0, 0, 0, 0, 1, 0, 1, 3, 0, 0, 128, 62, 213, 222, 177,
            157, 1, 105, 1, 0, 1, 0, 0, 0, 0, 0, 0, 0, 1, 0, 1, 0, 116, 6, 249, 255, 255, 255]) := by
    decide +kernel
  refine ⟨_, hencode, ?_⟩
  refine @published_iff_kept Host.plain _ _ groupReader none Host.standard_plain
    (oneField_configured _ _) rfl (oneField_inRange (t := .Int32) (by decide) ?_) 0 {} 1400 _ hencode
    1400 [(0, _)] 0 (List.Perm.refl _) ?_
  · intro v hv x hx
    have hvalue : publishedValue [⟨js "t", js "Int32"⟩] [(js "t", .num (Double.ofInt (-7)))]
        (js "t") = some (.num (Double.ofInt (-7))) := by decide
    obtain rfl := Option.some.inj (hv.symm.trans hvalue)
    obtain rfl := List.mem_singleton.mp hx
    exact Or.inr ⟨-7, by decide, by decide, Or.inl rfl⟩
  · intro a ha
    obtain rfl := List.mem_singleton.mp ha
    decide

/-- A field declared as `valueOf` is published although the input has no such
property: the lookup finds the inherited method. -/
theorem inherited_method_published : ¬ ∀ (host : Host) (config : PublisherConfig)
    (sub : SubscriberConfig) (topic : Option JsString) (props : List (JsString × JsValue))
    (built : Int) (st : PublisherState) (mtu : Int) (encoded : Encoded) (udpMtu : Nat)
    (arrivals : List Arrival) (t0 : Int),
    host.Standard → Configured config → sub.encoding = .uadp →
    (∀ w ∈ config.writers, ValuesInRange w.publishedDataSet.fields props) →
    Uadp.encodeNetworkMessage host (buildNetworkMessage host config (.object props) built st).1 mtu =
      .ok encoded →
    (arrivals.map Prod.snd).Perm encoded.frames →
    (∀ a ∈ arrivals, t0 ≤ a.1 ∧ a.1 ≤ t0 + reassemblyExpiryMs) →
    Taken host (buildNetworkMessage host config (.object props) built st).1
      (initialReassembler sub udpMtu) encoded →
    Delivered host config sub props
      (sent (receiveAll host sub topic (initialReassembler sub udpMtu) arrivals)) := by
  intro h
  have hdelivered := h Host.plain (oneField (js "valueOf") (js "Boolean")) groupReader none [] 0 {}
    1400 (.single [241, 32, 5, 7, 0, 0, 0, 0, 0, 0, 0, 1, 0, 1, 3, 0, 0, 128, 62, 213, 222, 177, 157,
      1, 105, 1, 0, 1, 0, 0, 0, 0, 0, 0, 0, 1, 0, 7, 0, 118, 97, 108, 117, 101, 79, 102, 1, 1]) 1400
    [(0, [241, 32, 5, 7, 0, 0, 0, 0, 0, 0, 0, 1, 0, 1, 3, 0, 0, 128, 62, 213, 222, 177, 157,
      1, 105, 1, 0, 1, 0, 0, 0, 0, 0, 0, 0, 1, 0, 7, 0, 118, 97, 108, 117, 101, 79, 102, 1, 1])] 0
    Host.standard_plain (oneField_configured _ _) rfl
    (oneField_inRange (t := .Boolean) (by decide) (by
      intro v hv
      exact absurd (hv.symm.trans (by decide : _ = none)) (Option.some_ne_none v)))
    (by decide +kernel) (List.Perm.refl _)
    (by
      intro a ha
      obtain rfl := List.mem_singleton.mp ha
      decide)
    trivial
  have hfilter : (oneField (js "valueOf") (js "Boolean")).writers.filter
      (passes Host.plain (oneField (js "valueOf") (js "Boolean")) groupReader) =
        (oneField (js "valueOf") (js "Boolean")).writers := by decide +kernel
  rw [Delivered, hfilter] at hdelivered
  obtain ⟨msg, msgs, hmsg, -, hsent⟩ := List.forall₂_cons_left_iff.mp hdelivered
  have hpayload := hmsg.2 (js "valueOf")
  have hlookup : (sent (receiveAll Host.plain groupReader none (initialReassembler groupReader 1400)
      [(0, [241, 32, 5, 7, 0, 0, 0, 0, 0, 0, 0, 1, 0, 1, 3, 0, 0, 128, 62, 213, 222, 177, 157,
        1, 105, 1, 0, 1, 0, 0, 0, 0, 0, 0, 0, 1, 0, 7, 0, 118, 97, 108, 117, 101, 79, 102, 1,
        1])])).head?.map (fun m => Props.get? (js "valueOf") m.payload) = some (some (.bool true)) := by
    decide +kernel
  rw [hsent, List.head?_cons, Option.map_some, hpayload] at hlookup
  exact absurd hlookup (by decide +kernel)

end OpcUaSuite.Nodes
