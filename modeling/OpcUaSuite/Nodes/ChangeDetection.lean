import OpcUaSuite.Nodes.PublisherUpdates

/-!
# Change detection of a cyclic publisher

An interval compares the JSON texts of the values known now and of those the
last keyframe was built from. It tells exactly whether a declared field changed
where the texts of all keys do.
-/

namespace OpcUaSuite.Nodes

open Js PubSub Transition Json

variable (host : Host) (config : PublisherConfig)

/-- The message an interval builds: a keyframe when the comparison finds a
change, a KeepAlive otherwise. -/
def tickMessage (now : Int) (st : PublisherState) : Except RuntimeError NetworkMessage :=
  (valuesChanged (.object st.latestValues) st.publishedSnapshot).map fun changed =>
    if changed then (buildNetworkMessage host config (.object st.latestValues) now st).1
    else (buildKeepAlive config now st).1

variable {α ε : Type} (encode : NetworkMessage → Except ε α)

/-- What an interval hands over, or leaves to wait, is the message. -/
def TickGives (now : Int) (st : PublisherState) (nm : NetworkMessage) : Prop :=
  ∀ accepts st' handed, tick host config encode now accepts st = (st', handed) →
    (∀ h, handed = some h → h.message = nm) ∧
      ∀ queued, st'.pendingSend = some queued → st.pendingSend = some queued ∨ queued = nm

/-- The next interval does not fail to compare, and builds a keyframe exactly when
none was built or a declared field reads differently than at the last one. -/
def DetectsExactly (t : PublisherTrace α) : Prop :=
  ∀ now, ∃ nm, tickMessage host config now t.state = .ok nm ∧
    TickGives host config encode now t.state nm ∧
    (IsFrame .keyframe nm ↔ t.keyframeKnown = none ∨
      ∃ known, t.keyframeKnown = some known ∧ ¬ SameDeclared host config known t.latest)

/-- A run of a cyclic publisher none of whose payloads is merged with another prototype. -/
structure CyclicRun (events : List PublisherEvent) (t : PublisherTrace α) : Prop where
  cyclic : config.publishMode = .cyclic
  plain : ∀ e ∈ events, e.KeepsPrototype
  reached : run (traceStep host config encode) {} events = some t

/-- The texts of two values tell whether a declared field differs: the later one
has a text when the earlier one has, and the declared fields read the same
exactly when all keys have the same text. -/
def TextsTell (known latest : JsValue) : Prop :=
  (Printable known → Printable latest) ∧
  (SameDeclared host config known latest ↔
    Printable known ∧ ∀ key, textAt known key = textAt latest key)

variable {host config} {encode}

/-- A message given to `_emit` is the one handed over, or the one that waits. -/
theorem emit_message {accepts : Bool} {nm : NetworkMessage} {st st' : PublisherState}
    {handed : Option (Handed α)} (h : emit encode accepts nm st = (st', handed)) :
    (∀ h, handed = some h → h.message = nm) ∧
      ∀ queued, st'.pendingSend = some queued → st.pendingSend = some queued ∨ queued = nm := by
  rcases emit_cases h with ⟨-, rfl, rfl⟩ | ⟨-, rfl, -, rfl⟩ | ⟨-, rfl, encoded, -, rfl⟩
  · exact ⟨fun _ h => (nomatch h), fun queued h => Or.inr (Option.some.inj h).symm⟩
  · exact ⟨fun _ h => (nomatch h), fun _ h => Or.inl h⟩
  · refine ⟨fun _ h => ?_, fun _ h => Or.inl h⟩
    cases h
    rfl

/-- What an interval hands over, or leaves to wait, is the message it builds. -/
theorem tick_gives {now : Int} {st : PublisherState} {nm : NetworkMessage}
    (h : tickMessage host config now st = .ok nm) : TickGives host config encode now st nm := by
  intro accepts st' handed htick
  rcases tick_cases htick with ⟨e, -, rfl, rfl⟩ | ⟨e, -, -, rfl, rfl⟩ |
    ⟨text, hchanged, -, hemit⟩ | ⟨hchanged, hemit⟩
  · exact ⟨fun _ h => (nomatch h), fun _ h => Or.inl h⟩
  · exact ⟨fun _ h => (nomatch h), fun _ h => Or.inl h⟩
  · rw [tickMessage, hchanged] at h
    obtain rfl := Except.ok.inj h
    obtain ⟨hhanded, hqueued⟩ := emit_message hemit
    exact ⟨hhanded, hqueued⟩
  · rw [tickMessage, hchanged] at h
    obtain rfl := Except.ok.inj h
    obtain ⟨hhanded, hqueued⟩ := emit_message hemit
    exact ⟨hhanded, hqueued⟩

/-! ## What is compared -/

/-- The snapshot is the text of the values of the last keyframe, where they have
one, and their keys are among those known now, in one order. -/
structure Compared (t : PublisherTrace α) : Prop where
  nodup : (InsertionMap.keys t.state.latestValues).Nodup
  known : ∀ known, t.keyframeKnown = some known → ∃ props, known = .object props ∧
    (InsertionMap.keys props).Sublist (InsertionMap.keys t.state.latestValues)
  unpublished : t.state.publishedSnapshot = none →
    ∀ known, t.keyframeKnown = some known → ¬ Printable known
  published : ∀ text, t.state.publishedSnapshot = some text →
    ∃ known, t.keyframeKnown = some known ∧ stringify known = .ok (some text)

theorem compared_init : Compared ({} : PublisherTrace α) where
  nodup := List.nodup_nil
  known _ h := by cases h
  unpublished _ _ h := by cases h
  published _ h := by cases h

/-- Other state does not enter the comparison. -/
theorem Compared.congr {t t' : PublisherTrace α} (h : Compared t)
    (hlatest : t'.state.latestValues = t.state.latestValues)
    (hsnapshot : t'.state.publishedSnapshot = t.state.publishedSnapshot)
    (hknown : t'.keyframeKnown = t.keyframeKnown) : Compared t' where
  nodup := hlatest ▸ h.nodup
  known := by
    rw [hlatest, hknown]
    exact h.known
  unpublished := by
    rw [hsnapshot, hknown]
    exact h.unpublished
  published := by
    rw [hsnapshot, hknown]
    exact h.published

theorem emit_kept {accepts : Bool} {nm : NetworkMessage} {st st' : PublisherState}
    {handed : Option (Handed α)} (h : emit encode accepts nm st = (st', handed)) :
    st'.latestValues = st.latestValues ∧ st'.publishedSnapshot = st.publishedSnapshot := by
  rcases emit_cases h with ⟨-, rfl, -⟩ | ⟨-, rfl, -⟩ | ⟨-, rfl, -⟩ <;> exact ⟨rfl, rfl⟩

theorem statusCb_kept {accepts : Bool} {status : Status} {st st' : PublisherState}
    {handed : Option (Handed α)} (h : statusCb encode accepts status st = (st', handed)) :
    st'.latestValues = st.latestValues ∧ st'.publishedSnapshot = st.publishedSnapshot := by
  cases status with
  | connected =>
      cases hqueued : st.pendingSend with
      | none =>
          rw [statusCb, hqueued] at h
          cases h
          exact ⟨rfl, rfl⟩
      | some queued =>
          rw [statusCb, hqueued] at h
          change emit encode accepts queued
            { st with connected := true, pendingSend := none } = _ at h
          exact ⟨(emit_kept h).1, (emit_kept h).2⟩
  | disconnected | reconnecting | error =>
      cases h
      exact ⟨rfl, rfl⟩

theorem compared_step (hcyclic : config.publishMode = .cyclic) :
    Preserves (traceStep host config encode) (fun _ _ => True) Compared := by
  intro t e t' h _ hstep
  obtain ⟨⟨st, handed⟩, hpub, rfl⟩ := Option.map_eq_some_iff.mp hstep
  cases e with
  | input payload now accepts =>
      rw [publisherStep, input, hcyclic] at hpub
      cases hpub
      refine ⟨nodup_assign _ h.nodup, fun known hknown => ?_, h.unpublished, h.published⟩
      obtain ⟨props, rfl, hkeys⟩ := h.known known hknown
      exact ⟨props, rfl, hkeys.trans (keys_sublist_assign _ _)⟩
  | status status accepts =>
      obtain ⟨hlatest, hsnapshot⟩ := statusCb_kept (Option.some.inj hpub)
      exact h.congr hlatest hsnapshot rfl
  | tick now accepts =>
      rw [publisherStep, hcyclic] at hpub
      rcases tick_cases (Option.some.inj hpub) with
        ⟨e, hchanged, rfl, rfl⟩ | ⟨e, hchanged, hprint, rfl, rfl⟩ |
        ⟨text, hchanged, hprint, hemit⟩ | ⟨hchanged, hemit⟩
      · simp only [PublisherTrace.changed, PublisherTrace.latest, hchanged]
        exact h.congr rfl rfl rfl
      · simp only [PublisherTrace.changed, PublisherTrace.latest, hchanged]
        have hsnapshot : t.state.publishedSnapshot = none := valuesChanged_error hchanged hprint
        refine ⟨h.nodup, fun known hknown => ?_, fun _ known hknown => ?_, fun text htext => ?_⟩
        · cases hknown
          exact ⟨_, rfl, List.Sublist.refl _⟩
        · cases hknown
          rintro ⟨text, htext⟩
          cases hprint.symm.trans htext
        · cases hsnapshot.symm.trans htext
      · obtain ⟨hlatest, hsnapshot⟩ := emit_kept hemit
        simp only [PublisherTrace.changed, PublisherTrace.latest, hchanged]
        refine ⟨?_, fun known hknown => ?_, fun hnone => ?_, fun text' htext' => ?_⟩
        · change (InsertionMap.keys st.latestValues).Nodup
          rw [hlatest]
          exact h.nodup
        · cases hknown
          refine ⟨_, rfl, ?_⟩
          change List.Sublist _ (InsertionMap.keys st.latestValues)
          rw [hlatest]
          exact List.Sublist.refl _
        · cases hsnapshot.symm.trans hnone
        · cases hsnapshot.symm.trans htext'
          exact ⟨_, rfl, hprint⟩
      · obtain ⟨hlatest, hsnapshot⟩ := emit_kept hemit
        simp only [PublisherTrace.changed, PublisherTrace.latest, hchanged]
        exact h.congr hlatest hsnapshot rfl

/-! ## When the comparison is exact -/

theorem isFrame_ite {changed : Bool} {now : Int} {st : PublisherState} {sourceValues : JsValue} :
    IsFrame .keyframe (if changed then (buildNetworkMessage host config sourceValues now st).1
      else (buildKeepAlive config now st).1) ↔ changed = true := by
  cases changed with
  | true => exact ⟨fun _ => rfl, fun _ => isFrame_buildMessage (fun _ _ => rfl) now st⟩
  | false =>
      refine ⟨fun h => ?_, fun h => (nomatch h)⟩
      cases h.unique (@isFrame_buildMessage config keepAliveMessage .keepalive (fun _ _ => rfl) now st)

/-- Exactness is a matter of the comparison alone. -/
theorem detectsExactly_iff_changed {t : PublisherTrace α} :
    DetectsExactly host config encode t ↔ ∃ changed, t.changed = .ok changed ∧
      (changed = true ↔ t.keyframeKnown = none ∨
        ∃ known, t.keyframeKnown = some known ∧ ¬ SameDeclared host config known t.latest) := by
  cases hchanged : t.changed with
  | error e =>
      have hmessage : ∀ now, tickMessage host config now t.state = .error e := by
        intro now
        change t.changed.map _ = _
        rw [hchanged]
        rfl
      constructor
      · intro h
        obtain ⟨nm, hnm, -⟩ := h 0
        cases (hmessage 0).symm.trans hnm
      · rintro ⟨_, h, -⟩
        cases h
  | ok changed =>
      have hmessage : ∀ now, tickMessage host config now t.state =
          .ok (if changed then (buildNetworkMessage host config t.latest now t.state).1
            else (buildKeepAlive config now t.state).1) := by
        intro now
        change t.changed.map _ = _
        rw [hchanged]
        rfl
      constructor
      · intro h
        obtain ⟨nm, hnm, -, hiff⟩ := h 0
        obtain rfl := Except.ok.inj ((hmessage 0).symm.trans hnm)
        exact ⟨changed, rfl, isFrame_ite.symm.trans hiff⟩
      · rintro ⟨_, h, hiff⟩ now
        cases h
        exact ⟨_, hmessage now, tick_gives (hmessage now), isFrame_ite.trans hiff⟩

theorem not_printable_error {v : JsValue} {e : RuntimeError} (h : stringify v = .error e) :
    ¬ Printable v := by
  rintro ⟨text, htext⟩
  cases h.symm.trans htext

/-- After a keyframe the comparison is exact where the texts tell. -/
theorem Compared.exact_iff {t : PublisherTrace α} (h : Compared t) {known : JsValue}
    (hknown : t.keyframeKnown = some known) :
    DetectsExactly host config encode t ↔ TextsTell host config known t.latest := by
  have hdiffers : (t.keyframeKnown = none ∨ ∃ known, t.keyframeKnown = some known ∧
      ¬ SameDeclared host config known t.latest) ↔ ¬ SameDeclared host config known t.latest := by
    rw [hknown]
    simp
  rw [detectsExactly_iff_changed, hdiffers]
  obtain ⟨props, rfl, hkeys⟩ := h.known known hknown
  cases hsnapshot : t.state.publishedSnapshot with
  | none =>
      have hunprintable := h.unpublished hsnapshot _ hknown
      have hchanged : t.changed = .ok true := by
        rw [PublisherTrace.changed, hsnapshot]
        rfl
      simp [TextsTell, hchanged, hunprintable]
  | some text =>
      obtain ⟨_, hknown', hprint⟩ := h.published text hsnapshot
      cases hknown.symm.trans hknown'
      have hprintable : Printable (.object props) := ⟨text, hprint⟩
      cases hlatest : stringify t.latest with
      | error e =>
          have hchanged : t.changed = .error e := by
            rw [PublisherTrace.changed, hsnapshot, valuesChanged, hlatest]
            rfl
          simp [TextsTell, hchanged, hprintable, not_printable_error hlatest]
      | ok printed =>
          obtain ⟨text', rfl⟩ := stringify_object hlatest
          have hchanged : t.changed = .ok (decide (text' ≠ text)) := by
            rw [PublisherTrace.changed, hsnapshot, valuesChanged, hlatest,
              stringify_stringify hprint]
            change Except.ok (decide (some text' ≠ some text)) = _
            simp only [ne_eq, Option.some.injEq]
          have heq : text = text' ↔ ∀ key, textAt (.object props) key = textAt t.latest key :=
            stringify_eq_iff h.nodup hkeys (List.Sublist.refl _) hprint hlatest
          have hprintable' : Printable t.latest := ⟨text', hlatest⟩
          have htexts : TextsTell host config (.object props) t.latest ↔
              (SameDeclared host config (.object props) t.latest ↔
                ∀ key, textAt (.object props) key = textAt t.latest key) := by
            simp only [TextsTell, hprintable, hprintable', forall_const, true_and]
          rw [htexts]
          constructor
          · rintro ⟨changed, hsome, hiff⟩
            cases hchanged.symm.trans hsome
            rw [decide_eq_true_iff, ne_comm, ne_eq, not_iff_not, heq] at hiff
            exact hiff.symm
          · intro hiff
            refine ⟨_, hchanged, ?_⟩
            rw [decide_eq_true_iff, ne_comm, ne_eq, not_iff_not, heq]
            exact hiff.symm

/-- An interval of any run detects a change exactly where the texts of the values
of the last keyframe and of those known now tell it. -/
theorem detectsExactly_iff {host : Host} {config : PublisherConfig} {α ε : Type}
    {encode : NetworkMessage → Except ε α} {events : List PublisherEvent} {t : PublisherTrace α}
    (hrun : CyclicRun host config encode events t) :
    DetectsExactly host config encode t ↔
      ∀ known, t.keyframeKnown = some known → TextsTell host config known t.latest := by
  have h : Compared t := (compared_step hrun.cyclic).run compared_init
    (along_of_forall (fun _ _ => trivial) _ _) hrun.reached
  cases hknown : t.keyframeKnown with
  | none =>
      have hsnapshot : t.state.publishedSnapshot = none := by
        refine Option.eq_none_iff_forall_ne_some.mpr fun text htext => ?_
        obtain ⟨known, hsome, -⟩ := h.published text htext
        cases hknown.symm.trans hsome
      have hchanged : t.changed = .ok true := by
        rw [PublisherTrace.changed, hsnapshot]
        rfl
      rw [detectsExactly_iff_changed]
      simp [hchanged, hknown]
  | some known =>
      rw [h.exact_iff hknown]
      simp

/-- The declared value changes after the first keyframe, and its text with it. -/
theorem counter_detected : ∃ t : PublisherTrace Uadp.Encoded,
    run (traceStep Host.inert counterPublisher (uadpEncoder Host.inert counterPublisher)) {}
      [.input (.object [(js "t", JsValue.nat 1)]) 0 true, .tick 0 true,
        .input (.object [(js "t", JsValue.nat 2)]) 500 true] = some t ∧
    DetectsExactly Host.inert counterPublisher (uadpEncoder Host.inert counterPublisher) t := by
  have hvalues : (run (traceStep Host.inert counterPublisher
      (uadpEncoder Host.inert counterPublisher)) {}
      [.input (.object [(js "t", JsValue.nat 1)]) 0 true, .tick 0 true,
        .input (.object [(js "t", JsValue.nat 2)]) 500 true]).map (fun t =>
          (t.keyframeKnown, t.latest)) =
      some (some (.object [(js "t", JsValue.nat 1)]), .object [(js "t", JsValue.nat 2)]) := by
    decide +kernel
  obtain ⟨t, hrun, hfacts⟩ := Option.map_eq_some_iff.mp hvalues
  obtain ⟨hknown, hlatest⟩ := Prod.mk.inj hfacts
  refine ⟨t, hrun, (detectsExactly_iff ⟨rfl, by decide, hrun⟩).mpr fun known hsome => ?_⟩
  cases hknown.symm.trans hsome
  rw [hlatest]
  refine ⟨fun _ => ⟨_, rfl⟩, fun hsame => ?_, fun ⟨_, htexts⟩ => ?_⟩
  · have hdiffers : ¬ SameDeclared Host.inert counterPublisher
        (.object [(js "t", JsValue.nat 1)]) (.object [(js "t", JsValue.nat 2)]) := by
      decide +kernel
    exact absurd hsame hdiffers
  · have hdiffers : textAt (.object [(js "t", JsValue.nat 1)]) (js "t") ≠
        textAt (.object [(js "t", JsValue.nat 2)]) (js "t") := by
      decide +kernel
    exact absurd (htexts (js "t")) hdiffers

/-- A key that no writer declares arrives after the first keyframe, and the next
interval builds a keyframe again. -/
theorem undeclared_forces_keyframe :
    ¬ ∀ (host : Host) (config : PublisherConfig) (events : List PublisherEvent)
      (t : PublisherTrace Uadp.Encoded), config.publishMode = .cyclic →
      run (traceStep host config (uadpEncoder host config)) {} events = some t →
        DetectsExactly host config (uadpEncoder host config) t := by
  intro h
  have hrun : (run (traceStep Host.inert counterPublisher
      (uadpEncoder Host.inert counterPublisher)) {}
      [.input (.object [(js "t", JsValue.nat 1)]) 0 true, .tick 0 true,
        .input (.object [(js "u", JsValue.nat 1)]) 500 true]).map (fun t =>
          (decide (t.changed = .ok true), t.keyframeKnown.map fun known =>
            decide (SameDeclared Host.inert counterPublisher known t.latest))) =
      some (true, some true) := by
    decide +kernel
  obtain ⟨t, hrun, hfacts⟩ := Option.map_eq_some_iff.mp hrun
  obtain ⟨hchanged, hknown⟩ := Prod.mk.inj hfacts
  obtain ⟨known, hknown, hsame⟩ := Option.map_eq_some_iff.mp hknown
  obtain ⟨changed, hchanged', hiff⟩ := detectsExactly_iff_changed.mp (h _ _ _ t rfl hrun)
  cases (of_decide_eq_true hchanged).symm.trans hchanged'
  rcases hiff.mp rfl with hnone | ⟨known', hknown', hdiffers⟩
  · cases hnone.symm.trans hknown
  · cases hknown.symm.trans hknown'
    exact hdiffers (of_decide_eq_true hsame)

end OpcUaSuite.Nodes
