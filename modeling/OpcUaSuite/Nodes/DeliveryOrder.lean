import OpcUaSuite.Nodes.ChangeDetection

/-!
# The order in which a publisher hands messages over

The record of a run keeps for every event the state it met, the message it
built and the message it handed over. A message is handed over when it is built,
or waits in the one slot for the next connection. What the transport calls back
while it sends finds every change of the state made, and is an event of its own.
-/

namespace OpcUaSuite.Nodes

open Js PubSub Transition Json

variable (host : Host) (config : PublisherConfig)

/-- The message an event builds. -/
def builtBy (st : PublisherState) : PublisherEvent → Option NetworkMessage
  | .input payload now _ =>
      match config.publishMode with
      | .cyclic => none
      | .acyclic => some (buildNetworkMessage host config (sourceValuesOf payload) now st).1
  | .tick now _ => (tickMessage host config now st).toOption
  | .status _ _ => none

def PublisherEvent.connects : PublisherEvent → Bool
  | .status .connected _ => true
  | _ => false

/-- One event of a run, with the state before it. -/
structure PublisherStep (α : Type) where
  before : PublisherState
  event : PublisherEvent
  built : Option NetworkMessage
  handed : Option (Handed α)

/-- A publisher with all its steps. -/
structure PublisherRecord (α : Type) where
  state : PublisherState := {}
  steps : List (PublisherStep α) := []

variable {α ε : Type} (encode : NetworkMessage → Except ε α)

/-- `publisherStep` with its record. -/
def recordStep (r : PublisherRecord α) (e : PublisherEvent) : Option (PublisherRecord α) :=
  (publisherStep host config encode r.state e).map fun (st, handed) =>
    ⟨st, r.steps ++ [⟨r.state, e, builtBy host config r.state e, handed⟩]⟩

def builtMessages (steps : List (PublisherStep α)) : List NetworkMessage :=
  steps.filterMap PublisherStep.built

def handedMessages (steps : List (PublisherStep α)) : List NetworkMessage :=
  steps.filterMap fun s => s.handed.map Handed.message

/-! ## Delivery in order -/

/-- No other writer of the group has the id of the writer. -/
def DistinctId (writer : DataSetWriter) : Prop :=
  (config.writers.map DataSetWriter.dataSetWriterId).count writer.dataSetWriterId = 1

/-- The WriterGroup and every writer with an id of its own count the message as
the `n`-th. -/
def Numbered (n : Nat) (nm : NetworkMessage) : Prop :=
  nm.groupHeader.map GroupHeader.sequenceNumber = some (JsValue.nat (n % 65536)) ∧
    ∀ (i : Nat) (writer : DataSetWriter), config.writers[i]? = some writer →
      DistinctId config writer →
        nm.payload[i]?.map DataSetMessage.sequenceNumber = some (JsValue.nat (n % 65536))

/-- The message was built without a connection; since then nothing was built and
no connection was reported. -/
def Waited (steps : List (PublisherStep α)) (nm : NetworkMessage) : Prop :=
  ∃ before s after, steps = before ++ s :: after ∧ s.built = some nm ∧
    s.before.connected = false ∧ ∀ s' ∈ after, s'.built = none ∧ s'.event.connects = false

/-- A message is handed over where it is built, with a connection, or as the
latest one built without, when the next connection is reported. -/
def HandedInTime (before : List (PublisherStep α)) (s : PublisherStep α) : Prop :=
  ∀ h, s.handed = some h →
    (s.before.connected = true ∧ s.built = some h.message) ∨
      (s.event.connects = true ∧ Waited before h.message)

/-- With a connection a message that encodes is handed over where it is built. -/
def Immediate (s : PublisherStep α) : Prop :=
  s.before.connected = true → ∀ nm, s.built = some nm → ∀ encoded, encode nm = .ok encoded →
    ∃ accepted, s.handed = some ⟨nm, encoded, accepted⟩

structure DeliversInOrder (steps : List (PublisherStep α)) : Prop where
  order : (handedMessages steps).Sublist (builtMessages steps)
  inTime : ∀ before s after, steps = before ++ s :: after → HandedInTime before s
  immediate : ∀ s ∈ steps, Immediate encode s
  numbered : ∀ (k : Nat) (nm : NetworkMessage), (builtMessages steps)[k]? = some nm →
    Numbered config (k + 1) nm

/-- With a connection, an interval whose values JSON cannot print builds no first
keyframe that the encoder accepts. -/
def Emits (s : PublisherStep α) : Prop :=
  s.before.connected = true → s.before.publishedSnapshot = none →
    ¬ Printable (.object s.before.latestValues) → ∀ now accepts, s.event = .tick now accepts →
      (encode (buildNetworkMessage host config (.object s.before.latestValues) now s.before).1).isOk
        = false

/-! ## The sequence numbers -/

variable {host config} {encode}

theorem buildPayload_get?_of_not_mem {message : DataSetWriter → Nat → DataSetMessage} {id : Nat}
    {writers : List DataSetWriter} (h : id ∉ writers.map DataSetWriter.dataSetWriterId)
    (seqs : InsertionMap Nat Nat) :
    InsertionMap.get? id (buildPayload message writers seqs).2 = InsertionMap.get? id seqs := by
  induction writers generalizing seqs with
  | nil => rfl
  | cons writer writers ih =>
      rw [List.map_cons, List.mem_cons, not_or] at h
      exact (ih h.2 _).trans (InsertionMap.get?_set_of_ne h.1 _ seqs)

/-- A writer with an id of its own takes the next number, and keeps it. -/
theorem buildPayload_seq {message : DataSetWriter → Nat → DataSetMessage} {i : Nat}
    {writer : DataSetWriter} {writers : List DataSetWriter} (hi : writers[i]? = some writer)
    (hcount : (writers.map DataSetWriter.dataSetWriterId).count writer.dataSetWriterId = 1)
    (seqs : InsertionMap Nat Nat) :
    (buildPayload message writers seqs).1[i]? = some (message writer
        (nextSeq ((InsertionMap.get? writer.dataSetWriterId seqs).getD 0))) ∧
      InsertionMap.get? writer.dataSetWriterId (buildPayload message writers seqs).2 =
        some (nextSeq ((InsertionMap.get? writer.dataSetWriterId seqs).getD 0)) := by
  induction writers generalizing i seqs with
  | nil => cases hi
  | cons first writers ih =>
      rw [List.map_cons, List.count_cons] at hcount
      cases i with
      | zero =>
          obtain rfl := Option.some.inj hi
          rw [beq_self_eq_true, if_pos rfl] at hcount
          have hnot := List.count_eq_zero.mp (Nat.succ.inj hcount)
          refine ⟨rfl, (buildPayload_get?_of_not_mem hnot _).trans ?_⟩
          exact InsertionMap.get?_set_self _ _ seqs
      | succ i =>
          have hmem : writer.dataSetWriterId ∈ writers.map DataSetWriter.dataSetWriterId :=
            List.mem_map_of_mem (List.mem_of_getElem? hi)
          have hpos := List.count_pos_iff.mpr hmem
          have hne : writer.dataSetWriterId ≠ first.dataSetWriterId := by
            intro heq
            rw [heq, beq_self_eq_true, if_pos rfl] at hcount
            rw [heq] at hpos
            omega
          rw [if_neg (by simpa using hne.symm), Nat.add_zero] at hcount
          obtain ⟨hmessage, hkept⟩ := ih hi hcount
            (InsertionMap.set first.dataSetWriterId
              (nextSeq ((InsertionMap.get? first.dataSetWriterId seqs).getD 0)) seqs)
          rw [InsertionMap.get?_set_of_ne hne] at hmessage hkept
          exact ⟨hmessage, hkept⟩

/-- The counters after `n` messages. -/
structure Counted (config : PublisherConfig) (n : Nat) (st : PublisherState) : Prop where
  group : st.nmSeq = n % 65536
  writers : ∀ writer ∈ config.writers, DistinctId config writer →
    (InsertionMap.get? writer.dataSetWriterId st.dsmSeq).getD 0 = n % 65536

theorem nextSeq_mod (n : Nat) : nextSeq (n % 65536) = (n + 1) % 65536 := by
  unfold nextSeq
  omega

theorem Counted.build {n : Nat} {st : PublisherState} (h : Counted config n st)
    {message : DataSetWriter → Nat → DataSetMessage}
    (hmessage : ∀ writer seq, (message writer seq).sequenceNumber = JsValue.nat seq) (now : Int) :
    Numbered config (n + 1) (buildMessage config message now st).1 ∧
      Counted config (n + 1) (buildMessage config message now st).2 := by
  have hgroup : nextSeq st.nmSeq = (n + 1) % 65536 := by rw [h.group, nextSeq_mod]
  refine ⟨⟨?_, fun i writer hi hid => ?_⟩, hgroup, fun writer hwriter hid => ?_⟩
  · exact congrArg (fun seq => some (JsValue.nat seq)) hgroup
  · obtain ⟨hsome, -⟩ := @buildPayload_seq message i writer config.writers hi hid st.dsmSeq
    rw [h.writers writer (List.mem_of_getElem? hi) hid, nextSeq_mod] at hsome
    exact (congrArg (Option.map DataSetMessage.sequenceNumber) hsome).trans
      (congrArg some (hmessage writer _))
  · obtain ⟨i, hi⟩ := List.mem_iff_getElem?.mp hwriter
    obtain ⟨-, hkept⟩ := @buildPayload_seq message i writer config.writers hi hid st.dsmSeq
    rw [h.writers writer hwriter hid, nextSeq_mod] at hkept
    exact congrArg (Option.getD · 0) hkept

theorem Counted.congr {n : Nat} {st st' : PublisherState} (h : Counted config n st)
    (hgroup : st'.nmSeq = st.nmSeq) (hwriters : st'.dsmSeq = st.dsmSeq) :
    Counted config n st' where
  group := hgroup.trans h.group
  writers := hwriters ▸ h.writers

/-! ## What an event does -/

/-- How an event ends: nothing is built, a connection is reported, a message is
built and given to `_emit`, or it is built from values that have no text. -/
inductive Outcome (host : Host) (config : PublisherConfig) (encode : NetworkMessage → Except ε α)
    (st : PublisherState) (e : PublisherEvent) (st' : PublisherState) : Option (Handed α) → Prop
  | quiet (built : builtBy host config st e = none) (connects : e.connects = false)
      (group : st'.nmSeq = st.nmSeq) (writers : st'.dsmSeq = st.dsmSeq)
      (pending : st'.pendingSend = st.pendingSend)
      (snapshot : st'.publishedSnapshot = st.publishedSnapshot)
      (connected : st'.connected = true → st.connected = true) :
      Outcome host config encode st e st' none
  | connected (built : builtBy host config st e = none) (connects : e.connects = true)
      (pending : st.pendingSend = none) (state : st' = { st with connected := true }) :
      Outcome host config encode st e st' none
  | flushed {handed : Option (Handed α)} (queued : NetworkMessage) (accepts : Bool)
      (built : builtBy host config st e = none) (connects : e.connects = true)
      (pending : st.pendingSend = some queued)
      (emitted : emit encode accepts queued { st with connected := true, pendingSend := none } =
        (st', handed)) :
      Outcome host config encode st e st' handed
  | emitted {handed : Option (Handed α)} (message : DataSetWriter → Nat → DataSetMessage)
      (now : Int) (accepts : Bool) (snapshot : Option JsValue)
      (numbers : ∀ writer seq, (message writer seq).sequenceNumber = JsValue.nat seq)
      (built : builtBy host config st e = some (buildMessage config message now st).1)
      (connects : e.connects = false)
      (published : config.publishMode = .cyclic → snapshot ≠ none)
      (printable : st.publishedSnapshot = none → ∀ now accepts, e = .tick now accepts →
        Printable (.object st.latestValues))
      (emitted : emit encode accepts (buildMessage config message now st).1
        { (buildMessage config message now st).2 with publishedSnapshot := snapshot } =
          (st', handed)) :
      Outcome host config encode st e st' handed
  | forgotten (now : Int) (accepts : Bool) (event : e = .tick now accepts)
      (cyclic : config.publishMode = .cyclic) (snapshot : st.publishedSnapshot = none)
      (unprintable : ¬ Printable (.object st.latestValues))
      (state : st' = (buildNetworkMessage host config (.object st.latestValues) now st).2) :
      Outcome host config encode st e st' none

theorem builtBy_first {st : PublisherState} (h : st.publishedSnapshot = none) (now : Int)
    (accepts : Bool) : builtBy host config st (.tick now accepts) =
      some (buildNetworkMessage host config (.object st.latestValues) now st).1 := by
  rw [builtBy, tickMessage, h]
  rfl

theorem outcome_tick (hcyclic : config.publishMode = .cyclic) {now : Int} {accepts : Bool}
    {st st' : PublisherState} {handed : Option (Handed α)}
    (h : tick host config encode now accepts st = (st', handed)) :
    Outcome host config encode st (.tick now accepts) st' handed := by
  rcases tick_cases h with ⟨e, hchanged, rfl, rfl⟩ | ⟨e, hchanged, hprint, rfl, rfl⟩ |
    ⟨text, hchanged, hprint, hemit⟩ | ⟨hchanged, hemit⟩
  · refine Outcome.quiet ?_ rfl rfl rfl rfl rfl id
    rw [builtBy, tickMessage, hchanged]
    rfl
  · exact Outcome.forgotten now accepts rfl hcyclic (valuesChanged_error hchanged hprint)
      (not_printable_error hprint) rfl
  · refine Outcome.emitted (keyframeMessage host (.object st.latestValues)) now accepts (some text)
      (fun _ _ => rfl) ?_ rfl (fun _ => Option.some_ne_none text) (fun _ _ _ _ => ⟨text, hprint⟩)
      hemit
    rw [builtBy, tickMessage, hchanged]
    rfl
  · obtain ⟨text, htext, -⟩ := valuesChanged_false hchanged
    refine Outcome.emitted keepAliveMessage now accepts st.publishedSnapshot (fun _ _ => rfl) ?_ rfl
      ?_ ?_ hemit
    · rw [builtBy, tickMessage, hchanged]
      rfl
    · intro _ hnone
      cases htext.symm.trans hnone
    · intro hnone
      cases htext.symm.trans hnone

theorem outcome_status {status : Status} {accepts : Bool} {st st' : PublisherState}
    {handed : Option (Handed α)} (h : statusCb encode accepts status st = (st', handed)) :
    Outcome host config encode st (.status status accepts) st' handed := by
  cases status with
  | connected =>
      cases hqueued : st.pendingSend with
      | none =>
          rw [statusCb, hqueued] at h
          cases h
          exact Outcome.connected rfl rfl hqueued (by rw [← hqueued])
      | some queued =>
          rw [statusCb, hqueued] at h
          exact Outcome.flushed queued accepts rfl rfl hqueued h
  | disconnected | reconnecting =>
      cases h
      exact Outcome.quiet rfl rfl rfl rfl rfl rfl fun h => by cases h
  | error =>
      cases h
      exact Outcome.quiet rfl rfl rfl rfl rfl rfl id

theorem outcome_step {st st' : PublisherState} {e : PublisherEvent} {handed : Option (Handed α)}
    (h : publisherStep host config encode st e = some (st', handed)) :
    Outcome host config encode st e st' handed := by
  cases e with
  | input payload now accepts =>
      rw [publisherStep, input] at h
      cases hmode : config.publishMode with
      | cyclic =>
          rw [hmode] at h
          cases h
          refine Outcome.quiet ?_ rfl rfl rfl rfl rfl id
          rw [builtBy, hmode]
      | acyclic =>
          rw [hmode] at h
          refine Outcome.emitted (keyframeMessage host (sourceValuesOf payload)) now accepts
            st.publishedSnapshot (fun _ _ => rfl) ?_ rfl ?_ ?_ (Option.some.inj h)
          · rw [builtBy, hmode]
            rfl
          · intro hcyclic
            cases hmode.symm.trans hcyclic
          · intro _ _ _ hevent
            cases hevent
  | tick now accepts =>
      rw [publisherStep] at h
      cases hmode : config.publishMode with
      | cyclic =>
          rw [hmode] at h
          exact outcome_tick hmode (Option.some.inj h)
      | acyclic =>
          rw [hmode] at h
          cases h
  | status status accepts => exact outcome_status (Option.some.inj h)

/-- Only a keyframe that is built and forgotten is not handed over where it is built. -/
theorem Outcome.immediate_iff {st st' : PublisherState} {e : PublisherEvent}
    {handed : Option (Handed α)} (h : Outcome host config encode st e st' handed) :
    Immediate encode ⟨st, e, builtBy host config st e, handed⟩ ↔
      Emits host config encode (⟨st, e, builtBy host config st e, handed⟩ : PublisherStep α) := by
  have hbuildsNothing : builtBy host config st e = none →
      (Immediate encode ⟨st, e, builtBy host config st e, handed⟩ ↔
        Emits host config encode
          (⟨st, e, builtBy host config st e, handed⟩ : PublisherStep α)) := by
    intro hbuilt
    constructor
    · intro _ _ hsnapshot _ now accepts hevent
      obtain rfl : e = .tick now accepts := hevent
      rw [builtBy_first hsnapshot] at hbuilt
      cases hbuilt
    · intro _ _ nm hnm
      cases hbuilt.symm.trans hnm
  cases h with
  | quiet hbuilt | connected hbuilt | flushed _ _ hbuilt => exact hbuildsNothing hbuilt
  | emitted message now accepts snapshot hnumbers hbuilt hconnects hpublished hprintable hemit =>
      constructor
      · intro _ _ hsnapshot hunprintable now accepts hevent
        exact absurd (hprintable hsnapshot now accepts hevent) hunprintable
      · intro _ hconn nm hnm encoded hencoded
        cases hbuilt.symm.trans hnm
        rcases emit_cases hemit with ⟨hconn', -, -⟩ | ⟨-, -, henc, -⟩ | ⟨-, -, encoded', henc, rfl⟩
        · cases hconn.symm.trans hconn'
        · rw [hencoded] at henc
          cases henc
        · cases hencoded.symm.trans henc
          exact ⟨accepts, rfl⟩
  | forgotten now accepts hevent hcyclic hsnapshot hunprintable hstate =>
      subst hevent
      constructor
      · intro h hconn _ _ now' accepts' hevent
        cases hevent
        cases hencoded : encode (buildNetworkMessage host config (.object st.latestValues) now st).1
          with
        | error e => rfl
        | ok encoded =>
            obtain ⟨accepted, hhanded⟩ := h hconn _ (builtBy_first hsnapshot now accepts) encoded
              hencoded
            cases hhanded
      · intro h hconn nm hnm encoded hencoded
        cases (builtBy_first hsnapshot now accepts).symm.trans hnm
        have hfails := h hconn hsnapshot hunprintable now accepts rfl
        rw [hencoded] at hfails
        cases hfails

/-! ## The slot -/

theorem builtMessages_concat (steps : List (PublisherStep α)) (s : PublisherStep α) :
    builtMessages (steps ++ [s]) = builtMessages steps ++ s.built.toList := by
  rw [builtMessages, List.filterMap_append]
  cases hbuilt : s.built <;> simp [builtMessages, hbuilt]

theorem handedMessages_concat (steps : List (PublisherStep α)) (s : PublisherStep α) :
    handedMessages (steps ++ [s]) = handedMessages steps ++ (s.handed.map Handed.message).toList := by
  rw [handedMessages, List.filterMap_append]
  cases hhanded : s.handed <;> simp [handedMessages, hhanded]

theorem Waited.append {steps : List (PublisherStep α)} {nm : NetworkMessage}
    (h : Waited steps nm) {s : PublisherStep α} (hbuilt : s.built = none)
    (hconnects : s.event.connects = false) : Waited (steps ++ [s]) nm := by
  obtain ⟨before, s', after, rfl, hnm, hconn, hafter⟩ := h
  refine ⟨before, s', after ++ [s], by simp, hnm, hconn, ?_⟩
  intro s'' hs''
  rcases List.mem_append.mp hs'' with hs'' | hs''
  · exact hafter s'' hs''
  · obtain rfl := List.mem_singleton.mp hs''
    exact ⟨hbuilt, hconnects⟩

theorem waited_concat (steps : List (PublisherStep α)) {s : PublisherStep α} {nm : NetworkMessage}
    (hbuilt : s.built = some nm) (hconn : s.before.connected = false) :
    Waited (steps ++ [s]) nm :=
  ⟨steps, s, [], rfl, hbuilt, hconn, fun _ h => (nomatch h)⟩

/-- The slot is empty while there is a connection and before anything was
published; what it holds was built last. -/
structure SlotKept (config : PublisherConfig) (r : PublisherRecord α) : Prop where
  connected : r.state.connected = true → r.state.pendingSend = none
  silent : config.publishMode = .cyclic → r.state.publishedSnapshot = none →
    r.state.pendingSend = none
  order : (handedMessages r.steps ++ r.state.pendingSend.toList).Sublist (builtMessages r.steps)
  waited : ∀ nm, r.state.pendingSend = some nm → Waited r.steps nm
  inTime : ∀ before s after, r.steps = before ++ s :: after → HandedInTime before s

/-- A step that leaves the slot empty and hands nothing over. -/
theorem SlotKept.empty {r : PublisherRecord α} (h : SlotKept config r) {s : PublisherStep α}
    (hhanded : s.handed = none) {st : PublisherState} (hpending : st.pendingSend = none) :
    SlotKept config ⟨st, r.steps ++ [s]⟩ where
  connected _ := hpending
  silent _ _ := hpending
  order := by
    rw [hpending, handedMessages_concat, builtMessages_concat, hhanded]
    have hhandedOrder := (List.sublist_append_left _ _).trans h.order
    simpa using hhandedOrder.trans (List.sublist_append_left _ s.built.toList)
  waited nm hnm := by cases hpending.symm.trans hnm
  inTime := forall_split_concat h.inTime fun h' hh' => by cases hhanded.symm.trans hh'

/-- A step that hands a message over in time and leaves the slot empty. -/
theorem SlotKept.handOver {r : PublisherRecord α} (h : SlotKept config r) {s : PublisherStep α}
    {h' : Handed α} (hhanded : s.handed = some h') (htime : HandedInTime r.steps s)
    (hlast : (r.state.connected = true ∧ s.built = some h'.message) ∨
      r.state.pendingSend = some h'.message)
    {st : PublisherState} (hpending : st.pendingSend = none) :
    SlotKept config ⟨st, r.steps ++ [s]⟩ where
  connected _ := hpending
  silent _ _ := hpending
  order := by
    rw [hpending, handedMessages_concat, builtMessages_concat, hhanded]
    have horder := h.order
    rcases hlast with ⟨hconn, hbuilt⟩ | hqueued
    · rw [h.connected hconn] at horder
      rw [hbuilt]
      simpa using horder
    · rw [hqueued] at horder
      simpa using horder.trans (List.sublist_append_left _ s.built.toList)
  waited nm hnm := by cases hpending.symm.trans hnm
  inTime := forall_split_concat h.inTime htime

/-- A step that builds a message and leaves it in the slot. -/
theorem SlotKept.queue {r : PublisherRecord α} (h : SlotKept config r) {s : PublisherStep α}
    (hhanded : s.handed = none) {nm : NetworkMessage} (hbuilt : s.built = some nm)
    (hbefore : s.before.connected = false) {st : PublisherState} (hconn : st.connected = false)
    (hpending : st.pendingSend = some nm)
    (hpublished : config.publishMode = .cyclic → st.publishedSnapshot ≠ none) :
    SlotKept config ⟨st, r.steps ++ [s]⟩ where
  connected hconn' := by cases hconn.symm.trans hconn'
  silent hcyclic hnone := absurd hnone (hpublished hcyclic)
  order := by
    rw [hpending, handedMessages_concat, builtMessages_concat, hhanded, hbuilt]
    have hhandedOrder := (List.sublist_append_left _ _).trans h.order
    simpa using hhandedOrder
  waited nm' hnm' := by
    cases hpending.symm.trans hnm'
    exact waited_concat r.steps hbuilt hbefore
  inTime := forall_split_concat h.inTime fun h' hh' => by cases hhanded.symm.trans hh'

theorem SlotKept.quiet {r : PublisherRecord α} (h : SlotKept config r) {s : PublisherStep α}
    (hhanded : s.handed = none) (hbuilt : s.built = none) (hconnects : s.event.connects = false)
    {st : PublisherState} (hpending : st.pendingSend = r.state.pendingSend)
    (hsnapshot : st.publishedSnapshot = r.state.publishedSnapshot)
    (hconn : st.connected = true → r.state.connected = true) :
    SlotKept config ⟨st, r.steps ++ [s]⟩ where
  connected hconn' := hpending.trans (h.connected (hconn hconn'))
  silent hcyclic hnone := hpending.trans (h.silent hcyclic (hsnapshot.symm.trans hnone))
  order := by
    rw [hpending, handedMessages_concat, builtMessages_concat, hhanded, hbuilt]
    simpa using h.order
  waited nm hnm := (h.waited nm (hpending.symm.trans hnm)).append hbuilt hconnects
  inTime := forall_split_concat h.inTime fun h' hh' => by cases hhanded.symm.trans hh'

/-- What every event keeps of the slot. -/
theorem SlotKept.step {r : PublisherRecord α} (h : SlotKept config r) {e : PublisherEvent}
    {st' : PublisherState} {handed : Option (Handed α)}
    (houtcome : Outcome host config encode r.state e st' handed) :
    SlotKept config ⟨st', r.steps ++ [⟨r.state, e, builtBy host config r.state e, handed⟩]⟩ := by
  cases houtcome with
  | quiet hbuilt hconnects hgroup hwriters hpending hsnapshot hconn =>
      exact h.quiet rfl hbuilt hconnects hpending hsnapshot hconn
  | connected hbuilt hconnects hpending hstate => exact h.empty rfl (hstate ▸ hpending)
  | flushed queued accepts hbuilt hconnects hpending hemit =>
      rcases emit_cases hemit with ⟨hconn, -, -⟩ | ⟨-, rfl, -, rfl⟩ | ⟨-, rfl, encoded, -, rfl⟩
      · cases hconn
      · exact h.empty rfl rfl
      · refine h.handOver rfl (fun h' hh' => ?_) (Or.inr hpending) rfl
        cases hh'
        exact Or.inr ⟨hconnects, h.waited queued hpending⟩
  | emitted message now accepts snapshot hnumbers hbuilt hconnects hpublished hprintable hemit =>
      rcases emit_cases hemit with ⟨hconn, rfl, rfl⟩ | ⟨hconn, rfl, -, rfl⟩ |
        ⟨hconn, rfl, encoded, -, rfl⟩
      · exact h.queue rfl hbuilt hconn hconn rfl hpublished
      · exact h.empty rfl (h.connected hconn)
      · refine h.handOver rfl (fun h' hh' => ?_) (Or.inl ⟨hconn, hbuilt⟩) (h.connected hconn)
        cases hh'
        exact Or.inl ⟨hconn, hbuilt⟩
  | forgotten now accepts hevent hcyclic hsnapshot hunprintable hstate =>
      exact h.empty rfl (hstate ▸ h.silent hcyclic hsnapshot)

/-! ## The numbers -/

/-- The counters stand at the number of messages built, and each carries its own. -/
structure NumbersKept (config : PublisherConfig) (r : PublisherRecord α) : Prop where
  counted : Counted config (builtMessages r.steps).length r.state
  numbered : ∀ (k : Nat) (nm : NetworkMessage), (builtMessages r.steps)[k]? = some nm →
    Numbered config (k + 1) nm

theorem NumbersKept.quiet {r : PublisherRecord α} (h : NumbersKept config r)
    {s : PublisherStep α} (hbuilt : s.built = none) {st : PublisherState}
    (hgroup : st.nmSeq = r.state.nmSeq) (hwriters : st.dsmSeq = r.state.dsmSeq) :
    NumbersKept config ⟨st, r.steps ++ [s]⟩ := by
  have hmessages : builtMessages (r.steps ++ [s]) = builtMessages r.steps := by
    rw [builtMessages_concat, hbuilt, Option.toList_none, List.append_nil]
  refine ⟨?_, fun k nm hk => h.numbered k nm (hmessages ▸ hk)⟩
  rw [hmessages]
  exact h.counted.congr hgroup hwriters

theorem NumbersKept.build {r : PublisherRecord α} (h : NumbersKept config r)
    {message : DataSetWriter → Nat → DataSetMessage}
    (hmessage : ∀ writer seq, (message writer seq).sequenceNumber = JsValue.nat seq) {now : Int}
    {s : PublisherStep α} (hbuilt : s.built = some (buildMessage config message now r.state).1)
    {st : PublisherState} (hgroup : st.nmSeq = (buildMessage config message now r.state).2.nmSeq)
    (hwriters : st.dsmSeq = (buildMessage config message now r.state).2.dsmSeq) :
    NumbersKept config ⟨st, r.steps ++ [s]⟩ := by
  have hmessages : builtMessages (r.steps ++ [s]) =
      builtMessages r.steps ++ [(buildMessage config message now r.state).1] := by
    rw [builtMessages_concat, hbuilt, Option.toList_some]
  obtain ⟨hnumbered, hcounted⟩ := h.counted.build hmessage now
  constructor
  · rw [hmessages, List.length_append, List.length_singleton]
    exact hcounted.congr hgroup hwriters
  · intro k nm hk
    rw [hmessages] at hk
    rcases Nat.lt_trichotomy k (builtMessages r.steps).length with hlt | heq | hgt
    · exact h.numbered k nm ((List.getElem?_append_left hlt).symm.trans hk)
    · subst heq
      rw [List.getElem?_concat_length] at hk
      exact Option.some.inj hk ▸ hnumbered
    · rw [List.getElem?_eq_none (by rw [List.length_append]; exact hgt)] at hk
      cases hk

/-- What every event keeps of the sequence numbers. -/
theorem NumbersKept.step {r : PublisherRecord α} (h : NumbersKept config r) {e : PublisherEvent}
    {st' : PublisherState} {handed : Option (Handed α)}
    (houtcome : Outcome host config encode r.state e st' handed) :
    NumbersKept config ⟨st', r.steps ++ [⟨r.state, e, builtBy host config r.state e, handed⟩]⟩ := by
  cases houtcome with
  | quiet hbuilt hconnects hgroup hwriters => exact h.quiet hbuilt hgroup hwriters
  | connected hbuilt hconnects hpending hstate =>
      subst hstate
      exact h.quiet hbuilt rfl rfl
  | flushed queued accepts hbuilt hconnects hpending hemit =>
      rcases emit_cases hemit with ⟨-, rfl, -⟩ | ⟨-, rfl, -⟩ | ⟨-, rfl, -⟩ <;>
        exact h.quiet hbuilt rfl rfl
  | emitted message now accepts snapshot hnumbers hbuilt hconnects hpublished hprintable hemit =>
      rcases emit_cases hemit with ⟨-, rfl, -⟩ | ⟨-, rfl, -⟩ | ⟨-, rfl, -⟩ <;>
        exact h.build hnumbers hbuilt rfl rfl
  | forgotten now accepts hevent hcyclic hsnapshot hunprintable hstate =>
      subst hevent hstate
      exact h.build (fun _ _ => rfl) (builtBy_first hsnapshot now accepts) rfl rfl

/-! ## Every run -/

variable (host config encode) in
/-- What holds after every run: the slot, the numbers, and for each step that it
hands over what it built exactly when no first keyframe is forgotten. -/
structure RecordKept (r : PublisherRecord α) : Prop where
  slot : SlotKept config r
  numbers : NumbersKept config r
  immediate : ∀ s ∈ r.steps, Immediate encode s ↔ Emits host config encode s

theorem recordKept_init : RecordKept host config encode ({} : PublisherRecord α) where
  slot :=
    { connected := fun _ => rfl
      silent := fun _ _ => rfl
      order := List.Sublist.refl _
      waited := fun _ h => (nomatch h)
      inTime := fun before s after h => by cases (List.append_eq_nil_iff.mp h.symm).2 }
  numbers :=
    { counted := ⟨rfl, fun _ _ _ => rfl⟩
      numbered := fun _ _ h => (nomatch h) }
  immediate _ h := (nomatch h)

theorem recordKept_step :
    Preserves (recordStep host config encode) (fun _ _ => True)
      (RecordKept host config encode) := by
  intro r e r' h _ hstep
  obtain ⟨⟨st, handed⟩, hpub, rfl⟩ := Option.map_eq_some_iff.mp hstep
  have houtcome := outcome_step hpub
  refine ⟨h.slot.step houtcome, h.numbers.step houtcome, fun s hs => ?_⟩
  rcases List.mem_append.mp hs with hs | hs
  · exact h.immediate s hs
  · obtain rfl := List.mem_singleton.mp hs
    exact houtcome.immediate_iff

/-- A publisher delivers in order exactly when no interval forgets a first
keyframe that the encoder accepts. -/
theorem deliversInOrder_iff {host : Host} {config : PublisherConfig} {α ε : Type}
    {encode : NetworkMessage → Except ε α} {events : List PublisherEvent}
    {r : PublisherRecord α} (hrun : run (recordStep host config encode) {} events = some r) :
    DeliversInOrder config encode r.steps ↔ ∀ s ∈ r.steps, Emits host config encode s := by
  have h : RecordKept host config encode r :=
    recordKept_step.run recordKept_init (along_of_forall (fun _ _ => trivial) _ _) hrun
  constructor
  · intro hdelivers s hs
    exact (h.immediate s hs).mp (hdelivers.immediate s hs)
  · intro hemits
    exact {
      order := (List.sublist_append_left _ _).trans h.slot.order
      inTime := h.slot.inTime
      immediate := fun s hs => (h.immediate s hs).mpr (hemits s hs)
      numbered := h.numbers.numbered }

/-- The value arrives and is built before the connection, and handed over with it. -/
theorem counter_delivered : ∃ r : PublisherRecord Uadp.Encoded,
    run (recordStep Host.inert counterPublisher (uadpEncoder Host.inert counterPublisher)) {}
      [.input (.object [(js "t", JsValue.nat 1)]) 0 true, .tick 0 true,
        .status .connected true] = some r ∧
    (handedMessages r.steps).length = 1 ∧
    DeliversInOrder counterPublisher (uadpEncoder Host.inert counterPublisher) r.steps := by
  have hfacts : (run (recordStep Host.inert counterPublisher
      (uadpEncoder Host.inert counterPublisher)) {}
      [.input (.object [(js "t", JsValue.nat 1)]) 0 true, .tick 0 true,
        .status .connected true]).map (fun r =>
          (r.steps.all fun s => !s.before.connected, (handedMessages r.steps).length)) =
      some (true, 1) := by
    decide +kernel
  obtain ⟨r, hrun, hfacts⟩ := Option.map_eq_some_iff.mp hfacts
  obtain ⟨hconn, hlength⟩ := Prod.mk.inj hfacts
  refine ⟨r, hrun, hlength, (deliversInOrder_iff hrun).mpr fun s hs hconn' => ?_⟩
  have hnot := List.all_eq_true.mp hconn s hs
  rw [hconn'] at hnot
  cases hnot

/-- A cyclic publisher of one Int64. -/
def longPublisher : PublisherConfig where
  publisherId := JsValue.nat 5
  writerGroupId := 1
  publishMode := .cyclic
  writers := [⟨1, ⟨[⟨js "t", js "Int64"⟩], ⟨JsValue.nat 1, JsValue.nat 0⟩⟩⟩]
  writers_ne := by decide

/-- The first keyframe of an Int64 encodes, and is not handed over although there
is a connection. -/
theorem bigInt_keyframe_forgotten :
    ¬ ∀ (host : Host) (config : PublisherConfig) (events : List PublisherEvent)
      (r : PublisherRecord Uadp.Encoded),
      run (recordStep host config (uadpEncoder host config)) {} events = some r →
        DeliversInOrder config (uadpEncoder host config) r.steps := by
  intro h
  have hfacts : (run (recordStep Host.inert longPublisher
      (uadpEncoder Host.inert longPublisher)) {}
      [.status .connected true, .input (.object [(js "t", .bigint 1)]) 0 true,
        .tick 0 true]).map (fun r => r.steps.any fun s => s.before.connected && s.handed.isNone &&
          (s.built.any fun nm => (uadpEncoder Host.inert longPublisher nm).isOk)) =
      some true := by
    decide +kernel
  obtain ⟨r, hrun, hfacts⟩ := Option.map_eq_some_iff.mp hfacts
  obtain ⟨s, hs, hforgotten⟩ := List.any_eq_true.mp hfacts
  rw [Bool.and_eq_true, Bool.and_eq_true] at hforgotten
  obtain ⟨⟨hconn, hhanded⟩, hbuilt⟩ := hforgotten
  cases hnm : s.built with
  | none =>
      rw [hnm] at hbuilt
      cases hbuilt
  | some nm =>
      rw [hnm, Option.any_some] at hbuilt
      cases hencoded : uadpEncoder Host.inert longPublisher nm with
      | error e =>
          rw [hencoded] at hbuilt
          cases hbuilt
      | ok encoded =>
          obtain ⟨accepted, hsome⟩ :=
            (h _ _ _ r hrun).immediate s hs hconn nm hnm encoded hencoded
          rw [hsome] at hhanded
          cases hhanded

end OpcUaSuite.Nodes
