import OpcUaSuite.Lib.TopicFilter
import OpcUaSuite.Lib.Writer
import OpcUaSuite.Transports.Mqtt

/-!
# MQTT topics

`send` with the topic it builds, and the subscription of a transport that is connected.
The filter of a subscription takes what is published under its prefix, and a topic can
be read back. How often a broker passes a frame on is a matter of the quality of service
and is not modelled.
-/

namespace OpcUaSuite.Transports

open Js ByteCodec

/-- The separator, the wildcards and the reserved start of MQTT topics. -/
abbrev mqttTopics : TopicFilter.Alphabet UInt16 := ⟨47, 43, 35, 36, by decide⟩

/-- The part of the configuration that names topics. -/
structure TopicConfig where
  topicPrefix : JsValue
  publisherId : JsValue
  qos : JsValue

structure SendOptions where
  writerGroupId : JsValue
  dataSetWriterId : JsValue
  qos : JsValue

/-- A character that `TOPIC_FORBIDDEN` finds. -/
def topicForbidden (u : UInt16) : Bool :=
  decide (u = 47) || decide (u = 43) || decide (u = 35) || decide (u ≤ 31) || decide (u = 127)

variable (host : Host)

/-- `_validateTopicComponent` -/
def validateTopicComponent (name : JsString) (value : JsValue) : Except JsString Unit :=
  if value.isNullish || (host.toText value).isEmpty then
    .error (js "TOPIC_INVALID_CHARACTER: " ++ name ++ js " is empty or undefined")
  else if (host.toText value).any topicForbidden then
    .error (js "TOPIC_INVALID_CHARACTER: " ++ name ++
      js " contains forbidden character (one of / + # or a control char)")
  else .ok ()

/-- `topicPrefix || "ua"` -/
def TopicConfig.prefixOrDefault (cfg : TopicConfig) : JsValue :=
  if cfg.topicPrefix.truthy then cfg.topicPrefix else .str (js "ua")

def writerGroupIdOf (opts : Option SendOptions) : JsValue :=
  match opts with
  | some o => o.writerGroupId
  | none => .undefined

def dataSetWriterIdOf (opts : Option SendOptions) : JsValue :=
  match opts with
  | some o => o.dataSetWriterId
  | none => .undefined

/-- The four levels of a topic. -/
def topicLevels (cfg : TopicConfig) (opts : Option SendOptions) : List JsString :=
  [host.toText cfg.prefixOrDefault, host.toText cfg.publisherId, host.toText (writerGroupIdOf opts),
    host.toText (dataSetWriterIdOf opts)]

/-- `_buildTopic` -/
def buildTopic (cfg : TopicConfig) (opts : Option SendOptions) : Except JsString JsString := do
  validateTopicComponent host (js "topicPrefix") cfg.prefixOrDefault
  validateTopicComponent host (js "publisherId") cfg.publisherId
  validateTopicComponent host (js "writerGroupId") (writerGroupIdOf opts)
  validateTopicComponent host (js "dataSetWriterId") (dataSetWriterIdOf opts)
  return host.toText cfg.prefixOrDefault ++ [47] ++ host.toText cfg.publisherId ++ [47] ++
    host.toText (writerGroupIdOf opts) ++ [47] ++ host.toText (dataSetWriterIdOf opts)

/-- The quality of service: of the call, else of the configuration, else one. -/
def qosOf (cfg : TopicConfig) (opts : Option SendOptions) : JsValue :=
  let own := match opts with
    | some o => o.qos
    | none => .undefined
  if !own.isNullish then own else if !cfg.qos.isNullish then cfg.qos else .nat 1

/-- A buffer, or the chunks of one. -/
inductive Payload
  | one (chunk : Bytes)
  | many (chunks : List Bytes)

def Payload.toList : Payload → List Bytes
  | .one chunk => [chunk]
  | .many chunks => chunks

/-- One call of the client's `publish`. -/
structure Publication where
  topic : JsString
  payload : Bytes
  qos : JsValue
  retain : Bool

/-- What `send` comes to: an error that is emitted, one that is thrown, or what it publishes. -/
inductive Sent
  | notConnected (error : JsString)
  | thrown (error : JsString)
  | published (publications : List Publication)

def Sent.publications : Sent → List Publication
  | .published publications => publications
  | _ => []

def MqttTransport.send (t : MqttTransport) (cfg : TopicConfig) (payload : Payload)
    (opts : Option SendOptions) : Sent :=
  if t.client.isNone then .notConnected (js "MQTT_SEND_NOT_CONNECTED: client is null")
  else
    match buildTopic host cfg opts with
    | .error message => .thrown message
    | .ok topic =>
        .published (payload.toList.map fun chunk => ⟨topic, chunk, qosOf cfg opts, false⟩)

/-- The filter a transport subscribes to once it is connected. -/
def subscription (cfg : TopicConfig) : JsString := host.toText cfg.prefixOrDefault ++ js "/#"

/-! ## Topics that are accepted -/

/-- A text that is a level of a topic. -/
structure IsComponent (s : JsString) : Prop where
  ne_nil : s ≠ []
  plain : ∀ u ∈ s, topicForbidden u = false

variable {host}

theorem IsComponent.isLevel {s : JsString} (h : IsComponent s) : mqttTopics.IsLevel s :=
  ⟨fun hmem => absurd (h.plain _ hmem) (by decide), fun hmem => absurd (h.plain _ hmem) (by decide),
    fun hmem => absurd (h.plain _ hmem) (by decide)⟩

theorem isComponent_of_valid {name : JsString} {value : JsValue}
    (h : validateTopicComponent host name value = .ok ()) : IsComponent (host.toText value) := by
  unfold validateTopicComponent at h
  split at h
  next => cases h
  next hset =>
    split at h
    next => cases h
    next hplain =>
      refine ⟨fun hnil => hset ?_, fun u hu => ?_⟩
      · rw [hnil]
        exact Bool.or_true _
      · exact Bool.eq_false_iff.mpr fun hforbidden => hplain (List.any_eq_true.mpr ⟨u, hu, hforbidden⟩)

/-- A topic that is built is the text of four levels. -/
theorem buildTopic_ok {cfg : TopicConfig} {opts : Option SendOptions} {topic : JsString}
    (h : buildTopic host cfg opts = .ok topic) :
    (∀ level ∈ topicLevels host cfg opts, IsComponent level) ∧
      TopicFilter.levels mqttTopics topic = topicLevels host cfg opts := by
  unfold buildTopic at h
  obtain ⟨_, hprefix, h⟩ := bind_eq_ok.mp h
  obtain ⟨_, hpublisher, h⟩ := bind_eq_ok.mp h
  obtain ⟨_, hgroup, h⟩ := bind_eq_ok.mp h
  obtain ⟨_, hwriter, h⟩ := bind_eq_ok.mp h
  have hlevels : ∀ level ∈ topicLevels host cfg opts, IsComponent level := by
    intro level hlevel
    simp only [topicLevels, List.mem_cons, List.not_mem_nil, or_false] at hlevel
    rcases hlevel with rfl | rfl | rfl | rfl
    · exact isComponent_of_valid hprefix
    · exact isComponent_of_valid hpublisher
    · exact isComponent_of_valid hgroup
    · exact isComponent_of_valid hwriter
  refine ⟨hlevels, ?_⟩
  have htopic : topic = [(47 : UInt16)].intercalate (topicLevels host cfg opts) := by
    rw [← Except.ok.inj h]
    simp [topicLevels, List.intercalate]
  rw [htopic]
  exact TopicFilter.levels_intercalate (A := mqttTopics) (fun level hlevel =>
    (hlevels level hlevel).isLevel.sep_free) (List.cons_ne_nil _ _)

/-- A subscription under a prefix that is a level takes a topic just when it was built under
that prefix. -/
theorem subscription_matches {cfg cfg' : TopicConfig} {opts : Option SendOptions} {topic : JsString}
    (h : buildTopic host cfg opts = .ok topic)
    (hsubscribed : IsComponent (host.toText cfg'.prefixOrDefault)) :
    TopicFilter.matchesTopic mqttTopics (subscription host cfg') topic = true ↔
      host.toText cfg'.prefixOrDefault = host.toText cfg.prefixOrDefault :=
  TopicFilter.matchesTopic_subtree hsubscribed.isLevel (buildTopic_ok h).2 hsubscribed.ne_nil

/-! ## What is published for a subscription -/

/-- A call of `send` of some transport. -/
structure SendCall where
  transport : MqttTransport
  cfg : TopicConfig
  payload : Payload
  opts : Option SendOptions

def SendCall.sent (host : Host) (c : SendCall) : Sent := c.transport.send host c.cfg c.payload c.opts

/-- The frames published on topics that a filter takes, in the order of publishing. -/
def framesFor (filter : JsString) (publications : List Publication) : List Bytes :=
  (publications.filter fun p => TopicFilter.matchesTopic mqttTopics filter p.topic).map
    Publication.payload

/-- The call publishes under that prefix. -/
def SendCall.Under (host : Host) (topicPrefix : JsString) (c : SendCall) : Bool :=
  !c.transport.client.isNone && (buildTopic host c.cfg c.opts).toOption.isSome &&
    decide (host.toText c.cfg.prefixOrDefault = topicPrefix)

theorem framesFor_append (filter : JsString) (ps qs : List Publication) :
    framesFor filter (ps ++ qs) = framesFor filter ps ++ framesFor filter qs := by
  rw [framesFor, List.filter_append, List.map_append]
  rfl

/-- A filter takes a call as a whole or not at all. -/
theorem framesFor_sent {cfg : TopicConfig} (hsubscribed : IsComponent (host.toText cfg.prefixOrDefault))
    (c : SendCall) :
    framesFor (subscription host cfg) (c.sent host).publications =
      if c.Under host (host.toText cfg.prefixOrDefault) then c.payload.toList else [] := by
  unfold SendCall.sent MqttTransport.send SendCall.Under
  cases hclient : c.transport.client.isNone with
  | true => rfl
  | false =>
      cases htopic : buildTopic host c.cfg c.opts with
      | error message => rfl
      | ok topic =>
          have hmatches := subscription_matches htopic hsubscribed
          simp only [Bool.false_eq_true, if_false, Sent.publications, framesFor, Bool.not_false,
            Except.toOption, Option.isSome_some, Bool.true_and, decide_eq_true_iff]
          split
          next heq =>
            have hall := hmatches.mpr heq.symm
            rw [List.filter_eq_self.mpr fun p hp => ?_, List.map_map]
            · exact List.map_id _
            · obtain ⟨chunk, -, rfl⟩ := List.mem_map.mp hp
              exact hall
          next hne =>
            rw [List.filter_eq_nil_iff.mpr fun p hp => ?_, List.map_nil]
            obtain ⟨chunk, -, rfl⟩ := List.mem_map.mp hp
            exact fun hmatch => hne (hmatches.mp hmatch).symm

theorem publication_of_sent {c : SendCall} {p : Publication} (hp : p ∈ (c.sent host).publications) :
    p.retain = false ∧ p.payload ∈ c.payload.toList ∧ p.qos = qosOf c.cfg c.opts ∧
      TopicFilter.levels mqttTopics p.topic = topicLevels host c.cfg c.opts := by
  unfold SendCall.sent MqttTransport.send at hp
  split at hp
  next => cases hp
  next =>
    split at hp
    next => cases hp
    next topic htopic =>
      obtain ⟨chunk, hchunk, rfl⟩ := List.mem_map.mp hp
      exact ⟨rfl, hchunk, rfl, (buildTopic_ok htopic).2⟩

/-- Of all that any transports publish, the filter of a subscription takes the frames of the
calls under its prefix, each once, whole messages in the order of the calls; and nothing is
retained, every frame has the quality of service of its call, and every topic says the
prefix and the three identifiers of its call. -/
theorem subscription_takes {cfg : TopicConfig}
    (hsubscribed : IsComponent (host.toText cfg.prefixOrDefault)) (calls : List SendCall) :
    framesFor (subscription host cfg) (calls.flatMap fun c => (c.sent host).publications) =
        (calls.filter fun c => c.Under host (host.toText cfg.prefixOrDefault)).flatMap
          (fun c => c.payload.toList) ∧
      ∀ p ∈ calls.flatMap (fun c => (c.sent host).publications), p.retain = false ∧
        ∃ c ∈ calls, p.payload ∈ c.payload.toList ∧ p.qos = qosOf c.cfg c.opts ∧
          TopicFilter.levels mqttTopics p.topic = topicLevels host c.cfg c.opts := by
  constructor
  · induction calls with
    | nil => rfl
    | cons c calls ih =>
        rw [List.flatMap_cons, framesFor_append, framesFor_sent hsubscribed, ih, List.filter_cons]
        split
        next => rw [List.flatMap_cons]
        next => exact List.nil_append _
  · intro p hp
    obtain ⟨c, hc, hp⟩ := List.mem_flatMap.mp hp
    obtain ⟨hretain, hcall⟩ := publication_of_sent hp
    exact ⟨hretain, c, hc, hcall⟩

/-- A publisher under the default prefix, and one under a prefix of its own. -/
def plantCalls : List SendCall :=
  [⟨{ client := some 0 }, ⟨.undefined, .str (js "plant1"), .undefined⟩, .many [[1], [2]],
      some ⟨.nat 1, .nat 7, .undefined⟩⟩,
    ⟨{ client := some 0 }, ⟨.str (js "lab"), .str (js "plant2"), .undefined⟩, .one [3],
      some ⟨.nat 1, .nat 7, .undefined⟩⟩]

theorem subscription_takes_default :
    let cfg : TopicConfig := ⟨.str (js "ua"), .undefined, .undefined⟩
    framesFor (subscription .inert cfg) (plantCalls.flatMap fun c => (c.sent .inert).publications) =
        (plantCalls.filter fun c => c.Under .inert (Host.inert.toText cfg.prefixOrDefault)).flatMap
          (fun c => c.payload.toList) ∧
      ∀ p ∈ plantCalls.flatMap (fun c => (c.sent .inert).publications), p.retain = false ∧
        ∃ c ∈ plantCalls, p.payload ∈ c.payload.toList ∧ p.qos = qosOf c.cfg c.opts ∧
          TopicFilter.levels mqttTopics p.topic = topicLevels .inert c.cfg c.opts := by
  have hplain : (js "ua").all (fun u => !topicForbidden u) = true := by decide
  have hcomponent : IsComponent (Host.inert.toText (TopicConfig.prefixOrDefault
      ⟨.str (js "ua"), .undefined, .undefined⟩)) :=
    ⟨by decide, fun u hu => Bool.not_eq_true' _ ▸ List.all_eq_true.mp hplain u hu⟩
  exact subscription_takes hcomponent plantCalls

end OpcUaSuite.Transports
