import OpcUaSuite.Js.Json
import OpcUaSuite.PubSub.Model

/-!
# The publisher node

The messages an `opcua-publisher` builds, and its state between two events: the
sequence numbers, the values known and published, and the one message that
waits for the connection. The encoder and the transport are parameters.
-/

namespace OpcUaSuite.Nodes

open Js PubSub

structure FieldMetaData where
  name : JsString
  dataType : JsString
deriving DecidableEq

structure PublishedDataSet where
  fields : List FieldMetaData
  configurationVersion : ConfigurationVersion := ⟨JsValue.nat 1, JsValue.nat 0⟩
deriving DecidableEq

structure DataSetWriter where
  dataSetWriterId : Nat
  publishedDataSet : PublishedDataSet
deriving DecidableEq

inductive PublishMode
  | acyclic
  | cyclic
deriving DecidableEq

/-- The configuration of a publisher, with the `publisherId` of its connection
and the `writerGroupId` and `maxNetworkMessageSize` of its WriterGroup. -/
structure PublisherConfig where
  publisherId : JsValue
  writerGroupId : Nat
  maxNetworkMessageSize : Int := 1400
  publishMode : PublishMode
  writers : List DataSetWriter
  writers_ne : writers ≠ []
deriving DecidableEq

structure PublisherState where
  nmSeq : Nat := 0
  dsmSeq : InsertionMap Nat Nat := []
  latestValues : List (JsString × JsValue) := []
  publishedSnapshot : Option JsValue := none
  connected : Bool := false
  pendingSend : Option NetworkMessage := none
deriving DecidableEq

/-! ## Messages -/

/-- `(n + 1) & 0xffff` -/
def nextSeq (n : Nat) : Nat := (n + 1) % 65536

/-- One DataSetMessage for each writer, with the next sequence number of its id. -/
def buildPayload (message : DataSetWriter → Nat → DataSetMessage) :
    List DataSetWriter → InsertionMap Nat Nat → List DataSetMessage × InsertionMap Nat Nat
  | [], seqs => ([], seqs)
  | writer :: writers, seqs =>
      let seq := nextSeq ((InsertionMap.get? writer.dataSetWriterId seqs).getD 0)
      let (rest, seqs') := buildPayload message writers
        (InsertionMap.set writer.dataSetWriterId seq seqs)
      (message writer seq :: rest, seqs')

theorem nextSeq_le (n : Nat) : nextSeq n ≤ 65535 := by
  unfold nextSeq
  omega

theorem buildPayload_forall₂ {message : DataSetWriter → Nat → DataSetMessage}
    {R : DataSetWriter → DataSetMessage → Prop} (writers : List DataSetWriter)
    (h : ∀ writer ∈ writers, ∀ seq ≤ 65535, R writer (message writer seq))
    (seqs : InsertionMap Nat Nat) : List.Forall₂ R writers (buildPayload message writers seqs).1 := by
  induction writers generalizing seqs with
  | nil => exact List.Forall₂.nil
  | cons writer writers ih =>
      refine List.Forall₂.cons (h writer List.mem_cons_self _ (nextSeq_le _)) ?_
      exact ih (fun w hw => h w (List.mem_cons_of_mem writer hw)) _

variable (host : Host) (config : PublisherConfig)

/-- The declared fields that have a value, in the order of their first declaration. -/
def keyframeFields (fields : List FieldMetaData) (sourceValues : JsValue) :
    List (JsString × Field) :=
  Props.ofEntries ((fields.filter fun field =>
    decide (host.member sourceValues field.name ≠ .undefined)).map fun field =>
      (field.name, .variant ⟨.name field.dataType, host.member sourceValues field.name, none⟩))

def keyframeMessage (sourceValues : JsValue) (writer : DataSetWriter) (seq : Nat) :
    DataSetMessage where
  dataSetWriterId := JsValue.nat writer.dataSetWriterId
  messageType := some .keyframe
  sequenceNumber := JsValue.nat seq
  configurationVersion := some writer.publishedDataSet.configurationVersion
  fields := some (keyframeFields host writer.publishedDataSet.fields sourceValues)

def keepAliveMessage (writer : DataSetWriter) (seq : Nat) : DataSetMessage where
  dataSetWriterId := JsValue.nat writer.dataSetWriterId
  messageType := some .keepalive
  sequenceNumber := JsValue.nat seq
  fields := some []

/-- The NetworkMessage around the DataSetMessages of all writers. -/
def buildMessage (message : DataSetWriter → Nat → DataSetMessage) (now : Int)
    (st : PublisherState) : NetworkMessage × PublisherState :=
  let nmSeq := nextSeq st.nmSeq
  let (payload, dsmSeq) := buildPayload message config.writers st.dsmSeq
  ({ publisherId := config.publisherId
     groupHeader := some { writerGroupId := JsValue.nat config.writerGroupId,
                           sequenceNumber := JsValue.nat nmSeq }
     payloadHeader := some (config.writers.map fun w => JsValue.nat w.dataSetWriterId)
     timestamp := .date (some now)
     payload := payload },
    { st with nmSeq := nmSeq, dsmSeq := dsmSeq })

/-- `_buildNetworkMessage` -/
def buildNetworkMessage (sourceValues : JsValue) : Int → PublisherState →
    NetworkMessage × PublisherState :=
  buildMessage config (keyframeMessage host sourceValues)

/-- `_buildKeepAlive` -/
def buildKeepAlive : Int → PublisherState → NetworkMessage × PublisherState :=
  buildMessage config keepAliveMessage

/-! ## Events -/

/-- A message handed to `transport.send`: its encoding is accepted, or the call
throws. -/
structure Handed (α : Type) where
  message : NetworkMessage
  encoded : α
  accepted : Bool
deriving DecidableEq

variable {α ε : Type} (encode : NetworkMessage → Except ε α)

/-- `_emit`: keep the message while not connected, hand it over otherwise. What
the encoder or the transport throws is reported and changes nothing. -/
def emit (accepts : Bool) (nm : NetworkMessage) (st : PublisherState) :
    PublisherState × Option (Handed α) :=
  if !st.connected then ({ st with pendingSend := some nm }, none)
  else
    match encode nm with
    | .error _ => (st, none)
    | .ok encoded => (st, some ⟨nm, encoded, accepts⟩)

inductive Status
  | connected
  | disconnected
  | reconnecting
  | error
deriving DecidableEq

/-- `_statusCb`: the pending message is taken off before it is emitted. -/
def statusCb (accepts : Bool) (status : Status) (st : PublisherState) :
    PublisherState × Option (Handed α) :=
  match status with
  | .connected =>
      let st' := { st with connected := true }
      match st.pendingSend with
      | none => (st', none)
      | some queued => emit encode accepts queued { st' with pendingSend := none }
  | .disconnected | .reconnecting => ({ st with connected := false }, none)
  | .error => (st, none)

/-- `_valuesChanged`: the texts of the values differ. -/
def valuesChanged (current : JsValue) (snapshot : Option JsValue) : Except RuntimeError Bool :=
  match snapshot with
  | none => .ok true
  | some snapshot => do
      let a ← Json.stringify current
      let b ← Json.stringify snapshot
      return decide (a ≠ b)

/-- One interval. A value without a text (a BigInt) stops it: before the
comparison, or after the keyframe was built when there is nothing to compare. -/
def tick (now : Int) (accepts : Bool) (st : PublisherState) :
    PublisherState × Option (Handed α) :=
  let latest := JsValue.object st.latestValues
  match valuesChanged latest st.publishedSnapshot with
  | .error _ => (st, none)
  | .ok true =>
      let (nm, st') := buildNetworkMessage host config latest now st
      match Json.stringify latest with
      | .error _ => (st', none)
      | .ok snapshot => emit encode accepts nm { st' with publishedSnapshot := snapshot }
  | .ok false =>
      let (nm, st') := buildKeepAlive config now st
      emit encode accepts nm st'

/-- `msg.payload` when it is an object, and the empty object otherwise. -/
def sourceValuesOf (payload : JsValue) : JsValue :=
  match payload with
  | .object _ | .array _ | .buffer _ | .date _ => payload
  | _ => .object []

def input (payload : JsValue) (now : Int) (accepts : Bool) (st : PublisherState) :
    PublisherState × Option (Handed α) :=
  let sourceValues := sourceValuesOf payload
  match config.publishMode with
  | .cyclic => ({ st with latestValues := assign st.latestValues sourceValues }, none)
  | .acyclic =>
      let (nm, st') := buildNetworkMessage host config sourceValues now st
      emit encode accepts nm st'

/-- What can happen to a publisher, with the time and the answer of the transport. -/
inductive PublisherEvent
  | input (payload : JsValue) (now : Int) (accepts : Bool)
  | tick (now : Int) (accepts : Bool)
  | status (status : Status) (accepts : Bool)
deriving DecidableEq

/-- One event, and the message it handed over. Only a cyclic publisher has an
interval. -/
def publisherStep (st : PublisherState) :
    PublisherEvent → Option (PublisherState × Option (Handed α))
  | .input payload now accepts => some (input host config encode payload now accepts st)
  | .tick now accepts =>
      match config.publishMode with
      | .cyclic => some (tick host config encode now accepts st)
      | .acyclic => none
  | .status status accepts => some (statusCb encode accepts status st)

end OpcUaSuite.Nodes
