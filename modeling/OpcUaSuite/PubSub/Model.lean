import OpcUaSuite.Js.Object

/-!
# The PubSub domain model

The objects the publisher builds, the encoders take apart and the decoders put
together. A member that holds `undefined` is absent.
-/

namespace OpcUaSuite.PubSub

open Js ByteCodec

inductive FieldEncoding
  | variant
  | rawdata
  | datavalue
deriving DecidableEq

inductive MessageType
  | keyframe
  | deltaframe
  | event
  | keepalive
deriving DecidableEq

/-- A Variant names its type or gives its ordinal; a text may also give a number
that is no ordinal. -/
inductive DataTypeRef
  | name (n : JsString)
  | ordinal (n : Nat)
  | number (d : Double)
deriving DecidableEq

structure Variant where
  dataType : DataTypeRef
  value : JsValue
  dimensions : Option (List Int) := none
deriving DecidableEq

/-- The Variant of a DataValue is absent (`none`), null (`some none`) or given. -/
structure DataValue where
  value : Option (Option Variant) := none
  statusCode : JsValue := .undefined
  sourceTimestamp : JsValue := .undefined
  serverTimestamp : JsValue := .undefined
  sourcePicoseconds : JsValue := .undefined
  serverPicoseconds : JsValue := .undefined
deriving DecidableEq

/-- The value of one field of a DataSetMessage. -/
inductive Field
  | null
  | variant (v : Variant)
  | dataValue (d : DataValue)
deriving DecidableEq

structure ConfigurationVersion where
  major : JsValue := .undefined
  minor : JsValue := .undefined
deriving DecidableEq

structure DataSetMessage where
  dataSetWriterId : JsValue := .undefined
  dataSetWriterName : JsValue := .undefined
  publisherId : JsValue := .undefined
  writerGroupName : JsValue := .undefined
  valid : JsValue := .undefined
  fieldEncoding : Option FieldEncoding := none
  messageType : Option MessageType := none
  sequenceNumber : JsValue := .undefined
  status : JsValue := .undefined
  configurationVersion : Option ConfigurationVersion := none
  timestamp : JsValue := .undefined
  picoseconds : JsValue := .undefined
  fields : Option (List (JsString × Field)) := none
deriving DecidableEq

structure GroupHeader where
  writerGroupId : JsValue := .undefined
  groupVersion : JsValue := .undefined
  networkMessageNumber : JsValue := .undefined
  sequenceNumber : JsValue := .undefined
deriving DecidableEq

structure Chunk where
  messageSequenceNumber : Nat
  chunkOffset : Nat
  totalSize : Nat
  chunkData : Bytes
deriving DecidableEq

/-- `payloadHeader` is the list `payloadHeader.dataSetWriterIds`. -/
structure NetworkMessage where
  messageId : JsValue := .undefined
  publisherId : JsValue := .undefined
  writerGroupName : JsValue := .undefined
  dataSetClassId : JsValue := .undefined
  groupHeader : Option GroupHeader := none
  payloadHeader : Option (List JsValue) := none
  timestamp : JsValue := .undefined
  picoseconds : JsValue := .undefined
  promotedFields : JsValue := .undefined
  chunk : Option Chunk := none
  payload : List DataSetMessage := []
deriving DecidableEq

end OpcUaSuite.PubSub
