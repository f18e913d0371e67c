import OpcUaSuite.Uadp.NetworkMessage

/-!
# The chunk reassembler

`UadpReassembler.push`: chunks are collected under a key made of the publisher,
the writer group and the message sequence number, and given back as one buffer
once they tile the announced size.
-/

namespace OpcUaSuite.Uadp

open Js ByteCodec PubSub

/-- `MAX_INFLIGHT_REASSEMBLIES` -/
def maxInflightReassemblies : Nat := 1000

/-- `REASSEMBLY_EXPIRY_MS` -/
def reassemblyExpiryMs : Int := 30000

/-- A decoded NetworkMessage that carries a chunk. -/
structure ChunkMessage where
  message : NetworkMessage
  chunk : Chunk
  has_chunk : message.chunk = some chunk
deriving DecidableEq

/-- A decoded message, if it carries a chunk. -/
def asChunk (nm : NetworkMessage) : Option ChunkMessage :=
  match h : nm.chunk with
  | some chunk => some ⟨nm, chunk, h⟩
  | none => none

theorem message_of_asChunk {nm : NetworkMessage} {m : ChunkMessage} (h : asChunk nm = some m) :
    m.message = nm := by
  unfold asChunk at h
  split at h
  · cases h
    rfl
  · cases h

/-- The chunk message with the header of a message. -/
def ChunkMessage.of (header : NetworkMessage) (chunk : Chunk) : ChunkMessage :=
  ⟨{ header with chunk := some chunk, payload := [] }, chunk, rfl⟩

/-- The part of the whole that a chunk carries. -/
def ChunkMessage.tile (m : ChunkMessage) : Tiling.Tile UInt8 :=
  (m.chunk.chunkOffset, m.chunk.chunkData)

structure Entry where
  totalSize : Nat
  parts : InsertionMap Nat Bytes
  expiresAt : Int
deriving DecidableEq

structure Reassembler where
  maxTotalSize : Nat
  entries : InsertionMap JsString Entry := []
deriving DecidableEq

inductive ReassemblyWarning
  | totalSize (got cap : Nat) (key : JsString)
  | overflow (oldestKey : JsString)
  | chunkTiling (offset len totalSize : Nat) (key : JsString)
  | entryTiling (totalSize : Nat) (key : JsString)
deriving DecidableEq

/-- The error code, after the prefix of the reassembler. -/
def ReassemblyWarning.code : ReassemblyWarning → String
  | .totalSize .. => "REASSEMBLY_TOTALSIZE"
  | .overflow _ => "REASSEMBLY_OVERFLOW"
  | .chunkTiling .. | .entryTiling .. => "REASSEMBLY_BAD_TILING"

/-- What a call of `push` leaves behind. -/
structure Pushed where
  state : Reassembler
  output : Option Bytes
  warnings : List ReassemblyWarning := []
deriving DecidableEq

variable (host : Host)

/-- The key of a message, from its decoded header. -/
def headerKey (message : NetworkMessage) (messageSequenceNumber : Nat) : JsString :=
  let writerGroupId := (message.groupHeader.map (·.writerGroupId)).getD .undefined
  host.toText message.publisherId ++ [124] ++ host.toText writerGroupId ++ [124] ++
    decimal messageSequenceNumber

def chunkKey (m : ChunkMessage) : JsString := headerKey host m.message m.chunk.messageSequenceNumber

/-- The entries that have not expired. -/
def sweep (now : Int) (entries : InsertionMap JsString Entry) : InsertionMap JsString Entry :=
  entries.filter fun e => !decide (e.2.expiresAt < now)

/-- Room for a new key, at the cost of the oldest. -/
def dropOldest (key : JsString) (entries : InsertionMap JsString Entry) :
    InsertionMap JsString Entry × List ReassemblyWarning :=
  match entries with
  | [] => ([], [])
  | (oldestKey, _) :: _ =>
      if (InsertionMap.get? key entries).isNone && maxInflightReassemblies ≤ entries.length then
        (InsertionMap.erase oldestKey entries, [.overflow oldestKey])
      else (entries, [])

/-- The entry of a key with one more chunk. -/
def recorded (now : Int) (chunk : Chunk) (prior : Option Entry) : Entry :=
  let entry := prior.getD ⟨chunk.totalSize, [], now + reassemblyExpiryMs⟩
  { entry with parts := InsertionMap.set chunk.chunkOffset chunk.chunkData entry.parts }

/-- Wait for more chunks, or give the tiles back. -/
def settle (maxTotalSize : Nat) (key : JsString) (entry : Entry)
    (entries : InsertionMap JsString Entry) (warnings : List ReassemblyWarning) : Pushed :=
  let stored := InsertionMap.set key entry entries
  if Tiling.weight entry.parts < entry.totalSize then ⟨⟨maxTotalSize, stored⟩, none, warnings⟩
  else
    let rest := InsertionMap.erase key stored
    let tiles := Tiling.sorted entry.parts
    if Tiling.scan 0 tiles = some entry.totalSize then
      ⟨⟨maxTotalSize, rest⟩, some (Tiling.concat tiles), warnings⟩
    else ⟨⟨maxTotalSize, rest⟩, none, warnings ++ [.entryTiling entry.totalSize key]⟩

def push (r : Reassembler) (now : Int) (m : ChunkMessage) : Pushed :=
  let key := chunkKey host m
  let chunk := m.chunk
  if chunk.totalSize > r.maxTotalSize then
    ⟨r, none, [.totalSize chunk.totalSize r.maxTotalSize key]⟩
  else
    let (entries, warnings) := dropOldest key (sweep now r.entries)
    if chunk.chunkOffset + chunk.chunkData.length > chunk.totalSize then
      ⟨⟨r.maxTotalSize, entries⟩, none, warnings ++
        [.chunkTiling chunk.chunkOffset chunk.chunkData.length chunk.totalSize key]⟩
    else
      settle r.maxTotalSize key (recorded now chunk (InsertionMap.get? key entries)) entries
        warnings

/-- A call of `push`, with the time at which it is made. -/
structure Push where
  time : Int
  message : ChunkMessage
deriving DecidableEq

def step (r : Reassembler) (p : Push) : Reassembler := (push host r p.time p.message).state

/-- The state after a sequence of calls. -/
def after (r : Reassembler) (pushes : List Push) : Reassembler := pushes.foldl (step host) r

end OpcUaSuite.Uadp
