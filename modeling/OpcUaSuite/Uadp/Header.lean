import OpcUaSuite.Uadp.NetworkMessage

/-!
# The header of a NetworkMessage on the wire

The three flag bytes tell the reader which parts follow. A header is read back
as soon as each of its parts is, so messages and chunks share one argument.
-/

namespace OpcUaSuite.Uadp

open Js ByteCodec BinaryFloat PubSub

theorem extendedFlags1_fields {nm : NetworkMessage} {typeBits extFlags2 : Nat} (h : typeBits < 8) :
    extendedFlags1 nm typeBits extFlags2 % 8 = typeBits ∧
    (extendedFlags1 nm typeBits extFlags2).testBit 3 = nm.dataSetClassId.truthy ∧
    (extendedFlags1 nm typeBits extFlags2).testBit 5 = nm.timestamp.truthy ∧
    (extendedFlags1 nm typeBits extFlags2).testBit 6 =
      (decide (nm.picoseconds ≠ .undefined) && nm.timestamp.truthy) ∧
    (extendedFlags1 nm typeBits extFlags2).testBit 7 = decide (extFlags2 ≠ 0) := by
  unfold extendedFlags1
  generalize decide (nm.picoseconds ≠ .undefined) = b6
  generalize nm.dataSetClassId.truthy = b3
  generalize nm.timestamp.truthy = b5
  generalize decide (extFlags2 ≠ 0) = b7
  revert b3 b5 b6 b7
  interval_cases typeBits <;> decide

theorem buildUADPFlags_fields (nm : NetworkMessage) (extFlags1 : Nat) :
    buildUADPFlags nm extFlags1 % 16 = 1 ∧
    (buildUADPFlags nm extFlags1).testBit 4 = decide (nm.publisherId ≠ .undefined) ∧
    (buildUADPFlags nm extFlags1).testBit 5 = nm.groupHeader.isSome ∧
    (buildUADPFlags nm extFlags1).testBit 6 = decide (dataSetWriterIds nm ≠ []) ∧
    (buildUADPFlags nm extFlags1).testBit 7 = decide (extFlags1 ≠ 0) := by
  unfold buildUADPFlags
  generalize decide (nm.publisherId ≠ .undefined) = b4
  generalize nm.groupHeader.isSome = b5
  generalize decide (dataSetWriterIds nm ≠ []) = b6
  generalize decide (extFlags1 ≠ 0) = b7
  revert b4 b5 b6 b7
  decide

/-- A bit of the first extended flag byte can only be set when the byte is there. -/
theorem cascade_testBit (n i : Nat) : (decide (n ≠ 0) && n.testBit i) = n.testBit i := by
  by_cases h : n = 0
  · subst h
    simp
  · simp [h]

theorem cascade_typeBits (n : Nat) : (if decide (n ≠ 0) then n % 8 else 0) = n % 8 := by
  by_cases h : n = 0
  · subst h
    rfl
  · simp [h]

variable {host : Host}

/-- Each part of the header of `nm` is read back as the part of `hdr`. -/
structure HeaderEncodes (host : Host) (nm : NetworkMessage) (typeBits : Nat)
    (hdr : NetworkMessage) : Prop where
  bound : typeBits < 8
  publisherId :
    Encodes (opt (decide (nm.publisherId ≠ .undefined))
        (writePublisherId host nm.publisherId typeBits))
      (readMember (decide (nm.publisherId ≠ .undefined)) (readPublisherId typeBits))
      hdr.publisherId
  dataSetClassId :
    Encodes (opt nm.dataSetClassId.truthy (writeGuid nm.dataSetClassId))
      (readMember nm.dataSetClassId.truthy readGuid) hdr.dataSetClassId
  groupHeader :
    Encodes (opt nm.groupHeader.isSome (writeGroupHeader host (nm.groupHeader.getD {})))
      (readOptionalGroupHeader nm.groupHeader.isSome) hdr.groupHeader
  payloadHeader :
    Encodes (opt (decide (dataSetWriterIds nm ≠ [])) (writePayloadHeader host (dataSetWriterIds nm)))
      (readPayloadHeader (decide (dataSetWriterIds nm ≠ []))) hdr.payloadHeader
  timestamp :
    Encodes (opt nm.timestamp.truthy (writeDateTime nm.timestamp))
      (readMember nm.timestamp.truthy readDateTime) hdr.timestamp
  picoseconds :
    Encodes (opt (decide (nm.picoseconds ≠ .undefined) && nm.timestamp.truthy)
        (writeUInt16LE host nm.picoseconds))
      (readMember (decide (nm.picoseconds ≠ .undefined) && nm.timestamp.truthy) (readNumber 2))
      hdr.picoseconds
  bare : hdr = { hdr with
    messageId := .undefined, writerGroupName := .undefined, promotedFields := .undefined,
    chunk := none, payload := [] }

/-- A header is read back once its parts are. -/
theorem encodes_header {nm hdr : NetworkMessage} {typeBits : Nat} (extFlags2 : Nat)
    (h : HeaderEncodes host nm typeBits hdr) :
    Encodes (cat (writeHeader host nm
        (buildUADPFlags nm (extendedFlags1 nm typeBits extFlags2))
        (extendedFlags1 nm typeBits extFlags2) extFlags2))
      readHeader (hdr, extFlags2) := by
  obtain ⟨hmod, e3, e5, e6, e7⟩ := @extendedFlags1_fields nm typeBits extFlags2 h.bound
  generalize extendedFlags1 nm typeBits extFlags2 = extFlags1 at *
  obtain ⟨hversion, u4, u5, u6, u7⟩ := buildUADPFlags_fields nm extFlags1
  generalize buildUADPFlags nm extFlags1 = uadpFlags at *
  simp only [writeHeader, writeNetworkMessageHeaderFields, List.cons_append, List.nil_append, u4,
    u5, u6, u7, cascade_testBit, cascade_typeBits]
  refine Encodes.cons (encodes_putUInt 1 _) ?_
  rw [if_neg (by simp [hversion]), u7]
  refine Encodes.cons (encodes_flags rfl) ?_
  refine Encodes.cons (encodes_flags e7) ?_
  simp only [u4, u5, u6, hmod, e3, e5, e6]
  refine Encodes.cons h.publisherId ?_
  refine Encodes.cons h.dataSetClassId ?_
  refine Encodes.cons h.groupHeader ?_
  refine Encodes.cons h.payloadHeader ?_
  refine Encodes.cons h.timestamp ?_
  have hlast := Encodes.map (fun picoseconds => (({
      publisherId := hdr.publisherId, dataSetClassId := hdr.dataSetClassId
      groupHeader := hdr.groupHeader, payloadHeader := hdr.payloadHeader
      timestamp := hdr.timestamp, picoseconds := picoseconds } : NetworkMessage), extFlags2))
    (Encodes.single h.picoseconds)
  rw [h.bare]
  exact hlast

end OpcUaSuite.Uadp
