import OpcUaSuite.Lib.Grammar
import OpcUaSuite.Uadp.NetworkMessage

/-!
# The byte strings the decoder accepts

The layout of a NetworkMessage as a grammar, without the values: which parts
there are, how long each is, and what a flag byte or a count says about the
parts after it. Bits the decoder does not look at are free. The decoder accepts
exactly the buffers that begin so.
-/

namespace OpcUaSuite.Uadp

open Js ByteCodec BinaryFloat PubSub

namespace Wire

/-- A length and as many bytes, or the null marker alone. -/
def counted : Grammar Unit := do
  let len ← Grammar.word 4
  if len = nullLength then pure () else Grammar.bytes len

def scalar : BuiltInType → Grammar Unit
  | .Boolean | .SByte | .Byte => Grammar.bytes 1
  | .Int16 | .UInt16 => Grammar.bytes 2
  | .Int32 | .UInt32 | .Float | .StatusCode => Grammar.bytes 4
  | .Int64 | .UInt64 | .Double | .DateTime => Grammar.bytes 8
  | .Guid => Grammar.bytes 16
  | .String | .ByteString => counted

/-- A scalar of a type given by its ordinal. -/
def element (builtIn : Nat) : Grammar Unit :=
  match BuiltInType.ofOrdinal? builtIn with
  | some t => scalar t
  | none => Grammar.none

/-- As many parts as an Int32 says, none when it is negative. -/
def list (S : Grammar Unit) : Grammar Unit := do
  let n ← Grammar.word 4
  Grammar.times S (ofTwos 4 n).toNat

/-- A part that is there when its flag is set. -/
def optional (present : Bool) (S : Grammar Unit) : Grammar Unit :=
  if present then S else pure ()

def variantValue (builtIn : Nat) (isArray : Bool) : Grammar Unit :=
  if isArray then list (element builtIn) else element builtIn

def variant : Grammar Unit := do
  let encodingByte ← Grammar.word 1
  if encodingByte = 0 then pure ()
  else do
    variantValue (encodingByte % 64) (encodingByte.testBit 6)
    optional (encodingByte.testBit 7) (list (Grammar.bytes 4))

def dataValue : Grammar Unit := do
  let mask ← Grammar.word 1
  optional (mask.testBit 0) variant
  optional (mask.testBit 1) (Grammar.bytes 4)
  optional (mask.testBit 2) (Grammar.bytes 8)
  optional (mask.testBit 3) (Grammar.bytes 8)
  optional (mask.testBit 4) (Grammar.bytes 2)
  optional (mask.testBit 5) (Grammar.bytes 2)

def field : FieldEncoding → Grammar Unit
  | .variant => variant
  | .datavalue => dataValue
  | .rawdata => Grammar.none

def namedField (encoding : FieldEncoding) : Grammar Unit := do
  let nameLen ← Grammar.word 2
  Grammar.bytes nameLen
  field encoding

def fields (encoding : FieldEncoding) : Grammar Unit := do
  let count ← Grammar.word 2
  Grammar.times (namedField encoding) count

/-- A flag byte, zero when it is left out. -/
def flags (present : Bool) : Grammar Nat := if present then Grammar.word 1 else pure 0

def dataSetMessage : Grammar Unit := do
  let flags1 ← Grammar.word 1
  let flags2 ← flags (flags1.testBit 7)
  optional (flags1.testBit 3) (Grammar.bytes 2)
  optional (flags1.testBit 4) (Grammar.bytes 2)
  optional (flags1.testBit 5) (Grammar.bytes 4)
  optional (flags1.testBit 6) (Grammar.bytes 4)
  optional (flags2.testBit 4) (Grammar.bytes 8)
  optional (flags2.testBit 5) (Grammar.bytes 2)
  if fieldEncodingName (flags1 / 2 % 4) = .rawdata then Grammar.none
  else
    optional (decide (messageTypeName (flags2 % 16) ≠ .keepalive))
      (fields (fieldEncodingName (flags1 / 2 % 4)))

def publisherId (typeBits : Nat) : Grammar Unit :=
  match typeBits with
  | 0 => Grammar.bytes 1
  | 1 => Grammar.bytes 2
  | 2 => Grammar.bytes 4
  | 3 => Grammar.bytes 8
  | 4 => counted
  | _ => Grammar.none

/-- The DataSetWriterIds and their number. -/
def payloadHeader (present : Bool) : Grammar Nat :=
  if present then do
    let count ← Grammar.word 1
    Grammar.times (Grammar.bytes 2) count
    return count
  else pure 0

/-- The header; ExtendedFlags2 and the number of ids decide what follows. -/
def header : Grammar (Nat × Nat) := do
  let uadpFlags ← Grammar.word 1
  if uadpFlags % 16 ≠ 1 then Grammar.none
  else do
    let extFlags1 ← flags (uadpFlags.testBit 7)
    let extFlags2 ← flags (extFlags1.testBit 7)
    optional (uadpFlags.testBit 4) (publisherId (extFlags1 % 8))
    optional (extFlags1.testBit 3) (Grammar.bytes 16)
    optional (uadpFlags.testBit 5) (Grammar.bytes 10)
    let count ← payloadHeader (uadpFlags.testBit 6)
    optional (extFlags1.testBit 5) (Grammar.bytes 8)
    optional (extFlags1.testBit 6) (Grammar.bytes 2)
    return (extFlags2, count)

/-- Sequence number, offset, total size and data of a chunk. -/
def chunk : Grammar Unit := do
  Grammar.bytes 2
  Grammar.bytes 4
  Grammar.bytes 4
  let chunkDataLen ← Grammar.word 4
  Grammar.bytes chunkDataLen

/-- The size array. -/
def sizes : Nat → Grammar (List Nat)
  | 0 => pure []
  | n + 1 => do
      let size ← Grammar.word 2
      let rest ← sizes n
      return size :: rest

/-- The bytes begin with a byte string of the grammar. -/
def Begins (S : Grammar Unit) (bs : Bytes) : Prop := ∃ x tail, bs = x ++ tail ∧ S x ()

/-- What follows the header of a message: a chunk, messages each in a buffer of
the size announced, or at most one message. -/
def Payload (extFlags2 count : Nat) (rest : Bytes) : Prop :=
  if extFlags2.testBit 1 then False
  else if extFlags2.testBit 0 then Begins chunk rest
  else if count > 1 then
    ∃ (array : Bytes) (buffers : List Bytes) (tail : Bytes), rest = array ++ buffers.flatten ++ tail ∧
      sizes count array (buffers.map List.length) ∧ ∀ b ∈ buffers, Begins dataSetMessage b
  else rest = [] ∨ Begins dataSetMessage rest

/-- A complete message, up to bytes behind it. -/
def Message (buffer : Bytes) : Prop :=
  ∃ head rest extFlags2 count, buffer = head ++ rest ∧ header head (extFlags2, count) ∧
    Payload extFlags2 count rest

end Wire

/-! ## Recognition -/

/-- The reader consumes what the grammar describes; the value does not matter. -/
abbrev Shaped {α : Type} (r : Reader α) (S : Grammar Unit) : Prop :=
  Recognizes r (fun _ => ()) S

variable {ε α : Type}

theorem shaped_bytes (n : Nat) : Shaped (readBytes n) (Grammar.bytes n) :=
  Recognizes.take _ n _

theorem recognizes_uint (k : Nat) : Recognizes (readUInt k) id (Grammar.word k) :=
  Recognizes.word _ k

theorem shaped_uint (k : Nat) : Shaped (readUInt k) (Grammar.bytes k) :=
  (shaped_bytes k).map fun _ => rfl

theorem shaped_int (k : Nat) : Shaped (readInt k) (Grammar.bytes k) :=
  (shaped_uint k).map fun _ => rfl

theorem shaped_number (k : Nat) : Shaped (readNumber k) (Grammar.bytes k) :=
  (shaped_uint k).map fun _ => rfl

theorem shaped_string : Shaped readString Wire.counted :=
  (recognizes_uint 4).bind fun len =>
    Recognizes.ite (fun _ => Recognizes.pure _) fun _ => (shaped_bytes len).map fun _ => rfl

theorem shaped_byteString : Shaped readByteString Wire.counted :=
  (recognizes_uint 4).bind fun len =>
    Recognizes.ite (fun _ => Recognizes.pure _) fun _ => (shaped_bytes len).map fun _ => rfl

/-- Adjacent parts of fixed width are one part. -/
theorem bytes_add (m n : Nat) :
    (Grammar.bytes m >>= fun _ => Grammar.bytes n) = Grammar.bytes (m + n) := by
  funext z u
  apply propext
  constructor
  · rintro ⟨x, y, _, rfl, hx, hy⟩
    change x.length = m at hx
    change y.length = n at hy
    change (x ++ y).length = m + n
    rw [List.length_append, hx, hy]
  · intro hz
    change z.length = m + n at hz
    refine ⟨z.take m, z.drop m, (), (List.take_append_drop m z).symm, ?_, ?_⟩
    · change (z.take m).length = m
      rw [List.length_take]
      omega
    · change (z.drop m).length = n
      rw [List.length_drop]
      omega

theorem shaped_guid : Shaped readGuid (Grammar.bytes 16) := by
  have h : Shaped readGuid (do
      Grammar.bytes 4
      Grammar.bytes 2
      Grammar.bytes 2
      Grammar.bytes 2
      Grammar.bytes 6) :=
    (shaped_uint 4).bind fun _ => (shaped_uint 2).bind fun _ => (shaped_uint 2).bind fun _ =>
      (shaped_bytes 2).bind fun _ => (shaped_bytes 6).map fun _ => rfl
  simpa only [bytes_add] using h

theorem shaped_dateTime : Shaped readDateTime (Grammar.bytes 8) :=
  (shaped_uint 8).map fun _ => rfl

theorem shaped_scalar (t : BuiltInType) : Shaped (readScalar t) (Wire.scalar t) := by
  cases t with
  | Boolean => exact (shaped_uint 1).map fun _ => rfl
  | SByte => exact (shaped_int 1).map fun _ => rfl
  | Byte => exact shaped_number 1
  | Int16 => exact (shaped_int 2).map fun _ => rfl
  | UInt16 => exact shaped_number 2
  | Int32 => exact (shaped_int 4).map fun _ => rfl
  | UInt32 => exact shaped_number 4
  | Int64 => exact (shaped_int 8).map fun _ => rfl
  | UInt64 => exact (shaped_uint 8).map fun _ => rfl
  | Float => exact (shaped_uint 4).map fun _ => rfl
  | Double => exact (shaped_uint 8).map fun _ => rfl
  | String => exact shaped_string
  | DateTime => exact shaped_dateTime
  | Guid => exact shaped_guid
  | ByteString => exact shaped_byteString
  | StatusCode => exact shaped_number 4

theorem shaped_element (builtIn : Nat) :
    Shaped (readVariantScalar builtIn) (Wire.element builtIn) := by
  unfold readVariantScalar Wire.element
  cases BuiltInType.ofOrdinal? builtIn with
  | some t => exact shaped_scalar t
  | none => exact Recognizes.fail _

/-- A list is read by repeating the reader of one element. -/
theorem shaped_list {β : Type} {r : Reader α} {S : Grammar Unit} (hr : Shaped r S)
    (g : List α → β) :
    Shaped (do
      let n ← readCount
      let as ← ByteCodec.Reader.many r n
      return g as) (Wire.list S) := by
  have h : (do
      let n ← readCount
      let as ← ByteCodec.Reader.many r n
      return g as : Reader β) = readUInt 4 >>= fun n => (do
        let as ← ByteCodec.Reader.many r (ofTwos 4 n).toNat
        return g as) := by
    funext c
    simp only [readCount, readInt, ByteCodec.Reader.bind_apply]
    rcases readUInt 4 c with e | ⟨n, c'⟩ <;> rfl
  rw [h]
  exact (recognizes_uint 4).bind fun n => (hr.many (fun _ => ()) _).map fun _ => rfl

theorem shaped_optional {present : Bool} {r : Reader α} {S : Grammar Unit} {d : α}
    (h : Shaped r S) : Shaped (if present then r else pure d) (Wire.optional present S) :=
  Recognizes.ite (fun _ => h) fun _ => Recognizes.pure d

theorem shaped_variant : Shaped readVariant Wire.variant := by
  apply (recognizes_uint 1).bind
  intro encodingByte
  apply Recognizes.ite
  · intro _
    exact Recognizes.pure _
  · intro _
    have hvalue : Shaped (readVariantValue (encodingByte % 64) (encodingByte.testBit 6))
        (Wire.variantValue (encodingByte % 64) (encodingByte.testBit 6)) :=
      Recognizes.ite (fun _ => shaped_list (shaped_element _) JsValue.array)
        fun _ => shaped_element _
    have hdims : Shaped (readDimensions (encodingByte.testBit 7))
        (Wire.optional (encodingByte.testBit 7) (Wire.list (Grammar.bytes 4))) :=
      shaped_optional (shaped_list (shaped_int 4) some)
    exact hvalue.bind fun _ => hdims.map fun _ => rfl

theorem shaped_member {r : Reader JsValue} {S : Grammar Unit} (present : Bool) (h : Shaped r S) :
    Shaped (readMember present r) (Wire.optional present S) := shaped_optional h

theorem shaped_dataValue : Shaped readDataValue Wire.dataValue := by
  have hvalue : ∀ present, Shaped (readMemberValue present) (Wire.optional present Wire.variant) :=
    fun _ => shaped_optional (shaped_variant.map fun _ => rfl)
  apply (recognizes_uint 1).bind
  intro mask
  apply (hvalue _).bind
  intro value
  apply (shaped_member _ (shaped_number 4)).bind
  intro statusCode
  apply (shaped_member _ shaped_dateTime).bind
  intro sourceTimestamp
  apply (shaped_member _ shaped_dateTime).bind
  intro serverTimestamp
  apply (shaped_member _ (shaped_number 2)).bind
  intro sourcePicoseconds
  exact (shaped_member _ (shaped_number 2)).map fun _ => rfl

theorem shaped_field (encoding : FieldEncoding) :
    Shaped (readField encoding) (Wire.field encoding) := by
  cases encoding with
  | variant => exact shaped_variant.map fun _ => rfl
  | datavalue => exact shaped_dataValue.map fun _ => rfl
  | rawdata => exact Recognizes.fail _

theorem shaped_namedField (encoding : FieldEncoding) :
    Shaped (readNamedField encoding) (Wire.namedField encoding) :=
  (recognizes_uint 2).bind fun nameLen =>
    (shaped_bytes nameLen).bind fun _ => (shaped_field encoding).map fun _ => rfl

theorem recognizes_flags (present : Bool) :
    Recognizes (readFlags present) id (Wire.flags present) :=
  Recognizes.ite (fun _ => recognizes_uint 1) fun _ => Recognizes.pure 0

theorem shaped_body (encoding : FieldEncoding) (messageType : MessageType) :
    Shaped (readBody encoding messageType)
      (Wire.optional (decide (messageType ≠ .keepalive)) (Wire.fields encoding)) := by
  have hfields : Shaped (readFields encoding) (Wire.fields encoding) :=
    (recognizes_uint 2).bind fun count =>
      ((shaped_namedField encoding).many (fun _ => ()) count).map fun _ => rfl
  exact shaped_optional (hfields.map fun _ => rfl)

theorem shaped_dataSetMessage : Shaped readDataSetMessage Wire.dataSetMessage := by
  apply (recognizes_uint 1).bind
  intro flags1
  apply (recognizes_flags _).bind
  intro flags2
  apply (shaped_member _ (shaped_number 2)).bind
  intro sequenceNumber
  apply (shaped_member _ (shaped_number 2)).bind
  intro status
  apply (shaped_member _ (shaped_number 4)).bind
  intro major
  apply (shaped_member _ (shaped_number 4)).bind
  intro minor
  apply (shaped_member _ shaped_dateTime).bind
  intro timestamp
  apply (shaped_member _ (shaped_number 2)).bind
  intro picoseconds
  apply Recognizes.ite
  · intro _
    exact Recognizes.fail _
  · intro _
    exact (shaped_body _ _).map fun _ => rfl

theorem shaped_publisherId (typeBits : Nat) :
    Shaped (readPublisherId typeBits) (Wire.publisherId typeBits) :=
  match typeBits with
  | 0 => shaped_number 1
  | 1 => shaped_number 2
  | 2 => shaped_number 4
  | 3 => (shaped_uint 8).map fun _ => rfl
  | 4 => shaped_string
  | _ + 5 => Recognizes.fail _

theorem shaped_groupHeader : Shaped readGroupHeader (Grammar.bytes 10) := by
  have h : Shaped readGroupHeader (do
      Grammar.bytes 2
      Grammar.bytes 4
      Grammar.bytes 2
      Grammar.bytes 2) :=
    (shaped_number 2).bind fun _ => (shaped_number 4).bind fun _ =>
      (shaped_number 2).bind fun _ => (shaped_number 2).map fun _ => rfl
  simpa only [bytes_add] using h

theorem shaped_chunk : Shaped readChunk Wire.chunk :=
  (shaped_uint 2).bind fun _ => (shaped_uint 4).bind fun _ => (shaped_uint 4).bind fun _ =>
    (recognizes_uint 4).bind fun len => (shaped_bytes len).map fun _ => rfl

/-- The number of ids is the number of ids read. -/
theorem recognizes_payloadHeader (present : Bool) :
    Recognizes (readPayloadHeader present) (fun ids => (ids.getD []).length)
      (Wire.payloadHeader present) := by
  apply Recognizes.ite
  · intro _
    exact (recognizes_uint 1).bind fun count =>
      ((shaped_number 2).many_length count).map fun _ => rfl
  · intro _
    exact Recognizes.pure _

theorem recognizes_header :
    Recognizes readHeader (fun p => (p.2, (dataSetWriterIds p.1).length)) Wire.header := by
  apply (recognizes_uint 1).bind
  intro uadpFlags
  apply Recognizes.ite
  · intro _
    exact Recognizes.fail _
  · intro _
    apply (recognizes_flags _).bind
    intro extFlags1
    apply (recognizes_flags _).bind
    intro extFlags2
    apply (shaped_member _ (shaped_publisherId _)).bind
    intro publisherId
    apply (shaped_member _ shaped_guid).bind
    intro dataSetClassId
    apply (shaped_optional (d := none) (shaped_groupHeader.map fun _ => rfl)).bind
    intro groupHeader
    apply (recognizes_payloadHeader _).bind
    intro payloadHeader
    apply (shaped_member _ shaped_dateTime).bind
    intro timestamp
    apply (shaped_member _ (shaped_number 2)).bind
    intro picoseconds
    exact Recognizes.pure _

/-! ## Payload -/

theorem recognizes_sizes (count : Nat) :
    Recognizes (ByteCodec.Reader.many (readUInt 2) count) id (Wire.sizes count) := by
  induction count with
  | zero => exact Recognizes.pure []
  | succ count ih =>
      exact (recognizes_uint 2).bind fun size => ih.bind fun sizes => Recognizes.pure _

theorem decodeDataSetMessage_iff (bs : Bytes) :
    (∃ dsm, decodeDataSetMessage bs = .ok dsm) ↔ Wire.Begins Wire.dataSetMessage bs := by
  rw [decodeDataSetMessage, shaped_dataSetMessage.run_iff]
  constructor
  · rintro ⟨x, tail, _, h, hx⟩
    exact ⟨x, tail, h, hx⟩
  · rintro ⟨x, tail, h, hx⟩
    exact ⟨x, tail, (), h, hx⟩

theorem readSized_eq_ok {size : Nat} {c c' : Cursor} {dsm : DataSetMessage} :
    readSized size c = .ok (dsm, c') ↔
      size ≤ c.rest.length ∧ decodeDataSetMessage (c.rest.take size) = .ok dsm ∧
        c' = ⟨c.position + size, c.rest.drop size⟩ := by
  rw [readSized, ByteCodec.Reader.bind_apply, readBytes, ByteCodec.Reader.take]
  by_cases hlen : c.rest.length < size
  · rw [if_pos hlen]
    constructor
    · rintro ⟨⟩
    · intro h
      omega
  · rw [if_neg hlen]
    dsimp only
    rcases decodeDataSetMessage (c.rest.take size) with e | dsm'
    · constructor
      · rintro ⟨⟩
      · rintro ⟨-, ⟨⟩, -⟩
    · constructor
      · rintro ⟨⟩
        exact ⟨by omega, rfl, rfl⟩
      · rintro ⟨-, h, rfl⟩
        cases h
        rfl

/-- Each message fills the buffer announced for it, or leaves bytes in it. -/
theorem readSizedAll_iff (sizes : List Nat) (c : Cursor) :
    (∃ p, readSizedAll sizes c = .ok p) ↔
      ∃ (buffers : List Bytes) (tail : Bytes), c.rest = buffers.flatten ++ tail ∧
        buffers.map List.length = sizes ∧
        ∀ b ∈ buffers, Wire.Begins Wire.dataSetMessage b := by
  induction sizes generalizing c with
  | nil =>
      refine iff_of_true ⟨_, rfl⟩ ⟨[], c.rest, rfl, rfl, by simp⟩
  | cons size sizes ih =>
      constructor
      · rintro ⟨⟨dsms, c'⟩, h⟩
        rw [readSizedAll, ByteCodec.Reader.bind_apply] at h
        rcases hfirst : readSized size c with e | ⟨dsm, d⟩ <;> rw [hfirst] at h
        · cases h
        · obtain ⟨hle, hdecode, rfl⟩ := readSized_eq_ok.mp hfirst
          dsimp only at h
          rw [ByteCodec.Reader.bind_apply] at h
          rcases hrest : readSizedAll sizes ⟨c.position + size, c.rest.drop size⟩ with e | p <;>
            rw [hrest] at h
          · cases h
          · obtain ⟨buffers, tail, hsplit, hlen, hall⟩ := (ih _).mp ⟨p, hrest⟩
            refine ⟨c.rest.take size :: buffers, tail, ?_, ?_, ?_⟩
            · rw [List.flatten_cons, List.append_assoc, ← hsplit, List.take_append_drop]
            · rw [List.map_cons, hlen, List.length_take, Nat.min_eq_left hle]
            · exact List.forall_mem_cons.mpr
                ⟨(decodeDataSetMessage_iff _).mp ⟨dsm, hdecode⟩, hall⟩
      · rintro ⟨_ | ⟨b, buffers⟩, tail, hsplit, hlen, hall⟩
        · cases hlen
        · simp only [List.map_cons, List.cons.injEq] at hlen
          obtain ⟨rfl, hlen⟩ := hlen
          obtain ⟨hfirst, hall⟩ := List.forall_mem_cons.mp hall
          obtain ⟨dsm, hdecode⟩ := (decodeDataSetMessage_iff b).mpr hfirst
          rw [List.flatten_cons, List.append_assoc] at hsplit
          have hread : readSized b.length c =
              .ok (dsm, ⟨c.position + b.length, buffers.flatten ++ tail⟩) := by
            rw [readSized_eq_ok, hsplit, List.take_left, List.drop_left, List.length_append]
            exact ⟨by omega, hdecode, rfl⟩
          obtain ⟨⟨dsms, c'⟩, hrest⟩ := (ih ⟨c.position + b.length, buffers.flatten ++ tail⟩).mpr
            ⟨buffers, tail, rfl, hlen, hall⟩
          refine ⟨(dsm :: dsms, c'), ?_⟩
          rw [readSizedAll, ByteCodec.Reader.bind_apply, hread]
          dsimp only
          rw [ByteCodec.Reader.bind_apply, hrest]
          rfl

theorem readLast_iff (c : Cursor) :
    (∃ p, readLast c = .ok p) ↔ c.rest = [] ∨ Wire.Begins Wire.dataSetMessage c.rest := by
  have hmessage : (∃ p, readDataSetMessage c = .ok p) ↔ Wire.Begins Wire.dataSetMessage c.rest := by
    constructor
    · rintro ⟨⟨dsm, c'⟩, h⟩
      obtain ⟨x, hrest, hx⟩ := shaped_dataSetMessage.only c dsm c' h
      exact ⟨x, c'.rest, hrest, hx⟩
    · rintro ⟨x, tail, hrest, hx⟩
      obtain ⟨dsm, -, hread⟩ := shaped_dataSetMessage.accepts x () hx
      have h := hread.exact c.position tail
      rw [← hrest] at h
      exact ⟨_, h⟩
  have hrun : readLast c = if c.rest.length > 0
      then (readDataSetMessage >>= fun dsm => (pure [dsm] : Reader _)) c else .ok ([], c) := by
    rw [readLast, ByteCodec.Reader.bind_apply]
    simp only [ByteCodec.Reader.remaining]
    split <;> rfl
  rw [hrun]
  by_cases hempty : c.rest = []
  · rw [if_neg (by simp [hempty])]
    exact iff_of_true ⟨_, rfl⟩ (Or.inl hempty)
  · rw [if_pos (List.length_pos_iff.mpr hempty), ByteCodec.Reader.bind_apply]
    rw [or_iff_right hempty, ← hmessage]
    rcases readDataSetMessage c with e | ⟨dsm, c'⟩
    · simp
    · exact iff_of_true ⟨_, rfl⟩ ⟨_, rfl⟩

theorem readPayload_iff (count : Nat) (c : Cursor) :
    (∃ p, readPayload count c = .ok p) ↔
      if count > 1 then
        ∃ (array : Bytes) (buffers : List Bytes) (tail : Bytes),
          c.rest = array ++ buffers.flatten ++ tail ∧
          Wire.sizes count array (buffers.map List.length) ∧
          ∀ b ∈ buffers, Wire.Begins Wire.dataSetMessage b
      else c.rest = [] ∨ Wire.Begins Wire.dataSetMessage c.rest := by
  unfold readPayload
  split
  next hcount =>
    constructor
    · rintro ⟨p, h⟩
      rw [ByteCodec.Reader.bind_apply] at h
      rcases hsizes : ByteCodec.Reader.many (readUInt 2) count c with e | ⟨sizes, d⟩ <;>
        rw [hsizes] at h
      · cases h
      · obtain ⟨array, harray, hshape⟩ := (recognizes_sizes count).only c sizes d hsizes
        obtain ⟨buffers, tail, hsplit, hlen, hall⟩ := (readSizedAll_iff sizes d).mp ⟨p, h⟩
        refine ⟨array, buffers, tail, ?_, ?_, hall⟩
        · rw [harray, hsplit, List.append_assoc]
        · rw [hlen]
          exact hshape
    · rintro ⟨array, buffers, tail, hrest, hshape, hall⟩
      obtain ⟨sizes, hsizes, hread⟩ := (recognizes_sizes count).accepts array _ hshape
      change sizes = buffers.map List.length at hsizes
      have harray := hread.exact c.position (buffers.flatten ++ tail)
      rw [← List.append_assoc, ← hrest] at harray
      obtain ⟨p, hp⟩ := (readSizedAll_iff sizes
        ⟨c.position + array.length, buffers.flatten ++ tail⟩).mpr
          ⟨buffers, tail, rfl, hsizes.symm, hall⟩
      exact ⟨p, by rw [ByteCodec.Reader.bind_apply, harray]; exact hp⟩
  next => exact readLast_iff c

/-- The decoder accepts exactly the buffers that begin with a complete message. -/
theorem decodeNetworkMessage_iff (buffer : Bytes) :
    (∃ nm, decodeNetworkMessage buffer = .ok nm) ↔ Wire.Message buffer := by
  have hrun : (∃ nm, decodeNetworkMessage buffer = .ok nm) ↔
      ∃ p, readNetworkMessage ⟨0, buffer⟩ = .ok p := by
    unfold decodeNetworkMessage ByteCodec.Reader.run
    rcases readNetworkMessage ⟨0, buffer⟩ with e | ⟨nm, c⟩
    · simp
    · exact iff_of_true ⟨_, rfl⟩ ⟨_, rfl⟩
  have hbody : ∀ nm extFlags2 c, (∃ p, (if extFlags2.testBit 1
      then ByteCodec.Reader.fail fun _ => .decodeNotYetImplemented
      else if extFlags2.testBit 0 then do
        let chunk ← readChunk
        return { nm with chunk := some chunk, payload := [] }
      else do
        let payload ← readPayload (dataSetWriterIds nm).length
        return { nm with payload := payload } : Reader NetworkMessage) c = .ok p) ↔
      Wire.Payload extFlags2 (dataSetWriterIds nm).length c.rest := by
    intro nm extFlags2 c
    unfold Wire.Payload
    split
    · exact iff_of_false (by rintro ⟨p, ⟨⟩⟩) id
    split
    · rw [ByteCodec.Reader.bind_apply]
      constructor
      · rintro ⟨p, h⟩
        rcases hchunk : readChunk c with e | ⟨chunk, c'⟩ <;> rw [hchunk] at h
        · cases h
        · obtain ⟨x, hrest, hx⟩ := shaped_chunk.only c chunk c' hchunk
          exact ⟨x, c'.rest, hrest, hx⟩
      · rintro ⟨x, tail, hrest, hx⟩
        obtain ⟨chunk, -, hread⟩ := shaped_chunk.accepts x () hx
        have h := hread.exact c.position tail
        rw [← hrest] at h
        rw [h]
        exact ⟨_, rfl⟩
    · rw [← readPayload_iff, ByteCodec.Reader.bind_apply]
      rcases readPayload (dataSetWriterIds nm).length c with e | ⟨payload, c'⟩
      · simp
      · exact iff_of_true ⟨_, rfl⟩ ⟨_, rfl⟩
  rw [hrun]
  constructor
  · rintro ⟨p, h⟩
    rw [readNetworkMessage, ByteCodec.Reader.bind_apply] at h
    rcases hheader : readHeader ⟨0, buffer⟩ with e | ⟨⟨nm, extFlags2⟩, c⟩ <;> rw [hheader] at h
    · cases h
    · obtain ⟨head, hrest, hhead⟩ := recognizes_header.only _ _ _ hheader
      exact ⟨head, c.rest, extFlags2, _, hrest, hhead, (hbody nm extFlags2 c).mp ⟨p, h⟩⟩
  · rintro ⟨head, rest, extFlags2, count, rfl, hhead, hpayload⟩
    obtain ⟨⟨nm, extFlags2'⟩, hview, hread⟩ := recognizes_header.accepts head _ hhead
    cases hview
    rw [readNetworkMessage, ByteCodec.Reader.bind_apply, hread.exact 0 rest]
    exact (hbody nm _ _).mpr hpayload

end OpcUaSuite.Uadp
