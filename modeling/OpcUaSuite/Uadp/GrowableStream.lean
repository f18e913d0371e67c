import OpcUaSuite.Lib.GrowableBuffer
import OpcUaSuite.Uadp.Variant

/-!
# The growable stream

`BinaryStream` in write mode as it runs: an uninitialised buffer, a cursor and
a larger buffer whenever a write finds no room, with the scalar and the Variant
writers that reach into the raw buffer themselves. An error leaves the stream
as the writes before it did. Every writer appends its parts, so what the stream
hands out is the concatenation of the encodings and nothing else.
-/

namespace OpcUaSuite.Uadp.BinaryStream

open Js ByteCodec PubSub GrowableBuffer

abbrev Write := Action UadpError UInt8 Unit

/-- `Math.max(this._buf.length * 2, this._cursor + n)` -/
def grownSize (length need : Nat) : Nat := max (length * 2) need

theorem grownSize_suffices : Suffices grownSize := fun length need =>
  Nat.le_max_right (length * 2) need

/-- The constructor in write mode; a size of zero is replaced like a missing one. -/
def create (memory : Memory UInt8) (size : Nat) : Stream UInt8 :=
  Stream.alloc memory (if size = 0 then 1500 else size)

/-- `toBuffer` -/
def toBuffer (s : Stream UInt8) : Bytes := s.buf.take s.cursor

variable (host : Host) (memory : Memory UInt8)

/-! ## Writers -/

def ensureWrite (n : Nat) : Write := GrowableBuffer.ensureWrite memory grownSize n

/-- `_ensureWrite(n)`, a write method of the raw buffer at the cursor, and the
move of the cursor by `n`. -/
def writeFixed (n : Nat) (encoding : Writer) : Write := do
  ensureWrite memory n
  store (.runtime .rangeError) encoding
  advance n

def writeUInt8 (v : JsValue) : Write := writeFixed memory 1 (Uadp.writeUInt8 host v)

def writeUInt16LE (v : JsValue) : Write := writeFixed memory 2 (Uadp.writeUInt16LE host v)

def writeUInt32LE (v : JsValue) : Write := writeFixed memory 4 (Uadp.writeUInt32LE host v)

def writeUInt64LE (v : JsValue) : Write := writeFixed memory 8 (Uadp.writeUInt64LE host v)

def writeInt64LE (v : JsValue) : Write := writeFixed memory 8 (Uadp.writeInt64LE host v)

/-- An unsigned integer writer of `k` bytes on a number the source computes. -/
def putUInt (k n : Nat) : Write := writeFixed memory k (Uadp.putUInt k n)

/-- The copy of a buffer. -/
def writeBuffer (bytes : Bytes) : Write := do
  ensureWrite memory bytes.length
  copy bytes
  advance bytes.length

/-- What `_ensureWrite` makes of the length of a value that is not a buffer. -/
abbrev Claimed := JsValue → Nat

variable (claimed : Claimed)

/-- Only a buffer can be copied, after room was made for its length. -/
def writeBytes : JsValue → Write
  | .buffer bytes => writeBuffer memory bytes
  | buf => do
      ensureWrite memory (claimed buf)
      throw (.runtime .typeError)

def writeString (s : JsValue) : Write :=
  if s.isNullish then putUInt memory 4 nullLength
  else
    match host.bufferUtf8 s with
    | .error e => throw (.runtime e)
    | .ok b => do
        putUInt memory 4 b.length
        writeBuffer memory b

def writeHexGroup (k : Nat) (s : JsString) : Write :=
  writeFixed memory k (Uadp.writeHexGroup k s)

def writeGuid : JsValue → Write
  | .str uuidStr =>
      match splitOn 45 uuidStr with
      | [p0, p1, p2, p3, p4] => do
          writeHexGroup memory 4 p0
          writeHexGroup memory 2 p1
          writeHexGroup memory 2 p2
          writeBuffer memory (bufferHex (p3 ++ p4))
      | _ => throw (.encodeInvalidGuid uuidStr)
  | _ => throw (.runtime .typeError)

def writeDateTime : JsValue → Write
  | .date (some ms) =>
      writeFixed memory 8 (writeBigUInt64 ((ms + filetimeEpochOffsetMs) * datetimeTicksPerMs))
  | .date none => throw (.runtime .rangeError)
  | _ => throw (.runtime .typeError)

/-- A write to the raw buffer behind a direct `_ensureWrite`. -/
inductive RawWrite
  | int8 (v : JsValue)
  | int16LE (v : JsValue)
  | int32LE (v : JsValue)
  | floatLE (v : JsValue)
  | doubleLE (v : JsValue)
  | length (n : Nat)

namespace RawWrite

def size : RawWrite → Nat
  | .int8 _ => 1
  | .int16LE _ => 2
  | .int32LE _ => 4
  | .floatLE _ => 4
  | .doubleLE _ => 8
  | .length _ => 4

def encoding : RawWrite → Writer
  | .int8 v => Uadp.writeInt8 host v
  | .int16LE v => Uadp.writeInt16LE host v
  | .int32LE v => Uadp.writeInt32LE host v
  | .floatLE v => Uadp.writeFloatLE host v
  | .doubleLE v => Uadp.writeDoubleLE host v
  | .length n => Uadp.writeLength n

end RawWrite

def writeRaw (w : RawWrite) : Write := writeFixed memory w.size (w.encoding host)

def writeByteString (v : JsValue) : Write :=
  if v.isNullish then putUInt memory 4 nullLength
  else do
    writeUInt32LE host memory (lengthOf v)
    writeBytes memory claimed v

/-- `value >>> 0` and its write. -/
def writeStatusCode (v : JsValue) : Write :=
  match host.toUint32 v with
  | .error e => throw (.runtime e)
  | .ok n => putUInt memory 4 n

/-- One case of `_writeVariantScalar`. -/
def writeScalar : BuiltInType → JsValue → Write
  | .Boolean, v => putUInt memory 1 (if v.truthy then 1 else 0)
  | .SByte, v => writeRaw host memory (.int8 v)
  | .Byte, v => writeUInt8 host memory v
  | .Int16, v => writeRaw host memory (.int16LE v)
  | .UInt16, v => writeUInt16LE host memory v
  | .Int32, v => writeRaw host memory (.int32LE v)
  | .UInt32, v => writeUInt32LE host memory v
  | .Int64, v => writeInt64LE host memory v
  | .UInt64, v => writeUInt64LE host memory v
  | .Float, v => writeRaw host memory (.floatLE v)
  | .Double, v => writeRaw host memory (.doubleLE v)
  | .String, v => writeString host memory v
  | .DateTime, v => writeDateTime memory v
  | .Guid, v => writeGuid memory v
  | .ByteString, v => writeByteString host memory claimed v
  | .StatusCode, v => writeStatusCode host memory v

/-- `_writeVariantScalar` -/
def writeVariantScalar (builtIn : BuiltIn) (value : JsValue) : Write :=
  match builtIn with
  | .number n =>
      match BuiltInType.ofOrdinal? n with
      | some t => writeScalar host memory claimed t value
      | none => throw (.variantUnsupportedBuiltinType (some n))
  | _ => throw (.variantUnsupportedBuiltinType none)

/-- The part of a Variant after its encoding byte. -/
def writeVariantValue (builtIn : BuiltIn) : JsValue → Write
  | .array items => do
      writeRaw host memory (.length items.length)
      items.forM (writeVariantScalar host memory claimed builtIn)
  | value => writeVariantScalar host memory claimed builtIn value

/-- `_writeVariant` of a value that is neither null nor undefined. -/
def writeVariantBody (dataType : DataTypeRef) (value : JsValue) : Write :=
  match builtInOf dataType with
  | .missing => throw (.variantUnknownType (some dataType))
  | builtIn => do
      putUInt memory 1 (builtIn.bits ||| Flags.bit 6 (isArray value))
      writeVariantValue host memory claimed builtIn value

/-- `_writeVariant` -/
def writeVariant : Option Variant → Write
  | none => putUInt memory 1 0
  | some v => writeVariantBody host memory claimed v.dataType v.value

/-- One call of a writer. -/
inductive StreamWrite
  | uint8 (v : JsValue)
  | uint16LE (v : JsValue)
  | uint32LE (v : JsValue)
  | uint64LE (v : JsValue)
  | int64LE (v : JsValue)
  | bytes (buf : JsValue)
  | string (s : JsValue)
  | guid (uuidStr : JsValue)
  | dateTime (date : JsValue)
  | raw (w : RawWrite)
  | scalar (builtIn : BuiltIn) (value : JsValue)
  | variant (v : Option Variant)

/-- The call on the stream. -/
def write : StreamWrite → Write
  | .uint8 v => writeUInt8 host memory v
  | .uint16LE v => writeUInt16LE host memory v
  | .uint32LE v => writeUInt32LE host memory v
  | .uint64LE v => writeUInt64LE host memory v
  | .int64LE v => writeInt64LE host memory v
  | .bytes buf => writeBytes memory claimed buf
  | .string s => writeString host memory s
  | .guid uuidStr => writeGuid memory uuidStr
  | .dateTime date => writeDateTime memory date
  | .raw w => writeRaw host memory w
  | .scalar builtIn value => writeVariantScalar host memory claimed builtIn value
  | .variant v => writeVariant host memory claimed v

/-- A sequence of calls; the first error ends it. -/
def writeAll (calls : List StreamWrite) : Write := calls.forM (write host memory claimed)

/-! ## Encodings -/

/-- What a call is to append when nothing is refused. -/
def StreamWrite.encoding : StreamWrite → Writer
  | .uint8 v => Uadp.writeUInt8 host v
  | .uint16LE v => Uadp.writeUInt16LE host v
  | .uint32LE v => Uadp.writeUInt32LE host v
  | .uint64LE v => Uadp.writeUInt64LE host v
  | .int64LE v => Uadp.writeInt64LE host v
  | .bytes (.buffer bs) => .ok bs
  | .bytes _ => .error (.runtime .typeError)
  | .string s => Uadp.writeString host s
  | .guid uuidStr => Uadp.writeGuid uuidStr
  | .dateTime date => Uadp.writeDateTime date
  | .raw w => w.encoding host
  | .scalar builtIn value => Uadp.writeVariantScalar host builtIn value
  | .variant v => Uadp.writeVariant host v

/-- The parts of a writer with a length in front, in the order they are written. -/
def bytesParts : JsValue → List Writer
  | .buffer bytes => [.ok bytes]
  | _ => [.error (.runtime .typeError)]

def stringParts (s : JsValue) : List Writer :=
  if s.isNullish then [Uadp.putUInt 4 nullLength]
  else
    match host.bufferUtf8 s with
    | .error e => [.error (.runtime e)]
    | .ok b => [Uadp.putUInt 4 b.length, .ok b]

def guidParts : JsValue → List Writer
  | .str uuidStr =>
      match splitOn 45 uuidStr with
      | [p0, p1, p2, p3, p4] =>
          [Uadp.writeHexGroup 4 p0, Uadp.writeHexGroup 2 p1, Uadp.writeHexGroup 2 p2,
            .ok (bufferHex (p3 ++ p4))]
      | _ => [.error (.encodeInvalidGuid uuidStr)]
  | _ => [.error (.runtime .typeError)]

def byteStringParts (v : JsValue) : List Writer :=
  if v.isNullish then [Uadp.putUInt 4 nullLength]
  else Uadp.writeUInt32LE host (lengthOf v) :: bytesParts v

def scalarParts : BuiltInType → JsValue → List Writer
  | .String, v => stringParts host v
  | .Guid, v => guidParts v
  | .ByteString, v => byteStringParts host v
  | t, v => [Uadp.writeScalar host t v]

def variantScalarParts (builtIn : BuiltIn) (value : JsValue) : List Writer :=
  match builtIn with
  | .number n =>
      match BuiltInType.ofOrdinal? n with
      | some t => scalarParts host t value
      | none => [.error (.variantUnsupportedBuiltinType (some n))]
  | _ => [.error (.variantUnsupportedBuiltinType none)]

def variantValueParts (builtIn : BuiltIn) : JsValue → List Writer
  | .array items =>
      Uadp.writeLength items.length :: items.flatMap (variantScalarParts host builtIn)
  | value => variantScalarParts host builtIn value

def variantParts : Option Variant → List Writer
  | none => [Uadp.putUInt 1 0]
  | some v =>
      match builtInOf v.dataType with
      | .missing => [.error (.variantUnknownType (some v.dataType))]
      | builtIn =>
          Uadp.putUInt 1 (builtIn.bits ||| Flags.bit 6 (isArray v.value)) ::
            variantValueParts host builtIn v.value

/-- The parts a call appends one after another; an error leaves the ones before it. -/
def StreamWrite.parts : StreamWrite → List Writer
  | .bytes buf => bytesParts buf
  | .string s => stringParts host s
  | .guid uuidStr => guidParts uuidStr
  | .scalar builtIn value => variantScalarParts host builtIn value
  | .variant v => variantParts host v
  | call => [call.encoding host]

/-! ## The parts make up the encodings -/

/-- The bytes of parts that were all appended. -/
theorem cat_eq_appended (ws : List Writer) :
    cat ws = (appended ws).1.map fun _ => (appended ws).2 := by
  induction ws with
  | nil => rfl
  | cons w ws ih =>
      cases w with
      | error e => rfl
      | ok bs =>
          rw [cat, ih, appended]
          cases (appended ws).1 <;> rfl

section Parts

variable {host}

theorem cat_bytesParts (buf : JsValue) :
    cat (bytesParts buf) = (StreamWrite.bytes buf).encoding host := by
  cases buf with
  | buffer bs => exact cat_singleton _
  | _ => rfl

theorem cat_stringParts (s : JsValue) : cat (stringParts host s) = Uadp.writeString host s := by
  rw [stringParts, Uadp.writeString]
  split
  · exact cat_singleton _
  · cases host.bufferUtf8 s <;> rfl

theorem cat_guidParts (uuidStr : JsValue) : cat (guidParts uuidStr) = Uadp.writeGuid uuidStr := by
  cases uuidStr with
  | str s =>
      simp only [guidParts, Uadp.writeGuid]
      -- five groups, or any other number of them
      rcases splitOn 45 s with _ | ⟨_, _ | ⟨_, _ | ⟨_, _ | ⟨_, _ | ⟨_, _ | _⟩⟩⟩⟩⟩ <;> rfl
  | _ => rfl

theorem cat_byteStringParts (v : JsValue) :
    cat (byteStringParts host v) = Uadp.writeByteString host v := by
  cases v with
  | undefined => exact cat_singleton _
  | null => exact cat_singleton _
  | _ => rfl

theorem cat_scalarParts (t : BuiltInType) (v : JsValue) :
    cat (scalarParts host t v) = Uadp.writeScalar host t v := by
  cases t with
  | String => exact cat_stringParts v
  | Guid => exact cat_guidParts v
  | ByteString => exact cat_byteStringParts v
  | _ => exact cat_singleton _

theorem cat_variantScalarParts (builtIn : BuiltIn) (value : JsValue) :
    cat (variantScalarParts host builtIn value) = Uadp.writeVariantScalar host builtIn value := by
  cases builtIn with
  | number n =>
      simp only [variantScalarParts, Uadp.writeVariantScalar]
      cases BuiltInType.ofOrdinal? n with
      | some t => exact cat_scalarParts t value
      | none => rfl
  | _ => rfl

theorem cat_variantValueParts (builtIn : BuiltIn) (value : JsValue) :
    cat (variantValueParts host builtIn value) = Uadp.writeVariantValue host builtIn value := by
  cases value with
  | array items =>
      change cat ([Uadp.writeLength items.length] ++
          items.flatMap (variantScalarParts host builtIn)) =
        cat [_, cat (items.map (Uadp.writeVariantScalar host builtIn))]
      rw [cat_append, cat_singleton, cat_flatMap items (cat_variantScalarParts builtIn)]
  | _ => exact cat_variantScalarParts builtIn _

theorem cat_variantParts (v : Option Variant) :
    cat (variantParts host v) = Uadp.writeVariant host v := by
  cases v with
  | none => exact cat_singleton _
  | some v =>
      rw [variantParts, Uadp.writeVariant, Uadp.writeVariantBody]
      cases builtInOf v.dataType with
      | missing => rfl
      | _ =>
          change cat ([Uadp.putUInt 1 _] ++ variantValueParts host _ v.value) =
            cat [_, Uadp.writeVariantValue host _ v.value]
          rw [cat_append, cat_singleton, cat_variantValueParts]

/-- The parts of a call make up its encoding. -/
theorem cat_parts (call : StreamWrite) : cat (call.parts host) = call.encoding host := by
  cases call with
  | bytes buf => exact cat_bytesParts buf
  | string s => exact cat_stringParts s
  | guid uuidStr => exact cat_guidParts uuidStr
  | scalar builtIn value => exact cat_variantScalarParts builtIn value
  | variant v => exact cat_variantParts v
  | _ => exact cat_singleton _

end Parts

/-! ## Every writer appends its parts -/

/-- An encoding of a fixed length. -/
def HasSize (n : Nat) (w : Writer) : Prop := ∀ bs, w = .ok bs → bs.length = n

theorem hasSize_error (n : Nat) (e : UadpError) : HasSize n (.error e) := nofun

theorem hasSize_ok {n : Nat} {bs : Bytes} (h : bs.length = n) : HasSize n (.ok bs) := by
  intro cs hcs
  cases hcs
  exact h

theorem hasSize_bind {α : Type} {n : Nat} {x : Except UadpError α} {f : α → Writer}
    (h : ∀ a, HasSize n (f a)) : HasSize n (x >>= f) := by
  intro bs hbs
  obtain ⟨a, -, ha⟩ := bind_eq_ok.mp hbs
  exact h a bs ha

theorem hasSize_putUInt (k n : Nat) : HasSize k (Uadp.putUInt k n) := by
  rw [Uadp.putUInt]
  split
  · exact hasSize_ok (length_le k n)
  · exact hasSize_error k _

theorem hasSize_writeInt (k : Nat) (lo hi : Int) (v : JsValue) :
    HasSize k (writeInt host k lo hi v) := by
  apply hasSize_bind
  intro d
  split
  · exact hasSize_error k _
  · exact hasSize_ok (length_le k _)

theorem hasSize_writeBigUInt64 (i : Int) : HasSize 8 (writeBigUInt64 i) := by
  rw [writeBigUInt64]
  split
  · exact hasSize_ok (length_le 8 _)
  · exact hasSize_error 8 _

theorem hasSize_writeInt64LE (v : JsValue) : HasSize 8 (Uadp.writeInt64LE host v) := by
  apply hasSize_bind
  intro i
  split
  · exact hasSize_ok (length_le 8 _)
  · exact hasSize_error 8 _

theorem hasSize_raw (w : RawWrite) : HasSize w.size (w.encoding host) := by
  cases w with
  | int8 v => exact hasSize_writeInt host 1 _ _ v
  | int16LE v => exact hasSize_writeInt host 2 _ _ v
  | int32LE v => exact hasSize_writeInt host 4 _ _ v
  | floatLE v => exact hasSize_bind fun d => hasSize_ok (length_le 4 _)
  | doubleLE v => exact hasSize_bind fun d => hasSize_ok (length_le 8 _)
  | length n =>
      change HasSize 4 (Uadp.writeLength n)
      rw [Uadp.writeLength]
      split
      · exact hasSize_putUInt 4 n
      · exact hasSize_error 4 _

section Appending

variable {host memory claimed}

theorem appends_writeFixed {n : Nat} {w : Writer} (hw : HasSize n w) :
    Appends (writeFixed memory n w) [w] :=
  Appends.put grownSize_suffices hw

theorem appends_putUInt (k n : Nat) : Appends (putUInt memory k n) [Uadp.putUInt k n] :=
  appends_writeFixed (hasSize_putUInt k n)

theorem appends_writeBuffer (bs : Bytes) : Appends (writeBuffer memory bs) [.ok bs] :=
  Appends.putCopy grownSize_suffices bs

theorem appends_writeBytes (buf : JsValue) :
    Appends (writeBytes memory claimed buf) (bytesParts buf) := by
  cases buf with
  | buffer bs => exact appends_writeBuffer bs
  | _ =>
      -- the room made before the TypeError changes nothing that was written
      exact Appends.after_ensureWrite grownSize_suffices _ fun s hs _ => Appends.refuse _ s hs

theorem appends_writeString (s : JsValue) :
    Appends (writeString host memory s) (stringParts host s) := by
  rw [writeString, stringParts]
  split
  · exact appends_putUInt 4 nullLength
  · cases host.bufferUtf8 s with
    | error e => exact Appends.refuse _
    | ok b => exact (appends_putUInt 4 b.length).seq (appends_writeBuffer b)

theorem appends_writeGuid (uuidStr : JsValue) :
    Appends (writeGuid memory uuidStr) (guidParts uuidStr) := by
  cases uuidStr with
  | str s =>
      rw [writeGuid, guidParts]
      split
      · exact (appends_writeFixed (hasSize_putUInt 4 _)).seq
          ((appends_writeFixed (hasSize_putUInt 2 _)).seq
            ((appends_writeFixed (hasSize_putUInt 2 _)).seq (appends_writeBuffer _)))
      · exact Appends.refuse _
  | _ => exact Appends.refuse _

theorem appends_writeDateTime (date : JsValue) :
    Appends (writeDateTime memory date) [Uadp.writeDateTime date] := by
  cases date with
  | date time =>
      cases time with
      | some ms => exact appends_writeFixed (hasSize_writeBigUInt64 _)
      | none => exact Appends.refuse _
  | _ => exact Appends.refuse _

theorem appends_writeByteString (v : JsValue) :
    Appends (writeByteString host memory claimed v) (byteStringParts host v) := by
  rw [writeByteString, byteStringParts]
  split
  · exact appends_putUInt 4 nullLength
  · exact (appends_writeFixed (hasSize_writeInt host 4 _ _ _)).seq (appends_writeBytes v)

theorem appends_writeStatusCode (v : JsValue) :
    Appends (writeStatusCode host memory v) [Uadp.writeStatusCode host v] := by
  rw [writeStatusCode, Uadp.writeStatusCode]
  cases host.toUint32 v with
  | error e => exact Appends.refuse _
  | ok n => exact appends_putUInt 4 n

theorem appends_writeScalar (t : BuiltInType) (v : JsValue) :
    Appends (writeScalar host memory claimed t v) (scalarParts host t v) := by
  cases t with
  | Boolean => exact appends_putUInt 1 _
  | SByte => exact appends_writeFixed (hasSize_raw host (.int8 v))
  | Byte => exact appends_writeFixed (hasSize_writeInt host 1 _ _ v)
  | Int16 => exact appends_writeFixed (hasSize_raw host (.int16LE v))
  | UInt16 => exact appends_writeFixed (hasSize_writeInt host 2 _ _ v)
  | Int32 => exact appends_writeFixed (hasSize_raw host (.int32LE v))
  | UInt32 => exact appends_writeFixed (hasSize_writeInt host 4 _ _ v)
  | Int64 => exact appends_writeFixed (hasSize_writeInt64LE host v)
  | UInt64 => exact appends_writeFixed (hasSize_bind fun i => hasSize_writeBigUInt64 i)
  | Float => exact appends_writeFixed (hasSize_raw host (.floatLE v))
  | Double => exact appends_writeFixed (hasSize_raw host (.doubleLE v))
  | String => exact appends_writeString v
  | DateTime => exact appends_writeDateTime v
  | Guid => exact appends_writeGuid v
  | ByteString => exact appends_writeByteString v
  | StatusCode => exact appends_writeStatusCode v

theorem appends_writeVariantScalar (builtIn : BuiltIn) (value : JsValue) :
    Appends (writeVariantScalar host memory claimed builtIn value)
      (variantScalarParts host builtIn value) := by
  cases builtIn with
  | number n =>
      rw [writeVariantScalar, variantScalarParts]
      cases BuiltInType.ofOrdinal? n with
      | some t => exact appends_writeScalar t value
      | none => exact Appends.refuse _
  | _ => exact Appends.refuse _

theorem appends_writeVariantValue (builtIn : BuiltIn) (value : JsValue) :
    Appends (writeVariantValue host memory claimed builtIn value)
      (variantValueParts host builtIn value) := by
  cases value with
  | array items =>
      exact (appends_writeFixed (hasSize_raw host (.length items.length))).seq
        (Appends.loop fun item _ => appends_writeVariantScalar builtIn item)
  | _ => exact appends_writeVariantScalar builtIn _

theorem appends_writeVariant (v : Option Variant) :
    Appends (writeVariant host memory claimed v) (variantParts host v) := by
  cases v with
  | none => exact appends_putUInt 1 0
  | some v =>
      rw [writeVariant, writeVariantBody, variantParts]
      cases builtInOf v.dataType with
      | missing => exact Appends.refuse _
      | _ => exact (appends_putUInt 1 _).seq (appends_writeVariantValue _ v.value)

theorem appends_write (call : StreamWrite) :
    Appends (write host memory claimed call) (call.parts host) := by
  cases call with
  | uint8 v => exact appends_writeFixed (hasSize_writeInt host 1 _ _ v)
  | uint16LE v => exact appends_writeFixed (hasSize_writeInt host 2 _ _ v)
  | uint32LE v => exact appends_writeFixed (hasSize_writeInt host 4 _ _ v)
  | uint64LE v => exact appends_writeFixed (hasSize_bind fun i => hasSize_writeBigUInt64 i)
  | int64LE v => exact appends_writeFixed (hasSize_writeInt64LE host v)
  | bytes buf => exact appends_writeBytes buf
  | string s => exact appends_writeString s
  | guid uuidStr => exact appends_writeGuid uuidStr
  | dateTime date => exact appends_writeDateTime date
  | raw w => exact appends_writeFixed (hasSize_raw host w)
  | scalar builtIn value => exact appends_writeVariantScalar builtIn value
  | variant v => exact appends_writeVariant v

end Appending

/-- The stream hands out the parts appended one after another up to the first
that is refused. With no refusal these are the encodings of the calls. Neither
the size the stream starts with, nor what its memory held, nor where it grew
has a part in it. -/
theorem toBuffer_writeAll (size : Nat) (calls : List StreamWrite) :
    let parts := calls.flatMap (StreamWrite.parts host)
    let result := exec (writeAll host memory claimed calls) (create memory size)
    result.1 = (appended parts).1 ∧ toBuffer result.2 = (appended parts).2 ∧
      (cat (calls.map (StreamWrite.encoding host)) =
        result.1.map fun _ => toBuffer result.2) ∧
      ∀ (memory' : Memory UInt8) (claimed' : Claimed) (size' : Nat),
        let result' := exec (writeAll host memory' claimed' calls) (create memory' size')
        result'.1 = result.1 ∧ toBuffer result'.2 = toBuffer result.2 := by
  have hrun : ∀ (memory : Memory UInt8) (claimed : Claimed) (size : Nat),
      let result := exec (writeAll host memory claimed calls) (create memory size)
      result.1 = (appended (calls.flatMap (StreamWrite.parts host))).1 ∧
        toBuffer result.2 = (appended (calls.flatMap (StreamWrite.parts host))).2 := by
    intro memory claimed size
    obtain ⟨hout, -, hcontents⟩ :=
      Appends.loop (fun call _ => @appends_write host memory claimed call)
        (create memory size) (Stream.alloc_sound memory _)
    exact ⟨hout, hcontents⟩
  obtain ⟨hout, hbuffer⟩ := hrun memory claimed size
  refine ⟨hout, hbuffer, ?_, ?_⟩
  · rw [hout, hbuffer, ← cat_eq_appended, cat_flatMap calls cat_parts]
  · intro memory' claimed' size'
    obtain ⟨hout', hbuffer'⟩ := hrun memory' claimed' size'
    exact ⟨hout'.trans hout.symm, hbuffer'.trans hbuffer.symm⟩

end OpcUaSuite.Uadp.BinaryStream
