import OpcUaSuite.Js.Numeral
import OpcUaSuite.Lib.Base64
import OpcUaSuite.Lib.BinaryFloat

/-!
# JavaScript values

The values a flow can hand to the encoders: primitives, dates, buffers, arrays
and plain objects. Conversions that depend on a text (the number a string
spells, the primitive an object turns into) are fields of `Host`; every result
below holds for each host. Objects with accessors or a prototype of their own
are not represented.
-/

namespace OpcUaSuite.Js

open BinaryFloat ByteCodec

def binary64 : Format := ⟨52, 11, by decide, by decide, by decide⟩

def binary32 : Format := ⟨23, 8, by decide, by decide, by decide⟩

/-- A JavaScript number. -/
abbrev Double := Value binary64

abbrev Single := Value binary32

namespace Double

/-- The number an integer denotes, exact up to 53 bits. -/
def ofInt (i : Int) : Double := Value.ofInt i

def zero : Double := .finite false ⟨0, by decide⟩ ⟨0, by decide⟩

def negZero : Double := .finite true ⟨0, by decide⟩ ⟨0, by decide⟩

/-- `Math.fround`: the nearest binary32 number. -/
def fround (d : Double) : Double := Value.convert (Value.convert d : Single)

theorem denotes_ofInt {i : Int} (h : i.natAbs < 2 ^ 53) : (ofInt i).Denotes i :=
  Value.denotes_ofInt (F := binary64) h

theorem denotes_negZero : negZero.Denotes 0 := Value.denotes_zero true _ _

end Double

/-- A date is its time value in milliseconds, or the invalid date. -/
inductive JsValue
  | undefined
  | null
  | bool (b : Bool)
  | num (d : Double)
  | bigint (i : Int)
  | str (s : JsString)
  | date (time : Option Int)
  | buffer (bytes : Bytes)
  | array (items : List JsValue)
  | object (props : List (JsString × JsValue))

namespace JsValue

instance : Inhabited JsValue := ⟨.undefined⟩

mutual

def decEq : (v w : JsValue) → Decidable (v = w)
  | .undefined, .undefined => isTrue rfl
  | .null, .null => isTrue rfl
  | .bool a, .bool b => decidable_of_iff (a = b) (by simp)
  | .num a, .num b => decidable_of_iff (a = b) (by simp)
  | .bigint a, .bigint b => decidable_of_iff (a = b) (by simp)
  | .str a, .str b => decidable_of_iff (a = b) (by simp)
  | .date a, .date b => decidable_of_iff (a = b) (by simp)
  | .buffer a, .buffer b => decidable_of_iff (a = b) (by simp)
  | .array a, .array b =>
      match decEqList a b with
      | isTrue h => isTrue (by rw [h])
      | isFalse h => isFalse (by simpa using h)
  | .object a, .object b =>
      match decEqProps a b with
      | isTrue h => isTrue (by rw [h])
      | isFalse h => isFalse (by simpa using h)
  | .undefined, .null | .undefined, .bool _ | .undefined, .num _ | .undefined, .bigint _
  | .undefined, .str _ | .undefined, .date _ | .undefined, .buffer _ | .undefined, .array _
  | .undefined, .object _
  | .null, .undefined | .null, .bool _ | .null, .num _ | .null, .bigint _
  | .null, .str _ | .null, .date _ | .null, .buffer _ | .null, .array _ | .null, .object _
  | .bool _, .undefined | .bool _, .null | .bool _, .num _ | .bool _, .bigint _
  | .bool _, .str _ | .bool _, .date _ | .bool _, .buffer _ | .bool _, .array _
  | .bool _, .object _
  | .num _, .undefined | .num _, .null | .num _, .bool _ | .num _, .bigint _
  | .num _, .str _ | .num _, .date _ | .num _, .buffer _ | .num _, .array _ | .num _, .object _
  | .bigint _, .undefined | .bigint _, .null | .bigint _, .bool _ | .bigint _, .num _
  | .bigint _, .str _ | .bigint _, .date _ | .bigint _, .buffer _ | .bigint _, .array _
  | .bigint _, .object _
  | .str _, .undefined | .str _, .null | .str _, .bool _ | .str _, .num _ | .str _, .bigint _
  | .str _, .date _ | .str _, .buffer _ | .str _, .array _ | .str _, .object _
  | .date _, .undefined | .date _, .null | .date _, .bool _ | .date _, .num _
  | .date _, .bigint _ | .date _, .str _ | .date _, .buffer _ | .date _, .array _
  | .date _, .object _
  | .buffer _, .undefined | .buffer _, .null | .buffer _, .bool _ | .buffer _, .num _
  | .buffer _, .bigint _ | .buffer _, .str _ | .buffer _, .date _ | .buffer _, .array _
  | .buffer _, .object _
  | .array _, .undefined | .array _, .null | .array _, .bool _ | .array _, .num _
  | .array _, .bigint _ | .array _, .str _ | .array _, .date _ | .array _, .buffer _
  | .array _, .object _
  | .object _, .undefined | .object _, .null | .object _, .bool _ | .object _, .num _
  | .object _, .bigint _ | .object _, .str _ | .object _, .date _ | .object _, .buffer _
  | .object _, .array _ => isFalse (by simp)

def decEqList : (v w : List JsValue) → Decidable (v = w)
  | [], [] => isTrue rfl
  | [], _ :: _ | _ :: _, [] => isFalse (by simp)
  | a :: as, b :: bs =>
      match decEq a b, decEqList as bs with
      | isTrue h, isTrue h' => isTrue (by rw [h, h'])
      | isFalse h, _ => isFalse (by simp [h])
      | _, isFalse h => isFalse (by simp [h])

def decEqProps : (v w : List (JsString × JsValue)) → Decidable (v = w)
  | [], [] => isTrue rfl
  | [], _ :: _ | _ :: _, [] => isFalse (by simp)
  | (k, a) :: as, (l, b) :: bs =>
      match (inferInstance : Decidable (k = l)), decEq a b, decEqProps as bs with
      | isTrue h, isTrue h', isTrue h'' => isTrue (by rw [h, h', h''])
      | isFalse h, _, _ => isFalse (by simp [h])
      | _, isFalse h, _ => isFalse (by simp [h])
      | _, _, isFalse h => isFalse (by simp [h])

end

instance : DecidableEq JsValue := decEq

/-- The number of a natural, as the integer readers of a buffer return it. -/
def nat (n : Nat) : JsValue := .num (Double.ofInt n)

/-- `null` or `undefined`. -/
def isNullish : JsValue → Bool
  | .undefined | .null => true
  | _ => false

/-- The `Boolean(v)` conversion. -/
def truthy : JsValue → Bool
  | .undefined | .null => false
  | .bool b => b
  | .num d => !(d.isZero || decide (d = .nan))
  | .bigint i => decide (i ≠ 0)
  | .str s => !s.isEmpty
  | _ => true

/-- `===` of two primitives. -/
def strictEq : JsValue → JsValue → Bool
  | .num a, .num b => !decide (a = .nan) && (decide (a = b) || (a.isZero && b.isZero))
  | v, w => decide (v = w)

end JsValue

/-- The classes of errors the runtime raises by itself. -/
inductive RuntimeError
  | typeError
  | rangeError
  | syntaxError
deriving DecidableEq

/-- The conversions that read or print a text: the number a string spells, the number
of a buffer, array or object, which may have no primitive value, the BigInt it spells when it is no plain numeral, the
bytes `Buffer.from` takes from a value that is neither a string nor a buffer and
from a text that is not Base64 as an encoder prints it, the time value of a date
built from anything but a number or the text of a date, and the text of a value
that is neither a primitive nor an integer of 53 bits. What a member reads as that is no
own enumerable property of a value is left to the host as well, and so is the room of the
stack: how deep arrays may be nested for a mapping that calls itself, and for their text. -/
structure Host where
  numberOfText : JsString → Double
  numberOf : JsValue → Except RuntimeError Double
  bigIntOf : JsValue → Except RuntimeError Int
  bufferFrom : JsValue → Except RuntimeError Bytes
  looseBase64 : JsString → Bytes
  timeOf : JsValue → Option Int
  textOf : JsValue → JsString
  inherited : JsValue → JsString → JsValue
  mapLevels : Nat
  mapLevels_pos : 0 < mapLevels
  joinLevels : Nat

namespace Host

/-- A host that makes nothing of the texts it is given. -/
def inert : Host where
  numberOfText _ := .nan
  numberOf _ := .ok .nan
  bigIntOf _ := .error .syntaxError
  bufferFrom _ := .error .typeError
  looseBase64 _ := []
  timeOf _ := none
  textOf _ := []
  inherited _ _ := .undefined
  mapLevels := 1000
  mapLevels_pos := by decide
  joinLevels := 1000

variable (host : Host)

/-- The unary plus. -/
def toNumber : JsValue → Except RuntimeError Double
  | .undefined => .ok .nan
  | .null => .ok Double.zero
  | .bool b => .ok (Double.ofInt (if b then 1 else 0))
  | .num d => .ok d
  | .bigint _ => .error .typeError
  | .date none => .ok .nan
  | .date (some ms) => .ok (Double.ofInt ms)
  | .str s => .ok (host.numberOfText s)
  | v => host.numberOf v

/-- The `Number(v)` conversion, the unary plus that takes a BigInt too. -/
def number : JsValue → Except RuntimeError Double
  | .bigint i => .ok (Double.ofInt i)
  | v => host.toNumber v

/-- The `BigInt(v)` conversion. -/
def toBigInt : JsValue → Except RuntimeError Int
  | .undefined | .null => .error .typeError
  | .bool b => .ok (if b then 1 else 0)
  | .num d => if d.isInteger then .ok d.trunc else .error .rangeError
  | .bigint i => .ok i
  | .date none => .error .rangeError
  | .date (some ms) => .ok ms
  | .str s =>
      match integer? s with
      | some i => .ok i
      | none => host.bigIntOf (.str s)
  | v => host.bigIntOf v

/-- The `v >>> 0` conversion. -/
def toUint32 (v : JsValue) : Except RuntimeError Nat := do
  let d ← host.toNumber v
  return (d.trunc % 2 ^ 32).toNat

/-- `Buffer.from(v, "utf8")` for a value that is neither null nor undefined. -/
def bufferUtf8 : JsValue → Except RuntimeError Bytes
  | .str s => .ok (Utf.encode s)
  | .buffer bytes => .ok bytes
  | .undefined | .null | .bool _ | .num _ | .bigint _ => .error .typeError
  | v => host.bufferFrom v

/-- `Buffer.from(v, "base64")` for a value that is neither null nor undefined. -/
def bufferBase64 : JsValue → Except RuntimeError Bytes
  | .str s => .ok ((Base64.decode? s).getD (host.looseBase64 s))
  | .buffer bytes => .ok bytes
  | .undefined | .null | .bool _ | .num _ | .bigint _ => .error .typeError
  | v => host.bufferFrom v

/-- The text `${v}` puts in a template. -/
def toText : JsValue → JsString
  | .undefined => js "undefined"
  | .null => js "null"
  | .bool b => if b then js "true" else js "false"
  | .num d =>
      if d.isInteger && decide (d.trunc.natAbs < 2 ^ 53) then intText d.trunc
      else host.textOf (.num d)
  | .bigint i => intText i
  | .str s => s
  | v => host.textOf v

end Host

end OpcUaSuite.Js
