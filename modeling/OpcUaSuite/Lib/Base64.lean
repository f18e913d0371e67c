import OpcUaSuite.Lib.Bytes
import OpcUaSuite.Lib.Utf

/-!
# Base64

Three bytes are four symbols of the standard alphabet; a last group of one or
two bytes is padded. The decoder takes exactly the texts the encoder prints.
-/

namespace Base64

open ByteCodec

/-- The symbol of six bits. -/
def symbol (n : Nat) : UInt16 :=
  UInt16.ofNat (if n < 26 then 65 + n else if n < 52 then 71 + n else if n < 62 then n - 4
    else if n = 62 then 43 else 47)

def padding : UInt16 := 61

def sextet? (u : UInt16) : Option Nat :=
  let n := u.toNat
  if 65 ≤ n ∧ n ≤ 90 then some (n - 65)
  else if 97 ≤ n ∧ n ≤ 122 then some (n - 71)
  else if 48 ≤ n ∧ n ≤ 57 then some (n + 4)
  else if n = 43 then some 62
  else if n = 47 then some 63
  else none

/-- The symbols of the three bytes of a number. -/
def group (n : Nat) : Utf.Units :=
  [symbol (n / 262144 % 64), symbol (n / 4096 % 64), symbol (n / 64 % 64), symbol (n % 64)]

def encode : Bytes → Utf.Units
  | [] => []
  | [a] => (group (a.toNat * 65536)).take 2 ++ [padding, padding]
  | [a, b] => (group (a.toNat * 65536 + b.toNat * 256)).take 3 ++ [padding]
  | a :: b :: c :: rest => group (a.toNat * 65536 + b.toNat * 256 + c.toNat) ++ encode rest

/-- The number four symbols spell. -/
def ungroup? (w x y z : UInt16) : Option Nat := do
  let i ← sextet? w
  let j ← sextet? x
  let k ← sextet? y
  let l ← sextet? z
  return ((i * 64 + j) * 64 + k) * 64 + l

def byte (n : Nat) : UInt8 := UInt8.ofNat n

/-- The bytes of a text up to its padding. -/
def bytesOf? : Utf.Units → Option Bytes
  | [] => some []
  | w :: x :: y :: z :: rest =>
      if y = padding then (ungroup? w x (symbol 0) (symbol 0)).map fun n => [byte (n / 65536)]
      else if z = padding then
        (ungroup? w x y (symbol 0)).map fun n => [byte (n / 65536), byte (n / 256)]
      else do
        let n ← ungroup? w x y z
        let bytes ← bytesOf? rest
        return byte (n / 65536) :: byte (n / 256) :: byte n :: bytes
  | _ => none

/-- Only a text that is printed is taken. -/
def decode? (text : Utf.Units) : Option Bytes :=
  (bytesOf? text).filter fun bytes => encode bytes = text

theorem sextet?_symbol {n : Nat} (h : n < 64) : sextet? (symbol n) = some n := by
  have hall : ∀ n < 64, sextet? (symbol n) = some n := by decide
  exact hall n h

theorem symbol_ne_padding {n : Nat} (h : n < 64) : symbol n ≠ padding := by
  have hall : ∀ n < 64, symbol n ≠ padding := by decide
  exact hall n h

theorem ungroup?_symbols {i j k l : Nat} (hi : i < 64) (hj : j < 64) (hk : k < 64) (hl : l < 64) :
    ungroup? (symbol i) (symbol j) (symbol k) (symbol l) =
      some (((i * 64 + j) * 64 + k) * 64 + l) := by
  simp [ungroup?, sextet?_symbol hi, sextet?_symbol hj, sextet?_symbol hk, sextet?_symbol hl]

theorem ungroup?_group {n : Nat} (h : n < 16777216) :
    ungroup? (symbol (n / 262144 % 64)) (symbol (n / 4096 % 64)) (symbol (n / 64 % 64))
      (symbol (n % 64)) = some n := by
  rw [ungroup?_symbols (Nat.mod_lt _ (by decide)) (Nat.mod_lt _ (by decide))
    (Nat.mod_lt _ (by decide)) (Nat.mod_lt _ (by decide))]
  congr 1
  omega

theorem byte_eq {n : Nat} {b : UInt8} (h : n % 256 = b.toNat) : byte n = b := by
  rw [← UInt8.toNat_inj]
  simpa [byte, UInt8.toNat_ofNat'] using h

theorem bytesOf?_encode (bs : Bytes) : bytesOf? (encode bs) = some bs := by
  match bs with
  | [] => rfl
  | [a] =>
      have ha := a.toNat_lt
      change (if padding = padding then _ else _) = _
      rw [if_pos rfl, ungroup?_symbols (Nat.mod_lt _ (by decide)) (Nat.mod_lt _ (by decide))
        (by decide) (by decide), Option.map_some, byte_eq (b := a) (by omega)]
  | [a, b] =>
      have ha := a.toNat_lt
      have hb := b.toNat_lt
      change (if symbol _ = padding then _ else if padding = padding then _ else _) = _
      rw [if_neg (symbol_ne_padding (Nat.mod_lt _ (by decide))), if_pos rfl,
        ungroup?_symbols (Nat.mod_lt _ (by decide)) (Nat.mod_lt _ (by decide))
          (Nat.mod_lt _ (by decide)) (by decide),
        Option.map_some, byte_eq (b := a) (by omega), byte_eq (b := b) (by omega)]
  | a :: b :: c :: rest =>
      have ha := a.toNat_lt
      have hb := b.toNat_lt
      have hc := c.toNat_lt
      have ih := bytesOf?_encode rest
      change (if symbol _ = padding then _ else if symbol _ = padding then _ else _) = _
      rw [if_neg (symbol_ne_padding (Nat.mod_lt _ (by decide))),
        if_neg (symbol_ne_padding (Nat.mod_lt _ (by decide))), ungroup?_group (by omega)]
      change (do
        let bytes ← bytesOf? (encode rest)
        return byte _ :: byte _ :: byte _ :: bytes) = _
      rw [ih, byte_eq (b := a) (by omega), byte_eq (b := b) (by omega), byte_eq (b := c) (by omega)]
      rfl

/-- A text that was printed is taken for its bytes. -/
theorem decode?_encode (bs : Bytes) : decode? (encode bs) = some bs := by
  rw [decode?, bytesOf?_encode]
  simp

end Base64
