import Mathlib.Data.Nat.Log
import Mathlib.Tactic.Ring
import Mathlib.Tactic.NormNum

/-!
# Little-endian byte strings

A word of `k` bytes is written least significant byte first. Signed words are
written as their two's complement, so one unsigned codec serves both.
-/

namespace ByteCodec

/-- A byte string, in wire order. -/
abbrev Bytes := List UInt8

/-- The `k` low bytes of `n`, least significant first. -/
def le : Nat → Nat → Bytes
  | 0, _ => []
  | k + 1, n => UInt8.ofNat n :: le k (n / 256)

/-- The number a little-endian byte string spells. -/
def ofLe : Bytes → Nat
  | [] => 0
  | b :: bs => b.toNat + 256 * ofLe bs

@[simp] theorem length_le (k n : Nat) : (le k n).length = k := by
  induction k generalizing n with
  | zero => rfl
  | succ k ih => simp only [le, List.length_cons, ih]

theorem ofLe_le (k n : Nat) : ofLe (le k n) = n % 256 ^ k := by
  induction k generalizing n with
  | zero => simp [le, ofLe, Nat.mod_one]
  | succ k ih =>
      have hbyte : (UInt8.ofNat n).toNat = n % 256 := UInt8.toNat_ofNat'
      rw [le, ofLe, ih, hbyte, pow_succ', Nat.mod_mul]

/-- A word that fits its width is read back exactly. -/
theorem ofLe_le_of_lt {k n : Nat} (h : n < 256 ^ k) : ofLe (le k n) = n := by
  rw [ofLe_le, Nat.mod_eq_of_lt h]

/-- The two's complement of `i` in `k` bytes. -/
def toTwos (k : Nat) (i : Int) : Nat := (i % (256 ^ k : Nat)).toNat

/-- The integer a `k`-byte two's complement word stands for. -/
def ofTwos (k : Nat) (n : Nat) : Int :=
  if 2 * n < 256 ^ k then n else (n : Int) - (256 ^ k : Nat)

theorem toTwos_lt (k : Nat) (i : Int) : toTwos k i < 256 ^ k := by
  have hpos : (0 : Int) < (256 ^ k : Nat) := by positivity
  have hlt := Int.emod_lt_of_pos i hpos
  have hge := Int.emod_nonneg i hpos.ne'
  unfold toTwos
  omega

/-- Two's complement is exact on the signed range of its width. -/
theorem ofTwos_toTwos {k : Nat} {i : Int} (hlo : -(256 ^ k : Nat) ≤ 2 * i)
    (hhi : 2 * i < (256 ^ k : Nat)) : ofTwos k (toTwos k i) = i := by
  unfold ofTwos toTwos
  generalize (256 ^ k : Nat) = w at *
  rcases Int.lt_or_le i 0 with hneg | hpos
  · have hmod : i % (w : Int) = i + w := by
      rw [← Int.add_emod_right, Int.emod_eq_of_lt (by omega) (by omega)]
    rw [hmod, if_neg (by omega)]
    omega
  · rw [Int.emod_eq_of_lt hpos (by omega), if_pos (by omega)]
    omega

end ByteCodec
