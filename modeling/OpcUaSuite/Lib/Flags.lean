import Mathlib.Data.Nat.Bitwise

/-!
# Flag bytes

A flag byte is the union of single bits, each set by one condition; reading a
bit back gives the condition.
-/

namespace Flags

/-- Bit `i`, when the condition holds. -/
def bit (i : Nat) (b : Bool) : Nat := if b then 2 ^ i else 0

@[simp] theorem testBit_bit (i j : Nat) (b : Bool) :
    (bit i b).testBit j = (b && decide (i = j)) := by
  cases b with
  | false => simp [bit]
  | true => simp [bit, Nat.testBit_two_pow]

end Flags
