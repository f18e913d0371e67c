import OpcUaSuite.Lib.Utf

/-!
# Strings and numerals

Strings as lists of code units, and the decimal texts of integers with the
functions that read them back.
-/

namespace OpcUaSuite.Js

/-- A string, as UTF-16 code units. -/
abbrev JsString := Utf.Units

/-- The equality that a test of a text against a list uses. -/
instance : LawfulBEq JsString := inferInstance

/-- The code units of an ASCII literal. -/
def js (s : String) : JsString := s.toList.map fun c => UInt16.ofNat c.toNat

/-- The decimal digits of a natural number. -/
def decimal (n : Nat) : JsString := (Nat.toDigits 10 n).map fun c => UInt16.ofNat c.toNat

def intText (i : Int) : JsString := if i < 0 then 45 :: decimal i.natAbs else decimal i.natAbs

/-- The last decimal digits of a number, with leading zeros. -/
def padded : Nat → Nat → JsString
  | 0, _ => []
  | width + 1, n => padded width (n / 10) ++ [UInt16.ofNat (48 + n % 10)]

/-- The digits of a canonical decimal numeral, most significant first. -/
def digits : JsString → Option (List Nat)
  | [] => some []
  | u :: rest =>
      if 48 ≤ u.toNat ∧ u.toNat ≤ 57 then (digits rest).map fun ds => (u.toNat - 48) :: ds
      else none

/-- The number a list of digits spells. -/
def ofDigits (ds : List Nat) : Nat := ds.foldl (fun acc d => 10 * acc + d) 0

/-- The number a text of one digit at least spells. -/
def numeral? (s : JsString) : Option Nat :=
  match digits s with
  | none | some [] => none
  | some ds => some (ofDigits ds)

/-- The integer a numeral with an optional minus spells. -/
def integer? : JsString → Option Int
  | 45 :: s => (numeral? s).map fun n : Nat => -(n : Int)
  | s => (numeral? s).map Int.ofNat

/-! ## Digits -/

theorem digits_append {s t : JsString} {ds es : List Nat} (hs : digits s = some ds)
    (ht : digits t = some es) : digits (s ++ t) = some (ds ++ es) := by
  induction s generalizing ds with
  | nil =>
      cases hs
      exact ht
  | cons u s ih =>
      rw [digits] at hs
      split at hs
      next hu =>
        obtain ⟨ds', hds', rfl⟩ := Option.map_eq_some_iff.mp hs
        rw [List.cons_append, digits, if_pos hu, ih hds']
        rfl
      next => cases hs

theorem ofDigits_append (ds : List Nat) (d : Nat) :
    ofDigits (ds ++ [d]) = 10 * ofDigits ds + d := by
  rw [ofDigits, List.foldl_append]
  rfl

theorem digits_digit {d : Nat} (h : d < 10) : digits [UInt16.ofNat (48 + d)] = some [d] := by
  have hu : (UInt16.ofNat (48 + d)).toNat = 48 + d := by
    rw [UInt16.toNat_ofNat', Nat.mod_eq_of_lt (by omega)]
  rw [digits, if_pos (by omega), hu, digits]
  simp

theorem decimal_of_lt {n : Nat} (h : n < 10) : decimal n = [UInt16.ofNat (48 + n)] := by
  have hdigit : ∀ d < 10, (Nat.digitChar d).toNat = 48 + d := by decide
  rw [decimal, Nat.toDigits_of_lt_base h]
  simp [hdigit n h]

theorem decimal_of_le {n : Nat} (h : 10 ≤ n) :
    decimal n = decimal (n / 10) ++ [UInt16.ofNat (48 + n % 10)] := by
  have hlast := decimal_of_lt (Nat.mod_lt n (by decide : 10 > 0))
  rw [decimal, Nat.toDigits_of_lt_base (Nat.mod_lt n (by decide))] at hlast
  rw [decimal, Nat.toDigits_of_base_le (by decide) h, List.map_append, hlast]
  rfl

/-- The decimal text of a number has digits that spell it. -/
theorem digits_decimal (n : Nat) : ∃ ds, digits (decimal n) = some ds ∧ ds ≠ [] ∧ ofDigits ds = n := by
  induction n using Nat.strongRecOn with
  | ind n ih =>
      rcases Nat.lt_or_ge n 10 with hlt | hge
      · rw [decimal_of_lt hlt]
        exact ⟨[n], digits_digit hlt, List.cons_ne_nil _ _, by simp [ofDigits]⟩
      · obtain ⟨ds, hds, -, hvalue⟩ := ih (n / 10) (by omega)
        refine ⟨ds ++ [n % 10], ?_, by simp, ?_⟩
        · rw [decimal_of_le hge]
          exact digits_append hds (digits_digit (Nat.mod_lt n (by decide)))
        · rw [ofDigits_append, hvalue]
          omega

theorem numeral?_decimal (n : Nat) : numeral? (decimal n) = some n := by
  obtain ⟨ds, hds, hne, hvalue⟩ := digits_decimal n
  rw [numeral?, hds]
  cases ds with
  | nil => exact absurd rfl hne
  | cons d ds => exact congrArg some hvalue

/-- A digit is no minus. -/
theorem decimal_ne_minus (n : Nat) (s : JsString) : decimal n ≠ 45 :: s := by
  intro h
  obtain ⟨ds, hds, -, -⟩ := digits_decimal n
  rw [h, digits, if_neg (by decide)] at hds
  cases hds

/-- The text of an integer is read back. -/
theorem integer?_intText (i : Int) : integer? (intText i) = some i := by
  unfold intText
  split
  next hneg =>
    rw [integer?, numeral?_decimal, Option.map_some]
    congr 1
    omega
  next hpos =>
    unfold integer?
    split
    next s hs => exact absurd hs (decimal_ne_minus _ _)
    next =>
      rw [numeral?_decimal, Option.map_some]
      congr 1
      change ((i.natAbs : Nat) : Int) = i
      omega

theorem length_padded (width n : Nat) : (padded width n).length = width := by
  induction width generalizing n with
  | zero => rfl
  | succ width ih => rw [padded, List.length_append, ih, List.length_singleton]

theorem digits_padded (width n : Nat) :
    ∃ ds, digits (padded width n) = some ds ∧ ofDigits ds = n % 10 ^ width := by
  induction width generalizing n with
  | zero => exact ⟨[], rfl, (Nat.mod_one n).symm⟩
  | succ width ih =>
      obtain ⟨ds, hds, hvalue⟩ := ih (n / 10)
      refine ⟨ds ++ [n % 10], ?_, ?_⟩
      · exact digits_append hds (digits_digit (Nat.mod_lt n (by decide)))
      · rw [ofDigits_append, hvalue, pow_succ', Nat.mod_mul]
        omega

end OpcUaSuite.Js
