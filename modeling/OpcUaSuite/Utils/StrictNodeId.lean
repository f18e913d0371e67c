import Mathlib.Data.List.TakeWhile
import OpcUaSuite.Utils.NodeId

/-!
# The grammar of NodeId texts

What a NodeId text is, strictly: a well-known name, an identifier with or without
a namespace, digits, or a bare name. The parser agrees with it on the texts whose
numbers are nothing but digits and whose name no object inherits.
-/

namespace OpcUaSuite.Utils

open Js

/-! ## The grammar -/

/-- `i=<digits>`, `s=<text>`, `g=<text>` or `b=<text>`. -/
def strictIdentifier (namespaceIndex : JsValue) : JsString → Option JsValue
  | 115 :: 61 :: s => some (nodeId namespaceIndex (js "String") (.str s))
  | 105 :: 61 :: s => (numeral? s).map fun n : Nat => nodeId namespaceIndex (js "Numeric") (.nat n)
  | 103 :: 61 :: s => some (nodeId namespaceIndex (js "Guid") (.str s))
  | 98 :: 61 :: s => some (nodeId namespaceIndex (js "ByteString") (.str s))
  | _ => none

/-- What stands between `ns=` and the first semicolon. -/
def namespaceText (s : JsString) : JsString := (s.takeWhile (· != 59)).drop 3

def afterSemicolon (s : JsString) : JsString := (s.dropWhile (· != 59)).drop 1

/-- Digits, or any name that is not empty. -/
def bareName : JsString → Option JsValue
  | [] => none
  | s => some (match numeral? s with
      | some n => nodeId (.nat 0) (js "Numeric") (.nat n)
      | none => nodeId (.nat 0) (js "String") (.str s))

/-- The NodeId a text spells when it is no well-known name. -/
def strictText (s : JsString) : Option JsValue :=
  if s.contains 59 then
    if startsNamespace s then
      (numeral? (namespaceText s)).bind fun n : Nat => strictIdentifier (.nat n) (afterSemicolon s)
    else strictIdentifier (.nat 0) s
  else (strictIdentifier (.nat 0) s).or (bareName s)

/-- The NodeId a text spells, `none` when it is no NodeId text. -/
def strictNodeId (s : JsString) : Option JsValue :=
  match InsertionMap.get? s wellKnownNodes with
  | some t => strictIdentifier (.nat 0) t
  | none => strictText s

/-! ## The texts that are read whole -/

/-- What follows `i=` at the start of the text is a numeral. -/
def NumericWhole (s : JsString) : Prop := ∀ digits, s = js "i=" ++ digits → (numeral? digits).isSome

/-- No object inherits the name, the number of a Numeric identifier is nothing but
digits, and so is a namespace that `parseInt` makes a number of. -/
structure ReadsWhole (s : JsString) : Prop where
  own : s ∉ inheritedNames
  numeric : NumericWhole s
  namespaced : s.contains 59 = true → startsNamespace s = true →
    hasIdentifierType (afterSemicolon s) = true →
      ((parseInt (namespaceText s)).isFinite = true ↔
        (numeral? (namespaceText s)).isSome = true ∧ NumericWhole (afterSemicolon s))

/-! ## Numerals -/

theorem numeral?_isSome_iff {s : JsString} :
    (numeral? s).isSome = true ↔ s ≠ [] ∧ s.all isDigit = true := by
  have hdigits : ∀ s : JsString, (digits s).isSome = s.all isDigit := by
    intro s
    induction s with
    | nil => rfl
    | cons u s ih =>
        rw [digits, List.all_cons, ← ih]
        by_cases hu : 48 ≤ u.toNat ∧ u.toNat ≤ 57
        · rw [if_pos hu, Option.isSome_map]
          simp [isDigit, hu]
        · rw [if_neg hu]
          simp [isDigit, hu]
  have hnil : digits s = some [] ↔ s = [] := by
    cases s with
    | nil => exact ⟨fun _ => rfl, fun _ => rfl⟩
    | cons u s =>
        rw [digits]
        split <;> simp
  rw [← hdigits s, numeral?]
  split
  next h => simp [h]
  next h => simp [hnil.mp h]
  next ds hne h =>
    have hs : s ≠ [] := fun hs => hne (Option.some.inj (h.symm.trans (hnil.mpr hs)))
    simp [h, hs]

/-- A text of digits is read to its end. -/
theorem parseInt_numeral {s : JsString} {n : Nat} (h : numeral? s = some n) :
    parseInt s = Double.ofInt n := by
  have hsome : (numeral? s).isSome = true := by rw [h]; rfl
  obtain ⟨hne, hall⟩ := numeral?_isSome_iff.mp hsome
  obtain ⟨u, t, rfl⟩ := List.exists_cons_of_ne_nil hne
  have hu : isDigit u = true := List.all_eq_true.mp hall u List.mem_cons_self
  obtain ⟨hspace, hminus, hplus, -⟩ := isSpace_of_isDigit hu
  have htake : (u :: t).takeWhile isDigit = u :: t :=
    List.takeWhile_eq_self_iff.mpr (List.all_eq_true.mp hall)
  unfold parseInt
  rw [List.dropWhile_cons_of_neg (by simp [hspace])]
  split
  next r hr => exact absurd (List.cons.inj hr).1 hminus
  next r hr => exact absurd (List.cons.inj hr).1 hplus
  next => rw [digitPrefix?, htake, h]; rfl

/-! ## Identifiers -/

/-- An identifier that is one strictly is read as that. -/
theorem parseIdentifier_of_strict {t : JsString} {namespaceIndex v : JsValue}
    (h : strictIdentifier namespaceIndex t = some v) : parseIdentifier t namespaceIndex = v := by
  unfold strictIdentifier at h
  split at h
  case h_2 s =>
    obtain ⟨n, hn, rfl⟩ := Option.map_eq_some_iff.mp h
    change nodeId namespaceIndex _ (.num (parseInt s)) = _
    rw [parseInt_numeral hn]
    rfl
  case h_5 => cases h
  all_goals exact Option.some.inj h

theorem exists_of_hasIdentifierType {t : JsString} (h : hasIdentifierType t = true) :
    ∃ u s, t = u :: 61 :: s ∧ (u = 115 ∨ u = 105 ∨ u = 98 ∨ u = 103) := by
  unfold hasIdentifierType at h
  split at h
  next u s =>
    simp only [Bool.or_eq_true, beq_iff_eq, or_assoc] at h
    exact ⟨u, s, rfl, h⟩
  next => cases h

theorem parseIdentifier_ne_null {t : JsString} (namespaceIndex : JsValue)
    (h : hasIdentifierType t = true) : parseIdentifier t namespaceIndex ≠ .null := by
  obtain ⟨u, s, rfl, rfl | rfl | rfl | rfl⟩ := exists_of_hasIdentifierType h <;> exact nofun

theorem parseIdentifier_null {t : JsString} (namespaceIndex : JsValue)
    (h : hasIdentifierType t = false) : parseIdentifier t namespaceIndex = .null := by
  unfold parseIdentifier
  split <;> first | cases h | rfl

theorem strictIdentifier_none {t : JsString} (namespaceIndex : JsValue)
    (h : hasIdentifierType t = false) : strictIdentifier namespaceIndex t = none := by
  unfold strictIdentifier
  split <;> first | cases h | rfl

/-- With a letter in front only a number that is no numeral is refused. -/
theorem strictIdentifier_isSome_iff {t : JsString} (namespaceIndex : JsValue)
    (h : hasIdentifierType t = true) :
    (strictIdentifier namespaceIndex t).isSome = true ↔ NumericWhole t := by
  have hother : ∀ u s, u ≠ 105 → NumericWhole (u :: 61 :: s) := fun u s hu digits heq =>
    absurd (List.cons.inj heq).1 hu
  obtain ⟨u, s, rfl, rfl | rfl | rfl | rfl⟩ := exists_of_hasIdentifierType h
  · exact iff_of_true rfl (hother _ _ (by decide))
  · change ((numeral? s).map _).isSome = true ↔ _
    rw [Option.isSome_map]
    refine ⟨fun hs digits heq => ?_, fun hs => hs s rfl⟩
    have happend : js "i=" ++ s = js "i=" ++ digits := heq
    obtain rfl : s = digits := List.append_cancel_left happend
    exact hs
  · exact iff_of_true rfl (hother _ _ (by decide))
  · exact iff_of_true rfl (hother _ _ (by decide))

/-- A text without one of the four letters in front has no number to be whole. -/
theorem numericWhole_of_untyped {t : JsString} (h : hasIdentifierType t = false) :
    NumericWhole t := by
  rintro digits rfl
  cases h

theorem getD_eq_iff_isSome {o : Option JsValue} {v : JsValue} (hne : v ≠ .null)
    (h : ∀ w, o = some w → v = w) : v = o.getD .null ↔ o.isSome = true := by
  cases o with
  | none => exact iff_of_false hne (by simp)
  | some w => exact iff_of_true (h w rfl) rfl

theorem parseIdentifier_strict_iff (t : JsString) (namespaceIndex : JsValue) :
    parseIdentifier t namespaceIndex = (strictIdentifier namespaceIndex t).getD .null ↔
      NumericWhole t := by
  cases htype : hasIdentifierType t with
  | false =>
      rw [parseIdentifier_null _ htype, strictIdentifier_none _ htype]
      exact iff_of_true rfl (numericWhole_of_untyped htype)
  | true =>
      rw [← strictIdentifier_isSome_iff namespaceIndex htype]
      exact getD_eq_iff_isSome (parseIdentifier_ne_null _ htype)
        fun w hw => parseIdentifier_of_strict hw

/-! ## Texts -/

/-- The namespace is read as the grammar has it. -/
theorem parse_namespaced_iff (h rest : JsString) :
    (if (parseInt h).isFinite then parseIdentifier rest (.num (parseInt h)) else .null) =
        ((numeral? h).bind fun n : Nat => strictIdentifier (.nat n) rest).getD .null ↔
      (hasIdentifierType rest = true →
        ((parseInt h).isFinite = true ↔ (numeral? h).isSome = true ∧ NumericWhole rest)) := by
  cases htype : hasIdentifierType rest with
  | false =>
      refine iff_of_true ?_ nofun
      cases numeral? h <;> simp [parseIdentifier_null _ htype, strictIdentifier_none _ htype]
  | true =>
      rw [forall_prop_of_true rfl]
      cases hnumeral : numeral? h with
      | none =>
          cases hfinite : (parseInt h).isFinite with
          | true => simpa using parseIdentifier_ne_null _ htype
          | false => simp
      | some n =>
          have hvalue := parseInt_numeral hnumeral
          have hwhole := strictIdentifier_isSome_iff (.nat n) htype
          have hread := parseIdentifier_strict_iff rest (.nat n)
          cases hfinite : (parseInt h).isFinite with
          | true =>
              simp only [Option.bind_some, Option.isSome_some, if_true, true_and, true_iff, hvalue]
              exact hread
          | false =>
              cases hstrict : strictIdentifier (.nat n) rest with
              | none =>
                  have hnot : ¬ NumericWhole rest := by
                    rw [← hwhole, hstrict]
                    simp
                  simp [hstrict, hnot]
              | some v =>
                  have hyes : NumericWhole rest := by
                    rw [← hwhole, hstrict]
                    rfl
                  have hv : v ≠ .null := by
                    rw [← parseIdentifier_of_strict hstrict]
                    exact parseIdentifier_ne_null _ htype
                  simp [hstrict, hyes, hv.symm]

theorem startsNamespace_takeWhile (s : JsString) :
    startsNamespace (s.takeWhile (· != 59)) = startsNamespace s := by
  rw [Bool.eq_iff_iff]
  constructor
  · intro h
    rw [← List.takeWhile_append_dropWhile (p := (· != 59)) (l := s)]
    unfold startsNamespace at h
    split at h
    next t ht => rw [ht]; rfl
    next => cases h
  · intro h
    unfold startsNamespace at h
    split at h
    next t => rfl
    next => cases h

theorem numeric_ne_string (namespaceIndex v w : JsValue) :
    nodeId namespaceIndex (js "Numeric") v ≠ nodeId namespaceIndex (js "String") w := by
  have hname : js "Numeric" ≠ js "String" := by decide
  simp [nodeId, hname]

/-- A text without a semicolon. -/
theorem parse_unseparated_iff {s : JsString} (hs : s ≠ []) :
    (if hasIdentifierType s then parseIdentifier s (.nat 0)
      else if s.all isDigit then nodeId (.nat 0) (js "Numeric") (.num (parseInt s))
      else nodeId (.nat 0) (js "String") (.str s)) =
        ((strictIdentifier (.nat 0) s).or (bareName s)).getD .null ↔ NumericWhole s := by
  have hbare : bareName s = some (match numeral? s with
      | some n => nodeId (.nat 0) (js "Numeric") (.nat n)
      | none => nodeId (.nat 0) (js "String") (.str s)) := by
    cases s with
    | nil => exact absurd rfl hs
    | cons u s => rfl
  cases htype : hasIdentifierType s with
  | false =>
      rw [strictIdentifier_none _ htype, hbare]
      refine iff_of_true ?_ (numericWhole_of_untyped htype)
      cases hnumeral : numeral? s with
      | none =>
          have hall : ¬ s.all isDigit = true := fun hall => by
            have hsome := numeral?_isSome_iff.mpr ⟨hs, hall⟩
            rw [hnumeral] at hsome
            cases hsome
          simp only [Bool.false_eq_true, if_false, hall, Option.none_or, Option.getD_some]
      | some n =>
          have hall : s.all isDigit = true := by
            refine (numeral?_isSome_iff.mp ?_).2
            rw [hnumeral]
            rfl
          rw [parseInt_numeral hnumeral]
          simp only [Bool.false_eq_true, if_false, hall, if_true, Option.none_or,
            Option.getD_some]
          rfl
  | true =>
      rw [if_pos rfl, ← strictIdentifier_isSome_iff (.nat 0) htype]
      cases hstrict : strictIdentifier (.nat 0) s with
      | some v => exact iff_of_true (parseIdentifier_of_strict hstrict) rfl
      | none =>
          -- only a number is refused, and the name that spells it would be a String
          obtain ⟨u, t, rfl, rfl | rfl | rfl | rfl⟩ := exists_of_hasIdentifierType htype
          case inr.inl =>
            have hnumeral : numeral? (105 :: 61 :: t) = none := rfl
            rw [hbare, hnumeral]
            exact iff_of_false (numeric_ne_string _ _ _) nofun
          all_goals cases hstrict

/-- What the parser makes of a text that stands for itself. -/
theorem parseNodeIdText_iff {s : JsString} (hs : s ≠ []) :
    parseNodeIdText s = (strictText s).getD .null ↔
      NumericWhole s ∧ (s.contains 59 = true → startsNamespace s = true →
        hasIdentifierType (afterSemicolon s) = true →
          ((parseInt (namespaceText s)).isFinite = true ↔
            (numeral? (namespaceText s)).isSome = true ∧ NumericWhole (afterSemicolon s))) := by
  unfold parseNodeIdText strictText
  cases hcontains : s.contains 59 with
  | false =>
      simp only [Bool.false_eq_true, if_false, false_implies, and_true]
      exact parse_unseparated_iff hs
  | true =>
      unfold parseNamespace
      rw [startsNamespace_takeWhile]
      cases hstarts : startsNamespace s with
      | false =>
          simp only [Bool.false_eq_true, if_false, false_implies, implies_true, and_true, if_true]
          exact parseIdentifier_strict_iff s (.nat 0)
      | true =>
          have hwhole : NumericWhole s := by
            rintro digits rfl
            cases hstarts
          simp only [if_true, hwhole, true_and, forall_const]
          exact parse_namespaced_iff (namespaceText s) (afterSemicolon s)

/-- Each well-known name stands for a numeric identifier. -/
theorem parse_wellKnown {s t : JsString} (h : InsertionMap.get? s wellKnownNodes = some t) :
    parseNodeIdText t = (strictIdentifier (.nat 0) t).getD .null ∧ ReadsWhole s := by
  have hmem : (s, t) ∈ wellKnownNodes := InsertionMap.mem_of_get? h
  have htexts : ∀ p ∈ wellKnownNodes, p.2.contains 59 = false ∧ hasIdentifierType p.2 = true ∧
      (strictIdentifier (.nat 0) p.2).isSome = true := by decide +kernel
  have hnames : ∀ p ∈ wellKnownNodes, p.1 ∉ inheritedNames ∧ hasIdentifierType p.1 = false ∧
      startsNamespace p.1 = false := by decide +kernel
  obtain ⟨hcontains, htype, hsome⟩ := htexts _ hmem
  obtain ⟨hown, huntyped, hstarts⟩ := hnames _ hmem
  constructor
  · rw [parseNodeIdText, hcontains, htype]
    exact (parseIdentifier_strict_iff t (.nat 0)).mpr
      ((strictIdentifier_isSome_iff (.nat 0) htype).mp hsome)
  · refine ⟨hown, numericWhole_of_untyped huntyped, fun _ h => ?_⟩
    rw [hstarts] at h
    cases h

/-- The parser is strict on exactly the texts it reads whole. -/
theorem parseNodeId_iff (s : JsString) :
    parseNodeId (.str s) = (strictNodeId s).getD .null ↔ ReadsWhole s := by
  cases s with
  | nil =>
      refine iff_of_true rfl ⟨by decide +kernel, fun digits h => ?_, nofun⟩
      cases h
  | cons u s =>
      change (if _ then _ else _) = _ ↔ _
      split
      next hinherited =>
        -- every such name is a bare name
        have hbare : ∀ t ∈ inheritedNames, (strictNodeId t).getD .null ≠ .null := by decide +kernel
        exact iff_of_false (hbare _ hinherited).symm fun h => h.own hinherited
      next hown =>
        unfold strictNodeId
        cases hknown : InsertionMap.get? (u :: s) wellKnownNodes with
        | some t =>
            obtain ⟨hparse, hwhole⟩ := parse_wellKnown hknown
            exact iff_of_true hparse hwhole
        | none =>
            refine (parseNodeIdText_iff (List.cons_ne_nil u s)).trans ⟨fun h => ?_, fun h => ?_⟩
            · exact ⟨hown, h.1, h.2⟩
            · exact ⟨h.numeric, h.namespaced⟩

/-! ## Round trip -/

/-- How a number prints that is no integer of 53 bits: the shortest digits that
give the number back, with zeros behind them below `10 ^ 21`, else in the form of a
digit, perhaps a fraction, and an exponent. -/
structure PrintsNaturals (host : Host) : Prop where
  digits : ∀ n : Nat, (Double.ofInt n).Denotes n → 2 ^ 53 ≤ n → n < 10 ^ 21 →
    ∃ m : Nat, host.textOf (.nat n) = decimal m ∧ Double.ofInt m = Double.ofInt n
  exponent : ∀ n : Nat, (Double.ofInt n).Denotes n → 10 ^ 21 ≤ n →
    ∃ u fraction exponent, host.textOf (.nat n) = u :: (fraction ++ js "e+" ++ decimal exponent) ∧
      isDigit u = true ∧ (fraction = [] ∨ ∃ ds, fraction = 46 :: ds ∧ ds.all isDigit = true)

/-- A NodeId whose namespace is any natural number there is. -/
structure NodeId.Natural (n : NodeId) : Prop where
  namespaceIndex : (Double.ofInt n.namespaceIndex).Denotes n.namespaceIndex
  identifier : n.identifier.InRange

theorem toText_large {host : Host} {n : Nat} (h : (Double.ofInt n).Denotes n) (hn : 2 ^ 53 ≤ n) :
    host.toText (.nat n) = host.textOf (.nat n) := by
  have hlarge : ¬ (n : Int).natAbs < 2 ^ 53 := by omega
  change (if _ then _ else _) = _
  rw [h.trunc, decide_eq_false hlarge, Bool.and_false]
  rfl

/-- Below `10 ^ 21` the text of a number is read back. -/
theorem parse_toText {host : Host} (hprints : PrintsNaturals host) {n : Nat}
    (h : (Double.ofInt n).Denotes n) (hn : n < 10 ^ 21) :
    (∀ u ∈ host.toText (.nat n), u ≠ 59) ∧ parseInt (host.toText (.nat n)) = Double.ofInt n := by
  have hdigits : ∀ m : Nat, ∀ u ∈ decimal m, u ≠ 59 := fun m u hu =>
    (isSpace_of_isDigit (isDigit_of_mem_decimal hu)).2.2.2
  rcases Nat.lt_or_ge n (2 ^ 53) with hsmall | hlarge
  · rw [toText_nat hsmall]
    exact ⟨hdigits n, parseInt_decimal n⟩
  · obtain ⟨m, htext, hm⟩ := hprints.digits n h hlarge hn
    rw [toText_large h hlarge, htext]
    exact ⟨hdigits m, (parseInt_decimal m).trans hm⟩

/-- From there on only its first digit is. -/
theorem parse_toText_exponent {host : Host} (hprints : PrintsNaturals host) {n : Nat}
    (h : (Double.ofInt n).Denotes n) (hn : 10 ^ 21 ≤ n) :
    (∀ u ∈ host.toText (.nat n), u ≠ 59) ∧
      ∃ d < 10, parseInt (host.toText (.nat n)) = Double.ofInt (d : Nat) := by
  obtain ⟨u, fraction, exponent, htext, hu, hfraction⟩ := hprints.exponent n h hn
  have hdigit : ∀ v, isDigit v = true → v ≠ 59 := fun v hv => (isSpace_of_isDigit hv).2.2.2
  have hpoint : ∀ v ∈ fraction, v ≠ 59 := by
    rcases hfraction with rfl | ⟨ds, rfl, hds⟩
    · exact nofun
    · intro v hv
      rcases List.mem_cons.mp hv with rfl | hv
      · decide
      · exact hdigit v (List.all_eq_true.mp hds v hv)
  have hbehind : (fraction ++ js "e+" ++ decimal exponent).takeWhile isDigit = [] := by
    rcases hfraction with rfl | ⟨ds, rfl, -⟩ <;> rfl
  rw [toText_large h (by omega), htext]
  constructor
  · intro v hv
    rw [List.append_assoc] at hv
    rcases List.mem_cons.mp hv with rfl | hv
    · exact hdigit _ hu
    · rcases List.mem_append.mp hv with hv | hv
      · exact hpoint v hv
      · rcases List.mem_append.mp hv with hv | hv
        · have hletters : (js "e+").all (· != 59) = true := by decide
          simpa using List.all_eq_true.mp hletters v hv
        · exact hdigit v (isDigit_of_mem_decimal hv)
  · have hrange : 48 ≤ u.toNat ∧ u.toNat ≤ 57 := by simpa [isDigit] using hu
    obtain ⟨hspace, hminus, hplus, -⟩ := isSpace_of_isDigit hu
    have htake : (u :: (fraction ++ js "e+" ++ decimal exponent)).takeWhile isDigit = [u] := by
      rw [List.takeWhile_cons_of_pos hu, hbehind]
    have hone : numeral? [u] = some (u.toNat - 48) := by
      rw [numeral?, digits, if_pos hrange, digits]
      simp [ofDigits]
    refine ⟨u.toNat - 48, by omega, ?_⟩
    unfold parseInt
    rw [List.dropWhile_cons_of_neg (by simp [hspace])]
    split
    next r hr => exact absurd (List.cons.inj hr).1 hminus
    next r hr => exact absurd (List.cons.inj hr).1 hplus
    next => rw [digitPrefix?, htake, hone]; rfl

/-- A NodeId object is read back from its text unless the namespace prints with an exponent. -/
theorem round_trip_iff {host : Host} (hprints : PrintsNaturals host) {n : NodeId}
    (hn : n.Natural) {props : List (JsString × JsValue)} (hprops : props.Perm n.props) :
    parseNodeId (.str (nodeIdToString host props)) = n.toValue ↔
      n.namespaceIndex < 10 ^ 21 := by
  rw [nodeIdToString_eq host hn.identifier hprops]
  rcases Nat.lt_or_ge n.namespaceIndex (10 ^ 21) with hsmall | hlarge
  · obtain ⟨hunits, hparse⟩ := parse_toText hprints hn.namespaceIndex hsmall
    rw [parseNodeId_separated hunits, hparse, if_pos hn.namespaceIndex.isFinite]
    exact iff_of_true rfl hsmall
  · obtain ⟨hunits, d, hd, hparse⟩ := parse_toText_exponent hprints hn.namespaceIndex hlarge
    have hdenotes : (Double.ofInt (d : Nat)).Denotes (d : Int) := Double.denotes_ofInt (by omega)
    rw [parseNodeId_separated hunits, hparse, if_pos hdenotes.isFinite]
    refine iff_of_false (fun heq => ?_) (by omega)
    have hmember := (List.cons.inj (JsValue.object.inj heq)).1
    have hsame : Double.ofInt (d : Nat) = Double.ofInt n.namespaceIndex :=
      JsValue.num.inj (Prod.mk.inj hmember).2
    have htrunc := hn.namespaceIndex.trunc
    rw [← hsame, hdenotes.trunc] at htrunc
    omega

/-- A NodeId comes back from its text exactly where the namespace prints with digits
only, and a text is parsed strictly exactly where it is read whole. -/
theorem nodeIdText_strict_iff {host : Host} (hprints : PrintsNaturals host) :
    (∀ (n : NodeId) (props : List (JsString × JsValue)), n.Natural → props.Perm n.props →
      (parseNodeId (.str (nodeIdToString host props)) = n.toValue ↔
        n.namespaceIndex < 10 ^ 21)) ∧
    ∀ s, parseNodeId (.str s) = (strictNodeId s).getD .null ↔ ReadsWhole s :=
  ⟨fun _ _ hn hprops => round_trip_iff hprints hn hprops, parseNodeId_iff⟩

/-- A host that prints every integer with digits below `10 ^ 21`. -/
def digitHost : Host :=
  { Host.inert with
    textOf := fun v => match v with
      | .num d => if d.trunc < 10 ^ 21 then intText d.trunc else js "1e+21"
      | _ => [] }

theorem digitHost_prints : PrintsNaturals digitHost where
  digits n hn _ hsmall := by
    refine ⟨n, ?_, rfl⟩
    have hlt : (n : Int) < 10 ^ 21 := by exact_mod_cast hsmall
    change (if _ then _ else _) = _
    rw [hn.trunc, if_pos hlt, intText, if_neg (by omega)]
    rfl
  exponent n hn hlarge := by
    refine ⟨49, [], 21, ?_, by decide, Or.inl rfl⟩
    have hge : ¬ (n : Int) < 10 ^ 21 := by
      rw [not_lt]
      exact_mod_cast hlarge
    change (if _ then _ else _) = _
    rw [hn.trunc, if_neg hge]
    decide +kernel

/-- The String identifier `Line1;Motor` of namespace 2. -/
def motorNodeId : NodeId := ⟨2, .string (js "Line1;Motor")⟩

theorem motorNodeId_round_trip :
    parseNodeId (.str (nodeIdToString digitHost motorNodeId.props)) = motorNodeId.toValue ∧
      parseNodeId (.str (js "i=84")) = (strictNodeId (js "i=84")).getD .null := by
  have hnatural : motorNodeId.Natural := ⟨Double.denotes_ofInt (by decide), trivial⟩
  have hwhole : ReadsWhole (js "i=84") := by
    refine ⟨by decide +kernel, fun digits h => ?_, fun h => ?_⟩
    · have happend : js "i=" ++ js "84" = js "i=" ++ digits := h
      have hdigits : js "84" = digits := List.append_cancel_left happend
      rw [← hdigits]
      decide +kernel
    · exact absurd h (by decide +kernel)
  obtain ⟨htrip, hstrict⟩ := nodeIdText_strict_iff digitHost_prints
  exact ⟨(htrip motorNodeId _ hnatural (List.Perm.refl _)).mpr (by decide),
    (hstrict (js "i=84")).mpr hwhole⟩

/-- The number of `i=12abc` is read up to the letters. -/
theorem numeric_truncated :
    ¬ ∀ s, parseNodeId (.str s) = (strictNodeId s).getD .null := by
  intro h
  exact absurd (h (js "i=12abc")) (by decide +kernel)

end OpcUaSuite.Utils
