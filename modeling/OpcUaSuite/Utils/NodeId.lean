import OpcUaSuite.Js.Object

/-!
# NodeId texts

`parseNodeId` and `nodeIdToString` of the utility functions. A NodeId is a plain
object with a namespace index, the name of its identifier type and a value; the
text puts the namespace first.
-/

namespace OpcUaSuite.Utils

open Js

/-! ## Numbers -/

/-- The white space and line terminators a number may follow. -/
def isSpace (u : UInt16) : Bool :=
  (9 ≤ u && u ≤ 13) || u == 32 || u == 0xa0 || u == 0x1680 || (0x2000 ≤ u && u ≤ 0x200a) ||
    u == 0x2028 || u == 0x2029 || u == 0x202f || u == 0x205f || u == 0x3000 || u == 0xfeff

def isDigit (u : UInt16) : Bool := decide (48 ≤ u.toNat ∧ u.toNat ≤ 57)

/-- The number of the longest prefix of digits. -/
def digitPrefix? (s : JsString) : Option Nat := numeral? (s.takeWhile isDigit)

def negate (n : Nat) : Double := if n = 0 then Double.negZero else Double.ofInt (-n)

/-- `parseInt(s, 10)` -/
def parseInt (s : JsString) : Double :=
  match s.dropWhile isSpace with
  | 45 :: s => ((digitPrefix? s).map negate).getD .nan
  | 43 :: s => ((digitPrefix? s).map fun n : Nat => Double.ofInt n).getD .nan
  | s => ((digitPrefix? s).map fun n : Nat => Double.ofInt n).getD .nan

/-! ## Parsing -/

/-- `WELL_KNOWN_NODES` -/
def wellKnownNodes : List (JsString × JsString) :=
  [(js "RootFolder", js "i=84"), (js "ObjectsFolder", js "i=85"), (js "TypesFolder", js "i=86"),
    (js "ViewsFolder", js "i=87"), (js "ObjectTypesFolder", js "i=88"),
    (js "VariableTypesFolder", js "i=89"), (js "DataTypesFolder", js "i=90"),
    (js "ReferenceTypesFolder", js "i=91"), (js "Server", js "i=2253"),
    (js "ServerStatus", js "i=2256")]

/-- A NodeId object, as the parser builds it. -/
def nodeId (namespaceIndex : JsValue) (identifierType : JsString) (value : JsValue) : JsValue :=
  .object [(js "namespaceIndex", namespaceIndex), (js "identifierType", .str identifierType),
    (js "value", value)]

/-- `parseIdentifier` -/
def parseIdentifier (identifier : JsString) (namespaceIndex : JsValue) : JsValue :=
  match identifier with
  | 115 :: 61 :: s => nodeId namespaceIndex (js "String") (.str s)
  | 105 :: 61 :: s => nodeId namespaceIndex (js "Numeric") (.num (parseInt s))
  | 103 :: 61 :: s => nodeId namespaceIndex (js "Guid") (.str s)
  | 98 :: 61 :: s => nodeId namespaceIndex (js "ByteString") (.str s)
  | _ => .null

/-- `/^[sibg]=/` -/
def hasIdentifierType : JsString → Bool
  | u :: 61 :: _ => u == 115 || u == 105 || u == 98 || u == 103
  | _ => false

def startsNamespace : JsString → Bool
  | 110 :: 115 :: 61 :: _ => true
  | _ => false

/-- A text with a semicolon: what is before the first one may be a namespace. -/
def parseNamespace (s head identifier : JsString) : JsValue :=
  if startsNamespace head then
    if (parseInt (head.drop 3)).isFinite then
      parseIdentifier identifier (.num (parseInt (head.drop 3)))
    else .null
  else parseIdentifier s (.nat 0)

/-- A text that is not empty, after the well-known names are resolved. -/
def parseNodeIdText (s : JsString) : JsValue :=
  if s.contains 59 then
    parseNamespace s (s.takeWhile (· != 59)) ((s.dropWhile (· != 59)).drop 1)
  else if hasIdentifierType s then parseIdentifier s (.nat 0)
  else if s.all isDigit then nodeId (.nat 0) (js "Numeric") (.num (parseInt s))
  else nodeId (.nat 0) (js "String") (.str s)

/-- `parseNodeId`; a name the table inherits finds no text, which is null again. -/
def parseNodeId : JsValue → JsValue
  | .str [] => .null
  | .str s =>
      if s ∈ inheritedNames then .null
      else parseNodeIdText ((InsertionMap.get? s wellKnownNodes).getD s)
  | _ => .null

/-! ## Printing -/

/-- The letter of an identifier: its type decides, then the kind of its value. -/
def identifierLetter (identifierType value : JsValue) : JsString :=
  if identifierType = .str (js "Guid") then js "g="
  else if identifierType = .str (js "ByteString") then js "b="
  else if identifierType = .str (js "String") then js "s="
  else match value with
    | .str _ => js "s="
    | .num _ => js "i="
    | _ => if identifierType = .str (js "Numeric") then js "i=" else js "s="

/-- `nodeIdToString` of an object. -/
def nodeIdToString (host : Host) (props : List (JsString × JsValue)) : JsString :=
  let member name := (Props.get? name props).getD .undefined
  let namespaceIndex :=
    if member (js "namespaceIndex") = .undefined then .nat 0 else member (js "namespaceIndex")
  js "ns=" ++ host.toText namespaceIndex ++
    59 :: identifierLetter (member (js "identifierType")) (member (js "value")) ++
    host.toText (member (js "value"))

/-! ## Round trip -/

inductive Identifier
  | numeric (value : Nat)
  | string (value : JsString)
  | guid (value : JsString)
  | byteString (value : JsString)
deriving DecidableEq

/-- What a NodeId object stands for. -/
structure NodeId where
  namespaceIndex : Nat
  identifier : Identifier
deriving DecidableEq

namespace Identifier

def typeName : Identifier → JsString
  | .numeric _ => js "Numeric"
  | .string _ => js "String"
  | .guid _ => js "Guid"
  | .byteString _ => js "ByteString"

def value : Identifier → JsValue
  | .numeric n => .nat n
  | .string s | .guid s | .byteString s => .str s

/-- The text after the namespace. -/
def text : Identifier → JsString
  | .numeric n => js "i=" ++ decimal n
  | .string s => js "s=" ++ s
  | .guid s => js "g=" ++ s
  | .byteString s => js "b=" ++ s

/-- A UInt32, or any text. -/
def InRange : Identifier → Prop
  | .numeric n => n < 2 ^ 32
  | _ => True

end Identifier

namespace NodeId

def props (n : NodeId) : List (JsString × JsValue) :=
  [(js "namespaceIndex", .nat n.namespaceIndex), (js "identifierType", .str n.identifier.typeName),
    (js "value", n.identifier.value)]

def toValue (n : NodeId) : JsValue := .object n.props

def text (n : NodeId) : JsString :=
  js "ns=" ++ decimal n.namespaceIndex ++ 59 :: n.identifier.text

structure InRange (n : NodeId) : Prop where
  namespaceIndex : n.namespaceIndex < 2 ^ 16
  identifier : n.identifier.InRange

end NodeId

theorem takeWhile_isDigit {s t : JsString} {ds : List Nat} (hs : digits s = some ds)
    (ht : t.takeWhile isDigit = []) : (s ++ t).takeWhile isDigit = s := by
  induction s generalizing ds with
  | nil => exact ht
  | cons u s ih =>
      rw [digits] at hs
      split at hs
      next hu =>
        obtain ⟨ds', hds', -⟩ := Option.map_eq_some_iff.mp hs
        rw [List.cons_append, List.takeWhile_cons_of_pos (by simpa [isDigit] using hu), ih hds']
      next => cases hs

theorem digitPrefix?_decimal (n : Nat) : digitPrefix? (decimal n) = some n := by
  obtain ⟨ds, hds, -, -⟩ := digits_decimal n
  have htake := takeWhile_isDigit (t := []) hds rfl
  rw [List.append_nil] at htake
  rw [digitPrefix?, htake, numeral?_decimal]

/-- The first character of a decimal text is a digit. -/
theorem decimal_cons (n : Nat) : ∃ u s, decimal n = u :: s ∧ isDigit u = true := by
  obtain ⟨ds, hds, hne, -⟩ := digits_decimal n
  cases htext : decimal n with
  | nil =>
      rw [htext] at hds
      cases hds
      exact absurd rfl hne
  | cons u s =>
      refine ⟨u, s, rfl, ?_⟩
      rw [htext, digits] at hds
      split at hds
      next hu => simpa [isDigit] using hu
      next => cases hds

theorem isSpace_of_isDigit {u : UInt16} (h : isDigit u = true) :
    isSpace u = false ∧ u ≠ 45 ∧ u ≠ 43 ∧ u ≠ 59 := by
  have hdigit : 48 ≤ u.toNat ∧ u.toNat ≤ 57 := by simpa [isDigit] using h
  simp only [isSpace, ne_eq, ← UInt16.toNat_inj, Bool.or_eq_false_iff, Bool.and_eq_false_iff,
    decide_eq_false_iff_not, UInt16.le_iff_toNat_le, beq_eq_false_iff_ne]
  simp
  omega

theorem parseInt_decimal (n : Nat) : parseInt (decimal n) = Double.ofInt n := by
  obtain ⟨u, s, htext, hu⟩ := decimal_cons n
  obtain ⟨hspace, hminus, hplus, -⟩ := isSpace_of_isDigit hu
  have hdrop : (decimal n).dropWhile isSpace = decimal n := by
    rw [htext, List.dropWhile_cons_of_neg (by simp [hspace])]
  unfold parseInt
  rw [hdrop]
  split
  next t ht => exact absurd (List.cons.inj (htext.symm.trans ht)).1 hminus
  next t ht => exact absurd (List.cons.inj (htext.symm.trans ht)).1 hplus
  next => rw [digitPrefix?_decimal]; rfl

theorem isDigit_of_mem_decimal {n : Nat} {u : UInt16} (h : u ∈ decimal n) : isDigit u = true := by
  obtain ⟨ds, hds, -, -⟩ := digits_decimal n
  have htake := takeWhile_isDigit (t := []) hds rfl
  rw [List.append_nil] at htake
  rw [← htake] at h
  exact List.all_eq_true.mp List.all_takeWhile u h

theorem parseIdentifier_text (i : Identifier) (namespaceIndex : JsValue) :
    parseIdentifier i.text namespaceIndex = nodeId namespaceIndex i.typeName i.value := by
  cases i with
  | numeric n =>
      change nodeId namespaceIndex _ (.num (parseInt (decimal n))) = _
      rw [parseInt_decimal]
      rfl
  | string s => rfl
  | guid s => rfl
  | byteString s => rfl

/-- No well-known name and no name of an object's prototype begins like a text. -/
theorem parseNodeId_namespace {s : JsString} (h : startsNamespace s = true) :
    parseNodeId (.str s) = parseNodeIdText s := by
  have hinherited : ∀ t ∈ inheritedNames, startsNamespace t = false := by decide
  have hknown : ∀ t ∈ wellKnownNodes.map Prod.fst, startsNamespace t = false := by decide
  have hnot : s ∉ inheritedNames := fun hmem => by
    rw [hinherited s hmem] at h
    cases h
  have hnone : InsertionMap.get? s wellKnownNodes = none := by
    refine InsertionMap.get?_eq_none_iff.mpr fun hmem => ?_
    rw [hknown s hmem] at h
    cases h
  cases s with
  | nil => cases h
  | cons u s =>
      change (if _ then _ else _) = _
      rw [if_neg hnot, hnone, Option.getD_none]

/-- The text of a namespace ends at the first semicolon. -/
theorem split_namespace {h : JsString} (hh : ∀ u ∈ h, u ≠ 59) (t : JsString) :
    (js "ns=" ++ h ++ 59 :: t).takeWhile (· != 59) = js "ns=" ++ h ∧
      ((js "ns=" ++ h ++ 59 :: t).dropWhile (· != 59)).drop 1 = t := by
  have hstart : (js "ns=").all (· != 59) = true := by decide
  have hunits : ∀ u ∈ js "ns=" ++ h, (u != 59) = true := by
    refine List.forall_mem_append.mpr ⟨List.all_eq_true.mp hstart, fun u hu => ?_⟩
    simpa using hh u hu
  rw [List.takeWhile_append_of_pos hunits, List.dropWhile_append_of_pos hunits]
  exact ⟨by simp, by simp⟩

/-- A namespace and an identifier are read on the two sides of the first semicolon. -/
theorem parseNodeId_separated {h : JsString} (hh : ∀ u ∈ h, u ≠ 59) (i : Identifier) :
    parseNodeId (.str (js "ns=" ++ h ++ 59 :: i.text)) =
      if (parseInt h).isFinite then nodeId (.num (parseInt h)) i.typeName i.value else .null := by
  obtain ⟨hhead, hrest⟩ := split_namespace hh i.text
  have hcontains : (js "ns=" ++ h ++ 59 :: i.text).contains 59 = true := by
    simp
  have hdrop : (js "ns=" ++ h).drop 3 = h := rfl
  rw [parseNodeId_namespace rfl, parseNodeIdText, if_pos hcontains, hhead, hrest, parseNamespace,
    if_pos (show startsNamespace (js "ns=" ++ h) = true from rfl), hdrop, parseIdentifier_text]

/-- The text of a NodeId is read back. -/
theorem parseNodeId_text {n : NodeId} (h : n.InRange) : parseNodeId (.str n.text) = n.toValue := by
  have hfinite : (Double.ofInt n.namespaceIndex).isFinite = true := by
    have hns := h.namespaceIndex
    exact (Double.denotes_ofInt (by omega)).isFinite
  have hunits : ∀ u ∈ decimal n.namespaceIndex, u ≠ 59 := fun u hu =>
    (isSpace_of_isDigit (isDigit_of_mem_decimal hu)).2.2.2
  rw [NodeId.text, parseNodeId_separated hunits, parseInt_decimal, if_pos hfinite]
  rfl

theorem toText_nat {host : Host} {n : Nat} (h : n < 2 ^ 53) : host.toText (.nat n) = decimal n := by
  have hd : (Double.ofInt n).Denotes n := Double.denotes_ofInt (by omega)
  have hsmall : (n : Int).natAbs < 2 ^ 53 := by omega
  change (if _ then _ else _) = _
  rw [hd.isInteger, hd.trunc, if_pos (by simpa using hsmall), intText, if_neg (by omega)]
  rfl

/-- An object has the members of a NodeId, in any order. -/
theorem get?_of_perm {n : NodeId} {props : List (JsString × JsValue)} (h : props.Perm n.props)
    {name : JsString} {value : JsValue} (hmem : (name, value) ∈ n.props) :
    Props.get? name props = some value := by
  have hkeys : (InsertionMap.keys n.props).Nodup := by
    change [js "namespaceIndex", js "identifierType", js "value"].Nodup
    decide
  have hnodup : (InsertionMap.keys props).Nodup := (h.map Prod.fst).nodup_iff.mpr hkeys
  exact InsertionMap.get?_of_mem hnodup (h.mem_iff.mpr hmem)

theorem identifierLetter_numeric (d : Double) :
    identifierLetter (.str (js "Numeric")) (.num d) = js "i=" := by
  have hno : ∀ t ∈ [js "Guid", js "ByteString", js "String"],
      JsValue.str (js "Numeric") ≠ .str t := by decide
  rw [identifierLetter, if_neg (hno _ (by simp)), if_neg (hno _ (by simp)),
    if_neg (hno _ (by simp))]

theorem identifierLetter_string (v : JsValue) :
    identifierLetter (.str (js "String")) v = js "s=" := by
  have hno : ∀ t ∈ [js "Guid", js "ByteString"], JsValue.str (js "String") ≠ .str t := by decide
  unfold identifierLetter
  rw [if_neg (hno _ (by simp)), if_neg (hno _ (by simp)), if_pos rfl]

theorem identifierLetter_guid (v : JsValue) :
    identifierLetter (.str (js "Guid")) v = js "g=" := if_pos rfl

theorem identifierLetter_byteString (v : JsValue) :
    identifierLetter (.str (js "ByteString")) v = js "b=" := by
  have hno : JsValue.str (js "ByteString") ≠ .str (js "Guid") := by decide
  unfold identifierLetter
  rw [if_neg hno, if_pos rfl]

theorem identifier_text {host : Host} {i : Identifier} (h : i.InRange) :
    identifierLetter (.str i.typeName) i.value ++ host.toText i.value = i.text := by
  cases i with
  | numeric n =>
      have hrange : n < 2 ^ 32 := h
      have hletter : identifierLetter (.str (js "Numeric")) (.nat n) = js "i=" :=
        identifierLetter_numeric _
      change identifierLetter (.str (js "Numeric")) (.nat n) ++ host.toText (.nat n) = _
      rw [hletter, toText_nat (by omega)]
      rfl
  | string s => exact congrArg (· ++ s) (identifierLetter_string (.str s))
  | guid s => exact congrArg (· ++ s) (identifierLetter_guid (.str s))
  | byteString s => exact congrArg (· ++ s) (identifierLetter_byteString (.str s))

/-- An object with the members of a NodeId is printed with the text of its namespace. -/
theorem nodeIdToString_eq (host : Host) {n : NodeId} (hn : n.identifier.InRange)
    {props : List (JsString × JsValue)} (h : props.Perm n.props) :
    nodeIdToString host props =
      js "ns=" ++ host.toText (.nat n.namespaceIndex) ++ 59 :: n.identifier.text := by
  have hnamespace := get?_of_perm h List.mem_cons_self
  have htype := get?_of_perm h (List.mem_cons_of_mem _ List.mem_cons_self)
  have hvalue := get?_of_perm h
    (List.mem_cons_of_mem _ (List.mem_cons_of_mem _ List.mem_cons_self))
  have hdefined : JsValue.nat n.namespaceIndex ≠ .undefined := nofun
  unfold nodeIdToString
  simp only [hnamespace, htype, hvalue, Option.getD_some, if_neg hdefined]
  rw [List.append_assoc, List.cons_append, identifier_text hn, List.append_assoc]

/-- A NodeId object is printed as the text of what it stands for. -/
theorem nodeIdToString_of_perm {host : Host} {n : NodeId} (hn : n.InRange)
    {props : List (JsString × JsValue)} (h : props.Perm n.props) :
    nodeIdToString host props = n.text := by
  have hns := hn.namespaceIndex
  rw [nodeIdToString_eq host hn.identifier h, toText_nat (by omega)]
  rfl

end OpcUaSuite.Utils
