import OpcUaSuite.Variants.Delivered

/-!
# NodeIds as objects and as texts

A NodeId can be written as the object `parseNodeId` makes or as its canonical
text. Both reach `resolveNodeId`, the object without the namespace of
`namespaceIndex`, the text without the white space at its end.
-/

namespace OpcUaSuite.Variants

open Js Utils

/-! ## What a text spells -/

/-- The text of the identifier, behind the namespace if there is one. -/
def identifierPart (s : JsString) : JsString :=
  if s.contains 59 && startsNamespace s then afterSemicolon s else s

/-- The text has a Numeric identifier. -/
def numericText (s : JsString) : Bool :=
  (InsertionMap.get? s wellKnownNodes).isSome || s.all isDigit ||
    match identifierPart s with
    | 105 :: 61 :: _ => true
    | _ => false

def NamespaceZero (s : JsString) : Prop :=
  s.contains 59 = true → startsNamespace s = true → (parseInt (namespaceText s)).isZero = true

def trailingSpace (s : JsString) : Bool := s.getLast?.any isSpace

/-- The texts whose object and whose canonical text stand for one NodeId. -/
def SameNodeId (s : JsString) : Prop :=
  NamespaceZero s ∧ (numericText s = true ∨ trailingSpace s = false)

/-- The types of identifiers that are texts. -/
def textTypes : List (UInt16 × JsString) :=
  [(115, js "String"), (103, js "Guid"), (98, js "ByteString")]

/-- The identifier read from a text: a number, or the end of the text. -/
inductive IdentifierRead (s : JsString) : UInt16 → JsString → JsValue → Prop
  | numeric (d : Js.Double) (h : numericText s = true) :
      IdentifierRead s 105 (js "Numeric") (.num d)
  | text {letter : UInt16} {type : JsString} (start x : JsString)
      (htype : (letter, type) ∈ textTypes) (h : numericText s = false) (hs : s = start ++ x)
      (hstart : x = [] → start.getLast? = some 61) : IdentifierRead s letter type (.str x)

/-- A NodeId object that was read from a text. -/
structure NodeIdRead (s : JsString) (v : JsValue) (d : Js.Double) (letter : UInt16)
    (type : JsString) (value : JsValue) : Prop where
  object : v = nodeId (.num d) type value
  zero : NamespaceZero s ↔ d.isZero = true
  identifier : IdentifierRead s letter type value

theorem isZero_zero : (Double.ofInt (0 : Nat)).isZero = true := by decide +kernel

/-- An identifier that stands at the end of a text that is no well-known name. -/
theorem identifierRead_of_parse {s start t : JsString} {namespaceIndex : JsValue}
    {props : List (JsString × JsValue)} (h : parseIdentifier t namespaceIndex = .object props)
    (hs : s = start ++ t) (hpart : identifierPart s = t)
    (hknown : InsertionMap.get? s wellKnownNodes = none) :
    ∃ letter type value, parseIdentifier t namespaceIndex = nodeId namespaceIndex type value ∧
      IdentifierRead s letter type value := by
  have htype : hasIdentifierType t = true := by
    by_contra hno
    rw [parseIdentifier_null _ (Bool.eq_false_iff.mpr hno)] at h
    cases h
  obtain ⟨u, x, rfl, hu⟩ := exists_of_hasIdentifierType htype
  have hdigits : s.all isDigit = false := by
    rw [hs, List.all_append, List.all_cons, List.all_cons, show isDigit 61 = false from rfl]
    simp
  have htext : ∀ type, (u, type) ∈ textTypes → u ≠ 105 →
      IdentifierRead s u type (.str x) := by
    intro type htype hne
    refine .text (start ++ [u, 61]) x htype ?_ (by simp [hs]) (by simp)
    rw [numericText, hknown, hdigits, hpart]
    simp only [Option.isSome_none, Bool.or_self, Bool.false_or]
    split
    next heq => exact absurd (List.cons.inj heq).1 hne
    next => rfl
  rcases hu with rfl | rfl | rfl | rfl
  · exact ⟨115, _, _, rfl, htext (js "String") (by decide) (by decide)⟩
  · refine ⟨105, _, _, rfl, .numeric _ ?_⟩
    rw [numericText, hpart]
    simp
  · exact ⟨98, _, _, rfl, htext (js "ByteString") (by decide) (by decide)⟩
  · exact ⟨103, _, _, rfl, htext (js "Guid") (by decide) (by decide)⟩

theorem wellKnown_read {s t : JsString} (h : InsertionMap.get? s wellKnownNodes = some t) :
    ∃ x, t = 105 :: 61 :: x ∧ t.contains 59 = false ∧ startsNamespace s = false := by
  have htexts : ∀ p ∈ wellKnownNodes, p.2.take 2 = [105, 61] ∧ p.2.contains 59 = false ∧
      startsNamespace p.1 = false := by decide +kernel
  obtain ⟨htake, hcontains, hstarts⟩ := htexts _ (InsertionMap.mem_of_get? h)
  refine ⟨t.drop 2, ?_, hcontains, hstarts⟩
  have hsplit := List.take_append_drop 2 t
  rw [htake] at hsplit
  exact hsplit.symm

theorem namespaceZero_of_not {s : JsString} (h : startsNamespace s = false) : NamespaceZero s := by
  intro _ hstarts
  rw [h] at hstarts
  cases hstarts

/-- A text with a semicolon. -/
theorem nodeIdRead_separated {s : JsString} {props : List (JsString × JsValue)}
    (hknown : InsertionMap.get? s wellKnownNodes = none) (hcontains : s.contains 59 = true)
    (h : parseNodeIdText s = .object props) :
    ∃ d letter type value, NodeIdRead s (parseNodeIdText s) d letter type value := by
  rw [parseNodeIdText, if_pos hcontains, parseNamespace, startsNamespace_takeWhile] at h ⊢
  cases hstarts : startsNamespace s with
  | true =>
      rw [hstarts, if_pos rfl] at h
      rw [if_pos rfl]
      split at h
      next hfinite =>
        rw [if_pos hfinite]
        have hpart : identifierPart s = afterSemicolon s := by
          rw [identifierPart, hcontains, hstarts]
          rfl
        have hs : s = s.takeWhile (· != 59) ++ [59] ++ afterSemicolon s := by
          have hmem : (59 : UInt16) ∈ s := by simpa using hcontains
          have hhead : ∃ rest, s.dropWhile (· != 59) = 59 :: rest := by
            have hne : s.dropWhile (· != 59) ≠ [] := fun hnil => by
              have hall := List.dropWhile_eq_nil_iff.mp hnil 59 hmem
              simp at hall
            obtain ⟨u, rest, hrest⟩ := List.exists_cons_of_ne_nil hne
            have hu := List.head?_dropWhile_not (· != (59 : UInt16)) s
            rw [hrest] at hu
            obtain rfl : u = 59 := by simpa using hu
            exact ⟨rest, hrest⟩
          obtain ⟨rest, hrest⟩ := hhead
          rw [afterSemicolon, hrest, List.append_assoc]
          have hsplit := List.takeWhile_append_dropWhile (p := (· != (59 : UInt16))) (l := s)
          rw [hrest] at hsplit
          exact hsplit.symm
        obtain ⟨letter, type, value, heq, hread⟩ := identifierRead_of_parse h hs hpart hknown
        refine ⟨_, letter, type, value, heq, ?_, hread⟩
        exact ⟨fun hzero => hzero hcontains hstarts, fun hzero _ _ => hzero⟩
      next => cases h
  | false =>
      rw [hstarts] at h
      have hpart : identifierPart s = s := by
        rw [identifierPart, hcontains, hstarts]
        rfl
      obtain ⟨letter, type, value, heq, hread⟩ :=
        identifierRead_of_parse h (List.nil_append s).symm hpart hknown
      exact ⟨_, letter, type, value, heq,
        iff_of_true (namespaceZero_of_not hstarts) isZero_zero, hread⟩

/-- A text without one. -/
theorem nodeIdRead_unseparated {s : JsString} {props : List (JsString × JsValue)}
    (hknown : InsertionMap.get? s wellKnownNodes = none) (hcontains : s.contains 59 = false)
    (hne : s ≠ []) (h : parseNodeIdText s = .object props) :
    ∃ d letter type value, NodeIdRead s (parseNodeIdText s) d letter type value := by
  have hzero : NamespaceZero s ↔ (Double.ofInt (0 : Nat)).isZero = true := by
    refine iff_of_true (fun h => ?_) isZero_zero
    rw [hcontains] at h
    cases h
  have hpart : identifierPart s = s := by
    rw [identifierPart, hcontains]
    rfl
  rw [parseNodeIdText, hcontains, if_neg Bool.false_ne_true] at h ⊢
  cases htype : hasIdentifierType s with
  | true =>
      rw [htype, if_pos rfl] at h
      rw [if_pos rfl]
      obtain ⟨letter, type, value, heq, hread⟩ :=
        identifierRead_of_parse h (List.nil_append s).symm hpart hknown
      exact ⟨_, letter, type, value, heq, hzero, hread⟩
  | false =>
      rw [if_neg Bool.false_ne_true]
      cases hdigits : s.all isDigit with
      | true =>
          refine ⟨_, _, _, _, rfl, hzero, .numeric _ ?_⟩
          rw [numericText, hdigits, Bool.or_true]
          rfl
      | false =>
          refine ⟨_, 115, _, _, rfl, hzero, .text [] s (by decide) ?_ rfl fun h => absurd h hne⟩
          rw [numericText, hknown, hdigits, hpart]
          split
          next heq => cases htype
          next => rfl

/-- Every object the parser makes is read so. -/
theorem nodeIdRead_of_parse {s : JsString} {props : List (JsString × JsValue)}
    (h : parseNodeId (.str s) = .object props) :
    ∃ d letter type value, NodeIdRead s (parseNodeId (.str s)) d letter type value := by
  have hne : s ≠ [] := by
    rintro rfl
    cases h
  have hown : s ∉ inheritedNames := by
    intro hmem
    obtain ⟨u, r, rfl⟩ := List.exists_cons_of_ne_nil hne
    change (if _ then _ else _) = _ at h
    rw [if_pos hmem] at h
    cases h
  have hparse : parseNodeId (.str s) =
      parseNodeIdText ((InsertionMap.get? s wellKnownNodes).getD s) := by
    obtain ⟨u, r, rfl⟩ := List.exists_cons_of_ne_nil hne
    change (if _ then _ else _) = _
    rw [if_neg hown]
  rw [hparse] at h ⊢
  cases hknown : InsertionMap.get? s wellKnownNodes with
  | some t =>
      obtain ⟨x, rfl, hcontains, hstarts⟩ := wellKnown_read hknown
      refine ⟨Double.ofInt (0 : Nat), 105, _, _, ⟨?_, ?_, .numeric (parseInt x) ?_⟩⟩
      · rw [Option.getD_some, parseNodeIdText, hcontains]
        rfl
      · exact iff_of_true (namespaceZero_of_not hstarts) isZero_zero
      · rw [numericText, hknown]
        rfl
  | none =>
      rw [hknown, Option.getD_none] at h
      rw [Option.getD_none]
      cases hcontains : s.contains 59 with
      | true => exact nodeIdRead_separated hknown hcontains h
      | false => exact nodeIdRead_unseparated hknown hcontains hne h

/-! ## Texts of numbers and white space -/

/-- How a number prints that is no integer of 53 bits: zero alone as `0`, and none
with white space or a semicolon. -/
structure PrintsPlainly (host : Host) : Prop where
  zero : ∀ d, host.textOf (.num d) = js "0" → d.isZero = true
  units : ∀ d, ∀ u ∈ host.textOf (.num d), isSpace u = false ∧ u ≠ 59

variable {host : Host}

theorem intText_eq_zero {i : Int} (h : intText i = js "0") : i = 0 := by
  have hread := congrArg integer? h
  rw [integer?_intText] at hread
  exact Option.some.inj hread

theorem units_intText (i : Int) : ∀ u ∈ intText i, isSpace u = false ∧ u ≠ 59 := by
  have hdecimal : ∀ n : Nat, ∀ u ∈ decimal n, isSpace u = false ∧ u ≠ 59 := fun n u hu =>
    have hunit := isSpace_of_isDigit (isDigit_of_mem_decimal hu)
    ⟨hunit.1, hunit.2.2.2⟩
  intro u hu
  unfold intText at hu
  split at hu
  · rcases List.mem_cons.mp hu with rfl | hu
    · decide
    · exact hdecimal _ u hu
  · exact hdecimal _ u hu

theorem units_toText (hhost : PrintsPlainly host) (d : Js.Double) :
    ∀ u ∈ host.toText (.num d), isSpace u = false ∧ u ≠ 59 := by
  rw [Host.toText]
  split
  · exact units_intText _
  · exact hhost.units d

/-- Zero is the number that prints as `0`. -/
theorem toText_eq_zero_iff (hhost : PrintsPlainly host) (d : Js.Double) :
    host.toText (.num d) = js "0" ↔ d.isZero = true := by
  constructor
  · intro h
    change (if _ then _ else _) = _ at h
    split at h
    next hint =>
      have hinteger := (Bool.and_eq_true_iff.mp hint).1
      have hdenotes := BinaryFloat.Value.denotes_trunc hinteger
      rw [intText_eq_zero h] at hdenotes
      exact BinaryFloat.Value.isZero_iff_denotes.mpr hdenotes
    next => exact hhost.zero d h
  · intro h
    have hdenotes := BinaryFloat.Value.isZero_iff_denotes.mp h
    change (if _ then _ else _) = _
    rw [hdenotes.isInteger, hdenotes.trunc]
    rfl

theorem rdropWhile_append_cons {α : Type} {p : α → Bool} (xs ys : List α) {a : α}
    (h : p a = false) : (xs ++ a :: ys).rdropWhile p = xs ++ a :: ys.rdropWhile p := by
  induction ys using List.reverseRecOn with
  | nil =>
      rw [List.rdropWhile_concat_neg p xs a (by simp [h])]
      rfl
  | append_singleton ys b ih =>
      rw [← List.cons_append, ← List.append_assoc]
      cases hb : p b with
      | true => rw [List.rdropWhile_concat_pos p _ _ hb, List.rdropWhile_concat_pos p _ _ hb, ih]
      | false =>
          rw [List.rdropWhile_concat_neg p _ _ (by simp [hb]),
            List.rdropWhile_concat_neg p _ _ (by simp [hb])]
          simp

/-- `trim` of a NodeId text touches the end of the identifier only. -/
theorem trim_separated (n v : JsString) {t : UInt16} :
    trim (js "ns=" ++ n ++ 59 :: t :: 61 :: v) =
      js "ns=" ++ n ++ 59 :: t :: 61 :: v.rdropWhile isSpace := by
  have hstart : (js "ns=" ++ n ++ 59 :: t :: 61 :: v).dropWhile isSpace =
      js "ns=" ++ n ++ 59 :: t :: 61 :: v := rfl
  have hsplit : ∀ w : JsString, js "ns=" ++ n ++ 59 :: t :: 61 :: w =
      (js "ns=" ++ n ++ [59, t]) ++ 61 :: w := by simp
  rw [trim, hstart, hsplit, rdropWhile_append_cons _ _ (show isSpace 61 = false from rfl), hsplit]

theorem rdropWhile_eq_self_iff_trailingSpace (s : JsString) :
    s.rdropWhile isSpace = s ↔ trailingSpace s = false := by
  rw [List.rdropWhile_eq_self_iff, trailingSpace]
  induction s using List.reverseRecOn with
  | nil => simp
  | append_singleton s u => simp

/-! ## The two ways to write it -/

namespace IdentifierRead

variable {rt : Runtime} {s type : JsString} {letter : UInt16} {value : JsValue}

theorem letter_mem (h : IdentifierRead s letter type value) : letter ∈ [105, 115, 103, 98] := by
  cases h with
  | numeric d h => decide
  | text start x htype =>
      have hall : ∀ p ∈ textTypes, p.1 ∈ [105, 115, 103, 98] := by decide
      exact hall _ htype

/-- The table of the objects has the letter the text prints. -/
theorem lookup (h : IdentifierRead s letter type value) :
    InsertionMap.get? type identifierTypes = some [letter] := by
  cases h with
  | numeric d h => decide +kernel
  | text start x htype =>
      have hall : ∀ p ∈ textTypes, InsertionMap.get? p.2 identifierTypes = some [p.1] := by
        decide +kernel
      exact hall _ htype

theorem printed (h : IdentifierRead s letter type value) :
    identifierLetter (.str type) value = [letter, 61] := by
  cases h with
  | numeric d h => exact identifierLetter_numeric d
  | text start x htype =>
      have hcases : (letter = 115 ∧ type = js "String") ∨ (letter = 103 ∧ type = js "Guid") ∨
          (letter = 98 ∧ type = js "ByteString") := by simpa [textTypes] using htype
      rcases hcases with ⟨rfl, rfl⟩ | ⟨rfl, rfl⟩ | ⟨rfl, rfl⟩
      · exact identifierLetter_string _
      · exact identifierLetter_guid _
      · exact identifierLetter_byteString _

theorem text_ofJs (rt : Runtime) (h : IdentifierRead s letter type value) :
    (Value.ofJs value).isUndefined = false ∧
      rt.text (Value.ofJs value) = rt.host.toText value := by
  cases h with
  | numeric d h => exact ⟨rfl, rfl⟩
  | text start x htype => exact ⟨rfl, rfl⟩

/-- The text of the identifier keeps its end where the whole text does. -/
theorem kept_iff (hhost : PrintsPlainly rt.host) (h : IdentifierRead s letter type value) :
    (rt.host.toText value).rdropWhile isSpace = rt.host.toText value ↔
      numericText s = true ∨ trailingSpace s = false := by
  cases h with
  | numeric d hnumeric =>
      refine iff_of_true (List.rdropWhile_eq_self_iff.mpr fun hne => ?_) (Or.inl hnumeric)
      simp [(units_toText hhost d _ (List.getLast_mem hne)).1]
  | text start x htype hnumeric hs hstart =>
      change x.rdropWhile isSpace = x ↔ _
      rw [rdropWhile_eq_self_iff_trailingSpace, hnumeric, hs]
      simp only [Bool.false_eq_true, false_or, trailingSpace]
      rcases eq_or_ne x [] with rfl | hx
      · rw [List.append_nil, hstart rfl]
        exact iff_of_true rfl (by decide)
      · rw [List.getLast?_append_of_ne_nil _ hx]

end IdentifierRead

variable {lib : Library} {rt : Runtime}

/-- A NodeId is built from what `resolveNodeId` gives. -/
theorem buildVariant_nodeId (hlib : lib.ReadsNodeIds) {v : Value} {id : LibraryNodeId}
    (hv : (∃ s, v = .str s) ∨ ∃ props, v = .object props)
    (hid : toNodeId lib rt v = .ok (.nodeId id)) :
    buildVariant lib rt v (.str (js "NodeId")) .null =
      .ok (.variant .NodeId .Scalar (.nodeId id)) := by
  have hbuild : buildVariant lib rt v (.str (js "NodeId")) .null =
      buildTyped lib rt v (some .NodeId) .null := by
    refine buildVariant_of_names (Or.inl rfl) (by decide) ?_
    rcases hv with ⟨s, rfl⟩ | ⟨props, rfl⟩ <;> exact nofun
  have hconvert : convert lib rt .NodeId false v = .ok (.nodeId id) := by
    rcases hv with ⟨s, rfl⟩ | ⟨props, rfl⟩ <;> exact hid
  have harray : asArray false (some .NodeId) v = false := by
    rcases hv with ⟨s, rfl⟩ | ⟨props, rfl⟩ <;> rfl
  rw [hbuild, buildTyped]
  simp only [show wantsArray .null = false from rfl, Bool.false_and, Bool.false_eq_true, if_false,
    chosenType, Option.some_or, harray, hconvert, hlib.keeps]

/-- The object of a NodeId names namespace 0, whatever its index is. -/
theorem toNodeId_object (hlib : lib.ReadsNodeIds) {s type : JsString} {d : Js.Double}
    {letter : UInt16} {value : JsValue} (h : IdentifierRead s letter type value) :
    toNodeId lib rt (.ofJs (nodeId (.num d) type value)) =
      .ok (.nodeId ⟨js "0", letter, rt.host.toText value⟩) := by
  have hunits : ∀ u ∈ js "0", u ≠ 59 := by
    intro u hu
    obtain rfl : u = 48 := List.mem_singleton.mp hu
    decide
  have hresolve := hlib.literal (rt.host.toText value) hunits h.letter_mem
  obtain ⟨hdefined, htext⟩ := h.text_ofJs rt
  have hfrom : fromParsedNodeId lib rt (.ofJs (nodeId (.num d) type value)) =
      some (.ok ⟨js "0", letter, rt.host.toText value⟩) := by
    have htype : (Value.ofJs (nodeId (.num d) type value)).member (js "identifierType") =
        .str type := rfl
    have hnamespace : (Value.ofJs (nodeId (.num d) type value)).member (js "namespace") =
        .undefined := rfl
    have hvalue : (Value.ofJs (nodeId (.num d) type value)).member (js "value") =
        .ofJs value := rfl
    have hkey : rt.text (.str type) = type := rfl
    unfold fromParsedNodeId
    simp only [htype, hnamespace, hvalue, hdefined, htext, hkey, h.lookup, Value.truthy,
      Bool.false_eq_true, if_false, Option.map_some]
    rw [← hresolve]
    simp
  rw [toNodeId]
  · simp only [hfrom]
    rfl
  all_goals
    intro _ heq
    cases heq

theorem toNodeId_text (hlib : lib.ReadsNodeIds) (hhost : PrintsPlainly rt.host) {s type : JsString}
    {d : Js.Double} {letter : UInt16} {value : JsValue} {props : List (JsString × JsValue)}
    (h : IdentifierRead s letter type value)
    (hprops : JsValue.object props = nodeId (.num d) type value) :
    toNodeId lib rt (.str (nodeIdToString rt.host props)) =
      .ok (.nodeId ⟨rt.host.toText (.num d), letter,
        (rt.host.toText value).rdropWhile isSpace⟩) := by
  have htext : nodeIdToString rt.host props =
      js "ns=" ++ rt.host.toText (.num d) ++ 59 :: letter :: 61 :: rt.host.toText value := by
    rw [JsValue.object.inj hprops]
    have hprinted := h.printed
    change js "ns=" ++ rt.host.toText (if JsValue.num d = .undefined then _ else JsValue.num d) ++
      59 :: identifierLetter (.str type) value ++ rt.host.toText value = _
    rw [hprinted, if_neg nofun]
    simp
  have hresolve := hlib.literal ((rt.host.toText value).rdropWhile isSpace)
    (fun u hu => (units_toText hhost d u hu).2) h.letter_mem
  change (lib.resolveNodeId (trim _)).map Value.nodeId = _
  rw [htext, trim_separated, hresolve]
  rfl

/-- The object and the canonical text of a NodeId make a Variant of the same NodeId
exactly when the namespace is 0 and no white space ends the identifier. -/
theorem parsedNodeId_denotes_iff (hlib : lib.ReadsNodeIds) (hhost : PrintsPlainly rt.host)
    {s : JsString} {props : List (JsString × JsValue)}
    (h : parseNodeId (.str s) = .object props) :
    (∃ id, buildVariant lib rt (.ofJs (.object props)) (.str (js "NodeId")) .null =
        .ok (.variant .NodeId .Scalar (.nodeId id)) ∧
      buildVariant lib rt (.str (nodeIdToString rt.host props)) (.str (js "NodeId")) .null =
        .ok (.variant .NodeId .Scalar (.nodeId id))) ↔ SameNodeId s := by
  obtain ⟨d, letter, type, value, hobject, hzero, hread⟩ := nodeIdRead_of_parse h
  rw [h] at hobject
  have hid : toNodeId lib rt (.ofJs (.object props)) =
      .ok (.nodeId ⟨js "0", letter, rt.host.toText value⟩) := by
    rw [hobject]
    exact toNodeId_object hlib hread
  have hleft := buildVariant_nodeId (v := .ofJs (.object props)) hlib (Or.inr ⟨_, rfl⟩) hid
  have hright := buildVariant_nodeId hlib (Or.inl ⟨_, rfl⟩)
    (toNodeId_text hlib hhost hread hobject)
  rw [hright, hleft, SameNodeId, hzero, ← toText_eq_zero_iff hhost, ← hread.kept_iff hhost]
  constructor
  · rintro ⟨id, hobjectId, htextId⟩
    have hsame := hobjectId.trans htextId.symm
    simp only [Except.ok.injEq, Value.variant.injEq, true_and, Value.nodeId.injEq,
      LibraryNodeId.mk.injEq] at hsame
    exact ⟨hsame.1.symm, hsame.2.symm⟩
  · rintro ⟨hnamespace, hkept⟩
    rw [hnamespace, hkept]
    exact ⟨_, rfl, rfl⟩

theorem printsPlainly_inert : PrintsPlainly Host.inert where
  zero _ h := by cases h
  units _ _ h := by cases h

/-- The members of the String identifier `Motor`. -/
def motorProps (namespaceIndex : Nat) : List (JsString × JsValue) :=
  [(js "namespaceIndex", .nat namespaceIndex), (js "identifierType", .str (js "String")),
    (js "value", .str (js "Motor"))]

theorem motor_same :
    ∃ id, buildVariant literalLibrary plainRuntime (.ofJs (.object (motorProps 0)))
        (.str (js "NodeId")) .null = .ok (.variant .NodeId .Scalar (.nodeId id)) ∧
      buildVariant literalLibrary plainRuntime
        (.str (nodeIdToString plainRuntime.host (motorProps 0))) (.str (js "NodeId")) .null =
          .ok (.variant .NodeId .Scalar (.nodeId id)) := by
  have hparse : parseNodeId (.str (js "ns=0;s=Motor")) = .object (motorProps 0) := by
    decide +kernel
  refine (parsedNodeId_denotes_iff literalLibrary_readsNodeIds printsPlainly_inert hparse).mpr ?_
  exact ⟨fun _ _ => by decide +kernel, Or.inr (by decide +kernel)⟩

/-- The object of `ns=2;s=Motor` stands for a NodeId of namespace 0. -/
theorem namespace_lost :
    ¬ ∀ (s : JsString) (props : List (JsString × JsValue)),
      parseNodeId (.str s) = .object props →
      ∃ id, buildVariant literalLibrary plainRuntime (.ofJs (.object props)) (.str (js "NodeId"))
          .null = .ok (.variant .NodeId .Scalar (.nodeId id)) ∧
        buildVariant literalLibrary plainRuntime (.str (nodeIdToString plainRuntime.host props))
          (.str (js "NodeId")) .null = .ok (.variant .NodeId .Scalar (.nodeId id)) := by
  intro hsame
  have hparse : parseNodeId (.str (js "ns=2;s=Motor")) = .object (motorProps 2) := by
    decide +kernel
  have hread : IdentifierRead (js "ns=2;s=Motor") 115 (js "String") (.str (js "Motor")) :=
    .text (js "ns=2;s=") _ (by decide) (by decide +kernel) (by decide +kernel) nofun
  obtain ⟨id, hobject, htext⟩ := hsame _ _ hparse
  rw [buildVariant_nodeId (v := .ofJs (.object (motorProps 2))) literalLibrary_readsNodeIds
    (Or.inr ⟨_, rfl⟩) (toNodeId_object (d := Double.ofInt (2 : Nat)) literalLibrary_readsNodeIds
      hread)] at hobject
  have hmotor : JsValue.object (motorProps 2) =
      nodeId (.num (Double.ofInt (2 : Nat))) (js "String") (.str (js "Motor")) := rfl
  rw [buildVariant_nodeId literalLibrary_readsNodeIds (Or.inl ⟨_, rfl⟩)
    (toNodeId_text literalLibrary_readsNodeIds printsPlainly_inert hread hmotor)] at htext
  have hboth := hobject.trans htext.symm
  simp only [Except.ok.injEq, Value.variant.injEq, true_and, Value.nodeId.injEq,
    LibraryNodeId.mk.injEq] at hboth
  exact absurd hboth.1 (by decide +kernel)

end OpcUaSuite.Variants
