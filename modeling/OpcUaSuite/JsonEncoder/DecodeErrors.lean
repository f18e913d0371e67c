import OpcUaSuite.JsonEncoder.Codec

/-!
# Errors of the JSON decoder

The decoder checks the elements of a text in their order. An element that is
missing or of the wrong kind is reported with a code and its path. A value that
its constructor rejects raises the constructor's own error, and arrays nested
deeper than the stack goes raise a RangeError; neither has a code or a path.
-/

namespace OpcUaSuite.JsonEncoder

open Js ByteCodec PubSub

/-! ## Elements of a text -/

def requiredMembers : List JsString := [js "MessageId", js "MessageType", js "Messages"]

def messagePath (i : Nat) : JsString := js "Messages[" ++ decimal i ++ js "]"

def fieldPath (path name : JsString) : JsString := path ++ js ".Payload." ++ name

/-- The path of an element that is missing or of another kind than its place asks for. -/
inductive Offends : Text → JsString → Prop
  | text : Offends none []
  | top {v : JsValue} (h : isObject v = false) : Offends (some v) []
  | required {v : JsValue} {name : JsString} (hname : name ∈ requiredMembers)
      (h : memberOf v name = .undefined) : Offends (some v) name
  | messages {v : JsValue} (h : ∀ items, memberOf v (js "Messages") ≠ .array items) :
      Offends (some v) (js "Messages")
  | message {v m : JsValue} {items : List JsValue} {i : Nat}
      (hitems : memberOf v (js "Messages") = .array items) (hm : items[i]? = some m)
      (h : isObject m = false) : Offends (some v) (messagePath i)
  | payload {v m : JsValue} {items : List JsValue} {i : Nat}
      (hitems : memberOf v (js "Messages") = .array items) (hm : items[i]? = some m)
      (h : isObject (memberOf m (js "Payload")) = false) :
      Offends (some v) (messagePath i ++ js ".Payload")
  | variant {v m w : JsValue} {items : List JsValue} {i : Nat} {name : JsString}
      (hitems : memberOf v (js "Messages") = .array items) (hm : items[i]? = some m)
      (hw : (name, w) ∈ ownProps (memberOf m (js "Payload"))) (h : isObject w = false) :
      Offends (some v) (fieldPath (messagePath i) name)
  | uaType {v m w : JsValue} {items : List JsValue} {i : Nat} {name : JsString}
      (hitems : memberOf v (js "Messages") = .array items) (hm : items[i]? = some m)
      (hw : (name, w) ∈ ownProps (memberOf m (js "Payload")))
      (h : ∀ d, memberOf w (js "UaType") ≠ .num d) :
      Offends (some v) (fieldPath (messagePath i) name ++ js ".UaType")

/-- The decoder returns a message, or an error with one of its codes and the path
of an element that offends. -/
def Structured (text : Text) : Except JsonError NetworkMessage → Prop
  | .ok _ => True
  | .error e => ∃ code path, e.code = some code ∧ js "JSON_DECODE_" <+: code ∧
      e.path = some path ∧ Offends text path

/-! ## Failures in the order of the text -/

/-- An element that fails: by its path when it offends, without one when its
constructor rejects it or its arrays are nested too deep to be converted. -/
abbrev Failure := Option JsString

def rejected {α : Type} : Except RuntimeError α → List Failure
  | .ok _ => []
  | .error _ => [none]

variable (host : Host)

def variantFailures (path : JsString) (w : JsValue) : List Failure :=
  if isObject w then
    match memberOf w (js "UaType") with
    | .num uaType => rejected (convertValueFromJson host (memberOf w (js "Value")) uaType)
    | _ => [some (path ++ js ".UaType")]
  else [some path]

def fieldFailures (path : JsString) (fields : List (JsString × JsValue)) : List Failure :=
  fields.flatMap fun e => variantFailures host (fieldPath path e.1) e.2

def messageFailures (path : JsString) (m : JsValue) : List Failure :=
  if isObject m then
    rejected (timestampOf host (memberOf m (js "Timestamp"))) ++
      (rejected (messageTypeOf host (memberOf m (js "MessageType"))) ++
        if isObject (memberOf m (js "Payload")) then
          fieldFailures host path (ownProps (memberOf m (js "Payload")))
        else [some (path ++ js ".Payload")])
  else [some path]

/-- The failures of the messages from an index on. -/
def messagesFailures : Nat → List JsValue → List Failure
  | _, [] => []
  | i, m :: ms => messageFailures host (messagePath i) m ++ messagesFailures (i + 1) ms

def objectFailures (v : JsValue) : List Failure :=
  match memberOf v (js "Messages") with
  | .array items =>
      rejected (timestampOf host (memberOf v (js "Timestamp"))) ++ messagesFailures host 0 items
  | _ => [some (js "Messages")]

/-- All elements of a text that fail, in the order in which they stand. -/
def failures : Text → List Failure
  | none => [some []]
  | some v =>
      if isObject v then
        ((requiredMembers.filter fun name => memberOf v name = .undefined).map some) ++
          objectFailures host v
      else [some []]

/-! ## The first failure -/

/-- A result is an error exactly when something fails, and names the first failure. -/
def Reports {α : Type} (x : Except JsonError α) (fs : List Failure) : Prop :=
  match x with
  | .ok _ => fs = []
  | .error e => fs.head? = some e.path

variable {host}

theorem Reports.bind {α β : Type} {x : Except JsonError α} {f : α → Except JsonError β}
    {fs gs : List Failure} (hx : Reports x fs) (hf : ∀ a, x = .ok a → Reports (f a) gs) :
    Reports (x >>= f) (fs ++ gs) := by
  cases x with
  | ok a =>
      obtain rfl : fs = [] := hx
      exact hf a rfl
  | error e =>
      have hhead : fs.head? = some e.path := hx
      exact (List.head?_append_of_ne_nil fs (by rintro rfl; cases hhead)).trans hhead

theorem Reports.map {α β : Type} {x : Except JsonError α} {fs : List Failure} (hx : Reports x fs)
    (f : α → β) : Reports (x >>= fun a => .ok (f a)) fs := by
  have h : Reports (x >>= fun a => .ok (f a)) (fs ++ []) := hx.bind fun _ _ => rfl
  rwa [List.append_nil] at h

theorem reports_rejected {α : Type} (x : Except RuntimeError α) :
    Reports (liftRuntime x) (rejected x) := by
  cases x with
  | ok a => rfl
  | error e => rfl

theorem reports_variant (path : JsString) (w : JsValue) :
    Reports (decodeVariant host w path) (variantFailures host path w) := by
  unfold decodeVariant variantFailures
  cases isObject w with
  | false => rfl
  | true =>
      simp only [if_true]
      cases memberOf w (js "UaType") with
      | num d =>
          exact (reports_rejected (convertValueFromJson host (memberOf w (js "Value")) d)).map
            fun value => Variant.mk (dataTypeOf d) value none
      | _ => rfl

theorem reports_fields (path : JsString) (fields : List (JsString × JsValue)) :
    Reports (decodeFields host path fields) (fieldFailures host path fields) := by
  induction fields with
  | nil => rfl
  | cons e fields ih =>
      apply (reports_variant (fieldPath path e.1) e.2).bind
      intro variant _
      exact ih.map fun rest => (e.1, .variant variant) :: rest

theorem reports_message (path : JsString) (m : JsValue) :
    Reports (decodeDataSetMessage host m path) (messageFailures host path m) := by
  unfold decodeDataSetMessage messageFailures
  cases isObject m with
  | false => rfl
  | true =>
      apply (reports_rejected _).bind
      intro timestamp _
      apply (reports_rejected _).bind
      intro messageType _
      cases isObject (memberOf m (js "Payload")) with
      | false => rfl
      | true => exact (reports_fields path _).map _

theorem reports_messages (i : Nat) (items : List JsValue) :
    Reports (decodeMessages host i items) (messagesFailures host i items) := by
  induction items generalizing i with
  | nil => rfl
  | cons m items ih =>
      apply (reports_message (messagePath i) m).bind
      intro dsm _
      exact (ih (i + 1)).map fun rest => dsm :: rest

theorem reports_object (v : JsValue) :
    Reports (decodeObject host v) (objectFailures host v) := by
  unfold decodeObject objectFailures
  cases memberOf v (js "Messages") with
  | array items =>
      apply (reports_rejected _).bind
      intro timestamp _
      exact (reports_messages 0 items).map _
  | _ => rfl

/-- The decoder reports the first failure of a text. -/
theorem reports_decode (text : Text) :
    Reports (decodeNetworkMessage host text) (failures host text) := by
  cases text with
  | none => rfl
  | some v =>
      rw [decodeNetworkMessage, failures]
      cases hobject : isObject v with
      | false => rfl
      | true =>
          rw [if_pos rfl, if_pos rfl]
          cases hmissing : missingMember? v with
          | some name =>
              rw [missingMember?, ← List.head?_filter] at hmissing
              obtain ⟨rest, hrest⟩ := List.head?_eq_some_iff.mp hmissing
              rw [requiredMembers, hrest]
              rfl
          | none =>
              rw [missingMember?, ← List.head?_filter, List.head?_eq_none_iff] at hmissing
              rw [requiredMembers, hmissing]
              exact reports_object v

/-! ## Failures with a path -/

theorem not_mem_rejected {α : Type} {x : Except RuntimeError α} {path : JsString} :
    some path ∉ rejected x := by
  cases x with
  | ok a => exact List.not_mem_nil
  | error e => exact fun h => nomatch List.mem_singleton.mp h

theorem offends_variant {v m w : JsValue} {items : List JsValue} {i : Nat} {name path : JsString}
    (hitems : memberOf v (js "Messages") = .array items) (hm : items[i]? = some m)
    (hw : (name, w) ∈ ownProps (memberOf m (js "Payload")))
    (h : some path ∈ variantFailures host (fieldPath (messagePath i) name) w) :
    Offends (some v) path := by
  unfold variantFailures at h
  split at h
  next hobject =>
    split at h
    next d hd => exact absurd h not_mem_rejected
    next hnumber =>
      cases List.mem_singleton.mp h
      exact Offends.uaType hitems hm hw hnumber
  next hobject =>
    cases List.mem_singleton.mp h
    exact Offends.variant hitems hm hw (Bool.eq_false_iff.mpr hobject)

theorem offends_message {v m : JsValue} {items : List JsValue} {i : Nat} {path : JsString}
    (hitems : memberOf v (js "Messages") = .array items) (hm : items[i]? = some m)
    (h : some path ∈ messageFailures host (messagePath i) m) : Offends (some v) path := by
  unfold messageFailures at h
  split at h
  next hobject =>
    rw [List.mem_append, List.mem_append] at h
    rcases h with h | h | h
    · exact absurd h not_mem_rejected
    · exact absurd h not_mem_rejected
    · split at h
      next hpayload =>
        obtain ⟨⟨name, w⟩, hw, hpath⟩ := List.mem_flatMap.mp h
        exact offends_variant hitems hm hw hpath
      next hpayload =>
        cases List.mem_singleton.mp h
        exact Offends.payload hitems hm (Bool.eq_false_iff.mpr hpayload)
  next hobject =>
    cases List.mem_singleton.mp h
    exact Offends.message hitems hm (Bool.eq_false_iff.mpr hobject)

theorem mem_messagesFailures {f : Failure} {k : Nat} {items : List JsValue}
    (h : f ∈ messagesFailures host k items) :
    ∃ i m, items[i]? = some m ∧ f ∈ messageFailures host (messagePath (k + i)) m := by
  induction items generalizing k with
  | nil => cases h
  | cons m items ih =>
      rcases List.mem_append.mp h with h | h
      · exact ⟨0, m, rfl, h⟩
      · obtain ⟨i, m', hm', hf⟩ := ih h
        refine ⟨i + 1, m', hm', ?_⟩
        rwa [Nat.add_assoc, Nat.add_comm 1 i] at hf

/-- A failure with a path is an element that offends. -/
theorem offends_of_mem {text : Text} {path : JsString} (h : some path ∈ failures host text) :
    Offends text path := by
  cases text with
  | none =>
      cases List.mem_singleton.mp h
      exact Offends.text
  | some v =>
      rw [failures] at h
      split at h
      next hobject =>
        rcases List.mem_append.mp h with h | h
        · obtain ⟨name, hname, heq⟩ := List.mem_map.mp h
          cases heq
          obtain ⟨hmem, hundefined⟩ := List.mem_filter.mp hname
          exact Offends.required hmem (of_decide_eq_true hundefined)
        · unfold objectFailures at h
          split at h
          next items hitems =>
            rcases List.mem_append.mp h with h | h
            · exact absurd h not_mem_rejected
            · obtain ⟨i, m, hm, hf⟩ := mem_messagesFailures h
              rw [Nat.zero_add] at hf
              exact offends_message hitems hm hf
          next harray =>
            cases List.mem_singleton.mp h
            exact Offends.messages harray
      next hobject =>
        cases List.mem_singleton.mp h
        exact Offends.top (Bool.eq_false_iff.mpr hobject)

/-- Every error with a path has a code of the decoder. -/
theorem code_of_path {e : JsonError} {path : JsString} (h : e.path = some path) :
    ∃ code, e.code = some code ∧ js "JSON_DECODE_" <+: code := by
  cases e with
  | encodeUnknownType _ | runtime _ => cases h
  | parse => exact ⟨_, rfl, by decide⟩
  | topLevel | messagesNoArray | uaTypeNoNumber _ => exact ⟨_, rfl, by decide⟩
  | requiredMissing _ | dataSetMessageMissing _ | payloadMissing _ | variantMissing _ =>
      exact ⟨_, rfl, by decide⟩

/-- The decoder returns a message or a structured error exactly when the first
element that fails is not one its constructor rejects or the stack cannot hold. -/
theorem structured_iff (host : Host) (text : Text) :
    Structured text (decodeNetworkMessage host text) ↔ (failures host text).head? ≠ some none := by
  have hreports := @reports_decode host text
  cases hdecode : decodeNetworkMessage host text with
  | ok nm =>
      rw [hdecode] at hreports
      have hnone : failures host text = [] := hreports
      rw [hnone]
      exact iff_of_true trivial nofun
  | error e =>
      rw [hdecode] at hreports
      have hhead : (failures host text).head? = some e.path := hreports
      rw [hhead]
      cases hpath : e.path with
      | none =>
          refine iff_of_false ?_ fun h => h rfl
          rintro ⟨code, path, -, -, hsome, -⟩
          cases hpath.symm.trans hsome
      | some path =>
          obtain ⟨code, hcode, hprefix⟩ := code_of_path hpath
          rw [hpath] at hhead
          refine iff_of_true ?_ nofun
          exact ⟨code, path, hcode, hprefix, hpath, offends_of_mem (List.mem_of_head? hhead)⟩

/-- A message with one field of the given type. -/
def textOfField (uaType : Nat) (value : JsValue) : JsValue :=
  .object [(js "MessageId", .str (js "m")), (js "MessageType", .str (js "ua-data")),
    (js "Messages", .array [.object [(js "Payload", .object [(js "t",
      .object [(js "UaType", .nat uaType), (js "Value", value)])])]])]

/-- `BigInt("abc")` raises a SyntaxError without a code. -/
theorem bigInt_unstructured : ¬ ∀ (host : Host) (text : Text),
    Structured text (decodeNetworkMessage host text) := by
  intro h
  have hstructured := h Host.inert (some (textOfField 8 (.str (js "abc"))))
  have hdecode : decodeNetworkMessage Host.inert (some (textOfField 8 (.str (js "abc")))) =
      .error (.runtime .syntaxError) := by
    decide +kernel
  rw [hdecode] at hstructured
  obtain ⟨code, path, hcode, -⟩ := hstructured
  cases hcode

end OpcUaSuite.JsonEncoder
