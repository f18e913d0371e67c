import OpcUaSuite.Js.Date
import OpcUaSuite.Js.Object
import OpcUaSuite.Lib.Writer

/-!
# JSON texts

A text that `JSON.stringify` prints is represented by the value `JSON.parse`
reads from it. Two such texts are equal exactly when these values are, because
printing is canonical.
-/

namespace OpcUaSuite.Js

open ByteCodec

namespace Json

/-- The number a JSON text keeps: a zero loses its sign, and what is not finite
is printed as null. -/
def number (d : Double) : JsValue :=
  match d with
  | .finite _ _ _ => .num (if d.isZero then Double.zero else d)
  | _ => .null

/-- `Date.prototype.toJSON` -/
def date : Option Int → JsValue
  | none => .null
  | some time => .str (isoText time)

/-- `Buffer.prototype.toJSON` -/
def buffer (bytes : Bytes) : JsValue :=
  .object [(js "type", .str (js "Buffer")),
    (js "data", .array (bytes.map fun b => number (Double.ofInt b.toNat)))]

mutual

/-- `JSON.stringify`, as the value its text parses to; `undefined` has no text. -/
def stringify : JsValue → Except RuntimeError (Option JsValue)
  | .undefined => .ok none
  | .null => .ok (some .null)
  | .bool b => .ok (some (.bool b))
  | .num d => .ok (some (number d))
  | .bigint _ => .error .typeError
  | .str s => .ok (some (.str s))
  | .date time => .ok (some (date time))
  | .buffer bytes => .ok (some (buffer bytes))
  | .array items => do
      let texts ← stringifyItems items
      return some (.array texts)
  | .object props => do
      let texts ← stringifyProps props
      return some (.object texts)

/-- The items of an array; what has no text is printed as null. -/
def stringifyItems : List JsValue → Except RuntimeError (List JsValue)
  | [] => .ok []
  | v :: vs => do
      let text ← stringify v
      let texts ← stringifyItems vs
      return text.getD .null :: texts

/-- The members of an object; what has no text is left out. -/
def stringifyProps : List (JsString × JsValue) → Except RuntimeError (List (JsString × JsValue))
  | [] => .ok []
  | (key, v) :: props => do
      let text ← stringify v
      let texts ← stringifyProps props
      return (text.map fun t => (key, t)).toList ++ texts

end

theorem stringify_number (d : Double) : stringify (number d) = .ok (some (number d)) := by
  unfold number
  split
  next neg exp frac =>
    split
    next => rfl
    next h => rw [stringify, number, if_neg h]
  next => rfl

theorem stringifyItems_numbers (ds : List Double) :
    stringifyItems (ds.map number) = .ok (ds.map number) := by
  induction ds with
  | nil => rfl
  | cons d ds ih =>
      rw [List.map_cons, stringifyItems, stringify_number, ih]
      rfl

theorem stringify_buffer (bytes : Bytes) : stringify (buffer bytes) = .ok (some (buffer bytes)) := by
  have hitems := stringifyItems_numbers (bytes.map fun b => Double.ofInt b.toNat)
  rw [List.map_map] at hitems
  have harray : stringify (.array (bytes.map fun b => number (Double.ofInt b.toNat))) =
      .ok (some (.array (bytes.map fun b => number (Double.ofInt b.toNat)))) := by
    rw [stringify]
    exact bind_eq_ok.mpr ⟨_, hitems, rfl⟩
  rw [buffer, stringify, stringifyProps, stringifyProps, stringifyProps, harray]
  rfl

mutual

/-- Printing what a text parses to gives the text back. -/
theorem stringify_stringify {v t : JsValue} (h : stringify v = .ok (some t)) :
    stringify t = .ok (some t) := by
  cases v with
  | undefined => cases h
  | null | bool _ | str _ =>
      cases h
      rfl
  | bigint _ => cases h
  | num d =>
      cases h
      exact stringify_number d
  | date time =>
      cases h
      cases time <;> rfl
  | buffer bytes =>
      cases h
      exact stringify_buffer bytes
  | array items =>
      rw [stringify] at h
      obtain ⟨texts, htexts, h⟩ := bind_eq_ok.mp h
      cases h
      rw [stringify]
      exact bind_eq_ok.mpr ⟨texts, stringifyItems_stringifyItems htexts, rfl⟩
  | object props =>
      rw [stringify] at h
      obtain ⟨texts, htexts, h⟩ := bind_eq_ok.mp h
      cases h
      rw [stringify]
      exact bind_eq_ok.mpr ⟨texts, stringifyProps_stringifyProps htexts, rfl⟩

theorem stringifyItems_stringifyItems {vs ts : List JsValue} (h : stringifyItems vs = .ok ts) :
    stringifyItems ts = .ok ts := by
  cases vs with
  | nil =>
      cases h
      rfl
  | cons v vs =>
      rw [stringifyItems] at h
      obtain ⟨text, htext, h⟩ := bind_eq_ok.mp h
      obtain ⟨texts, htexts, h⟩ := bind_eq_ok.mp h
      cases h
      rw [stringifyItems, stringifyItems_stringifyItems htexts]
      cases text with
      | none => rfl
      | some t =>
          rw [Option.getD_some, stringify_stringify htext]
          rfl

theorem stringifyProps_stringifyProps {props ts : List (JsString × JsValue)}
    (h : stringifyProps props = .ok ts) : stringifyProps ts = .ok ts := by
  cases props with
  | nil =>
      cases h
      rfl
  | cons p props =>
      rw [stringifyProps] at h
      obtain ⟨text, htext, h⟩ := bind_eq_ok.mp h
      obtain ⟨texts, htexts, h⟩ := bind_eq_ok.mp h
      cases h
      cases text with
      | none => exact stringifyProps_stringifyProps htexts
      | some t =>
          change stringifyProps ((p.1, t) :: texts) = _
          rw [stringifyProps, stringify_stringify htext, stringifyProps_stringifyProps htexts]
          rfl

end

/-! ## Keys -/

/-- The text a property of a value has; a key without a property has none. -/
def textAt (v : JsValue) (key : JsString) : Except RuntimeError (Option JsValue) :=
  match Props.get? key (ownProps v) with
  | none => .ok none
  | some w => stringify w

/-- `JSON.stringify` does not throw, and its result is a text. -/
def Printable (v : JsValue) : Prop := ∃ text, stringify v = .ok (some text)

theorem keys_sublist_stringifyProps {props texts : List (JsString × JsValue)}
    (h : stringifyProps props = .ok texts) :
    (InsertionMap.keys texts).Sublist (InsertionMap.keys props) := by
  induction props generalizing texts with
  | nil =>
      cases h
      exact List.Sublist.refl _
  | cons p props ih =>
      rw [stringifyProps] at h
      obtain ⟨text, -, h⟩ := bind_eq_ok.mp h
      obtain ⟨rest, hrest, h⟩ := bind_eq_ok.mp h
      cases h
      cases text with
      | none => exact (ih hrest).cons p.1
      | some t => exact (ih hrest).cons_cons p.1

/-- The text of an object holds under a key the text of its property. -/
theorem textAt_object {props texts : List (JsString × JsValue)}
    (hnodup : (InsertionMap.keys props).Nodup) (h : stringifyProps props = .ok texts)
    (key : JsString) : textAt (.object props) key = .ok (Props.get? key texts) := by
  induction props generalizing texts with
  | nil =>
      cases h
      rfl
  | cons p props ih =>
      obtain ⟨name, v⟩ := p
      obtain ⟨hnot, hnodup⟩ := List.nodup_cons.mp hnodup
      rw [stringifyProps] at h
      obtain ⟨text, htext, h⟩ := bind_eq_ok.mp h
      obtain ⟨rest, hrest, h⟩ := bind_eq_ok.mp h
      cases h
      have hkeys := keys_sublist_stringifyProps hrest
      by_cases hkey : name = key
      · subst hkey
        have hnone : Props.get? name rest = none :=
          InsertionMap.get?_eq_none_iff.mpr fun hmem => hnot (hkeys.subset hmem)
        have hself : textAt (.object ((name, v) :: props)) name = stringify v := by
          simp [textAt, ownProps, Props.get?, InsertionMap.get?]
        rw [hself, htext]
        cases text with
        | none => exact congrArg Except.ok hnone.symm
        | some t => simp [Props.get?, InsertionMap.get?]
      · have hother : textAt (.object ((name, v) :: props)) key = textAt (.object props) key := by
          simp [textAt, ownProps, Props.get?, InsertionMap.get?, hkey]
        rw [hother, ih hnodup hrest]
        cases text with
        | none => rfl
        | some t => simp [Props.get?, InsertionMap.get?, hkey]

/-- Objects whose keys stand in one order have the same text when every key has. -/
theorem stringify_eq_iff {ks : List JsString} (hks : ks.Nodup)
    {a b : List (JsString × JsValue)} (ha : (InsertionMap.keys a).Sublist ks)
    (hb : (InsertionMap.keys b).Sublist ks) {s t : JsValue}
    (hs : stringify (.object a) = .ok (some s)) (ht : stringify (.object b) = .ok (some t)) :
    s = t ↔ ∀ key, textAt (.object a) key = textAt (.object b) key := by
  rw [stringify] at hs ht
  obtain ⟨texts, htexts, hs⟩ := bind_eq_ok.mp hs
  obtain ⟨texts', htexts', ht⟩ := bind_eq_ok.mp ht
  cases hs
  cases ht
  have hat := textAt_object (hks.sublist ha) htexts
  have hat' := textAt_object (hks.sublist hb) htexts'
  constructor
  · intro heq key
    cases heq
    rw [hat, hat']
  · intro hsame
    refine congrArg JsValue.object (InsertionMap.ext_of_sublist hks
      ((keys_sublist_stringifyProps htexts).trans ha)
      ((keys_sublist_stringifyProps htexts').trans hb) fun key => ?_)
    exact Except.ok.inj ((hat key).symm.trans ((hsame key).trans (hat' key)))

end Json

end OpcUaSuite.Js
