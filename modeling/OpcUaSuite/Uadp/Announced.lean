import OpcUaSuite.Uadp.Wire

/-!
# Announced parts the decoder does not implement

PromotedFields and the PublisherId types without a meaning are rejected. The
other announcements have no gate: the bits are ignored, or looked up with a
default, and the message is read as one that does not announce anything.
-/

namespace OpcUaSuite.Uadp

open Js ByteCodec BinaryFloat PubSub

/-! ## Flag bytes -/

def uadpFlagsOf (buffer : Bytes) : Nat := (buffer.getD 0 0).toNat

def extFlags1Of (buffer : Bytes) : Nat :=
  if (uadpFlagsOf buffer).testBit 7 then (buffer.getD 1 0).toNat else 0

def extFlags2Of (buffer : Bytes) : Nat :=
  if (extFlags1Of buffer).testBit 7 then (buffer.getD 2 0).toNat else 0

def dsFlags1Of (message : Bytes) : Nat := (message.getD 0 0).toNat

def dsFlags2Of (message : Bytes) : Nat :=
  if (dsFlags1Of message).testBit 7 then (message.getD 1 0).toNat else 0

/-- A DataSetMessage of the buffer begins with these bytes: all that follow the
header, or those of one of the sizes announced. -/
def DataSetMessageAt (buffer message : Bytes) : Prop :=
  ∃ (head rest : Bytes) (extFlags2 count : Nat), buffer = head ++ rest ∧
    Wire.header head (extFlags2, count) ∧ extFlags2.testBit 0 = false ∧
    if count > 1 then
      ∃ (array : Bytes) (buffers : List Bytes) (tail : Bytes) (later : List Nat),
        rest = array ++ buffers.flatten ++ tail ∧
        Wire.sizes count array (buffers.map List.length ++ later) ∧ message ∈ buffers
    else message = rest

/-- FieldEncoding 11 or a DataSetMessage type from 4 to 15. -/
def Foreign (message : Bytes) : Prop :=
  dsFlags1Of message / 2 % 4 = 3 ∨ 4 ≤ dsFlags2Of message % 16

/-- What is announced without a gate: a SecurityHeader, a NetworkMessage type,
an ActionHeader, or a foreign DataSetMessage. -/
def AnnouncesUngated (buffer : Bytes) : Prop :=
  (extFlags1Of buffer).testBit 4 = true ∨ extFlags2Of buffer / 4 % 8 ≠ 0 ∨
    (extFlags2Of buffer).testBit 5 = true ∨
    ∃ message, DataSetMessageAt buffer message ∧ Foreign message

/-- What is announced and rejected: PromotedFields, or a PublisherId of type 5 to 7. -/
def AnnouncesGated (buffer : Bytes) : Prop :=
  (extFlags2Of buffer).testBit 1 = true ∨
    ((uadpFlagsOf buffer).testBit 4 = true ∧ 5 ≤ extFlags1Of buffer % 8)

def Announces (buffer : Bytes) : Prop := AnnouncesUngated buffer ∨ AnnouncesGated buffer

/-- An announcement of something not implemented is rejected. -/
def RejectsAnnounced (buffer : Bytes) : Prop :=
  Announces buffer → ∃ e, decodeNetworkMessage buffer = .error e

/-! ## The gates -/

theorem word_one {x : Bytes} {n : Nat} (h : Grammar.word 1 x n) : ∃ b, x = [b] ∧ n = b.toNat := by
  obtain ⟨hlen, rfl⟩ := h
  obtain ⟨b, rfl⟩ := List.length_eq_one_iff.mp hlen
  exact ⟨b, rfl, by simp [ofLe]⟩

/-- A flag byte stands at the front of what follows, when it is there. -/
theorem flags_getD {present : Bool} {x y : Bytes} {n : Nat} (h : Wire.flags present x n) :
    n = if present then ((x ++ y).getD 0 0).toNat else 0 := by
  unfold Wire.flags at h
  cases present with
  | false =>
      obtain ⟨-, rfl⟩ := h
      rfl
  | true =>
      obtain ⟨b, rfl, rfl⟩ := word_one h
      rfl

theorem flags_length {present : Bool} {x : Bytes} {n : Nat} (h : Wire.flags present x n) :
    x.length = if present then 1 else 0 := by
  unfold Wire.flags at h
  cases present with
  | false =>
      obtain ⟨rfl, -⟩ := h
      rfl
  | true => exact h.1

/-- The flags of a header are the first bytes of the buffer, and its PublisherId
has a type that is read. -/
theorem header_flags {head rest : Bytes} {extFlags2 count : Nat}
    (h : Wire.header head (extFlags2, count)) :
    extFlags2Of (head ++ rest) = extFlags2 ∧
      ((uadpFlagsOf (head ++ rest)).testBit 4 = true → extFlags1Of (head ++ rest) % 8 < 5) := by
  obtain ⟨x, y, uadpFlags, rfl, hx, h⟩ := h
  obtain ⟨u, rfl, rfl⟩ := word_one hx
  split at h
  · cases h
  obtain ⟨x₁, y₁, extFlags1, rfl, hflags1, x₂, y₂, extFlags2', rfl, hflags2, x₃, y₃, _, rfl,
    hpublisher, hrest⟩ := h
  have hu : uadpFlagsOf ([u] ++ (x₁ ++ (x₂ ++ (x₃ ++ y₃))) ++ rest) = u.toNat := rfl
  have h1 : extFlags1Of ([u] ++ (x₁ ++ (x₂ ++ (x₃ ++ y₃))) ++ rest) = extFlags1 := by
    rw [flags_getD (y := x₂ ++ (x₃ ++ y₃) ++ rest) hflags1, extFlags1Of, hu]
    simp
  have h2 : extFlags2Of ([u] ++ (x₁ ++ (x₂ ++ (x₃ ++ y₃))) ++ rest) = extFlags2' := by
    rw [flags_getD (y := x₃ ++ y₃ ++ rest) hflags2, extFlags2Of, h1]
    have hlen := flags_length hflags1
    cases hbit : extFlags1.testBit 7 with
    | false => rfl
    | true =>
        have hpresent : u.toNat.testBit 7 = true := by
          by_contra hne
          rw [flags_getD (y := []) hflags1, if_neg hne] at hbit
          cases hbit
        rw [if_pos hpresent] at hlen
        obtain ⟨b, rfl⟩ := List.length_eq_one_iff.mp hlen
        simp
  have hview : extFlags2' = extFlags2 := by
    obtain ⟨_, _, _, -, -, _, _, _, -, -, _, _, _, -, -, _, _, _, -, -, _, _, _, -, -, -, hview⟩ :=
      hrest
    exact (congrArg Prod.fst hview).symm
  refine ⟨h2.trans hview, fun hbit => ?_⟩
  rw [hu] at hbit
  rw [h1]
  unfold Wire.optional at hpublisher
  rw [if_pos hbit] at hpublisher
  by_contra hge
  obtain ⟨k, hk⟩ : ∃ k, extFlags1 % 8 = k + 5 := ⟨extFlags1 % 8 - 5, by omega⟩
  rw [hk] at hpublisher
  exact hpublisher

theorem message_not_gated {buffer : Bytes} (h : Wire.Message buffer) : ¬ AnnouncesGated buffer := by
  obtain ⟨head, rest, extFlags2, count, rfl, hhead, hpayload⟩ := h
  obtain ⟨hflags2, htype⟩ := @header_flags head rest extFlags2 count hhead
  rintro (hpromoted | ⟨hpublisher, hbad⟩)
  · rw [hflags2] at hpromoted
    unfold Wire.Payload at hpayload
    rw [if_pos hpromoted] at hpayload
    exact hpayload
  · have := htype hpublisher
    omega

/-- The decoder rejects what it does not implement, except in a complete message
that announces one of the parts without a gate. -/
theorem rejectsAnnounced_iff (buffer : Bytes) :
    RejectsAnnounced buffer ↔ ¬ (AnnouncesUngated buffer ∧ Wire.Message buffer) := by
  have hreject : (∃ e, decodeNetworkMessage buffer = .error e) ↔ ¬ Wire.Message buffer := by
    rw [← decodeNetworkMessage_iff]
    cases decodeNetworkMessage buffer <;> simp
  unfold RejectsAnnounced
  rw [hreject]
  constructor
  · rintro h ⟨hungated, hmessage⟩
    exact h (Or.inl hungated) hmessage
  · rintro h (hungated | hgated) hmessage
    · exact h ⟨hungated, hmessage⟩
    · exact message_not_gated hmessage hgated

/-- A SecurityHeader of three bytes is read as a DataSetMessage without fields. -/
theorem securityHeader_reinterpreted :
    ¬ RejectsAnnounced [0x81, 0x10, 0x01, 0x00, 0x00] ∧
      decodeNetworkMessage [0x81, 0x10, 0x01, 0x00, 0x00] = .ok {
        payload := [{
          valid := .bool true
          fieldEncoding := some .variant
          messageType := some .keyframe
          fields := some [] }] } := by
  have hdecode : decodeNetworkMessage [0x81, 0x10, 0x01, 0x00, 0x00] = .ok {
      payload := [{
        valid := .bool true
        fieldEncoding := some .variant
        messageType := some .keyframe
        fields := some [] }] } := by decide +kernel
  refine ⟨fun h => ?_, hdecode⟩
  obtain ⟨e, he⟩ := h (Or.inl (Or.inl (by decide)))
  rw [hdecode] at he
  cases he

end OpcUaSuite.Uadp
