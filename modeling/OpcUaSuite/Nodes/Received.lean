import OpcUaSuite.Nodes.Subscriber
import OpcUaSuite.Transports.Udp
import OpcUaSuite.Uadp.AnyOrder
import OpcUaSuite.Uadp.RoundTrip

/-!
# A message on its way to a subscriber

The frames of one UADP message reach a subscriber through the UDP transport,
which reassembles them, or over MQTT, where the node does. In either case and in
any order the subscriber handles the whole message once.
-/

namespace OpcUaSuite.Nodes

open Js ByteCodec PubSub Uadp Transports

variable (host : Host) (config : SubscriberConfig) (topic : Option JsString)

/-- A frame and the time at which it arrives. -/
abbrev Arrival := Int × Bytes

/-- The reassembler that stands before the subscriber: that of a UDP transport
with this `mtu`, or its own. -/
def initialReassembler (mtu : Nat) : Reassembler :=
  match config.transportType with
  | .udp => udpReassembler mtu
  | .mqtt => ⟨mqttMaxReassembledSize, []⟩

theorem initialReassembler_entries (mtu : Nat) : (initialReassembler config mtu).entries = [] := by
  unfold initialReassembler
  cases config.transportType <;> rfl

/-- What the node does with an event of the UDP transport. -/
def onUdpOutput (now : Int) (r : Reassembler) : UdpOutput → List SubscriberOutput
  | .message buffer => (onMessage host config now topic r buffer).2
  | .decodeError _ | .warn _ => []

/-- One frame, through the transport to the node. -/
def receive (r : Reassembler) (arrival : Arrival) : Reassembler × List SubscriberOutput :=
  match config.transportType with
  | .udp =>
      let (r', outputs) := onDatagram host arrival.1 r arrival.2
      (r', (outputs.map (onUdpOutput host config topic arrival.1 r')).flatten)
  | .mqtt => onMessage host config arrival.1 topic r arrival.2

/-- All frames, in the order of their arrival. -/
def receiveAll : Reassembler → List Arrival → List SubscriberOutput
  | _, [] => []
  | r, arrival :: arrivals =>
      let (r', outputs) := receive host config topic r arrival
      outputs ++ receiveAll r' arrivals

variable {host config topic}

theorem sent_append (l m : List SubscriberOutput) : sent (l ++ m) = sent l ++ sent m :=
  List.filterMap_append

theorem sent_warnings (ws : List ReassemblyWarning) : sent (ws.map .warn) = [] := by
  rw [sent, List.filterMap_map, List.filterMap_eq_nil_iff]
  intro w _
  rfl

theorem asChunk_none {nm : NetworkMessage} (h : nm.chunk = none) : asChunk nm = none := by
  unfold asChunk
  split
  next chunk hchunk => cases h.symm.trans hchunk
  next => rfl

theorem asChunk_message (m : ChunkMessage) : asChunk m.message = some m := by
  unfold asChunk
  split
  next chunk hchunk =>
    obtain ⟨message, chunk', hm⟩ := m
    cases hm.symm.trans hchunk
    rfl
  next hnone => cases m.has_chunk.symm.trans hnone

theorem onMessage_whole {nm : NetworkMessage} {buffer : Bytes} (now : Int) (r : Reassembler)
    (hdecode : Uadp.decodeNetworkMessage buffer = .ok nm) (hchunk : nm.chunk = none) :
    onMessage host config now topic r buffer =
      (r, handleNetworkMessage host config now topic nm) := by
  rw [onMessage, hdecode]
  simp only [asChunk_none hchunk]

/-- A frame that is a whole message is handled at once. -/
theorem receive_whole {nm : NetworkMessage} {buffer : Bytes} (now : Int) (r : Reassembler)
    (hdecode : Uadp.decodeNetworkMessage buffer = .ok nm) (hchunk : nm.chunk = none) :
    receive host config topic r (now, buffer) =
      (r, handleNetworkMessage host config now topic nm) := by
  unfold receive
  cases config.transportType with
  | udp =>
      simp only [onDatagram, hdecode, asChunk_none hchunk, List.map_cons, List.map_nil, onUdpOutput,
        onMessage_whole now r hdecode hchunk, List.flatten_cons, List.flatten_nil, List.append_nil]
  | mqtt => exact onMessage_whole now r hdecode hchunk

/-- A frame that carries a chunk goes to the reassembler, and what it returns is
handled as a whole message. -/
theorem receive_chunk {m : ChunkMessage} {buffer : Bytes} {nm : NetworkMessage} {whole : Bytes}
    (now : Int) (r : Reassembler)
    (hdecode : Uadp.decodeNetworkMessage buffer = .ok m.message)
    (hwhole : Uadp.decodeNetworkMessage whole = .ok nm) (hchunk : nm.chunk = none)
    (hout : ∀ bs, (push host r now m).output = some bs → bs = whole) :
    (receive host config topic r (now, buffer)).1 = (push host r now m).state ∧
      sent (receive host config topic r (now, buffer)).2 =
        ((push host r now m).output.map fun _ =>
          sent (handleNetworkMessage host config now topic nm)).getD [] := by
  unfold receive
  cases htransport : config.transportType with
  | udp =>
      simp only [onDatagram, hdecode, asChunk_message]
      refine ⟨trivial, ?_⟩
      have hwarnings : sent (((push host r now m).warnings.map UdpOutput.warn).map
          (onUdpOutput host config topic now (push host r now m).state)).flatten = [] := by
        rw [List.map_map, List.flatten_eq_nil_iff.mpr]
        · rfl
        · intro l hl
          obtain ⟨w, -, rfl⟩ := List.mem_map.mp hl
          rfl
      rw [List.map_append, List.flatten_append, sent_append, hwarnings, List.nil_append]
      cases hpushed : (push host r now m).output with
      | none => rfl
      | some bs =>
          obtain rfl := hout bs hpushed
          change sent ((onMessage host config now topic _ bs).2 ++ []) = _
          rw [onMessage_whole now _ hwhole hchunk, List.append_nil]
          rfl
  | mqtt =>
      simp only [onMessage, hdecode, asChunk_message, htransport]
      refine ⟨trivial, ?_⟩
      rw [sent_append, sent_warnings, List.nil_append]
      cases hpushed : (push host r now m).output with
      | none => rfl
      | some bs =>
          obtain rfl := hout bs hpushed
          change sent (handleWhole host config now topic bs) = _
          rw [handleWhole, hwhole]
          rfl

/-- Chunks of a message, frame by frame: the node handles what the reassembler returns. -/
theorem sent_receiveAll_chunks {arrivals : List Arrival} {pushes : List Push} {nm : NetworkMessage}
    {whole : Bytes} {r : Reassembler}
    (hdecode : List.Forall₂ (fun (a : Arrival) (p : Push) => a.1 = p.time ∧
      Uadp.decodeNetworkMessage a.2 = .ok p.message.message) arrivals pushes)
    (hwhole : Uadp.decodeNetworkMessage whole = .ok nm) (hchunk : nm.chunk = none)
    (hout : ∀ b ∈ returned host r pushes, b.2 = whole) :
    sent (receiveAll host config topic r arrivals) =
      ((returned host r pushes).map fun b =>
        sent (handleNetworkMessage host config b.1 topic nm)).flatten := by
  induction hdecode generalizing r with
  | nil => rfl
  | @cons a p arrivals pushes ha _ ih =>
      obtain ⟨now, buffer⟩ := a
      obtain ⟨htime, hbuffer⟩ := ha
      obtain rfl : now = p.time := htime
      rw [returned] at hout
      have hfirst : ∀ bs, (push host r p.time p.message).output = some bs → bs = whole := by
        intro bs hbs
        refine hout (p.time, bs) (List.mem_append_left _ ?_)
        rw [hbs]
        exact List.mem_cons_self
      obtain ⟨hstate, hsent⟩ := @receive_chunk host config topic _ _ _ _ p.time r hbuffer hwhole
        hchunk hfirst
      have hrest := @ih (push host r p.time p.message).state fun b hb =>
        hout b (List.mem_append_right _ hb)
      change sent ((receive host config topic r (p.time, buffer)).2 ++
        receiveAll host config topic (receive host config topic r (p.time, buffer)).1 arrivals) = _
      rw [sent_append, hsent, hstate, hrest, returned]
      cases (push host r p.time p.message).output with
      | none => rfl
      | some bs => rfl

/-- The arrivals of chunks, as calls of the reassembler. -/
theorem exists_pushes {D : Bytes → ChunkMessage → Prop} {arrivals : List Arrival}
    {ms : List ChunkMessage} (h : List.Forall₂ D (arrivals.map Prod.snd) ms) :
    ∃ pushes : List Push,
      List.Forall₂ (fun (a : Arrival) (p : Push) => a.1 = p.time ∧ D a.2 p.message)
        arrivals pushes ∧ pushes.map Push.message = ms := by
  induction arrivals generalizing ms with
  | nil =>
      cases h
      exact ⟨[], List.Forall₂.nil, rfl⟩
  | cons a arrivals ih =>
      obtain ⟨m, ms', hm, hms, rfl⟩ := List.forall₂_cons_left_iff.mp h
      obtain ⟨pushes, hpushes, rfl⟩ := ih hms
      exact ⟨⟨a.1, m⟩ :: pushes, List.Forall₂.cons ⟨rfl, hm⟩ hpushes, rfl⟩

/-- The reassembler takes the message: it is not cut, or not too long. -/
def Taken (host : Host) (nm : NetworkMessage) (r : Reassembler) : Encoded → Prop
  | .single _ => True
  | .chunks _ => ∀ whole, encodeWhole host nm = .ok whole → whole.length ≤ r.maxTotalSize

theorem decode_nil : Uadp.decodeNetworkMessage [] = .error (.decodeTruncated 0 1 0) := rfl

/-- Through the transport and in any order, a message is handled once, unless it
is too long to be reassembled. -/
theorem sent_receiveAll {nm nm' : NetworkMessage} {mtu : Int} {encoded : Encoded} {r : Reassembler}
    {arrivals : List Arrival} {t0 : Int}
    (hencode : Uadp.encodeNetworkMessage host nm mtu = .ok encoded) (hclass : ClassIdFits nm)
    (hdecode : ∀ whole, encodeWhole host nm = .ok whole →
      Uadp.decodeNetworkMessage whole = .ok nm') (hchunk : nm'.chunk = none)
    (hempty : r.entries = []) (hperm : (arrivals.map Prod.snd).Perm encoded.frames)
    (hwindow : ∀ a ∈ arrivals, t0 ≤ a.1 ∧ a.1 ≤ t0 + reassemblyExpiryMs) :
    ∃ now, (Taken host nm r encoded → sent (receiveAll host config topic r arrivals) =
        sent (handleNetworkMessage host config now topic nm')) ∧
      (¬ Taken host nm r encoded → sent (receiveAll host config topic r arrivals) = []) := by
  cases encoded with
  | single buffer =>
      have hwhole := hdecode buffer (encodeNetworkMessage_single hencode)
      obtain ⟨⟨now, b⟩, rfl⟩ : ∃ a, arrivals = [a] := by
        have hlength := hperm.length_eq
        rw [List.length_map] at hlength
        exact List.length_eq_one_iff.mp hlength
      obtain rfl : b = buffer := by
        have hmem := hperm.subset List.mem_cons_self
        exact List.mem_singleton.mp hmem
      refine ⟨now, fun _ => ?_, fun h => absurd trivial h⟩
      rw [receiveAll, receive_whole now r hwhole hchunk]
      change sent (_ ++ []) = _
      rw [List.append_nil]
  | chunks buffers =>
      obtain ⟨whole, ms, key, hwhole, hbuffers, hms⟩ := chunks_decode hclass hencode
      have hnm' := hdecode whole hwhole
      have hne : whole ≠ [] := by
        rintro rfl
        rw [decode_nil] at hnm'
        cases hnm'
      obtain ⟨ms', hms', hpermMs⟩ := List.perm_comp_forall₂ hperm
        (hbuffers.imp fun _ _ h => h.2)
      obtain ⟨pushes, hpushes, rfl⟩ := exists_pushes hms'
      have htimes : ∀ p ∈ pushes, t0 ≤ p.time ∧ p.time ≤ t0 + reassemblyExpiryMs := by
        intro p hp
        obtain ⟨a, ha, htime, -⟩ := exists_left_of_forall₂ hpushes hp
        exact htime ▸ hwindow a ha
      obtain ⟨t, hreturned⟩ := returned_any_order hms hne hempty hpermMs htimes
      have htaken : Taken host nm r (.chunks buffers) ↔ whole.length ≤ r.maxTotalSize := by
        refine ⟨fun h => h whole hwhole, fun h bs hbs => ?_⟩
        obtain rfl := Except.ok.inj (hwhole.symm.trans hbs)
        exact h
      have hsent := @sent_receiveAll_chunks host config topic arrivals pushes nm' whole r hpushes
        hnm' hchunk (by
          intro b hb
          rw [hreturned] at hb
          split at hb
          · rw [List.mem_singleton] at hb
            rw [hb]
          · cases hb)
      rw [hsent, hreturned, htaken]
      refine ⟨t, fun h => ?_, fun h => ?_⟩
      · rw [if_pos h]
        simp
      · rw [if_neg h]
        rfl

end OpcUaSuite.Nodes
