import OpcUaSuite.Nodes.PublisherUpdates
import OpcUaSuite.Uadp.Gathering

/-!
# Publishers, a lossy network and a reassembler

Any number of UADP publishers send messages that are cut into chunks. The
network delivers any chunk at any time and any number of times, or never. The
reassembler knows a message only by the text of its publisher, its writer group
and its sequence number, so chunks of two messages with one such key are told
apart by the time between their deliveries alone.
-/

namespace OpcUaSuite.Nodes

open Js ByteCodec PubSub Transition Uadp

/-- A message that was handed over in chunks. -/
structure SentMessage where
  message : NetworkMessage
  buffers : List Bytes
deriving DecidableEq

/-- A chunk of a sent message reached the receiver under a key, at a time of its clock. -/
structure Delivery where
  sent : SentMessage
  key : JsString
  time : Int
deriving DecidableEq

/-- The publishers deployed, the messages sent in chunks, the deliveries made, and
the reassembler with what it returned. -/
structure Network where
  publishers : List (PublisherConfig × PublisherState) := []
  sent : List SentMessage := []
  delivered : List Delivery := []
  reassembler : Reassembler
  returned : List Bytes := []
deriving DecidableEq

/-- A publisher is deployed, deployed again or meets an event, or a chunk of a
sent message arrives. -/
inductive NetworkEvent
  | deploy (config : PublisherConfig)
  | redeploy (index : Nat) (config : PublisherConfig)
  | publisher (index : Nat) (event : PublisherEvent)
  | deliver (message chunk : Nat) (now : Int)
deriving DecidableEq

variable (host : Host)

/-- The messages handed over in chunks. -/
def sentOf : Option (Handed Encoded) → List SentMessage
  | some ⟨message, .chunks buffers, _⟩ => [⟨message, buffers⟩]
  | _ => []

/-- A chunk of a sent message, decoded. -/
def Network.chunk (n : Network) (message chunk : Nat) : Option (SentMessage × ChunkMessage) := do
  let sent ← n.sent[message]?
  let buffer ← sent.buffers[chunk]?
  let nm ← (decodeNetworkMessage buffer).toOption
  let m ← asChunk nm
  return (sent, m)

/-- The reassembler takes in a chunk of a message. -/
def Network.receive (n : Network) (sent : SentMessage) (now : Int) (m : ChunkMessage) : Network :=
  let pushed := push host n.reassembler now m
  { n with
    delivered := n.delivered ++ [⟨sent, chunkKey host m, now⟩]
    reassembler := pushed.state
    returned := n.returned ++ pushed.output.toList }

def networkStep (n : Network) : NetworkEvent → Option Network
  | .deploy config => some { n with publishers := n.publishers ++ [(config, {})] }
  | .redeploy index config =>
      if index < n.publishers.length then
        some { n with publishers := n.publishers.set index (config, {}) }
      else none
  | .publisher index event => do
      let (config, st) ← n.publishers[index]?
      let (st', handed) ← publisherStep host config (uadpEncoder host config) st event
      return { n with
        publishers := n.publishers.set index (config, st')
        sent := n.sent ++ sentOf handed }
  | .deliver message chunk now => do
      let (sent, m) ← n.chunk message chunk
      return n.receive host sent now m

/-- No chunk arrives within the life of an entry after a chunk of another message
with the same key. -/
def Apart (n : Network) : NetworkEvent → Prop
  | .deliver message chunk now => ∀ p ∈ n.chunk message chunk, ∀ d ∈ n.delivered,
      d.key = chunkKey host p.2 → d.sent ≠ p.1 → d.time + reassemblyExpiryMs < now
  | _ => True

instance (n : Network) : (e : NetworkEvent) → Decidable (Apart host n e)
  | .deliver message chunk now => by
      unfold Apart
      infer_instance
  | .deploy _ | .redeploy _ _ | .publisher _ _ => isTrue trivial

/-! ## The invariant -/

/-- The encoder cut the message into these buffers. -/
def SentMessage.Encoded (s : SentMessage) : Prop :=
  s.message.dataSetClassId = .undefined ∧
    ∃ mtu, encodeNetworkMessage host s.message mtu = .ok (.chunks s.buffers)

/-- The decoded chunks of a sent message, tiles of its whole encoding. -/
structure SentMessage.ChunksAs (s : SentMessage) (key : JsString) (ms : List ChunkMessage)
    (whole : Bytes) : Prop where
  whole_eq : encodeWhole host s.message = .ok whole
  decoded : List.Forall₂ (fun b m => decodeNetworkMessage b = .ok (ChunkMessage.message m))
    s.buffers ms
  chunks : ChunksOf host key ms whole

/-- The entry holds tiles of the delivered message only, and lives from that delivery. -/
structure Delivery.Began (d : Delivery) (entry : Entry) : Prop where
  expires : entry.expiresAt = d.time + reassemblyExpiryMs
  gathers : ∃ ms whole, d.sent.ChunksAs host d.key ms whole ∧ Gathers ms whole entry

/-- Every publisher waits with messages without a class id, every entry was begun
by a delivery, and every buffer returned is a whole message. -/
structure Network.Whole (n : Network) : Prop where
  pending : ∀ p ∈ n.publishers, ∀ nm, p.2.pendingSend = some nm → nm.dataSetClassId = .undefined
  sent : ∀ s ∈ n.sent, s.Encoded host
  nodup : (InsertionMap.keys n.reassembler.entries).Nodup
  entries : ∀ key entry, InsertionMap.get? key n.reassembler.entries = some entry →
    ∃ d ∈ n.delivered, d.key = key ∧ d.Began host entry
  returned : ∀ bs ∈ n.returned, ∃ s ∈ n.sent, encodeWhole host s.message = .ok bs

variable {host}

theorem ChunkMessage.eq_of_message {m n : ChunkMessage} (h : m.message = n.message) : m = n := by
  have hchunk : m.chunk = n.chunk :=
    Option.some.inj (m.has_chunk.symm.trans ((congrArg NetworkMessage.chunk h).trans n.has_chunk))
  cases m
  cases n
  cases h
  cases hchunk
  rfl

theorem Network.chunk_eq_some {n : Network} {message chunk : Nat} {s : SentMessage}
    {m : ChunkMessage} (h : n.chunk message chunk = some (s, m)) :
    s ∈ n.sent ∧ ∃ b ∈ s.buffers, decodeNetworkMessage b = .ok (ChunkMessage.message m) := by
  obtain ⟨sent, hsent, h⟩ := Option.bind_eq_some_iff.mp h
  obtain ⟨buffer, hbuffer, h⟩ := Option.bind_eq_some_iff.mp h
  obtain ⟨nm, hdecode, h⟩ := Option.bind_eq_some_iff.mp h
  obtain ⟨m', hchunk, h⟩ := Option.bind_eq_some_iff.mp h
  cases h
  refine ⟨List.mem_of_getElem? hsent, buffer, List.mem_of_getElem? hbuffer, ?_⟩
  rw [message_of_asChunk hchunk]
  cases hd : decodeNetworkMessage buffer with
  | error e =>
      rw [hd] at hdecode
      cases hdecode
  | ok nm' =>
      rw [hd] at hdecode
      rw [Option.some.inj hdecode]

theorem SentMessage.Encoded.chunksAs {s : SentMessage} (h : s.Encoded host) :
    ∃ key ms whole, s.ChunksAs host key ms whole := by
  obtain ⟨hclass, mtu, henc⟩ := h
  have hfits : ClassIdFits s.message := by
    intro htruthy
    rw [hclass] at htruthy
    cases htruthy
  obtain ⟨whole, ms, key, hwhole, hbuffers, hms⟩ := chunks_decode hfits henc
  exact ⟨key, ms, whole, hwhole, hbuffers.imp fun _ _ h => h.2, hms⟩

theorem SentMessage.ChunksAs.mem {s : SentMessage} {key : JsString} {ms : List ChunkMessage}
    {whole : Bytes} (h : s.ChunksAs host key ms whole) {b : Bytes} {m : ChunkMessage}
    (hb : b ∈ s.buffers) (hdecode : decodeNetworkMessage b = .ok (ChunkMessage.message m)) :
    m ∈ ms := by
  obtain ⟨i, hi, rfl⟩ := List.mem_iff_getElem.mp hb
  have hlen := h.decoded.length_eq
  have hat := h.decoded.get hi (by omega)
  simp only [List.get_eq_getElem, hdecode] at hat
  rw [ChunkMessage.eq_of_message (Except.ok.inj hat)]
  exact List.getElem_mem _

/-- A sent message has one decoding. -/
theorem SentMessage.ChunksAs.unique {s : SentMessage} {key key' : JsString}
    {ms ms' : List ChunkMessage} {whole whole' : Bytes} (h : s.ChunksAs host key ms whole)
    (h' : s.ChunksAs host key' ms' whole') : ms = ms' ∧ whole = whole' := by
  constructor
  · refine List.ext_getElem (h.decoded.length_eq.symm.trans h'.decoded.length_eq) ?_
    intro i hi hi'
    have hb : i < s.buffers.length := h.decoded.length_eq ▸ hi
    have hat := h.decoded.get hb hi
    have hat' := h'.decoded.get hb hi'
    exact ChunkMessage.eq_of_message (Except.ok.inj (hat.symm.trans hat'))
  · exact Except.ok.inj (h.whole_eq.symm.trans h'.whole_eq)

/-! ## The steps -/

/-- Deliveries of two messages with one key lie apart, so a chunk that finds an
entry under its key finds one that a chunk of its own message began. -/
theorem Network.Whole.joined {n : Network} (h : n.Whole host) {s : SentMessage} {m : ChunkMessage}
    {now : Int} {entry : Entry}
    (hapart : ∀ d ∈ n.delivered, d.key = chunkKey host m → d.sent ≠ s →
      d.time + reassemblyExpiryMs < now)
    (hlive : liveEntry host n.reassembler now m = some entry) :
    ∃ d ∈ n.delivered, d.key = chunkKey host m ∧ d.sent = s ∧ d.Began host entry := by
  obtain ⟨hentry, hunexpired⟩ := liveEntry_eq_some h.nodup hlive
  obtain ⟨d, hd, hkey, hbegan⟩ := h.entries _ entry hentry
  refine ⟨d, hd, hkey, ?_, hbegan⟩
  by_contra hother
  have hexpired := hapart d hd hkey hother
  rw [hbegan.expires] at hunexpired
  exact absurd hunexpired (not_le.mpr hexpired)

/-- A chunk recorded next to those of its own message leaves an entry of that message. -/
theorem Delivery.Began.recorded {s : SentMessage} {key : JsString} {ms : List ChunkMessage}
    {whole : Bytes} (has : s.ChunksAs host key ms whole) {m : ChunkMessage} (hm : m ∈ ms)
    {log : List Delivery} {prior : Option Entry} (now : Int)
    (hprior : ∀ entry, prior = some entry →
      ∃ d ∈ log, d.key = key ∧ d.sent = s ∧ d.Began host entry) :
    Gathers ms whole (recorded now m.chunk prior) ∧
      ∃ d ∈ log ++ [⟨s, key, now⟩], d.key = key ∧
        d.Began host (Uadp.recorded now m.chunk prior) := by
  have hgathers : Gathers ms whole (Uadp.recorded now m.chunk prior) := by
    refine Gathers.recorded has.chunks hm (fun entry hentry => ?_) now
    obtain ⟨d, -, -, rfl, -, ms', whole', has', hgathers⟩ := hprior entry hentry
    obtain ⟨rfl, rfl⟩ := has.unique has'
    exact hgathers
  refine ⟨hgathers, ?_⟩
  cases prior with
  | none =>
      exact ⟨⟨s, key, now⟩, List.mem_append_right _ List.mem_cons_self, rfl, rfl,
        ms, whole, has, hgathers⟩
  | some entry =>
      obtain ⟨d, hd, rfl, rfl, hbegan⟩ := hprior entry rfl
      exact ⟨d, List.mem_append_left _ hd, rfl, hbegan.expires, ms, whole, has, hgathers⟩

/-- A chunk joins an entry of its own message, or begins one. -/
theorem Network.Whole.receive {n : Network} (h : n.Whole host) {s : SentMessage} {m : ChunkMessage}
    {now : Int} (hs : s ∈ n.sent) {b : Bytes} (hb : b ∈ s.buffers)
    (hdecode : decodeNetworkMessage b = .ok (ChunkMessage.message m))
    (hapart : ∀ d ∈ n.delivered, d.key = chunkKey host m → d.sent ≠ s →
      d.time + reassemblyExpiryMs < now) :
    (n.receive host s now m).Whole host := by
  have hearlier : ∀ key entry, InsertionMap.get? key n.reassembler.entries = some entry →
      ∃ d ∈ n.delivered ++ [⟨s, chunkKey host m, now⟩], d.key = key ∧ d.Began host entry := by
    intro key entry hentry
    obtain ⟨d, hd, hrest⟩ := h.entries key entry hentry
    exact ⟨d, List.mem_append_left _ hd, hrest⟩
  obtain ⟨key, ms, whole, has⟩ := (h.sent s hs).chunksAs
  have hm : m ∈ ms := has.mem hb hdecode
  obtain rfl := has.chunks.key m hm
  cases hfits : fits n.reassembler m with
  | false =>
      obtain ⟨hstate, hout⟩ := @push_of_not_fits host n.reassembler now m hfits
      refine ⟨h.pending, h.sent, ?_, ?_, ?_⟩
      · simp only [Network.receive, hstate]
        exact h.nodup
      · simp only [Network.receive, hstate]
        exact hearlier
      · simp only [Network.receive, hout, Option.toList_none, List.append_nil]
        exact h.returned
  | true =>
      obtain ⟨hgathers, hbegan⟩ := Delivery.Began.recorded has hm now
        (fun entry hentry => h.joined hapart hentry)
      have hpush := @push_of_fits _ _ _ _ _ now _ hfits has.chunks hm
      refine ⟨h.pending, h.sent, nodup_push now m h.nodup, ?_, ?_⟩
      · intro other entry hentry
        by_cases hother : other = chunkKey host m
        · subst hother
          simp only [Network.receive, hpush] at hentry
          rw [entries_settle_self hentry]
          exact hbegan
        · exact hearlier other entry (get?_push_other h.nodup hother hentry)
      · intro bs hbs
        rcases List.mem_append.mp hbs with hbs | hbs
        · exact h.returned bs hbs
        · rw [Option.mem_toList, hpush] at hbs
          rw [output_settle has.chunks hgathers hbs]
          exact ⟨s, hs, has.whole_eq⟩

/-- A message that waits, or is handed over, is one that was built or waited. -/
theorem emit_spec {P : NetworkMessage → Prop} {α ε : Type} {encode : NetworkMessage → Except ε α}
    {accepts : Bool} {nm : NetworkMessage} {st st' : PublisherState} {handed : Option (Handed α)}
    (hst : ∀ q, st.pendingSend = some q → P q) (hnm : P nm)
    (h : emit encode accepts nm st = (st', handed)) :
    (∀ q, st'.pendingSend = some q → P q) ∧
      ∀ x, handed = some x → P x.message ∧ encode x.message = .ok x.encoded := by
  rcases emit_cases h with ⟨-, rfl, rfl⟩ | ⟨-, rfl, -, rfl⟩ | ⟨-, rfl, encoded, henc, rfl⟩
  · refine ⟨fun q hq => ?_, fun x hx => by cases hx⟩
    cases hq
    exact hnm
  · exact ⟨hst, fun x hx => by cases hx⟩
  · refine ⟨hst, fun x hx => ?_⟩
    cases hx
    exact ⟨hnm, henc⟩

theorem publisherStep_spec {P : NetworkMessage → Prop} {config : PublisherConfig} {α ε : Type}
    {encode : NetworkMessage → Except ε α} {st st' : PublisherState} {e : PublisherEvent}
    {handed : Option (Handed α)}
    (hbuild : ∀ message now st, P (buildMessage config message now st).1)
    (hst : ∀ q, st.pendingSend = some q → P q)
    (h : publisherStep host config encode st e = some (st', handed)) :
    (∀ q, st'.pendingSend = some q → P q) ∧
      ∀ x, handed = some x → P x.message ∧ encode x.message = .ok x.encoded := by
  have hnone : ∀ x : Handed α, (none : Option (Handed α)) = some x →
      P x.message ∧ encode x.message = .ok x.encoded := fun x hx => by cases hx
  cases e with
  | input payload now accepts =>
      have hinput := Option.some.inj h
      unfold input at hinput
      dsimp only at hinput
      split at hinput
      · cases hinput
        exact ⟨hst, hnone⟩
      · exact emit_spec (by exact hst) (hbuild _ now st) hinput
  | tick now accepts =>
      simp only [publisherStep] at h
      split at h
      · rcases tick_cases (Option.some.inj h) with ⟨e, -, rfl, rfl⟩ | ⟨e, -, -, rfl, rfl⟩ |
          ⟨text, -, -, hemit⟩ | ⟨-, hemit⟩
        · exact ⟨hst, hnone⟩
        · exact ⟨hst, hnone⟩
        · exact emit_spec (by exact hst) (hbuild _ now st) hemit
        · exact emit_spec (by exact hst) (hbuild _ now st) hemit
      · cases h
  | status status accepts =>
      have hstatus := Option.some.inj h
      unfold statusCb at hstatus
      cases status with
      | connected =>
          dsimp only at hstatus
          split at hstatus
          next hqueued =>
            cases hstatus
            exact ⟨hst, hnone⟩
          next queued hqueued =>
            exact emit_spec (fun q hq => by cases hq) (hst queued hqueued) hstatus
      | disconnected | reconnecting | error =>
          cases hstatus
          exact ⟨hst, hnone⟩

theorem encoded_of_mem_sentOf {config : PublisherConfig} {handed : Option (Handed Encoded)}
    (h : ∀ x, handed = some x → x.message.dataSetClassId = .undefined ∧
      uadpEncoder host config x.message = .ok x.encoded) {s : SentMessage} (hs : s ∈ sentOf handed) :
    s.Encoded host := by
  unfold sentOf at hs
  split at hs
  next message buffers accepted =>
    obtain rfl := List.mem_singleton.mp hs
    obtain ⟨hclass, henc⟩ := h _ rfl
    exact ⟨hclass, config.maxNetworkMessageSize, henc⟩
  next => cases hs

/-- What every step keeps when its deliveries lie apart. -/
theorem whole_step : Preserves (networkStep host) (Apart host) (Network.Whole host) := by
  intro n e n' h hok hstep
  cases e with
  | deploy config =>
      cases hstep
      refine ⟨?_, h.sent, h.nodup, h.entries, h.returned⟩
      intro p hp
      rcases List.mem_append.mp hp with hp | hp
      · exact h.pending p hp
      · obtain rfl := List.mem_singleton.mp hp
        intro nm hnm
        cases hnm
  | redeploy index config =>
      simp only [networkStep] at hstep
      split at hstep
      · cases hstep
        refine ⟨?_, h.sent, h.nodup, h.entries, h.returned⟩
        intro p hp
        rcases List.mem_or_eq_of_mem_set hp with hp | rfl
        · exact h.pending p hp
        · intro nm hnm
          cases hnm
      · cases hstep
  | publisher index event =>
      obtain ⟨⟨config, st⟩, hpublisher, hstep⟩ := Option.bind_eq_some_iff.mp hstep
      obtain ⟨⟨st', handed⟩, hpub, hstep⟩ := Option.bind_eq_some_iff.mp hstep
      cases hstep
      obtain ⟨hpending, hhanded⟩ := publisherStep_spec
        (P := fun nm => nm.dataSetClassId = .undefined) (fun _ _ _ => rfl)
        (h.pending _ (List.mem_of_getElem? hpublisher)) hpub
      refine ⟨?_, ?_, h.nodup, h.entries, ?_⟩
      · intro p hp
        rcases List.mem_or_eq_of_mem_set hp with hp | rfl
        · exact h.pending p hp
        · exact hpending
      · intro s hs
        rcases List.mem_append.mp hs with hs | hs
        · exact h.sent s hs
        · exact encoded_of_mem_sentOf hhanded hs
      · intro bs hbs
        obtain ⟨s, hs, hwhole⟩ := h.returned bs hbs
        exact ⟨s, List.mem_append_left _ hs, hwhole⟩
  | deliver message chunk now =>
      obtain ⟨⟨s, m⟩, hchunk, hreceive⟩ := Option.bind_eq_some_iff.mp hstep
      cases hreceive
      obtain ⟨hs, b, hb, hdecode⟩ := Network.chunk_eq_some hchunk
      exact h.receive hs hb hdecode (hok (s, m) hchunk)

theorem whole_init (r : Reassembler) (hempty : r.entries = []) :
    Network.Whole host { reassembler := r } where
  pending p hp := by cases hp
  sent s hs := by cases hs
  nodup := by
    rw [hempty]
    exact List.nodup_nil
  entries key entry hentry := by
    rw [hempty] at hentry
    cases hentry
  returned bs hbs := by cases hbs

/-- Every buffer returned is the whole encoding of one message that was sent. -/
def Untorn (host : Host) (n : Network) : Prop :=
  ∀ bs ∈ n.returned, ∃ s ∈ n.sent, encodeWhole host s.message = .ok bs

/-- In every run in which chunks of different messages with one key are delivered
more than thirty seconds apart, every buffer returned is the whole encoding of one
message that was sent. -/
theorem returned_untorn {host : Host} {maxTotalSize : Nat} {events : List NetworkEvent}
    {n : Network} (hok : Along (networkStep host) (Apart host)
      { reassembler := ⟨maxTotalSize, []⟩ } events)
    (hrun : run (networkStep host) { reassembler := ⟨maxTotalSize, []⟩ } events = some n) :
    Untorn host n :=
  (whole_step.run (whole_init ⟨maxTotalSize, []⟩ rfl) hok hrun).returned

/-- A publisher of one text, whose messages take two chunks. -/
def textPublisher : PublisherConfig where
  publisherId := JsValue.nat 5
  writerGroupId := 1
  maxNetworkMessageSize := 104
  publishMode := .acyclic
  writers := [⟨1, ⟨[⟨js "t", js "String"⟩], ⟨JsValue.nat 1, JsValue.nat 0⟩⟩⟩]
  writers_ne := by decide

/-- The publisher connects and sends a text of sixty equal letters. -/
def sendText (letter : UInt16) : List NetworkEvent :=
  [.publisher 0 (.status .connected true),
    .publisher 0 (.input (.object [(js "t", .str (List.replicate 60 letter))]) 0 true)]

/-- A lost chunk, one that arrives twice, and a publisher deployed again, whose
message with the same key arrives in reverse once the stale entry expired. -/
def lossyDelivery : List NetworkEvent :=
  [.deploy textPublisher] ++ sendText 97 ++ [.deliver 0 1 0, .deliver 0 1 10,
    .redeploy 0 textPublisher] ++ sendText 98 ++ [.deliver 1 1 30011, .deliver 1 0 30020]

theorem lossyDelivery_untorn : ∃ n,
    run (networkStep Host.inert) { reassembler := ⟨1000, []⟩ } lossyDelivery = some n ∧
    n.returned.length = 1 ∧ Untorn Host.inert n := by
  have hreturned : (run (networkStep Host.inert) { reassembler := ⟨1000, []⟩ } lossyDelivery).map
      (fun n => n.returned.length) = some 1 := by
    decide +kernel
  obtain ⟨n, hrun, hlen⟩ := Option.map_eq_some_iff.mp hreturned
  exact ⟨n, hrun, hlen, returned_untorn (by decide +kernel) hrun⟩

/-- A publisher deployed again counts from one again: its second chunk completes
the entry that the first chunk of another message began. -/
def tornDelivery : List NetworkEvent :=
  [.deploy textPublisher] ++ sendText 97 ++ [.redeploy 0 textPublisher] ++ sendText 98 ++
    [.deliver 0 0 0, .deliver 1 1 10]

theorem redeployed_publisher_torn :
    ¬ ∀ (host : Host) (maxTotalSize : Nat) (events : List NetworkEvent) (n : Network),
      run (networkStep host) { reassembler := ⟨maxTotalSize, []⟩ } events = some n →
        Untorn host n := by
  intro h
  have htorn : (run (networkStep Host.inert) { reassembler := ⟨1000, []⟩ } tornDelivery).map
      (fun n => decide (n.returned ≠ [] ∧ ∀ bs ∈ n.returned, ∀ s ∈ n.sent,
        encodeWhole Host.inert s.message ≠ .ok bs)) = some true := by
    decide +kernel
  obtain ⟨n, hrun, hnone⟩ := Option.map_eq_some_iff.mp htorn
  obtain ⟨hreturned, hnone⟩ := of_decide_eq_true hnone
  obtain ⟨bs, hbs⟩ := List.exists_mem_of_ne_nil _ hreturned
  obtain ⟨s, hs, hwhole⟩ := h _ _ _ n hrun bs hbs
  exact hnone bs hbs s hs hwhole

end OpcUaSuite.Nodes
