import OpcUaSuite.Uadp.Refusal

/-!
# What the reassembler holds and returns

The chunks pushed may be hostile: they overlap, repeat an offset with another
length, or disagree on the total size. The reassembler is followed together with
a log of the chunks recorded under each key since its entry began.
-/

namespace OpcUaSuite.Uadp

open Js ByteCodec PubSub Tiling

structure Logged where
  reassembler : Reassembler
  logs : InsertionMap JsString (List Chunk) := []
deriving DecidableEq

/-- The log of the key of a call, this chunk included. -/
def Logged.log (host : Host) (s : Logged) (p : Push) : List Chunk :=
  (if (liveEntry host s.reassembler p.time p.message).isSome then
      (InsertionMap.get? (chunkKey host p.message) s.logs).getD []
    else []) ++ [p.message.chunk]

def Logged.push (host : Host) (s : Logged) (p : Push) : Logged where
  reassembler := step host s.reassembler p
  logs :=
    if fits s.reassembler p.message && !overruns p.message then
      InsertionMap.set (chunkKey host p.message) (s.log host p) s.logs
    else s.logs

def Logged.after (host : Host) (s : Logged) (pushes : List Push) : Logged :=
  pushes.foldl (Logged.push host) s

/-- The chunk recorded last at an offset. -/
def lastAt (offset : Nat) (log : List Chunk) : Option Chunk :=
  log.reverse.find? fun c => c.chunkOffset = offset

def covers (c : Chunk) (i : Nat) : Bool :=
  decide (c.chunkOffset ≤ i ∧ i < c.chunkOffset + c.chunkData.length)

/-- The parts that remain of the chunks recorded. -/
def partsOf (log : List Chunk) : InsertionMap Nat Bytes :=
  log.foldl (fun parts c => InsertionMap.set c.chunkOffset c.chunkData parts) []

/-- The entry is what its log leaves behind. -/
structure Records (log : List Chunk) (entry : Entry) : Prop where
  first : log.head?.map Chunk.totalSize = some entry.totalSize
  parts : entry.parts = partsOf log

/-! ## Logs -/

theorem partsOf_append (log : List Chunk) (c : Chunk) :
    partsOf (log ++ [c]) = InsertionMap.set c.chunkOffset c.chunkData (partsOf log) := by
  simp only [partsOf, List.foldl_append, List.foldl_cons, List.foldl_nil]

theorem nodup_partsOf (log : List Chunk) : (InsertionMap.keys (partsOf log)).Nodup := by
  induction log using List.reverseRecOn with
  | nil => exact List.nodup_nil
  | append_singleton log c ih =>
      rw [partsOf_append]
      exact InsertionMap.nodup_set ih

/-- A part is the data of the chunk recorded last at its offset. -/
theorem get?_partsOf (offset : Nat) (log : List Chunk) :
    InsertionMap.get? offset (partsOf log) = (lastAt offset log).map Chunk.chunkData := by
  induction log using List.reverseRecOn with
  | nil => rfl
  | append_singleton log c ih =>
      rw [partsOf_append]
      simp only [lastAt, List.reverse_append, List.reverse_cons, List.reverse_nil, List.nil_append,
        List.cons_append, List.find?_cons]
      by_cases h : c.chunkOffset = offset
      · subst h
        simp [InsertionMap.get?_set_self]
      · rw [InsertionMap.get?_set_of_ne (Ne.symm h), ih]
        simp [h, lastAt]

theorem mem_of_lastAt {offset : Nat} {log : List Chunk} {c : Chunk} (h : lastAt offset log = some c) :
    c ∈ log ∧ c.chunkOffset = offset := by
  refine ⟨List.mem_reverse.mp (List.mem_of_find?_eq_some h), ?_⟩
  simpa using List.find?_some h

theorem Records.append {log : List Chunk} {entry : Entry} (h : Records log entry) (c : Chunk)
    (now : Int) : Records (log ++ [c]) (recorded now c (some entry)) where
  first := by
    cases log with
    | nil => cases h.first
    | cons d log => exact h.first
  parts := by
    rw [partsOf_append, ← h.parts]
    rfl

theorem Records.begun (c : Chunk) (now : Int) : Records [c] (recorded now c none) := ⟨rfl, rfl⟩

/-! ## Invariant -/

/-- What bounds the memory of a reassembler, and orders its entries. -/
structure WithinBounds (r : Reassembler) : Prop where
  inFlight : r.entries.length ≤ maxInflightReassemblies
  incomplete : ∀ e ∈ r.entries, weight e.2.parts < e.2.totalSize
  capped : ∀ e ∈ r.entries, e.2.totalSize ≤ r.maxTotalSize
  ordered : r.entries.Pairwise fun d e => d.2.expiresAt ≤ e.2.expiresAt

/-- Every entry began before a time, and is what its log leaves behind. -/
structure WellLogged (time : Int) (s : Logged) : Prop where
  bounds : WithinBounds s.reassembler
  nodup : (InsertionMap.keys s.reassembler.entries).Nodup
  begun : ∀ e ∈ s.reassembler.entries, e.2.expiresAt ≤ time + reassemblyExpiryMs
  logged : ∀ e ∈ s.reassembler.entries,
    ∃ log, InsertionMap.get? e.1 s.logs = some log ∧ Records log e.2

variable {host : Host} {s : Logged} {p : Push} {time : Int}

theorem wellLogged_empty (maxTotalSize : Nat) (time : Int) :
    WellLogged time ⟨⟨maxTotalSize, []⟩, []⟩ where
  bounds := by
    constructor
    case inFlight => exact Nat.zero_le _
    case incomplete | capped => exact fun e he => by cases he
    case ordered => exact List.Pairwise.nil
  nodup := List.nodup_nil
  begun e he := by cases he
  logged e he := by cases he

theorem WithinBounds.sublist {r : Reassembler} {entries : InsertionMap JsString Entry}
    (h : WithinBounds r) (hsub : entries.Sublist r.entries) :
    WithinBounds ⟨r.maxTotalSize, entries⟩ where
  inFlight := hsub.length_le.trans h.inFlight
  incomplete e he := h.incomplete e (hsub.subset he)
  capped e he := h.capped e (hsub.subset he)
  ordered := h.ordered.sublist hsub

theorem dropOldest_sublist (key : JsString) (entries : InsertionMap JsString Entry) :
    (dropOldest key entries).1.Sublist entries := by
  unfold dropOldest
  split
  · exact List.Sublist.refl _
  · split
    · exact List.filter_sublist
    · exact List.Sublist.refl _

/-- The entries a call works on, after the sweep and after room was made. -/
def roomFor (host : Host) (r : Reassembler) (p : Push) : InsertionMap JsString Entry :=
  (dropOldest (chunkKey host p.message) (sweep p.time r.entries)).1

theorem roomFor_sublist_sweep (host : Host) (r : Reassembler) (p : Push) :
    (roomFor host r p).Sublist (sweep p.time r.entries) := dropOldest_sublist _ _

theorem roomFor_sublist (host : Host) (r : Reassembler) (p : Push) :
    (roomFor host r p).Sublist r.entries :=
  (roomFor_sublist_sweep host r p).trans List.filter_sublist

theorem get?_roomFor (host : Host) (r : Reassembler) (p : Push) :
    InsertionMap.get? (chunkKey host p.message) (roomFor host r p) =
      liveEntry host r p.time p.message := get?_dropOldest_self _ _

/-- A new key finds room. -/
theorem length_roomFor_lt {r : Reassembler} (h : r.entries.length ≤ maxInflightReassemblies)
    (hnew : liveEntry host r p.time p.message = none) :
    (roomFor host r p).length < maxInflightReassemblies := by
  have hswept : (sweep p.time r.entries).length ≤ r.entries.length := length_sweep_le p.time
  unfold roomFor
  rcases dropOldest_eq host r p.time p.message with ⟨hroom, hdrop⟩ |
      ⟨-, oldest, entries, hcons, hdrop⟩
  · rw [hdrop]
    simp only [needsRoom, hnew, Option.isNone_none, Bool.true_and, decide_eq_false_iff_not] at hroom
    omega
  · rw [hdrop, hcons]
    have herase : (InsertionMap.erase oldest.1 (oldest :: entries)).length ≤ entries.length := by
      simp only [InsertionMap.erase, ne_eq, decide_not, List.filter_cons, decide_true,
        Bool.not_true, Bool.false_eq_true, if_false]
      exact List.length_filter_le _ _
    rw [hcons, List.length_cons] at hswept
    omega

/-- An unexpired entry that a chunk finds, with its log. -/
theorem WellLogged.live (h : WellLogged time s) {entry : Entry}
    (hlive : liveEntry host s.reassembler p.time p.message = some entry) :
    (chunkKey host p.message, entry) ∈ s.reassembler.entries ∧ p.time ≤ entry.expiresAt ∧
      Records (s.log host p) (recorded p.time p.message.chunk (some entry)) := by
  have hmem := List.mem_filter.mp (InsertionMap.mem_of_get? hlive)
  obtain ⟨log, hlog, hrecords⟩ := h.logged _ hmem.1
  refine ⟨hmem.1, by simpa using hmem.2, ?_⟩
  rw [Logged.log, hlive, hlog]
  exact hrecords.append _ _

/-- The entry a chunk is recorded in. -/
def Logged.entry (host : Host) (s : Logged) (p : Push) : Entry :=
  recorded p.time p.message.chunk (liveEntry host s.reassembler p.time p.message)

theorem WellLogged.records (h : WellLogged time s) (p : Push) :
    Records (s.log host p) (s.entry host p) := by
  unfold Logged.entry
  cases hlive : liveEntry host s.reassembler p.time p.message with
  | none =>
      rw [Logged.log, hlive]
      exact Records.begun _ _
  | some entry => exact (h.live hlive).2.2

theorem WellLogged.mono (h : WellLogged time s) {time' : Int} (hle : time ≤ time') :
    WellLogged time' s :=
  { h with begun := fun e he => by have := h.begun e he; omega }

/-- A chunk that fits and does not overrun is settled with its entry, and logged. -/
theorem push_recorded (hfits : fits s.reassembler p.message = true)
    (hover : overruns p.message = false) :
    s.push host p = ⟨(settle s.reassembler.maxTotalSize (chunkKey host p.message) (s.entry host p)
        (roomFor host s.reassembler p)
        (dropOldest (chunkKey host p.message) (sweep p.time s.reassembler.entries)).2).state,
      InsertionMap.set (chunkKey host p.message) (s.log host p) s.logs⟩ := by
  unfold Logged.push step
  rcases push_cases host s.reassembler p.time p.message with ⟨hno, -⟩ | ⟨-, hno, -⟩ |
      ⟨-, -, hpush, -⟩
  · cases hno.symm.trans hfits
  · cases hno.symm.trans hover
  · simp only [hpush, hfits, hover, Bool.not_false, Bool.and_self, if_true]
    rfl

/-! ## Recording a chunk -/

section Recording

variable (h : WellLogged time s) (htime : time ≤ p.time)
include h

theorem WellLogged.nodup_roomFor :
    (InsertionMap.keys (roomFor host s.reassembler p)).Nodup :=
  h.nodup.sublist ((roomFor_sublist host s.reassembler p).map Prod.fst)

theorem WellLogged.capped (hfits : fits s.reassembler p.message = true) :
    (s.entry host p).totalSize ≤ s.reassembler.maxTotalSize := by
  unfold Logged.entry
  cases hlive : liveEntry host s.reassembler p.time p.message with
  | none => exact of_decide_eq_true hfits
  | some entry => exact h.bounds.capped _ (h.live hlive).1

/-- An entry of another key keeps its log. -/
theorem WellLogged.other {e : JsString × Entry} (he : e ∈ roomFor host s.reassembler p)
    (hne : e.1 ≠ chunkKey host p.message) (log : List Chunk) :
    ∃ log', InsertionMap.get? e.1 (InsertionMap.set (chunkKey host p.message) log s.logs) =
      some log' ∧ Records log' e.2 := by
  obtain ⟨log', hlog, hrecords⟩ := h.logged e ((roomFor_sublist host s.reassembler p).subset he)
  exact ⟨log', by rw [InsertionMap.get?_set_of_ne hne, hlog], hrecords⟩

include htime

/-- The entry recorded expires no later than a new one would. -/
theorem WellLogged.expiresAt_le :
    (s.entry host p).expiresAt ≤ p.time + reassemblyExpiryMs := by
  unfold Logged.entry
  cases hlive : liveEntry host s.reassembler p.time p.message with
  | none => exact le_refl _
  | some entry =>
      have hbegun := h.begun _ (h.live hlive).1
      change entry.expiresAt ≤ _
      dsimp only at hbegun
      omega

/-- Storing the recorded entry keeps the number of entries and their order. -/
theorem WellLogged.stored :
    (InsertionMap.set (chunkKey host p.message) (s.entry host p)
        (roomFor host s.reassembler p)).length ≤ maxInflightReassemblies ∧
      (InsertionMap.set (chunkKey host p.message) (s.entry host p)
        (roomFor host s.reassembler p)).Pairwise fun d e => d.2.expiresAt ≤ e.2.expiresAt := by
  have hsub := roomFor_sublist host s.reassembler p
  have hordered := h.bounds.ordered.sublist hsub
  have hfound := get?_roomFor host s.reassembler p
  unfold Logged.entry
  cases hlive : liveEntry host s.reassembler p.time p.message with
  | none =>
      rw [hlive] at hfound
      rw [InsertionMap.set_of_not_mem (InsertionMap.get?_eq_none_iff.mp hfound)]
      constructor
      · have hroom := length_roomFor_lt h.bounds.inFlight hlive
        rw [List.length_append, List.length_singleton]
        omega
      · refine List.pairwise_append.mpr ⟨hordered, List.pairwise_singleton _ _, ?_⟩
        intro d hd e he
        obtain rfl := List.mem_singleton.mp he
        have hbegun := h.begun d (hsub.subset hd)
        change d.2.expiresAt ≤ p.time + reassemblyExpiryMs
        omega
  | some entry =>
      rw [hlive] at hfound
      have hmap := InsertionMap.map_set_of_get? (f := Entry.expiresAt) hfound
        (v := recorded p.time p.message.chunk (some entry)) rfl
      constructor
      · have hlen := congrArg List.length hmap
        rw [List.length_map, List.length_map] at hlen
        rw [hlen]
        exact hsub.length_le.trans h.bounds.inFlight
      · have hpairwise := List.pairwise_map.mpr hordered
        rw [← hmap] at hpairwise
        exact List.pairwise_map.mp hpairwise

/-- An entry that is still incomplete can be stored. -/
theorem WellLogged.store (hfits : fits s.reassembler p.message = true)
    (hweight : weight (s.entry host p).parts < (s.entry host p).totalSize) :
    WellLogged p.time ⟨⟨s.reassembler.maxTotalSize, InsertionMap.set (chunkKey host p.message)
        (s.entry host p) (roomFor host s.reassembler p)⟩,
      InsertionMap.set (chunkKey host p.message) (s.log host p) s.logs⟩ := by
  have hsub := roomFor_sublist host s.reassembler p
  have hnodup := @WellLogged.nodup_roomFor host s p time h
  obtain ⟨hlength, hpairwise⟩ := @WellLogged.stored host s p time h htime
  constructor
  case bounds =>
    constructor
    case inFlight => exact hlength
    case incomplete =>
      intro e he
      rcases InsertionMap.mem_set_cases hnodup he with ⟨he, -⟩ | rfl
      · exact h.bounds.incomplete e (hsub.subset he)
      · exact hweight
    case capped =>
      intro e he
      rcases InsertionMap.mem_set_cases hnodup he with ⟨he, -⟩ | rfl
      · exact h.bounds.capped e (hsub.subset he)
      · exact h.capped hfits
    case ordered => exact hpairwise
  case nodup => exact InsertionMap.nodup_set hnodup
  case begun =>
    intro e he
    rcases InsertionMap.mem_set_cases hnodup he with ⟨he, -⟩ | rfl
    · have hbegun := h.begun e (hsub.subset he)
      omega
    · exact h.expiresAt_le htime
  case logged =>
    intro e he
    rcases InsertionMap.mem_set_cases hnodup he with ⟨he, hne⟩ | rfl
    · exact h.other he hne _
    · exact ⟨_, InsertionMap.get?_set_self _ _ _, h.records p⟩

/-- The entry of a chunk can be given up. -/
theorem WellLogged.giveUp :
    WellLogged p.time ⟨⟨s.reassembler.maxTotalSize,
        InsertionMap.erase (chunkKey host p.message) (roomFor host s.reassembler p)⟩,
      InsertionMap.set (chunkKey host p.message) (s.log host p) s.logs⟩ := by
  have hsub : (InsertionMap.erase (chunkKey host p.message)
      (roomFor host s.reassembler p)).Sublist s.reassembler.entries :=
    List.filter_sublist.trans (roomFor_sublist host s.reassembler p)
  constructor
  case bounds => exact h.bounds.sublist hsub
  case nodup => exact InsertionMap.nodup_filter h.nodup_roomFor
  case begun =>
    intro e he
    have hbegun := h.begun e (hsub.subset he)
    omega
  case logged =>
    intro e he
    obtain ⟨he, hne⟩ := List.mem_filter.mp he
    exact h.other he (of_decide_eq_true hne) _

/-- Recording a chunk keeps the invariant, whether the entry is kept or not. -/
theorem WellLogged.record (hfits : fits s.reassembler p.message = true)
    (hover : overruns p.message = false) : WellLogged p.time (s.push host p) := by
  rw [push_recorded hfits hover]
  by_cases hweight : weight (s.entry host p).parts < (s.entry host p).totalSize
  · rw [settle_of_missing hweight]
    exact h.store htime hfits hweight
  · have hgone := @WellLogged.giveUp host s p time h htime
    simp only [settle, if_neg hweight, InsertionMap.erase_set]
    split <;> exact hgone

/-- Every call keeps the invariant. -/
theorem WellLogged.push : WellLogged p.time (s.push host p) := by
  rcases push_cases host s.reassembler p.time p.message with ⟨hfits, hstate, -⟩ |
      ⟨hfits, hover, hstate, -⟩ | ⟨hfits, hover, -⟩
  · have hsame : s.push host p = s := by
      simp only [Logged.push, hfits, Bool.false_and, Bool.false_eq_true, if_false, step, hstate]
    rw [hsame]
    exact h.mono htime
  · have hsub := roomFor_sublist host s.reassembler p
    have hpush : s.push host p =
        ⟨⟨s.reassembler.maxTotalSize, roomFor host s.reassembler p⟩, s.logs⟩ := by
      simp only [Logged.push, hfits, hover, Bool.not_true, Bool.and_false, Bool.false_eq_true,
        if_false, step, hstate]
      rfl
    rw [hpush]
    exact ⟨h.bounds.sublist hsub, h.nodup.sublist (hsub.map Prod.fst),
      fun e he => (h.begun e (hsub.subset he)).trans (by omega),
      fun e he => h.logged e (hsub.subset he)⟩
  · exact h.record htime hfits hover

end Recording

theorem wellLogged_after {maxTotalSize : Nat} {pushes : List Push}
    (hclock : pushes.Pairwise fun p q => p.time ≤ q.time) (time : Int)
    (hlast : ∀ p ∈ pushes, p.time ≤ time) :
    WellLogged time (Logged.after host ⟨⟨maxTotalSize, []⟩, []⟩ pushes) := by
  induction pushes using List.reverseRecOn generalizing time with
  | nil => exact wellLogged_empty maxTotalSize time
  | append_singleton pushes p ih =>
      obtain ⟨hbefore, -, hle⟩ := List.pairwise_append.mp hclock
      have hprev := ih hbefore p.time fun q hq => hle q hq p List.mem_cons_self
      have hpush := @WellLogged.push host _ p p.time hprev (le_refl _)
      have hafter : Logged.after host ⟨⟨maxTotalSize, []⟩, []⟩ (pushes ++ [p]) =
          (Logged.after host ⟨⟨maxTotalSize, []⟩, []⟩ pushes).push host p := by
        simp only [Logged.after, List.foldl_append, List.foldl_cons, List.foldl_nil]
      rw [hafter]
      exact hpush.mono (hlast p (List.mem_append_right _ List.mem_cons_self))

/-! ## What a call returns -/

/-- Every byte comes from the only chunk that covers it and has not been
replaced, the one recorded last at its offset. -/
def FromLastAtOffset (log : List Chunk) (bs : Bytes) : Prop :=
  ∀ i < bs.length, ∃ c ∈ log, lastAt c.chunkOffset log = some c ∧ covers c i = true ∧
    bs[i]? = c.chunkData[i - c.chunkOffset]? ∧
    ∀ d ∈ log, lastAt d.chunkOffset log = some d → covers d i = true → d = c

/-- Every byte comes from the chunk recorded last among those that cover it. -/
def FromLastCovering (log : List Chunk) (bs : Bytes) : Prop :=
  ∀ i < bs.length, ∀ c, (log.reverse.find? fun c => covers c i) = some c →
    bs[i]? = c.chunkData[i - c.chunkOffset]?

theorem output_settle_eq {maxTotalSize : Nat} {key : JsString} {entry : Entry}
    {entries : InsertionMap JsString Entry} {warnings : List ReassemblyWarning} {bs : Bytes}
    (h : (settle maxTotalSize key entry entries warnings).output = some bs) :
    scan 0 (sorted entry.parts) = some entry.totalSize ∧ bs = concat (sorted entry.parts) := by
  unfold settle at h
  dsimp only at h
  split at h
  · cases h
  · split at h
    next hscan => exact ⟨hscan, (Option.some.inj h).symm⟩
    next => cases h

theorem Records.output {log : List Chunk} {entry : Entry} (h : Records log entry) {bs : Bytes}
    (hscan : scan 0 (sorted entry.parts) = some entry.totalSize)
    (hbs : bs = concat (sorted entry.parts)) :
    log.head?.map Chunk.totalSize = some bs.length ∧ FromLastAtOffset log bs := by
  have hlength := length_of_scan hscan
  rw [← hbs, Nat.zero_add] at hlength
  have hmem : ∀ t, t ∈ sorted entry.parts ↔ (lastAt t.1 log).map Chunk.chunkData = some t.2 := by
    intro t
    have hsorted : t ∈ sorted entry.parts ↔ t ∈ partsOf log := by
      rw [← h.parts]
      exact List.mem_insertionSort _
    rw [hsorted, ← get?_partsOf]
    exact ⟨InsertionMap.get?_of_mem (nodup_partsOf log), InsertionMap.mem_of_get?⟩
  refine ⟨hlength ▸ h.first, ?_⟩
  intro i hi
  rw [hbs] at hi
  obtain ⟨t, ht, hlo, hhi, hget⟩ := exists_tile_of_scan hscan hi
  rw [Nat.zero_add] at hlo hhi hget
  obtain ⟨c, hlast, hdata⟩ := Option.map_eq_some_iff.mp ((hmem t).mp ht)
  obtain ⟨hc, hoffset⟩ := mem_of_lastAt hlast
  rw [← hoffset] at hlast hlo hhi hget
  rw [← hdata] at hhi hget
  refine ⟨c, hc, hlast, decide_eq_true ⟨hlo, hhi⟩, hbs ▸ hget, ?_⟩
  intro d hd hdlast hdcovers
  have hdtile : (d.chunkOffset, d.chunkData) ∈ sorted entry.parts := by
    rw [hmem, hdlast]
    rfl
  have hctile : (c.chunkOffset, c.chunkData) ∈ sorted entry.parts := by
    rw [hmem, hlast]
    rfl
  have heq := offset_eq_of_scan hscan hdtile hctile (of_decide_eq_true hdcovers) ⟨hlo, hhi⟩
  dsimp only at heq
  rw [heq, hlast] at hdlast
  exact (Option.some.inj hdlast).symm

/-- What a call does in a state that a run has reached. -/
structure PushWithinBounds (host : Host) (s : Logged) (p : Push) : Prop where
  noneExpired : ¬ Refused host s.reassembler p.time p.message →
    ∀ e ∈ (step host s.reassembler p).entries, p.time ≤ e.2.expiresAt
  firstToExpire : ∀ key,
    .overflow key ∈ (push host s.reassembler p.time p.message).warnings →
      ∃ oldest, (key, oldest) ∈ sweep p.time s.reassembler.entries ∧
        ∀ e ∈ sweep p.time s.reassembler.entries, oldest.expiresAt ≤ e.2.expiresAt
  totalSize : ∀ bs, (push host s.reassembler p.time p.message).output = some bs →
    (s.log host p).head?.map Chunk.totalSize = some bs.length
  bytes : ∀ bs, (push host s.reassembler p.time p.message).output = some bs →
    FromLastAtOffset (s.log host p) bs

theorem overflow_of_dropOldest {key other : JsString} {entries : InsertionMap JsString Entry}
    (h : .overflow other ∈ (dropOldest key entries).2) :
    ∃ oldest rest, entries = (other, oldest) :: rest := by
  unfold dropOldest at h
  split at h
  · cases h
  next oldestKey oldest rest =>
    split at h
    · cases List.mem_singleton.mp h
      exact ⟨oldest, rest, rfl⟩
    · cases h

theorem overflow_of_settle {maxTotalSize : Nat} {key other : JsString} {entry : Entry}
    {entries : InsertionMap JsString Entry} {warnings : List ReassemblyWarning}
    (h : .overflow other ∈ (settle maxTotalSize key entry entries warnings).warnings) :
    .overflow other ∈ warnings := by
  unfold settle at h
  dsimp only at h
  split at h
  · exact h
  · split at h
    · exact h
    · simpa using h

/-- Whatever makes room drops the first entry. -/
theorem overflow_of_push {r : Reassembler} {key : JsString}
    (h : .overflow key ∈ (push host r p.time p.message).warnings) :
    ∃ oldest rest, sweep p.time r.entries = (key, oldest) :: rest := by
  unfold Uadp.push at h
  dsimp only at h
  split at h
  · simp at h
  · split at h
    · exact overflow_of_dropOldest (by simpa using h)
    · exact overflow_of_dropOldest (overflow_of_settle h)

/-- After a chunk was recorded every entry is one that the sweep left, or the
one it was recorded in. -/
theorem expiresAt_of_settle {entry : Entry} {maxTotalSize : Nat} {warnings : List ReassemblyWarning}
    {r : Reassembler} (hentry : p.time ≤ entry.expiresAt) {e : JsString × Entry}
    (he : e ∈ (settle maxTotalSize (chunkKey host p.message) entry (roomFor host r p)
      warnings).state.entries) : p.time ≤ e.2.expiresAt := by
  have hswept : ∀ e ∈ roomFor host r p, p.time ≤ e.2.expiresAt := by
    intro e he
    simpa using (List.mem_filter.mp ((roomFor_sublist_sweep host r p).subset he)).2
  have hset : ∀ e ∈ InsertionMap.set (chunkKey host p.message) entry (roomFor host r p),
      p.time ≤ e.2.expiresAt := by
    intro e he
    rcases InsertionMap.mem_of_mem_set he with he | rfl
    · exact hswept e he
    · exact hentry
  unfold settle at he
  dsimp only at he
  split at he
  · exact hset e he
  · split at he <;> exact hset e (List.mem_filter.mp he).1

theorem WellLogged.pushWithinBounds (h : WellLogged time s) (p : Push) :
    PushWithinBounds host s p where
  noneExpired hrefused := by
    rcases push_cases host s.reassembler p.time p.message with ⟨-, -, -, hno⟩ | ⟨-, -, -, -, hno⟩ |
        ⟨-, -, hpush, -⟩
    · exact absurd hno hrefused
    · exact absurd hno hrefused
    · intro e he
      rw [step, hpush] at he
      refine expiresAt_of_settle ?_ he
      cases hlive : liveEntry host s.reassembler p.time p.message with
      | none =>
          change p.time ≤ p.time + reassemblyExpiryMs
          simp only [reassemblyExpiryMs]
          omega
      | some entry => exact (h.live hlive).2.1
  firstToExpire key hkey := by
    obtain ⟨oldest, rest, hcons⟩ := overflow_of_push hkey
    have hordered : (sweep p.time s.reassembler.entries).Pairwise
        fun d e => d.2.expiresAt ≤ e.2.expiresAt := h.bounds.ordered.sublist List.filter_sublist
    rw [hcons] at hordered ⊢
    refine ⟨oldest, List.mem_cons_self, fun e he => ?_⟩
    rcases List.mem_cons.mp he with rfl | he
    · exact le_refl _
    · exact List.rel_of_pairwise_cons hordered he
  totalSize bs hbs := by
    rcases push_cases host s.reassembler p.time p.message with ⟨-, -, hno, -⟩ | ⟨-, -, -, hno, -⟩ |
        ⟨-, -, hpush, -⟩
    · cases hno.symm.trans hbs
    · cases hno.symm.trans hbs
    · rw [hpush] at hbs
      obtain ⟨hscan, hconcat⟩ := output_settle_eq hbs
      exact ((h.records p).output hscan hconcat).1
  bytes bs hbs := by
    rcases push_cases host s.reassembler p.time p.message with ⟨-, -, hno, -⟩ | ⟨-, -, -, hno, -⟩ |
        ⟨-, -, hpush, -⟩
    · cases hno.symm.trans hbs
    · cases hno.symm.trans hbs
    · rw [hpush] at hbs
      obtain ⟨hscan, hconcat⟩ := output_settle_eq hbs
      exact ((h.records p).output hscan hconcat).2

/-- After any chunks whatever, pushed by a clock that does not run backwards, the
reassembler is within its bounds, and so is what the next call does. -/
theorem reassembler_within_bounds (host : Host) (maxTotalSize : Nat) (pushes : List Push)
    (hclock : pushes.Pairwise fun p q => p.time ≤ q.time) :
    WithinBounds (Logged.after host ⟨⟨maxTotalSize, []⟩, []⟩ pushes).reassembler ∧
      ∀ p, (∀ q ∈ pushes, q.time ≤ p.time) →
        PushWithinBounds host (Logged.after host ⟨⟨maxTotalSize, []⟩, []⟩ pushes) p := by
  refine ⟨?_, fun p hlast => (wellLogged_after hclock p.time hlast).pushWithinBounds p⟩
  obtain ⟨time, hlast⟩ : ∃ time, ∀ p ∈ pushes, p.time ≤ time := by
    refine ⟨((pushes.map fun p => p.time.natAbs).sum : Nat), fun p hp => ?_⟩
    have hle := List.single_le_sum (by simp) _
      (List.mem_map_of_mem (f := fun p : Push => p.time.natAbs) hp)
    omega
  exact (wellLogged_after hclock time hlast).bounds

/-- A chunk of a message of twenty bytes, all of them equal. -/
def overlapping (offset length : Nat) (byte : UInt8) : Push :=
  ⟨0, .of { publisherId := JsValue.nat 5, groupHeader := some { writerGroupId := JsValue.nat 2 } }
    ⟨7, offset, 20, List.replicate length byte⟩⟩

/-- The second chunk covers the first until the third replaces it. -/
def overlappingPushes : List Push :=
  [overlapping 4 6 1, overlapping 0 10 2, overlapping 0 4 3]

theorem overlapping_within_bounds :
    WithinBounds (Logged.after Host.inert ⟨⟨1000, []⟩, []⟩ overlappingPushes).reassembler ∧
      PushWithinBounds Host.inert (Logged.after Host.inert ⟨⟨1000, []⟩, []⟩ overlappingPushes)
        (overlapping 10 10 4) := by
  have h := reassembler_within_bounds Host.inert 1000 overlappingPushes (by decide)
  exact ⟨h.1, h.2 _ (by decide)⟩

/-- Bytes 4 to 9 come from the first chunk, though the second was recorded later
and covers them. -/
theorem replaced_chunk_uncovers : ¬ ∀ (host : Host) (maxTotalSize : Nat) (pushes : List Push)
    (p : Push) (bs : Bytes), (pushes ++ [p]).Pairwise (fun p q => p.time ≤ q.time) →
      (push host (Logged.after host ⟨⟨maxTotalSize, []⟩, []⟩ pushes).reassembler p.time
        p.message).output = some bs →
      FromLastCovering ((Logged.after host ⟨⟨maxTotalSize, []⟩, []⟩ pushes).log host p) bs := by
  intro h
  have hbytes := h Host.inert 1000 overlappingPushes (overlapping 10 10 4)
    (List.replicate 4 3 ++ List.replicate 6 1 ++ List.replicate 10 4) (by decide) (by decide +kernel)
    4 (by decide) ⟨7, 0, 20, List.replicate 10 2⟩ (by decide +kernel)
  exact absurd hbytes (by decide)

end OpcUaSuite.Uadp
