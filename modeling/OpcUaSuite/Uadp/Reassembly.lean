import OpcUaSuite.Uadp.Reassembler

/-!
# What the reassembler collects

An entry fills up with the tiles of one message as long as only chunks of that
message arrive under its key. The last missing tile, and no earlier one, gives
the message back.
-/

namespace OpcUaSuite.Uadp

open Js ByteCodec PubSub Tiling

variable {host : Host} {key : JsString} {entries : InsertionMap JsString Entry}

theorem sweep_of_live {now : Int} {entry : Entry} (h : InsertionMap.get? key entries = some entry)
    (hlive : now ≤ entry.expiresAt) : InsertionMap.get? key (sweep now entries) = some entry := by
  refine InsertionMap.get?_filter_of_keep h ?_
  simp only [Bool.not_eq_true', decide_eq_false_iff_not]
  omega

theorem length_sweep_le (now : Int) : (sweep now entries).length ≤ entries.length :=
  List.length_filter_le _ _

theorem dropOldest_of_lt (key : JsString) (h : entries.length < maxInflightReassemblies) :
    dropOldest key entries = (entries, []) := by
  unfold dropOldest
  split
  next => rfl
  next oldest _ rest =>
    rw [if_neg]
    simp only [Bool.and_eq_true, decide_eq_true_eq, not_and]
    exact fun _ => by omega

theorem maxTotalSize_settle (maxTotalSize : Nat) (entry : Entry)
    (warnings : List ReassemblyWarning) :
    (settle maxTotalSize key entry entries warnings).state.maxTotalSize = maxTotalSize := by
  unfold settle
  dsimp only
  split
  · rfl
  · split <;> rfl

theorem get?_settle_of_ne {other : JsString} (h : key ≠ other) (maxTotalSize : Nat) (entry : Entry)
    (warnings : List ReassemblyWarning) :
    InsertionMap.get? key (settle maxTotalSize other entry entries warnings).state.entries =
      InsertionMap.get? key entries := by
  unfold settle
  dsimp only
  split
  · exact InsertionMap.get?_set_of_ne h _ _
  · split <;>
      exact (InsertionMap.get?_erase_of_ne h _).trans (InsertionMap.get?_set_of_ne h _ _)

theorem maxTotalSize_push (r : Reassembler) (now : Int) (m : ChunkMessage) :
    (push host r now m).state.maxTotalSize = r.maxTotalSize := by
  unfold push
  dsimp only
  split
  · rfl
  · split
    · rfl
    · exact maxTotalSize_settle _ _ _

theorem maxTotalSize_after (r : Reassembler) (pushes : List Push) :
    (after host r pushes).maxTotalSize = r.maxTotalSize := by
  induction pushes generalizing r with
  | nil => rfl
  | cons p pushes ih => exact (ih _).trans (maxTotalSize_push r p.time p.message)

/-- A message with another key leaves an entry alone, apart from the sweep. -/
theorem get?_push_of_ne {r : Reassembler} {now : Int} {m : ChunkMessage}
    (hroom : r.entries.length < maxInflightReassemblies) (h : chunkKey host m ≠ key) :
    InsertionMap.get? key (push host r now m).state.entries = InsertionMap.get? key r.entries ∨
    InsertionMap.get? key (push host r now m).state.entries =
      InsertionMap.get? key (sweep now r.entries) := by
  have hdrop := @dropOldest_of_lt (sweep now r.entries) (chunkKey host m)
    (lt_of_le_of_lt (length_sweep_le now) hroom)
  unfold push
  dsimp only
  split
  · exact Or.inl rfl
  · rw [hdrop]
    split
    · exact Or.inr rfl
    · exact Or.inr (get?_settle_of_ne h.symm _ _ _)

/-- The entry of a key holds these tiles, and does not expire before a time; it
is absent while there is none. -/
def Holding (key : JsString) (totalSize : Nat) (expiry : Int) (parts : List (Tile UInt8))
    (entries : InsertionMap JsString Entry) : Prop :=
  (parts = [] ∧ InsertionMap.get? key entries = none) ∨
  ∃ expiresAt, expiry ≤ expiresAt ∧
    InsertionMap.get? key entries = some ⟨totalSize, parts, expiresAt⟩

variable {totalSize : Nat} {expiry : Int} {parts : List (Tile UInt8)}

theorem Holding.sweep {now : Int} (h : Holding key totalSize expiry parts entries)
    (hnow : now ≤ expiry) : Holding key totalSize expiry parts (sweep now entries) := by
  rcases h with ⟨hparts, hnone⟩ | ⟨expiresAt, hexp, hsome⟩
  · exact Or.inl ⟨hparts, InsertionMap.get?_filter_of_none hnone⟩
  · exact Or.inr ⟨expiresAt, hexp, sweep_of_live hsome (le_trans hnow hexp)⟩

theorem Holding.push_of_ne {r : Reassembler} {now : Int} {m : ChunkMessage}
    (h : Holding key totalSize expiry parts r.entries) (hnow : now ≤ expiry)
    (hroom : r.entries.length < maxInflightReassemblies) (hkey : chunkKey host m ≠ key) :
    Holding key totalSize expiry parts (push host r now m).state.entries := by
  have hswept := h.sweep hnow
  unfold Holding at h hswept ⊢
  rcases get?_push_of_ne hroom hkey with heq | heq <;> rw [heq] <;> assumption

/-- The chunks of one message: tiles of the whole under one key. -/
structure ChunksOf (host : Host) (key : JsString) (ms : List ChunkMessage) (whole : Bytes) : Prop
    where
  tiles : Tiles 0 (ms.map ChunkMessage.tile) whole
  totalSize : ∀ m ∈ ms, m.chunk.totalSize = whole.length
  key : ∀ m ∈ ms, chunkKey host m = key

variable {ms : List ChunkMessage} {whole : Bytes}

theorem ChunksOf.tile_inj (h : ChunksOf host key ms whole) {m n : ChunkMessage} (hm : m ∈ ms)
    (hn : n ∈ ms) (heq : m.tile = n.tile) : m = n :=
  List.inj_on_of_nodup_map (Tiles.nodup_of_offsets h.tiles.nodup_offsets) hm hn heq

/-- The tiles collected so far, each once. -/
structure Collected (ms : List ChunkMessage) (seen : List ChunkMessage)
    (parts : List (Tile UInt8)) : Prop where
  nodup : (parts.map Prod.fst).Nodup
  mem_iff : ∀ t, t ∈ parts ↔ ∃ m ∈ ms, m ∈ seen ∧ m.tile = t

theorem Collected.subset {seen : List ChunkMessage} (h : Collected ms seen parts) :
    parts ⊆ ms.map ChunkMessage.tile := by
  intro t ht
  obtain ⟨m, hm, -, rfl⟩ := (h.mem_iff t).mp ht
  exact List.mem_map_of_mem hm

/-- One more chunk of the message. -/
theorem Collected.set {seen : List ChunkMessage} (h : Collected ms seen parts)
    (hms : ChunksOf host key ms whole) {m : ChunkMessage} (hm : m ∈ ms) :
    Collected ms (seen ++ [m]) (InsertionMap.set m.chunk.chunkOffset m.chunk.chunkData parts) := by
  have hset := hms.tiles.set_eq h.subset h.nodup (List.mem_map_of_mem (f := ChunkMessage.tile) hm)
  have hmem : ∀ t, (t ∈ parts ∨ t = m.tile) ↔ ∃ n ∈ ms, n ∈ seen ++ [m] ∧ n.tile = t := by
    intro t
    rw [h.mem_iff]
    constructor
    · rintro (⟨n, hn, hseen, rfl⟩ | rfl)
      · exact ⟨n, hn, List.mem_append_left _ hseen, rfl⟩
      · exact ⟨m, hm, List.mem_append_right _ List.mem_cons_self, rfl⟩
    · rintro ⟨n, hn, hseen, rfl⟩
      rcases List.mem_append.mp hseen with hseen | hseen
      · exact Or.inl ⟨n, hn, hseen, rfl⟩
      · exact Or.inr (by rw [List.mem_singleton.mp hseen])
  constructor
  · exact InsertionMap.nodup_set h.nodup
  · intro t
    change t ∈ InsertionMap.set m.tile.1 m.tile.2 parts ↔ _
    rw [hset, ← hmem t]
    split
    next hin =>
      constructor
      · exact Or.inl
      · rintro (ht | rfl)
        · exact ht
        · exact hin
    next => simp

/-- Every chunk of the message has been seen. -/
def Covers (ms seen : List ChunkMessage) : Prop := ∀ m ∈ ms, m ∈ seen

instance (ms seen : List ChunkMessage) : Decidable (Covers ms seen) := by
  unfold Covers
  infer_instance

theorem Collected.weight_lt {seen : List ChunkMessage} (h : Collected ms seen parts)
    (hms : ChunksOf host key ms whole) (hnot : ¬ Covers ms seen) :
    weight parts < whole.length := by
  simp only [Covers, not_forall] at hnot
  obtain ⟨m, hm, hunseen⟩ := hnot
  refine hms.tiles.weight_lt_of_missing h.subset h.nodup
    (List.mem_map_of_mem (f := ChunkMessage.tile) hm) ?_
  intro hmem
  obtain ⟨n, hn, hseen, heq⟩ := (h.mem_iff _).mp hmem
  exact hunseen (hms.tile_inj hn hm heq ▸ hseen)

theorem settle_of_missing {maxTotalSize : Nat} {entry : Entry} {warnings : List ReassemblyWarning}
    (h : weight entry.parts < entry.totalSize) :
    settle maxTotalSize key entry entries warnings =
      ⟨⟨maxTotalSize, InsertionMap.set key entry entries⟩, none, warnings⟩ := by
  unfold settle
  exact if_pos h

/-- All tiles together give the message back. -/
theorem settle_of_all {maxTotalSize : Nat} {entry : Entry} {warnings : List ReassemblyWarning}
    (hms : ChunksOf host key ms whole) (hentry : entry.totalSize = whole.length)
    (hnodup : (entry.parts.map Prod.fst).Nodup) (hsub : entry.parts ⊆ ms.map ChunkMessage.tile)
    (hall : ms.map ChunkMessage.tile ⊆ entry.parts) :
    (settle maxTotalSize key entry entries warnings).output = some whole := by
  have hsorted := hms.tiles.sorted_eq hsub hall hnodup
  have hscan := hms.tiles.scan_eq
  have hweight : weight entry.parts = whole.length := by
    rw [← hms.tiles.weight_eq, ← hsorted]
    exact ((List.perm_insertionSort _ entry.parts).map fun t : Tile UInt8 => t.2.length).sum_eq.symm
  rw [Nat.zero_add] at hscan
  unfold settle
  dsimp only
  rw [if_neg (by omega), hsorted, if_pos (hscan.trans (by rw [hentry])), hms.tiles.concat_eq]

/-- The last chunk gives the message back. -/
theorem settle_of_covers {maxTotalSize : Nat} {entry : Entry} {seen : List ChunkMessage}
    {warnings : List ReassemblyWarning} (hentry : entry.totalSize = whole.length)
    (h : Collected ms seen entry.parts) (hms : ChunksOf host key ms whole) (hall : Covers ms seen) :
    (settle maxTotalSize key entry entries warnings).output = some whole := by
  refine settle_of_all hms hentry h.nodup h.subset ?_
  intro t ht
  obtain ⟨m, hm, rfl⟩ := List.mem_map.mp ht
  exact (h.mem_iff _).mpr ⟨m, hm, hall m hm, rfl⟩

/-- A chunk of the message reaches its entry. -/
theorem push_own {r : Reassembler} {now : Int} {m : ChunkMessage}
    (hms : ChunksOf host key ms whole) (hm : m ∈ ms)
    (h : Holding key whole.length expiry parts r.entries) (hnow : now ≤ expiry)
    (hlate : expiry ≤ now + reassemblyExpiryMs)
    (hroom : r.entries.length < maxInflightReassemblies) (hcap : whole.length ≤ r.maxTotalSize) :
    ∃ expiresAt, expiry ≤ expiresAt ∧
      push host r now m = settle r.maxTotalSize key
        ⟨whole.length, InsertionMap.set m.chunk.chunkOffset m.chunk.chunkData parts, expiresAt⟩
        (sweep now r.entries) [] ∧
      (parts ≠ [] → InsertionMap.get? key (sweep now r.entries) =
        some ⟨whole.length, parts, expiresAt⟩) := by
  have htotal := hms.totalSize m hm
  have hend := hms.tiles.end_le (List.mem_map_of_mem (f := ChunkMessage.tile) hm)
  rw [Nat.zero_add] at hend
  have hdrop := @dropOldest_of_lt (sweep now r.entries) key
    (lt_of_le_of_lt (length_sweep_le now) hroom)
  have hpush : push host r now m = settle r.maxTotalSize key
      (recorded now m.chunk (InsertionMap.get? key (sweep now r.entries)))
      (sweep now r.entries) [] := by
    unfold push
    dsimp only
    rw [hms.key m hm, if_neg (by omega), hdrop]
    dsimp only
    rw [if_neg (by simp only [ChunkMessage.tile] at hend; omega)]
  rcases h.sweep hnow with ⟨rfl, hnone⟩ | ⟨expiresAt, hexp, hsome⟩
  · refine ⟨now + reassemblyExpiryMs, hlate, ?_, fun hne => absurd rfl hne⟩
    rw [hpush, hnone, recorded, htotal]
    rfl
  · refine ⟨expiresAt, hexp, ?_, fun _ => hsome⟩
    rw [hpush, hsome]
    rfl

/-- Calls in which the chunks of a message mix with those of other messages,
within thirty seconds and never in a full reassembler. -/
structure Interleaving (host : Host) (key : JsString) (ms : List ChunkMessage) (t0 : Int)
    (r : Reassembler) (pushes : List Push) : Prop where
  foreign : ∀ p ∈ pushes, p.message ∈ ms ∨ chunkKey host p.message ≠ key
  window : ∀ p ∈ pushes, t0 ≤ p.time ∧ p.time ≤ t0 + reassemblyExpiryMs
  inFlight : ∀ k < pushes.length,
    (after host r (pushes.take k)).entries.length < maxInflightReassemblies

theorem Interleaving.init {t0 : Int} {r : Reassembler} {pushes : List Push} {p : Push}
    (h : Interleaving host key ms t0 r (pushes ++ [p])) :
    Interleaving host key ms t0 r pushes where
  foreign q hq := h.foreign q (List.mem_append_left _ hq)
  window q hq := h.window q (List.mem_append_left _ hq)
  inFlight k hk := by
    have := h.inFlight k (by simp; omega)
    rwa [List.take_append_of_le_length hk.le] at this

theorem Interleaving.room {t0 : Int} {r : Reassembler} {pushes : List Push} {p : Push}
    (h : Interleaving host key ms t0 r (pushes ++ [p])) :
    (after host r pushes).entries.length < maxInflightReassemblies := by
  have := h.inFlight pushes.length (by simp)
  rwa [List.take_left] at this

theorem length_set_le (key : JsString) (entry : Entry) (entries : InsertionMap JsString Entry) :
    (InsertionMap.set key entry entries).length ≤ entries.length + 1 := by
  induction entries with
  | nil => simp [InsertionMap.set]
  | cons e entries ih =>
      simp only [InsertionMap.set]
      split
      · simp
      · simp only [List.length_cons]
        omega

theorem length_dropOldest_le (key : JsString) (entries : InsertionMap JsString Entry) :
    (dropOldest key entries).1.length ≤ entries.length := by
  cases entries with
  | nil => exact Nat.le_refl _
  | cons e entries =>
      unfold dropOldest
      dsimp only
      split
      · exact List.length_filter_le _ _
      · exact Nat.le_refl _

theorem length_push_le (r : Reassembler) (now : Int) (m : ChunkMessage) :
    (push host r now m).state.entries.length ≤ r.entries.length + 1 := by
  have hdrop := length_dropOldest_le (chunkKey host m) (sweep now r.entries)
  have hsweep : (sweep now r.entries).length ≤ r.entries.length := length_sweep_le now
  have hset := length_set_le (chunkKey host m)
    (recorded now m.chunk (InsertionMap.get? (chunkKey host m)
      (dropOldest (chunkKey host m) (sweep now r.entries)).1))
    (dropOldest (chunkKey host m) (sweep now r.entries)).1
  have herase := List.length_filter_le (fun e : JsString × Entry => decide (e.1 ≠ chunkKey host m))
    (InsertionMap.set (chunkKey host m) (recorded now m.chunk (InsertionMap.get? (chunkKey host m)
      (dropOldest (chunkKey host m) (sweep now r.entries)).1))
      (dropOldest (chunkKey host m) (sweep now r.entries)).1)
  unfold push settle InsertionMap.erase
  dsimp only
  split_ifs <;> dsimp only <;> omega

theorem length_after_le (r : Reassembler) (pushes : List Push) :
    (after host r pushes).entries.length ≤ r.entries.length + pushes.length := by
  induction pushes generalizing r with
  | nil => exact le_rfl
  | cons p pushes ih =>
      have hrest := ih (step host r p)
      have hstep := @length_push_le host r p.time p.message
      change (after host (step host r p) pushes).entries.length ≤ _
      simp only [step] at hrest
      simp only [step, List.length_cons]
      omega

/-- The chunks of a message on their own, all at once. -/
theorem Interleaving.of_own {t0 : Int} {r : Reassembler} {seen : List ChunkMessage}
    (hown : ∀ m ∈ seen, m ∈ ms)
    (hroom : r.entries.length + seen.length ≤ maxInflightReassemblies) :
    Interleaving host key ms t0 r (seen.map fun m => ⟨t0, m⟩) where
  foreign p hp := by
    obtain ⟨m, hm, rfl⟩ := List.mem_map.mp hp
    exact Or.inl (hown m hm)
  window p hp := by
    obtain ⟨m, -, rfl⟩ := List.mem_map.mp hp
    simp only [reassemblyExpiryMs]
    omega
  inFlight k hk := by
    have hle := @length_after_le host r ((seen.map fun m => (⟨t0, m⟩ : Push)).take k)
    simp only [List.length_take, List.length_map] at hle hk
    omega

/-- Before the last chunk arrives the entry holds what has been seen. -/
theorem holding_after {t0 : Int} {r : Reassembler} {pushes : List Push}
    (hms : ChunksOf host key ms whole) (hcap : whole.length ≤ r.maxTotalSize)
    (hnew : InsertionMap.get? key r.entries = none)
    (h : Interleaving host key ms t0 r pushes) (hnot : ¬ Covers ms (pushes.map Push.message)) :
    ∃ parts, Collected ms (pushes.map Push.message) parts ∧
      Holding key whole.length (t0 + reassemblyExpiryMs) parts (after host r pushes).entries := by
  induction pushes using List.reverseRecOn with
  | nil =>
      refine ⟨[], ⟨List.Pairwise.nil, ?_⟩, Or.inl ⟨rfl, hnew⟩⟩
      simp
  | append_singleton pushes p ih =>
      have hbefore : ¬ Covers ms (pushes.map Push.message) := by
        intro hall
        refine hnot fun m hm => ?_
        rw [List.map_append]
        exact List.mem_append_left _ (hall m hm)
      obtain ⟨parts, hcol, hhold⟩ := ih h.init hbefore
      have hwin := h.window p (List.mem_append_right _ List.mem_cons_self)
      have hafter : after host r (pushes ++ [p]) =
          (push host (after host r pushes) p.time p.message).state := by
        simp only [after, List.foldl_append, List.foldl_cons, List.foldl_nil, step]
      rw [hafter]
      rcases em (p.message ∈ ms) with hown | hother
      · have hcol' := hcol.set hms hown
        rw [← List.map_singleton (f := Push.message), ← List.map_append] at hcol'
        refine ⟨_, hcol', ?_⟩
        obtain ⟨expiresAt, hexp, hpush, -⟩ := push_own hms hown hhold hwin.2 (by omega) h.room
          (by rwa [maxTotalSize_after])
        rw [hpush, settle_of_missing (hcol'.weight_lt hms hnot)]
        exact Or.inr ⟨expiresAt, hexp, InsertionMap.get?_set_self _ _ _⟩
      · have hkey := (h.foreign p (List.mem_append_right _ List.mem_cons_self)).resolve_left hother
        refine ⟨parts, ⟨hcol.nodup, ?_⟩, hhold.push_of_ne hwin.2 h.room hkey⟩
        intro t
        rw [hcol.mem_iff]
        refine exists_congr fun m => and_congr_right fun hm => ?_
        rw [List.map_append, List.mem_append, List.map_singleton, List.mem_singleton]
        refine and_congr_left fun _ => ⟨Or.inl, fun hseen => hseen.resolve_right ?_⟩
        rintro rfl
        exact hother hm

/-- A chunk returns null while another is missing, and the whole message when it
is the last; a chunk that was there already changes nothing but the sweep. -/
theorem push_chunk {t0 : Int} {r : Reassembler} {pushes : List Push} {p : Push}
    (hms : ChunksOf host key ms whole) (hcap : whole.length ≤ r.maxTotalSize)
    (hnew : InsertionMap.get? key r.entries = none)
    (h : Interleaving host key ms t0 r (pushes ++ [p]))
    (hnot : ¬ Covers ms (pushes.map Push.message)) (hown : p.message ∈ ms) :
    (push host (after host r pushes) p.time p.message).output =
        (if Covers ms ((pushes ++ [p]).map Push.message) then some whole else none) ∧
    (p.message ∈ pushes.map Push.message →
      (step host (after host r pushes) p).entries = sweep p.time (after host r pushes).entries) := by
  obtain ⟨parts, hcol, hhold⟩ := holding_after hms hcap hnew h.init hnot
  have hwin := h.window p (List.mem_append_right _ List.mem_cons_self)
  obtain ⟨expiresAt, hexp, hpush, hentry⟩ := push_own hms hown hhold hwin.2 (by omega) h.room
    (by rwa [maxTotalSize_after])
  have hcol' := hcol.set hms hown
  rw [← List.map_singleton (f := Push.message), ← List.map_append] at hcol'
  constructor
  · rw [hpush]
    split
    next hall => exact settle_of_covers rfl hcol' hms hall
    next hmissing => rw [settle_of_missing (hcol'.weight_lt hms hmissing)]
  · intro hseen
    have hin : p.message.tile ∈ parts := (hcol.mem_iff _).mpr ⟨_, hown, hseen, rfl⟩
    have hset := hms.tiles.set_eq hcol.subset hcol.nodup
      (List.mem_map_of_mem (f := ChunkMessage.tile) hown)
    rw [if_pos hin] at hset
    change InsertionMap.set p.message.chunk.chunkOffset p.message.chunk.chunkData parts = parts
      at hset
    have hsame : Covers ms ((pushes ++ [p]).map Push.message) ↔
        Covers ms (pushes.map Push.message) := by
      refine forall₂_congr fun m _ => ?_
      rw [List.map_append, List.mem_append, List.map_singleton, List.mem_singleton]
      exact ⟨fun hm => hm.elim id fun heq => heq ▸ hseen, Or.inl⟩
    have hmissing := fun hall => hnot (hsame.mp hall)
    rw [step, hpush, settle_of_missing (hcol'.weight_lt hms hmissing), hset]
    exact InsertionMap.set_of_get? (hentry (List.ne_nil_of_mem hin))

end OpcUaSuite.Uadp
