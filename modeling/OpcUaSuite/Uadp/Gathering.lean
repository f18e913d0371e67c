import OpcUaSuite.Uadp.Chunking

/-!
# Entries of one message

An entry that holds tiles of one message only, and takes in only chunks of that
message, gives back nothing but that message. No assumption is made about time,
order, loss or the number of entries.
-/

namespace OpcUaSuite.Uadp

open Js ByteCodec PubSub Tiling

variable {host : Host} {key : JsString} {ms : List ChunkMessage} {whole : Bytes}

/-- The entry holds tiles of the message, each at most once. -/
structure Gathers (ms : List ChunkMessage) (whole : Bytes) (entry : Entry) : Prop where
  totalSize : entry.totalSize = whole.length
  nodup : (entry.parts.map Prod.fst).Nodup
  subset : entry.parts ⊆ ms.map ChunkMessage.tile

theorem Gathers.recorded {m : ChunkMessage} {prior : Option Entry} (hms : ChunksOf host key ms whole)
    (hm : m ∈ ms) (h : ∀ entry, prior = some entry → Gathers ms whole entry) (now : Int) :
    Gathers ms whole (recorded now m.chunk prior) := by
  have hprior : Gathers ms whole
      (prior.getD ⟨m.chunk.totalSize, [], now + reassemblyExpiryMs⟩) := by
    cases prior with
    | none => exact ⟨hms.totalSize m hm, List.nodup_nil, List.nil_subset _⟩
    | some entry => exact h entry rfl
  have htile : m.tile ∈ ms.map ChunkMessage.tile := List.mem_map_of_mem hm
  refine ⟨hprior.totalSize, InsertionMap.nodup_set hprior.nodup, ?_⟩
  change InsertionMap.set m.tile.1 m.tile.2 _ ⊆ _
  rw [hms.tiles.set_eq hprior.subset hprior.nodup htile]
  split
  · exact hprior.subset
  · exact List.append_subset.mpr ⟨hprior.subset, List.cons_subset.mpr ⟨htile, List.nil_subset _⟩⟩

/-- Once the sizes add up, no tile is missing. -/
theorem Gathers.all {entry : Entry} (h : Gathers ms whole entry) (hms : ChunksOf host key ms whole)
    (hweight : ¬ weight entry.parts < entry.totalSize) :
    ms.map ChunkMessage.tile ⊆ entry.parts := by
  intro t ht
  by_contra hmissing
  have hlt := hms.tiles.weight_lt_of_missing h.subset h.nodup ht hmissing
  rw [h.totalSize] at hweight
  exact hweight hlt

theorem output_settle {entries : InsertionMap JsString Entry} {entry : Entry} {maxTotalSize : Nat}
    {warnings : List ReassemblyWarning} (hms : ChunksOf host key ms whole)
    (h : Gathers ms whole entry) {bs : Bytes}
    (hout : (settle maxTotalSize key entry entries warnings).output = some bs) : bs = whole := by
  by_cases hweight : weight entry.parts < entry.totalSize
  · rw [settle_of_missing hweight] at hout
    cases hout
  · rw [settle_of_all hms h.totalSize h.nodup h.subset (h.all hms hweight)] at hout
    exact (Option.some.inj hout).symm

theorem entries_settle_self {entries : InsertionMap JsString Entry} {entry found : Entry}
    {maxTotalSize : Nat} {warnings : List ReassemblyWarning}
    (h : InsertionMap.get? key (settle maxTotalSize key entry entries warnings).state.entries =
      some found) : found = entry := by
  unfold settle at h
  dsimp only at h
  split at h
  · rw [InsertionMap.get?_set_self] at h
    exact (Option.some.inj h).symm
  · split at h <;>
      rw [InsertionMap.get?_erase_self] at h <;>
      cases h

theorem nodup_settle {entries : InsertionMap JsString Entry} (entry : Entry) (maxTotalSize : Nat)
    (warnings : List ReassemblyWarning) (h : (InsertionMap.keys entries).Nodup) :
    (InsertionMap.keys (settle maxTotalSize key entry entries warnings).state.entries).Nodup := by
  have hset := @InsertionMap.nodup_set _ _ _ key entry entries h
  unfold settle
  dsimp only
  split
  · exact hset
  · split <;> exact InsertionMap.nodup_filter hset

/-! ## Room for a new key -/

theorem nodup_dropOldest {entries : InsertionMap JsString Entry}
    (h : (InsertionMap.keys entries).Nodup) :
    (InsertionMap.keys (dropOldest key entries).1).Nodup := by
  unfold dropOldest
  split
  · exact h
  · split
    · exact InsertionMap.nodup_filter h
    · exact h

/-- The key that needs room is not the one that is dropped. -/
theorem get?_dropOldest_self (key : JsString) (entries : InsertionMap JsString Entry) :
    InsertionMap.get? key (dropOldest key entries).1 = InsertionMap.get? key entries := by
  unfold dropOldest
  split
  · rfl
  · split
    next oldest _ rest hroom =>
      simp only [Bool.and_eq_true, Option.isNone_iff_eq_none] at hroom
      rw [hroom.1]
      exact InsertionMap.get?_filter_of_none hroom.1
    next => rfl

theorem get?_dropOldest {entries : InsertionMap JsString Entry} {other : JsString} {entry : Entry}
    (hnodup : (InsertionMap.keys entries).Nodup)
    (h : InsertionMap.get? other (dropOldest key entries).1 = some entry) :
    InsertionMap.get? other entries = some entry := by
  unfold dropOldest at h
  split at h
  · exact h
  · split at h
    · dsimp only [InsertionMap.erase] at h
      exact InsertionMap.get?_of_get?_filter hnodup h
    · exact h

/-! ## A call of `push` -/

/-- The chunk is small enough to be recorded under its key. -/
def fits (r : Reassembler) (m : ChunkMessage) : Bool := decide (m.chunk.totalSize ≤ r.maxTotalSize)

/-- The unexpired entry the chunk finds under its key. -/
def liveEntry (host : Host) (r : Reassembler) (now : Int) (m : ChunkMessage) : Option Entry :=
  InsertionMap.get? (chunkKey host m) (sweep now r.entries)

theorem liveEntry_eq_some {r : Reassembler} {now : Int} {m : ChunkMessage} {entry : Entry}
    (hnodup : (InsertionMap.keys r.entries).Nodup) (h : liveEntry host r now m = some entry) :
    InsertionMap.get? (chunkKey host m) r.entries = some entry ∧ now ≤ entry.expiresAt := by
  have hkept := (List.mem_filter.mp (InsertionMap.mem_of_get? h)).2
  simp only [Bool.not_eq_true', decide_eq_false_iff_not, not_lt] at hkept
  exact ⟨InsertionMap.get?_of_get?_filter hnodup h, hkept⟩

theorem push_of_fits {r : Reassembler} {now : Int} {m : ChunkMessage} (hfits : fits r m = true)
    (hms : ChunksOf host key ms whole) (hm : m ∈ ms) :
    push host r now m =
      settle r.maxTotalSize key (recorded now m.chunk (liveEntry host r now m))
        (dropOldest key (sweep now r.entries)).1 (dropOldest key (sweep now r.entries)).2 := by
  have hend := hms.tiles.end_le (List.mem_map_of_mem (f := ChunkMessage.tile) hm)
  have htotal := hms.totalSize m hm
  have hle := of_decide_eq_true hfits
  simp only [ChunkMessage.tile] at hend
  unfold push
  dsimp only
  rw [if_neg (by omega), if_neg (by omega), get?_dropOldest_self, hms.key m hm, liveEntry,
    hms.key m hm]

theorem push_of_not_fits {r : Reassembler} {now : Int} {m : ChunkMessage}
    (h : fits r m = false) : (push host r now m).state = r ∧ (push host r now m).output = none := by
  have hgt := of_decide_eq_false h
  unfold push
  dsimp only
  rw [if_pos (by omega)]
  exact ⟨rfl, rfl⟩

theorem nodup_push {r : Reassembler} (now : Int) (m : ChunkMessage)
    (h : (InsertionMap.keys r.entries).Nodup) :
    (InsertionMap.keys (push host r now m).state.entries).Nodup := by
  have hdrop := @nodup_dropOldest (chunkKey host m) (sweep now r.entries)
    (InsertionMap.nodup_filter h)
  unfold push
  dsimp only
  split
  · exact h
  · split
    · exact hdrop
    · exact nodup_settle _ _ _ hdrop

/-- Under another key nothing new appears. -/
theorem get?_push_other {r : Reassembler} {now : Int} {m : ChunkMessage} {other : JsString}
    {entry : Entry} (hnodup : (InsertionMap.keys r.entries).Nodup) (hother : other ≠ chunkKey host m)
    (h : InsertionMap.get? other (push host r now m).state.entries = some entry) :
    InsertionMap.get? other r.entries = some entry := by
  have hswept : InsertionMap.get? other (dropOldest (chunkKey host m) (sweep now r.entries)).1 =
      some entry → InsertionMap.get? other r.entries = some entry := by
    intro hdrop
    exact InsertionMap.get?_of_get?_filter hnodup
      (get?_dropOldest (InsertionMap.nodup_filter hnodup) hdrop)
  unfold push at h
  dsimp only at h
  split at h
  · exact h
  · split at h
    · exact hswept h
    · rw [get?_settle_of_ne hother] at h
      exact hswept h

end OpcUaSuite.Uadp
