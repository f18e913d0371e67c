import OpcUaSuite.Uadp.Gathering

/-!
# Chunks that are refused

A chunk is refused for its total size before anything else happens, and for its
own offset and length only after room was made for its key.
-/

namespace OpcUaSuite.Uadp

open Js ByteCodec PubSub

/-- The warnings that come with a refused chunk. -/
def ReassemblyWarning.refuses : ReassemblyWarning → Bool
  | .totalSize .. | .chunkTiling .. => true
  | .overflow _ | .entryTiling .. => false

/-- The chunk ends behind the total size it declares. -/
def overruns (m : ChunkMessage) : Bool :=
  decide (m.chunk.chunkOffset + m.chunk.chunkData.length > m.chunk.totalSize)

/-- A new key finds a full reassembler. -/
def needsRoom (host : Host) (r : Reassembler) (now : Int) (m : ChunkMessage) : Bool :=
  (liveEntry host r now m).isNone && decide (maxInflightReassemblies ≤ (sweep now r.entries).length)

variable {host : Host} {r : Reassembler} {now : Int} {m : ChunkMessage}

theorem sweep_sweep (now : Int) (entries : InsertionMap JsString Entry) :
    sweep now (sweep now entries) = sweep now entries := by
  unfold sweep
  rw [List.filter_filter]
  simp only [Bool.and_self]

theorem dropOldest_warnings (key : JsString) (entries : InsertionMap JsString Entry) :
    (dropOldest key entries).2.any ReassemblyWarning.refuses = false := by
  unfold dropOldest
  split
  · rfl
  · split <;> rfl

/-- Without need for room nothing is dropped, otherwise the oldest entry is. -/
theorem dropOldest_eq (host : Host) (r : Reassembler) (now : Int) (m : ChunkMessage) :
    (needsRoom host r now m = false ∧
      (dropOldest (chunkKey host m) (sweep now r.entries)).1 = sweep now r.entries) ∨
    (needsRoom host r now m = true ∧ ∃ oldest entries, sweep now r.entries = oldest :: entries ∧
      (dropOldest (chunkKey host m) (sweep now r.entries)).1 =
        InsertionMap.erase oldest.1 (sweep now r.entries)) := by
  unfold needsRoom liveEntry dropOldest
  cases hswept : sweep now r.entries with
  | nil => exact Or.inl ⟨by simp [maxInflightReassemblies], rfl⟩
  | cons oldest entries =>
      cases hroom : (InsertionMap.get? (chunkKey host m) (oldest :: entries)).isNone &&
          decide (maxInflightReassemblies ≤ (oldest :: entries).length) with
      | false => exact Or.inl ⟨rfl, by simp only [Bool.false_eq_true, if_false]⟩
      | true => exact Or.inr ⟨rfl, oldest, entries, rfl, by simp only [if_true]⟩

theorem settle_warnings (maxTotalSize : Nat) (key : JsString) (entry : Entry)
    (entries : InsertionMap JsString Entry) (warnings : List ReassemblyWarning) :
    (settle maxTotalSize key entry entries warnings).warnings.any ReassemblyWarning.refuses =
      warnings.any ReassemblyWarning.refuses := by
  unfold settle
  dsimp only
  split
  · rfl
  · split
    · rfl
    · simp [ReassemblyWarning.refuses]

/-- What a call does with a chunk: refuse it for its total size, refuse it once
there is room, or record it. -/
theorem push_cases (host : Host) (r : Reassembler) (now : Int) (m : ChunkMessage) :
    (fits r m = false ∧ (push host r now m).state = r ∧ (push host r now m).output = none ∧
      (push host r now m).warnings.any ReassemblyWarning.refuses = true) ∨
    (fits r m = true ∧ overruns m = true ∧
      (push host r now m).state =
        ⟨r.maxTotalSize, (dropOldest (chunkKey host m) (sweep now r.entries)).1⟩ ∧
      (push host r now m).output = none ∧
      (push host r now m).warnings.any ReassemblyWarning.refuses = true) ∨
    (fits r m = true ∧ overruns m = false ∧
      push host r now m = settle r.maxTotalSize (chunkKey host m)
        (recorded now m.chunk (liveEntry host r now m))
        (dropOldest (chunkKey host m) (sweep now r.entries)).1
        (dropOldest (chunkKey host m) (sweep now r.entries)).2 ∧
      (push host r now m).warnings.any ReassemblyWarning.refuses = false) := by
  unfold fits overruns
  by_cases hsize : m.chunk.totalSize ≤ r.maxTotalSize
  · have hfits : ¬ m.chunk.totalSize > r.maxTotalSize := by omega
    by_cases hover : m.chunk.chunkOffset + m.chunk.chunkData.length > m.chunk.totalSize
    · refine Or.inr (Or.inl ⟨decide_eq_true hsize, decide_eq_true hover, ?_⟩)
      simp only [push, if_neg hfits, if_pos hover, List.any_append]
      simp [ReassemblyWarning.refuses]
    · refine Or.inr (Or.inr ⟨decide_eq_true hsize, decide_eq_false hover, ?_⟩)
      have hpush : push host r now m = settle r.maxTotalSize (chunkKey host m)
          (recorded now m.chunk (liveEntry host r now m))
          (dropOldest (chunkKey host m) (sweep now r.entries)).1
          (dropOldest (chunkKey host m) (sweep now r.entries)).2 := by
        simp only [push, if_neg hfits, if_neg hover, get?_dropOldest_self, liveEntry]
      refine ⟨hpush, ?_⟩
      rw [hpush, settle_warnings, dropOldest_warnings]
  · have hsize' : m.chunk.totalSize > r.maxTotalSize := by omega
    refine Or.inl ⟨decide_eq_false hsize, ?_⟩
    simp only [push, if_pos hsize']
    exact ⟨trivial, trivial, rfl⟩

/-- The chunk is refused with `REASSEMBLY_TOTALSIZE` or with the check of the
chunk itself. -/
def Refused (host : Host) (r : Reassembler) (now : Int) (m : ChunkMessage) : Prop :=
  (push host r now m).warnings.any ReassemblyWarning.refuses = true

/-- The unexpired entries are the same before and after a call. -/
def KeepsUnexpired (host : Host) (r : Reassembler) (now : Int) (m : ChunkMessage) : Prop :=
  sweep now (push host r now m).state.entries = sweep now r.entries

instance : Decidable (Refused host r now m) :=
  inferInstanceAs (Decidable ((push host r now m).warnings.any ReassemblyWarning.refuses = true))

instance : Decidable (KeepsUnexpired host r now m) :=
  inferInstanceAs (Decidable (sweep now (push host r now m).state.entries = sweep now r.entries))

/-- Erasing the key of the first entry leaves another list. -/
theorem sweep_erase_ne {oldest : JsString × Entry} {entries : InsertionMap JsString Entry}
    (h : sweep now r.entries = oldest :: entries) :
    sweep now (InsertionMap.erase oldest.1 (sweep now r.entries)) ≠ sweep now r.entries := by
  intro heq
  have hmem : oldest ∈ sweep now (InsertionMap.erase oldest.1 (sweep now r.entries)) := by
    rw [heq, h]
    exact List.mem_cons_self
  have herased := (List.mem_filter.mp (List.mem_filter.mp hmem).1).2
  simp at herased

/-- A chunk that overruns its message is refused after the oldest entry made room. -/
theorem evicts (hfits : fits r m = true) (hover : overruns m = true)
    (hroom : needsRoom host r now m = true) :
    Refused host r now m ∧ ¬ KeepsUnexpired host r now m := by
  unfold Refused KeepsUnexpired
  rcases push_cases host r now m with ⟨hsize, -⟩ | ⟨-, -, hstate, -, hrefused⟩ | ⟨-, hwithin, -⟩
  · exact Bool.noConfusion (hfits.symm.trans hsize)
  · refine ⟨hrefused, ?_⟩
    rw [hstate]
    rcases dropOldest_eq host r now m with ⟨hfree, -⟩ | ⟨-, oldest, entries, hswept, hdrop⟩
    · exact Bool.noConfusion (hroom.symm.trans hfree)
    · rw [hdrop]
      exact sweep_erase_ne hswept
  · exact Bool.noConfusion (hover.symm.trans hwithin)

/-- A refused chunk leaves the unexpired entries alone, unless its own offset and
length are wrong and its new key has already cost a full reassembler an entry. -/
theorem refused_keeps_iff (host : Host) (r : Reassembler) (now : Int) (m : ChunkMessage) :
    (Refused host r now m → KeepsUnexpired host r now m) ↔
      ¬ (fits r m = true ∧ overruns m = true ∧ needsRoom host r now m = true) := by
  constructor
  · rintro h ⟨hfits, hover, hroom⟩
    obtain ⟨hrefused, hlost⟩ := evicts hfits hover hroom
    exact hlost (h hrefused)
  · intro hnot hrefused
    unfold Refused at hrefused
    unfold KeepsUnexpired
    rcases push_cases host r now m with ⟨-, hstate, -⟩ | ⟨hfits, hover, hstate, -⟩ | ⟨-, -, -, hkept⟩
    · rw [hstate]
    · rw [hstate]
      rcases dropOldest_eq host r now m with ⟨-, hdrop⟩ | ⟨hroom, -⟩
      · rw [hdrop, sweep_sweep]
      · exact absurd ⟨hfits, hover, hroom⟩ hnot
    · rw [hkept] at hrefused
      cases hrefused

/-- Reassemblies in flight under the keys `0|1|0` and so on. -/
def inFlight (count : Nat) : InsertionMap JsString Entry :=
  (List.range count).map fun i => (decimal i ++ js "|1|0", ⟨10, [(0, [1])], 30000⟩)

/-- A chunk of twenty bytes that claims to be part of ten. -/
def overrunning : ChunkMessage :=
  .of { publisherId := JsValue.nat 5, groupHeader := some { writerGroupId := JsValue.nat 2 } }
    ⟨7, 0, 10, List.replicate 20 0⟩

/-- A thousand unexpired reassemblies under other keys leave no room. -/
theorem needsRoom_inFlight : needsRoom Host.inert ⟨1000, inFlight 1000⟩ 0 overrunning = true := by
  have hswept : sweep 0 (inFlight 1000) = inFlight 1000 := by
    apply List.filter_eq_self.mpr
    intro e he
    obtain ⟨i, -, rfl⟩ := List.mem_map.mp he
    rfl
  have hkey : chunkKey Host.inert overrunning = js "5|2|7" := by decide
  have hnew : liveEntry Host.inert ⟨1000, inFlight 1000⟩ 0 overrunning = none := by
    rw [liveEntry, hswept, hkey]
    apply InsertionMap.get?_eq_none_iff.mpr
    intro hmem
    obtain ⟨e, he, hekey⟩ := List.mem_map.mp hmem
    obtain ⟨i, -, rfl⟩ := List.mem_map.mp he
    -- the keys in flight end in a sequence number 0
    have hlast := congrArg List.getLast? hekey
    have hzero : (js "|1|0").getLast? = some 48 := by decide
    rw [List.getLast?_append, hzero, Option.some_or] at hlast
    exact absurd hlast (by decide)
  rw [needsRoom, hnew, hswept, inFlight, List.length_map, List.length_range]
  rfl

/-- The oldest of a thousand reassemblies is lost to a chunk that is refused. -/
theorem refused_chunk_evicts : ¬ ∀ (host : Host) (r : Reassembler) (now : Int) (m : ChunkMessage),
    Refused host r now m → KeepsUnexpired host r now m := by
  intro h
  have hfits : fits ⟨1000, inFlight 1000⟩ overrunning = true := decide_eq_true (by decide)
  obtain ⟨hrefused, hlost⟩ := evicts hfits (by decide) needsRoom_inFlight
  exact hlost (h _ _ _ _ hrefused)

end OpcUaSuite.Uadp
