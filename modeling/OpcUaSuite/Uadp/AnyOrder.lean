import OpcUaSuite.Uadp.Gathering

/-!
# The frames of a message in any order

An empty reassembler that is given the chunks of one message, each once, returns
the message with the last of them, whatever their order. A message longer than
the reassembler allows is never returned.
-/

namespace OpcUaSuite.Uadp

open Js ByteCodec PubSub Tiling

/-- The frames of an encoded message. -/
def Encoded.frames : Encoded → List Bytes
  | .single buffer => [buffer]
  | .chunks buffers => buffers

variable {host : Host} {key : JsString} {ms : List ChunkMessage} {whole : Bytes}

/-- What a sequence of calls returns, with the times of the calls. -/
def returned (host : Host) : Reassembler → List Push → List (Int × Bytes)
  | _, [] => []
  | r, p :: pushes =>
      let pushed := push host r p.time p.message
      (pushed.output.map fun bs => (p.time, bs)).toList ++ returned host pushed.state pushes

theorem after_cons (r : Reassembler) (p : Push) (pushes : List Push) :
    after host r (p :: pushes) = after host (push host r p.time p.message).state pushes := rfl

theorem returned_append (r : Reassembler) (pushes pushes' : List Push) :
    returned host r (pushes ++ pushes') =
      returned host r pushes ++ returned host (after host r pushes) pushes' := by
  induction pushes generalizing r with
  | nil => rfl
  | cons p pushes ih => rw [List.cons_append, returned, returned, ih, List.append_assoc, after_cons]

/-- Chunks that are too long for the reassembler leave no trace. -/
theorem returned_of_not_fits {r : Reassembler} {pushes : List Push}
    (h : ∀ p ∈ pushes, fits r p.message = false) : returned host r pushes = [] := by
  induction pushes with
  | nil => rfl
  | cons p pushes ih =>
      obtain ⟨hstate, hnone⟩ := @push_of_not_fits host r p.time p.message (h p List.mem_cons_self)
      have hrest := ih fun q hq => h q (List.mem_cons_of_mem p hq)
      simp [returned, hstate, hnone, hrest]

/-- Calls for one key fill one entry. -/
theorem length_after_own {r : Reassembler} {pushes : List Push}
    (hempty : r.entries = []) (hown : ∀ p ∈ pushes, chunkKey host p.message = key) :
    (after host r pushes).entries.length ≤ 1 := by
  have hinv : (InsertionMap.keys (after host r pushes).entries).Nodup ∧
      ∀ other, other ≠ key → InsertionMap.get? other (after host r pushes).entries = none := by
    induction pushes using List.reverseRecOn with
    | nil =>
        change (InsertionMap.keys r.entries).Nodup ∧ ∀ other, _ → InsertionMap.get? other r.entries = _
        rw [hempty]
        exact ⟨List.nodup_nil, fun _ _ => rfl⟩
    | append_singleton pushes p ih =>
        obtain ⟨hnodup, hnone⟩ := ih fun q hq => hown q (List.mem_append_left _ hq)
        have hstep : after host r (pushes ++ [p]) =
            (push host (after host r pushes) p.time p.message).state := by
          simp [after, step]
        rw [hstep]
        refine ⟨nodup_push _ _ hnodup, fun other hother => ?_⟩
        have hkey := hown p (List.mem_append_right _ List.mem_cons_self)
        cases hget : InsertionMap.get? other
            (push host (after host r pushes) p.time p.message).state.entries with
        | none => rfl
        | some entry =>
            have hold := get?_push_other hnodup (hkey ▸ hother) hget
            rw [hnone other hother] at hold
            cases hold
  obtain ⟨hnodup, hnone⟩ := hinv
  have hkeys : ∀ k ∈ InsertionMap.keys (after host r pushes).entries, k = key := by
    intro k hk
    by_contra hne
    exact (InsertionMap.get?_eq_none_iff.mp (hnone k hne)) hk
  have hlength := List.eq_replicate_of_mem hkeys
  rw [hlength, List.nodup_replicate] at hnodup
  simpa [InsertionMap.keys] using hnodup

/-- No reassembler that is given one message only is ever full. -/
theorem Interleaving.of_empty {t0 : Int} {r : Reassembler} {pushes : List Push}
    (hempty : r.entries = []) (hms : ChunksOf host key ms whole)
    (hown : ∀ p ∈ pushes, p.message ∈ ms)
    (hwindow : ∀ p ∈ pushes, t0 ≤ p.time ∧ p.time ≤ t0 + reassemblyExpiryMs) :
    Interleaving host key ms t0 r pushes where
  foreign p hp := Or.inl (hown p hp)
  window := hwindow
  inFlight k _ := by
    have hle := @length_after_own host key r (pushes.take k) hempty fun p hp =>
      hms.key _ (hown p (List.mem_of_mem_take hp))
    simp only [maxInflightReassemblies]
    omega

theorem ChunksOf.nodup (h : ChunksOf host key ms whole) : ms.Nodup := by
  have hoffsets := h.tiles.nodup_offsets
  rw [List.map_map] at hoffsets
  exact hoffsets.of_map

/-- Fewer chunks than there are do not cover the message. -/
theorem not_covers_of_length_lt {seen : List ChunkMessage} (hms : ChunksOf host key ms whole)
    (hlt : seen.length < ms.length) : ¬ Covers ms seen := by
  intro hall
  have hle := (List.subperm_of_subset hms.nodup hall).length_le
  omega

/-- While a chunk is missing nothing is returned. -/
theorem returned_of_missing {t0 : Int} {r : Reassembler} {pushes : List Push}
    (hms : ChunksOf host key ms whole) (hcap : whole.length ≤ r.maxTotalSize)
    (hempty : r.entries = []) (h : Interleaving host key ms t0 r pushes)
    (hown : ∀ p ∈ pushes, p.message ∈ ms) (hlt : pushes.length < ms.length) :
    returned host r pushes = [] := by
  induction pushes using List.reverseRecOn with
  | nil => rfl
  | append_singleton pushes p ih =>
      have hpre : pushes.length < ms.length := by
        rw [List.length_append] at hlt
        omega
      have hnew : InsertionMap.get? key r.entries = none := by
        rw [hempty]
        rfl
      have hout := (push_chunk hms hcap hnew h
        (not_covers_of_length_lt hms (by rwa [List.length_map]))
        (hown p (List.mem_append_right _ List.mem_cons_self))).1
      rw [if_neg (not_covers_of_length_lt hms (by rwa [List.length_map]))] at hout
      rw [returned_append, ih h.init (fun q hq => hown q (List.mem_append_left _ hq)) hpre]
      simp [returned, hout]

/-- The chunks of a message, each once and in any order, give the message back
with the last of them. -/
theorem returned_any_order {t0 : Int} {r : Reassembler} {pushes : List Push}
    (hms : ChunksOf host key ms whole) (hwhole : whole ≠ []) (hempty : r.entries = [])
    (hperm : (pushes.map Push.message).Perm ms)
    (hwindow : ∀ p ∈ pushes, t0 ≤ p.time ∧ p.time ≤ t0 + reassemblyExpiryMs) :
    ∃ t, returned host r pushes = if whole.length ≤ r.maxTotalSize then [(t, whole)] else [] := by
  have hown : ∀ p ∈ pushes, p.message ∈ ms := fun p hp =>
    hperm.subset (List.mem_map_of_mem (f := Push.message) hp)
  by_cases hcap : whole.length ≤ r.maxTotalSize
  · have hne : pushes ≠ [] := by
      rintro rfl
      obtain rfl := hperm.symm.eq_nil
      exact hwhole hms.tiles
    obtain ⟨pre, p, rfl⟩ := (List.eq_nil_or_concat' pushes).resolve_left hne
    have hinter := Interleaving.of_empty hempty hms hown hwindow
    have hlength : pre.length + 1 = ms.length := by
      have := hperm.length_eq
      simpa using this
    have hownPre : ∀ q ∈ pre, q.message ∈ ms := fun q hq => hown q (List.mem_append_left _ hq)
    have hnew : InsertionMap.get? key r.entries = none := by
      rw [hempty]
      rfl
    have hout := (push_chunk hms hcap hnew hinter
      (not_covers_of_length_lt hms (by rw [List.length_map]; omega))
      (hown p (List.mem_append_right _ List.mem_cons_self))).1
    have hall : Covers ms ((pre ++ [p]).map Push.message) := fun m hm => hperm.symm.subset hm
    rw [if_pos hall] at hout
    refine ⟨p.time, ?_⟩
    rw [if_pos hcap, returned_append,
      returned_of_missing hms hcap hempty hinter.init hownPre (by omega)]
    simp [returned, hout]
  · refine ⟨0, ?_⟩
    rw [if_neg hcap]
    refine returned_of_not_fits fun p hp => ?_
    rw [fits, hms.totalSize _ (hown p hp)]
    exact decide_eq_false hcap

end OpcUaSuite.Uadp
