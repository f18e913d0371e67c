import OpcUaSuite.Lib.InsertionMap
import Mathlib.Data.List.Sort
import Mathlib.Data.List.Perm.Subperm
import Mathlib.Algebra.BigOperators.Group.List.Basic
import Mathlib.Algebra.Order.BigOperators.Group.List
import Mathlib.Algebra.Order.Group.Nat
import Mathlib.Algebra.GroupWithZero.Nat

/-!
# Contiguous tiles of a string

A string cut into consecutive non-empty tiles, each carrying its offset. A set
of tiles with distinct offsets is complete as soon as its lengths add up to the
whole; sorting it by offset then gives the string back.
-/

namespace Tiling

variable {α : Type}

abbrev Tile (α : Type) := Nat × List α

/-- The tiles spell the string from an offset on, without gap or overlap. -/
def Tiles : Nat → List (Tile α) → List α → Prop
  | _, [], s => s = []
  | o, (p, d) :: ts, s => p = o ∧ d ≠ [] ∧ ∃ rest, s = d ++ rest ∧ Tiles (o + d.length) ts rest

def weight (ts : List (Tile α)) : Nat := (ts.map fun t => t.2.length).sum

/-- Sorted by offset. -/
def sorted (ts : List (Tile α)) : List (Tile α) := ts.insertionSort fun a b => a.1 ≤ b.1

/-- The end of the tiles that follow each other from a cursor on; none when one
does not start where the previous ended. -/
def scan : Nat → List (Tile α) → Option Nat
  | cursor, [] => some cursor
  | cursor, (o, d) :: ts => if o ≠ cursor then none else scan (cursor + d.length) ts

/-- The contents in the given order. -/
def concat (ts : List (Tile α)) : List α := (ts.map Prod.snd).flatten

theorem length_of_scan {ts : List (Tile α)} {o e : Nat} (h : scan o ts = some e) :
    o + (concat ts).length = e := by
  induction ts generalizing o with
  | nil =>
      cases h
      rfl
  | cons t ts ih =>
      obtain ⟨p, d⟩ := t
      simp only [scan] at h
      split at h
      · cases h
      · have hrest := ih h
        simp only [concat] at hrest
        simp only [concat, List.map_cons, List.flatten_cons, List.length_append]
        omega

theorem le_of_scan {ts : List (Tile α)} {o e : Nat} (h : scan o ts = some e) {t : Tile α}
    (ht : t ∈ ts) : o ≤ t.1 := by
  induction ts generalizing o with
  | nil => cases ht
  | cons u ts ih =>
      obtain ⟨p, d⟩ := u
      simp only [scan] at h
      split at h
      · cases h
      next hp =>
        rcases List.mem_cons.mp ht with rfl | ht
        · exact (not_not.mp hp).ge
        · have hrest := ih h ht
          omega

/-- Tiles that follow each other cover no position twice. -/
theorem offset_eq_of_scan {ts : List (Tile α)} {o e i : Nat} (h : scan o ts = some e)
    {t u : Tile α} (ht : t ∈ ts) (hu : u ∈ ts) (hti : t.1 ≤ i ∧ i < t.1 + t.2.length)
    (hui : u.1 ≤ i ∧ i < u.1 + u.2.length) : t.1 = u.1 := by
  induction ts generalizing o with
  | nil => cases ht
  | cons v ts ih =>
      obtain ⟨p, d⟩ := v
      simp only [scan] at h
      split at h
      · cases h
      next hp =>
        have hpo := not_not.mp hp
        rcases List.mem_cons.mp ht with rfl | ht <;> rcases List.mem_cons.mp hu with rfl | hu
        · rfl
        · have hle := le_of_scan h hu
          dsimp only at hti
          omega
        · have hle := le_of_scan h ht
          dsimp only at hui
          omega
        · exact ih h ht hu

/-- Every element of the contents comes from the tile that covers its position. -/
theorem exists_tile_of_scan {ts : List (Tile α)} {o e i : Nat} (h : scan o ts = some e)
    (hi : i < (concat ts).length) :
    ∃ t ∈ ts, t.1 ≤ o + i ∧ o + i < t.1 + t.2.length ∧
      (concat ts)[i]? = t.2[o + i - t.1]? := by
  induction ts generalizing o i with
  | nil => exact absurd hi (Nat.not_lt_zero i)
  | cons t ts ih =>
      obtain ⟨p, d⟩ := t
      simp only [scan] at h
      split at h
      · cases h
      next hp =>
        have hpo := not_not.mp hp
        have hcons : concat ((p, d) :: ts) = d ++ concat ts := rfl
        rw [hcons, List.length_append] at hi
        rw [hcons]
        by_cases hd : i < d.length
        · refine ⟨(p, d), List.mem_cons_self, by dsimp only; omega, by dsimp only; omega, ?_⟩
          rw [List.getElem?_append_left hd, ← hpo, Nat.add_sub_cancel_left]
        · obtain ⟨u, hu, hlo, hhi, hget⟩ := @ih (o + d.length) (i - d.length) h (by omega)
          have hpos : o + d.length + (i - d.length) = o + i := by omega
          rw [hpos] at hlo hhi hget
          refine ⟨u, List.mem_cons_of_mem _ hu, hlo, hhi, ?_⟩
          rw [List.getElem?_append_right (by omega)]
          exact hget

/-- Cutting a string into tiles of at most `size` elements. -/
def cut (size : Nat) : Nat → Nat → List α → List (Tile α)
  | 0, _, _ => []
  | _ + 1, _, [] => []
  | fuel + 1, o, s => (o, s.take size) :: cut size fuel (o + min size s.length) (s.drop size)

theorem tiles_cut {size : Nat} (hsize : 0 < size) {fuel o : Nat} {s : List α}
    (hfuel : s.length ≤ fuel) : Tiles o (cut size fuel o s) s := by
  induction fuel generalizing o s with
  | zero => exact List.length_eq_zero_iff.mp (by omega)
  | succ fuel ih =>
      cases s with
      | nil => rfl
      | cons a s =>
          refine ⟨rfl, ?_, (a :: s).drop size, (List.take_append_drop size _).symm, ?_⟩
          · simp [hsize.ne']
          · rw [List.length_take]
            refine ih ?_
            simp only [List.length_drop, List.length_cons] at hfuel ⊢
            omega

theorem length_of_mem_cut {size fuel o : Nat} {s : List α} {t : Tile α}
    (h : t ∈ cut size fuel o s) : t.2.length ≤ size := by
  induction fuel generalizing o s with
  | zero => cases h
  | succ fuel ih =>
      cases s with
      | nil => cases h
      | cons a s =>
          rcases List.mem_cons.mp h with rfl | h
          · simp
          · exact ih h

namespace Tiles

variable {o : Nat} {ts : List (Tile α)} {s : List α}

theorem concat_eq (h : Tiles o ts s) : concat ts = s := by
  induction ts generalizing o s with
  | nil => exact h.symm
  | cons t ts ih =>
      obtain ⟨-, -, rest, rfl, hrest⟩ := h
      have htail := ih hrest
      simp only [concat] at htail
      simp only [concat, List.map_cons, List.flatten_cons, htail]

theorem weight_eq (h : Tiles o ts s) : weight ts = s.length := by
  induction ts generalizing o s with
  | nil =>
      cases h
      rfl
  | cons t ts ih =>
      obtain ⟨-, -, rest, rfl, hrest⟩ := h
      have htail := ih hrest
      simp only [weight] at htail
      simp only [weight, List.map_cons, List.sum_cons, htail, List.length_append]

theorem scan_eq (h : Tiles o ts s) : scan o ts = some (o + s.length) := by
  induction ts generalizing o s with
  | nil =>
      cases h
      rfl
  | cons t ts ih =>
      obtain ⟨hp, -, rest, rfl, hrest⟩ := h
      rw [scan, if_neg (not_not.mpr hp), ih hrest, List.length_append, Nat.add_assoc]

theorem le_offset (h : Tiles o ts s) {t : Tile α} (ht : t ∈ ts) : o ≤ t.1 := by
  induction ts generalizing o s with
  | nil => cases ht
  | cons u ts ih =>
      obtain ⟨hp, -, rest, -, hrest⟩ := h
      rcases List.mem_cons.mp ht with rfl | ht
      · exact hp.ge
      · have := ih hrest ht
        omega

/-- Every tile stays inside the string. -/
theorem end_le (h : Tiles o ts s) {t : Tile α} (ht : t ∈ ts) :
    t.1 + t.2.length ≤ o + s.length := by
  induction ts generalizing o s with
  | nil => cases ht
  | cons u ts ih =>
      obtain ⟨hp, -, rest, rfl, hrest⟩ := h
      rw [List.length_append]
      rcases List.mem_cons.mp ht with rfl | ht
      · simp only [hp]
        omega
      · have := ih hrest ht
        omega

theorem ne_nil_of_mem (h : Tiles o ts s) {t : Tile α} (ht : t ∈ ts) : t.2 ≠ [] := by
  induction ts generalizing o s with
  | nil => cases ht
  | cons u ts ih =>
      obtain ⟨-, hd, rest, -, hrest⟩ := h
      rcases List.mem_cons.mp ht with rfl | ht
      · exact hd
      · exact ih hrest ht

theorem pairwise_lt (h : Tiles o ts s) : ts.Pairwise fun a b => a.1 < b.1 := by
  induction ts generalizing o s with
  | nil => exact List.Pairwise.nil
  | cons u ts ih =>
      obtain ⟨hp, hd, rest, -, hrest⟩ := h
      refine List.Pairwise.cons ?_ (ih hrest)
      intro t ht
      have hle := le_offset hrest ht
      have hpos := List.length_pos_iff.mpr hd
      omega

theorem nodup_offsets (h : Tiles o ts s) : (ts.map Prod.fst).Nodup :=
  List.pairwise_map.mpr (h.pairwise_lt.imp fun hab => hab.ne)

variable {parts : List (Tile α)}

theorem nodup_of_offsets (h : (parts.map Prod.fst).Nodup) : parts.Nodup := List.Nodup.of_map _ h

theorem weight_le_of_subperm {l m : List (Tile α)} (h : List.Subperm l m) : weight l ≤ weight m := by
  obtain ⟨l', hperm, hsub⟩ := h
  have hl : weight l' = weight l := (hperm.map fun t : Tile α => t.2.length).sum_eq
  have hle : weight l' ≤ weight m :=
    (hsub.map fun t : Tile α => t.2.length).sum_le_sum (by simp)
  omega

/-- Tiles collected without repetition weigh as much as the string exactly when
none is missing. -/
theorem weight_lt_of_missing (h : Tiles o ts s) (hsub : parts ⊆ ts)
    (hnodup : (parts.map Prod.fst).Nodup) {t : Tile α} (ht : t ∈ ts) (hmissing : t ∉ parts) :
    weight parts < s.length := by
  have hcons : List.Subperm (t :: parts) ts := by
    refine List.subperm_of_subset ?_ (List.cons_subset.mpr ⟨ht, hsub⟩)
    exact List.nodup_cons.mpr ⟨hmissing, nodup_of_offsets hnodup⟩
  have hle := weight_le_of_subperm hcons
  have hpos := List.length_pos_iff.mpr (h.ne_nil_of_mem ht)
  rw [h.weight_eq] at hle
  simp only [weight, List.map_cons, List.sum_cons] at hle ⊢
  omega

/-- A complete collection, sorted, is the list of tiles. -/
theorem sorted_eq (h : Tiles o ts s) (hsub : parts ⊆ ts) (hall : ts ⊆ parts)
    (hnodup : (parts.map Prod.fst).Nodup) : sorted parts = ts := by
  have hperm : (sorted parts).Perm ts := by
    have hts : ts.Nodup := nodup_of_offsets h.nodup_offsets
    have hparts : parts.Perm ts :=
      (List.subperm_of_subset (nodup_of_offsets hnodup) hsub).antisymm
        (List.subperm_of_subset hts hall)
    exact (List.perm_insertionSort _ parts).trans hparts
  have hsorted : (sorted parts).Pairwise fun a b => a.1 ≤ b.1 :=
    @List.pairwise_insertionSort _ (fun a b : Tile α => a.1 ≤ b.1) _
      ⟨fun a b => le_total a.1 b.1⟩ ⟨fun a b c => le_trans⟩ parts
  refine List.Perm.eq_of_pairwise ?_ hsorted (h.pairwise_lt.imp le_of_lt) hperm
  intro a b ha hb hab hba
  exact List.inj_on_of_nodup_map h.nodup_offsets (hperm.mem_iff.mp ha) hb (le_antisymm hab hba)

/-- Recording a tile by its offset adds it, unless it is there already. -/
theorem set_eq [DecidableEq α] (h : Tiles o ts s) (hsub : parts ⊆ ts)
    (hnodup : (parts.map Prod.fst).Nodup) {t : Tile α} (ht : t ∈ ts) :
    InsertionMap.set t.1 t.2 parts = if t ∈ parts then parts else parts ++ [t] := by
  split
  next hmem => exact InsertionMap.set_of_get? (InsertionMap.get?_of_mem hnodup hmem)
  next hmem =>
    refine InsertionMap.set_of_not_mem fun hkey => hmem ?_
    obtain ⟨u, hu, heq⟩ := List.mem_map.mp hkey
    exact List.inj_on_of_nodup_map h.nodup_offsets (hsub hu) ht heq ▸ hu

end Tiles

end Tiling
