import OpcUaSuite.Lib.InsertionMap
import Mathlib.Data.List.Nodup

/-!
# Files and directories

A tree of files is the map from places to entries; a place is the list of names on
the way from the root. There are no links, so two places are two entries.
-/

/-- A file with what it holds, or a directory. -/
inductive FileTree.Entry (β : Type)
  | file (content : β)
  | directory
deriving DecidableEq

abbrev FileTree (ν β : Type) := InsertionMap (List ν) (FileTree.Entry β)

namespace FileTree

inductive Errno
  | notFound
  | notDirectory
  | isDirectory
deriving DecidableEq

variable {ν β : Type} [DecidableEq ν]

/-- The root is a directory. -/
def entry (t : FileTree ν β) (place : List ν) : Option (Entry β) :=
  if place = [] then some .directory else InsertionMap.get? place t

/-- A file is written as a whole, new or in place of the old one. -/
def writeFile (place : List ν) (content : β) (t : FileTree ν β) : Except Errno (FileTree ν β) :=
  match entry t place with
  | some .directory => .error .isDirectory
  | _ =>
      match entry t place.dropLast with
      | some .directory => .ok (InsertionMap.set place (.file content) t)
      | some (.file _) => .error .notDirectory
      | none => .error .notFound

def removeFile (place : List ν) (t : FileTree ν β) : Except Errno (FileTree ν β) :=
  match entry t place with
  | some (.file _) => .ok (InsertionMap.erase place t)
  | some .directory => .error .isDirectory
  | none => .error .notFound

/-- Make the directories on the way; a file in the way ends it. -/
def makeDirectories (base : List ν) : List ν → FileTree ν β → FileTree ν β
  | [], t => t
  | name :: rest, t =>
      match entry t (base ++ [name]) with
      | none => makeDirectories (base ++ [name]) rest (InsertionMap.set (base ++ [name]) .directory t)
      | some .directory => makeDirectories (base ++ [name]) rest t
      | some (.file _) => t

/-- The names in a directory. -/
def names (dir : List ν) (t : FileTree ν β) : List ν :=
  (InsertionMap.keys t).filterMap fun place => if place.dropLast = dir then place.getLast? else none

/-- No file is on the way from the base to the place. -/
def Clear (t : FileTree ν β) (base rest : List ν) : Prop :=
  ∀ way content, way <+: rest → way ≠ [] → entry t (base ++ way) ≠ some (.file content)

theorem entry_set_self {place : List ν} (h : place ≠ []) (x : Entry β) (t : FileTree ν β) :
    entry (InsertionMap.set place x t) place = some x := by
  rw [entry, if_neg h, InsertionMap.get?_set_self]

theorem entry_set_of_ne {place other : List ν} (h : other ≠ place) (x : Entry β)
    (t : FileTree ν β) : entry (InsertionMap.set place x t) other = entry t other := by
  unfold entry
  rw [InsertionMap.get?_set_of_ne h]

theorem entry_erase_self {place : List ν} (h : place ≠ []) (t : FileTree ν β) :
    entry (InsertionMap.erase place t) place = none := by
  rw [entry, if_neg h, InsertionMap.get?_erase_self]

theorem entry_erase_of_ne {place other : List ν} (h : other ≠ place) (t : FileTree ν β) :
    entry (InsertionMap.erase place t) other = entry t other := by
  unfold entry
  rw [InsertionMap.get?_erase_of_ne h]

/-- What writing a file can do. -/
theorem writeFile_ok {place : List ν} {content : β} {t t' : FileTree ν β}
    (h : writeFile place content t = .ok t') :
    entry t place ≠ some .directory ∧ t' = InsertionMap.set place (.file content) t := by
  unfold writeFile at h
  split at h
  next => cases h
  next hentry =>
    split at h
    next =>
      cases h
      exact ⟨hentry, rfl⟩
    next => cases h
    next => cases h

theorem removeFile_ok {place : List ν} {t t' : FileTree ν β} (h : removeFile place t = .ok t') :
    (∃ content, entry t place = some (.file content)) ∧ t' = InsertionMap.erase place t := by
  unfold removeFile at h
  split at h
  next content hentry =>
    cases h
    exact ⟨⟨content, hentry⟩, rfl⟩
  next => cases h
  next => cases h

theorem writeFile_of_directory {dir : List ν} {name : ν} {t : FileTree ν β}
    (hdir : entry t dir = some .directory) (h : entry t (dir ++ [name]) ≠ some .directory)
    (content : β) :
    writeFile (dir ++ [name]) content t = .ok (InsertionMap.set (dir ++ [name]) (.file content) t) := by
  unfold writeFile
  split
  next hentry => exact absurd hentry h
  next => rw [List.dropLast_concat, hdir]

theorem removeFile_of_file {place : List ν} {content : β} {t : FileTree ν β}
    (h : entry t place = some (.file content)) :
    removeFile place t = .ok (InsertionMap.erase place t) := by
  unfold removeFile
  rw [h]

theorem entry_concat (t : FileTree ν β) (dir : List ν) (name : ν) :
    entry t (dir ++ [name]) = InsertionMap.get? (dir ++ [name]) t :=
  if_neg (List.append_ne_nil_of_right_ne_nil dir (List.cons_ne_nil name []))

theorem eq_concat_of_last {dir place : List ν} {name : ν}
    (h : (if place.dropLast = dir then place.getLast? else none) = some name) :
    place = dir ++ [name] := by
  split at h
  next hdir =>
    have hne : place ≠ [] := by
      rintro rfl
      cases h
    rw [List.getLast?_eq_some_getLast hne, Option.some.injEq] at h
    rw [← hdir, ← h, List.dropLast_concat_getLast hne]
  next => cases h

theorem mem_names {dir : List ν} {name : ν} {t : FileTree ν β} :
    name ∈ names dir t ↔ entry t (dir ++ [name]) ≠ none := by
  rw [entry_concat, ← Option.isSome_iff_ne_none, InsertionMap.get?_isSome_iff, names,
    List.mem_filterMap]
  constructor
  · rintro ⟨place, hplace, hname⟩
    exact eq_concat_of_last hname ▸ hplace
  · intro h
    refine ⟨dir ++ [name], h, ?_⟩
    rw [List.dropLast_concat, if_pos rfl, List.getLast?_concat]

theorem nodup_names {t : FileTree ν β} (h : (InsertionMap.keys t).Nodup) (dir : List ν) :
    (names dir t).Nodup := by
  refine h.filterMap ?_
  intro place place' name hname hname'
  exact (eq_concat_of_last hname).trans (eq_concat_of_last hname').symm

theorem entry_makeDirectories {base rest : List ν} {t : FileTree ν β} (h : Clear t base rest)
    (hbase : entry t base = some .directory) :
    entry (makeDirectories base rest t) (base ++ rest) = some .directory := by
  induction rest generalizing base t with
  | nil => rwa [List.append_nil]
  | cons name rest ih =>
      have hsplit : base ++ name :: rest = (base ++ [name]) ++ rest := by simp
      have hnext : ∀ way, base ++ [name] ++ way = base ++ name :: way := fun way => by simp
      unfold makeDirectories
      rw [hsplit]
      split
      next hnone =>
        refine ih ?_ ?_
        · intro way content hway hne
          rw [entry_set_of_ne, hnext]
          · exact h (name :: way) content (List.cons_prefix_cons.mpr ⟨rfl, hway⟩) (List.cons_ne_nil _ _)
          · intro heq
            exact hne (List.append_right_eq_self.mp heq)
        · exact entry_set_self (List.append_ne_nil_of_right_ne_nil base (List.cons_ne_nil name [])) _ _
      next hdirectory =>
        refine ih ?_ hdirectory
        intro way content hway _
        rw [hnext]
        exact h (name :: way) content (List.cons_prefix_cons.mpr ⟨rfl, hway⟩) (List.cons_ne_nil _ _)
      next content hfile =>
        exact absurd hfile (h [name] content (List.cons_prefix_cons.mpr ⟨rfl, List.nil_prefix⟩)
          (List.cons_ne_nil _ _))

/-- Only the places on the way are new. -/
theorem entry_makeDirectories_of_not_prefix {base rest : List ν} {t : FileTree ν β}
    {place : List ν} (h : ¬place <+: base ++ rest) :
    entry (makeDirectories base rest t) place = entry t place := by
  induction rest generalizing base t with
  | nil => rfl
  | cons name rest ih =>
      have hsplit : base ++ name :: rest = (base ++ [name]) ++ rest := by simp
      rw [hsplit] at h
      unfold makeDirectories
      split
      next =>
        have hne : place ≠ base ++ [name] := by
          rintro rfl
          exact h (List.prefix_append _ rest)
        rw [ih h, entry_set_of_ne hne]
      next => exact ih h
      next => rfl

theorem nodup_makeDirectories {base rest : List ν} {t : FileTree ν β}
    (h : (InsertionMap.keys t).Nodup) :
    (InsertionMap.keys (makeDirectories base rest t)).Nodup := by
  induction rest generalizing base t with
  | nil => exact h
  | cons name rest ih =>
      unfold makeDirectories
      split
      next => exact ih (InsertionMap.nodup_set h)
      next => exact ih h
      next => exact h

end FileTree
