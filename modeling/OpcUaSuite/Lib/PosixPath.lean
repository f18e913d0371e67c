import Mathlib.Data.List.Basic

/-!
# Path texts

A path is a text of components between separators. Its location is what is left
when the empty components, the dot and the double dots are resolved; two texts
with one location name one file where there are no links.
-/

namespace PosixPath

/-- The separator of the components, and the dot that the two names every directory
has are made of. -/
structure Alphabet (α : Type*) where
  sep : α
  dot : α
  dot_ne_sep : dot ≠ sep

namespace Alphabet

variable {α : Type*} (A : Alphabet α)

def here : List α := [A.dot]

def parent : List α := [A.dot, A.dot]

/-- A component that names an entry of its directory. -/
structure IsName (c : List α) : Prop where
  ne_nil : c ≠ []
  ne_here : c ≠ A.here
  ne_parent : c ≠ A.parent
  sep_free : A.sep ∉ c

end Alphabet

variable {α : Type*} [DecidableEq α] (A : Alphabet α)

def isAbsolute (p : List α) : Bool := decide (p.head? = some A.sep)

/-- The next component; `st` holds the earlier ones, the last one first. Nothing is
above the root of an absolute path. -/
def push (absolute : Bool) (st : List (List α)) (c : List α) : List (List α) :=
  if c = [] ∨ c = A.here then st
  else if c = A.parent then
    match st with
    | [] => if absolute then [] else [A.parent]
    | top :: rest => if top = A.parent then if absolute then st else A.parent :: st else rest
  else c :: st

/-- What the components leave, the last one first. -/
def resolve (absolute : Bool) (cs : List (List α)) : List (List α) := cs.foldl (push A absolute) []

/-- Where a path leads: whether it starts at the root, and the names on the way. -/
abbrev Location (α : Type*) := Bool × List (List α)

def location (p : List α) : Location α :=
  (isAbsolute A p, (resolve A (isAbsolute A p) (p.splitOn A.sep)).reverse)

def Location.child {α : Type*} (l : Location α) (name : List α) : Location α := (l.1, l.2 ++ [name])

/-- The text of a location, with a separator at its end when one is asked for. -/
def textOf (l : Location α) (trailing : Bool) : List α :=
  if l.2 = [] then
    if l.1 then [A.sep] else if trailing then A.here ++ [A.sep] else A.here
  else (if l.1 then [A.sep] else []) ++ [A.sep].intercalate l.2 ++ (if trailing then [A.sep] else [])

def normalize (p : List α) : List α :=
  if p = [] then A.here else textOf A (location A p) (decide (p.getLast? = some A.sep))

/-- The empty texts are left out. -/
def join (ps : List (List α)) : List α :=
  match ps.filter (· ≠ []) with
  | [] => A.here
  | parts => normalize A ([A.sep].intercalate parts)

/-- The names from the root down to where a path leads from a working directory. -/
def place (cwd : List (List α)) (p : List α) : List (List α) :=
  if (location A p).1 then (location A p).2
  else (resolve A true (cwd ++ (location A p).2)).reverse

/-- The last component that is not empty. -/
def basename (p : List α) : List α := ((p.splitOn A.sep).filter (· ≠ [])).getLastD []

/-! ## Resolved components -/

/-- Names, below double dots where the path is relative. -/
structure Resolved (absolute : Bool) (st : List (List α)) : Prop where
  split : ∃ names k, st = names ++ List.replicate k A.parent ∧ (∀ c ∈ names, A.IsName c) ∧
    (absolute = true → k = 0)

variable {A}

omit [DecidableEq α] in
theorem parent_sep_free : A.sep ∉ A.parent := by
  intro h
  rcases List.mem_cons.mp h with h | h
  · exact A.dot_ne_sep h.symm
  · exact A.dot_ne_sep (List.mem_singleton.mp h).symm

theorem push_name {absolute : Bool} {st : List (List α)} {c : List α} (h : A.IsName c) :
    push A absolute st c = c :: st := by
  unfold push
  rw [if_neg (not_or.mpr ⟨h.ne_nil, h.ne_here⟩), if_neg h.ne_parent]

theorem push_nil (absolute : Bool) (st : List (List α)) : push A absolute st [] = st :=
  if_pos (Or.inl rfl)

theorem push_here (absolute : Bool) (st : List (List α)) : push A absolute st A.here = st :=
  if_pos (Or.inr rfl)

theorem Resolved.push {absolute : Bool} {st : List (List α)} (h : Resolved A absolute st)
    {c : List α} (hc : A.sep ∉ c) : Resolved A absolute (push A absolute st c) := by
  obtain ⟨names, k, rfl, hnames, habsolute⟩ := h.split
  unfold PosixPath.push
  split
  next => exact h
  next hplain =>
    obtain ⟨hnil, hhere⟩ := not_or.mp hplain
    split
    next hparent =>
      cases names with
      | nil =>
          cases k with
          | zero =>
              cases absolute with
              | true => exact ⟨[], 0, rfl, List.forall_mem_nil _, fun _ => rfl⟩
              | false => exact ⟨[], 1, rfl, List.forall_mem_nil _, Bool.false_ne_true.elim⟩
          | succ k =>
              cases absolute with
              | true => cases habsolute rfl
              | false =>
                  exact ⟨[], k + 2, by simp [List.replicate_succ], List.forall_mem_nil _,
                    Bool.false_ne_true.elim⟩
      | cons top names =>
          have htop := hnames top List.mem_cons_self
          change Resolved A absolute (if top = A.parent then _ else _)
          rw [if_neg htop.ne_parent]
          exact ⟨names, k, rfl, fun c hc => hnames c (List.mem_cons_of_mem top hc), habsolute⟩
    next hparent =>
      exact ⟨c :: names, k, rfl, List.forall_mem_cons.mpr ⟨⟨hnil, hhere, hparent, hc⟩, hnames⟩,
        habsolute⟩

theorem Resolved.foldl {absolute : Bool} {cs : List (List α)} (hcs : ∀ c ∈ cs, A.sep ∉ c)
    {st : List (List α)} (h : Resolved A absolute st) :
    Resolved A absolute (cs.foldl (PosixPath.push A absolute) st) := by
  induction cs generalizing st with
  | nil => exact h
  | cons c cs ih =>
      exact ih (fun d hd => hcs d (List.mem_cons_of_mem c hd)) (h.push (hcs c List.mem_cons_self))

theorem sep_not_mem_of_splitOn {p c : List α} (hc : c ∈ p.splitOn A.sep) : A.sep ∉ c := by
  induction p generalizing c with
  | nil =>
      rw [List.splitOn_nil, List.mem_singleton] at hc
      rw [hc]
      exact List.not_mem_nil
  | cons x p ih =>
      rw [List.splitOn_cons_eq_if_modifyHead] at hc
      split at hc
      next =>
        rcases List.mem_cons.mp hc with rfl | hc
        · exact List.not_mem_nil
        · exact ih hc
      next hx =>
        obtain ⟨first, rest, hsplit⟩ := List.exists_cons_of_ne_nil (List.splitOn_ne_nil A.sep p)
        rw [hsplit] at ih
        rw [hsplit, List.modifyHead_cons] at hc
        rcases List.mem_cons.mp hc with rfl | hc
        · intro hmem
          rcases List.mem_cons.mp hmem with heq | hmem
          · exact hx (beq_iff_eq.mpr heq.symm)
          · exact ih List.mem_cons_self hmem
        · exact ih (List.mem_cons_of_mem first hc)

theorem resolved_resolve (absolute : Bool) {cs : List (List α)} (hcs : ∀ c ∈ cs, A.sep ∉ c) :
    Resolved A absolute (resolve A absolute cs) :=
  Resolved.foldl hcs ⟨[], 0, rfl, List.forall_mem_nil _, fun _ => rfl⟩

theorem foldl_push_names {absolute : Bool} {names : List (List α)}
    (h : ∀ c ∈ names, A.IsName c) (st : List (List α)) :
    names.foldl (push A absolute) st = names.reverse ++ st := by
  induction names generalizing st with
  | nil => rfl
  | cons c names ih =>
      rw [List.foldl_cons, push_name (h c List.mem_cons_self),
        ih (fun d hd => h d (List.mem_cons_of_mem c hd)), List.reverse_cons, List.append_assoc]
      rfl

theorem resolve_parents (k : Nat) :
    resolve A false (List.replicate k A.parent) = List.replicate k A.parent := by
  induction k with
  | zero => rfl
  | succ k ih =>
      have hne : A.parent ≠ [] ∧ A.parent ≠ A.here := ⟨List.cons_ne_nil _ _, by simp [Alphabet.parent, Alphabet.here]⟩
      rw [List.replicate_succ', resolve, List.foldl_append, ← resolve, ih, List.foldl_cons,
        List.foldl_nil]
      unfold push
      rw [if_neg (not_or.mpr hne), if_pos rfl]
      cases k with
      | zero => rfl
      | succ k => simp [List.replicate_succ, ← List.replicate_succ']

/-- Components that are resolved stay as they are. -/
theorem Resolved.resolve_reverse {absolute : Bool} {st : List (List α)}
    (h : Resolved A absolute st) : resolve A absolute st.reverse = st := by
  obtain ⟨names, k, rfl, hnames, habsolute⟩ := h.split
  have hparents : resolve A absolute (List.replicate k A.parent) = List.replicate k A.parent := by
    cases absolute with
    | true => rw [habsolute rfl]; rfl
    | false => exact resolve_parents k
  rw [List.reverse_append, List.reverse_replicate, resolve, List.foldl_append, ← resolve, hparents,
    foldl_push_names fun c hc => hnames c (List.mem_reverse.mp hc), List.reverse_reverse]

/-! ## Normal paths -/

omit [DecidableEq α] in
theorem Resolved.sep_free {absolute : Bool} {st : List (List α)} (h : Resolved A absolute st) :
    ∀ c ∈ st, A.sep ∉ c ∧ c ≠ [] := by
  obtain ⟨names, k, rfl, hnames, -⟩ := h.split
  intro c hc
  rcases List.mem_append.mp hc with hc | hc
  · exact ⟨(hnames c hc).sep_free, (hnames c hc).ne_nil⟩
  · rw [List.eq_of_mem_replicate hc]
    exact ⟨parent_sep_free, List.cons_ne_nil _ _⟩

theorem resolved_location (p : List α) : Resolved A (location A p).1 (location A p).2.reverse := by
  rw [location, List.reverse_reverse]
  exact resolved_resolve _ fun _ => sep_not_mem_of_splitOn

/-- The components of the text of a location: those of the location, beside empty ones. -/
theorem splitOn_textOf {l : Location α} (hl : Resolved A l.1 l.2.reverse) (hne : l.2 ≠ [])
    (trailing : Bool) :
    (textOf A l trailing).splitOn A.sep =
      (if l.1 then [[]] else []) ++ l.2 ++ (if trailing then [[]] else []) := by
  have hparts : ([A.sep].intercalate l.2).splitOn A.sep = l.2 :=
    List.splitOn_intercalate A.sep
      (fun c hc => (hl.sep_free c (List.mem_reverse.mpr hc)).1) hne
  have hend : ∀ s : List α, (s ++ [A.sep]).splitOn A.sep = s.splitOn A.sep ++ [[]] := fun s => by
    rw [List.splitOn_append_cons_self, List.splitOn_nil]
  have hstart : ∀ s : List α, ([A.sep] ++ s).splitOn A.sep = [] :: s.splitOn A.sep := fun s => by
    have h := List.splitOn_append_cons_self (a := A.sep) [] s
    rwa [List.splitOn_nil] at h
  unfold textOf
  rw [if_neg hne]
  cases l.1 <;> cases trailing
  · simpa using hparts
  · simp only [Bool.false_eq_true, if_false, if_true, List.nil_append]
    rw [hend, hparts]
  · simp only [Bool.false_eq_true, if_false, if_true, List.append_nil]
    rw [hstart, hparts]
    rfl
  · simp only [if_true, List.append_assoc]
    rw [hstart, hend, hparts]
    rfl

theorem isAbsolute_textOf {l : Location α} (hl : Resolved A l.1 l.2.reverse) (trailing : Bool) :
    isAbsolute A (textOf A l trailing) = l.1 := by
  have hdot : isAbsolute A A.here = false := decide_eq_false fun h => A.dot_ne_sep (Option.some.inj h)
  unfold textOf
  by_cases hnil : l.2 = []
  · rw [if_pos hnil]
    cases l.1 with
    | true => exact decide_eq_true rfl
    | false => cases trailing <;> exact hdot
  · rw [if_neg hnil]
    cases hl1 : l.1 with
    | true => exact decide_eq_true rfl
    | false =>
        obtain ⟨c, cs, hcs⟩ := List.exists_cons_of_ne_nil hnil
        obtain ⟨hfree, hne⟩ := hl.sep_free c (List.mem_reverse.mpr (hcs ▸ List.mem_cons_self))
        obtain ⟨x, c', rfl⟩ := List.exists_cons_of_ne_nil hne
        rw [hcs]
        refine decide_eq_false fun h => hfree ?_
        have hhead : x = A.sep := by
          cases cs with
          | nil => simpa using h
          | cons d ds => simpa using h
        exact hhead ▸ List.mem_cons_self

/-- The text of a location leads there. -/
theorem location_textOf {l : Location α} (hl : Resolved A l.1 l.2.reverse) (trailing : Bool) :
    location A (textOf A l trailing) = l := by
  have habsolute := isAbsolute_textOf hl trailing
  have hresolve : resolve A l.1 ((textOf A l trailing).splitOn A.sep) = l.2.reverse := by
    by_cases hnil : l.2 = []
    · rw [hnil]
      have hhere : A.here.splitOn A.sep = [A.here] :=
        List.splitOn_eq_singleton fun h => A.dot_ne_sep (List.mem_singleton.mp h).symm
      unfold textOf
      rw [if_pos hnil]
      cases l.1 with
      | true =>
          have h := List.splitOn_append_cons_self (a := A.sep) ([] : List α) []
          rw [List.splitOn_nil] at h
          change resolve A true (([] ++ A.sep :: []).splitOn A.sep) = _
          rw [h]
          simp [resolve, push_nil]
      | false =>
          cases trailing with
          | false =>
              change resolve A false (A.here.splitOn A.sep) = _
              rw [hhere]
              exact push_here false []
          | true =>
              change resolve A false ((A.here ++ A.sep :: []).splitOn A.sep) = _
              rw [List.splitOn_append_cons_self, hhere, List.splitOn_nil]
              simp [resolve, push_here, push_nil]
    · have hkeep := hl.resolve_reverse
      rw [List.reverse_reverse] at hkeep
      rw [splitOn_textOf hl hnil]
      have hskip : ∀ (b : Bool) (cs : List (List α)),
          resolve A l.1 ((if b then [[]] else []) ++ cs) = resolve A l.1 cs := fun b cs => by
        cases b <;> rfl
      have hskipLast : ∀ (b : Bool) (cs : List (List α)),
          resolve A l.1 (cs ++ (if b then [[]] else [])) = resolve A l.1 cs := fun b cs => by
        cases b
        · exact congrArg _ (List.append_nil cs)
        · rw [resolve, List.foldl_append]
          rfl
      rw [hskipLast, hskip]
      exact hkeep
  exact Prod.ext habsolute (by
    change (resolve A (isAbsolute A _) _).reverse = _
    rw [habsolute, hresolve, List.reverse_reverse])

theorem location_nil : location A [] = (false, []) := by
  rw [location]
  change (false, (resolve A false ([].splitOn A.sep)).reverse) = _
  rw [List.splitOn_nil]
  simp [resolve, push_nil]

/-- A path and its normal form lead to one location. -/
theorem location_normalize (p : List α) : location A (normalize A p) = location A p := by
  unfold normalize
  split
  next hnil =>
    subst hnil
    rw [location_nil]
    exact location_textOf (l := (false, [])) ⟨[], 0, rfl, List.forall_mem_nil _, fun _ => rfl⟩ false
  next => exact location_textOf (resolved_location p) _

/-! ## Entries of a directory -/

theorem location_append {dir name : List α} (hdir : dir ≠ []) (hname : A.IsName name) :
    location A (dir ++ A.sep :: name) = (location A dir).child name := by
  have habsolute : isAbsolute A (dir ++ A.sep :: name) = isAbsolute A dir := by
    obtain ⟨x, dir', rfl⟩ := List.exists_cons_of_ne_nil hdir
    rfl
  unfold location
  rw [habsolute, List.splitOn_append_cons_self, List.splitOn_eq_singleton hname.sep_free, resolve,
    List.foldl_append, ← resolve, List.foldl_cons, List.foldl_nil, push_name hname,
    List.reverse_cons]
  rfl

theorem location_name {name : List α} (hname : A.IsName name) :
    location A name = (false, [name]) := by
  have habsolute : isAbsolute A name = false := by
    obtain ⟨x, name', rfl⟩ := List.exists_cons_of_ne_nil hname.ne_nil
    refine decide_eq_false fun h => hname.sep_free ?_
    exact (Option.some.inj h) ▸ List.mem_cons_self
  unfold location
  rw [habsolute, List.splitOn_eq_singleton hname.sep_free, resolve, List.foldl_cons, List.foldl_nil,
    push_name hname]
  rfl

theorem join_pair {dir name : List α} (hdir : dir ≠ []) (hname : name ≠ []) :
    join A [dir, name] = normalize A (dir ++ A.sep :: name) := by
  have hparts : [dir, name].filter (· ≠ []) = [dir, name] := by simp [hdir, hname]
  unfold join
  rw [hparts]
  simp [List.intercalate]

theorem join_nil {name : List α} (hname : name ≠ []) :
    join A [[], name] = normalize A name := by
  have hparts : [[], name].filter (· ≠ []) = [name] := by simp [hname]
  unfold join
  rw [hparts]
  simp [List.intercalate]

/-- A name joined to a directory leads to an entry of that directory. -/
theorem location_join (dir : List α) {name : List α} (hname : A.IsName name) :
    location A (join A [dir, name]) = (location A dir).child name := by
  by_cases hdir : dir = []
  · subst hdir
    rw [join_nil hname.ne_nil, location_normalize, location_name hname, location_nil]
    rfl
  · rw [join_pair hdir hname.ne_nil, location_normalize, location_append hdir hname]

theorem place_join (cwd : List (List α)) (dir : List α) {name : List α} (hname : A.IsName name) :
    place A cwd (join A [dir, name]) = place A cwd dir ++ [name] := by
  unfold place
  rw [location_join dir hname, Location.child]
  split
  next habsolute => rfl
  next hrelative =>
    rw [← List.append_assoc, resolve, List.foldl_append, ← resolve, List.foldl_cons, List.foldl_nil,
      push_name hname, List.reverse_cons]

theorem basename_textOf {l : Location α} {name : List α} (hname : A.IsName name)
    (hl : Resolved A l.1 (l.2 ++ [name]).reverse) :
    basename A (textOf A (l.child name) false) = name := by
  have hsplit := splitOn_textOf (l := l.child name) hl
    (List.append_ne_nil_of_right_ne_nil _ (List.cons_ne_nil _ _)) false
  have hlast : [name].filter (· ≠ []) = [name] := by simp [hname.ne_nil]
  unfold basename
  rw [hsplit]
  simp only [Location.child, Bool.false_eq_true, if_false, List.append_nil, ← List.append_assoc]
  rw [List.filter_append, hlast]
  simp

/-- The last component of a joined path is the name. -/
theorem basename_join (dir : List α) {name : List α} (hname : A.IsName name) :
    basename A (join A [dir, name]) = name := by
  obtain ⟨last, hlast⟩ : ∃ last, name.getLast? = some last :=
    ⟨_, List.getLast?_eq_some_getLast hname.ne_nil⟩
  have hsep : last ≠ A.sep := fun h => hname.sep_free (h ▸ List.mem_of_getLast? hlast)
  by_cases hdir : dir = []
  · subst hdir
    have hlocation := location_name hname
    have hend : decide (name.getLast? = some A.sep) = false :=
      decide_eq_false (by rw [hlast]; exact fun h => hsep (Option.some.inj h))
    rw [join_nil hname.ne_nil, normalize, if_neg hname.ne_nil, hend, hlocation]
    have hresolved := resolved_location (A := A) name
    rw [hlocation] at hresolved
    exact basename_textOf (l := (false, [])) hname hresolved
  · have hlocation := location_append hdir hname
    have hne : dir ++ A.sep :: name ≠ [] := List.append_ne_nil_of_left_ne_nil hdir _
    have hend : decide ((dir ++ A.sep :: name).getLast? = some A.sep) = false := by
      refine decide_eq_false ?_
      rw [List.getLast?_append, List.getLast?_cons, hlast]
      exact fun h => hsep (Option.some.inj h)
    rw [join_pair hdir hname.ne_nil, normalize, if_neg hne, hend, hlocation]
    have hresolved := resolved_location (A := A) (dir ++ A.sep :: name)
    rw [hlocation] at hresolved
    exact basename_textOf hname hresolved

end PosixPath
