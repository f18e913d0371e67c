import OpcUaSuite.Js.Numeral
import OpcUaSuite.Lib.Writer

/-!
# Browsing page by page

A server with a limit on the references of one answer returns a continuation
point with them, for which the next page is asked. The server is any machine
that answers the two requests; a call that is rejected or takes too long is an
error of its own.
-/

namespace OpcUaSuite.Client

open Js ByteCodec

/-- A StatusCode with what it says of itself. -/
structure StatusCode where
  text : JsString
  isNotGood : Bool
  isBad : Bool
  isNotGood_of_isBad : isBad = true → isNotGood = true
deriving DecidableEq

/-- One page; members that are missing are not given. -/
structure BrowseResult (R : Type) where
  statusCode : Option StatusCode := none
  references : Option (List R) := none
  continuationPoint : Option Bytes := none
deriving DecidableEq

/-- A session answers a browse description with the first page, and a continuation
point with the next one. -/
structure BrowseSession (σ δ R : Type) where
  browse : σ → δ → σ × Except JsString (BrowseResult R)
  browseNext : σ → Bytes → σ × Except JsString (BrowseResult R)

variable {σ δ R : Type}

/-- `references || []` -/
def BrowseResult.page (result : BrowseResult R) : List R := result.references.getD []

/-- The continuation point, when it is there and not empty. -/
def BrowseResult.more? (result : BrowseResult R) : Option Bytes :=
  result.continuationPoint.filter fun point => point.length > 0

def BrowseResult.isBad (result : BrowseResult R) : Bool :=
  result.statusCode.any StatusCode.isBad

def BrowseResult.isNotGood (result : BrowseResult R) : Bool :=
  result.statusCode.any StatusCode.isNotGood

theorem BrowseResult.isBad_eq_false {result : BrowseResult R} (h : result.isNotGood = false) :
    result.isBad = false := by
  unfold BrowseResult.isNotGood at h
  unfold BrowseResult.isBad
  cases hcode : result.statusCode with
  | none => rfl
  | some code =>
      rw [hcode, Option.any_some] at h
      rw [Option.any_some, Bool.eq_false_iff]
      intro hbad
      rw [code.isNotGood_of_isBad hbad] at h
      cases h

variable (session : BrowseSession σ δ R)

/-- The loop over the pages, with the rounds that remain. -/
def followPages : Nat → σ → List R → BrowseResult R → σ × Except JsString (List R)
  | 0, s, references, _ => (s, .ok references)
  | remainingRounds + 1, s, references, result =>
      match result.more? with
      | none => (s, .ok references)
      | some point =>
          match session.browseNext s point with
          | (s', .error e) => (s', .error e)
          | (s', .ok next) => followPages remainingRounds s' (references ++ next.page) next

/-- `_resolveContinuationPoints`; the loop of `browseAllReferences` is the same. -/
def resolveContinuationPoints (s : σ) (result : BrowseResult R) : σ × Except JsString (List R) :=
  followPages session 1000 s result.page result

/-- `OpcUaClientManager.browse`, with the answer of `_ensureConnected` and the
browse description, an error where the NodeId is none. -/
def browse (ensured : Except JsString Unit) (description : Except JsString δ) (s : σ) :
    σ × Except JsString (List R) :=
  let wrap (e : JsString) : JsString := js "Browse error: " ++ e
  match ensured, description with
  | .error e, _ => (s, .error e)
  | .ok (), .error e => (s, .error (wrap e))
  | .ok (), .ok d =>
      match session.browse s d with
      | (s', .error e) => (s', .error (wrap e))
      | (s', .ok result) =>
          match result.statusCode.filter StatusCode.isNotGood with
          | some code => (s', .error (wrap code.text))
          | none =>
              let (s'', references) := resolveContinuationPoints session s' result
              (s'', references.mapError wrap)

/-- `browseAllReferences` of the editor, which leaves the status to its caller. -/
def browseAllReferences (d : δ) (s : σ) :
    σ × Except JsString (List R × Option StatusCode) :=
  match session.browse s d with
  | (s', .error e) => (s', .error e)
  | (s', .ok result) =>
      let (s'', references) := resolveContinuationPoints session s' result
      (s'', references.map fun references => (references, result.statusCode))

/-! ## The pages of a server -/

/-- The pages that follow a page, up to one without a continuation point. -/
inductive Serves : σ → BrowseResult R → List (BrowseResult R) → Prop
  | last {s : σ} {result : BrowseResult R} (done : result.more? = none) : Serves s result []
  | more {s s' : σ} {result next : BrowseResult R} {point : Bytes} {pages : List (BrowseResult R)}
      (again : result.more? = some point) (answer : session.browseNext s point = (s', .ok next))
      (rest : Serves s' next pages) : Serves s result (next :: pages)

/-- One of the first so many calls for a next page is rejected. -/
inductive Rejects : Nat → σ → BrowseResult R → Prop
  | now {rounds : Nat} {s s' : σ} {result : BrowseResult R} {point : Bytes} {e : JsString}
      (again : result.more? = some point) (answer : session.browseNext s point = (s', .error e)) :
      Rejects (rounds + 1) s result
  | later {rounds : Nat} {s s' : σ} {result next : BrowseResult R} {point : Bytes}
      (again : result.more? = some point) (answer : session.browseNext s point = (s', .ok next))
      (rest : Rejects rounds s' next) : Rejects (rounds + 1) s result

/-- The references of all pages of the server for a description, none of them Bad. -/
def AllPages (d : δ) (s : σ) (references : List R) : Prop :=
  ∃ s' first pages, session.browse s d = (s', .ok first) ∧ Serves session s' first pages ∧
    (∀ page ∈ first :: pages, page.isBad = false) ∧
    references = (first :: pages).flatMap BrowseResult.page

/-- What is returned as success are all pages; anything else is an error. -/
def WholeOrError (description : Except JsString δ) (s : σ) : Except JsString (List R) → Prop
  | .error _ => True
  | .ok references => ∃ d, description = .ok d ∧ AllPages session d s references

/-- What the editor is given as success: references without a Bad status. -/
def WholeOrBad (d : δ) (s : σ) : Except JsString (List R × Option StatusCode) → Prop
  | .error _ => True
  | .ok (references, statusCode) =>
      statusCode.any StatusCode.isBad = true ∨ AllPages session d s references

/-- A call for one of the first 1000 next pages is rejected, or no next page is Bad
and those after the first 1000 are empty. -/
def PagesFit (s : σ) (first : BrowseResult R) : Prop :=
  Rejects session 1000 s first ∨
    ∃ pages, Serves session s first pages ∧ (∀ page ∈ pages, page.isBad = false) ∧
      (pages.drop 1000).flatMap BrowseResult.page = []

/-! ## The loop -/

variable {session}

theorem followPages_error_iff {rounds : Nat} {s : σ} {references : List R}
    {result : BrowseResult R} :
    (∃ e, (followPages session rounds s references result).2 = .error e) ↔
      Rejects session rounds s result := by
  induction rounds generalizing s references result with
  | zero =>
      constructor
      · rintro ⟨e, h⟩
        cases h
      · intro h
        cases h
  | succ rounds ih =>
      rw [followPages]
      cases hmore : result.more? with
      | none =>
          constructor
          · rintro ⟨e, h⟩
            cases h
          · rintro (⟨again, -⟩ | ⟨again, -, -⟩)
            · cases hmore.symm.trans again
            · cases hmore.symm.trans again
      | some point =>
          dsimp only
          rcases hanswer : session.browseNext s point with ⟨s', e | next⟩
          · exact iff_of_true ⟨e, rfl⟩ (Rejects.now hmore hanswer)
          · dsimp only
            rw [ih]
            constructor
            · exact Rejects.later hmore hanswer
            · rintro (⟨again, answer⟩ | ⟨again, answer, rest⟩)
              · cases hmore.symm.trans again
                cases hanswer.symm.trans answer
              · cases hmore.symm.trans again
                cases hanswer.symm.trans answer
                exact rest

/-- The loop returns the pages of as many rounds as it has. -/
theorem followPages_of_serves {s : σ} {result : BrowseResult R} {pages : List (BrowseResult R)}
    (h : Serves session s result pages) (rounds : Nat) (references : List R) :
    (followPages session rounds s references result).2 =
      .ok (references ++ (pages.take rounds).flatMap BrowseResult.page) := by
  induction h generalizing rounds references with
  | @last s result done =>
      rw [List.take_nil, List.flatMap_nil, List.append_nil]
      cases rounds with
      | zero => rfl
      | succ rounds => rw [followPages, done]
  | @more s s' result next point pages again answer rest ih =>
      cases rounds with
      | zero => rw [List.take_zero, List.flatMap_nil, List.append_nil, followPages]
      | succ rounds =>
          rw [followPages, again]
          dsimp only
          rw [answer]
          dsimp only
          rw [ih, List.take_succ_cons, List.flatMap_cons, List.append_assoc]

/-- After a first page that is not Bad the loop ends in an error, or returns all
pages, exactly when the pages fit. -/
theorem wholePages_iff {d : δ} {s s' : σ} {first : BrowseResult R}
    (hfirst : session.browse s d = (s', .ok first)) (hbad : first.isBad = false) :
    (∀ references, (resolveContinuationPoints session s' first).2 = .ok references →
      AllPages session d s references) ↔ PagesFit session s' first := by
  constructor
  · intro h
    cases hresult : (resolveContinuationPoints session s' first).2 with
    | error e => exact Or.inl (followPages_error_iff.mp ⟨e, hresult⟩)
    | ok references =>
        obtain ⟨s'', first', pages, hfirst', hserves, hnone, hall⟩ := h references hresult
        cases hfirst.symm.trans hfirst'
        refine Or.inr ⟨pages, hserves, fun page hpage => hnone page
          (List.mem_cons_of_mem first hpage), ?_⟩
        rw [resolveContinuationPoints, followPages_of_serves hserves] at hresult
        have heq := (Except.ok.inj hresult).trans hall
        rw [List.flatMap_cons, List.append_cancel_left_eq] at heq
        have hsplit : (pages.take 1000 ++ pages.drop 1000).flatMap BrowseResult.page =
            (pages.take 1000).flatMap BrowseResult.page := by
          rw [List.take_append_drop]
          exact heq.symm
        rw [List.flatMap_append] at hsplit
        exact List.append_right_eq_self.mp hsplit
  · rintro (hrejects | ⟨pages, hserves, hnone, hempty⟩) references hresult
    · obtain ⟨e, he⟩ := followPages_error_iff.mpr hrejects
      cases he.symm.trans hresult
    · rw [resolveContinuationPoints, followPages_of_serves hserves] at hresult
      refine ⟨s', first, pages, hfirst, hserves, List.forall_mem_cons.mpr ⟨hbad, hnone⟩, ?_⟩
      rw [← Except.ok.inj hresult, List.flatMap_cons, List.append_cancel_left_eq]
      nth_rewrite 2 [← List.take_append_drop 1000 pages]
      rw [List.flatMap_append, hempty, List.append_nil]

/-! ## The two callers -/

theorem filter_isNotGood_eq_none {result : BrowseResult R} :
    result.statusCode.filter StatusCode.isNotGood = none ↔ result.isNotGood = false := by
  unfold BrowseResult.isNotGood
  cases result.statusCode with
  | none => exact iff_of_true rfl rfl
  | some code => cases hcode : code.isNotGood <;> simp [Option.filter_some, hcode]

/-- Of the connected manager with a NodeId only the pages are left to say. -/
theorem browse_of_good {d : δ} {s s' : σ} {first : BrowseResult R}
    (hfirst : session.browse s d = (s', .ok first)) (hgood : first.isNotGood = false) :
    WholeOrError session (.ok d) s (browse session (.ok ()) (.ok d) s).2 ↔
      PagesFit session s' first := by
  rw [← wholePages_iff hfirst (BrowseResult.isBad_eq_false hgood)]
  have hbrowse : (browse session (.ok ()) (.ok d) s).2 =
      (resolveContinuationPoints session s' first).2.mapError fun e => js "Browse error: " ++ e := by
    simp only [browse, hfirst, filter_isNotGood_eq_none.mpr hgood]
  rw [hbrowse]
  cases (resolveContinuationPoints session s' first).2 with
  | error e => exact iff_of_true trivial fun _ h => (nomatch h)
  | ok references =>
      constructor
      · rintro ⟨d', hd', hall⟩ references' hreferences'
        cases hd'
        cases hreferences'
        exact hall
      · intro h
        exact ⟨d, rfl, h references rfl⟩

theorem browse_whole_iff (ensured : Except JsString Unit) (description : Except JsString δ)
    (s : σ) : WholeOrError session description s (browse session ensured description s).2 ↔
      ∀ d s' first, ensured = .ok () → description = .ok d →
        session.browse s d = (s', .ok first) → first.isNotGood = false →
          PagesFit session s' first := by
  cases ensured with
  | error e => exact iff_of_true trivial fun _ _ _ h => (nomatch h)
  | ok u =>
      cases description with
      | error e => exact iff_of_true trivial fun _ _ _ _ h => (nomatch h)
      | ok d =>
          rcases hfirst : session.browse s d with ⟨s', e | first⟩
          · refine iff_of_true ?_ fun d' s'' first _ hd' hfirst' => ?_
            · simp only [browse, hfirst, WholeOrError]
            · cases hd'
              cases hfirst.symm.trans hfirst'
          · cases hgood : first.isNotGood with
            | true =>
                refine iff_of_true ?_ fun d' s'' first' _ hd' hfirst' hgood' => ?_
                · have hsome : first.statusCode.filter StatusCode.isNotGood ≠ none := by
                    rw [ne_eq, filter_isNotGood_eq_none, hgood]
                    exact Bool.noConfusion
                  obtain ⟨code, hcode⟩ := Option.ne_none_iff_exists'.mp hsome
                  simp only [browse, hfirst, hcode, WholeOrError]
                · cases hd'
                  cases hfirst.symm.trans hfirst'
                  cases hgood.symm.trans hgood'
            | false =>
                rw [browse_of_good hfirst hgood]
                constructor
                · intro h d' s'' first' _ hd' hfirst' _
                  cases hd'
                  cases hfirst.symm.trans hfirst'
                  exact h
                · intro h
                  exact h d s' first rfl rfl hfirst hgood

theorem browseAllReferences_whole_iff (d : δ) (s : σ) :
    WholeOrBad session d s (browseAllReferences session d s).2 ↔
      ∀ s' first, session.browse s d = (s', .ok first) → first.isBad = false →
        PagesFit session s' first := by
  rcases hfirst : session.browse s d with ⟨s', e | first⟩
  · refine iff_of_true ?_ fun s'' first hfirst' => ?_
    · simp only [browseAllReferences, hfirst, WholeOrBad]
    · cases hfirst'
  · have hresult : (browseAllReferences session d s).2 =
        (resolveContinuationPoints session s' first).2.map fun references =>
          (references, first.statusCode) := by
      simp only [browseAllReferences, hfirst]
    rw [hresult]
    cases hbad : first.isBad with
    | true =>
        refine iff_of_true ?_ fun s'' first' hfirst' hbad' => ?_
        · cases (resolveContinuationPoints session s' first).2 with
          | error e => trivial
          | ok references => exact Or.inl hbad
        · cases hfirst'
          cases hbad.symm.trans hbad'
    | false =>
        have hfit := wholePages_iff hfirst hbad
        constructor
        · intro h s'' first' hfirst' _
          cases hfirst'
          refine hfit.mp fun references hreferences => ?_
          rw [hreferences] at h
          rcases h with hcode | hall
          · cases hbad.symm.trans hcode
          · exact hall
        · intro h
          have hall := hfit.mpr (h s' first rfl hbad)
          cases hpages : (resolveContinuationPoints session s' first).2 with
          | error e => trivial
          | ok references => exact Or.inr (hall references hpages)

/-- Both callers return all pages or an error exactly when the pages that follow a
first page which raises no error fit. -/
theorem pagedBrowse_iff {σ δ R : Type} (session : BrowseSession σ δ R)
    (ensured : Except JsString Unit) (description : Except JsString δ) (d : δ) (s : σ) :
    (WholeOrError session description s (browse session ensured description s).2 ↔
      ∀ d s' first, ensured = .ok () → description = .ok d →
        session.browse s d = (s', .ok first) → first.isNotGood = false →
          PagesFit session s' first) ∧
    (WholeOrBad session d s (browseAllReferences session d s).2 ↔
      ∀ s' first, session.browse s d = (s', .ok first) → first.isBad = false →
        PagesFit session s' first) :=
  ⟨browse_whole_iff ensured description s, browseAllReferences_whole_iff d s⟩

/-- A server that loses the rest of the references after the first page. -/
def forgetfulServer : BrowseSession Unit Unit Nat where
  browse _ _ := ((), .ok { references := some [1], continuationPoint := some [0] })
  browseNext _ _ := ((), .ok
    { statusCode := some ⟨js "BadContinuationPointInvalid", true, true, fun _ => rfl⟩ })

/-- A Bad page ends the loop, and the references so far are returned as success. -/
theorem bad_page_ignored :
    ¬ ∀ (σ δ R : Type) (session : BrowseSession σ δ R) (ensured : Except JsString Unit)
      (description : Except JsString δ) (d : δ) (s : σ),
      WholeOrError session description s (browse session ensured description s).2 ∧
        WholeOrBad session d s (browseAllReferences session d s).2 := by
  intro h
  obtain ⟨hwhole, -⟩ := h Unit Unit Nat forgetfulServer (.ok ()) (.ok ()) () ()
  obtain ⟨d, -, s', first, pages, hfirst, hserves, hgood, -⟩ := hwhole
  cases hfirst
  cases hserves with
  | last done => cases done
  | more again answer rest =>
      cases answer
      cases hgood _ (List.mem_cons_of_mem _ List.mem_cons_self)

end OpcUaSuite.Client
