import OpcUaSuite.Nodes.OperationRetry

/-!
# What the retry loop answers

The handler sends one message and calls `done` once, and runs the operation again
only after a lost connection, for the messages and bounds it is meant for.
-/

namespace OpcUaSuite.Nodes.OperationRetry

open Js Variants Client BinaryFloat

/-! ## Every run after the first follows a lost connection -/

/-- A run with one before it follows a lost connection and a settled reconnect. -/
def Again (log : List Action) : Prop :=
  ∀ before after, log = before ++ .ran :: after → Action.ran ∈ before →
    ∃ earlier e r, before = earlier ++ [.failed e, .reconnected r] ∧
      isConnectionLostError e = true

/-- The operation may be run next. -/
def Resumable (log : List Action) : Prop :=
  log = [] ∨ ∃ earlier e r, log = earlier ++ [.failed e, .reconnected r] ∧
    isConnectionLostError e = true

theorem again_concat {log : List Action} (h : Again log) {a : Action}
    (ha : a = .ran → Resumable log) : Again (log ++ [a]) := by
  have hsplit := Transition.forall_split_concat (l := log) (a := a)
    (P := fun before b => b = .ran → Action.ran ∈ before →
      ∃ earlier e r, before = earlier ++ [.failed e, .reconnected r] ∧
        isConnectionLostError e = true)
    (fun before b after hlog hb hbefore => h before after (hb ▸ hlog) hbefore)
    (fun hran hmem => ?_)
  · exact fun before after hlog => hsplit before .ran after hlog rfl
  · rcases ha hran with rfl | hresumable
    · cases hmem
    · exact hresumable

theorem again_append {log : List Action} (h : Again log) {actions : List Action}
    (hactions : ∀ a ∈ actions, a ≠ .ran) : Again (log ++ actions) := by
  induction actions generalizing log with
  | nil => rwa [List.append_nil]
  | cons a actions ih =>
      rw [List.append_cons]
      apply ih
      · exact again_concat h fun hran => absurd hran (hactions a List.mem_cons_self)
      · exact fun b hb => hactions b (List.mem_cons_of_mem a hb)

/-! ## The handler while it runs and once it has ended -/

/-- The handler in its loop. -/
structure Looping (s : Handling) : Prop where
  running : ¬ s.isOver
  again : Again s.log
  resumable : s.point = .connecting ∨ s.point = .backingOff → Resumable s.log
  lost : s.point = .reconnecting → ∃ earlier e, s.log = earlier ++ [.failed e] ∧
    isConnectionLostError e = true
  retried : ∀ e, .failed e ∈ s.log → isConnectionLostError e = true
  silent : ∀ a ∈ s.log, a.isSent = false ∧ a.isDone = false
  clean : (InsertionMap.get? s.operation replies).isSome → hasError s.msg = false

/-- The handler after its last action. -/
structure Answered (s : Handling) : Prop where
  ended : s.point = .ended
  again : Again s.log
  surfaced : ∀ e, .failed e ∈ s.log → isConnectionLostError e = false →
    ∃ earlier, s.log = earlier ++ [.failed e, .sent s.msg, .done (some e)] ∧
      member s.msg (js "error") = createError e
  doneOnce : s.log.countP Action.isDone = 1
  sentOnce : s.log.filter Action.isSent =
    if s.operation = js "subscribe" ∧ s.lastFailed = false then [] else [.sent s.msg]
  error_iff : hasError s.msg = true ↔ s.lastFailed = true

theorem not_isOver {s : Handling} (hended : s.point ≠ .ended)
    (hrejected : ∀ e, s.point ≠ .rejected e) : ¬ s.isOver := by
  rintro (h | ⟨e, h⟩)
  · exact hended h
  · exact hrejected e h

theorem Looping.silent_concat {s : Handling} (hs : Looping s) {a : Action}
    (ha : a.isSent = false ∧ a.isDone = false) :
    ∀ b ∈ s.log ++ [a], b.isSent = false ∧ b.isDone = false := by
  intro b hb
  rcases List.mem_append.mp hb with hlog | hnew
  · exact hs.silent b hlog
  · obtain rfl := List.mem_singleton.mp hnew
    exact ha

theorem silent_append {log : List Action} (h : ∀ a ∈ log, a.isSent = false ∧ a.isDone = false)
    (actions : List Action) :
    (log ++ actions).countP Action.isDone = actions.countP Action.isDone ∧
      (log ++ actions).filter Action.isSent = actions.filter Action.isSent := by
  constructor
  · rw [List.countP_append, List.countP_eq_zero.mpr fun a ha => by simp [(h a ha).2], Nat.zero_add]
  · rw [List.filter_append, List.filter_eq_nil_iff.mpr fun a ha => by simp [(h a ha).1],
      List.nil_append]

theorem lastFailed_append (log : List Action) {actions : List Action} {b : Bool}
    (h : (actions.filterMap Action.attemptEnd?).getLast? = some b) :
    (((log ++ actions).filterMap Action.attemptEnd?).getLast?).getD false = b := by
  rw [List.filterMap_append, List.getLast?_append, h]
  rfl

theorem hasError_createError (msg : Message) (e : JsString) :
    member (InsertionMap.set (js "error") (createError e) msg) (js "error") = createError e ∧
      hasError (InsertionMap.set (js "error") (createError e) msg) = true := by
  have hmember : member (InsertionMap.set (js "error") (createError e) msg) (js "error") =
      createError e := by
    rw [member, InsertionMap.get?_set_self]
    rfl
  exact ⟨hmember, by rw [hasError, hmember]; rfl⟩

/-- An error that is surfaced ends the handler with the message sent once. -/
theorem answered_surface {s : Handling} {e : JsString} {actions : List Action}
    (hs : Looping s) (hactions : ∀ a ∈ actions, a ≠ .ran ∧ a.isSent = false ∧ a.isDone = false)
    (hlast : ((s.log ++ actions).filterMap Action.attemptEnd?).getLast? = some true)
    (hfailed : ∀ e', .failed e' ∈ actions → isConnectionLostError e' = false →
      actions = [.failed e'] ∧ e' = e) :
    Answered ((s.record actions).surface e) := by
  have hsilent : ∀ a ∈ s.log ++ actions, a.isSent = false ∧ a.isDone = false := by
    intro a ha
    rcases List.mem_append.mp ha with hlog | hactions'
    · exact hs.silent a hlog
    · exact (hactions a hactions').2
  obtain ⟨hdone, hsent⟩ := silent_append hsilent
    [.sent (InsertionMap.set (js "error") (createError e) s.msg), .done (some e)]
  have hfail : ((s.record actions).surface e).lastFailed = true := by
    change (((s.log ++ actions ++ _).filterMap Action.attemptEnd?).getLast?).getD false = true
    rw [List.filterMap_append]
    change (((s.log ++ actions).filterMap Action.attemptEnd? ++ []).getLast?).getD false = true
    rw [List.append_nil, hlast]
    rfl
  obtain ⟨hmember, herror⟩ := hasError_createError s.msg e
  refine ⟨rfl, ?_, ?_, hdone, ?_, iff_of_true herror hfail⟩
  · apply again_append (again_append hs.again fun a ha => (hactions a ha).1)
    simp
  · intro e' he' hother
    have hmem : Action.failed e' ∈ actions := by
      rcases List.mem_append.mp he' with hbefore | hafter
      · rcases List.mem_append.mp hbefore with hlog | hactions'
        · rw [hs.retried e' hlog] at hother
          cases hother
        · exact hactions'
      · simp at hafter
    obtain ⟨rfl, rfl⟩ := hfailed e' hmem hother
    exact ⟨s.log, List.append_assoc _ _ _, hmember⟩
  · rw [if_neg fun h => by rw [hfail] at h; cases h.2]
    exact hsent

/-- The members of a reply leave the error of the message alone. -/
theorem hasError_assign {operation : JsString} {msg reply : Message}
    (h : possible operation (.ok (some reply)) = true) :
    hasError (assign msg reply) = hasError msg := by
  have hmembers : ∀ e ∈ reply, e.1 ≠ js "error" := by
    intro e he heq
    have hnone : replies.all (fun r => decide (js "error" ∉ r.2)) = true := by decide +kernel
    simp only [possible] at h
    cases hget : InsertionMap.get? operation replies with
    | none => rw [hget] at h; cases h
    | some members =>
        rw [hget] at h
        have hin := List.all_eq_true.mp (Bool.and_eq_true_iff.mp h).2 e he
        have hout := List.all_eq_true.mp hnone _ (InsertionMap.mem_of_get? hget)
        exact of_decide_eq_true hout (heq ▸ of_decide_eq_true hin)
  have hmember : member (assign msg reply) (js "error") = member msg (js "error") := by
    clear h
    induction reply generalizing msg with
    | nil => rfl
    | cons e reply ih =>
        have hrest : member (assign (InsertionMap.set e.1 e.2 msg) reply) (js "error") =
            member (InsertionMap.set e.1 e.2 msg) (js "error") :=
          ih fun e' he' => hmembers e' (List.mem_cons_of_mem e he')
        refine hrest.trans ?_
        rw [member, InsertionMap.get?_set_of_ne (hmembers e List.mem_cons_self).symm, member]
  rw [hasError, hmember, hasError]

/-- Only a subscribe has no reply. -/
theorem known_of_possible_ok {operation : JsString} {reply : Option Message}
    (h : possible operation (.ok reply) = true) :
    (InsertionMap.get? operation replies).isSome ∧
      (reply = none ↔ operation = js "subscribe") := by
  simp only [possible] at h
  cases hget : InsertionMap.get? operation replies with
  | none =>
      rw [hget] at h
      cases h
  | some members =>
      rw [hget] at h
      cases reply with
      | none => exact ⟨rfl, iff_of_true rfl (of_decide_eq_true h)⟩
      | some reply =>
          have hother := of_decide_eq_true (Bool.and_eq_true_iff.mp h).1
          exact ⟨rfl, iff_of_false nofun hother⟩

theorem lastFailed_succeed (s : Handling) (reply : Option Message) :
    (s.succeed reply).lastFailed = false := by
  cases reply with
  | none => exact lastFailed_append s.log rfl
  | some reply => exact lastFailed_append s.log rfl

/-- An operation that succeeds ends the handler; only a subscribe sends nothing. -/
theorem answered_succeed {s : Handling} {reply : Option Message} (hs : Looping s)
    (hpossible : possible s.operation (.ok reply) = true) : Answered (s.succeed reply) := by
  obtain ⟨hknown, hsubscribe⟩ := known_of_possible_ok hpossible
  have hclean := hs.clean hknown
  cases reply with
  | none =>
      obtain ⟨hdone, hsent⟩ := silent_append hs.silent [.succeeded, .done none]
      have hlast := lastFailed_succeed s none
      refine ⟨rfl, again_append hs.again (by simp), ?_, hdone, ?_, ?_⟩
      · intro e he hother
        have hlog : Action.failed e ∈ s.log := by simpa [Handling.succeed] using he
        rw [hs.retried e hlog] at hother
        cases hother
      · rw [if_pos ⟨hsubscribe.mp rfl, hlast⟩]
        exact hsent
      · exact iff_of_false (by rw [show hasError (s.succeed none).msg = false from hclean]; nofun)
          (by rw [hlast]; nofun)
  | some reply =>
      have hsame : hasError (assign s.msg reply) = false :=
        (hasError_assign hpossible).trans hclean
      obtain ⟨hdone, hsent⟩ := silent_append hs.silent
        [.succeeded, .sent (assign s.msg reply), .done none]
      have hlast := lastFailed_succeed s (some reply)
      refine ⟨rfl, again_append hs.again (by simp), ?_, hdone, ?_, ?_⟩
      · intro e he hother
        have hlog : Action.failed e ∈ s.log := by simpa [Handling.succeed] using he
        rw [hs.retried e hlog] at hother
        cases hother
      · rw [if_neg fun h => nomatch hsubscribe.mpr h.1]
        exact hsent
      · exact iff_of_false (by rw [show hasError (s.succeed (some reply)).msg = false from hsame]; nofun)
          (by rw [hlast]; nofun)

theorem getLast?_attemptEnd {log : List Action} (e : JsString) :
    ((log ++ [Action.failed e]).filterMap Action.attemptEnd?).getLast? = some true := by
  rw [List.filterMap_append]
  exact List.getLast?_concat

/-- A step of the loop leads on in it, or ends the handler with its answer. -/
theorem looping_step {max : Double} {s s' : Handling} (hs : Looping s) (h : Moves max s s') :
    Looping s' ∨ Answered s' := by
  cases h with
  | starts hpoint =>
      refine .inl ⟨?_, again_concat hs.again fun _ => hs.resumable (.inl hpoint), ?_, ?_, ?_, ?_,
        hs.clean⟩
      · exact not_isOver nofun nofun
      · rintro (h | h) <;> cases h
      · rintro h
        cases h
      · intro e he
        exact hs.retried e (by simpa [Handling.record] using he)
      · exact hs.silent_concat ⟨rfl, rfl⟩
  | retries e hpoint hlost hpossible hleft =>
      refine .inl ⟨?_, again_append hs.again (by simp), ?_, fun _ => ⟨s.log, e, rfl, hlost⟩, ?_, ?_,
        hs.clean⟩
      · exact not_isOver nofun nofun
      · rintro (h | h) <;> cases h
      · intro e' he'
        rcases List.mem_append.mp he' with hlog | hnew
        · exact hs.retried e' hlog
        · cases List.mem_singleton.mp hnew
          exact hlost
      · exact hs.silent_concat ⟨rfl, rfl⟩
  | fails e hpoint =>
      refine .inr (answered_surface hs ?_ (getLast?_attemptEnd e) ?_)
      · intro a ha
        obtain rfl := List.mem_singleton.mp ha
        exact ⟨nofun, rfl, rfl⟩
      · intro e' he' _
        cases List.mem_singleton.mp he'
        exact ⟨rfl, rfl⟩
  | succeeds reply hpoint hpossible => exact .inr (answered_succeed hs hpossible)
  | reconnects r hpoint =>
      obtain ⟨earlier, e, hlog, hlost⟩ := hs.lost hpoint
      refine .inl ⟨?_, again_append hs.again (by simp), fun _ => .inr ⟨earlier, e, r, ?_, hlost⟩, ?_,
        ?_, ?_, hs.clean⟩
      · exact not_isOver nofun nofun
      · change s.log ++ [.reconnected r] = _
        rw [hlog, List.append_assoc]
        rfl
      · rintro h
        cases h
      · intro e' he'
        exact hs.retried e' (by simpa [Handling.record] using he')
      · exact hs.silent_concat ⟨rfl, rfl⟩
  | givesUp e hpoint =>
      obtain ⟨earlier, e', hlog, hlost⟩ := hs.lost hpoint
      refine .inr (answered_surface hs ?_ ?_ ?_)
      · intro a ha
        obtain rfl := List.mem_singleton.mp ha
        exact ⟨nofun, rfl, rfl⟩
      · rw [List.filterMap_append, hlog]
        change (((earlier ++ [Action.failed e']).filterMap Action.attemptEnd?) ++ []).getLast? = _
        rw [List.append_nil]
        exact getLast?_attemptEnd e'
      · intro e'' he''
        cases List.mem_singleton.mp he''
  | resumes hpoint =>
      refine .inl ⟨?_, hs.again, fun _ => hs.resumable (.inr hpoint), ?_, hs.retried, hs.silent,
        hs.clean⟩
      · exact not_isOver nofun nofun
      · rintro h
        cases h

/-! ## The number of runs -/

@[simp] theorem runs_record (s : Handling) (actions : List Action) :
    (s.record actions).runs = s.runs + actions.countP Action.isRan :=
  List.countP_append

@[simp] theorem runs_surface (s : Handling) (e : JsString) : (s.surface e).runs = s.runs := by
  change (s.log ++ _).countP Action.isRan = _
  rw [List.countP_append]
  rfl

@[simp] theorem runs_succeed (s : Handling) (reply : Option Message) :
    (s.succeed reply).runs = s.runs := by
  cases reply with
  | none =>
      change (s.log ++ _).countP Action.isRan = _
      rw [List.countP_append]
      rfl
  | some reply =>
      change (s.log ++ _).countP Action.isRan = _
      rw [List.countP_append]
      rfl

/-- The bound is an integer the counter can reach, or none at all. -/
def CountsDown (max : Double) : Prop := max = .inf false ∨ ∃ n : Nat, n ≤ 2 ^ 53 ∧ max.Denotes n

/-- The counter stays within the bound `n` and keeps up with the runs. -/
structure Spent (n : Nat) (s : Handling) : Prop where
  within : s.attempt ≤ n
  between : s.point ≠ .operating ∧ s.point ≠ .ended → s.runs ≤ s.attempt
  always : s.runs ≤ s.attempt + 1

theorem reached_denotes {max : Double} {n : Nat} (h : max.Denotes n) (attempt : Nat) :
    reached max attempt = decide (n ≤ attempt) := by
  have hnan : max ≠ .nan := by
    rintro rfl
    cases h.isInteger
  have hle : (!decide ((n : Int) > attempt)) = decide (n ≤ attempt) := by
    rw [← decide_not]
    exact decide_eq_decide.mpr (by omega)
  simp only [reached, h.gtInt, hnan, decide_false, Bool.not_false, Bool.true_and, hle]

/-- How a step changes the runs and the counter: it runs the operation, it ends the
handler, it goes on with a retry, or it begins one. -/
inductive Counts (max : Double) (s s' : Handling) : Prop
  | runs (hpoint : s.point = .connecting) (hoperating : s'.point = .operating)
      (hattempt : s'.attempt = s.attempt) (hruns : s'.runs = s.runs + 1)
  | ends (hended : s'.point = .ended) (hattempt : s'.attempt = s.attempt)
      (hruns : s'.runs = s.runs)
  | waits (hpoint : s.point = .reconnecting ∨ s.point = .backingOff)
      (hattempt : s'.attempt = s.attempt) (hruns : s'.runs = s.runs)
  | retries (e : JsString) (hpoint : s.point = .connecting ∨ s.point = .operating)
      (hlost : isConnectionLostError e = true)
      (hpossible : s.point = .operating → possible s.operation (.error e) = true)
      (hleft : reached max s.attempt = false) (hattempt : s'.attempt = increment s.attempt)
      (hruns : s'.runs = s.runs)

theorem counts_of_moves {max : Double} {s s' : Handling} (h : Moves max s s') :
    Counts max s s' := by
  cases h with
  | starts hpoint => exact .runs hpoint rfl rfl (runs_record s _)
  | retries e hpoint hlost hpossible hleft =>
      exact .retries e hpoint hlost hpossible hleft rfl (runs_record s _)
  | fails e hpoint => exact .ends rfl rfl (by rw [runs_surface, runs_record]; rfl)
  | succeeds reply hpoint hpossible =>
      exact .ends (by cases reply <;> rfl) (by cases reply <;> rfl) (runs_succeed s reply)
  | reconnects r hpoint => exact .waits (.inl hpoint) rfl (runs_record s _)
  | givesUp e hpoint => exact .ends rfl rfl (by rw [runs_surface, runs_record]; rfl)
  | resumes hpoint => exact .waits (.inr hpoint) rfl rfl

theorem spent_step {max : Double} {n : Nat} (hn : n ≤ 2 ^ 53) (hmax : max.Denotes n)
    {s s' : Handling} (hs : Spent n s) (h : Moves max s s') : Spent n s' := by
  have hwithin := hs.within
  have hone := hs.always
  cases counts_of_moves h with
  | runs hpoint hoperating hattempt hruns =>
      have hbetween := hs.between (by rw [hpoint]; exact ⟨nofun, nofun⟩)
      exact ⟨by omega, fun h => absurd hoperating h.1, by omega⟩
  | ends hended hattempt hruns => exact ⟨by omega, fun h => absurd hended h.2, by omega⟩
  | waits hpoint hattempt hruns =>
      have hbetween := hs.between (by rcases hpoint with h | h <;> rw [h] <;> exact ⟨nofun, nofun⟩)
      exact ⟨by omega, fun _ => by omega, by omega⟩
  | retries e hpoint hlost hpossible hleft hattempt hruns =>
      rw [reached_denotes hmax, decide_eq_false_iff_not, Nat.not_le] at hleft
      have hcount : increment s.attempt = s.attempt + 1 := if_pos (by omega)
      exact ⟨by omega, fun _ => by omega, by omega⟩

theorem operation_of_moves {max : Double} {s s' : Handling} (h : Moves max s s') :
    s'.operation = s.operation := by
  cases h with
  | succeeds reply hpoint hpossible => cases reply <;> rfl
  | _ => rfl

/-- No operation has this name, and the error that says so is no lost connection's. -/
def NeverRetried (operation : JsString) : Prop :=
  InsertionMap.get? operation replies = none ∧
    isConnectionLostError (unknownOperation operation) = false

/-- An operation that is never retried is run once at most. -/
structure Once (s : Handling) : Prop where
  never : NeverRetried s.operation
  between : s.point ≠ .operating ∧ s.point ≠ .ended → s.runs = 0
  always : s.runs ≤ 1

theorem once_step {max : Double} {s s' : Handling} (hs : Once s) (h : Moves max s s') :
    Once s' := by
  have hnever : NeverRetried s'.operation := (operation_of_moves h).symm ▸ hs.never
  have hone := hs.always
  cases counts_of_moves h with
  | runs hpoint hoperating hattempt hruns =>
      have hbetween := hs.between (by rw [hpoint]; exact ⟨nofun, nofun⟩)
      exact ⟨hnever, fun h => absurd hoperating h.1, by omega⟩
  | ends hended hattempt hruns => exact ⟨hnever, fun h => absurd hended h.2, by omega⟩
  | waits hpoint hattempt hruns =>
      have hbetween := hs.between (by rcases hpoint with h | h <;> rw [h] <;> exact ⟨nofun, nofun⟩)
      exact ⟨hnever, fun _ => by omega, by omega⟩
  | retries e hpoint hlost hpossible hleft hattempt hruns =>
      -- the only error of the operation is not retried, so connecting failed
      have hconnecting : s.point = .connecting := by
        refine hpoint.resolve_right fun hoperating => ?_
        have hpossible := hpossible hoperating
        simp only [possible, hs.never.1] at hpossible
        rw [of_decide_eq_true hpossible, hs.never.2] at hlost
        cases hlost
      have hbetween := hs.between (by rw [hconnecting]; exact ⟨nofun, nofun⟩)
      exact ⟨hnever, fun _ => by omega, by omega⟩

/-! ## Where the bound does not hold -/

/-- A bound the counter does not reach, or that is no integer, is exceeded. -/
theorem exceeded {max : Double} (hnan : max ≠ .nan) (h : ¬ CountsDown max) :
    ∃ k : Nat, (∀ i < k, reached max (min i (2 ^ 53)) = false) ∧ max.ltInt k = true := by
  cases max with
  | nan => exact absurd rfl hnan
  | inf neg =>
      cases neg with
      | false => exact absurd (.inl rfl) h
      | true => exact ⟨0, fun i hi => absurd hi (Nat.not_lt_zero i), rfl⟩
  | finite neg exp frac =>
      generalize hv : (Value.finite neg exp frac : Double) = v at *
      have hgt : ∀ i : Int, v.gtInt i = decide (v.num > i * v.den) := by rw [← hv]; exact fun _ => rfl
      have hlt : ∀ i : Int, v.ltInt i = decide (v.num < i * v.den) := by rw [← hv]; exact fun _ => rfl
      have hden : (0 : Int) < v.den := by exact_mod_cast v.den_pos
      by_cases hneg : v.num < 0
      · refine ⟨0, fun i hi => absurd hi (Nat.not_lt_zero i), ?_⟩
        rw [hlt]
        exact decide_eq_true (by simpa using hneg)
      · -- the first integer above the bound
        obtain ⟨t, ht⟩ := Int.eq_ofNat_of_zero_le
          (Int.ediv_nonneg (Int.not_lt.mp hneg) hden.le)
        have hle : (t : Int) * v.den ≤ v.num := by
          rw [show (t : Int) = v.num / v.den from ht.symm]
          exact Int.ediv_mul_le _ hden.ne'
        have hlast : v.num < ((t + 1 : Nat) : Int) * v.den := by
          have := Int.lt_ediv_add_one_mul_self v.num hden
          rw [ht] at this
          exact_mod_cast this
        refine ⟨t + 1, fun i hi => ?_, by rw [hlt]; exact decide_eq_true hlast⟩
        have hmin : ((min i (2 ^ 53) : Nat) : Int) * v.den < v.num := by
          rcases hle.lt_or_eq with hfraction | hinteger
          · have hit : ((min i (2 ^ 53) : Nat) : Int) ≤ t := by omega
            exact (mul_le_mul_of_nonneg_right hit hden.le).trans_lt hfraction
          · -- an integer the counter does not reach
            have hlarge : 2 ^ 53 < t := Nat.lt_of_not_le fun hsmall =>
              h (.inr ⟨t, hsmall, ⟨neg, exp, frac, hv.symm⟩, hinteger.symm⟩)
            rw [← hinteger]
            exact mul_lt_mul_of_pos_right (by omega) hden
        rw [reached, hgt, decide_eq_true hmin]
        simp

/-- The rounds in which the operation fails and is retried. -/
theorem rounds {max : Double} {e : JsString} (hlost : isConnectionLostError e = true) (k : Nat)
    (s : Handling) (hpoint : s.point = .connecting)
    (hpossible : possible s.operation (.error e) = true) (hcount : s.attempt ≤ 2 ^ 53)
    (hleft : ∀ i < k, reached max (min (s.attempt + i) (2 ^ 53)) = false) :
    ∃ outcomes s', Transition.run (Handling.step max) s outcomes = some s' ∧
      s'.point = .connecting ∧ s'.operation = s.operation ∧ s'.runs = s.runs + k := by
  induction k generalizing s with
  | zero => exact ⟨[], s, rfl, hpoint, rfl, rfl⟩
  | succ k ih =>
      have hfirst : reached max s.attempt = false := by
        have h := hleft 0 (Nat.succ_pos k)
        rwa [Nat.add_zero, Nat.min_eq_left hcount] at h
      have hincrement : increment s.attempt = min (s.attempt + 1) (2 ^ 53) := by
        rw [increment]
        split <;> omega
      let next : Handling := { s with
        point := .connecting
        attempt := increment s.attempt
        log := s.log ++ [.ran] ++ [.failed e] ++ [.reconnected none] }
      have hround : Transition.run (Handling.step max) s
          [.connected, .operationSettled (.error e), .reconnectSettled none, .backoffOver] =
            some next := by
        simp [Transition.run, Handling.step, Handling.record, Handling.caught, hpoint, hpossible,
          hlost, hfirst, next]
      obtain ⟨outcomes, s', hrun, hpoint', hoperation, hruns⟩ := ih next rfl hpossible
        (by change increment s.attempt ≤ _; omega)
        (fun i hi => by
          have h := hleft (i + 1) (Nat.succ_lt_succ hi)
          rwa [show min (next.attempt + i) (2 ^ 53) = min (s.attempt + (i + 1)) (2 ^ 53) by
            change min (increment s.attempt + i) _ = _
            omega])
      refine ⟨_ ++ outcomes, s', Transition.run_append hround hrun, hpoint', hoperation, ?_⟩
      have hnext : next.runs = s.runs + 1 := by
        change (s.log ++ [Action.ran] ++ [Action.failed e] ++ [Action.reconnected none]).countP
          Action.isRan = _
        rw [List.countP_append, List.countP_append, List.countP_append]
        rfl
      omega

/-! ## The handler answers once -/

/-- The message names an operation, it has no error of its own unless the operation
is none of the node's, and the bound is one the loop keeps. -/
def Answerable (env : Items.Environment) (config : Config) (msg : Message) : Prop :=
  ∃ operation, Items.resolveOperation env { defaultOperation := config.defaultOperation }
      { operation := member msg (js "operation") } = .ok operation ∧
    ((InsertionMap.get? operation replies).isSome → hasError msg = false) ∧
    (CountsDown (config.maxRetries env.rt.host) ∨
      NeverRetried operation ∧ AtMostOneMore (config.maxRetries env.rt.host) 1)

theorem input_resolved {env : Items.Environment} {config : Config} {msg : Message}
    {operation : JsString}
    (hresolved : Items.resolveOperation env { defaultOperation := config.defaultOperation }
      { operation := member msg (js "operation") } = .ok operation) :
    input env config msg = {
      point := .connecting
      operation := operation
      msg := InsertionMap.set (js "operation") (.str operation) msg } := by
  simp only [input, hresolved]

theorem hasError_operation (operation : JsString) (msg : Message) :
    hasError (InsertionMap.set (js "operation") (.str operation) msg) = hasError msg := by
  rw [hasError, hasError, member, InsertionMap.get?_set_of_ne (by decide +kernel), member]

theorem looping_initial {env : Items.Environment} {config : Config} {msg : Message}
    {operation : JsString}
    (hresolved : Items.resolveOperation env { defaultOperation := config.defaultOperation }
      { operation := member msg (js "operation") } = .ok operation)
    (hclean : (InsertionMap.get? operation replies).isSome → hasError msg = false) :
    Looping (input env config msg) := by
  rw [input_resolved hresolved]
  refine ⟨not_isOver nofun nofun, ?_, fun _ => .inl rfl, nofun, nofun, nofun, ?_⟩
  · intro before after hlog
    exact absurd hlog (by simp)
  · exact fun hknown => (hasError_operation operation msg).trans (hclean hknown)

/-- The handler does nothing after it has ended. -/
theorem final_of_ended {max : Double} {s s' : Handling} (hended : s.point = .ended) :
    ¬ Moves max s s' := by
  intro h
  cases h with
  | starts hpoint => cases hended.symm.trans hpoint
  | retries e hpoint hlost hpossible hleft =>
      rcases hpoint with hpoint | hpoint <;> cases hended.symm.trans hpoint
  | fails e hpoint => rcases hpoint with hpoint | hpoint <;> cases hended.symm.trans hpoint
  | succeeds reply hpoint hpossible => cases hended.symm.trans hpoint
  | reconnects r hpoint => cases hended.symm.trans hpoint
  | givesUp e hpoint => cases hended.symm.trans hpoint
  | resumes hpoint => cases hended.symm.trans hpoint

theorem lawful_preserved (max : Double) : Transition.Preserves (Handling.step max)
    (fun _ _ => True) (fun s => Looping s ∨ Answered s) := by
  intro s o s' hs _ hstep
  rcases hs with hlooping | hanswered
  · exact looping_step hlooping (moves_of_step hstep)
  · exact absurd (moves_of_step hstep) (final_of_ended hanswered.ended)

/-- The runs stay within the bound. -/
theorem bounded_run {env : Items.Environment} {config : Config} {msg : Message}
    {operation : JsString}
    (hresolved : Items.resolveOperation env { defaultOperation := config.defaultOperation }
      { operation := member msg (js "operation") } = .ok operation)
    (hbound : CountsDown (config.maxRetries env.rt.host) ∨
      NeverRetried operation ∧ AtMostOneMore (config.maxRetries env.rt.host) 1)
    {outcomes : List Outcome} {s : Handling}
    (hrun : Transition.run (Handling.step (config.maxRetries env.rt.host)) (input env config msg)
      outcomes = some s) : AtMostOneMore (config.maxRetries env.rt.host) s.runs := by
  rw [input_resolved hresolved] at hrun
  generalize config.maxRetries env.rt.host = max at *
  have halways : ∀ s, Transition.Along (Handling.step max) (fun _ _ => True) s outcomes :=
    fun s => Transition.along_of_forall (fun _ _ => trivial) s outcomes
  rcases hbound with (rfl | ⟨n, hn, hdenotes⟩) | ⟨hnever, hone⟩
  · exact ⟨nofun, rfl⟩
  · have hspent : Spent n s := Transition.Preserves.run
      (fun _ _ _ hs _ hstep => spent_step hn hdenotes hs (moves_of_step hstep))
      (by exact ⟨Nat.zero_le n, fun _ => le_refl 0, Nat.zero_le 1⟩) (halways _) hrun
    have hruns := hspent.always
    have hwithin := hspent.within
    refine ⟨?_, ?_⟩
    · rintro rfl
      cases hdenotes.isInteger
    · rw [hdenotes.ltInt]
      exact decide_eq_false (by omega)
  · have honce : Once s := Transition.Preserves.run
      (fun _ _ _ hs _ hstep => once_step hs (moves_of_step hstep))
      (by exact ⟨hnever, fun _ => rfl, Nat.zero_le 1⟩) (halways _) hrun
    have hruns := honce.always
    exact ⟨hone.1, Value.not_ltInt_of_le (by omega) hone.2⟩

/-- Every run of the handler of an answerable message answers once. -/
theorem answers_of_answerable {env : Items.Environment} {config : Config} {msg : Message}
    (h : Answerable env config msg) {outcomes : List Outcome} {s : Handling}
    (hrun : Transition.run (Handling.step (config.maxRetries env.rt.host)) (input env config msg)
      outcomes = some s) : Answers (config.maxRetries env.rt.host) s := by
  obtain ⟨operation, hresolved, hclean, hbound⟩ := h
  have hbounded := bounded_run hresolved hbound hrun
  rcases (lawful_preserved _).run (.inl (looping_initial hresolved hclean))
    (Transition.along_of_forall (fun _ _ => trivial) _ outcomes) hrun with hlooping | hanswered
  · refine ⟨hbounded, hlooping.again, ?_, fun h => absurd h hlooping.running,
      fun h => absurd h hlooping.running, fun h => absurd h hlooping.running⟩
    intro e he hother
    rw [hlooping.retried e he] at hother
    cases hother
  · exact ⟨hbounded, hanswered.again, hanswered.surfaced, fun _ => hanswered.doneOnce,
      fun _ => hanswered.sentOnce, fun _ => hanswered.error_iff⟩

/-- An operation of the node has an error that is retried, and so does every
operation that is not run once at most. -/
theorem retried_error {operation : JsString} (h : ¬ NeverRetried operation) :
    ∃ e, possible operation (.error e) = true ∧ isConnectionLostError e = true := by
  cases hget : InsertionMap.get? operation replies with
  | some members => exact ⟨js "Not connected", by simp only [possible, hget], by decide +kernel⟩
  | none =>
      refine ⟨unknownOperation operation, by simp only [possible, hget, decide_true], ?_⟩
      exact Bool.eq_true_of_not_eq_false fun hother => h ⟨hget, hother⟩

/-- A reply an operation of the node may have, which leaves the message as it is. -/
theorem success_of_known {operation : JsString}
    (h : (InsertionMap.get? operation replies).isSome) :
    ∃ reply, possible operation (.ok reply) = true ∧
      ∀ s : Handling, (s.succeed reply).msg = s.msg := by
  obtain ⟨members, hget⟩ := Option.isSome_iff_exists.mp h
  by_cases hsubscribe : operation = js "subscribe"
  · refine ⟨none, ?_, fun _ => rfl⟩
    simp only [possible, hget]
    exact decide_eq_true hsubscribe
  · exact ⟨some [], by simp [possible, hget, hsubscribe], fun _ => rfl⟩

theorem run_success (max : Double) {operation : JsString} (msg : Message)
    {reply : Option Message} (h : possible operation (.ok reply) = true) :
    Transition.run (Handling.step max) { point := .connecting, operation := operation, msg := msg }
        [.connected, .operationSettled (.ok reply)] =
      some (Handling.succeed { point := .operating, operation := operation, msg := msg, log := [.ran] }
        reply) := by
  simp [Transition.run, Handling.step, Handling.record, h]

/-- The handler keeps its promises on every sequence of outcomes just when the
message is answerable. -/
theorem answers_iff_answerable (env : Items.Environment) (config : Config) (msg : Message) :
    (∀ outcomes s, Transition.run (Handling.step (config.maxRetries env.rt.host))
        (input env config msg) outcomes = some s → Answers (config.maxRetries env.rt.host) s) ↔
      Answerable env config msg := by
  constructor
  · intro h
    cases hresolved : Items.resolveOperation env { defaultOperation := config.defaultOperation }
        { operation := member msg (js "operation") } with
    | error e =>
        have hrejected : input env config msg = { point := .rejected e, msg := msg } := by
          simp only [input, hresolved]
        have hdone := (h [] _ rfl).doneOnce (.inr ⟨e, by rw [hrejected]⟩)
        rw [hrejected] at hdone
        cases hdone
    | ok operation =>
        have hinput := input_resolved hresolved
        rw [hinput] at h
        refine ⟨operation, hresolved, ?_, ?_⟩
        · intro hknown
          -- an operation that succeeds at once leaves the error of the message
          obtain ⟨reply, hpossible, hmsg⟩ := success_of_known hknown
          have hrun := run_success (config.maxRetries env.rt.host)
            (InsertionMap.set (js "operation") (.str operation) msg) hpossible
          have hend := (h _ _ hrun).error_iff (.inl (by cases reply <;> rfl))
          rw [lastFailed_succeed, hmsg, hasError_operation] at hend
          exact Bool.eq_false_iff.mpr fun herror => Bool.false_ne_true (hend.mp herror)
        · have hone : AtMostOneMore (config.maxRetries env.rt.host) 1 :=
            (h [.connected] _ rfl).bounded
          by_contra hno
          rw [not_or, not_and'] at hno
          obtain ⟨k, hleft, hbelow⟩ := exceeded hone.1 hno.1
          obtain ⟨e, hpossible, hlost⟩ := retried_error (hno.2 hone)
          obtain ⟨outcomes, s, hrun, hpoint, -, hruns⟩ := rounds hlost k
            { point := .connecting, operation := operation,
              msg := InsertionMap.set (js "operation") (.str operation) msg } rfl hpossible
            (Nat.zero_le _) (by simpa using hleft)
          have hlast : Transition.run (Handling.step (config.maxRetries env.rt.host)) s
              [.connected] = some { s.record [.ran] with point := .operating } := by
            simp [Transition.run, Handling.step, hpoint]
          have hbounded := (h _ _ (Transition.run_append hrun hlast)).bounded
          have hcount : Handling.runs { s.record [.ran] with point := .operating } = k + 1 := by
            change (s.record [.ran]).runs = k + 1
            rw [runs_record, hruns]
            exact congrArg (· + 1) (Nat.zero_add k)
          rw [hcount] at hbounded
          have hnot := hbounded.2
          rw [show ((k + 1 : Nat) : Int) - 1 = k by omega, hbelow] at hnot
          cases hnot
  · intro h outcomes s hrun
    exact answers_of_answerable h hrun

/-- A message whose operation is `true` rejects the handler: neither `send` nor
`done` is called. -/
theorem operation_rejects_handler : ¬ ∀ (env : Items.Environment) (config : Config) (msg : Message)
    (outcomes : List Outcome) (s : Handling),
    Transition.run (Handling.step (config.maxRetries env.rt.host)) (input env config msg)
      outcomes = some s → Answers (config.maxRetries env.rt.host) s := by
  intro h
  have hdone := (h Items.plainEnvironment {} [(js "operation", .bool true)] [] _ rfl).doneOnce
    (.inr ⟨_, rfl⟩)
  exact absurd hdone (by decide +kernel)

end OpcUaSuite.Nodes.OperationRetry
