import OpcUaSuite.Client.Pool

/-!
# Retrying on the pool

A member that fails keeps its flag unless the call itself clears it, and
`reconnect()` of the pool passes over the members whose flag is set. So a retry
goes on to the next member, and the operation succeeds when it comes to one that
is not stale before the retries are used up.
-/

namespace OpcUaSuite.Client

open RoundRobin

theorem takeWhile_append_singleton {α : Type} {p : α → Bool} {l : List α} {x : α}
    (hx : p x = false) : (l ++ [x]).takeWhile p = l.takeWhile p := by
  induction l with
  | nil => rw [List.nil_append, List.takeWhile_cons_of_neg (by simp [hx]), List.takeWhile_nil]
  | cons a l ih =>
      rw [List.cons_append]
      by_cases ha : p a = true
      · rw [List.takeWhile_cons_of_pos ha, List.takeWhile_cons_of_pos ha, ih]
      · rw [List.takeWhile_cons_of_neg ha, List.takeWhile_cons_of_neg ha]

namespace Member

variable {m : Member}

theorem isConnected_connect (m : Member) : m.connect.isConnected = true := by
  unfold connect
  split
  next h => exact h
  next => rfl

theorem stale_connect (m : Member) : m.connect.stale = m.stale := by
  unfold connect
  split
  next => rfl
  next h => simp [stale, renewed, Bool.eq_false_iff.mpr h]

theorem noticed_connect (m : Member) : m.connect.noticed = m.noticed := by
  unfold connect
  split
  next => rfl
  next => rfl

/-- A call on a stale member fails; where the flag is cleared, connecting helps. -/
theorem operate_of_stale (h : m.stale = true) :
    m.operate = ({ m with isConnected := !m.noticed }, false) := if_pos h

theorem operate_of_fine (hconnected : m.isConnected = true) (h : m.stale = false) :
    m.operate = (m, true) := by
  rw [operate, if_neg (Bool.eq_false_iff.mp h), hconnected]

theorem stale_after (h : m.stale = true) :
    ({ m with isConnected := !m.noticed } : Member).connect.stale = !m.noticed := by
  rw [stale_connect]
  unfold stale at h ⊢
  rw [Bool.and_eq_true] at h
  rw [h.2, Bool.and_true]

end Member

namespace Pool

variable {p : Pool}

/-- The members in the order in which an operation and its retries come to them. -/
def order (p : Pool) : Route → List Member
  | .primary => p.members.take 1
  | .roundRobin => p.members.rotate p.pickMember.1

def ensured (p : Pool) : Pool := if p.isConnected then p else p.connect

/-- The member at a place has a session that has ended, and its flag set. -/
def staleAt (p : Pool) (i : Nat) : Bool := (p.members[i]?).any Member.stale

end Pool

/-- The operation succeeds, and each time that `reconnect()` has resolved none of the
members that have failed is left as connected without its session. -/
def Recovers (run : Retried Pool Nat) : Prop :=
  run.succeeded = true ∧ ∀ entry ∈ run.reconnected, ∀ i ∈ entry.1, entry.2.staleAt i = false

/-- There are not more retries to make than are left, and each of the members that
are stale before the first one that is not notices it. -/
def Recoverable (retries : Nat) (order : List Member) : Prop :=
  (order.takeWhile Member.stale).length ≤ retries ∧
    ∀ m ∈ order.takeWhile Member.stale, m.noticed = true

/-! ## One turn -/

namespace Pool

variable {p : Pool}

/-- What is left of a failed call when the pool has reconnected. -/
structure Failed (p : Pool) (route : Route) (i : Nat) (m : Member) (rest : List Member) : Prop where
  who : (p.operate route).2 = some i
  order : (p.operate route).1.connect.order route =
    rest.map Member.connect ++ [({ m with isConnected := !m.noticed } : Member).connect]
  staleAt : ∀ j, (p.operate route).1.connect.staleAt j =
    if j = i then !m.noticed else p.staleAt j

theorem isConnected_connect (p : Pool) : p.connect.isConnected = true := by
  have hpos : 0 < (p.members.map Member.connect).length := by
    rw [List.length_map]
    exact Nat.lt_of_lt_of_le (by decide) p.two_le
  unfold isConnected connect
  rw [List.getElem?_eq_getElem hpos, Option.any_some, List.getElem_map]
  exact Member.isConnected_connect _

theorem staleAt_connect (p : Pool) (i : Nat) : p.connect.staleAt i = p.staleAt i := by
  unfold staleAt connect
  dsimp only
  rw [List.getElem?_map]
  cases p.members[i]? with
  | none => rfl
  | some m => exact Member.stale_connect m

theorem staleAt_set {i : Nat} (h : i < p.members.length) (m : Member) (j : Nat) :
    (p.set i m).staleAt j = if j = i then m.stale else p.staleAt j := by
  unfold staleAt set
  dsimp only
  rw [List.getElem?_set]
  by_cases hij : i = j
  · rw [if_pos hij, if_pos h, if_pos hij.symm]
    rfl
  · rw [if_neg hij, if_neg (Ne.symm hij)]

/-- When every member is connected a pick is the member at the cursor. -/
theorem pickMember_of_connected (h : ∀ m ∈ p.members, m.isConnected = true) :
    p.members.rotate p.pickMember.1 = p.members.rotate p.rr := by
  have hpos : 0 < p.members.length := Nat.lt_of_lt_of_le (by decide) p.two_le
  have hscan : scan? Member.isConnected p.members p.rr = some 0 := by
    refine List.find?_range_eq_some.mpr ⟨?_, List.mem_range.mpr hpos, fun j hj => ?_⟩
    · rw [List.getElem?_eq_getElem (Nat.mod_lt _ hpos), Option.any_some]
      exact h _ (List.getElem_mem _)
    · exact absurd hj (Nat.not_lt_zero j)
  unfold pickMember
  rw [hscan]
  exact List.rotate_mod p.members (p.rr + 0)

theorem order_connect (p : Pool) :
    p.connect.order .roundRobin = (p.members.rotate p.rr).map Member.connect := by
  have hconnected : ∀ m ∈ p.connect.members, m.isConnected = true := by
    intro m hm
    obtain ⟨m', -, rfl⟩ := List.mem_map.mp hm
    exact Member.isConnected_connect m'
  unfold order
  rw [pickMember_of_connected hconnected]
  exact (List.map_rotate Member.connect p.members p.rr).symm

/-- The members that a round goes through are those behind the ones it skips. -/
theorem pick_splits (h : p.isConnected = true) : ∃ before m rest,
    p.members.rotate p.rr = before ++ m :: rest ∧ m.isConnected = true ∧
    p.pickMember.1 = (p.rr + before.length) % p.members.length ∧
    p.pickMember.2 = (p.pickMember.1 + 1) % p.members.length := by
  cases hscan : scan? Member.isConnected p.members p.rr with
  | none =>
      unfold isConnected at h
      cases hm : p.members[0]? with
      | none =>
          rw [hm] at h
          cases h
      | some m =>
          rw [hm, Option.any_some] at h
          exact absurd h (Bool.eq_false_iff.mp (scan?_eq_none hscan m (List.mem_of_getElem? hm)))
  | some i =>
      obtain ⟨before, m, rest, hring, rfl, -, hm⟩ := scan?_eq_some hscan
      refine ⟨before, m, rest, hring, hm, ?_, ?_⟩
      · unfold pickMember
        rw [hscan]
      · unfold pickMember
        rw [hscan]

theorem operate_of_stale {route : Route} {i : Nat} {p' : Pool} {m : Member}
    (hrouted : p.routed route = (i, p')) (hm : p.members[i]? = some m) (h : m.stale = true) :
    p.operate route = (p'.set i { m with isConnected := !m.noticed }, some i) := by
  unfold operate
  rw [hrouted]
  dsimp only
  rw [hm]
  dsimp only
  rw [Member.operate_of_stale h]
  rfl

theorem operate_of_fine {route : Route} {i : Nat} {p' : Pool} {m : Member}
    (hrouted : p.routed route = (i, p')) (hm : p.members[i]? = some m)
    (hconnected : m.isConnected = true) (h : m.stale = false) : (p.operate route).2 = none := by
  unfold operate
  rw [hrouted]
  dsimp only
  rw [hm]
  dsimp only
  rw [Member.operate_of_fine hconnected h]
  rfl

/-- A failed call is seen in the flag of its member only. -/
theorem staleAt_failed {route : Route} {i : Nat} {p' : Pool} {m : Member}
    (hrouted : p.routed route = (i, p')) (hmembers : p'.members = p.members)
    (hm : p.members[i]? = some m) (h : m.stale = true) (j : Nat) :
    (p.operate route).1.connect.staleAt j = if j = i then !m.noticed else p.staleAt j := by
  have hi : i < p'.members.length := by
    rw [hmembers]
    exact (List.getElem?_eq_some_iff.mp hm).1
  have hother : p'.staleAt j = p.staleAt j := by rw [staleAt, hmembers, staleAt]
  rw [operate_of_stale hrouted hm h, staleAt_connect, staleAt_set hi, hother,
    ← Member.stale_connect, Member.stale_after h]

/-- A turn comes to a connected member; it succeeds, or that member has failed. -/
theorem turn (route : Route) (h : p.isConnected = true) : ∃ i m rest,
    p.order route = m :: rest ∧ m.isConnected = true ∧
    (m.stale = false → (p.operate route).2 = none) ∧
    (m.stale = true → p.Failed route i m rest) := by
  cases route with
  | primary =>
      cases hm : p.members with
      | nil =>
          have htwo := p.two_le
          rw [hm] at htwo
          cases htwo
      | cons m others =>
          have hfirst : p.members[0]? = some m := by rw [hm, List.getElem?_cons_zero]
          have hconnected : m.isConnected = true := by
            unfold isConnected at h
            rwa [hfirst, Option.any_some] at h
          refine ⟨0, m, [], ?_, hconnected, operate_of_fine rfl hfirst hconnected, fun hstale => ?_⟩
          · rw [order, hm, List.take_succ_cons, List.take_zero]
          · refine ⟨?_, ?_, staleAt_failed rfl rfl hfirst hstale⟩
            · rw [operate_of_stale rfl hfirst hstale]
            · rw [operate_of_stale rfl hfirst hstale]
              unfold order connect set
              dsimp only
              rw [hm]
              rfl
  | roundRobin =>
      obtain ⟨before, m, rest, hring, hconnected, hpick, hcursor⟩ := pick_splits h
      have hlength : before.length < p.members.length := by
        rw [← List.length_rotate p.members p.rr, hring]
        simp
      have hm : p.members[p.pickMember.1]? = some m := by
        rw [hpick, ← getElem?_rotate_cursor hlength, hring, List.getElem?_append_right le_rfl,
          Nat.sub_self, List.getElem?_cons_zero]
      refine ⟨p.pickMember.1, m, rest ++ before, ?_, hconnected, operate_of_fine rfl hm hconnected,
        fun hstale => ?_⟩
      · rw [order, hpick, List.rotate_mod, ← List.rotate_rotate, hring,
          List.rotate_append_length_eq, List.cons_append]
      · refine ⟨?_, ?_, staleAt_failed rfl rfl hm hstale⟩
        · rw [operate_of_stale rfl hm hstale]
        · have hset := rotate_set (y := { m with isConnected := !m.noticed }) hring
          have hbehind := rotate_behind hset
          rw [List.length_set, ← hpick] at hbehind
          have hmod : ((p.members.set p.pickMember.1
              { m with isConnected := !m.noticed }).rotate p.pickMember.2) =
              rest ++ before ++ [{ m with isConnected := !m.noticed }] := by
            rw [hcursor]
            have h' := List.rotate_mod (p.members.set p.pickMember.1
              { m with isConnected := !m.noticed }) (p.pickMember.1 + 1)
            rw [List.length_set] at h'
            rw [h', hbehind]
          rw [operate_of_stale rfl hm hstale, order_connect]
          unfold set
          dsimp only
          rw [hmod, List.map_append, List.map_singleton]

end Pool

/-! ## The loop -/

/-- With a renewed member at the end the others decide. -/
theorem recoverable_renewed {retries : Nat} {rest : List Member} {m : Member}
    (h : m.stale = false) :
    Recoverable retries (rest.map Member.connect ++ [m]) ↔ Recoverable retries rest := by
  have hstale : Member.stale ∘ Member.connect = Member.stale := funext Member.stale_connect
  unfold Recoverable
  rw [takeWhile_append_singleton h, List.takeWhile_map, hstale, List.length_map]
  refine and_congr_right fun _ => ?_
  constructor
  · intro hall m' hm'
    rw [← Member.noticed_connect]
    exact hall m'.connect (List.mem_map_of_mem hm')
  · intro hall m' hm'
    obtain ⟨m'', hm'', rfl⟩ := List.mem_map.mp hm'
    rw [Member.noticed_connect]
    exact hall m'' hm''

theorem recoverable_cons {retries : Nat} {m : Member} {rest : List Member} (h : m.stale = true) :
    Recoverable (retries + 1) (m :: rest) ↔ m.noticed = true ∧ Recoverable retries rest := by
  unfold Recoverable
  rw [List.takeWhile_cons_of_pos h, List.length_cons, List.forall_mem_cons, Nat.add_le_add_iff_right]
  exact and_left_comm

/-- The loop where the operation goes through. -/
theorem retry_of_fine {route : Route} {retries : Nat} {failed : List Nat} {p : Pool}
    (h : p.isConnected = true) (hfine : (p.operate route).2 = none) :
    (pooled route).retry retries failed p = ⟨true, []⟩ := by
  have hensured : (pooled route).ensureConnected p = p := if_pos h
  have hoperate : (pooled route).operate p = ((p.operate route).1, none) := by
    rw [← hfine]
    rfl
  unfold Retryable.retry
  rw [hensured, hoperate]

/-- An operation that comes to a member which is not stale needs no retry. -/
theorem recovers_of_fine {route : Route} {retries : Nat} {failed : List Nat} {p : Pool}
    {m : Member} {rest : List Member} (h : p.isConnected = true)
    (hfine : (p.operate route).2 = none) (hm : m.stale = false) :
    Recovers ((pooled route).retry retries failed p) ↔ Recoverable retries (m :: rest) := by
  rw [retry_of_fine h hfine, Recoverable, List.takeWhile_cons_of_neg (Bool.eq_false_iff.mp hm)]
  exact iff_of_true ⟨rfl, fun _ he => (List.not_mem_nil he).elim⟩
    ⟨Nat.zero_le _, fun _ he => (List.not_mem_nil he).elim⟩

/-- The loop where a member fails. -/
theorem retry_of_failed {route : Route} {failed : List Nat} {p : Pool} {i : Nat}
    (h : p.isConnected = true) (hwho : (p.operate route).2 = some i) :
    (pooled route).retry 0 failed p = ⟨false, []⟩ ∧
      ∀ retries, (pooled route).retry (retries + 1) failed p =
        let again := (pooled route).retry retries (i :: failed) (p.operate route).1.connect
        ⟨again.succeeded, (i :: failed, (p.operate route).1.connect) :: again.reconnected⟩ := by
  have hensured : (pooled route).ensureConnected p = p := if_pos h
  have hoperate : (pooled route).operate p = ((p.operate route).1, some i) := by
    rw [← hwho]
    rfl
  constructor
  · unfold Retryable.retry
    rw [hensured, hoperate]
  · intro retries
    rw [Retryable.retry, hensured, hoperate]
    rfl

/-- Once the primary is connected the retries go through the members in order. -/
theorem recovers_iff {route : Route} {retries : Nat} {failed : List Nat} {p : Pool}
    (h : p.isConnected = true) (hfailed : ∀ i ∈ failed, p.staleAt i = false) :
    Recovers ((pooled route).retry retries failed p) ↔ Recoverable retries (p.order route) := by
  induction retries generalizing failed p with
  | zero =>
      obtain ⟨i, m, rest, horder, -, hfine, hstale⟩ := Pool.turn route h
      rw [horder]
      cases hm : m.stale with
      | false => exact recovers_of_fine h (hfine hm) hm
      | true =>
          rw [(retry_of_failed h (hstale hm).who).1]
          refine iff_of_false (fun hrecovers => Bool.noConfusion hrecovers.1) fun hrecoverable => ?_
          rw [Recoverable, List.takeWhile_cons_of_pos hm] at hrecoverable
          exact Nat.not_succ_le_zero _ hrecoverable.1
  | succ retries ih =>
      obtain ⟨i, m, rest, horder, -, hfine, hstale⟩ := Pool.turn route h
      rw [horder]
      cases hm : m.stale with
      | false => exact recovers_of_fine h (hfine hm) hm
      | true =>
          have hfailed' := hstale hm
          rw [(retry_of_failed h hfailed'.who).2 retries, recoverable_cons hm]
          cases hnoticed : m.noticed with
          | false =>
              refine iff_of_false (fun hrecovers => ?_) fun h => Bool.noConfusion h.1
              have hentry := hrecovers.2 _ List.mem_cons_self i List.mem_cons_self
              rw [hfailed'.staleAt, if_pos rfl, hnoticed] at hentry
              cases hentry
          | true =>
              have hcleared : ∀ j ∈ i :: failed,
                  (p.operate route).1.connect.staleAt j = false := by
                intro j hj
                rw [hfailed'.staleAt, hnoticed]
                split
                next => rfl
                next hne => exact hfailed j ((List.mem_cons.mp hj).resolve_left hne)
              have hrenewed : ({ m with isConnected := !m.noticed } : Member).connect.stale =
                  false := by rw [Member.stale_after hm, hnoticed]; rfl
              have hagain := ih (Pool.isConnected_connect _) hcleared
              rw [hfailed'.order, recoverable_renewed hrenewed] at hagain
              rw [← hagain, and_iff_right rfl]
              unfold Recovers
              dsimp only
              rw [List.forall_mem_cons, and_iff_right hcleared]

theorem isConnected_ensured (p : Pool) : p.ensured.isConnected = true := by
  unfold Pool.ensured
  split
  next h => exact h
  next => exact Pool.isConnected_connect p

/-- An operation that is retried recovers exactly when, from the member it first goes
to and around, no more members are stale in a row than there are retries, and all
of these clear their flag when a call on them fails. -/
theorem pool_recovers_iff (route : Route) (p : Pool) (retries : Nat) :
    Recovers ((pooled route).retry retries [] p) ↔
      Recoverable retries (p.ensured.order route) := by
  have hsame : (pooled route).retry retries [] p = (pooled route).retry retries [] p.ensured := by
    have honce : (pooled route).ensureConnected p.ensured = (pooled route).ensureConnected p :=
      if_pos (isConnected_ensured p)
    cases retries with
    | zero => rw [Retryable.retry, Retryable.retry, honce]
    | succ retries => rw [Retryable.retry, Retryable.retry, honce]
  rw [hsame]
  exact recovers_iff (isConnected_ensured p) fun _ h => (List.not_mem_nil h).elim

/-- One manager recovers at the first retry when it is not cooling down. -/
theorem plain_recovers (m : Member) (retries : Nat) :
    ((plain false).retry (retries + 1) [] m).succeeded = true := by
  have hrenewed : ∀ m : Member, ((plain false).retry retries [()] m.renewed).succeeded = true := by
    intro m
    cases retries <;> rfl
  rw [Retryable.retry]
  rcases hoperate : (plain false).operate ((plain false).ensureConnected m) with ⟨m', _ | u⟩
  · rfl
  · exact hrenewed m'

/-- Two members whose sessions the server has ended without a word. -/
def forgottenMembers : Pool := ⟨[⟨true, false, false⟩, ⟨true, false, false⟩], 0, by decide⟩

/-- `reconnect()` passes over both members, and the retry fails as well, where it brings one
manager back. -/
theorem stale_members_kept :
    (∀ (m : Member) (retries : Nat), 1 ≤ retries →
      ((plain false).retry retries [] m).succeeded = true) ∧
    ¬ ∀ (route : Route) (p : Pool) (retries : Nat), 1 ≤ retries →
      Recovers ((pooled route).retry retries [] p) := by
  refine ⟨fun m retries hretries => ?_, fun h => ?_⟩
  · obtain ⟨n, rfl⟩ := Nat.exists_eq_add_of_le' hretries
    exact plain_recovers m n
  · have hrecovers := h .roundRobin forgottenMembers 1 le_rfl
    exact absurd hrecovers.1 (by decide)

end OpcUaSuite.Client
