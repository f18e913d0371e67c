import OpcUaSuite.Lib.RoundRobin

/-!
# The session pool

`PooledClientManager` over members of which only the connection is kept: the flag
`isConnected`, whether the server still has the session, and whether a call on a
session that has ended clears the flag. The retry loop of the client is written
for any manager and runs on one member as on the pool.
-/

namespace OpcUaSuite.Client

open RoundRobin

/-! ## Members -/

structure Member where
  isConnected : Bool
  alive : Bool
  noticed : Bool
deriving DecidableEq

namespace Member

/-- The flag says connected, and the server has ended the session. -/
def stale (m : Member) : Bool := m.isConnected && !m.alive

/-- A new session. -/
def renewed (m : Member) : Member := { m with isConnected := true, alive := true }

/-- `connect()` of one manager. -/
def connect (m : Member) : Member := if m.isConnected then m else m.renewed

/-- `reconnect()` of one manager, which trusts the flag for a moment after a success. -/
def reconnect (coolingDown : Bool) (m : Member) : Member :=
  if coolingDown && m.isConnected then m else m.renewed

/-- A call: the member after it, and whether it succeeds. -/
def operate (m : Member) : Member × Bool :=
  if m.stale then ({ m with isConnected := !m.noticed }, false) else (m, m.isConnected)

end Member

/-! ## The pool -/

structure Pool where
  members : List Member
  rr : Nat
  two_le : 2 ≤ members.length

/-- Operations of a session go to the primary, the others around the members. -/
inductive Route
  | primary
  | roundRobin
deriving DecidableEq

namespace Pool

variable (p : Pool)

/-- The first member is the primary. -/
def isConnected : Bool := (p.members[0]?).any Member.isConnected

/-- `_pickMember`: the member, and the next value of `_rr`. -/
def pickMember : Nat × Nat :=
  match scan? Member.isConnected p.members p.rr with
  | some i =>
      let idx := (p.rr + i) % p.members.length
      (idx, (idx + 1) % p.members.length)
  | none => (0, p.rr)

/-- The members of so many picks in a row. -/
def picks : Nat → Pool → List Nat
  | 0, _ => []
  | k + 1, p => p.pickMember.1 :: picks k { p with rr := p.pickMember.2 }

def set (i : Nat) (m : Member) : Pool :=
  { p with members := p.members.set i m, two_le := by rw [List.length_set]; exact p.two_le }

/-- `connect()`, and `reconnect()` as far as it succeeds: only members that are not
connected are given a new session. -/
def connect : Pool :=
  { p with members := p.members.map Member.connect,
           two_le := by rw [List.length_map]; exact p.two_le }

/-- The member an operation goes to, and the pool that it is called on. -/
def routed : Route → Nat × Pool
  | .primary => (0, p)
  | .roundRobin => (p.pickMember.1, { p with rr := p.pickMember.2 })

/-- An operation: the pool after it, and the member that failed. -/
def operate (route : Route) : Pool × Option Nat :=
  let (i, p') := p.routed route
  match p.members[i]? with
  | none => (p', some i)
  | some m =>
      let (m', ok) := m.operate
      (p'.set i m', if ok then none else some i)

end Pool

/-! ## Fairness -/

namespace Pool

variable {p : Pool}

/-- Of a member only its place: the flag is read there. -/
def connectedAt (p : Pool) (i : Nat) : Bool := (p.members[i]?).any Member.isConnected

/-- The places of the members, from the cursor on. -/
def places (p : Pool) : List Nat := (List.range p.members.length).rotate p.rr

theorem scan?_places (p : Pool) : scan? p.connectedAt (List.range p.members.length) p.rr =
    scan? Member.isConnected p.members p.rr := by
  have hpos : 0 < p.members.length := Nat.lt_of_lt_of_le (by decide) p.two_le
  unfold scan?
  rw [List.length_range]
  refine congrArg (fun found => (List.range p.members.length).find? found) (funext fun i => ?_)
  rw [List.getElem?_range (Nat.mod_lt _ hpos)]
  rfl

/-- While a member is connected a pick is a turn in the ring of places. -/
theorem next?_places (h : ∃ m ∈ p.members, m.isConnected = true) :
    next? p.connectedAt p.places =
      some (p.pickMember.1, ({ p with rr := p.pickMember.2 } : Pool).places) := by
  cases hscan : scan? Member.isConnected p.members p.rr with
  | none =>
      obtain ⟨m, hm, hconnected⟩ := h
      exact absurd hconnected (Bool.eq_false_iff.mp (scan?_eq_none hscan m hm))
  | some i =>
      have hplaces := hscan
      rw [← scan?_places] at hplaces
      obtain ⟨before, x, rest, hring, rfl, hbefore, hx⟩ := scan?_eq_some hplaces
      have hpos : 0 < p.members.length := Nat.lt_of_lt_of_le (by decide) p.two_le
      have hplace : x = (p.rr + before.length) % p.members.length := by
        have hlength : before.length < (List.range p.members.length).length := by
          rw [← List.length_rotate (List.range p.members.length) p.rr, hring]
          simp
        have hget : ((List.range p.members.length).rotate p.rr)[before.length]? = _ :=
          getElem?_rotate_cursor hlength
        rw [hring, List.getElem?_append_right le_rfl, Nat.sub_self, List.length_range,
          List.getElem?_range (Nat.mod_lt _ hpos)] at hget
        exact Option.some.inj hget
      have hbehind := rotate_behind hring
      rw [List.length_range] at hbehind
      have hmod : ∀ k, (List.range p.members.length).rotate (k % p.members.length) =
          (List.range p.members.length).rotate k := fun k => by
        have h := List.rotate_mod (List.range p.members.length) k
        rwa [List.length_range] at h
      unfold places
      rw [hring, next?_append hbefore hx]
      unfold pickMember
      rw [hscan]
      dsimp only
      rw [hmod, hbehind, hplace]

theorem picks_eq_turns (h : ∃ m ∈ p.members, m.isConnected = true) (k : Nat) :
    picks k p = turns p.connectedAt k p.places := by
  induction k generalizing p with
  | zero => rfl
  | succ k ih =>
      rw [picks, turns, next?_places h, @ih { p with rr := p.pickMember.2 } h]
      rfl

theorem lt_of_connectedAt {i : Nat} (h : p.connectedAt i = true) : i < p.members.length := by
  unfold connectedAt at h
  cases hm : p.members[i]? with
  | none =>
      rw [hm] at h
      cases h
  | some m => exact (List.getElem?_eq_some_iff.mp hm).1

/-- The connected members are counted by their places. -/
theorem countP_places : p.members.countP Member.isConnected =
    (p.places.filter p.connectedAt).length := by
  have hflags : p.members.map Member.isConnected =
      (List.range p.members.length).map p.connectedAt := by
    apply List.ext_getElem
    · rw [List.length_map, List.length_map, List.length_range]
    · intro i hi _
      rw [List.length_map] at hi
      rw [List.getElem_map, List.getElem_map, List.getElem_range, connectedAt,
        List.getElem?_eq_getElem hi, Option.any_some]
  have hcount : ∀ {α : Type} (l : List α) (q : α → Bool), l.countP q = (l.map q).countP id :=
    fun l q => by rw [List.countP_map]; rfl
  have hperm : p.places.Perm (List.range p.members.length) := List.rotate_perm _ _
  rw [← List.countP_eq_length_filter, hperm.countP_eq, hcount, hflags, ← hcount]

end Pool

/-- As many picks as there are connected members return each of these once, and no
pick returns another. -/
theorem picks_fair (p : Pool) (h : ∃ m ∈ p.members, m.isConnected = true) :
    (∀ i, (Pool.picks (p.members.countP Member.isConnected) p).count i =
      if p.connectedAt i then 1 else 0) ∧ p.connectedAt p.pickMember.1 = true := by
  have hround : Pool.picks (p.members.countP Member.isConnected) p =
      p.places.filter p.connectedAt := by
    rw [Pool.picks_eq_turns h, Pool.countP_places, turns_round]
  constructor
  · intro i
    have hnodup : (p.places.filter p.connectedAt).Nodup :=
      (List.nodup_rotate.mpr List.nodup_range).filter _
    have hmem : i ∈ p.places.filter p.connectedAt ↔ p.connectedAt i = true := by
      rw [List.mem_filter, Pool.places, List.mem_rotate, List.mem_range]
      exact ⟨And.right, fun hi => ⟨Pool.lt_of_connectedAt hi, hi⟩⟩
    rw [hround, hnodup.count]
    simp only [hmem]
  · have hturn : p.pickMember.1 ∈ Pool.picks (p.members.countP Member.isConnected) p := by
      obtain ⟨m, hm, hconnected⟩ := h
      obtain ⟨k, hk⟩ := Nat.exists_eq_succ_of_ne_zero
        (List.countP_pos_iff.mpr ⟨m, hm, hconnected⟩).ne'
      rw [hk]
      exact List.mem_cons_self
    rw [hround] at hturn
    exact (List.mem_filter.mp hturn).2

/-- Three members, the second of them not connected. -/
def threeMembers : Pool :=
  ⟨[⟨true, true, true⟩, ⟨false, true, true⟩, ⟨true, true, true⟩], 2, by decide⟩

theorem threeMembers_fair : Pool.picks 2 threeMembers = [2, 0] ∧
    (∀ i, (Pool.picks 2 threeMembers).count i = if threeMembers.connectedAt i then 1 else 0) ∧
    threeMembers.connectedAt threeMembers.pickMember.1 = true :=
  ⟨by decide, picks_fair threeMembers ⟨⟨true, true, true⟩, List.mem_cons_self, rfl⟩⟩

/-! ## The retry loop -/

/-- What the client needs of a manager. -/
structure Retryable (σ ι : Type) where
  isConnected : σ → Bool
  connect : σ → σ
  reconnect : σ → σ
  operate : σ → σ × Option ι

/-- How the loop ends, and each time that `reconnect()` has resolved: who has failed
so far, and the manager. -/
structure Retried (σ ι : Type) where
  succeeded : Bool
  reconnected : List (List ι × σ)

namespace Retryable

variable {σ ι : Type} (manager : Retryable σ ι)

def ensureConnected (s : σ) : σ := if manager.isConnected s then s else manager.connect s

/-- The loop of `opcua-client` on connection losses, with the retries that remain. -/
def retry : Nat → List ι → σ → Retried σ ι
  | retries, failed, s =>
      match manager.operate (manager.ensureConnected s) with
      | (_, none) => ⟨true, []⟩
      | (s', some who) =>
          match retries with
          | 0 => ⟨false, []⟩
          | retries + 1 =>
              let rest := retry retries (who :: failed) (manager.reconnect s')
              ⟨rest.succeeded, (who :: failed, manager.reconnect s') :: rest.reconnected⟩

end Retryable

/-- One manager. -/
def plain (coolingDown : Bool) : Retryable Member Unit where
  isConnected := Member.isConnected
  connect := Member.connect
  reconnect := Member.reconnect coolingDown
  operate m := (m.operate.1, if m.operate.2 then none else some ())

/-- A pool, for operations that go one way. -/
def pooled (route : Route) : Retryable Pool Nat where
  isConnected := Pool.isConnected
  connect := Pool.connect
  reconnect := Pool.connect
  operate p := p.operate route

end OpcUaSuite.Client
