import OpcUaSuite.Client.Manager
import Mathlib.Data.List.Perm.Subperm

/-!
# Who holds the clients and sessions

The manager never loses sight of a client that is not disposed, nor of a session
that is open on such a client. Each operation on clients and sessions keeps this,
under the conditions in which the manager uses it.
-/

namespace OpcUaSuite.Client

/-- A client that is not disposed is the current one, and a session that is open
on it is the current session. -/
structure Custody (client : Option ClientId) (session : Option SessionId)
    (undisposed listening : List ClientId) (openSessions : List (SessionId × ClientId))
    (nextClient nextSession : Nat) : Prop where
  owned : ∀ c ∈ undisposed, client = some c
  nodup : undisposed.Nodup
  fresh : ∀ c, client = some c → c < nextClient
  heard : ∀ c ∈ listening, c ∈ undisposed
  sessionless : client = none → session = none
  sessions : ∀ p ∈ openSessions, p.2 ∈ undisposed → session = some p.1
  numbered : (openSessions.map Prod.fst).Nodup
  numbers : ∀ p ∈ openSessions, p.1 < nextSession ∧ p.2 < nextClient

variable {client : Option ClientId} {session : Option SessionId}
  {undisposed listening : List ClientId} {openSessions : List (SessionId × ClientId)}
  {nextClient nextSession : Nat}

namespace Custody

theorem initial : Custody none none [] [] [] 0 0 where
  owned _ h := by cases h
  nodup := List.nodup_nil
  fresh _ h := by cases h
  heard _ h := by cases h
  sessionless _ := rfl
  sessions _ h := by cases h
  numbered := List.nodup_nil
  numbers _ h := by cases h

variable (h : Custody client session undisposed listening openSessions nextClient nextSession)

include h

theorem undisposed_eq_nil (hclient : ∀ c, client = some c → c ∉ undisposed) : undisposed = [] := by
  refine List.eq_nil_iff_forall_not_mem.mpr fun c hc => ?_
  exact hclient c (h.owned c hc) hc

theorem listening_eq_nil (hundisposed : undisposed = []) : listening = [] := by
  refine List.eq_nil_iff_forall_not_mem.mpr fun c hc => ?_
  have hmem := h.heard c hc
  rw [hundisposed] at hmem
  cases hmem

/-- At most one client is not disposed. -/
theorem length_undisposed_le : undisposed.length ≤ 1 := by
  have hsub : undisposed ⊆ client.toList := by
    intro c hc
    rw [h.owned c hc]
    exact List.mem_cons_self
  have hle := (List.subperm_of_subset h.nodup hsub).length_le
  cases client with
  | none => exact Nat.le_trans hle (Nat.zero_le 1)
  | some c => exact hle

/-- At most one session is open on a client that is not disposed. -/
theorem length_sessions_le :
    (openSessions.filter fun p => decide (p.2 ∈ undisposed)).length ≤ 1 := by
  have hnodup : ((openSessions.filter fun p => decide (p.2 ∈ undisposed)).map Prod.fst).Nodup :=
    h.numbered.sublist (List.filter_sublist.map Prod.fst)
  have hsub : (openSessions.filter fun p => decide (p.2 ∈ undisposed)).map Prod.fst ⊆
      session.toList := by
    intro s hs
    obtain ⟨p, hp, rfl⟩ := List.mem_map.mp hs
    obtain ⟨hopen, hlive⟩ := List.mem_filter.mp hp
    rw [h.sessions p hopen (of_decide_eq_true hlive)]
    exact List.mem_cons_self
  have hle := (List.subperm_of_subset hnodup hsub).length_le
  rw [List.length_map] at hle
  cases session with
  | none => exact Nat.le_trans hle (Nat.zero_le 1)
  | some s => exact hle

theorem dispose (c : ClientId) :
    Custody client session (undisposed.filter (· ≠ c)) (listening.filter (· ≠ c)) openSessions
      nextClient nextSession where
  owned d hd := h.owned d (List.mem_filter.mp hd).1
  nodup := h.nodup.filter _
  fresh := h.fresh
  heard d hd := by
    obtain ⟨hd, hne⟩ := List.mem_filter.mp hd
    exact List.mem_filter.mpr ⟨h.heard d hd, hne⟩
  sessionless := h.sessionless
  sessions p hp hlive := h.sessions p hp (List.mem_filter.mp hlive).1
  numbered := h.numbered
  numbers := h.numbers

/-- The listeners of a client are removed. -/
theorem unhear (c : ClientId) :
    Custody client session undisposed (listening.filter (· ≠ c)) openSessions nextClient
      nextSession where
  owned := h.owned
  nodup := h.nodup
  fresh := h.fresh
  heard d hd := h.heard d (List.mem_filter.mp hd).1
  sessionless := h.sessionless
  sessions := h.sessions
  numbered := h.numbered
  numbers := h.numbers

theorem closeSession (s : SessionId) :
    Custody client session undisposed listening (openSessions.filter (·.1 ≠ s)) nextClient
      nextSession where
  owned := h.owned
  nodup := h.nodup
  fresh := h.fresh
  heard := h.heard
  sessionless := h.sessionless
  sessions p hp := h.sessions p (List.mem_filter.mp hp).1
  numbered := h.numbered.sublist (List.filter_sublist.map Prod.fst)
  numbers p hp := h.numbers p (List.mem_filter.mp hp).1

/-- The current client is disposed, so it and its session can be dropped. -/
theorem drop (hclient : ∀ c, client = some c → c ∉ undisposed) :
    Custody none none undisposed listening openSessions nextClient nextSession where
  owned c hc := by
    rw [h.undisposed_eq_nil hclient] at hc
    cases hc
  nodup := h.nodup
  fresh _ hc := by cases hc
  heard := h.heard
  sessionless _ := rfl
  sessions p _ hp := by
    rw [h.undisposed_eq_nil hclient] at hp
    cases hp
  numbered := h.numbered
  numbers := h.numbers

/-- Without an undisposed client the session can be forgotten. -/
theorem forgetSession (hclient : ∀ c, client = some c → c ∉ undisposed) :
    Custody client none undisposed listening openSessions nextClient nextSession where
  owned := h.owned
  nodup := h.nodup
  fresh := h.fresh
  heard := h.heard
  sessionless _ := rfl
  sessions p _ hp := by
    rw [h.undisposed_eq_nil hclient] at hp
    cases hp
  numbered := h.numbered
  numbers := h.numbers

/-- A new client, when there is none. -/
theorem create (hclient : client = none) :
    Custody (some nextClient) session (nextClient :: undisposed) (nextClient :: listening)
      openSessions (nextClient + 1) nextSession := by
  have hnil : undisposed = [] := h.undisposed_eq_nil fun c hc => by
    rw [hclient] at hc
    cases hc
  have hheard : listening = [] := h.listening_eq_nil hnil
  subst hnil
  subst hheard
  constructor
  case owned =>
    intro c hc
    rw [List.mem_singleton.mp hc]
  case nodup => exact List.pairwise_singleton _ _
  case fresh =>
    intro c hc
    cases hc
    exact Nat.lt_succ_self _
  case heard => exact fun _ => id
  case sessionless =>
    intro hc
    cases hc
  case sessions =>
    intro p hp hlive
    have hlt := (h.numbers p hp).2
    rw [List.mem_singleton.mp hlive] at hlt
    exact absurd hlt (Nat.lt_irrefl _)
  case numbered => exact h.numbered
  case numbers => exact fun p hp => ⟨(h.numbers p hp).1, Nat.lt_succ_of_lt (h.numbers p hp).2⟩

/-- The number of a new session is a new one. -/
theorem numbered_cons (c : ClientId) :
    (((nextSession, c) :: openSessions).map Prod.fst).Nodup := by
  refine List.nodup_cons.mpr ⟨fun hmem => ?_, h.numbered⟩
  obtain ⟨p, hp, heq⟩ := List.mem_map.mp hmem
  exact absurd (h.numbers p hp).1 (by rw [heq]; exact Nat.lt_irrefl _)

theorem numbers_cons {c : ClientId} (hfresh : c < nextClient) :
    ∀ p ∈ (nextSession, c) :: openSessions, p.1 < nextSession + 1 ∧ p.2 < nextClient := by
  refine List.forall_mem_cons.mpr ⟨⟨Nat.lt_succ_self _, hfresh⟩, fun p hp => ?_⟩
  exact ⟨Nat.lt_succ_of_lt (h.numbers p hp).1, (h.numbers p hp).2⟩

/-- A session opened on a client, without another one. -/
theorem openSession (hsession : session = none) {c : ClientId} (hclient : client = some c) :
    Custody client (some nextSession) undisposed listening ((nextSession, c) :: openSessions)
      nextClient (nextSession + 1) where
  owned := h.owned
  nodup := h.nodup
  fresh := h.fresh
  heard := h.heard
  sessionless hnone := by
    rw [hclient] at hnone
    cases hnone
  sessions p hp hlive := by
    rcases List.mem_cons.mp hp with rfl | hp
    · rfl
    · rw [h.sessions p hp hlive] at hsession
      cases hsession
  numbered := h.numbered_cons c
  numbers := h.numbers_cons (h.fresh c hclient)

/-- A session opened on a client that is disposed already. -/
theorem openDisposed {c : ClientId} (hc : c ∉ undisposed) (hfresh : c < nextClient) :
    Custody client session undisposed listening ((nextSession, c) :: openSessions) nextClient
      (nextSession + 1) where
  owned := h.owned
  nodup := h.nodup
  fresh := h.fresh
  heard := h.heard
  sessionless := h.sessionless
  sessions p hp hlive := by
    rcases List.mem_cons.mp hp with rfl | hp
    · exact absurd hlive hc
    · exact h.sessions p hp hlive
  numbered := h.numbered_cons c
  numbers := h.numbers_cons hfresh

end Custody

end OpcUaSuite.Client
