import OpcUaSuite.Client.Disconnect

/-!
# One connection

While no disconnect is running there is at most one client and one session, those
of the manager, and a manager that counts as connected has both. What breaks this
is a repair wait that ends well while `connect()` is giving up the repaired session.
-/

namespace OpcUaSuite.Client

/-- A wait for the repair of a session ends with the session open, while a
connect attempt is under way that gives up this session. -/
def revivesOldSession (m : ClientManager) : Event → Bool
  | .repairOver a =>
      !a.closed && (m.repair.any fun r => r.ended && !m.stale r) &&
        m.attempt.any fun attempt => !attempt.point.isSettled
  | _ => false

/-- What `isConnected` promises. -/
structure Truthful (m : ClientManager) : Prop where
  connected : m.isConnected = true → m.client.isSome = true ∧ m.session.isSome = true
  busy : ∀ life point, m.attempt = some ⟨life, point⟩ → point.isSettled = false →
    m.isConnected = false

theorem Truthful.of_not_connected {m : ClientManager} (h : m.isConnected = false) : Truthful m where
  connected hconn := by rw [h] at hconn; cases hconn
  busy _ _ _ _ := h

/-- Only what `isConnected` speaks of matters. -/
theorem Truthful.congr {m m' : ClientManager} (h : Truthful m)
    (hconn : m'.isConnected = m.isConnected) (hclient : m'.client = m.client)
    (hsession : m'.session = m.session) (hattempt : m'.attempt = m.attempt) : Truthful m' where
  connected := by rw [hconn, hclient, hsession]; exact h.connected
  busy := by rw [hconn, hattempt]; exact h.busy

/-! ## Connecting leaves `isConnected` alone -/

theorem scheduleReconnect_fields (m : ClientManager) :
    m.scheduleReconnect.isConnected = m.isConnected ∧ m.scheduleReconnect.client = m.client ∧
      m.scheduleReconnect.session = m.session ∧ m.scheduleReconnect.attempt = m.attempt := by
  unfold ClientManager.scheduleReconnect
  split <;> exact ⟨rfl, rfl, rfl, rfl⟩

theorem releaseAttempt_isConnected (m : ClientManager) (life : Nat) (c? : Option ClientId)
    (s? : Option SessionId) : (m.releaseAttempt life c? s?).isConnected = m.isConnected := by
  unfold ClientManager.releaseAttempt
  split <;> rfl

theorem failAttempt_isConnected (m : ClientManager) (life : Nat) (c? : Option ClientId) :
    (m.failAttempt life c?).isConnected = m.isConnected := by
  unfold ClientManager.failAttempt
  split
  · exact releaseAttempt_isConnected m life c? none
  · exact (scheduleReconnect_fields m).1

theorem createClient_isConnected (m : ClientManager) (life : Nat) (a : Answers) :
    (m.createClient life a).isConnected = m.isConnected := by
  unfold ClientManager.createClient
  split
  · exact failAttempt_isConnected m life none
  · rfl

theorem dropClient_isConnected (m : ClientManager) (c? : Option ClientId) :
    (m.dropClient c?).isConnected = m.isConnected := by
  unfold ClientManager.dropClient
  split <;> rfl

theorem sessionClosed_isConnected (m : ClientManager) (s : SessionId) (ok : Bool) :
    (m.sessionClosed s ok).isConnected = m.isConnected := by
  unfold ClientManager.sessionClosed
  split <;> rfl

theorem connect_isConnected (m : ClientManager) (a : Answers) :
    (m.connect a).isConnected = m.isConnected := by
  rcases connect_cases m a with heq | ⟨-, -, heq⟩ <;> rw [heq]
  unfold ClientManager.doConnect
  split
  · exact createClient_isConnected m m.life a
  · dsimp only
    split <;> rfl

/-- An attempt in flight does not count as connected until it has its session. -/
theorem Truthful.attemptResumed {m m' : ClientManager} (h : Truthful m) (hheld : Held m) {ok : Bool}
    {a : Answers} (hstep : m.attemptResumed ok a = some m') : Truthful m' := by
  unfold ClientManager.attemptResumed at hstep
  split at hstep
  next => cases hstep
  next life point hattempt =>
    have hbusy := h.busy life point hattempt
    have hp := hheld.point life point hattempt
    cases point with
    | settled ok => cases hstep
    | closingSession previous s =>
        cases hstep
        exact Truthful.of_not_connected ((sessionClosed_isConnected m s ok).trans (hbusy rfl))
    | disposingPrevious previous =>
        cases hstep
        refine Truthful.of_not_connected ?_
        rw [createClient_isConnected, dropClient_isConnected]
        exact hbusy rfl
    | preparing c | connecting c =>
        cases hstep
        refine Truthful.of_not_connected ?_
        split
        · exact (failAttempt_isConnected m life (some c)).trans (hbusy rfl)
        · exact hbusy rfl
    | creatingSession c =>
        dsimp only at hstep
        split at hstep
        next =>
          cases hstep
          split
          next =>
            refine Truthful.of_not_connected ?_
            rw [releaseAttempt_isConnected]
            exact hbusy rfl
          next hlive =>
            have hcurrent := hp.2.2.1 fun hlt => hlive (decide_eq_true hlt)
            constructor
            case connected =>
              intro _
              refine ⟨?_, rfl⟩
              change m.client.isSome = true
              rw [hcurrent]
              rfl
            case busy =>
              intro life' point' hsome hunsettled
              cases hsome
              cases hunsettled
        next =>
          cases hstep
          exact Truthful.of_not_connected (hbusy rfl)
    | disposingRefused c =>
        cases hstep
        refine Truthful.of_not_connected ?_
        rw [failAttempt_isConnected]
        split <;> exact hbusy rfl
    | abortedClosing c s =>
        cases hstep
        exact Truthful.of_not_connected ((sessionClosed_isConnected m s ok).trans (hbusy rfl))
    | abortedDisposing c? =>
        cases hstep
        exact Truthful.of_not_connected ((dropClient_isConnected m c?).trans (hbusy rfl))

theorem Truthful.connect {m : ClientManager} (h : Truthful m) (a : Answers) :
    Truthful (m.connect a) := by
  rcases connect_cases m a with heq | ⟨hidle, -, heq⟩
  · rwa [heq]
  · refine Truthful.of_not_connected ((connect_isConnected m a).trans ?_)
    simp only [ClientManager.idle, Bool.and_eq_true, Bool.not_eq_true'] at hidle
    exact hidle.1

/-! ## Every step -/

theorem suspendDisconnect_ne_nil (m : ClientManager) (id : Nat) (point : DisconnectPoint) :
    (m.suspendDisconnect id point).disconnects ≠ [] := by
  intro hnil
  have hmem : id ∈ InsertionMap.keys (m.suspendDisconnect id point).disconnects :=
    InsertionMap.mem_keys_set.mpr (Or.inr rfl)
  rw [hnil] at hmem
  cases hmem

theorem truthful_releaseClient (m : ClientManager) (id : Nat)
    (hquiet : (m.releaseClient id).disconnects = []) : Truthful (m.releaseClient id) := by
  unfold ClientManager.releaseClient at hquiet ⊢
  split at hquiet
  next => exact absurd hquiet (suspendDisconnect_ne_nil _ id _)
  next => exact Truthful.of_not_connected rfl

/-- A disconnect that goes on is still suspended, or ends without a connection. -/
theorem truthful_disconnectResumed {m m' : ClientManager} {id : Nat} {ok : Bool} {a : Answers}
    (hstep : m.disconnectResumed id ok a = some m') (hquiet : m'.disconnects = []) :
    Truthful m' := by
  unfold ClientManager.disconnectResumed at hstep
  split at hstep
  next => cases hstep
  next point hget =>
    cases point with
    | awaitingConnect => cases hstep
    | abortingConnect | offlineDisposing =>
        cases hstep
        exact absurd hquiet (suspendDisconnect_ne_nil m id _)
    | connectOver =>
        cases hstep
        unfold ClientManager.shutDown at hquiet
        split at hquiet <;> exact absurd hquiet (suspendDisconnect_ne_nil _ id _)
    | terminating =>
        cases hstep
        revert hquiet
        split
        next s hsession => exact fun hquiet => absurd hquiet (suspendDisconnect_ne_nil m id _)
        next hsession => exact truthful_releaseClient m id
    | closingSession s =>
        cases hstep
        exact truthful_releaseClient _ id hquiet
    | finalDisposing =>
        cases hstep
        exact Truthful.of_not_connected rfl

theorem disconnect_ne_nil (m : ClientManager) (a : Answers) : (m.disconnect a).disconnects ≠ [] := by
  intro hnil
  have hmem := (disconnect_suspends m a).1
  rw [hnil] at hmem
  cases hmem

/-- What `isConnected` promises holds again after every step with no disconnect running. -/
theorem Truthful.step {m m' : ClientManager} {e : Event} (h : Truthful m) (hheld : Held m)
    (hmoves : e.movesDisconnects = false) (hrevives : revivesOldSession m e = false)
    (hstep : step m e = some m') : Truthful m' := by
  have hlost : Truthful { m with isConnected := false } := Truthful.of_not_connected rfl
  cases e with
  | disconnect a => cases hmoves
  | disconnectResumed id ok a => cases hmoves
  | attemptOver => cases hmoves
  | connect a =>
      cases hstep
      exact h.connect a
  | reconnect maxAttempts a =>
      cases hstep
      rcases reconnect_cases m maxAttempts a with heq | ⟨-, -, heq⟩ <;> rw [heq]
      · exact h
      · exact (hlost.connect a).congr rfl rfl rfl rfl
  | markedDead =>
      cases hstep
      exact hlost
  | startReconnection c =>
      obtain ⟨-, rfl⟩ := heard_cases hstep
      exact h
  | connectionLost c =>
      obtain ⟨-, rfl⟩ := heard_cases hstep
      exact hlost
  | connectionFailed c =>
      obtain ⟨-, rfl⟩ := heard_cases hstep
      exact Truthful.of_not_connected (scheduleReconnect_fields _).1
  | afterReconnection c a =>
      obtain ⟨-, rfl⟩ := heard_cases hstep
      rcases afterReconnection_cases m c a with heq | ⟨r, -, heq⟩ | ⟨-, -, -, heq⟩ <;> rw [heq]
      · exact h
      · exact h.congr rfl rfl rfl rfl
      · exact hlost.connect a
  | repairPolled a =>
      obtain ⟨r, rfl⟩ := repairPolled_cases hstep
      exact h.congr rfl rfl rfl rfl
  | repairOver a =>
      obtain ⟨r, hrepair, hended, rfl | ⟨-, -, rfl⟩ | ⟨hstale, hclosed, rfl⟩⟩ :=
        repairOver_cases hstep
      · exact h.congr rfl rfl rfl rfl
      · exact (Truthful.of_not_connected (m := { m with
          repair := none, isConnected := false }) rfl).connect a
      · -- the session is the current one, and no attempt gives it up
        obtain ⟨hclient, hsession⟩ := not_or.mp (of_decide_eq_false hstale)
        rw [not_not] at hclient hsession
        constructor
        case connected =>
          intro _
          simp [hclient, hsession]
        case busy =>
          intro life point hattempt hunsettled
          have hattempt' : m.attempt = some ⟨life, point⟩ := hattempt
          simp [revivesOldSession, hrepair, hended, hstale, hclosed, hattempt',
            hunsettled] at hrevives
  | attemptResumed ok a => exact h.attemptResumed hheld hstep
  | loopResumed a =>
      obtain ⟨loop, -, ⟨point, rfl⟩ | ⟨-, -, rfl⟩⟩ := loopResumed_cases hstep
      · exact h.congr rfl rfl rfl rfl
      · exact (h.connect a).congr rfl rfl rfl rfl
  | loopOver =>
      cases loopOver_cases hstep
      exact h.congr rfl rfl rfl rfl
  | timerFired a =>
      have hstopped : Truthful { m with reconnectTimer := none } := h.congr rfl rfl rfl rfl
      obtain ⟨life, -, rfl | ⟨-, rfl⟩⟩ := timerFired_cases hstep
      · exact hstopped
      · exact hstopped.connect a

theorem truthful_step : Transition.Preserves step
    (fun m e => Undisturbed m e ∧ revivesOldSession m e = false)
    fun m => Held m ∧ (m.disconnects = [] → Truthful m) := by
  rintro m e m' ⟨hheld, htruthful⟩ ⟨hundisturbed, hrevives⟩ hstep
  refine ⟨held_step hheld hundisturbed hstep, fun hquiet => ?_⟩
  by_cases hmoves : e.movesDisconnects = false
  · have hsame := (step_goesOn (P := fun _ => True) (fun _ _ => trivial) (fun _ _ _ => trivial)
      hstep).disconnects hmoves
    exact (htruthful (hsame ▸ hquiet)).step hheld hmoves hrevives hstep
  · cases e with
    | disconnect a =>
        cases hstep
        exact absurd hquiet (disconnect_ne_nil m a)
    | disconnectResumed id ok a => exact truthful_disconnectResumed hstep hquiet
    | attemptOver =>
        obtain ⟨life, ok, -, rfl⟩ := attemptOver_cases hstep
        have h := htruthful (List.map_eq_nil_iff.mp hquiet)
        exact ⟨h.connected, fun _ _ hnone => by cases hnone⟩
    | _ => exact absurd rfl hmoves

/-- While no disconnect is running there is at most one client and one session,
those of the manager, and it has both when it counts as connected. -/
theorem single_connection {es : List Event} {m : ClientManager}
    (hok : Transition.Along step (fun m e => Undisturbed m e ∧ revivesOldSession m e = false) {} es)
    (hrun : Transition.run step {} es = some m) (hquiet : m.disconnects = []) :
    m.undisposed.length ≤ 1 ∧
      (m.openSessions.filter fun p => decide (p.2 ∈ m.undisposed)).length ≤ 1 ∧
      (∀ c ∈ m.undisposed, m.client = some c) ∧
      (∀ p ∈ m.openSessions, p.2 ∈ m.undisposed → m.session = some p.1) ∧
      (m.isConnected = true → m.client.isSome = true ∧ m.session.isSome = true) := by
  obtain ⟨hheld, htruthful⟩ := truthful_step.run
    ⟨held_initial, fun _ => Truthful.of_not_connected rfl⟩ hok hrun
  exact ⟨hheld.custody.length_undisposed_le, hheld.custody.length_sessions_le,
    hheld.custody.owned, hheld.custody.sessions, (htruthful hquiet).connected⟩

/-- A session whose repair ends well while a lost connection is replaced. -/
theorem replaced_while_repaired : ∃ m, Transition.run step {}
    [.connect {}, .attemptResumed true {}, .attemptResumed true {}, .attemptResumed true {},
      .attemptOver, .afterReconnection 0 { reconnecting := true }, .reconnect 3 {},
      .attemptResumed true {}, .attemptResumed true {}, .attemptResumed true {},
      .repairPolled {}, .repairOver {}, .attemptResumed true {}, .attemptResumed true {}] = some m ∧
    m.undisposed.length ≤ 1 ∧
      (m.openSessions.filter fun p => decide (p.2 ∈ m.undisposed)).length ≤ 1 ∧
      (∀ c ∈ m.undisposed, m.client = some c) ∧
      (∀ p ∈ m.openSessions, p.2 ∈ m.undisposed → m.session = some p.1) ∧
      (m.isConnected = true → m.client.isSome = true ∧ m.session.isSome = true) :=
  ⟨_, rfl, @single_connection
    [.connect {}, .attemptResumed true {}, .attemptResumed true {}, .attemptResumed true {},
      .attemptOver, .afterReconnection 0 { reconnecting := true }, .reconnect 3 {},
      .attemptResumed true {}, .attemptResumed true {}, .attemptResumed true {},
      .repairPolled {}, .repairOver {}, .attemptResumed true {}, .attemptResumed true {}]
    _ (by decide +kernel) rfl rfl⟩

/-- The repair of the session that `connect()` is closing ends well: the manager
counts as connected, and then has neither client nor session. -/
theorem repair_revives_old_session : ¬ ∀ (es : List Event) (m : ClientManager),
    Transition.run step {} es = some m → m.disconnects = [] →
    m.undisposed.length ≤ 1 ∧
      (m.openSessions.filter fun p => decide (p.2 ∈ m.undisposed)).length ≤ 1 ∧
      (∀ c ∈ m.undisposed, m.client = some c) ∧
      (∀ p ∈ m.openSessions, p.2 ∈ m.undisposed → m.session = some p.1) ∧
      (m.isConnected = true → m.client.isSome = true ∧ m.session.isSome = true) := by
  intro h
  have hconnected := (h [.connect {}, .attemptResumed true {}, .attemptResumed true {},
    .attemptResumed true {}, .attemptOver, .afterReconnection 0 { reconnecting := true },
    .reconnect 3 {}, .repairPolled {}, .repairOver {}, .attemptResumed true {},
    .attemptResumed true { creates := false }] _ rfl rfl).2.2.2.2 rfl
  cases hconnected.1

end OpcUaSuite.Client
