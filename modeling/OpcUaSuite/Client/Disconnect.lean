import OpcUaSuite.Client.Held

/-!
# After a disconnect

Once `disconnect()` has resolved nothing of the connection is left and nothing is
on the way, however the rest of the manager goes on; only a disconnect that was
disturbed lets the connection come back.
-/

namespace OpcUaSuite.Client

/-- Nothing of a connection is left, and nothing is on the way. -/
structure Down (m : ClientManager) : Prop where
  client : m.client = none
  session : m.session = none
  isConnected : m.isConnected = false
  reconnectTimer : m.reconnectTimer = none
  attempt : m.attempt = none
  undisposed : m.undisposed = []

/-! ## What connecting leaves alone -/

/-- The lifecycle, the retry loop, the repair wait and the disconnects are the same. -/
structure Aside (m m' : ClientManager) : Prop where
  life : m'.life = m.life
  loop : m'.loop = m.loop
  repair : m'.repair = m.repair
  disconnects : m'.disconnects = m.disconnects
  nextDisconnect : m'.nextDisconnect = m.nextDisconnect

namespace Aside

theorem refl (m : ClientManager) : Aside m m := ⟨rfl, rfl, rfl, rfl, rfl⟩

theorem trans {m m' m'' : ClientManager} (h : Aside m m') (h' : Aside m' m'') : Aside m m'' :=
  ⟨h'.life.trans h.life, h'.loop.trans h.loop, h'.repair.trans h.repair,
    h'.disconnects.trans h.disconnects, h'.nextDisconnect.trans h.nextDisconnect⟩

/-- The connection counts as lost. -/
theorem lost (m : ClientManager) : Aside m { m with isConnected := false } :=
  ⟨rfl, rfl, rfl, rfl, rfl⟩

theorem scheduleReconnect (m : ClientManager) : Aside m m.scheduleReconnect := by
  unfold ClientManager.scheduleReconnect
  split <;> exact ⟨rfl, rfl, rfl, rfl, rfl⟩

theorem sessionClosed (m : ClientManager) (s : SessionId) (ok : Bool) :
    Aside m (m.sessionClosed s ok) := by
  unfold ClientManager.sessionClosed
  split <;> exact ⟨rfl, rfl, rfl, rfl, rfl⟩

theorem disposeCurrent (m : ClientManager) : Aside m m.disposeCurrent := by
  unfold ClientManager.disposeCurrent
  split <;> exact ⟨rfl, rfl, rfl, rfl, rfl⟩

theorem dropClient (m : ClientManager) (c? : Option ClientId) : Aside m (m.dropClient c?) := by
  unfold ClientManager.dropClient
  split <;> exact ⟨rfl, rfl, rfl, rfl, rfl⟩

variable {m m' : ClientManager}

/-- The attempt is suspended somewhere else. -/
theorem suspend (h : Aside m m') (life : Nat) (point : ConnectPoint) :
    Aside m (m'.suspend life point) :=
  ⟨h.life, h.loop, h.repair, h.disconnects, h.nextDisconnect⟩

theorem dispose (h : Aside m m') (c : ClientId) : Aside m (m'.dispose c) :=
  ⟨h.life, h.loop, h.repair, h.disconnects, h.nextDisconnect⟩

theorem releaseAttempt (h : Aside m m') (life : Nat) (c? : Option ClientId)
    (s? : Option SessionId) : Aside m (m'.releaseAttempt life c? s?) := by
  unfold ClientManager.releaseAttempt
  split
  · exact h.suspend life _
  · exact (h.dispose _).suspend life _
  · exact h.suspend life _

theorem failAttempt (h : Aside m m') (life : Nat) (c? : Option ClientId) :
    Aside m (m'.failAttempt life c?) := by
  unfold ClientManager.failAttempt
  split
  · exact h.releaseAttempt life c? none
  · exact (h.trans (scheduleReconnect m')).suspend life _

theorem createClient (h : Aside m m') (life : Nat) (a : Answers) :
    Aside m (m'.createClient life a) := by
  unfold ClientManager.createClient
  split
  · exact h.failAttempt life none
  · exact ⟨h.life, h.loop, h.repair, h.disconnects, h.nextDisconnect⟩

theorem connect (h : Aside m m') (a : Answers) : Aside m (m'.connect a) := by
  rcases connect_cases m' a with heq | ⟨-, -, heq⟩ <;> rw [heq]
  · exact h
  · unfold ClientManager.doConnect
    split
    · exact h.createClient m'.life a
    · dsimp only
      split <;> exact ⟨h.life, h.loop, h.repair, h.disconnects, h.nextDisconnect⟩

theorem attemptResumed {ok : Bool} {a : Answers} (hstep : m.attemptResumed ok a = some m') :
    Aside m m' := by
  unfold ClientManager.attemptResumed at hstep
  split at hstep
  next => cases hstep
  next life point hattempt =>
    cases point with
    | settled ok => cases hstep
    | closingSession previous s =>
        cases hstep
        exact ((sessionClosed m s ok).dispose previous).suspend life _
    | disposingPrevious previous =>
        cases hstep
        exact (dropClient m (some previous)).createClient life a
    | preparing c | connecting c =>
        cases hstep
        split
        · exact (refl m).failAttempt life (some c)
        · exact (refl m).suspend life _
    | creatingSession c =>
        dsimp only at hstep
        split at hstep
        next =>
          cases hstep
          have hopened : Aside m { m with
              nextSession := m.nextSession + 1
              openSessions := (m.nextSession, c) :: m.openSessions } :=
            ⟨rfl, rfl, rfl, rfl, rfl⟩
          split
          · exact hopened.releaseAttempt life _ _
          · exact ⟨rfl, rfl, rfl, rfl, rfl⟩
        next =>
          cases hstep
          exact ((refl m).dispose c).suspend life _
    | disposingRefused c =>
        cases hstep
        have hdropped : Aside m { m with client := none } := ⟨rfl, rfl, rfl, rfl, rfl⟩
        split
        · exact hdropped.failAttempt life _
        · exact (refl m).failAttempt life (some c)
    | abortedClosing c s =>
        cases hstep
        exact ((sessionClosed m s ok).dispose c).suspend life _
    | abortedDisposing c? =>
        cases hstep
        exact (dropClient m c?).suspend life _

end Aside

/-! ## Retry loops -/

/-- The retry loop, if any, began under a lifecycle that meets a condition. -/
def LoopLife (P : Nat → Prop) (m : ClientManager) : Prop :=
  ∀ loop, m.loop = some loop → P loop.life

theorem LoopLife.mono {P Q : Nat → Prop} {m : ClientManager} (h : LoopLife P m)
    (hPQ : ∀ life, P life → Q life) : LoopLife Q m :=
  fun loop hloop => hPQ _ (h loop hloop)

theorem LoopLife.aside {P : Nat → Prop} {m m' : ClientManager} (h : LoopLife P m)
    (ha : Aside m m') : LoopLife P m' :=
  fun loop hloop => h loop (ha.loop ▸ hloop)

theorem nextRound_loop {P : Nat → Prop} {loop : RetryLoop} (h : P loop.life) (m : ClientManager)
    (a : Answers) : LoopLife P (m.nextRound loop a) := by
  intro loop' hloop
  cases hloop
  exact h

/-- A disconnect goes on; the lifecycle and the loop stay as they are. -/
theorem disconnectResumed_life {m m' : ClientManager} {id : Nat} {ok : Bool} {a : Answers}
    (hstep : m.disconnectResumed id ok a = some m') : m'.life = m.life ∧ m'.loop = m.loop := by
  have hrelease : ∀ m : ClientManager,
      (m.releaseClient id).life = m.life ∧ (m.releaseClient id).loop = m.loop := by
    intro m
    unfold ClientManager.releaseClient
    split <;> exact ⟨rfl, rfl⟩
  unfold ClientManager.disconnectResumed at hstep
  split at hstep
  next => cases hstep
  next point hget =>
    cases point with
    | awaitingConnect => cases hstep
    | abortingConnect | offlineDisposing | finalDisposing =>
        cases hstep
        exact ⟨rfl, rfl⟩
    | connectOver =>
        cases hstep
        have ha := Aside.disposeCurrent m
        unfold ClientManager.shutDown
        split
        · exact ⟨ha.life, ha.loop⟩
        · exact ⟨rfl, rfl⟩
    | terminating =>
        cases hstep
        split
        · exact ⟨rfl, rfl⟩
        · exact hrelease m
    | closingSession s =>
        cases hstep
        have ha := Aside.sessionClosed m s ok
        have hr := hrelease { m.sessionClosed s ok with session := none }
        exact ⟨hr.1.trans ha.life, hr.2.trans ha.loop⟩

theorem disconnect_life (m : ClientManager) (a : Answers) :
    (m.disconnect a).life = m.life + 1 ∧ (m.disconnect a).loop = m.loop := by
  unfold ClientManager.disconnect
  dsimp only
  split
  · rw [disposeCurrent_newLife]
    exact ⟨rfl, (Aside.disposeCurrent m).loop⟩
  · unfold ClientManager.shutDown
    split
    · rw [disposeCurrent_newLife]
      exact ⟨rfl, (Aside.disposeCurrent m).loop⟩
    · exact ⟨rfl, rfl⟩

/-- A step that changes what is known of the disconnects. -/
def Event.movesDisconnects : Event → Bool
  | .disconnect _ | .disconnectResumed _ _ _ | .attemptOver => true
  | _ => false

/-- Lifecycles only go on, a retry loop is under the lifecycle of its call of
`reconnect()`, and only few steps move the disconnects. -/
structure GoesOn (P : Nat → Prop) (m : ClientManager) (e : Event) (m' : ClientManager) : Prop where
  life : m.life ≤ m'.life
  loop : LoopLife P m'
  disconnects : e.movesDisconnects = false → m'.disconnects = m.disconnects

theorem step_goesOn {P : Nat → Prop} {m m' : ClientManager} {e : Event} (h : LoopLife P m)
    (hreconnect : ∀ n a, e = .reconnect n a → P m.life) (hstep : step m e = some m') :
    GoesOn P m e m' := by
  have haside : ∀ m₁, Aside m m₁ → GoesOn P m e m₁ :=
    fun m₁ ha => ⟨Nat.le_of_eq ha.life.symm, h.aside ha, fun _ => ha.disconnects⟩
  have hsame : ∀ loop point, m.loop = some loop →
      LoopLife P { m with loop := some { loop with point := point } } := by
    intro loop point hloop loop' hloop'
    cases hloop'
    exact h loop hloop
  cases e with
  | connect a =>
      cases hstep
      exact haside _ ((Aside.refl m).connect a)
  | reconnect maxAttempts a =>
      cases hstep
      rcases reconnect_cases m maxAttempts a with heq | ⟨-, -, heq⟩ <;> rw [heq]
      · exact haside _ (Aside.refl m)
      · have ha := (Aside.lost m).connect a
        exact ⟨Nat.le_of_eq ha.life.symm, nextRound_loop (hreconnect maxAttempts a rfl) _ a,
          fun _ => ha.disconnects⟩
  | disconnect a =>
      cases hstep
      obtain ⟨hlife, hloop⟩ := disconnect_life m a
      exact ⟨hlife ▸ Nat.le_succ _, fun loop hsome => h loop (hloop ▸ hsome), fun hno => by cases hno⟩
  | markedDead =>
      cases hstep
      exact haside _ (Aside.lost m)
  | startReconnection c =>
      obtain ⟨-, rfl⟩ := heard_cases hstep
      exact haside _ (Aside.refl _)
  | connectionLost c =>
      obtain ⟨-, rfl⟩ := heard_cases hstep
      exact haside _ (Aside.lost m)
  | connectionFailed c =>
      obtain ⟨-, rfl⟩ := heard_cases hstep
      exact haside _ ((Aside.lost m).trans (Aside.scheduleReconnect _))
  | afterReconnection c a =>
      obtain ⟨-, rfl⟩ := heard_cases hstep
      rcases afterReconnection_cases m c a with heq | ⟨r, -, heq⟩ | ⟨-, -, -, heq⟩ <;> rw [heq]
      · exact haside _ (Aside.refl m)
      · exact ⟨Nat.le_refl _, h, fun _ => rfl⟩
      · exact haside _ ((Aside.lost m).connect a)
  | repairPolled a =>
      obtain ⟨r, rfl⟩ := repairPolled_cases hstep
      exact ⟨Nat.le_refl _, h, fun _ => rfl⟩
  | repairOver a =>
      obtain ⟨r, -, -, rfl | ⟨-, -, rfl⟩ | ⟨-, -, rfl⟩⟩ := repairOver_cases hstep
      · exact ⟨Nat.le_refl _, h, fun _ => rfl⟩
      · have ha := (Aside.lost { m with repair := none }).connect a
        exact ⟨Nat.le_of_eq ha.life.symm, LoopLife.aside (m := { m with repair := none }) h ha,
          fun _ => ha.disconnects⟩
      · exact ⟨Nat.le_refl _, h, fun _ => rfl⟩
  | attemptResumed ok a => exact haside _ (Aside.attemptResumed hstep)
  | attemptOver =>
      obtain ⟨life, ok, -, rfl⟩ := attemptOver_cases hstep
      refine ⟨Nat.le_refl _, fun loop' hloop' => ?_, fun hno => by cases hno⟩
      obtain ⟨loop, hloop, rfl⟩ := Option.map_eq_some_iff.mp hloop'
      unfold RetryLoop.wake
      split <;> exact h loop hloop
  | loopResumed a =>
      obtain ⟨loop, hloop, ⟨point, rfl⟩ | ⟨-, -, rfl⟩⟩ := loopResumed_cases hstep
      · exact ⟨Nat.le_refl _, hsame loop point hloop, fun _ => rfl⟩
      · have ha := (Aside.refl m).connect a
        exact ⟨Nat.le_of_eq ha.life.symm, nextRound_loop (h loop hloop) m a,
          fun _ => ha.disconnects⟩
  | loopOver =>
      cases loopOver_cases hstep
      exact ⟨Nat.le_refl _, (fun loop hnone => by cases hnone), fun _ => rfl⟩
  | timerFired a =>
      have hstopped : Aside m { m with reconnectTimer := none } := ⟨rfl, rfl, rfl, rfl, rfl⟩
      obtain ⟨life, -, rfl | ⟨-, rfl⟩⟩ := timerFired_cases hstep
      · exact haside _ hstopped
      · exact haside _ (hstopped.connect a)
  | disconnectResumed id ok a =>
      obtain ⟨hlife, hloop⟩ := disconnectResumed_life hstep
      exact ⟨Nat.le_of_eq hlife.symm, fun loop hsome => h loop (hloop ▸ hsome),
        fun hno => by cases hno⟩

/-! ## Nothing comes back -/

theorem Held.listening {m : ClientManager} (h : Held m) (hd : Down m) : m.listening = [] :=
  h.custody.listening_eq_nil hd.undisposed

theorem Down.finishDisconnect {m : ClientManager} (hd : Down m) (id : Nat) :
    Down (m.finishDisconnect id) :=
  ⟨hd.client, hd.session, rfl, hd.reconnectTimer, hd.attempt, hd.undisposed⟩

theorem Down.shutDown {m : ClientManager} (hd : Down m) (id : Nat) (a : Answers) :
    m.shutDown id a = m.suspendDisconnect id .terminating := by
  simp [ClientManager.shutDown, hd.client]

theorem Down.releaseClient {m : ClientManager} (hd : Down m) (id : Nat) :
    m.releaseClient id = m.finishDisconnect id := by
  simp [ClientManager.releaseClient, hd.client]

theorem Down.closeSession {m : ClientManager} (hd : Down m) (s : SessionId) (ok : Bool) :
    Down { m.sessionClosed s ok with session := none } ∧
      (m.sessionClosed s ok).nextSession = m.nextSession := by
  unfold ClientManager.sessionClosed
  split
  · exact ⟨⟨hd.client, rfl, hd.isConnected, hd.reconnectTimer, hd.attempt, hd.undisposed⟩, rfl⟩
  · exact ⟨⟨hd.client, rfl, hd.isConnected, hd.reconnectTimer, hd.attempt, hd.undisposed⟩, rfl⟩

theorem Down.disconnect {m : ClientManager} (hd : Down m) (a : Answers) :
    Down (m.disconnect a) ∧ (m.disconnect a).nextSession = m.nextSession := by
  have hended : Down { m with
      life := m.life + 1, reconnectTimer := none, nextDisconnect := m.nextDisconnect + 1 } :=
    ⟨hd.client, hd.session, hd.isConnected, rfl, hd.attempt, hd.undisposed⟩
  unfold ClientManager.disconnect
  dsimp only
  split
  next attempt hattempt => cases hd.attempt.symm.trans hattempt
  next =>
    rw [hended.shutDown]
    exact ⟨⟨hd.client, hd.session, hd.isConnected, rfl, hd.attempt, hd.undisposed⟩, rfl⟩

theorem Down.disconnectResumed {m m' : ClientManager} (hd : Down m) {id : Nat} {ok : Bool}
    {a : Answers} (hstep : m.disconnectResumed id ok a = some m') :
    Down m' ∧ m'.nextSession = m.nextSession := by
  have hsuspend : ∀ point, Down (m.suspendDisconnect id point) := fun _ =>
    ⟨hd.client, hd.session, hd.isConnected, hd.reconnectTimer, hd.attempt, hd.undisposed⟩
  unfold ClientManager.disconnectResumed at hstep
  split at hstep
  next => cases hstep
  next point _ =>
    cases point with
    | awaitingConnect => cases hstep
    | abortingConnect | offlineDisposing =>
        cases hstep
        exact ⟨hsuspend _, rfl⟩
    | connectOver =>
        cases hstep
        rw [hd.shutDown]
        exact ⟨hsuspend _, rfl⟩
    | terminating =>
        cases hstep
        simp only [hd.session, hd.releaseClient]
        exact ⟨hd.finishDisconnect id, rfl⟩
    | closingSession s =>
        cases hstep
        obtain ⟨hclosed, hsame⟩ := hd.closeSession s ok
        rw [hclosed.releaseClient]
        exact ⟨hclosed.finishDisconnect id, hsame⟩
    | finalDisposing =>
        cases hstep
        exact ⟨⟨rfl, hd.session, rfl, hd.reconnectTimer, hd.attempt, hd.undisposed⟩, rfl⟩

/-- Without a call of a consumer a manager that is down stays down, and no session is opened. -/
theorem Down.step {m m' : ClientManager} {e : Event} (hd : Down m) (h : Held m)
    (hloop : LoopLife (· < m.life) m) (hquiet : e.isConsumerCall = false)
    (hstep : step m e = some m') : Down m' ∧ m'.nextSession = m.nextSession := by
  have hunheard : ∀ c, c ∉ m.listening := fun c hc => by
    rw [h.listening hd] at hc
    cases hc
  cases e with
  | connect a => cases hquiet
  | reconnect maxAttempts a => cases hquiet
  | disconnect a =>
      cases hstep
      exact hd.disconnect a
  | markedDead =>
      cases hstep
      exact ⟨⟨hd.client, hd.session, rfl, hd.reconnectTimer, hd.attempt, hd.undisposed⟩, rfl⟩
  | startReconnection c | connectionLost c | connectionFailed c | afterReconnection c a =>
      exact absurd (heard_cases hstep).1 (hunheard c)
  | repairPolled a =>
      obtain ⟨r, rfl⟩ := repairPolled_cases hstep
      exact ⟨⟨hd.client, hd.session, hd.isConnected, hd.reconnectTimer, hd.attempt,
        hd.undisposed⟩, rfl⟩
  | repairOver a =>
      have hstale : ∀ r, m.stale r = true := by
        intro r
        simp [ClientManager.stale, hd.client]
      obtain ⟨r, -, -, rfl | ⟨hcurrent, -⟩ | ⟨hcurrent, -⟩⟩ := repairOver_cases hstep
      · exact ⟨⟨hd.client, hd.session, hd.isConnected, hd.reconnectTimer, hd.attempt,
          hd.undisposed⟩, rfl⟩
      · cases (hstale r).symm.trans hcurrent
      · cases (hstale r).symm.trans hcurrent
  | attemptResumed ok a =>
      simp only [Client.step, ClientManager.attemptResumed, hd.attempt] at hstep
      cases hstep
  | attemptOver =>
      obtain ⟨life, ok, hattempt, -⟩ := attemptOver_cases hstep
      cases hd.attempt.symm.trans hattempt
  | loopResumed a =>
      obtain ⟨loop, hsome, ⟨point, rfl⟩ | ⟨-, hlive, -⟩⟩ := loopResumed_cases hstep
      · exact ⟨⟨hd.client, hd.session, hd.isConnected, hd.reconnectTimer, hd.attempt,
          hd.undisposed⟩, rfl⟩
      · -- the loop belongs to a lifecycle that is over
        exact absurd (hloop loop hsome) (of_decide_eq_false hlive)
  | loopOver =>
      cases loopOver_cases hstep
      exact ⟨⟨hd.client, hd.session, hd.isConnected, hd.reconnectTimer, hd.attempt,
        hd.undisposed⟩, rfl⟩
  | timerFired a =>
      obtain ⟨life, htimer, -⟩ := timerFired_cases hstep
      cases hd.reconnectTimer.symm.trans htimer
  | disconnectResumed id ok a => exact hd.disconnectResumed hstep

/-! ## From the call to its end -/

/-- A disconnect that lets go of the last client is still suspended, or leaves nothing. -/
theorem releaseClient_resolves {m : ClientManager} {id other : Nat}
    (howned : m.client = none → m.undisposed = []) (hattempt : m.attempt = none)
    (hsession : m.session = none) (htimer : m.reconnectTimer = none)
    (hid : id ∈ InsertionMap.keys m.disconnects) :
    id ∈ InsertionMap.keys (m.releaseClient other).disconnects ∨ Down (m.releaseClient other) := by
  unfold ClientManager.releaseClient
  split
  next => exact Or.inl (InsertionMap.mem_keys_set.mpr (Or.inl hid))
  next hclient =>
    exact Or.inr ⟨hclient, hsession, rfl, htimer, hattempt, howned hclient⟩

theorem disconnectResumed_resolves {m m' : ClientManager} (h : Held m) {id other : Nat}
    {ok : Bool} {a : Answers} (hid : id ∈ InsertionMap.keys m.disconnects)
    (hstep : m.disconnectResumed other ok a = some m') :
    id ∈ InsertionMap.keys m'.disconnects ∨ Down m' := by
  have howned : m.client = none → m.undisposed = [] := by
    intro hclient
    refine h.custody.undisposed_eq_nil fun c hc => ?_
    cases hclient.symm.trans hc
  have hsuspend : ∀ (m₁ : ClientManager) point, m₁.disconnects = m.disconnects →
      id ∈ InsertionMap.keys (m₁.suspendDisconnect other point).disconnects := by
    intro m₁ point heq
    refine InsertionMap.mem_keys_set.mpr (Or.inl ?_)
    rwa [heq]
  unfold ClientManager.disconnectResumed at hstep
  split at hstep
  next => cases hstep
  next point hget =>
    have hmem := InsertionMap.mem_of_get? hget
    have hheld := h.disconnects.points _ hmem
    have htimer := h.disconnects.timer (List.ne_nil_of_mem hmem)
    cases point with
    | awaitingConnect => cases hstep
    | abortingConnect | offlineDisposing =>
        cases hstep
        exact Or.inl (hsuspend m _ rfl)
    | connectOver =>
        cases hstep
        unfold ClientManager.shutDown
        split
        · exact Or.inl (hsuspend _ _ (Aside.disposeCurrent m).disconnects)
        · exact Or.inl (hsuspend m _ rfl)
    | terminating =>
        cases hstep
        split
        next s hsession => exact Or.inl (hsuspend m _ rfl)
        next hsession => exact releaseClient_resolves howned hheld hsession htimer hid
    | closingSession s =>
        cases hstep
        unfold ClientManager.sessionClosed
        split
        · exact releaseClient_resolves (m := { m with
            openSessions := m.openSessions.filter (·.1 ≠ s), session := none })
            howned hheld rfl htimer hid
        · exact releaseClient_resolves (m := { m with session := none }) howned hheld rfl htimer hid
    | finalDisposing =>
        cases hstep
        exact Or.inr ⟨rfl, hheld.2.1, rfl, htimer, hheld.1, hheld.2.2⟩

theorem disconnect_suspends (m : ClientManager) (a : Answers) :
    m.nextDisconnect ∈ InsertionMap.keys (m.disconnect a).disconnects ∧
      ∀ id ∈ InsertionMap.keys m.disconnects,
        id ∈ InsertionMap.keys (m.disconnect a).disconnects := by
  have hset : ∀ (ds : InsertionMap Nat DisconnectPoint) point, ds = m.disconnects →
      m.nextDisconnect ∈ InsertionMap.keys (InsertionMap.set m.nextDisconnect point ds) ∧
        ∀ id ∈ InsertionMap.keys m.disconnects,
          id ∈ InsertionMap.keys (InsertionMap.set m.nextDisconnect point ds) := by
    rintro ds point rfl
    exact ⟨InsertionMap.mem_keys_set.mpr (Or.inr rfl),
      fun id hid => InsertionMap.mem_keys_set.mpr (Or.inl hid)⟩
  have hsame := (Aside.disposeCurrent m).disconnects
  unfold ClientManager.disconnect
  dsimp only
  split
  · rw [disposeCurrent_newLife]
    exact hset _ _ hsame
  · unfold ClientManager.shutDown
    split
    · rw [disposeCurrent_newLife]
      exact hset _ _ hsame
    · exact hset _ _ rfl

/-- A step that does not resolve a disconnect leaves it suspended. -/
theorem step_resolves {m m' : ClientManager} {e : Event} (h : Held m) {id : Nat}
    (hid : id ∈ InsertionMap.keys m.disconnects) (hstep : step m e = some m') :
    id ∈ InsertionMap.keys m'.disconnects ∨ Down m' := by
  by_cases hmoves : e.movesDisconnects = false
  · have hsame := (step_goesOn (P := fun _ => True) (fun _ _ => trivial) (fun _ _ _ => trivial)
      hstep).disconnects hmoves
    exact Or.inl (hsame ▸ hid)
  · cases e with
    | disconnect a =>
        cases hstep
        exact Or.inl ((disconnect_suspends m a).2 id hid)
    | disconnectResumed other ok a => exact disconnectResumed_resolves h hid hstep
    | attemptOver =>
        obtain ⟨life, ok, -, rfl⟩ := attemptOver_cases hstep
        obtain ⟨d, hd, rfl⟩ := List.mem_map.mp hid
        exact Or.inl (List.mem_map.mpr ⟨(d.1, d.2.wake), List.mem_map_of_mem hd, rfl⟩)
    | _ => exact absurd rfl hmoves

/-- What holds once a disconnect has begun: its end leaves nothing, and every
retry loop belongs to a lifecycle that is over. -/
structure Closing (id : Nat) (m : ClientManager) : Prop where
  held : Held m
  loop : LoopLife (· < m.life) m
  resolves : id ∈ InsertionMap.keys m.disconnects ∨ Down m

theorem closing_step (id : Nat) :
    Transition.Preserves step (fun m e => Undisturbed m e ∧ e.isConsumerCall = false)
      (Closing id) := by
  rintro m e m' h ⟨hundisturbed, hquiet⟩ hstep
  have hgoes := step_goesOn h.loop (fun n a he => by rw [he] at hquiet; cases hquiet) hstep
  refine ⟨held_step h.held hundisturbed hstep, ?_, ?_⟩
  · exact hgoes.loop.mono fun life hlt => Nat.lt_of_lt_of_le hlt hgoes.life
  · rcases h.resolves with hid | hd
    · exact step_resolves h.held hid hstep
    · exact Or.inr (hd.step h.held h.loop hquiet hstep).1

/-- What holds before: no retry loop is ahead of the lifecycle. -/
theorem open_step : Transition.Preserves step Undisturbed
    fun m => Held m ∧ LoopLife (· ≤ m.life) m := by
  rintro m e m' ⟨h, hloop⟩ hundisturbed hstep
  have hgoes := step_goesOn hloop (fun _ _ _ => Nat.le_refl _) hstep
  exact ⟨held_step h hundisturbed hstep,
    hgoes.loop.mono fun life hle => Nat.le_trans hle hgoes.life⟩

theorem Held.closing {m : ClientManager} (h : Held m) (hloop : LoopLife (· ≤ m.life) m)
    (a : Answers) : Closing m.nextDisconnect (m.disconnect a) := by
  obtain ⟨hlife, hloop'⟩ := disconnect_life m a
  refine ⟨h.disconnect a, ?_, Or.inl (disconnect_suspends m a).1⟩
  intro loop hsome
  rw [hlife]
  exact Nat.lt_succ_of_le (hloop loop (hloop' ▸ hsome))

/-- What holds from the end of a disconnect on: no session is opened. -/
structure Gone (sessions : Nat) (m : ClientManager) : Prop where
  held : Held m
  loop : LoopLife (· < m.life) m
  down : Down m
  sessions : m.nextSession = sessions

theorem gone_step (sessions : Nat) :
    Transition.Preserves step (fun m e => Undisturbed m e ∧ e.isConsumerCall = false)
      (Gone sessions) := by
  rintro m e m' h ⟨hundisturbed, hquiet⟩ hstep
  have hgoes := step_goesOn h.loop (fun n a he => by rw [he] at hquiet; cases hquiet) hstep
  obtain ⟨hd, hsame⟩ := h.down.step h.held h.loop hquiet hstep
  exact ⟨held_step h.held hundisturbed hstep,
    hgoes.loop.mono fun life hlt => Nat.lt_of_lt_of_le hlt hgoes.life, hd, hsame.trans h.sessions⟩

theorem Closing.gone {id : Nat} {m : ClientManager} (h : Closing id m)
    (hresolved : id ∉ InsertionMap.keys m.disconnects) : Gone m.nextSession m :=
  ⟨h.held, h.loop, h.resolves.resolve_left hresolved, rfl⟩

/-- Once a disconnect has resolved and no consumer has asked for a connection
since its call, nothing is left and nothing is on the way; the run goes on as
long as it likes, with no disconnect disturbed. -/
theorem down_once_resolved {es₁ es₂ : List Event} {a : Answers} {m₁ m : ClientManager}
    (hundisturbed : Transition.Along step Undisturbed {} (es₁ ++ .disconnect a :: es₂))
    (hquiet : ∀ e ∈ es₂, e.isConsumerCall = false)
    (hbefore : Transition.run step {} es₁ = some m₁)
    (hrun : Transition.run step (m₁.disconnect a) es₂ = some m)
    (hresolved : m₁.nextDisconnect ∉ InsertionMap.keys m.disconnects) :
    Down m ∧ ∀ p ∈ m.openSessions, p.2 ∉ m.undisposed := by
  obtain ⟨hok₁, hok⟩ := Transition.along_append hundisturbed hbefore
  obtain ⟨held₁, hloop₁⟩ := open_step.run ⟨held_initial, fun loop hnone => by cases hnone⟩
    hok₁ hbefore
  have hend := (closing_step _).run (held₁.closing hloop₁ a) ((hok.2 _ rfl).and_forall hquiet) hrun
  have hd := (hend.gone hresolved).down
  refine ⟨hd, fun p _ hp => ?_⟩
  rw [hd.undisposed] at hp
  cases hp

/-- A disconnect ends an attempt that is waiting for the server. -/
theorem down_from_connecting : ∃ m, Transition.run step {}
    [.connect {}, .attemptResumed true {}, .disconnect {}, .disconnectResumed 0 true {},
      .attemptResumed false {}, .attemptResumed true {}, .attemptOver,
      .disconnectResumed 0 true {}, .disconnectResumed 0 true {}] = some m ∧ Down m :=
  ⟨_, rfl, (@down_once_resolved [.connect {}, .attemptResumed true {}]
    [.disconnectResumed 0 true {}, .attemptResumed false {}, .attemptResumed true {}, .attemptOver,
      .disconnectResumed 0 true {}, .disconnectResumed 0 true {}] {} _ _ (by decide +kernel)
    (by decide) rfl rfl (by decide)).1⟩

/-- The connection fails while a disconnect closes the session: the timer outlives
the disconnect, and a session is opened that nobody asked for. -/
theorem connection_failed_revives : ¬ ∀ (es₁ es₂ : List Event) (a : Answers)
    (m₁ m : ClientManager), (∀ e ∈ es₂, e.isConsumerCall = false) →
    Transition.run step {} es₁ = some m₁ → Transition.run step (m₁.disconnect a) es₂ = some m →
    m₁.nextDisconnect ∉ InsertionMap.keys m.disconnects →
    Down m ∧ ∀ p ∈ m.openSessions, p.2 ∉ m.undisposed := by
  intro h
  have hdown := (h
    [.connect {}, .attemptResumed true {}, .attemptResumed true {}, .attemptResumed true {},
      .attemptOver]
    [.disconnectResumed 0 true {}, .connectionFailed 0, .disconnectResumed 0 true {},
      .disconnectResumed 0 true {}, .timerFired {}, .attemptResumed true {},
      .attemptResumed true {}, .attemptResumed true {}] {} _ _ (by decide) rfl rfl (by decide)).1
  cases hdown.session

end OpcUaSuite.Client
