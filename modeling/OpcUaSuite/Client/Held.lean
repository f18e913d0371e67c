import OpcUaSuite.Client.Custody

/-!
# The invariant of the manager

What holds between any two steps as long as no disconnect is disturbed: while one
is suspended no connect attempt begins, and no connection fails.
-/

namespace OpcUaSuite.Client

namespace ClientManager

/-- A `connect()` would begin an attempt. -/
def idle (m : ClientManager) : Bool := !m.isConnected && m.attempt.isNone

end ClientManager

/-- The step begins a connect attempt. -/
def beginsAttempt (m : ClientManager) : Event → Bool
  | .connect _ => m.idle
  | .reconnect _ a => m.loop.isNone && !(a.coolingDown && m.isConnected) && m.attempt.isNone
  | .afterReconnection c _ =>
      m.repair.isNone && m.session.isNone && decide (m.client = some c) && m.attempt.isNone
  | .repairOver a =>
      a.closed && m.attempt.isNone && m.repair.any fun r => r.ended && !m.stale r
  | .timerFired _ => m.idle && m.reconnectTimer.any fun life => !m.aborted life
  | .loopResumed _ => m.idle && m.loop.any fun loop =>
      decide (loop.point = .backingOff) && !m.aborted loop.life
  | _ => false

def Event.isConnectionFailed : Event → Bool
  | .connectionFailed _ => true
  | _ => false

/-- No disconnect is disturbed: while one is suspended no connect attempt begins
and no client reports a failed connection. -/
def Undisturbed (m : ClientManager) (e : Event) : Prop :=
  m.disconnects ≠ [] → beginsAttempt m e = false ∧ e.isConnectionFailed = false

instance (m : ClientManager) (e : Event) : Decidable (Undisturbed m e) :=
  inferInstanceAs (Decidable (_ → _))

def ConnectPoint.isSettled : ConnectPoint → Bool
  | .settled _ => true
  | _ => false

/-- What a suspended attempt relies on; `life` has been aborted when it is less
than `current`. -/
def PointHeld (client : Option ClientId) (session : Option SessionId)
    (undisposed : List ClientId) (nextClient life current : Nat) : ConnectPoint → Prop
  | .closingSession previous _ => client = some previous ∨ client = none
  | .disposingPrevious previous =>
      (client = some previous ∨ client = none) ∧ previous ∉ undisposed
  | .preparing c | .connecting c | .creatingSession c =>
      session = none ∧ c < nextClient ∧ (¬ life < current → client = some c) ∧
        (life < current → c ∉ undisposed)
  | .disposingRefused c | .abortedClosing c _ => session = none ∧ c ∉ undisposed
  | .abortedDisposing c? => session = none ∧ ∀ c, c? = some c → c ∉ undisposed
  | .settled _ => True

/-- What a suspended disconnect relies on. -/
def DisconnectPointHeld (attempt : Option Attempt) (session : Option SessionId)
    (undisposed : List ClientId) : DisconnectPoint → Prop
  | .abortingConnect | .awaitingConnect => True
  | .connectOver | .offlineDisposing | .terminating | .closingSession _ => attempt = none
  | .finalDisposing => attempt = none ∧ session = none ∧ undisposed = []

/-- While a disconnect is suspended no timer runs, and the attempt in flight is aborted. -/
structure DisconnectsHeld (disconnects : InsertionMap Nat DisconnectPoint) (nextDisconnect : Nat)
    (reconnectTimer : Option Nat) (current : Nat) (attempt : Option Attempt)
    (session : Option SessionId) (undisposed : List ClientId) : Prop where
  points : ∀ d ∈ disconnects, DisconnectPointHeld attempt session undisposed d.2
  timer : disconnects ≠ [] → reconnectTimer = none
  aborted : disconnects ≠ [] → ∀ life point, attempt = some ⟨life, point⟩ →
    point.isSettled = false → life < current
  numbers : ∀ d ∈ disconnects, d.1 < nextDisconnect
  nodup : (InsertionMap.keys disconnects).Nodup

namespace ClientManager

abbrev Custody (m : ClientManager) : Prop :=
  Client.Custody m.client m.session m.undisposed m.listening m.openSessions m.nextClient
    m.nextSession

abbrev PointHeld (m : ClientManager) (life : Nat) (point : ConnectPoint) : Prop :=
  Client.PointHeld m.client m.session m.undisposed m.nextClient life m.life point

abbrev DisconnectsHeld (m : ClientManager) : Prop :=
  Client.DisconnectsHeld m.disconnects m.nextDisconnect m.reconnectTimer m.life m.attempt m.session
    m.undisposed

end ClientManager

structure Held (m : ClientManager) : Prop where
  custody : m.Custody
  life : ∀ life point, m.attempt = some ⟨life, point⟩ → life ≤ m.life
  point : ∀ life point, m.attempt = some ⟨life, point⟩ → m.PointHeld life point
  disconnects : m.DisconnectsHeld

theorem held_initial : Held {} where
  custody := Custody.initial
  life _ _ h := by cases h
  point _ _ h := by cases h
  disconnects :=
    { points := fun _ h => by cases h
      timer := fun h => absurd rfl h
      aborted := fun h => absurd rfl h
      numbers := fun _ h => by cases h
      nodup := List.nodup_nil }

/-! ## An attempt in flight -/

/-- An attempt of a lifecycle can be in flight: the disconnects that are
suspended have aborted it and wait for it. -/
structure InFlight (disconnects : InsertionMap Nat DisconnectPoint) (nextDisconnect : Nat)
    (reconnectTimer : Option Nat) (current life : Nat) : Prop where
  le : life ≤ current
  waiting : ∀ d ∈ disconnects, d.2 = .abortingConnect ∨ d.2 = .awaitingConnect
  timer : disconnects ≠ [] → reconnectTimer = none
  aborted : disconnects ≠ [] → life < current
  numbers : ∀ d ∈ disconnects, d.1 < nextDisconnect
  nodup : (InsertionMap.keys disconnects).Nodup

abbrev ClientManager.InFlight (m : ClientManager) (life : Nat) : Prop :=
  Client.InFlight m.disconnects m.nextDisconnect m.reconnectTimer m.life life

theorem InFlight.of_quiet {m : ClientManager} (h : m.disconnects = []) : m.InFlight m.life where
  le := Nat.le_refl _
  waiting d hd := by
    rw [h] at hd
    cases hd
  timer hne := absurd h hne
  aborted hne := absurd h hne
  numbers d hd := by
    rw [h] at hd
    cases hd
  nodup := by
    rw [h]
    exact List.nodup_nil

theorem Held.inFlight {m : ClientManager} (h : Held m) {life : Nat} {point : ConnectPoint}
    (hattempt : m.attempt = some ⟨life, point⟩) (hpoint : point.isSettled = false) :
    m.InFlight life where
  le := h.life life point hattempt
  waiting d hd := by
    have hheld := h.disconnects.points d hd
    rw [hattempt] at hheld
    cases hd2 : d.2 with
    | abortingConnect => exact Or.inl rfl
    | awaitingConnect => exact Or.inr rfl
    | connectOver | offlineDisposing | terminating | closingSession s =>
        rw [hd2] at hheld
        cases hheld
    | finalDisposing =>
        rw [hd2] at hheld
        cases hheld.1
  timer := h.disconnects.timer
  aborted hne := h.disconnects.aborted hne life point hattempt hpoint
  numbers := h.disconnects.numbers
  nodup := h.disconnects.nodup

theorem not_mem_filter_ne (c : ClientId) (cs : List ClientId) : c ∉ cs.filter (· ≠ c) := by
  simp

theorem Held.suspend {m : ClientManager} {life : Nat} {point : ConnectPoint} (hc : m.Custody)
    (hi : m.InFlight life) (hp : m.PointHeld life point) : Held (m.suspend life point) where
  custody := hc
  life life' point' h := by
    cases h
    exact hi.le
  point life' point' h := by
    cases h
    exact hp
  disconnects :=
    { points := by
        intro d hd
        rcases hi.waiting d hd with hd | hd <;> rw [hd] <;> trivial
      timer := hi.timer
      aborted := by
        intro hne life' point' h _
        cases h
        exact hi.aborted hne
      numbers := hi.numbers
      nodup := hi.nodup }

theorem Held.releaseAttempt {m : ClientManager} {life : Nat} {c? : Option ClientId} (hc : m.Custody)
    (hi : m.InFlight life) (hsession : m.session = none) :
    Held (m.releaseAttempt life c? none) := by
  cases c? with
  | none => exact Held.suspend hc hi ⟨hsession, fun c h => by cases h⟩
  | some c =>
      refine Held.suspend (hc.dispose c) hi ⟨hsession, ?_⟩
      intro d hd
      cases hd
      exact not_mem_filter_ne c _

theorem Held.failAttempt {m : ClientManager} {life : Nat} {c? : Option ClientId} (hc : m.Custody)
    (hi : m.InFlight life) (hsession : m.session = none) : Held (m.failAttempt life c?) := by
  unfold ClientManager.failAttempt
  split
  next => exact Held.releaseAttempt hc hi hsession
  next hnot =>
    have hquiet : m.disconnects = [] := by
      by_contra hne
      exact hnot (decide_eq_true (hi.aborted hne))
    unfold ClientManager.scheduleReconnect
    split
    · exact Held.suspend hc hi trivial
    · refine Held.suspend hc ⟨hi.le, hi.waiting, ?_, hi.aborted, hi.numbers, hi.nodup⟩ trivial
      exact fun hne => absurd hquiet hne

theorem Held.createClient {m : ClientManager} {life : Nat} (hc : m.Custody) (hi : m.InFlight life)
    (hclient : m.client = none) (a : Answers) : Held (m.createClient life a) := by
  unfold ClientManager.createClient
  split
  next => exact Held.failAttempt hc hi (hc.sessionless hclient)
  next hnot =>
    simp only [Bool.or_eq_true, not_or, ClientManager.aborted, decide_eq_true_eq] at hnot
    exact Held.suspend (m := { m with
      client := some m.nextClient
      undisposed := m.nextClient :: m.undisposed
      listening := m.nextClient :: m.listening
      nextClient := m.nextClient + 1 }) (hc.create hclient)
      hi
      ⟨hc.sessionless hclient, Nat.lt_succ_self _, fun _ => rfl, fun h => absurd h hnot.1⟩

theorem Held.doConnect {m : ClientManager} (h : Held m) (hquiet : m.disconnects = [])
    (a : Answers) : Held (m.doConnect a) := by
  have hi := InFlight.of_quiet hquiet
  unfold ClientManager.doConnect
  split
  next hclient => exact Held.createClient h.custody hi hclient a
  next previous hclient =>
    dsimp only
    split
    next s _ =>
      exact Held.suspend (h.custody.unhear previous) hi (Or.inl hclient)
    next =>
      exact Held.suspend ((h.custody.unhear previous).dispose previous) hi
        ⟨Or.inl hclient, not_mem_filter_ne previous _⟩

theorem custody_sessionClosed {m : ClientManager} (h : m.Custody) (s : SessionId) (ok : Bool) :
    (m.sessionClosed s ok).Custody := by
  unfold ClientManager.sessionClosed
  split
  · exact h.closeSession s
  · exact h

theorem sessionClosed_fields (m : ClientManager) (s : SessionId) (ok : Bool) :
    (m.sessionClosed s ok).client = m.client ∧ (m.sessionClosed s ok).session = m.session ∧
      (m.sessionClosed s ok).undisposed = m.undisposed ∧
      (m.sessionClosed s ok).attempt = m.attempt ∧
      ((m.sessionClosed s ok).InFlight = m.InFlight) ∧
      ((m.sessionClosed s ok).disconnects = m.disconnects) := by
  unfold ClientManager.sessionClosed
  split <;> exact ⟨rfl, rfl, rfl, rfl, rfl, rfl⟩

/-! ## The awaits of an attempt -/

section Awaits

variable {m : ClientManager} {life : Nat} (hc : m.Custody) (hi : m.InFlight life)
include hc hi

/-- A step that can fail goes on to the next, or the attempt fails. -/
theorem Held.stepped {c : ClientId} (hsession : m.session = none) (point : ConnectPoint)
    (hp : m.PointHeld life point) (failed : Bool) :
    Held (if failed then m.failAttempt life (some c) else m.suspend life point) := by
  split
  · exact Held.failAttempt hc hi hsession
  · exact Held.suspend hc hi hp

theorem Held.previousDisposed {previous : ClientId}
    (hp : m.PointHeld life (.disposingPrevious previous)) (a : Answers) :
    Held ((m.dropClient (some previous)).createClient life a) := by
  obtain ⟨hclient, hgone⟩ := hp
  unfold ClientManager.dropClient
  split
  next heq =>
    refine Held.createClient (m := { m with client := none, session := none }) (hc.drop ?_) hi
      rfl a
    intro c hcur
    rw [Option.some.inj (hcur.symm.trans heq)]
    exact hgone
  next hne => exact Held.createClient hc hi (hclient.resolve_left hne) a

/-- A session that was created is kept, or released when the attempt was aborted. -/
theorem Held.sessionCreated {c : ClientId} (hp : m.PointHeld life (.creatingSession c)) :
    Held (if m.aborted life then
      { m with
        nextSession := m.nextSession + 1
        openSessions := (m.nextSession, c) :: m.openSessions }.releaseAttempt life (some c)
          (some m.nextSession)
    else
      { m with
        nextSession := m.nextSession + 1
        openSessions := (m.nextSession, c) :: m.openSessions
        session := some m.nextSession
        isConnected := true }.suspend life (.settled true)) := by
  obtain ⟨hsession, hfresh, hcurrent, hgone⟩ := hp
  split
  next haborted =>
    have hgone := hgone (of_decide_eq_true haborted)
    exact Held.suspend (hc.openDisposed hgone hfresh) hi ⟨hsession, hgone⟩
  next hlive =>
    have hcurrent := hcurrent fun hlt => hlive (decide_eq_true hlt)
    exact Held.suspend (hc.openSession hsession hcurrent) hi trivial

theorem Held.refusedDisposed {c : ClientId} (hp : m.PointHeld life (.disposingRefused c)) :
    Held ((if m.client = some c then { m with client := none } else m).failAttempt life
      (some c)) := by
  obtain ⟨hsession, hgone⟩ := hp
  split
  next heq =>
    have hdropped := hc.drop fun d hcur => by
      rw [Option.some.inj (hcur.symm.trans heq)]
      exact hgone
    refine Held.failAttempt (m := { m with client := none }) ?_ hi hsession
    change Custody none m.session _ _ _ _ _
    rw [hsession]
    exact hdropped
  next => exact Held.failAttempt hc hi hsession

theorem Held.abortedDisposed {client : Option ClientId}
    (hp : m.PointHeld life (.abortedDisposing client)) :
    Held ((m.dropClient client).suspend life (.settled false)) := by
  unfold ClientManager.dropClient
  split
  next heq => exact Held.suspend (hc.drop fun c hcur => hp.2 c (heq.symm.trans hcur)) hi trivial
  next => exact Held.suspend hc hi trivial

end Awaits

/-- One await of the attempt in flight. -/
theorem Held.attemptResumed {m m' : ClientManager} (h : Held m) {ok : Bool} {a : Answers}
    (hstep : m.attemptResumed ok a = some m') : Held m' := by
  unfold ClientManager.attemptResumed at hstep
  split at hstep
  next => cases hstep
  next life point hattempt =>
    have hc := h.custody
    have hp := h.point life point hattempt
    have hflight := h.inFlight hattempt
    cases point with
    | settled ok => cases hstep
    | closingSession previous s =>
        obtain ⟨hclient, -, -, -, hsame, -⟩ := sessionClosed_fields m s ok
        cases hstep
        refine Held.suspend ((custody_sessionClosed hc s ok).dispose previous) ?_ ⟨?_, ?_⟩
        · exact hsame ▸ hflight rfl
        · exact hclient ▸ hp
        · exact not_mem_filter_ne previous _
    | disposingPrevious previous =>
        cases hstep
        exact Held.previousDisposed hc (hflight rfl) hp a
    | preparing c =>
        cases hstep
        exact Held.stepped hc (hflight rfl) hp.1 (.connecting c) hp _
    | connecting c =>
        cases hstep
        exact Held.stepped hc (hflight rfl) hp.1 (.creatingSession c) hp _
    | creatingSession c =>
        dsimp only at hstep
        split at hstep
        next =>
          cases hstep
          exact Held.sessionCreated hc (hflight rfl) hp
        next =>
          cases hstep
          exact Held.suspend (hc.dispose c) (hflight rfl) ⟨hp.1, not_mem_filter_ne c _⟩
    | disposingRefused c =>
        cases hstep
        exact Held.refusedDisposed hc (hflight rfl) hp
    | abortedClosing c s =>
        obtain ⟨-, hsession, -, -, hsame, -⟩ := sessionClosed_fields m s ok
        cases hstep
        refine Held.suspend ((custody_sessionClosed hc s ok).dispose c) ?_ ⟨?_, ?_⟩
        · exact hsame ▸ hflight rfl
        · exact hsession ▸ hp.1
        · intro d hd
          cases hd
          exact not_mem_filter_ne c _
    | abortedDisposing c? =>
        cases hstep
        exact Held.abortedDisposed hc (hflight rfl) hp

theorem connect_cases (m : ClientManager) (a : Answers) :
    m.connect a = m ∨ (m.idle = true ∧ m.attempt = none ∧ m.connect a = m.doConnect a) := by
  unfold ClientManager.connect ClientManager.idle
  split
  next => exact Or.inl rfl
  next hconn =>
    split
    next => exact Or.inl rfl
    next hattempt => exact Or.inr ⟨by simp [hconn, hattempt], hattempt, rfl⟩

theorem Held.connect {m : ClientManager} (h : Held m) (a : Answers)
    (hquiet : m.idle = true → m.disconnects = []) : Held (m.connect a) := by
  rcases connect_cases m a with heq | ⟨hidle, -, heq⟩ <;> rw [heq]
  · exact h
  · exact h.doConnect (hquiet hidle) a

/-- What is not part of the invariant can change. -/
theorem Held.withFlags {m : ClientManager} (h : Held m) (isConnected : Bool)
    (loop : Option RetryLoop) (repair : Option RepairWait) :
    Held { m with isConnected := isConnected, loop := loop, repair := repair } :=
  ⟨h.custody, h.life, h.point, h.disconnects⟩

theorem Held.nextRound {m : ClientManager} (h : Held m) (loop : RetryLoop) (a : Answers)
    (hquiet : m.idle = true → m.disconnects = []) : Held (m.nextRound loop a) := by
  have hconnect := h.connect a hquiet
  exact ⟨hconnect.custody, hconnect.life, hconnect.point, hconnect.disconnects⟩

theorem Held.attemptOver {m m' : ClientManager} (h : Held m) (hstep : m.attemptOver = some m') :
    Held m' := by
  obtain ⟨life, ok, hattempt, rfl⟩ := attemptOver_cases hstep
  refine ⟨h.custody, (fun _ _ hnone => by cases hnone), (fun _ _ hnone => by cases hnone), ?_⟩
  have hkeys : InsertionMap.keys (m.disconnects.map fun d => (d.1, d.2.wake)) =
      InsertionMap.keys m.disconnects := by
    simp [InsertionMap.keys, Function.comp_def]
  constructor
  case points =>
    intro d hd
    obtain ⟨e, he, rfl⟩ := List.mem_map.mp hd
    have hheld := h.disconnects.points e he
    rw [hattempt] at hheld
    cases he2 : e.2 with
    | abortingConnect => trivial
    | awaitingConnect => exact rfl
    | connectOver | offlineDisposing | terminating | closingSession s =>
        rw [he2] at hheld
        cases hheld
    | finalDisposing =>
        rw [he2] at hheld
        cases hheld.1
  case timer => exact fun hne => h.disconnects.timer fun hnil => hne (by rw [hnil]; rfl)
  case aborted =>
    intro _ _ _ hnone
    cases hnone
  case numbers =>
    intro d hd
    obtain ⟨e, he, rfl⟩ := List.mem_map.mp hd
    exact h.disconnects.numbers e he
  case nodup =>
    rw [hkeys]
    exact h.disconnects.nodup

/-! ## Disconnects -/

/-- One more disconnect is suspended, or one goes on. -/
theorem Held.suspendDisconnect {m : ClientManager} (h : Held m) {id : Nat}
    {point : DisconnectPoint} (hid : id < m.nextDisconnect)
    (hpoint : DisconnectPointHeld m.attempt m.session m.undisposed point)
    (htimer : m.reconnectTimer = none)
    (haborted : ∀ life point, m.attempt = some ⟨life, point⟩ → point.isSettled = false →
      life < m.life) : Held (m.suspendDisconnect id point) where
  custody := h.custody
  life := h.life
  point := h.point
  disconnects :=
    { points := by
        intro d hd
        rcases InsertionMap.mem_of_mem_set hd with hd | rfl
        · exact h.disconnects.points d hd
        · exact hpoint
      timer := fun _ => htimer
      aborted := fun _ => haborted
      numbers := by
        intro d hd
        rcases InsertionMap.mem_of_mem_set hd with hd | rfl
        · exact h.disconnects.numbers d hd
        · exact hid
      nodup := InsertionMap.nodup_set h.disconnects.nodup }

theorem PointHeld.mono {client : Option ClientId} {session : Option SessionId}
    {undisposed fewer : List ClientId} {nextClient life current : Nat} {point : ConnectPoint}
    (h : PointHeld client session undisposed nextClient life current point)
    (hsub : fewer ⊆ undisposed) : PointHeld client session fewer nextClient life current point := by
  cases point with
  | closingSession _ _ | settled _ => exact h
  | disposingPrevious _ | disposingRefused _ | abortedClosing _ _ =>
      exact ⟨h.1, fun hc => h.2 (hsub hc)⟩
  | preparing _ | connecting _ | creatingSession _ =>
      exact ⟨h.1, h.2.1, h.2.2.1, fun hlt hc => h.2.2.2 hlt (hsub hc)⟩
  | abortedDisposing _ => exact ⟨h.1, fun c hc hmem => h.2 c hc (hsub hmem)⟩

theorem DisconnectPointHeld.mono {attempt : Option Attempt} {session : Option SessionId}
    {undisposed fewer : List ClientId} {point : DisconnectPoint}
    (h : DisconnectPointHeld attempt session undisposed point) (hsub : fewer ⊆ undisposed) :
    DisconnectPointHeld attempt session fewer point := by
  cases point with
  | finalDisposing =>
      refine ⟨h.1, h.2.1, List.eq_nil_iff_forall_not_mem.mpr fun c hc => ?_⟩
      have hmem := hsub hc
      rw [h.2.2] at hmem
      cases hmem
  | _ => exact h

theorem Held.dispose {m : ClientManager} (h : Held m) (c : ClientId) : Held (m.dispose c) where
  custody := h.custody.dispose c
  life := h.life
  point life point hattempt := (h.point life point hattempt).mono (List.filter_subset_self _)
  disconnects :=
    { points := fun d hd => (h.disconnects.points d hd).mono (List.filter_subset_self _)
      timer := h.disconnects.timer
      aborted := h.disconnects.aborted
      numbers := h.disconnects.numbers
      nodup := h.disconnects.nodup }

theorem Held.disposeCurrent {m : ClientManager} (h : Held m) : Held m.disposeCurrent := by
  unfold ClientManager.disposeCurrent
  split
  · exact h
  · exact h.dispose _

theorem disposeCurrent_fields (m : ClientManager) :
    m.disposeCurrent.client = m.client ∧ m.disposeCurrent.session = m.session ∧
      m.disposeCurrent.attempt = m.attempt ∧ m.disposeCurrent.reconnectTimer = m.reconnectTimer ∧
      m.disposeCurrent.life = m.life ∧ m.disposeCurrent.nextDisconnect = m.nextDisconnect ∧
      ∀ c, m.client = some c → c ∉ m.disposeCurrent.undisposed := by
  unfold ClientManager.disposeCurrent
  split
  next hclient =>
    refine ⟨rfl, rfl, rfl, rfl, rfl, rfl, ?_⟩
    intro c hc
    cases hclient.symm.trans hc
  next c hclient =>
    refine ⟨rfl, rfl, rfl, rfl, rfl, rfl, ?_⟩
    intro d hd
    cases hclient.symm.trans hd
    exact not_mem_filter_ne c _

/-- Without an attempt in flight the disconnect looks at the connection. -/
theorem Held.shutDown {m : ClientManager} (h : Held m) {id : Nat} (hid : id < m.nextDisconnect)
    (hattempt : m.attempt = none) (htimer : m.reconnectTimer = none) (a : Answers) :
    Held (m.shutDown id a) := by
  have hnone : ∀ life point, m.attempt = some ⟨life, point⟩ → point.isSettled = false →
      life < m.life := by
    intro life point hsome
    cases hattempt.symm.trans hsome
  obtain ⟨-, -, hattempt', htimer', hlife', hnext', -⟩ := disposeCurrent_fields m
  unfold ClientManager.shutDown
  split
  · exact h.disposeCurrent.suspendDisconnect (hnext' ▸ hid) (hattempt'.trans hattempt)
      (htimer'.trans htimer) (by rw [hattempt', hlife']; exact hnone)
  · exact h.suspendDisconnect hid hattempt htimer hnone

/-- A new lifecycle begins; the attempt in flight, if any, loses its client. -/
theorem Held.newLife {m : ClientManager} (h : Held m) :
    Held { m.disposeCurrent with
      life := m.life + 1, reconnectTimer := none, nextDisconnect := m.nextDisconnect + 1 } := by
  have hdisposed := h.disposeCurrent
  obtain ⟨hclient, hsession, hattempt, -, -, -, hgone⟩ := disposeCurrent_fields m
  constructor
  case custody => exact hdisposed.custody
  case life =>
    intro life point hsome
    exact Nat.le_succ_of_le (h.life life point (hattempt ▸ hsome))
  case point =>
    intro life point hsome
    have hsome' : m.attempt = some ⟨life, point⟩ := hattempt ▸ hsome
    have hle := h.life life point hsome'
    have hheld := h.point life point hsome'
    have hheld' := hdisposed.point life point hsome
    cases point with
    | preparing c | connecting c | creatingSession c =>
        refine ⟨hheld'.1, hheld'.2.1, fun hlive => absurd (Nat.lt_succ_of_le hle) hlive, ?_⟩
        intro _
        by_cases hlt : life < m.life
        · exact hheld'.2.2.2 (by rwa [(disposeCurrent_fields m).2.2.2.2.1])
        · exact hgone c (hheld.2.2.1 hlt)
    | _ => exact hheld'
  case disconnects =>
    have hdis := hdisposed.disconnects
    have hdisconnects : m.disposeCurrent.disconnects = m.disconnects := by
      unfold ClientManager.disposeCurrent
      split <;> rfl
    constructor
    case points => exact hdis.points
    case timer => exact fun _ => rfl
    case aborted =>
      intro _ life point hsome _
      exact Nat.lt_succ_of_le (h.life life point (hattempt ▸ hsome))
    case numbers =>
      intro d hd
      exact Nat.lt_succ_of_lt (h.disconnects.numbers d (hdisconnects ▸ hd))
    case nodup => exact hdis.nodup

theorem disposeCurrent_newLife (m : ClientManager) (life nextDisconnect : Nat) :
    { m with life := life, reconnectTimer := none, nextDisconnect := nextDisconnect }.disposeCurrent =
      { m.disposeCurrent with
        life := life, reconnectTimer := none, nextDisconnect := nextDisconnect } := by
  rcases m with ⟨_ | c, _⟩ <;> rfl

/-- A manager without an attempt in flight has no use for the facts about it. -/
theorem Held.of_idle {m : ClientManager} (hattempt : m.attempt = none) (hc : m.Custody)
    (hpoints : ∀ d ∈ m.disconnects, DisconnectPointHeld m.attempt m.session m.undisposed d.2)
    (htimer : m.disconnects ≠ [] → m.reconnectTimer = none)
    (hnumbers : ∀ d ∈ m.disconnects, d.1 < m.nextDisconnect)
    (hnodup : (InsertionMap.keys m.disconnects).Nodup) : Held m where
  custody := hc
  life life point hsome := by cases hattempt.symm.trans hsome
  point life point hsome := by cases hattempt.symm.trans hsome
  disconnects :=
    { points := hpoints
      timer := htimer
      aborted := fun _ life point hsome => by cases hattempt.symm.trans hsome
      numbers := hnumbers
      nodup := hnodup }

theorem Held.disconnect {m : ClientManager} (h : Held m) (a : Answers) : Held (m.disconnect a) := by
  unfold ClientManager.disconnect
  dsimp only
  split
  next attempt hattempt =>
    rw [disposeCurrent_newLife]
    refine h.newLife.suspendDisconnect (Nat.lt_succ_self _) trivial rfl ?_
    intro life point hsome _
    have hsome' : m.attempt = some ⟨life, point⟩ := (disposeCurrent_fields m).2.2.1 ▸ hsome
    exact Nat.lt_succ_of_le (h.life life point hsome')
  next hattempt =>
    refine Held.shutDown (m := { m with
      life := m.life + 1, reconnectTimer := none, nextDisconnect := m.nextDisconnect + 1 }) ?_
      (Nat.lt_succ_self _) hattempt rfl a
    exact Held.of_idle hattempt h.custody h.disconnects.points (fun _ => rfl)
      (fun d hd => Nat.lt_succ_of_lt (h.disconnects.numbers d hd)) h.disconnects.nodup

theorem Held.finishDisconnect {m : ClientManager} (h : Held m) (id : Nat) :
    Held (m.finishDisconnect id) where
  custody := h.custody
  life := h.life
  point := h.point
  disconnects :=
    { points := fun d hd => h.disconnects.points d (List.mem_filter.mp hd).1
      timer := fun hne => h.disconnects.timer fun hnil => hne (by
        simp [ClientManager.finishDisconnect, InsertionMap.erase, hnil])
      aborted := fun hne => h.disconnects.aborted fun hnil => hne (by
        simp [ClientManager.finishDisconnect, InsertionMap.erase, hnil])
      numbers := fun d hd => h.disconnects.numbers d (List.mem_filter.mp hd).1
      nodup := InsertionMap.nodup_filter h.disconnects.nodup }

/-- A disconnect without a session lets go of the client. -/
theorem Held.releaseClient {m : ClientManager} (h : Held m) {id : Nat} (hid : id < m.nextDisconnect)
    (hattempt : m.attempt = none) (hsession : m.session = none) (htimer : m.reconnectTimer = none) :
    Held (m.releaseClient id) := by
  unfold ClientManager.releaseClient
  split
  next c hclient =>
    refine (h.dispose c).suspendDisconnect hid ⟨hattempt, hsession, ?_⟩ htimer ?_
    · refine (h.dispose c).custody.undisposed_eq_nil fun d hd => ?_
      rw [Option.some.inj (hd.symm.trans hclient)]
      exact not_mem_filter_ne c _
    · intro life point hsome
      cases hattempt.symm.trans hsome
  next => exact h.finishDisconnect id

theorem DisconnectPointHeld.forgetSession {attempt : Option Attempt} {session : Option SessionId}
    {undisposed : List ClientId} {point : DisconnectPoint}
    (h : DisconnectPointHeld attempt session undisposed point) :
    DisconnectPointHeld attempt none undisposed point := by
  cases point with
  | finalDisposing => exact ⟨h.1, rfl, h.2.2⟩
  | _ => exact h

/-- The session of a disconnect is closed, and the client goes with what is left of it. -/
theorem Held.closeRelease {m : ClientManager} (h : Held m) {id : Nat} (hid : id < m.nextDisconnect)
    (hattempt : m.attempt = none) (htimer : m.reconnectTimer = none) (s : SessionId) (ok : Bool) :
    Held ({ m.sessionClosed s ok with session := none }.releaseClient id) := by
  have hc := custody_sessionClosed h.custody s ok
  have hsame : ∃ sessions, m.sessionClosed s ok = { m with openSessions := sessions } := by
    unfold ClientManager.sessionClosed
    split
    · exact ⟨_, rfl⟩
    · exact ⟨m.openSessions, rfl⟩
  obtain ⟨sessions, hsame⟩ := hsame
  rw [hsame] at hc ⊢
  unfold ClientManager.releaseClient
  dsimp only
  split
  next c hclient =>
    have hgone : ∀ d, m.client = some d → d ∉ m.undisposed.filter (· ≠ c) := by
      intro d hd
      rw [Option.some.inj (hd.symm.trans hclient)]
      exact not_mem_filter_ne c _
    refine Held.suspendDisconnect ?_ hid ⟨hattempt, rfl, ?_⟩ htimer ?_
    · exact Held.of_idle hattempt ((hc.dispose c).forgetSession hgone)
        (fun d hd => ((h.disconnects.points d hd).mono (List.filter_subset_self _)).forgetSession)
        (fun _ => htimer) h.disconnects.numbers h.disconnects.nodup
    · exact (hc.dispose c).undisposed_eq_nil hgone
    · intro life point hsome
      cases hattempt.symm.trans hsome
  next hclient =>
    refine Held.finishDisconnect ?_ id
    refine Held.of_idle hattempt (hc.forgetSession ?_)
      (fun d hd => (h.disconnects.points d hd).forgetSession)
      (fun _ => htimer) h.disconnects.numbers h.disconnects.nodup
    intro c hsome
    cases hclient.symm.trans hsome

theorem Held.disconnectResumed {m m' : ClientManager} (h : Held m) {id : Nat} {ok : Bool}
    {a : Answers} (hstep : m.disconnectResumed id ok a = some m') : Held m' := by
  unfold ClientManager.disconnectResumed at hstep
  split at hstep
  next => cases hstep
  next point hget =>
    have hmem := InsertionMap.mem_of_get? hget
    have hne : m.disconnects ≠ [] := List.ne_nil_of_mem hmem
    have hid := h.disconnects.numbers _ hmem
    have hheld := h.disconnects.points _ hmem
    have htimer := h.disconnects.timer hne
    have haborted := h.disconnects.aborted hne
    cases point with
    | abortingConnect =>
        cases hstep
        split
        next => exact h.suspendDisconnect hid trivial htimer haborted
        next hnone =>
          exact h.suspendDisconnect hid (Option.not_isSome_iff_eq_none.mp hnone) htimer haborted
    | awaitingConnect => cases hstep
    | connectOver =>
        cases hstep
        exact h.shutDown hid hheld htimer a
    | offlineDisposing =>
        cases hstep
        exact h.suspendDisconnect hid hheld htimer haborted
    | terminating =>
        cases hstep
        split
        next s hsession => exact h.suspendDisconnect hid hheld htimer haborted
        next hsession => exact h.releaseClient hid hheld hsession htimer
    | closingSession s =>
        cases hstep
        exact h.closeRelease hid hheld htimer s ok
    | finalDisposing =>
        obtain ⟨hattempt, hsession, hnil⟩ := hheld
        cases hstep
        have hdropped := h.custody.drop fun c _ hc => by
          rw [hnil] at hc
          cases hc
        refine Held.finishDisconnect ?_ id
        refine Held.of_idle hattempt ?_ h.disconnects.points h.disconnects.timer
          h.disconnects.numbers h.disconnects.nodup
        change Custody none m.session _ _ _ _ _
        rw [hsession]
        exact hdropped

theorem DisconnectsHeld.stopTimer {m : ClientManager} (h : m.DisconnectsHeld) :
    { m with reconnectTimer := none }.DisconnectsHeld where
  points := h.points
  timer _ := rfl
  aborted := h.aborted
  numbers := h.numbers
  nodup := h.nodup

theorem Held.scheduleReconnect {m : ClientManager} (h : Held m) (hquiet : m.disconnects = []) :
    Held m.scheduleReconnect := by
  unfold ClientManager.scheduleReconnect
  split
  next => exact h
  next =>
    refine ⟨h.custody, h.life, h.point, ?_⟩
    exact ⟨h.disconnects.points, fun hne => absurd hquiet hne, h.disconnects.aborted,
      h.disconnects.numbers, h.disconnects.nodup⟩

/-! ## Every step -/

/-- What every step keeps when it disturbs no disconnect. -/
theorem held_step : Transition.Preserves step Undisturbed Held := by
  intro m e m' h hok hstep
  have hquiet : beginsAttempt m e = true → m.disconnects = [] := by
    intro hbegins
    by_contra hne
    rw [(hok hne).1] at hbegins
    cases hbegins
  cases e with
  | connect a =>
      cases hstep
      exact h.connect a hquiet
  | reconnect maxAttempts a =>
      cases hstep
      rcases reconnect_cases m maxAttempts a with heq | ⟨hloop, hcooling, heq⟩ <;> rw [heq]
      · exact h
      · refine Held.nextRound (h.withFlags false m.loop m.repair) _ a fun hidle => hquiet ?_
        simp only [beginsAttempt, hloop, Option.isNone_none, Bool.true_and, hcooling,
          Bool.not_false]
        simpa [ClientManager.idle] using hidle
  | disconnect a =>
      cases hstep
      exact h.disconnect a
  | markedDead =>
      cases hstep
      exact h.withFlags false m.loop m.repair
  | startReconnection c =>
      obtain ⟨-, rfl⟩ := heard_cases hstep
      exact h
  | connectionLost c =>
      obtain ⟨-, rfl⟩ := heard_cases hstep
      exact h.withFlags false m.loop m.repair
  | connectionFailed c =>
      obtain ⟨-, rfl⟩ := heard_cases hstep
      refine (h.withFlags false m.loop m.repair).scheduleReconnect ?_
      by_contra hne
      cases (hok hne).2
  | afterReconnection c a =>
      obtain ⟨-, rfl⟩ := heard_cases hstep
      rcases afterReconnection_cases m c a with
        heq | ⟨r, -, heq⟩ | ⟨hrepair, hsession, hclient, heq⟩ <;> rw [heq]
      · exact h
      · exact h.withFlags m.isConnected m.loop (some r)
      · refine Held.connect (h.withFlags false m.loop m.repair) a fun hidle => hquiet ?_
        simpa [beginsAttempt, hrepair, hsession, hclient, ClientManager.idle] using hidle
  | repairPolled a =>
      obtain ⟨r, rfl⟩ := repairPolled_cases hstep
      exact h.withFlags m.isConnected m.loop r
  | repairOver a =>
      obtain ⟨r, hrepair, hended, rfl | ⟨hstale, hclosed, rfl⟩ | ⟨-, -, rfl⟩⟩ :=
        repairOver_cases hstep
      · exact h.withFlags m.isConnected m.loop none
      · refine Held.connect (h.withFlags false m.loop none) a fun hidle => hquiet ?_
        simpa [beginsAttempt, hrepair, hended, hstale, hclosed, ClientManager.idle] using hidle
      · exact h.withFlags true m.loop none
  | attemptResumed ok a => exact h.attemptResumed hstep
  | attemptOver => exact h.attemptOver hstep
  | loopResumed a =>
      obtain ⟨loop, hloop, ⟨point, rfl⟩ | ⟨hpoint, haborted, rfl⟩⟩ := loopResumed_cases hstep
      · exact h.withFlags m.isConnected _ m.repair
      · refine h.nextRound loop a fun hidle => hquiet ?_
        simp [beginsAttempt, hidle, hloop, hpoint, haborted]
  | loopOver =>
      cases loopOver_cases hstep
      exact h.withFlags m.isConnected none m.repair
  | timerFired a =>
      have hstopped : Held { m with reconnectTimer := none } :=
        ⟨h.custody, h.life, h.point, h.disconnects.stopTimer⟩
      obtain ⟨life, htimer, rfl | ⟨haborted, rfl⟩⟩ := timerFired_cases hstep
      · exact hstopped
      · refine hstopped.connect a fun hidle => hquiet ?_
        have hidle' : m.idle = true := hidle
        simpa [beginsAttempt, hidle', htimer, ClientManager.aborted] using haborted
  | disconnectResumed id ok a => exact h.disconnectResumed hstep

end OpcUaSuite.Client
