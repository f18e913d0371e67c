import OpcUaSuite.Nodes.PubSubConnection

/-!
# One transport for all consumers

What holds after any order of calls, timers and events: who holds which
transport, when it is closed, and what the publishers know of it. The counter
is one ahead for every call of `acquireTransport` that threw.
-/

namespace OpcUaSuite.Nodes

namespace SharedTransport

/-- The grace timer is the only timer, and it is pending only while nobody holds
the transport, until 500 ms after the last acquire at least. -/
def GraceKept (w : SharedTransport) : Prop :=
  (w.timers = [] ∧ w.node.graceTimer = none) ∨
    ∃ timer, w.timers = [timer] ∧ w.node.graceTimer = some timer.handle ∧ w.node.refCount = 0 ∧
      ∀ time, w.lastAcquire = some time → time + reconnectGraceMs ≤ timer.due

/-- The invariant of an open connection node, after `failed` acquires that threw. -/
structure Kept (failed : Nat) (w : SharedTransport) : Prop where
  counted : w.node.refCount = w.held.length + failed
  held : ∀ h ∈ w.held, w.node.sharedTransport = some h.transport
  current : ∀ t, w.node.sharedTransport = some t → t < w.created ∧ t ∉ w.closing
  closed : ∀ t, t < w.created → w.node.sharedTransport ≠ some t → t ∈ w.closing
  known : ∀ t ∈ w.closing, t < w.created
  grace : w.GraceKept
  past : ∀ time, w.lastAcquire = some time → time ≤ w.now
  idle : w.node.sharedTransport = none → w.node.transportConnected = false
  status : ∀ t, w.node.sharedTransport = some t →
    (w.node.transportConnected = true ↔ w.lastStatus t = some .connected)
  unheard : ∀ t, w.created ≤ t → w.lastStatus t = none
  ready : ∀ p ∈ w.node.statusCallbacks, w.ready p = w.node.transportConnected

theorem kept_init : Kept 0 {} where
  counted := rfl
  held := by simp
  current := by simp
  closed := by simp
  known := by simp
  grace := Or.inl ⟨rfl, rfl⟩
  past := by simp
  idle := fun _ => rfl
  status := by simp
  unheard := fun _ _ => rfl
  ready := by simp

/-- A call of `acquireTransport` that throws. -/
def Throws (w : SharedTransport) (e : SharedTransportEvent) : Prop :=
  w.node.sharedTransport = none ∧ ∃ consumer, e = .acquire consumer false

variable {failed : Nat} {w w' : SharedTransport} {e : SharedTransportEvent}

/-! ## Acquires -/

/-- Every call of `acquireTransport` counts its consumer first. -/
def counting (w : SharedTransport) : SharedTransport :=
  { w.clearGraceTimer with
    node := { w.clearGraceTimer.node with refCount := w.node.refCount + 1 }
    lastAcquire := some w.now }

def createTransport (w : SharedTransport) : SharedTransport :=
  { w with
    node := { w.node with sharedTransport := some w.created }
    created := w.created + 1 }

theorem acquire_shared {t : Nat} (hshared : w.node.sharedTransport = some t) (consumer : Nat)
    (creates : Bool) : w.acquireTransport consumer creates = w.counting.hold consumer t := by
  simp only [acquireTransport, clearGraceTimer, hshared, counting]

theorem acquire_creates (hshared : w.node.sharedTransport = none) (consumer : Nat) :
    w.acquireTransport consumer true =
      w.counting.createTransport.hold consumer w.created := by
  simp only [acquireTransport, clearGraceTimer, hshared, counting, createTransport, if_true]

theorem acquire_throws (hshared : w.node.sharedTransport = none) (consumer : Nat) :
    w.acquireTransport consumer false = w.counting := by
  simp [acquireTransport, clearGraceTimer, hshared, counting]

/-- A consumer that is counted and gets nothing is one that failed. -/
theorem kept_counting (h : Kept failed w) : Kept (failed + 1) w.counting where
  counted := by
    change w.node.refCount + 1 = w.held.length + (failed + 1)
    have := h.counted
    omega
  held := h.held
  current := h.current
  closed := h.closed
  known := h.known
  grace := by
    refine Or.inl ⟨?_, rfl⟩
    change w.timers.filter _ = []
    rcases h.grace with ⟨htimers, hgrace⟩ | ⟨timer, htimers, hgrace, -, -⟩
    · rw [htimers]
      rfl
    · simp [htimers, hgrace]
  past := by
    rintro time ⟨⟩
    exact Nat.le_refl _
  idle := h.idle
  status := h.status
  unheard := h.unheard
  ready := h.ready

theorem kept_createTransport (h : Kept failed w) (hshared : w.node.sharedTransport = none) :
    Kept failed w.createTransport where
  counted := h.counted
  held := by
    intro x hx
    cases hshared.symm.trans (h.held x hx)
  current := by
    rintro t ⟨⟩
    exact ⟨Nat.lt_succ_self _, fun hmem => Nat.lt_irrefl _ (h.known _ hmem)⟩
  closed := by
    intro t ht hne
    have hcreated : t ≠ w.created := fun heq => hne (congrArg some heq.symm)
    refine h.closed t (by change t < w.created + 1 at ht; omega) fun heq => ?_
    cases hshared.symm.trans heq
  known := fun t ht => Nat.lt_succ_of_lt (h.known t ht)
  grace := h.grace
  past := h.past
  idle := by rintro ⟨⟩
  status := by
    rintro t ⟨⟩
    change w.node.transportConnected = true ↔ w.lastStatus w.created = some .connected
    rw [h.idle hshared, h.unheard w.created (Nat.le_refl _)]
    simp
  unheard := fun t ht => h.unheard t (Nat.le_of_succ_le ht)
  ready := h.ready

theorem kept_hold {t : Nat} (h : Kept (failed + 1) w) (hshared : w.node.sharedTransport = some t)
    (consumer : Nat) : Kept failed (w.hold consumer t) where
  counted := by
    change w.node.refCount = (w.held.length + 1) + failed
    have := h.counted
    omega
  held := by
    rintro x (_ | ⟨_, hx⟩)
    · exact hshared
    · exact h.held x hx
  current := h.current
  closed := h.closed
  known := h.known
  grace := h.grace
  past := h.past
  idle := h.idle
  status := h.status
  unheard := h.unheard
  ready := h.ready

theorem kept_acquire (h : Kept failed w) (consumer : Nat) (creates : Bool) :
    (¬ Throws w (.acquire consumer creates) ∧
      Kept failed (w.acquireTransport consumer creates)) ∨
    (Throws w (.acquire consumer creates) ∧
      Kept (failed + 1) (w.acquireTransport consumer creates)) := by
  have hcounting := kept_counting h
  cases hshared : w.node.sharedTransport with
  | some t =>
      refine Or.inl ⟨fun hthrows => ?_, ?_⟩
      · cases hshared.symm.trans hthrows.1
      · rw [acquire_shared hshared]
        exact kept_hold hcounting hshared consumer
  | none =>
      cases creates with
      | true =>
          refine Or.inl ⟨fun hthrows => ?_, ?_⟩
          · obtain ⟨-, c, hc⟩ := hthrows
            cases hc
          · rw [acquire_creates hshared]
            exact kept_hold (kept_createTransport hcounting hshared) rfl consumer
      | false =>
          refine Or.inr ⟨⟨hshared, consumer, rfl⟩, ?_⟩
          rw [acquire_throws hshared]
          exact hcounting

/-! ## Releases and the grace timer -/

/-- `releaseTransport` up to the grace timer, for a consumer that held `x`. -/
def uncounting (w : SharedTransport) (x : Hold) : SharedTransport :=
  { w with
    held := w.held.erase x
    node := { w.node with refCount := w.node.refCount - 1 } }

theorem release_eq (w : SharedTransport) (x : Hold) :
    releaseTransport { w with held := w.held.erase x } =
      if (w.uncounting x).node.refCount = 0 ∧ (w.uncounting x).node.sharedTransport.isSome then
        (w.uncounting x).startGraceTimer
      else w.uncounting x := rfl

/-- There is no timer while somebody holds the transport. -/
theorem kept_uncounting (h : Kept failed w) {x : Hold} (hx : x ∈ w.held) :
    w.timers = [] ∧ Kept failed (w.uncounting x) := by
  have hlength := List.length_erase_of_mem hx
  have hpos := List.length_pos_of_mem hx
  have hcounted := h.counted
  have hgrace : w.timers = [] ∧ w.node.graceTimer = none := by
    rcases h.grace with hidle | ⟨timer, -, -, hzero, -⟩
    · exact hidle
    · omega
  exact ⟨hgrace.1, {
    counted := by
      change w.node.refCount - 1 = (w.held.erase x).length + failed
      omega
    held := fun y hy => h.held y (List.mem_of_mem_erase hy)
    current := h.current
    closed := h.closed
    known := h.known
    grace := Or.inl hgrace
    past := h.past
    idle := h.idle
    status := h.status
    unheard := h.unheard
    ready := h.ready }⟩

theorem kept_startGraceTimer (h : Kept failed w) (hzero : w.node.refCount = 0)
    (htimers : w.timers = []) : Kept failed w.startGraceTimer where
  counted := h.counted
  held := h.held
  current := h.current
  closed := h.closed
  known := h.known
  grace := by
    refine Or.inr ⟨⟨w.nextTimer, w.now + reconnectGraceMs⟩, ?_, rfl, hzero, fun time htime => ?_⟩
    · change w.timers ++ _ = _
      rw [htimers]
      rfl
    · exact Nat.add_le_add_right (h.past time htime) _
  past := h.past
  idle := h.idle
  status := h.status
  unheard := h.unheard
  ready := h.ready

theorem kept_release (h : Kept failed w) {x : Hold} (hx : x ∈ w.held) :
    Kept failed (releaseTransport { w with held := w.held.erase x }) := by
  obtain ⟨htimers, huncounting⟩ := kept_uncounting h hx
  rw [release_eq]
  split
  · rename_i hlast
    exact kept_startGraceTimer huncounting hlast.1 htimers
  · exact huncounting

/-- The grace timer is over; its callback has not looked at the counter yet. -/
def expire (w : SharedTransport) (timer : Timer) : SharedTransport :=
  { w with
    timers := w.timers.erase timer
    node := { w.node with graceTimer := none } }

/-- The callback of the grace timer finds that nobody came back. -/
def closeTransport (w : SharedTransport) (transport : Nat) : SharedTransport :=
  { w with
    node := { w.node with
      sharedTransport := none
      transportConnected := false
      statusCallbacks := [] }
    closing := transport :: w.closing }

theorem fire_none (hshared : w.node.sharedTransport = none) (timer : Timer) :
    graceTimerFires { w with timers := w.timers.erase timer } = w.expire timer := by
  simp only [graceTimerFires, hshared, expire]

theorem fire_some {t : Nat} (hshared : w.node.sharedTransport = some t)
    (hzero : w.node.refCount = 0) (timer : Timer) :
    graceTimerFires { w with timers := w.timers.erase timer } =
      (w.expire timer).closeTransport t := by
  simp only [graceTimerFires, hshared, hzero, if_true, expire, closeTransport]

/-- A timer that fires is the grace timer of a transport nobody holds. -/
theorem kept_expire (h : Kept failed w) {timer : Timer} (htimer : timer ∈ w.timers) :
    w.node.refCount = 0 ∧
      (∀ time, w.lastAcquire = some time → time + reconnectGraceMs ≤ timer.due) ∧
      (w.expire timer).timers = [] ∧ Kept failed (w.expire timer) := by
  rcases h.grace with ⟨hnone, -⟩ | ⟨timer', htimers, -, hzero, hdue⟩
  · rw [hnone] at htimer
    cases htimer
  rw [htimers, List.mem_singleton] at htimer
  subst htimer
  have hexpired : w.timers.erase timer = [] := by simp [htimers]
  exact ⟨hzero, hdue, hexpired, {
    counted := h.counted
    held := h.held
    current := h.current
    closed := h.closed
    known := h.known
    grace := Or.inl ⟨hexpired, rfl⟩
    past := h.past
    idle := h.idle
    status := h.status
    unheard := h.unheard
    ready := h.ready }⟩

theorem kept_closeTransport {t : Nat} (h : Kept failed w)
    (hshared : w.node.sharedTransport = some t) (hzero : w.node.refCount = 0)
    (htimers : w.timers = []) : Kept failed (w.closeTransport t) where
  counted := h.counted
  held := by
    have hcounted := h.counted
    have hempty : w.held = [] := List.eq_nil_of_length_eq_zero (by omega)
    change ∀ x ∈ w.held, _
    rw [hempty]
    intro x hx
    cases hx
  current := by rintro u ⟨⟩
  closed := by
    intro u hu _
    by_cases heq : u = t
    · exact heq ▸ List.mem_cons_self
    · refine List.mem_cons_of_mem _ (h.closed u hu fun hcurrent => heq ?_)
      exact Option.some.inj (hcurrent.symm.trans hshared)
  known := by
    rintro u (_ | ⟨_, hu⟩)
    · exact (h.current t hshared).1
    · exact h.known u hu
  grace := by
    rcases h.grace with hidle | ⟨timer, hpending, -⟩
    · exact Or.inl hidle
    · cases htimers.symm.trans hpending
  past := h.past
  idle := fun _ => rfl
  status := by rintro u ⟨⟩
  unheard := h.unheard
  ready := by
    intro p hp
    cases hp

theorem kept_fire (h : Kept failed w) {timer : Timer} (htimer : timer ∈ w.timers) :
    Kept failed (graceTimerFires { w with timers := w.timers.erase timer }) := by
  obtain ⟨hzero, -, hexpired, hexpire⟩ := kept_expire h htimer
  cases hshared : w.node.sharedTransport with
  | none =>
      rw [fire_none hshared]
      exact hexpire
  | some t =>
      rw [fire_some hshared hzero]
      exact kept_closeTransport hexpire hshared hzero hexpired

/-! ## Publishers and events -/

theorem kept_unregister (h : Kept failed w) (publisher : Nat) :
    Kept failed (w.unregisterStatusCallback publisher) :=
  { h with ready := fun p hp => h.ready p (List.mem_of_mem_filter hp) }

/-- The callback is in the Set, and the flag of its publisher is that of the
node: it was unset, and it is set when the transport is connected. -/
theorem startPublisher_eq (w : SharedTransport) (publisher : Nat) :
    w.startPublisher publisher = { w with
      ready := fun p =>
        if p = publisher then w.node.sharedTransport.isSome && w.node.transportConnected
        else w.ready p
      node := { w.node with
        statusCallbacks :=
          if publisher ∈ w.node.statusCallbacks then w.node.statusCallbacks
          else w.node.statusCallbacks ++ [publisher] } } := by
  unfold startPublisher registerStatusCallback
  cases hconnected : w.node.sharedTransport.isSome && w.node.transportConnected with
  | false => simp only [hconnected, Bool.false_eq_true, if_false]
  | true =>
      simp only [hconnected, if_true, mk.injEq, and_true, true_and]
      funext p
      split <;> rfl

theorem mem_of_mem_insert {callbacks : List Nat} {publisher p : Nat}
    (hp : p ∈ (if publisher ∈ callbacks then callbacks else callbacks ++ [publisher]))
    (hne : p ≠ publisher) : p ∈ callbacks := by
  split at hp
  · exact hp
  · simpa [hne] using hp

theorem kept_start (h : Kept failed w) (publisher : Nat) :
    Kept failed (w.startPublisher publisher) := by
  rw [startPublisher_eq]
  exact { h with
    ready := by
      intro p hp
      by_cases heq : p = publisher
      · simp only [heq, if_true]
        cases hshared : w.node.sharedTransport with
        | none => exact (h.idle hshared).symm
        | some t => rfl
      · simp only [heq, if_false]
        exact h.ready p (mem_of_mem_insert hp heq) }

/-- What an event makes of the flags depends on the flags alone. -/
theorem kept_notify (h : Kept failed w) :
    Kept failed (w.notify .error) := by
  refine { h with ready := fun p hp => ?_ }
  have hready := h.ready p hp
  simpa [notify, readiness] using hready

theorem readiness_iff (status : Status) (flag : Bool) :
    readiness status flag = true ↔
      status = .connected ∨ (status = .error ∧ flag = true) := by
  cases status <;> simp [readiness]

/-- The events of a transport that is not the current one are remembered, and
that is all. -/
theorem emits_other {t : Nat} (hother : w.node.sharedTransport ≠ some t) (status : Status) :
    w.emits t status = { w with lastStatus := fun u =>
      if u = t ∧ status ≠ .error then some status else w.lastStatus u } := by
  simp only [emits, fanOut, if_pos hother]

theorem emits_current {t : Nat} (hcurrent : w.node.sharedTransport = some t) (status : Status) :
    w.emits t status = { w with
      lastStatus := fun u => if u = t ∧ status ≠ .error then some status else w.lastStatus u
      node := { w.node with transportConnected := readiness status w.node.transportConnected }
      ready := fun p =>
        if p ∈ w.node.statusCallbacks then readiness status (w.ready p) else w.ready p } := by
  simp [emits, fanOut, hcurrent, notify]

/-- An event of the current transport sets the flag of the node and those of all
callbacks alike. -/
theorem kept_emits (h : Kept failed w) {t : Nat} (ht : t < w.created) (status : Status) :
    Kept failed (w.emits t status) := by
  have hunheard : ∀ u, w.created ≤ u →
      (if u = t ∧ status ≠ .error then some status else w.lastStatus u) = none := by
    intro u hu
    rw [if_neg fun hboth => by omega]
    exact h.unheard u hu
  by_cases hcurrent : w.node.sharedTransport = some t
  · rw [emits_current hcurrent]
    refine { h with
      idle := fun hnone => ?_
      status := fun u hu => ?_
      unheard := hunheard
      ready := fun p hp => ?_ }
    · cases hcurrent.symm.trans hnone
    · cases hcurrent.symm.trans hu
      change readiness status w.node.transportConnected = true ↔ _
      rw [readiness_iff, h.status t hcurrent]
      cases status <;> simp
    · change (if p ∈ w.node.statusCallbacks then _ else _) = _
      rw [if_pos hp, h.ready p hp]
  · rw [emits_other hcurrent]
    refine { h with
      status := fun u hu => ?_
      unheard := hunheard }
    have hne : u ≠ t := fun heq => hcurrent (heq ▸ hu)
    simpa [hne] using h.status u hu

/-! ## Runs -/

/-- What one event does to the invariant: it stays, and the counter is one more
ahead when `acquireTransport` threw. -/
theorem kept_step (h : Kept failed w) (hstep : w.step e = some w') :
    (¬ Throws w e ∧ Kept failed w') ∨ (Throws w e ∧ Kept (failed + 1) w') := by
  cases e with
  | acquire consumer creates =>
      cases hstep
      exact kept_acquire h consumer creates
  | release consumer =>
      refine Or.inl ⟨fun hthrows => (nomatch hthrows.2), ?_⟩
      simp only [step] at hstep
      split at hstep
      · rename_i x hfind
        cases hstep
        exact kept_release h (List.mem_of_find?_eq_some hfind)
      · cases hstep
  | start publisher =>
      cases hstep
      exact Or.inl ⟨fun hthrows => (nomatch hthrows.2), kept_start h publisher⟩
  | unregister publisher =>
      cases hstep
      exact Or.inl ⟨fun hthrows => (nomatch hthrows.2), kept_unregister h publisher⟩
  | wait ms =>
      cases hstep
      exact Or.inl ⟨fun hthrows => (nomatch hthrows.2),
        { h with past := fun time htime => Nat.le_add_right_of_le (h.past time htime) }⟩
  | fire handle =>
      refine Or.inl ⟨fun hthrows => (nomatch hthrows.2), ?_⟩
      simp only [step] at hstep
      split at hstep
      · rename_i timer hfind
        split at hstep
        · cases hstep
          exact kept_fire h (List.mem_of_find?_eq_some hfind)
        · cases hstep
      · cases hstep
  | emits t status =>
      refine Or.inl ⟨fun hthrows => (nomatch hthrows.2), ?_⟩
      simp only [step] at hstep
      split at hstep
      · rename_i ht
        cases hstep
        exact kept_emits h ht status
      · cases hstep
  | rejected t =>
      refine Or.inl ⟨fun hthrows => (nomatch hthrows.2), ?_⟩
      simp only [step] at hstep
      split at hstep
      · cases hstep
        exact kept_notify h
      · cases hstep

/-- After every run the counter is ahead by the number of acquires that threw. -/
theorem kept_run (es : List SharedTransportEvent) : ∀ {failed : Nat} {w w' : SharedTransport},
    Kept failed w → Transition.run step w es = some w' →
      ∃ failed', failed ≤ failed' ∧ Kept failed' w' ∧
        (failed' = failed ↔ Transition.Along step (fun w e => ¬ Throws w e) w es) := by
  induction es with
  | nil =>
      rintro failed w w' h ⟨⟩
      exact ⟨failed, Nat.le_refl _, h, by simp [Transition.Along]⟩
  | cons e es ih =>
      intro failed w w' h hrun
      obtain ⟨t, hstep, hrest⟩ := Transition.run_cons.mp hrun
      rcases kept_step h hstep with ⟨hok, hkept⟩ | ⟨hthrows, hkept⟩
      · obtain ⟨failed', hle, hkept', hiff⟩ := ih hkept hrest
        refine ⟨failed', hle, hkept', hiff.trans ⟨fun hall => ⟨hok, fun u hu => ?_⟩, fun hall =>
          hall.2 t hstep⟩⟩
        cases hstep.symm.trans hu
        exact hall
      · obtain ⟨failed', hle, hkept', -⟩ := ih hkept hrest
        exact ⟨failed', by omega, hkept',
          ⟨fun heq => by omega, fun hall => absurd hthrows hall.1⟩⟩

/-- Only a grace timer that fires closes a transport. -/
theorem closing_step (h : Kept failed w) (hstep : w.step e = some w') :
    w'.closing = w.closing ∨
      w.node.refCount = 0 ∧
        ∀ time, w.lastAcquire = some time → time + reconnectGraceMs ≤ w.now := by
  cases e with
  | acquire consumer creates =>
      cases hstep
      left
      cases hshared : w.node.sharedTransport with
      | some t =>
          rw [acquire_shared hshared]
          rfl
      | none =>
          cases creates with
          | true =>
              rw [acquire_creates hshared]
              rfl
          | false =>
              rw [acquire_throws hshared]
              rfl
  | release consumer =>
      simp only [step] at hstep
      split at hstep
      · rename_i x hfind
        cases hstep
        rw [release_eq]
        split
        · exact Or.inl rfl
        · exact Or.inl rfl
      · cases hstep
  | start publisher =>
      cases hstep
      rw [startPublisher_eq]
      exact Or.inl rfl
  | unregister publisher =>
      cases hstep
      exact Or.inl rfl
  | wait ms =>
      cases hstep
      exact Or.inl rfl
  | fire handle =>
      simp only [step] at hstep
      split at hstep
      · rename_i timer hfind
        split at hstep
        · rename_i hdue
          obtain ⟨hzero, hlast, -, -⟩ := kept_expire h (List.mem_of_find?_eq_some hfind)
          exact Or.inr ⟨hzero, fun time htime => Nat.le_trans (hlast time htime) hdue⟩
        · cases hstep
      · cases hstep
  | emits t status =>
      simp only [step] at hstep
      split at hstep
      · cases hstep
        by_cases hcurrent : w.node.sharedTransport = some t
        · rw [emits_current hcurrent]
          exact Or.inl rfl
        · rw [emits_other hcurrent]
          exact Or.inl rfl
      · cases hstep
  | rejected t =>
      simp only [step] at hstep
      split at hstep
      · cases hstep
        exact Or.inl rfl
      · cases hstep

/-! ## The lifecycle of the transport -/

/-- The counter counts the acquires that were not released, nobody holds a
transport that was closed, there is one open transport at most, the grace timer
waits only while the counter is zero, and the next event closes a transport only
then and 500 ms after the last acquire. -/
structure Lawful (w : SharedTransport) : Prop where
  counted : w.node.refCount = w.held.length
  live : ∀ h ∈ w.held, h.transport ∉ w.closing
  single : ∀ t u, t < w.created → u < w.created → t ∉ w.closing → u ∉ w.closing → t = u
  grace : w.timers ≠ [] → w.node.refCount = 0
  closes : ∀ e w', w.step e = some w' → w'.closing ≠ w.closing →
    w.node.refCount = 0 ∧ ∀ time, w.lastAcquire = some time → time + reconnectGraceMs ≤ w.now

/-- All of it but the counter holds of every run. -/
theorem lawful_iff (h : Kept failed w) : Lawful w ↔ failed = 0 := by
  refine ⟨fun hlawful => ?_, fun hzero => ?_⟩
  · have hcounted := h.counted
    have hheld := hlawful.counted
    omega
  · have hopen : ∀ t, t < w.created → t ∉ w.closing → w.node.sharedTransport = some t := by
      intro t ht hclosing
      by_contra hne
      exact hclosing (h.closed t ht hne)
    exact {
      counted := by
        have := h.counted
        omega
      live := fun x hx => (h.current _ (h.held x hx)).2
      single := fun t u ht hu htc huc =>
        Option.some.inj ((hopen t ht htc).symm.trans (hopen u hu huc))
      grace := by
        intro hpending
        rcases h.grace with ⟨hnone, -⟩ | ⟨timer, -, -, hcount, -⟩
        · exact absurd hnone hpending
        · exact hcount
      closes := fun e w' hstep hne => (closing_step h hstep).resolve_left hne }

instance decidableThrows (w : SharedTransport) (e : SharedTransportEvent) :
    Decidable (Throws w e) :=
  match e with
  | .acquire consumer false =>
      decidable_of_iff (w.node.sharedTransport = none)
        ⟨fun h => ⟨h, consumer, rfl⟩, fun h => h.1⟩
  | .acquire _ true => isFalse fun h => nomatch h.2
  | .release _ => isFalse fun h => nomatch h.2
  | .start _ => isFalse fun h => nomatch h.2
  | .unregister _ => isFalse fun h => nomatch h.2
  | .wait _ => isFalse fun h => nomatch h.2
  | .fire _ => isFalse fun h => nomatch h.2
  | .emits _ _ => isFalse fun h => nomatch h.2
  | .rejected _ => isFalse fun h => nomatch h.2

/-- The lifecycle is lawful after a run exactly when no acquire of it threw: such
an acquire stays in the counter for ever. -/
theorem lawful_run_iff {es : List SharedTransportEvent} {w : SharedTransport}
    (hrun : Transition.run step {} es = some w) :
    Lawful w ↔ Transition.Along step (fun w e => ¬ Throws w e) {} es := by
  obtain ⟨failed, -, hkept, hiff⟩ := kept_run es kept_init hrun
  exact (lawful_iff hkept).trans hiff

/-- Two publishers with a grace close between them; the first transport is late. -/
def replacement : List SharedTransportEvent :=
  [.start 1, .acquire 1 true, .emits 0 .connected, .release 1, .wait 500, .fire 0,
    .start 2, .acquire 2 true, .emits 1 .connected, .emits 0 .disconnected,
    .start 3, .acquire 3 true]

theorem lawful_replacement :
    ∃ w, Transition.run step {} replacement = some w ∧ Lawful w :=
  ⟨_, rfl, (@lawful_run_iff replacement _ rfl).mpr (by decide)⟩

theorem refCount_after_throw :
    ¬ ∀ es w, Transition.run step {} es = some w → Lawful w := by
  intro h
  have hcounted := (h [.acquire 1 false] _ rfl).counted
  cases hcounted

/-! ## Readiness -/

/-- A registered publisher that holds the transport is ready exactly when the
last event of the current transport, errors aside, was its connection; the
events of other transports change no flag. -/
theorem ready_run {es : List SharedTransportEvent} {w : SharedTransport}
    (hrun : Transition.run step {} es = some w) :
    (∀ p ∈ w.node.statusCallbacks, (∃ h ∈ w.held, h.consumer = p) →
      (w.ready p = true ↔
        ∃ t, w.node.sharedTransport = some t ∧ w.lastStatus t = some .connected)) ∧
    ∀ t status w', w.node.sharedTransport ≠ some t → w.step (.emits t status) = some w' →
      w'.ready = w.ready := by
  obtain ⟨failed, -, h, -⟩ := kept_run es kept_init hrun
  refine ⟨fun p hp hheld => ?_, fun t status w' hother hstep => ?_⟩
  · obtain ⟨x, hx, -⟩ := hheld
    have hshared := h.held x hx
    rw [h.ready p hp, h.status _ hshared]
    constructor
    · exact fun hlast => ⟨_, hshared, hlast⟩
    · rintro ⟨t, ht, hlast⟩
      cases hshared.symm.trans ht
      exact hlast
  · simp only [step] at hstep
    split at hstep
    · cases hstep
      rw [emits_other hother]
    · cases hstep

theorem ready_replacement :
    ∃ w, Transition.run step {} replacement = some w ∧
      w.ready 3 = true ∧
      (w.ready 3 = true ↔
        ∃ t, w.node.sharedTransport = some t ∧ w.lastStatus t = some .connected) :=
  ⟨_, rfl, rfl, (@ready_run replacement _ rfl).1 3 (by decide) ⟨⟨3, 1⟩, by decide, rfl⟩⟩

end SharedTransport

end OpcUaSuite.Nodes
