import OpcUaSuite.Nodes.BrowseCache

/-!
# What the browse cache keeps

Each endpoint has one manager at most and every other one has been told to
disconnect, whatever happens. A timer closes an idle manager only, unless it was
left behind by an entry that is gone.
-/

namespace OpcUaSuite.Nodes

open Js

namespace BrowseCache

/-! ## What the cache promises -/

/-- The manager is that of the endpoint, in the cache or in an attempt that is
still connecting. -/
def Owns (c : BrowseCache) (id : JsString) (mgr : Nat) : Prop :=
  (∃ e, InsertionMap.get? id c.browseConnections = some e ∧ e.mgr = mgr) ∨
    InsertionMap.get? id c.pendingConnections = some (.connecting mgr)

/-- An endpoint has one entry and one attempt at most, and both only when the
attempt has just given the entry its manager; every other manager was told to
disconnect; and a manager closed by a timer had not been used for the idle time. -/
structure OneConnection (c : BrowseCache) : Prop where
  entries : (InsertionMap.keys c.browseConnections).Nodup
  attempts : (InsertionMap.keys c.pendingConnections).Nodup
  single : ∀ id e a, InsertionMap.get? id c.browseConnections = some e →
    InsertionMap.get? id c.pendingConnections = some a → a = .settled (some e.mgr)
  told : ∀ mgr < c.nextManager, mgr ∈ c.told ∨ ∃ id, c.Owns id mgr
  idle : ∀ x ∈ c.idleCloses, ∀ u, x.lastUse = some u → u + idleTimeoutMs ≤ x.closedAt

/-- A timer that fires is the one of the connection it closes, or the manager of the
connection is idle all the same. -/
def Attentive (c : BrowseCache) : CacheEvent → Prop
  | .timerFired t => ∀ timer e, InsertionMap.get? t c.timers = some timer →
      timer.deadline ≤ c.now →
      InsertionMap.get? timer.endpointId c.browseConnections = some e →
      e.timer = t ∨ ∀ u, InsertionMap.get? e.mgr c.lastUse = some u → u + idleTimeoutMs ≤ c.now
  | _ => True

/-- What holds of the cache whatever happens: an entry has its own timer, which is
due no sooner than the idle time after the last use of its manager. -/
structure Sound (c : BrowseCache) : Prop where
  entries : (InsertionMap.keys c.browseConnections).Nodup
  attempts : (InsertionMap.keys c.pendingConnections).Nodup
  single : ∀ id e a, InsertionMap.get? id c.browseConnections = some e →
    InsertionMap.get? id c.pendingConnections = some a → a = .settled (some e.mgr)
  told : ∀ mgr < c.nextManager, mgr ∈ c.told ∨ ∃ id, c.Owns id mgr
  apart : ∀ id id' mgr, c.Owns id mgr → c.Owns id' mgr → id = id'
  numbered : ∀ id mgr, c.Owns id mgr → mgr < c.nextManager
  timed : ∀ id e, InsertionMap.get? id c.browseConnections = some e →
    ∃ u d, InsertionMap.get? e.mgr c.lastUse = some u ∧
      InsertionMap.get? e.timer c.timers = some ⟨id, d⟩ ∧ u + idleTimeoutMs ≤ d
  timers : ∀ t timer, InsertionMap.get? t c.timers = some timer → t < c.nextTimer
  past : ∀ mgr u, InsertionMap.get? mgr c.lastUse = some u → u ≤ c.now

theorem sound_initial : Sound {} where
  entries := List.nodup_nil
  attempts := List.nodup_nil
  single := nofun
  told := fun mgr h => absurd h (Nat.not_lt_zero mgr)
  apart := by
    rintro id id' mgr (⟨e, h, -⟩ | h)
    · cases h
    · cases h
  numbered := by
    rintro id mgr (⟨e, h, -⟩ | h)
    · cases h
    · cases h
  timed := nofun
  timers := nofun
  past := nofun

/-! ## What the parts of a step keep -/

/-- Managers stay with their endpoints, and one that its endpoint gives up is told. -/
theorem Sound.managers {c c' : BrowseCache} (h : Sound c)
    (howns : ∀ id mgr, c'.Owns id mgr → c.Owns id mgr) (hmore : ∀ mgr ∈ c.told, mgr ∈ c'.told)
    (hgiven : ∀ id mgr, c.Owns id mgr → mgr ∈ c'.told ∨ c'.Owns id mgr)
    (hnext : c'.nextManager = c.nextManager) :
    (∀ mgr < c'.nextManager, mgr ∈ c'.told ∨ ∃ id, c'.Owns id mgr) ∧
      (∀ id id' mgr, c'.Owns id mgr → c'.Owns id' mgr → id = id') ∧
      ∀ id mgr, c'.Owns id mgr → mgr < c'.nextManager := by
  rw [hnext]
  refine ⟨fun mgr hmgr => ?_, ?_, fun id mgr hown => h.numbered id mgr (howns id mgr hown)⟩
  · rcases h.told mgr hmgr with hold | ⟨id, hown⟩
    · exact .inl (hmore mgr hold)
    · exact (hgiven id mgr hown).imp_right fun hown' => ⟨id, hown'⟩
  · exact fun id id' mgr hown hown' => h.apart id id' mgr (howns id mgr hown) (howns id' mgr hown')

/-- A change of the attempts that starts none and ends none that connects. -/
theorem Sound.settling {c : BrowseCache} (h : Sound c) (id : JsString) {a : BrowseAttempt}
    {told : List Nat} (hentry : InsertionMap.get? id c.browseConnections = none)
    (ha : ∀ mgr, a ≠ .connecting mgr)
    (htold : ∀ mgr, InsertionMap.get? id c.pendingConnections = some (.connecting mgr) →
      mgr ∈ told) (hmore : ∀ mgr ∈ c.told, mgr ∈ told) :
    Sound { c with
      pendingConnections := InsertionMap.set id a c.pendingConnections
      told := told } := by
  have howns : ∀ id' mgr, Owns { c with
      pendingConnections := InsertionMap.set id a c.pendingConnections
      told := told } id' mgr → c.Owns id' mgr := by
    rintro id' mgr (hown | hown)
    · exact .inl hown
    · rcases InsertionMap.get?_set_eq_some.mp hown with ⟨-, rfl⟩ | ⟨-, hother⟩
      · exact absurd rfl (ha mgr)
      · exact .inr hother
  have hgiven : ∀ id' mgr, c.Owns id' mgr → mgr ∈ told ∨ Owns { c with
      pendingConnections := InsertionMap.set id a c.pendingConnections
      told := told } id' mgr := by
    rintro id' mgr (hown | hown)
    · exact .inr (.inl hown)
    · by_cases hid : id' = id
      · subst hid
        exact .inl (htold mgr hown)
      · exact .inr (.inr ((InsertionMap.get?_set_of_ne hid a _).trans hown))
  obtain ⟨hall, hapart, hnumbered⟩ := h.managers howns hmore hgiven rfl
  refine ⟨h.entries, InsertionMap.nodup_set h.attempts, ?_, hall, hapart, hnumbered, h.timed,
    h.timers, h.past⟩
  intro id' e b he hb
  rcases InsertionMap.get?_set_eq_some.mp hb with ⟨rfl, rfl⟩ | ⟨-, hother⟩
  · cases hentry.symm.trans he
  · exact h.single id' e b he hother

theorem Sound.remove {c : BrowseCache} (h : Sound c) {id : JsString} {e : BrowseConnection}
    (he : InsertionMap.get? id c.browseConnections = some e) : Sound (c.remove id e.mgr) := by
  have howns : ∀ id' mgr, (c.remove id e.mgr).Owns id' mgr → c.Owns id' mgr := by
    rintro id' mgr (⟨e', he', hmgr⟩ | hown)
    · exact .inl ⟨e', (InsertionMap.get?_erase_eq_some.mp he').2, hmgr⟩
    · exact .inr hown
  have hgiven : ∀ id' mgr, c.Owns id' mgr →
      mgr ∈ e.mgr :: c.told ∨ (c.remove id e.mgr).Owns id' mgr := by
    rintro id' mgr (⟨e', he', hmgr⟩ | hown)
    · by_cases hid : id' = id
      · subst hid
        cases he.symm.trans he'
        exact .inl (hmgr ▸ List.mem_cons_self)
      · exact .inr (.inl ⟨e', InsertionMap.get?_erase_eq_some.mpr ⟨hid, he'⟩, hmgr⟩)
    · exact .inr (.inr hown)
  obtain ⟨hall, hapart, hnumbered⟩ :=
    h.managers howns (fun mgr => List.mem_cons_of_mem e.mgr) hgiven rfl
  refine ⟨InsertionMap.nodup_filter h.entries, h.attempts, ?_, hall, hapart, hnumbered, ?_,
    h.timers, h.past⟩
  · exact fun id' e' a he' => h.single id' e' a (InsertionMap.get?_erase_eq_some.mp he').2
  · exact fun id' e' he' => h.timed id' e' (InsertionMap.get?_erase_eq_some.mp he').2

/-- A timer may go when no entry has it. -/
theorem Sound.clearTimer {c : BrowseCache} (h : Sound c) {t : Nat}
    (ht : ∀ id e, InsertionMap.get? id c.browseConnections = some e → e.timer ≠ t) :
    Sound (c.clearTimer t) := by
  refine ⟨h.entries, h.attempts, h.single, h.told, h.apart, h.numbered, ?_, ?_, h.past⟩
  · intro id e he
    obtain ⟨u, d, huse, htimer, hle⟩ := h.timed id e he
    exact ⟨u, d, huse, InsertionMap.get?_erase_eq_some.mpr ⟨ht id e he, htimer⟩, hle⟩
  · exact fun t' timer ht' => h.timers t' timer (InsertionMap.get?_erase_eq_some.mp ht').2

/-- The timer of an entry belongs to its endpoint. -/
theorem Sound.timer_of {c : BrowseCache} (h : Sound c) {id id' : JsString}
    {e e' : BrowseConnection} (he : InsertionMap.get? id c.browseConnections = some e)
    (he' : InsertionMap.get? id' c.browseConnections = some e') (ht : e.timer = e'.timer) :
    id = id' := by
  obtain ⟨u, d, -, htimer, -⟩ := h.timed id e he
  obtain ⟨u', d', -, htimer', -⟩ := h.timed id' e' he'
  rw [ht, htimer'] at htimer
  cases htimer
  rfl

/-- A timer that is set is no timer of an entry. -/
theorem Sound.timer_ne {c : BrowseCache} (h : Sound c) {id : JsString} {e : BrowseConnection}
    (he : InsertionMap.get? id c.browseConnections = some e) : e.timer ≠ c.nextTimer := by
  obtain ⟨u, d, -, htimer, -⟩ := h.timed id e he
  exact Nat.ne_of_lt (h.timers _ _ htimer)

theorem Sound.renew {c : BrowseCache} (h : Sound c) {id : JsString} {e : BrowseConnection}
    (he : InsertionMap.get? id c.browseConnections = some e) : Sound (c.renew id e) := by
  have howns : ∀ id' mgr, (c.renew id e).Owns id' mgr ↔ c.Owns id' mgr := by
    intro id' mgr
    refine or_congr ⟨?_, ?_⟩ Iff.rfl
    · rintro ⟨e', he', hmgr⟩
      rcases InsertionMap.get?_set_eq_some.mp he' with ⟨rfl, rfl⟩ | ⟨-, hother⟩
      · exact ⟨e, he, hmgr⟩
      · exact ⟨e', hother, hmgr⟩
    · rintro ⟨e', he', hmgr⟩
      by_cases hid : id' = id
      · subst hid
        cases he.symm.trans he'
        exact ⟨_, InsertionMap.get?_set_self id' _ _, hmgr⟩
      · exact ⟨e', (InsertionMap.get?_set_of_ne hid _ _).trans he', hmgr⟩
  obtain ⟨hall, hapart, hnumbered⟩ := h.managers (fun id' mgr => (howns id' mgr).mp)
    (fun mgr hmgr => hmgr) (fun id' mgr hown => .inr ((howns id' mgr).mpr hown)) rfl
  refine ⟨InsertionMap.nodup_set h.entries, h.attempts, ?_, hall, hapart, hnumbered, ?_, ?_,
    h.past⟩
  · intro id' e' a he' ha
    rcases InsertionMap.get?_set_eq_some.mp he' with ⟨rfl, rfl⟩ | ⟨-, hother⟩
    · exact h.single id' e a he ha
    · exact h.single id' e' a hother ha
  · intro id' e' he'
    rcases InsertionMap.get?_set_eq_some.mp he' with ⟨rfl, rfl⟩ | ⟨hid, hother⟩
    · obtain ⟨u, d, huse, -, -⟩ := h.timed id' e he
      exact ⟨u, _, huse, InsertionMap.get?_set_self _ _ _,
        Nat.add_le_add_right (h.past e.mgr u huse) idleTimeoutMs⟩
    · obtain ⟨u, d, huse, htimer, hle⟩ := h.timed id' e' hother
      refine ⟨u, d, huse, ?_, hle⟩
      refine (InsertionMap.get?_set_of_ne (h.timer_ne hother) _ _).trans ?_
      exact InsertionMap.get?_erase_eq_some.mpr
        ⟨fun ht => hid (h.timer_of hother he ht), htimer⟩
  · intro t timer ht
    rcases InsertionMap.get?_set_eq_some.mp ht with ⟨rfl, -⟩ | ⟨-, hother⟩
    · exact Nat.lt_succ_self _
    · exact Nat.lt_succ_of_lt (h.timers t timer (InsertionMap.get?_erase_eq_some.mp hother).2)

/-- A manager may be used when the timer of its entry has just been set. -/
theorem Sound.use {c : BrowseCache} (h : Sound c) {mgr : Nat}
    (hdue : ∀ id e, InsertionMap.get? id c.browseConnections = some e → e.mgr = mgr →
      ∃ d, InsertionMap.get? e.timer c.timers = some ⟨id, d⟩ ∧ c.now + idleTimeoutMs ≤ d) :
    Sound (c.use mgr) := by
  refine ⟨h.entries, h.attempts, h.single, h.told, h.apart, h.numbered, ?_, h.timers, ?_⟩
  · intro id e he
    by_cases hmgr : e.mgr = mgr
    · obtain ⟨d, htimer, hle⟩ := hdue id e he hmgr
      exact ⟨c.now, d, hmgr ▸ InsertionMap.get?_set_self _ _ _, htimer, hle⟩
    · obtain ⟨u, d, huse, htimer, hle⟩ := h.timed id e he
      exact ⟨u, d, (InsertionMap.get?_set_of_ne hmgr _ _).trans huse, htimer, hle⟩
  · intro mgr' u hu
    rcases InsertionMap.get?_set_eq_some.mp hu with ⟨-, rfl⟩ | ⟨-, hother⟩
    · exact Nat.le_refl _
    · exact h.past mgr' u hother

/-- The entry of an endpoint is the only one of its manager. -/
theorem Sound.entry_of {c : BrowseCache} (h : Sound c) {id id' : JsString}
    {e e' : BrowseConnection} (he : InsertionMap.get? id c.browseConnections = some e)
    (he' : InsertionMap.get? id' c.browseConnections = some e') (hmgr : e'.mgr = e.mgr) :
    id' = id :=
  h.apart id' id e.mgr (.inl ⟨e', he', hmgr⟩) (.inl ⟨e, he, rfl⟩)

theorem Sound.renew_use {c : BrowseCache} (h : Sound c) {id : JsString} {e : BrowseConnection}
    (he : InsertionMap.get? id c.browseConnections = some e) :
    Sound ((c.renew id e).use e.mgr) := by
  apply (h.renew he).use
  intro id' e' he' hmgr
  rcases InsertionMap.get?_set_eq_some.mp he' with ⟨rfl, rfl⟩ | ⟨hid, hother⟩
  · exact ⟨_, InsertionMap.get?_set_self _ _ _, Nat.le_refl _⟩
  · exact absurd (h.entry_of he hother hmgr) hid

/-- An attempt begins only where there is neither an entry nor an attempt. -/
theorem Sound.share {c : BrowseCache} (h : Sound c) {id : JsString}
    (hentry : InsertionMap.get? id c.browseConnections = none) (constructs : Bool) :
    Sound (c.share id constructs) := by
  rw [BrowseCache.share]
  split
  next => exact h
  next hnone =>
    cases constructs with
    | false =>
        refine h.settling id hentry nofun (fun mgr hmgr => ?_) fun _ hmem => hmem
        cases hnone.symm.trans hmgr
    | true =>
        have howns : ∀ id' mgr, Owns { c with
            pendingConnections := InsertionMap.set id (.connecting c.nextManager)
              c.pendingConnections
            nextManager := c.nextManager + 1 } id' mgr ↔
              c.Owns id' mgr ∨ id' = id ∧ mgr = c.nextManager := by
          intro id' mgr
          constructor
          · rintro (hown | hown)
            · exact .inl (.inl hown)
            · rcases InsertionMap.get?_set_eq_some.mp hown with ⟨rfl, hnew⟩ | ⟨-, hother⟩
              · cases hnew
                exact .inr ⟨rfl, rfl⟩
              · exact .inl (.inr hother)
          · rintro ((hown | hown) | ⟨rfl, rfl⟩)
            · exact .inl hown
            · refine .inr ((InsertionMap.get?_set_of_ne ?_ _ _).trans hown)
              rintro rfl
              cases hnone.symm.trans hown
            · exact .inr (InsertionMap.get?_set_self _ _ _)
        refine ⟨h.entries, InsertionMap.nodup_set h.attempts, ?_, ?_, ?_, ?_, h.timed, h.timers,
          h.past⟩
        · intro id' e a he ha
          rcases InsertionMap.get?_set_eq_some.mp ha with ⟨rfl, -⟩ | ⟨-, hother⟩
          · cases hentry.symm.trans he
          · exact h.single id' e a he hother
        · intro mgr hmgr
          rcases Nat.lt_succ_iff_lt_or_eq.mp hmgr with hold | rfl
          · exact (h.told mgr hold).imp_right fun ⟨id', hown⟩ =>
              ⟨id', (howns id' mgr).mpr (.inl hown)⟩
          · exact .inr ⟨id, (howns id _).mpr (.inr ⟨rfl, rfl⟩)⟩
        · intro id₁ id₂ mgr h₁ h₂
          rcases (howns _ _).mp h₁ with hold₁ | ⟨rfl, rfl⟩
          · rcases (howns _ _).mp h₂ with hold₂ | ⟨rfl, rfl⟩
            · exact h.apart id₁ id₂ mgr hold₁ hold₂
            · exact absurd (h.numbered id₁ _ hold₁) (Nat.lt_irrefl _)
          · rcases (howns _ _).mp h₂ with hold₂ | ⟨rfl, -⟩
            · exact absurd (h.numbered id₂ _ hold₂) (Nat.lt_irrefl _)
            · rfl
        · intro id' mgr hown
          rcases (howns _ _).mp hown with hold | ⟨-, rfl⟩
          · exact Nat.lt_succ_of_lt (h.numbered id' mgr hold)
          · exact Nat.lt_succ_self _

theorem Sound.getBrowseConnection {c : BrowseCache} (h : Sound c) (id : JsString)
    (constructs : Bool) : Sound (c.getBrowseConnection id constructs) := by
  rw [BrowseCache.getBrowseConnection]
  split
  next hnone => exact h.share hnone constructs
  next e he =>
    dsimp only
    split
    next => exact h.renew_use he
    next =>
      have hrenewed : InsertionMap.get? id (c.renew id e).browseConnections =
          some ⟨e.mgr, c.nextTimer⟩ := InsertionMap.get?_set_self _ _ _
      exact ((h.renew he).remove hrenewed).share (InsertionMap.get?_erase_self _ _) constructs

theorem Sound.no_entry {c : BrowseCache} (h : Sound c) {id : JsString} {a : BrowseAttempt}
    (ha : InsertionMap.get? id c.pendingConnections = some a) (hsettled : ∀ m, a ≠ .settled m) :
    InsertionMap.get? id c.browseConnections = none := by
  cases he : InsertionMap.get? id c.browseConnections with
  | none => rfl
  | some e => exact absurd (h.single id e a he ha) (hsettled _)

/-- A manager joins the cache where its attempt was connecting. -/
theorem Sound.adopt {c : BrowseCache} (h : Sound c) {id : JsString} {mgr : Nat}
    (hattempt : InsertionMap.get? id c.pendingConnections = some (.connecting mgr)) :
    Sound (c.adopt id mgr) := by
  have hentry := h.no_entry hattempt nofun
  have howns : ∀ id' m, (c.adopt id mgr).Owns id' m ↔ c.Owns id' m := by
    intro id' m
    by_cases hid : id' = id
    · subst hid
      constructor
      · rintro (⟨e, he, hm⟩ | hown)
        · rcases InsertionMap.get?_set_eq_some.mp he with ⟨-, rfl⟩ | ⟨hne, -⟩
          · exact .inr (hattempt.trans (by rw [← hm]))
          · exact absurd rfl hne
        · rcases InsertionMap.get?_set_eq_some.mp hown with ⟨-, hnew⟩ | ⟨hne, -⟩
          · cases hnew
          · exact absurd rfl hne
      · rintro (⟨e, he, -⟩ | hown)
        · cases hentry.symm.trans he
        · cases hattempt.symm.trans hown
          exact .inl ⟨_, InsertionMap.get?_set_self _ _ _, rfl⟩
    · have hconnections := InsertionMap.get?_set_of_ne hid
        (⟨mgr, c.nextTimer⟩ : BrowseConnection) c.browseConnections
      have hpending := InsertionMap.get?_set_of_ne hid
        (.settled (some mgr) : BrowseAttempt) c.pendingConnections
      exact or_congr (exists_congr fun e => and_congr_left' (by rw [← hconnections]; rfl))
        (by rw [← hpending]; rfl)
  obtain ⟨hall, hapart, hnumbered⟩ := h.managers (fun id' m => (howns id' m).mp)
    (fun m hm => hm) (fun id' m hown => .inr ((howns id' m).mpr hown)) rfl
  refine ⟨InsertionMap.nodup_set h.entries, InsertionMap.nodup_set h.attempts, ?_, hall, hapart,
    hnumbered, ?_, ?_, ?_⟩
  · intro id' e a he ha
    rcases InsertionMap.get?_set_eq_some.mp he with ⟨rfl, rfl⟩ | ⟨hid, hother⟩
    · rcases InsertionMap.get?_set_eq_some.mp ha with ⟨-, rfl⟩ | ⟨hne, -⟩
      · rfl
      · exact absurd rfl hne
    · exact h.single id' e a hother ((InsertionMap.get?_set_of_ne hid _ _).symm.trans ha)
  · intro id' e he
    rcases InsertionMap.get?_set_eq_some.mp he with ⟨rfl, rfl⟩ | ⟨hid, hother⟩
    · exact ⟨c.now, _, InsertionMap.get?_set_self _ _ _, InsertionMap.get?_set_self _ _ _,
        Nat.le_refl _⟩
    · obtain ⟨u, d, huse, htimer, hle⟩ := h.timed id' e hother
      have hmgr : e.mgr ≠ mgr := fun hm =>
        hid (h.apart id' id mgr (.inl ⟨e, hother, hm⟩) (.inr hattempt))
      exact ⟨u, d, (InsertionMap.get?_set_of_ne hmgr _ _).trans huse,
        (InsertionMap.get?_set_of_ne (h.timer_ne hother) _ _).trans htimer, hle⟩
  · intro t timer ht
    rcases InsertionMap.get?_set_eq_some.mp ht with ⟨rfl, -⟩ | ⟨-, hother⟩
    · exact Nat.lt_succ_self _
    · exact Nat.lt_succ_of_lt (h.timers t timer hother)
  · intro m u hu
    rcases InsertionMap.get?_set_eq_some.mp hu with ⟨-, rfl⟩ | ⟨-, hother⟩
    · exact Nat.le_refl _
    · exact h.past m u hother

theorem Sound.closeBrowseConnection {c : BrowseCache} (h : Sound c) (id : JsString) :
    Sound (c.closeBrowseConnection id) := by
  rw [BrowseCache.closeBrowseConnection]
  split
  next => exact h
  next e he =>
    apply (h.remove he).clearTimer
    intro id' e' he' ht
    obtain ⟨hid, hother⟩ := InsertionMap.get?_erase_eq_some.mp he'
    exact hid (h.timer_of hother he ht)

theorem Sound.closeAll {c : BrowseCache} (h : Sound c) (ids : List JsString) :
    Sound (ids.foldl BrowseCache.closeBrowseConnection c) := by
  induction ids generalizing c with
  | nil => exact h
  | cons id ids ih => exact ih (h.closeBrowseConnection id)

/-- The attempt of an endpoint is over once it has settled. -/
theorem Sound.attemptOver {c : BrowseCache} (h : Sound c) {id : JsString} {m : Option Nat}
    (hattempt : InsertionMap.get? id c.pendingConnections = some (.settled m)) :
    Sound { c with pendingConnections := InsertionMap.erase id c.pendingConnections } := by
  have howns : ∀ id' mgr, Owns { c with
      pendingConnections := InsertionMap.erase id c.pendingConnections } id' mgr ↔
        c.Owns id' mgr := by
    intro id' mgr
    refine or_congr Iff.rfl (InsertionMap.get?_erase_eq_some.trans (and_iff_right_of_imp ?_))
    rintro hown rfl
    cases hattempt.symm.trans hown
  obtain ⟨hall, hapart, hnumbered⟩ := h.managers (fun id' mgr => (howns id' mgr).mp)
    (fun mgr hmgr => hmgr) (fun id' mgr hown => .inr ((howns id' mgr).mpr hown)) rfl
  refine ⟨h.entries, InsertionMap.nodup_filter h.attempts, ?_, hall, hapart, hnumbered, h.timed,
    h.timers, h.past⟩
  exact fun id' e a he ha => h.single id' e a he (InsertionMap.get?_erase_eq_some.mp ha).2

/-- The connection a timer closes, and the timer itself, leave nothing behind. -/
theorem Sound.idleClose {c : BrowseCache} (h : Sound c) {t : Nat} {id : JsString}
    {e : BrowseConnection} (he : InsertionMap.get? id c.browseConnections = some e)
    (hendpoint : ∀ id' e', InsertionMap.get? id' c.browseConnections = some e' → e'.timer = t →
      id' = id) :
    Sound (((c.clearTimer t).recordIdleClose e.mgr).closeBrowseConnection id) := by
  have hlater : ∀ id' e', InsertionMap.get? id' (c.remove id e.mgr).browseConnections =
      some e' → e'.timer ≠ t ∧ e'.timer ≠ e.timer := by
    intro id' e' he'
    obtain ⟨hid, hother⟩ := InsertionMap.get?_erase_eq_some.mp he'
    exact ⟨fun ht => hid (hendpoint id' e' hother ht), fun ht => hid (h.timer_of hother he ht)⟩
  have hclosed : Sound (((c.remove id e.mgr).clearTimer t).clearTimer e.timer) :=
    ((h.remove he).clearTimer fun id' e' he' => (hlater id' e' he').1).clearTimer
      fun id' e' he' => (hlater id' e' he').2
  have hfound : InsertionMap.get? id
      ((c.clearTimer t).recordIdleClose e.mgr).browseConnections = some e := he
  rw [BrowseCache.closeBrowseConnection, hfound]
  exact ⟨hclosed.entries, hclosed.attempts, hclosed.single, hclosed.told, hclosed.apart,
    hclosed.numbered, hclosed.timed, hclosed.timers, hclosed.past⟩

/-- A timer closes the connection of its endpoint, which is its own or a later one. -/
theorem Sound.timerFired {c c' : BrowseCache} (h : Sound c) {t : Nat}
    (hstep : c.timerFired t = some c') : Sound c' := by
  obtain ⟨timer, htimer, -, hcases⟩ := timerFired_cases hstep
  have hendpoint : ∀ id e, InsertionMap.get? id c.browseConnections = some e → e.timer = t →
      id = timer.endpointId := by
    intro id e he ht
    obtain ⟨u, d, -, hd, -⟩ := h.timed id e he
    rw [ht, htimer] at hd
    cases hd
    rfl
  rcases hcases with ⟨hnone, rfl⟩ | ⟨e, he, rfl⟩
  · refine h.clearTimer fun id e he ht => ?_
    obtain rfl := hendpoint id e he ht
    cases hnone.symm.trans he
  · exact h.idleClose he hendpoint

/-- An attempt that fails is told to disconnect before it settles. -/
theorem Sound.connectSettled {c c' : BrowseCache} (h : Sound c) {id : JsString} {ok : Bool}
    (hstep : c.connectSettled id ok = some c') : Sound c' := by
  obtain ⟨mgr, hattempt, rfl⟩ := connectSettled_cases hstep
  cases ok with
  | true => exact h.adopt hattempt
  | false =>
      have hconnecting : ∀ m, BrowseAttempt.connecting mgr ≠ .settled m := by
        intro m heq
        cases heq
      have hdisconnecting : ∀ m, BrowseAttempt.disconnecting mgr ≠ .connecting m := by
        intro m heq
        cases heq
      refine h.settling id (h.no_entry hattempt hconnecting) hdisconnecting (fun m hm => ?_)
        fun m hm => List.mem_cons_of_mem mgr hm
      cases hattempt.symm.trans hm
      exact List.mem_cons_self

theorem Sound.disconnectSettled {c c' : BrowseCache} (h : Sound c) {id : JsString}
    (hstep : c.disconnectSettled id = some c') : Sound c' := by
  obtain ⟨mgr, hattempt, rfl⟩ := disconnectSettled_cases hstep
  have hdisconnecting : ∀ m, BrowseAttempt.disconnecting mgr ≠ .settled m := by
    intro m heq
    cases heq
  have hsettled : ∀ m, BrowseAttempt.settled none ≠ .connecting m := by
    intro m heq
    cases heq
  refine h.settling id (h.no_entry hattempt hdisconnecting) hsettled (fun m hm => ?_)
    fun m hm => hm
  cases hattempt.symm.trans hm

theorem Sound.step {c c' : BrowseCache} {ev : CacheEvent} (h : Sound c)
    (hstep : c.step ev = some c') : Sound c' := by
  cases ev with
  | wait ms =>
      cases hstep
      exact { h with past := fun mgr u hu => Nat.le_add_right_of_le (h.past mgr u hu) }
  | request id constructs =>
      cases hstep
      exact h.getBrowseConnection id constructs
  | connectSettled id ok => exact h.connectSettled hstep
  | disconnectSettled id => exact h.disconnectSettled hstep
  | attemptOver id =>
      obtain ⟨m, hattempt, rfl⟩ := attemptOver_cases hstep
      exact h.attemptOver hattempt
  | connectionChanged mgr isConnected =>
      cases hstep
      exact ⟨h.entries, h.attempts, h.single, h.told, h.apart, h.numbered, h.timed, h.timers,
        h.past⟩
  | timerFired t => exact h.timerFired hstep
  | disconnectRequest id =>
      cases hstep
      exact h.closeBrowseConnection id
  | flowsStopped =>
      cases hstep
      exact h.closeAll _

/-! ## The timers -/

theorem idleCloses_share (c : BrowseCache) (id : JsString) (constructs : Bool) :
    (c.share id constructs).idleCloses = c.idleCloses := by
  rw [BrowseCache.share]
  split
  next => rfl
  next => cases constructs <;> rfl

theorem idleCloses_getBrowseConnection (c : BrowseCache) (id : JsString) (constructs : Bool) :
    (c.getBrowseConnection id constructs).idleCloses = c.idleCloses := by
  rw [BrowseCache.getBrowseConnection]
  split
  next => exact c.idleCloses_share id constructs
  next e he =>
    dsimp only
    split
    next => rfl
    next => exact ((c.renew id e).remove id e.mgr).idleCloses_share id constructs

theorem idleCloses_closeBrowseConnection (c : BrowseCache) (id : JsString) :
    (c.closeBrowseConnection id).idleCloses = c.idleCloses := by
  rw [BrowseCache.closeBrowseConnection]
  split <;> rfl

theorem idleCloses_closeAll (ids : List JsString) (c : BrowseCache) :
    (ids.foldl BrowseCache.closeBrowseConnection c).idleCloses = c.idleCloses := by
  induction ids generalizing c with
  | nil => rfl
  | cons id ids ih => exact (ih _).trans (c.idleCloses_closeBrowseConnection id)

/-- A timer that is due closes the connection of its endpoint. -/
theorem timerFired_closes {c : BrowseCache} {t : Nat} {timer : IdleTimer} {e : BrowseConnection}
    (htimer : InsertionMap.get? t c.timers = some timer) (hdue : timer.deadline ≤ c.now)
    (he : InsertionMap.get? timer.endpointId c.browseConnections = some e) :
    ∃ c', c.timerFired t = some c' ∧
      c'.idleCloses = ⟨e.mgr, c.now, InsertionMap.get? e.mgr c.lastUse⟩ :: c.idleCloses := by
  have hfound : InsertionMap.get? timer.endpointId (c.clearTimer t).browseConnections = some e :=
    he
  refine ⟨_, ?_, ((c.clearTimer t).recordIdleClose e.mgr).idleCloses_closeBrowseConnection
    timer.endpointId⟩
  simp only [BrowseCache.timerFired, htimer, if_pos hdue, hfound]

/-- Only a timer that is due closes an idle connection. -/
theorem step_idleCloses {c c' : BrowseCache} {ev : CacheEvent} (hstep : c.step ev = some c') :
    c'.idleCloses = c.idleCloses ∨
      ∃ t timer e, ev = .timerFired t ∧ InsertionMap.get? t c.timers = some timer ∧
        timer.deadline ≤ c.now ∧
        InsertionMap.get? timer.endpointId c.browseConnections = some e ∧
        c'.idleCloses = ⟨e.mgr, c.now, InsertionMap.get? e.mgr c.lastUse⟩ :: c.idleCloses := by
  cases ev with
  | wait ms =>
      cases hstep
      exact .inl rfl
  | request id constructs =>
      cases hstep
      exact .inl (c.idleCloses_getBrowseConnection id constructs)
  | connectSettled id ok =>
      obtain ⟨mgr, -, rfl⟩ := connectSettled_cases hstep
      cases ok <;> exact .inl rfl
  | disconnectSettled id =>
      obtain ⟨mgr, -, rfl⟩ := disconnectSettled_cases hstep
      exact .inl rfl
  | attemptOver id =>
      obtain ⟨m, -, rfl⟩ := attemptOver_cases hstep
      exact .inl rfl
  | connectionChanged mgr isConnected =>
      cases hstep
      exact .inl rfl
  | timerFired t =>
      obtain ⟨timer, htimer, hdue, ⟨-, rfl⟩ | ⟨e, he, rfl⟩⟩ := timerFired_cases hstep
      · exact .inl rfl
      · exact .inr ⟨t, timer, e, rfl, htimer, hdue, he,
          ((c.clearTimer t).recordIdleClose e.mgr).idleCloses_closeBrowseConnection _⟩
  | disconnectRequest id =>
      cases hstep
      exact .inl (c.idleCloses_closeBrowseConnection id)
  | flowsStopped =>
      cases hstep
      exact .inl (idleCloses_closeAll _ c)

theorem Sound.oneConnection {c : BrowseCache} (h : Sound c)
    (hidle : ∀ x ∈ c.idleCloses, ∀ u, x.lastUse = some u → u + idleTimeoutMs ≤ x.closedAt) :
    OneConnection c :=
  ⟨h.entries, h.attempts, h.single, h.told, hidle⟩

/-- The timer of a connection is due only when its manager is idle. -/
theorem Sound.idle_of_own {c : BrowseCache} (h : Sound c) {t : Nat} {timer : IdleTimer}
    {id : JsString} {e : BrowseConnection}
    (htimer : InsertionMap.get? t c.timers = some timer) (hdue : timer.deadline ≤ c.now)
    (he : InsertionMap.get? id c.browseConnections = some e) (hown : e.timer = t) {u : Nat}
    (hu : InsertionMap.get? e.mgr c.lastUse = some u) : u + idleTimeoutMs ≤ c.now := by
  obtain ⟨u', d, hu', hd, hle⟩ := h.timed id e he
  cases hu'.symm.trans hu
  rw [hown, htimer] at hd
  cases hd
  exact hle.trans hdue

theorem sound_preserved : Transition.Preserves step (fun _ _ => True) Sound :=
  fun _ _ _ h _ hstep => h.step hstep

/-- A step with an attentive timer keeps every promise. -/
theorem oneConnection_preserved :
    Transition.Preserves step Attentive fun c => Sound c ∧ OneConnection c := by
  rintro c ev c' ⟨h, hone⟩ hatt hstep
  refine ⟨h.step hstep, (h.step hstep).oneConnection ?_⟩
  rcases step_idleCloses hstep with heq | ⟨t, timer, e, rfl, htimer, hdue, he, heq⟩
  · rw [heq]
    exact hone.idle
  · rw [heq]
    intro x hx
    rcases List.mem_cons.mp hx with rfl | hold
    · intro u hu
      rcases hatt timer e htimer hdue he with hown | hidle
      · exact h.idle_of_own htimer hdue he hown hu
      · exact hidle u hu
    · exact hone.idle x hold

/-- A timer whose step keeps the promises is attentive. -/
theorem attentive_of_kept {c : BrowseCache} {ev : CacheEvent}
    (hkept : ∀ c', c.step ev = some c' → OneConnection c') : c.Attentive ev := by
  cases ev with
  | timerFired t =>
      intro timer e htimer hdue he
      obtain ⟨c', hstep, hcloses⟩ := timerFired_closes htimer hdue he
      right
      intro u hu
      have hlast := (hkept c' hstep).idle ⟨e.mgr, c.now, InsertionMap.get? e.mgr c.lastUse⟩
        (hcloses ▸ List.mem_cons_self)
      exact hlast u hu
  | _ => trivial

/-- The cache keeps its promises in every state of a run just when no timer left
behind closes a connection in use. -/
theorem oneConnection_iff_attentive (evs : List CacheEvent) :
    Transition.Throughout step OneConnection {} evs ↔ Transition.Along step Attentive {} evs := by
  have hstart : OneConnection {} := sound_initial.oneConnection nofun
  rw [← Transition.throughout_iff_along oneConnection_preserved
    (fun c ev _ hkept => attentive_of_kept fun c' hstep => (hkept c' hstep).2)
    ⟨sound_initial, hstart⟩ evs]
  exact ⟨fun h => h.and_preserved sound_preserved sound_initial, fun h => h.mono fun c hc => hc.2⟩

/-- A connection is lost, and the timer set for it closes the next one, used half
the idle time before. -/
def staleTimerRun : List CacheEvent :=
  [.request (js "a") true, .connectSettled (js "a") true, .connectionChanged 0 true,
    .attemptOver (js "a"), .connectionChanged 0 false, .request (js "a") true,
    .connectSettled (js "a") true, .connectionChanged 1 true, .attemptOver (js "a"),
    .wait 30000, .request (js "a") true, .wait 30000, .timerFired 1]

theorem stale_timer_closes_used_connection :
    ¬ ∀ evs, Transition.Throughout step OneConnection {} evs := by
  intro h
  have hrun : (Transition.run step {} staleTimerRun).map idleCloses =
      some [⟨1, 60000, some 30000⟩] := by decide +kernel
  obtain ⟨c, hrun, hcloses⟩ := Option.map_eq_some_iff.mp hrun
  have hidle := ((h staleTimerRun).last hrun).idle ⟨1, 60000, some 30000⟩
    (hcloses ▸ List.mem_cons_self) 30000 rfl
  exact absurd hidle (by decide)

end BrowseCache

end OpcUaSuite.Nodes
