import OpcUaSuite.Lib.OpenedOnce
import OpcUaSuite.Nodes.BrowseSubscription

/-!
# What the subscribe mode keeps

At most one subscription lives, the one recorded or the one on its way, as long
as no call of `setupSubscriptions` runs into another one or into an unsubscribe.
-/

namespace OpcUaSuite.Nodes

open Js

/-- The subscription a call of `setupSubscriptions` has opened and not yet recorded. -/
def BrowsePending.created : BrowsePending → Option Nat
  | .creating created => created
  | _ => none

namespace BrowseState

section

variable (cfg : BrowseConfig)

def created (s : BrowseState) : List Nat := s.pending.filterMap BrowsePending.created

/-- A subscription is on its way to the node. -/
def isOpening (s : BrowseState) : Bool := s.created.any fun x => decide (x ∈ s.liveSubscriptions)

/-- A call of `setupSubscriptions` would open a subscription. -/
def wouldOpen (s : BrowseState) (a : BrowseAnswers) : Bool :=
  s.subscription.isNone && !cfg.selectedItems.isEmpty && a.creates

/-- The status callback opens no second subscription, and none after an unsubscribe. -/
def isCalm (s : BrowseState) (a : BrowseAnswers) : Bool :=
  !(cfg.subscribeMode && s.wouldOpen cfg a) || (!s.isOpening && !s.unsubscribed)

/-- The unsubscribe message ends here. -/
def endsAt (s : BrowseState) (position : Option Nat) : Bool :=
  (s.monitorItems.find? fun e => position.all fun last => decide (last < e.2.position)).isNone &&
    s.subscription.isNone

/-- The step runs into no other that is suspended, and no unsubscribe is undone. -/
def isOrderly (s : BrowseState) : BrowseEvent → Bool
  | .connected a => s.isCalm cfg a
  | .reconnected a a' =>
      s.sessionReplaced.isCalm cfg a && (s.sessionReplaced.connected cfg a).discarded.isCalm cfg a'
  | .disconnected | .subscribe | .unsubscribe => true
  | .resumed .subscribing a => !(a.connects && s.wouldOpen cfg a) || !s.isOpening
  | .resumed (.creating (some x)) _ =>
      decide (x ∈ s.liveSubscriptions) ||
        s.subscription.all fun y => !decide (y ∈ s.liveSubscriptions)
  | .resumed (.creating none) _ => true
  | .resumed .unsubscribing a => !a.connects || !s.endsAt none || !s.isOpening
  | .resumed (.terminatingItem _ position) _ => !s.endsAt (some position) || !s.isOpening
  | .resumed (.terminatingSubscription x) a =>
      (a.settles || !decide (x ∈ s.liveSubscriptions)) && !s.isOpening &&
        s.subscription.all fun y => decide (y = x) || !decide (y ∈ s.liveSubscriptions)

end

/-! ## The invariant -/

/-- A subscription that lives is the recorded one or the only one on its way. -/
structure SetUpKept (subscription : Option Nat) (live created : List Nat)
    (pending : List BrowsePending) (nextSubscription : Nat) : Prop where
  owned : ∀ x ∈ live, subscription = some x ∨ x ∈ created
  single : ∀ x ∈ created, ∀ y ∈ created, x ∈ live → y ∈ live → x = y
  unset : ∀ x ∈ created, x ∈ live → ∀ y, subscription = some y → y ∉ live
  ending : ∀ x, .terminatingSubscription x ∈ pending → x ∈ live → subscription = some x
  nodup : created.Nodup
  distinct : live.Nodup
  numbers : ∀ x, x ∈ live ∨ x ∈ created ∨ subscription = some x ∨
    .terminatingSubscription x ∈ pending → x < nextSubscription

/-- A subscription has at most one item for each NodeId. -/
structure MonitoredOnce (items : List MonitoredItem) (created : List Nat) (nextSubscription : Nat) :
    Prop where
  numbers : ∀ it ∈ items, it.subscription < nextSubscription
  fresh : ∀ it ∈ items, it.subscription ∉ created
  once : ∀ it ∈ items, ∀ it' ∈ items, it.subscription = it'.subscription →
    it.nodeId = it'.nodeId → it = it'

structure Kept (s : BrowseState) : Prop where
  setUp : SetUpKept s.subscription s.liveSubscriptions s.created s.pending s.nextSubscription
  items : MonitoredOnce s.items s.created s.nextSubscription
  unsubscribed : s.unsubscribed = true → s.liveSubscriptions = []

section

variable {subscription : Option Nat} {live created : List Nat} {pending : List BrowsePending}
  {nextSubscription : Nat}

theorem SetUpKept.openedOnce (h : SetUpKept subscription live created pending nextSubscription) :
    OpenedOnce subscription live created nextSubscription :=
  ⟨h.owned, h.single, h.unset, h.nodup, h.distinct,
    fun x hx => h.numbers x (hx.imp_right (Or.imp_right Or.inl))⟩

theorem SetUpKept.terminating (h : SetUpKept subscription live created pending nextSubscription)
    (x : Nat) (hx : .terminatingSubscription x ∈ pending) :
    x < nextSubscription ∧ (x ∈ live → subscription = some x) :=
  ⟨h.numbers x (Or.inr (Or.inr (Or.inr hx))), h.ending x hx⟩

theorem setUpKept_of (h : OpenedOnce subscription live created nextSubscription)
    (hterminating : ∀ x, .terminatingSubscription x ∈ pending →
      x < nextSubscription ∧ (x ∈ live → subscription = some x)) :
    SetUpKept subscription live created pending nextSubscription where
  owned := h.owned
  single := h.single
  unset := h.unset
  ending x hx := (hterminating x hx).2
  nodup := h.nodup
  distinct := h.distinct
  numbers := by
    rintro x (hx | hx | hx | hx)
    · exact h.numbers x (Or.inl hx)
    · exact h.numbers x (Or.inr (Or.inl hx))
    · exact h.numbers x (Or.inr (Or.inr hx))
    · exact (hterminating x hx).1

end

theorem kept_initial : Kept {} where
  setUp := setUpKept_of (OpenedOnce.initial 0) fun _ h => by cases h
  items :=
    { numbers := fun _ h => by cases h
      fresh := fun _ h => by cases h
      once := fun _ h => by cases h }
  unsubscribed h := by cases h

/-! ## What is suspended -/

theorem created_suspend (s : BrowseState) {p : BrowsePending} (hp : p.created = none) :
    (s.suspend p).created = s.created := by
  simp [created, suspend, hp]

/-- Something is suspended that opens no subscription. -/
theorem Kept.suspend {s : BrowseState} (h : Kept s) {p : BrowsePending} (hp : p.created = none)
    (hending : ∀ x, p = .terminatingSubscription x → s.subscription = some x) :
    Kept (s.suspend p) := by
  obtain ⟨hs, hi, hu⟩ := h
  refine ⟨?_, ?_, hu⟩
  · rw [created_suspend s hp]
    refine setUpKept_of hs.openedOnce fun x hx => ?_
    rcases List.mem_cons.mp hx with heq | hx
    · have hcur := hending x heq.symm
      exact ⟨hs.numbers x (Or.inr (Or.inr (Or.inl hcur))), fun _ => hcur⟩
    · exact hs.terminating x hx
  · rw [created_suspend s hp]
    exact hi

/-- What goes on without a subscription of its own is set aside. -/
theorem Kept.drop {s : BrowseState} {p : BrowsePending} (h : Kept (s.suspend p))
    (hp : p.created = none) : Kept s := by
  obtain ⟨hs, hi, hu⟩ := h
  rw [created_suspend s hp] at hs hi
  refine ⟨setUpKept_of hs.openedOnce fun x hx => ?_, hi, hu⟩
  exact hs.terminating x (List.mem_cons_of_mem _ hx)

theorem Kept.resume {s : BrowseState} (h : Kept s) {p : BrowsePending} (hp : p ∈ s.pending) :
    Kept ({ s with pending := s.pending.erase p }.suspend p) := by
  have hperm : s.pending.Perm (p :: s.pending.erase p) := List.perm_cons_erase hp
  have hcreated : s.created.Perm ({ s with pending := s.pending.erase p }.suspend p).created :=
    hperm.filterMap BrowsePending.created
  obtain ⟨hs, hi, hu⟩ := h
  refine ⟨?_, ?_, hu⟩
  · refine setUpKept_of (hs.openedOnce.perm hcreated) fun x hx => ?_
    exact hs.terminating x (hperm.mem_iff.mpr hx)
  · exact ⟨hi.numbers, fun it hit hmem => hi.fresh it hit (hcreated.mem_iff.mpr hmem), hi.once⟩

/-! ## Setting up -/

theorem isOpening_eq_false {s : BrowseState} :
    s.isOpening = false ↔ ∀ x ∈ s.created, x ∉ s.liveSubscriptions := by
  simp [isOpening]

/-- A call of `setupSubscriptions` keeps the invariant when it opens the only subscription. -/
theorem Kept.setupSubscriptions {cfg : BrowseConfig} {s : BrowseState} (h : Kept s)
    {a : BrowseAnswers}
    (hopen : s.wouldOpen cfg a = true → s.isOpening = false ∧ s.unsubscribed = false) :
    Kept (s.setupSubscriptions cfg a) := by
  unfold BrowseState.setupSubscriptions
  split
  next => exact h
  next hnot =>
    split
    next hcreates =>
      simp only [Bool.or_eq_true, not_or, Bool.not_eq_true, Option.isSome_eq_false_iff] at hnot
      obtain ⟨hopening, hunsubscribed⟩ := hopen (by simp [wouldOpen, hnot, hcreates])
      rw [isOpening_eq_false] at hopening
      have hnone : s.subscription = none := Option.isNone_iff_eq_none.mp hnot.1
      obtain ⟨hs, hi, hu⟩ := h
      have hopened := hs.openedOnce
      rw [hnone] at hopened
      have hnew := hopened.opening hopening
      rw [← hnone] at hnew
      refine ⟨?_, ?_, fun hyes => by cases hunsubscribed.symm.trans hyes⟩
      · refine setUpKept_of hnew fun x hx => ?_
        rcases List.mem_cons.mp hx with heq | hx
        · cases heq
        · obtain ⟨hlt, hcur⟩ := hs.terminating x hx
          refine ⟨Nat.lt_succ_of_lt hlt, fun hlive => hcur ?_⟩
          exact (List.mem_cons.mp hlive).resolve_left (Nat.ne_of_lt hlt)
      · refine ⟨fun it hit => Nat.lt_succ_of_lt (hi.numbers it hit), fun it hit hmem => ?_, hi.once⟩
        rcases List.mem_cons.mp hmem with heq | hmem
        · exact absurd (hi.numbers it hit) (heq ▸ Nat.lt_irrefl _)
        · exact hi.fresh it hit hmem
    next => exact h.suspend rfl fun x heq => by cases heq

/-- The subscription on its way is recorded, and no living one is lost. -/
theorem Kept.record {s : BrowseState} {x : Nat} (h : Kept (s.suspend (.creating (some x))))
    (hlost : x ∈ s.liveSubscriptions ∨ ∀ y, s.subscription = some y → y ∉ s.liveSubscriptions) :
    Kept { s with subscription := some x } ∧ x < s.nextSubscription ∧
      ∀ it ∈ s.items, it.subscription ≠ x := by
  obtain ⟨hs, hi, hu⟩ := h
  have hcreated : (s.suspend (.creating (some x))).created = x :: s.created := rfl
  rw [hcreated] at hs hi
  have hold := hs.openedOnce.replaced hlost
  refine ⟨⟨?_, ?_, hu⟩, hs.numbers x (Or.inr (Or.inl List.mem_cons_self)), ?_⟩
  · refine setUpKept_of (hs.openedOnce.record hlost) fun y hy => ?_
    obtain ⟨hlt, hcur⟩ := hs.terminating y (List.mem_cons_of_mem _ hy)
    exact ⟨hlt, fun hlive => absurd hlive (hold y (hcur hlive))⟩
  · exact ⟨hi.numbers, fun it hit hmem => hi.fresh it hit (List.mem_cons_of_mem _ hmem), hi.once⟩
  · intro it hit heq
    exact hi.fresh it hit (heq ▸ List.mem_cons_self)

/-- One more item of the recorded subscription, for a NodeId that has none there. -/
theorem Kept.monitor {s : BrowseState} (h : Kept s) {x : Nat} (hx : s.subscription = some x)
    (hcreated : x ∉ s.created) {it : SelectedItem} (a : BrowseAnswers)
    (hnew : ∀ old ∈ s.items, old.subscription = x → old.nodeId ≠ it.nodeId) :
    Kept (monitor x a s it) := by
  unfold BrowseState.monitor
  split
  next => exact h
  next =>
    refine ⟨h.setUp, ?_, h.unsubscribed⟩
    dsimp only
    split
    next => exact h.items
    next =>
      constructor
      case numbers =>
        intro old hold
        rcases List.mem_cons.mp hold with rfl | hold
        · exact h.setUp.numbers x (Or.inr (Or.inr (Or.inl hx)))
        · exact h.items.numbers old hold
      case fresh =>
        intro old hold
        rcases List.mem_cons.mp hold with rfl | hold
        · exact hcreated
        · exact h.items.fresh old hold
      case once =>
        intro old hold old' hold' hsub hnode
        rcases List.mem_cons.mp hold with rfl | hold <;>
          rcases List.mem_cons.mp hold' with rfl | hold'
        · rfl
        · exact absurd hnode.symm (hnew old' hold' hsub.symm)
        · exact absurd hnode (hnew old hold hsub)
        · exact h.items.once old hold old' hold' hsub hnode

/-- The loop over the subscribable items, each with a NodeId of its own. -/
theorem Kept.monitorAll {s : BrowseState} (h : Kept s) {x : Nat} (hx : s.subscription = some x)
    (hcreated : x ∉ s.created) (a : BrowseAnswers) {its : List SelectedItem}
    (hdistinct : (its.map SelectedItem.nodeId).Nodup)
    (hnew : ∀ it ∈ its, ∀ old ∈ s.items, old.subscription = x → old.nodeId ≠ it.nodeId) :
    Kept (its.foldl (BrowseState.monitor x a) s) := by
  induction its generalizing s with
  | nil => exact h
  | cons it its ih =>
      obtain ⟨hit, hits⟩ := List.nodup_cons.mp hdistinct
      have hkept := h.monitor hx hcreated a (hnew it List.mem_cons_self)
      have hsame : (BrowseState.monitor x a s it).subscription = s.subscription ∧
          (BrowseState.monitor x a s it).created = s.created ∧
          ∀ old ∈ (BrowseState.monitor x a s it).items, old ∈ s.items ∨ old.nodeId = it.nodeId := by
        unfold BrowseState.monitor
        split
        · exact ⟨rfl, rfl, fun old hold => Or.inl hold⟩
        · refine ⟨rfl, rfl, fun old hold => ?_⟩
          dsimp only at hold
          split at hold
          · exact Or.inl hold
          · rcases List.mem_cons.mp hold with rfl | hold
            · exact Or.inr rfl
            · exact Or.inl hold
      refine ih hkept (hsame.1.trans hx) (hsame.2.1.symm ▸ hcreated) hits ?_
      intro it' hit' old hold hsub
      rcases hsame.2.2 old hold with hold | heq
      · exact hnew it' (List.mem_cons_of_mem _ hit') old hold hsub
      · exact fun heq' => hit (List.mem_map.mpr ⟨it', hit', heq'.symm.trans heq⟩)

theorem Kept.subscriptionCreated {cfg : BrowseConfig} {s : BrowseState} {created : Option Nat}
    (hdistinct : ((cfg.selectedItems.filter SelectedItem.isSubscribable).map
      SelectedItem.nodeId).Nodup)
    (h : Kept (s.suspend (.creating created))) (a : BrowseAnswers)
    (hlost : ∀ x, created = some x → x ∈ s.liveSubscriptions ∨
      ∀ y, s.subscription = some y → y ∉ s.liveSubscriptions) :
    Kept (s.subscriptionCreated cfg created a) := by
  cases created with
  | none => exact h.drop rfl
  | some x =>
      obtain ⟨hkept, -, hnew⟩ := h.record (hlost x rfl)
      have hfree : x ∉ s.created := (List.nodup_cons.mp h.setUp.nodup).1
      exact hkept.monitorAll rfl hfree a hdistinct fun it _ old hold hsub =>
        absurd hsub (hnew old hold)

/-! ## The status callback -/

theorem Kept.connected {cfg : BrowseConfig} {s : BrowseState} (h : Kept s) {a : BrowseAnswers}
    (hcalm : s.isCalm cfg a = true) : Kept (s.connected cfg a) := by
  unfold BrowseState.connected
  split
  next hmode =>
    refine h.setupSubscriptions fun hopen => ?_
    simp only [Bool.and_eq_true] at hmode
    simpa [isCalm, hmode.1, hopen] using hcalm
  next => exact h

/-- Nothing of the old session lives. -/
theorem Kept.sessionReplaced {s : BrowseState} (h : Kept s) : Kept s.sessionReplaced where
  setUp := setUpKept_of (h.setUp.openedOnce.fewer (List.nil_sublist _)) fun x hx =>
    ⟨(h.setUp.terminating x hx).1, fun hlive => absurd hlive List.not_mem_nil⟩
  items := h.items
  unsubscribed _ := rfl

/-- The recorded subscription is dropped once it is dead. -/
theorem Kept.discarded {s : BrowseState} (h : Kept s)
    (hdead : ∀ x, s.subscription = some x → x ∉ s.liveSubscriptions) : Kept s.discarded where
  setUp := setUpKept_of (h.setUp.openedOnce.discarded hdead) fun x hx => by
    obtain ⟨hlt, hcur⟩ := h.setUp.terminating x hx
    exact ⟨hlt, fun hlive => absurd hlive (hdead x (hcur hlive))⟩
  items := h.items
  unsubscribed := h.unsubscribed

/-- A subscription that is recorded stays as dead as it was. -/
theorem connected_dead {cfg : BrowseConfig} {s : BrowseState} {a : BrowseAnswers} {x : Nat}
    (hx : (s.connected cfg a).subscription = some x) (hdead : x ∉ s.liveSubscriptions) :
    x ∉ (s.connected cfg a).liveSubscriptions := by
  unfold BrowseState.connected BrowseState.setupSubscriptions at hx ⊢
  split at hx
  next hmode =>
    rw [if_pos hmode]
    split at hx
    next hskip =>
      rw [if_pos hskip]
      exact hdead
    next hnot =>
      -- a subscription is opened only where none is recorded
      simp only [Bool.or_eq_true, not_or, Bool.not_eq_true, Option.isSome_eq_false_iff,
        Option.isNone_iff_eq_none] at hnot
      split at hx <;> cases hnot.1.symm.trans hx
  next hmode =>
    rw [if_neg hmode]
    exact hdead

theorem Kept.reconnected {cfg : BrowseConfig} {s : BrowseState} (h : Kept s) {a a' : BrowseAnswers}
    (hok : s.isOrderly cfg (.reconnected a a') = true) :
    Kept ((s.sessionReplaced.connected cfg a).sessionRecreated cfg a') := by
  simp only [isOrderly, Bool.and_eq_true] at hok
  have hconnected := h.sessionReplaced.connected hok.1
  refine (hconnected.discarded fun x hx => ?_).connected hok.2
  exact connected_dead hx List.not_mem_nil

/-! ## Unsubscribing -/

/-- An unsubscribe ends with nothing on its way. -/
theorem Kept.unsubscribed_end {s : BrowseState} (h : Kept s) (hopening : s.isOpening = false)
    {live : List Nat} (hlive : live.Sublist s.liveSubscriptions)
    (hdead : ∀ x, s.subscription = some x → x ∉ live) :
    Kept { s with liveSubscriptions := live, subscription := none, unsubscribed := true } := by
  rw [isOpening_eq_false] at hopening
  have hnil : live = [] := (h.setUp.openedOnce.fewer hlive).eq_nil hdead fun x hx hmem =>
    hopening x hx (hlive.subset hmem)
  subst hnil
  have hdiscarded := h.sessionReplaced.discarded fun x _ => List.not_mem_nil
  exact ⟨hdiscarded.setUp, hdiscarded.items, fun _ => rfl⟩

/-- The entries of the map do not matter. -/
theorem Kept.clear {s : BrowseState} (h : Kept s) : Kept { s with monitorItems := [] } :=
  ⟨h.setUp, h.items, h.unsubscribed⟩

theorem Kept.unsubscribeFrom {s : BrowseState} (h : Kept s) {position : Option Nat}
    (hok : s.endsAt position = true → s.isOpening = false) : Kept (s.unsubscribeFrom position) := by
  unfold BrowseState.unsubscribeFrom
  split
  next e _ => exact h.suspend rfl fun x heq => by cases heq
  next hnone =>
    split
    next x hx =>
      refine h.clear.suspend rfl fun y heq => ?_
      cases heq
      exact hx
    next hsub =>
      have hopening := hok (by simp [endsAt, hnone, hsub])
      have hend := h.clear.unsubscribed_end hopening (List.Sublist.refl _) fun x hx => by
        cases hsub.symm.trans hx
      exact ⟨hsub ▸ hend.setUp, hend.items, hend.unsubscribed⟩

theorem Kept.itemTerminated {s : BrowseState} (h : Kept s) {item position : Nat}
    {a : BrowseAnswers} (hok : s.endsAt (some position) = true → s.isOpening = false) :
    Kept (s.itemTerminated item position a) := by
  have hitems : MonitoredOnce
      (if a.settles then s.items.filter (·.item ≠ item) else s.items) s.created
      s.nextSubscription := by
    split
    · constructor
      case numbers => exact fun it hit => h.items.numbers it (List.mem_filter.mp hit).1
      case fresh => exact fun it hit => h.items.fresh it (List.mem_filter.mp hit).1
      case once =>
        exact fun it hit it' hit' =>
          h.items.once it (List.mem_filter.mp hit).1 it' (List.mem_filter.mp hit').1
    · exact h.items
  have hkept : Kept { s with
      items := if a.settles then s.items.filter (·.item ≠ item) else s.items } :=
    ⟨h.setUp, hitems, h.unsubscribed⟩
  exact hkept.unsubscribeFrom hok

theorem Kept.subscriptionTerminated {s : BrowseState} (h : Kept s) {x : Nat} {a : BrowseAnswers}
    (ha : a.settles = true ∨ x ∉ s.liveSubscriptions) (hopening : s.isOpening = false)
    (hother : ∀ y, s.subscription = some y → y = x ∨ y ∉ s.liveSubscriptions) :
    Kept (s.subscriptionTerminated x a) := by
  unfold BrowseState.subscriptionTerminated
  refine h.unsubscribed_end hopening ?_ fun y hy => ?_
  · split
    · exact List.filter_sublist
    · exact List.Sublist.refl _
  · split
    next =>
      intro hmem
      obtain ⟨hlive, hne⟩ := List.mem_filter.mp hmem
      have hne : y ≠ x := of_decide_eq_true hne
      exact (hother y hy).elim hne fun hdead => hdead hlive
    next hfails =>
      rcases hother y hy with rfl | hdead
      · exact ha.resolve_left hfails
      · exact hdead

/-! ## Every step -/

theorem Kept.resumed {cfg : BrowseConfig} {s s' : BrowseState}
    (hdistinct : ((cfg.selectedItems.filter SelectedItem.isSubscribable).map
      SelectedItem.nodeId).Nodup) (h : Kept s) {p : BrowsePending} {a : BrowseAnswers}
    (hok : s.isOrderly cfg (.resumed p a) = true) (hstep : s.resumed cfg p a = some s') :
    Kept s' := by
  have hopening : s.isOpening = false →
      { s with pending := s.pending.erase p }.isOpening = false := by
    intro hnone
    rw [isOpening_eq_false] at hnone ⊢
    exact fun x hx => hnone x ((List.erase_sublist.filterMap _).subset hx)
  unfold BrowseState.resumed at hstep
  split at hstep
  next hp =>
    have hr := h.resume hp
    cases hstep
    cases p with
    | creating created =>
        refine hr.subscriptionCreated hdistinct a fun x hx => ?_
        subst hx
        simp only [isOrderly, Bool.or_eq_true, decide_eq_true_eq] at hok
        refine hok.imp_right fun hdead y hy => ?_
        rw [show s.subscription = some y from hy] at hdead
        simpa using hdead
    | subscribing =>
        have hd := hr.drop rfl
        dsimp only
        split
        next hconnects =>
          have hasked : Kept { s with pending := s.pending.erase .subscribing, unsubscribed := false } :=
            ⟨hd.setUp, hd.items, fun hyes => nomatch hyes⟩
          refine hasked.setupSubscriptions fun hopen => ⟨hopening ?_, rfl⟩
          have hopen' : s.wouldOpen cfg a = true := hopen
          simpa [isOrderly, hconnects, hopen'] using hok
        next => exact hd
    | unsubscribing =>
        have hd := hr.drop rfl
        dsimp only
        split
        next hconnects =>
          refine hd.unsubscribeFrom fun hends => hopening ?_
          have hends' : s.endsAt none = true := hends
          simpa [isOrderly, hconnects, hends'] using hok
        next => exact hd
    | terminatingItem item position =>
        refine (hr.drop rfl).itemTerminated fun hends => hopening ?_
        have hends' : s.endsAt (some position) = true := hends
        simpa [isOrderly, hends'] using hok
    | terminatingSubscription x =>
        simp only [isOrderly, Bool.and_eq_true, Bool.or_eq_true, Bool.not_eq_true',
          decide_eq_false_iff_not] at hok
        refine (hr.drop rfl).subscriptionTerminated hok.1.1 (hopening hok.1.2) fun y hy => ?_
        have hother := hok.2
        rw [show s.subscription = some y from hy] at hother
        simpa using hother
  next => cases hstep

theorem kept_step {cfg : BrowseConfig}
    (hdistinct : ((cfg.selectedItems.filter SelectedItem.isSubscribable).map
      SelectedItem.nodeId).Nodup) :
    Transition.Preserves (step cfg) (fun s e => s.isOrderly cfg e = true) Kept := by
  intro s e s' h hok hstep
  cases e with
  | connected a =>
      cases hstep
      exact h.connected hok
  | reconnected a a' =>
      cases hstep
      exact h.reconnected hok
  | disconnected =>
      cases hstep
      exact h
  | subscribe | unsubscribe =>
      cases hstep
      exact h.suspend rfl fun x heq => by cases heq
  | resumed p a => exact h.resumed hdistinct hok hstep

/-- Nothing lives after an unsubscribe message until the next subscribe message. -/
structure AsAsked (s : BrowseState) : Prop where
  unsubscribed : s.unsubscribed = true → s.liveSubscriptions = []
  single : s.pending = [] → s.liveSubscriptions.length ≤ 1
  once : s.pending = [] → ∀ it ∈ s.items, ∀ it' ∈ s.items, it.subscription ∈ s.liveSubscriptions →
    it'.subscription ∈ s.liveSubscriptions → it.nodeId = it'.nodeId → it = it'

theorem Kept.asAsked {s : BrowseState} (h : Kept s) : AsAsked s := by
  have howned : s.pending = [] → ∀ x ∈ s.liveSubscriptions, s.subscription = some x := by
    intro hpending x hx
    refine (h.setUp.owned x hx).resolve_right fun hcreated => ?_
    unfold created at hcreated
    rw [hpending] at hcreated
    cases hcreated
  constructor
  case unsubscribed => exact h.unsubscribed
  case single =>
    intro hpending
    exact OpenedOnce.length_le_one_of_forall h.setUp.distinct (howned hpending)
  case once =>
    intro hpending it hit it' hit' hlive hlive' hnode
    refine h.items.once it hit it' hit' (Option.some.inj ?_) hnode
    rw [← howned hpending _ hlive, howned hpending _ hlive']

/-- After any run whose steps are orderly the node is subscribed as it was asked to be. -/
theorem subscribed_as_asked {cfg : BrowseConfig} {es : List BrowseEvent} {s : BrowseState}
    (hdistinct : ((cfg.selectedItems.filter SelectedItem.isSubscribable).map
      SelectedItem.nodeId).Nodup)
    (hok : Transition.Along (step cfg) (fun s e => s.isOrderly cfg e = true) {} es)
    (hrun : Transition.run (step cfg) {} es = some s) : AsAsked s :=
  ((kept_step hdistinct).run kept_initial hok hrun).asAsked

/-- A reconnect while subscribed, then an unsubscribe and a subscribe message. -/
theorem resubscribed_as_asked : ∃ s, Transition.run (step ⟨[⟨[97], .variable⟩], true⟩) {}
    [.connected {}, .resumed (.creating (some 0)) {}, .disconnected, .reconnected {} {},
      .resumed (.creating (some 1)) {}, .unsubscribe, .resumed .unsubscribing {},
      .resumed (.terminatingItem 1 1) {}, .resumed (.terminatingSubscription 1) {}, .subscribe,
      .resumed .subscribing {}, .resumed (.creating (some 2)) {}] = some s ∧ AsAsked s :=
  ⟨_, rfl, @subscribed_as_asked ⟨[⟨[97], .variable⟩], true⟩
    [.connected {}, .resumed (.creating (some 0)) {}, .disconnected, .reconnected {} {},
      .resumed (.creating (some 1)) {}, .unsubscribe, .resumed .unsubscribing {},
      .resumed (.terminatingItem 1 1) {}, .resumed (.terminatingSubscription 1) {}, .subscribe,
      .resumed .subscribing {}, .resumed (.creating (some 2)) {}] _ (by decide)
    (by decide +kernel) rfl⟩

/-- The first set-up has failed; on the next full reconnect both events set up. -/
theorem reconnect_sets_up_twice : ¬ ∀ (cfg : BrowseConfig) (es : List BrowseEvent)
    (s : BrowseState), Transition.run (step cfg) {} es = some s → AsAsked s := by
  intro h
  have hsingle := (h ⟨[⟨[97], .variable⟩], true⟩
    [.connected { creates := false }, .resumed (.creating none) {}, .reconnected {} {},
      .resumed (.creating (some 0)) {}, .resumed (.creating (some 1)) {}] _ rfl).single rfl
  exact absurd hsingle (by decide +kernel)

end BrowseState

end OpcUaSuite.Nodes
