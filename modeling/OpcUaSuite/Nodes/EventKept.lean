import OpcUaSuite.Lib.OpenedOnce
import OpcUaSuite.Nodes.EventSubscription

/-!
# What the event subscription keeps

At most one subscription and one item live, as the last successful subscribe
message asked, as long as no call of `subscribeEvents` runs into another one or
into an unsubscribe and no living item or request is left behind by a failure.
-/

namespace OpcUaSuite.Nodes

open Js

/-- The subscription a call of `subscribeEvents` has opened and not yet recorded. -/
def SubscribePoint.created : SubscribePoint → Option Nat
  | .creating created => created
  | .replacing _ => none

def EventPending.created : EventPending → Option Nat
  | .subscribing _ p => p.created
  | _ => none

def EventReplay.created : EventReplay → Option Nat
  | .subscribing _ p => p.created
  | _ => none

/-- The message is a subscribe message for the request, in its operation. -/
def EventPending.asksFor (r : EventRequest) : EventPending → Bool
  | .subscribing r' _ => decide (r' = r)
  | _ => false

/-- The server takes an item for the request. -/
def EventAnswers.takes (a : EventAnswers) (r : EventRequest) : Bool :=
  decide (a.monitoring = .accepted) && (decide (r.eventType = js "BaseEventType") || a.resolves)

namespace EventState

/-! ## The condition -/

/-- The subscriptions on their way to the node. -/
def created (s : EventState) : List Nat :=
  s.pending.filterMap EventPending.created ++ (s.replay.bind EventReplay.created).toList

def isOpening (s : EventState) : Bool := s.created.any fun x => decide (x ∈ s.liveSubscriptions)

/-- The item is one of a living subscription. -/
def isLive (s : EventState) (it : EventItem) : Bool := decide (it.subscription ∈ s.liveSubscriptions)

/-- A living item has the number. -/
def livesAs (s : EventState) (item : Nat) : Bool :=
  s.items.any fun it => decide (it.item = item) && s.isLive it

/-- The last successful subscribe message asked for the request, or one asks for it
that is suspended. -/
def asks (s : EventState) (r : EventRequest) : Bool :=
  decide (s.subscribed = some r) || s.pending.any (EventPending.asksFor r)

/-- A call of `createSubscription` opens the only subscription. -/
def mayOpen (s : EventState) (a : EventAnswers) : Bool :=
  s.subscription.isSome || !a.creates || !s.isOpening

/-- The subscription that a call records takes the place of no living one. -/
def mayRecord (s : EventState) (x : Nat) : Bool :=
  decide (x ∈ s.liveSubscriptions) ||
    s.subscription.all fun y => !decide (y ∈ s.liveSubscriptions)

/-- The item whose `terminate()` is over no longer lives, and is the recorded one
unless that does not live either. -/
def mayDrop (s : EventState) (item : Nat) (a : EventAnswers) : Bool :=
  (a.settles || !s.livesAs item) &&
    s.monitoredItem.all fun j => decide (j = item) || !s.livesAs j

/-- The replay makes no item that lives for a request nobody has asked for. -/
def mayReplay (s : EventState) (subscription : Option Nat) (r : EventRequest) (a : EventAnswers) :
    Bool :=
  !a.takes r || (subscription.all fun x => !decide (x ∈ s.liveSubscriptions)) || s.asks r

/-- The message may fail: no item lives for its request that nobody else asks for. -/
def mayFail (s : EventState) (p : EventPending) (r : EventRequest) : Bool :=
  (s.items.all fun it => !s.isLive it || decide (it.request ≠ r)) ||
    { s with pending := s.pending.erase p }.asks r

/-- The step runs into no other that is suspended, and no failure leaves a living
item or a request behind. -/
def isOrderly (cfg : EventConfig) (s : EventState) : EventEvent → Bool
  | .message _ | .sessionRecreated => true
  | .resumed (.waiting m) a =>
      !a.connects ||
        if m.isUnsubscribe then
          s.monitoredItem.isSome || s.subscription.isSome || !s.isOpening
        else !(m.request cfg).isValid || s.mayOpen a
  | .resumed (.subscribing _ (.creating (some x))) _ => s.mayRecord x
  | .resumed (.subscribing r (.creating none)) _ => s.mayFail (.subscribing r (.creating none)) r
  | .resumed (.subscribing _ (.replacing item)) a => s.mayDrop item a
  | .resumed (.terminatingItem item) a =>
      !a.settles || (s.mayDrop item a && (s.subscription.isSome || !s.isOpening))
  | .resumed (.terminatingSubscription x) a =>
      !a.settles || (!s.isOpening &&
        s.subscription.all fun y => decide (y = x) || !decide (y ∈ s.liveSubscriptions))
  | .resumed .recovering _ => true
  | .replayResumed a =>
      match s.replay with
      | none | some .finishing | some (.subscribing _ (.creating none)) => true
      | some .starting =>
          s.activeRequest.all fun r =>
            s.mayOpen a && (s.subscription.isSome || !a.creates || !s.unsubscribed) &&
              (s.monitoredItem.isSome || s.mayReplay s.subscription r a)
      | some (.subscribing r (.creating (some x))) =>
          s.mayRecord x && (s.monitoredItem.isSome || s.mayReplay (some x) r a)
      | some (.subscribing r (.replacing item)) =>
          s.mayDrop item a && s.mayReplay s.subscription r a

/-! ## The invariant -/

/-- An item that lives is the recorded one, and somebody has asked for it. -/
structure ItemKept (s : EventState) (asking : EventRequest → Prop) : Prop where
  recorded : ∀ it ∈ s.items, s.isLive it = true → s.monitoredItem = some it.item
  asked : ∀ it ∈ s.items, s.isLive it = true → s.asks it.request = true ∨ asking it.request
  distinct : (s.items.map EventItem.item).Nodup
  numbers : ∀ it ∈ s.items, it.item < s.nextItem ∧ it.subscription < s.nextSubscription

/-- The invariant while a call of `subscribeEvents` is set aside, with the subscription
it has opened and the requests it asks for. -/
structure Kept (s : EventState) (opened : Option Nat) (asking : EventRequest → Prop) : Prop where
  subscriptions : OpenedOnce s.subscription s.liveSubscriptions (opened.toList ++ s.created)
    s.nextSubscription
  item : ItemKept s asking
  unsubscribed : s.unsubscribed = true → s.liveSubscriptions = []

/-- Nobody asks besides the messages. -/
def noRequest (_ : EventRequest) : Prop := False

theorem kept_initial : Kept {} none noRequest where
  subscriptions := OpenedOnce.initial 0
  item :=
    { recorded := fun _ h => by cases h
      asked := fun _ h => by cases h
      distinct := List.nodup_nil
      numbers := fun _ h => by cases h }
  unsubscribed h := by cases h

/-! ## Items -/

section

variable {s : EventState} {asking : EventRequest → Prop} {r : EventRequest} {a : EventAnswers}

theorem isOpening_eq_false : s.isOpening = false ↔ ∀ x ∈ s.created, x ∉ s.liveSubscriptions := by
  simp [isOpening]

/-- No item lives where none is recorded. -/
theorem ItemKept.not_live (h : ItemKept s asking) (hnone : s.monitoredItem = none) :
    ∀ it ∈ s.items, s.isLive it ≠ true := by
  intro it hit hlive
  cases hnone.symm.trans (h.recorded it hit hlive)

/-- The invariant with other requests that are asked for. -/
theorem Kept.reasked {opened : Option Nat} {asking' : EventRequest → Prop} (h : Kept s opened asking)
    (hasked : ∀ it ∈ s.items, s.isLive it = true → s.asks it.request = true ∨ asking' it.request) :
    Kept s opened asking' where
  subscriptions := h.subscriptions
  item := { h.item with asked := hasked }
  unsubscribed := h.unsubscribed

/-- The item of a message or of the replay is over. -/
theorem Kept.dropItem {opened : Option Nat} (h : Kept s opened asking) {item : Nat}
    (hdrop : s.mayDrop item a = true) : Kept (s.dropItem item a) opened asking := by
  rw [mayDrop, Bool.and_eq_true] at hdrop
  obtain ⟨hsettled, hcurrent⟩ := hdrop
  have hsub : (s.dropItem item a).items.Sublist s.items := by
    unfold EventState.dropItem
    dsimp only
    split
    next => exact List.filter_sublist
    next => exact List.Sublist.refl _
  have hgone : ∀ it ∈ (s.dropItem item a).items, s.isLive it ≠ true := by
    intro it hit hlive
    have hmem := hsub.subset hit
    have hown := h.item.recorded it hmem hlive
    have hlives : s.livesAs it.item = true :=
      List.any_eq_true.mpr ⟨it, hmem, by simp [hlive]⟩
    rw [hown] at hcurrent
    have heq : it.item = item := by simpa [hlives] using hcurrent
    subst heq
    have hsettles : a.settles = true := by simpa [hlives] using hsettled
    simp [EventState.dropItem, hsettles] at hit
  refine ⟨h.subscriptions, ?_, h.unsubscribed⟩
  constructor
  case recorded => exact fun it hit hlive => absurd hlive (hgone it hit)
  case asked => exact fun it hit hlive => absurd hlive (hgone it hit)
  case distinct => exact h.item.distinct.sublist (hsub.map EventItem.item)
  case numbers => exact fun it hit => h.item.numbers it (hsub.subset hit)

/-! ## `subscribeEvents` -/

/-- What a call of `subscribeEvents` leaves: what it has opened stays accounted for,
and when it returns the only item that lives is the one it asked for. -/
def Went (r : EventRequest) (asking : EventRequest → Prop) (q : EventState × SubscribeProgress) :
    Prop :=
  match q.2 with
  | .suspended p => Kept q.1 p.created asking
  | .returned => Kept q.1 none asking ∧ ∀ it ∈ q.1.items, q.1.isLive it = true → it.request = r
  | .thrown => Kept q.1 none noRequest

/-- An item that will live is asked for. -/
def IsAsked (s : EventState) (asking : EventRequest → Prop) (r : EventRequest) (a : EventAnswers) :
    Prop :=
  a.takes r = true → ∀ x, s.subscription = some x → x ∈ s.liveSubscriptions →
    s.asks r = true ∨ asking r

/-- An item that no server has changes nothing. -/
theorem Kept.deadItem (h : Kept s none asking) (hnone : s.monitoredItem = none) :
    Kept { s with monitoredItem := some s.nextItem, nextItem := s.nextItem + 1 } none asking := by
  have hdead := h.item.not_live hnone
  refine ⟨h.subscriptions, ⟨?_, h.item.asked, h.item.distinct, ?_⟩, h.unsubscribed⟩
  · exact fun it hit hlive => absurd hlive (hdead it hit)
  · intro it hit
    obtain ⟨hitem, hsub⟩ := h.item.numbers it hit
    exact ⟨Nat.lt_succ_of_lt hitem, hsub⟩

/-- The server takes an item of the recorded subscription. -/
theorem Kept.newItem (h : Kept s none asking) (hnone : s.monitoredItem = none) {x : Nat}
    (hx : s.subscription = some x)
    (hasked : x ∈ s.liveSubscriptions → s.asks r = true ∨ asking r) :
    Kept { s with
      monitoredItem := some s.nextItem
      nextItem := s.nextItem + 1
      items := ⟨s.nextItem, r, x⟩ :: s.items } none asking := by
  have hdead := h.item.not_live hnone
  refine ⟨h.subscriptions, ?_, h.unsubscribed⟩
  constructor
  case recorded =>
    intro it hit hlive
    rcases List.mem_cons.mp hit with rfl | hit
    · rfl
    · exact absurd hlive (hdead it hit)
  case asked =>
    intro it hit hlive
    rcases List.mem_cons.mp hit with rfl | hit
    · exact hasked (of_decide_eq_true hlive)
    · exact absurd hlive (hdead it hit)
  case distinct =>
    refine List.nodup_cons.mpr ⟨fun hmem => ?_, h.item.distinct⟩
    obtain ⟨it, hit, heq⟩ := List.mem_map.mp hmem
    exact absurd (h.item.numbers it hit).1 (heq ▸ Nat.lt_irrefl _)
  case numbers =>
    intro it hit
    rcases List.mem_cons.mp hit with rfl | hit
    · exact ⟨Nat.lt_succ_self _, h.subscriptions.numbers x (.inr (.inr hx))⟩
    · exact ⟨Nat.lt_succ_of_lt (h.item.numbers it hit).1, (h.item.numbers it hit).2⟩

theorem createItem_went (h : Kept s none asking) (hnone : s.monitoredItem = none)
    (hasked : IsAsked s asking r a) : Went r asking (s.createItem r a) := by
  have hdead := h.item.not_live hnone
  have hthrown : Kept s none noRequest := h.reasked fun it hit hlive => absurd hlive (hdead it hit)
  unfold EventState.createItem
  split
  next => exact hthrown
  next htype =>
    dsimp only
    split
    next => exact hthrown
    next x hmonitoring hx =>
      refine ⟨h.newItem hnone hx (hasked ?_ x hx), fun it hit hlive => ?_⟩
      · simp only [EventAnswers.takes, hmonitoring, decide_true, Bool.true_and, Bool.or_eq_true,
          decide_eq_true_eq]
        cases hres : a.resolves
        · exact .inl (by simpa [hres] using htype)
        · exact .inr rfl
      · rcases List.mem_cons.mp hit with rfl | hit
        · rfl
        · exact absurd hlive (hdead it hit)
    next => exact ⟨h.deadItem hnone, fun it hit hlive => absurd hlive (hdead it hit)⟩
    next => exact ⟨h.deadItem hnone, fun it hit hlive => absurd hlive (hdead it hit)⟩

theorem replaceItem_went (h : Kept s none asking)
    (hasked : s.monitoredItem = none → IsAsked s asking r a) :
    Went r asking (s.replaceItem r a) := by
  unfold EventState.replaceItem
  split
  next => exact h
  next hnone => exact createItem_went h hnone (hasked hnone)

theorem Kept.opening (h : Kept s none asking) (hnone : s.subscription = none)
    (hopening : s.isOpening = false) (hunsubscribed : s.unsubscribed = false) :
    Kept { s with
      liveSubscriptions := s.nextSubscription :: s.liveSubscriptions
      nextSubscription := s.nextSubscription + 1 } (some s.nextSubscription) asking := by
  have hsame : ∀ it ∈ s.items, decide (it.subscription ∈ s.nextSubscription :: s.liveSubscriptions) =
      s.isLive it := by
    intro it hit
    have hne := Nat.ne_of_lt (h.item.numbers it hit).2
    simp [isLive, hne]
  have hsubscriptions := h.subscriptions
  rw [hnone] at hsubscriptions
  refine ⟨?_, ?_, fun hyes => by cases hunsubscribed.symm.trans hyes⟩
  · show OpenedOnce s.subscription _ _ _
    rw [hnone]
    exact hsubscriptions.opening (isOpening_eq_false.mp hopening)
  · constructor
    case recorded =>
      exact fun it hit hlive => h.item.recorded it hit ((hsame it hit).symm.trans hlive)
    case asked => exact fun it hit hlive => h.item.asked it hit ((hsame it hit).symm.trans hlive)
    case distinct => exact h.item.distinct
    case numbers =>
      exact fun it hit => (h.item.numbers it hit).imp_right Nat.lt_succ_of_lt

theorem subscribeEvents_went (h : Kept s none asking)
    (hinvalid : r.isValid = false → Kept s none noRequest)
    (hopen : s.subscription = none → a.creates = true →
      s.isOpening = false ∧ s.unsubscribed = false)
    (hasked : s.monitoredItem = none → IsAsked s asking r a) :
    Went r asking (s.subscribeEvents r a) := by
  unfold EventState.subscribeEvents
  split
  next =>
    split
    next => exact replaceItem_went h hasked
    next hnone =>
      split
      next hcreates =>
        obtain ⟨hopening, hunsubscribed⟩ := hopen hnone hcreates
        exact h.opening hnone hopening hunsubscribed
      next => exact h
  next hnot => exact hinvalid (Bool.eq_false_iff.mpr hnot)

/-- A call of `subscribeEvents` has its subscription. -/
theorem recorded_went {x : Nat} (h : Kept s (some x) asking) (hrecord : s.mayRecord x = true)
    (hasked : s.monitoredItem = none → IsAsked { s with subscription := some x } asking r a) :
    Went r asking (s.subscribeResumed r (.creating (some x)) a) := by
  have hlost : x ∈ s.liveSubscriptions ∨
      ∀ y, s.subscription = some y → y ∉ s.liveSubscriptions := by
    rcases Bool.or_eq_true_iff.mp hrecord with hlive | hall
    · exact .inl (of_decide_eq_true hlive)
    · right
      rintro y hy
      rw [hy] at hall
      simpa using hall
  exact replaceItem_went (s := { s with subscription := some x })
    ⟨h.subscriptions.record hlost, { h.item with }, h.unsubscribed⟩ hasked

/-- The item before is over. -/
theorem replaced_went {item : Nat} (h : Kept s none asking) (hdrop : s.mayDrop item a = true)
    (hasked : IsAsked s asking r a) :
    Went r asking (s.subscribeResumed r (.replacing item) a) :=
  createItem_went (h.dropItem hdrop) rfl hasked

/-! ## What is suspended -/

theorem created_suspend (s : EventState) (p : EventPending) :
    (s.suspend p).created = p.created.toList ++ s.created := by
  cases h : p.created with
  | none => simp [created, suspend, h]
  | some x => simp [created, suspend, h]

theorem asks_suspend (s : EventState) (p : EventPending) (r : EventRequest) :
    (s.suspend p).asks r = (p.asksFor r || s.asks r) :=
  Bool.or_left_comm _ _ _

theorem Kept.suspend (p : EventPending) (h : Kept s p.created asking)
    (hasks : ∀ r, asking r → p.asksFor r = true) : Kept (s.suspend p) none noRequest := by
  refine ⟨?_, ?_, h.unsubscribed⟩
  · rw [created_suspend]
    exact h.subscriptions
  · refine ⟨h.item.recorded, fun it hit hlive => ?_, h.item.distinct, h.item.numbers⟩
    rw [asks_suspend, Bool.or_eq_true]
    exact .inl ((h.item.asked it hit hlive).symm.imp_left (hasks _))

/-- A message that goes on is set aside. -/
theorem Kept.resume (h : Kept s none noRequest) {p : EventPending} (hp : p ∈ s.pending)
    (hasks : ∀ r, p.asksFor r = true → asking r) :
    Kept { s with pending := s.pending.erase p } p.created asking := by
  have hperm : s.pending.Perm (p :: s.pending.erase p) := List.perm_cons_erase hp
  have hcreated : s.created.Perm
      (p.created.toList ++ { s with pending := s.pending.erase p }.created) := by
    rw [← created_suspend]
    exact (hperm.filterMap EventPending.created).append_right _
  refine ⟨h.subscriptions.perm hcreated, ?_, h.unsubscribed⟩
  refine ⟨h.item.recorded, fun it hit hlive => ?_, h.item.distinct, h.item.numbers⟩
  have hold := (h.item.asked it hit hlive).resolve_right id
  rcases Bool.or_eq_true_iff.mp hold with hsubscribed | hpending
  · exact .inl (Bool.or_eq_true_iff.mpr (.inl hsubscribed))
  · obtain ⟨q, hq, hqasks⟩ := List.any_eq_true.mp hpending
    rcases List.mem_cons.mp (hperm.mem_iff.mp hq) with rfl | hq
    · exact .inr (hasks _ hqasks)
    · exact .inl (Bool.or_eq_true_iff.mpr (.inr (List.any_eq_true.mpr ⟨q, hq, hqasks⟩)))

/-! ## Messages -/

theorem Kept.failed (h : Kept s none noRequest) (a : EventAnswers) :
    Kept (s.failed a) none noRequest := by
  unfold EventState.failed
  split
  next => exact Kept.suspend .recovering h nofun
  next => exact h

/-- What a call of `subscribeEvents` leaves is taken over by its message. -/
theorem Went.message {q : EventState × SubscribeProgress} (h : Went r (Eq r) q)
    (a : EventAnswers) : Kept (q.1.messageWent r a q.2) none noRequest := by
  obtain ⟨s, progress⟩ := q
  cases progress with
  | suspended p => exact Kept.suspend (.subscribing r p) h fun r' heq => decide_eq_true heq
  | returned =>
      obtain ⟨hkept, hlast⟩ := h
      refine ⟨hkept.subscriptions, ?_, hkept.unsubscribed⟩
      refine ⟨hkept.item.recorded, fun it hit hlive => .inl ?_, hkept.item.distinct,
        hkept.item.numbers⟩
      have hlast : it.request = r := hlast it hit hlive
      exact Bool.or_eq_true_iff.mpr (.inl (decide_eq_true (congrArg some hlast.symm)))
  | thrown => exact Kept.failed h a

theorem subscribe_kept {cfg : EventConfig} (h : Kept s none noRequest) (m : EventMessage)
    (hopen : (m.request cfg).isValid = true → s.mayOpen a = true) :
    Kept (s.subscribe cfg m a) none noRequest := by
  unfold EventState.subscribe
  dsimp only
  split
  next hvalid =>
    apply Went.message
    refine subscribeEvents_went (s := { s with
      activeRequest := some (m.request cfg), unsubscribed := false }) ?_
      (fun hnot => by cases hvalid.symm.trans hnot) ?_ fun _ _ _ _ _ => .inr rfl
    · refine ⟨h.subscriptions, ?_, fun hyes => by cases hyes⟩
      exact ⟨h.item.recorded, fun it hit hlive => (h.item.asked it hit hlive).imp_right nofun,
        h.item.distinct, h.item.numbers⟩
    · intro hnone hcreates
      have hmay := hopen hvalid
      rw [mayOpen, show s.subscription = none from hnone, hcreates] at hmay
      have hopening : s.isOpening = false := by simpa using hmay
      exact ⟨hopening, rfl⟩
  next => exact h.failed a

/-- An unsubscribe message ends where no subscription is on its way. -/
theorem Kept.endSubscription (h : Kept s none noRequest)
    (hend : s.subscription = none → s.isOpening = false) :
    Kept s.endSubscription none noRequest := by
  unfold EventState.endSubscription
  split
  next x hx => exact Kept.suspend (.terminatingSubscription x) h nofun
  next hnone =>
    refine ⟨h.subscriptions, { h.item with }, fun _ => ?_⟩
    refine h.subscriptions.eq_nil (fun x hcur => ?_) (isOpening_eq_false.mp (hend hnone))
    cases hnone.symm.trans hcur

theorem Kept.unsubscribe (h : Kept s none noRequest)
    (hend : s.monitoredItem = none → s.subscription = none → s.isOpening = false) :
    Kept s.unsubscribe none noRequest := by
  have hforgot : Kept { s with activeRequest := none } none noRequest :=
    ⟨h.subscriptions, { h.item with }, h.unsubscribed⟩
  unfold EventState.unsubscribe
  dsimp only
  split
  next item hitem => exact Kept.suspend (.terminatingItem item) hforgot nofun
  next hnone => exact hforgot.endSubscription (hend hnone)

theorem Kept.itemTerminated (h : Kept s none noRequest) {item : Nat}
    (hdrop : a.settles = true → s.mayDrop item a = true)
    (hend : a.settles = true → s.subscription = none → s.isOpening = false) :
    Kept (s.itemTerminated item a) none noRequest := by
  unfold EventState.itemTerminated
  split
  next hsettles => exact (h.dropItem (hdrop hsettles)).endSubscription (hend hsettles)
  next => exact h.failed a

/-- The subscription that an unsubscribe message has ended was the only one. -/
theorem Kept.subscriptionTerminated (h : Kept s none noRequest) {x : Nat}
    (hopening : a.settles = true → s.isOpening = false)
    (hlast : a.settles = true → ∀ y, s.subscription = some y → y = x ∨ y ∉ s.liveSubscriptions) :
    Kept (s.subscriptionTerminated x a) none noRequest := by
  unfold EventState.subscriptionTerminated
  split
  next hsettles =>
    have hgone : ∀ y, s.subscription = some y → y ∉ s.liveSubscriptions.filter (· ≠ x) := by
      intro y hy hmem
      obtain ⟨hlive, hne⟩ := List.mem_filter.mp hmem
      rcases hlast hsettles y hy with heq | hdead
      · exact absurd heq (of_decide_eq_true hne)
      · exact hdead hlive
    have hlive : ∀ it, decide (it.subscription ∈ s.liveSubscriptions.filter (· ≠ x)) = true →
        s.isLive it = true := fun it hit =>
      decide_eq_true (List.mem_filter.mp (of_decide_eq_true hit)).1
    have hfewer := h.subscriptions.fewer (List.filter_sublist (p := fun y => decide (y ≠ x)))
    refine ⟨hfewer.discarded hgone, ?_, fun _ => ?_⟩
    · exact ⟨fun it hit hl => h.item.recorded it hit (hlive it hl),
        fun it hit hl => h.item.asked it hit (hlive it hl), h.item.distinct, h.item.numbers⟩
    · refine hfewer.eq_nil hgone fun y hy hmem => ?_
      exact isOpening_eq_false.mp (hopening hsettles) y hy (List.mem_filter.mp hmem).1
  next => exact h.failed a

/-! ## The replay -/

@[simp] theorem createItem_replay (s : EventState) (r : EventRequest) (a : EventAnswers) :
    (s.createItem r a).1.replay = s.replay := by
  unfold createItem
  dsimp only
  split
  next => rfl
  next => split <;> rfl

@[simp] theorem replaceItem_replay (s : EventState) (r : EventRequest) (a : EventAnswers) :
    (s.replaceItem r a).1.replay = s.replay := by
  unfold replaceItem
  split
  next => rfl
  next => exact s.createItem_replay r a

@[simp] theorem subscribeEvents_replay (s : EventState) (r : EventRequest) (a : EventAnswers) :
    (s.subscribeEvents r a).1.replay = s.replay := by
  unfold subscribeEvents
  split
  next =>
    split
    next => exact s.replaceItem_replay r a
    next => split <;> rfl
  next => rfl

@[simp] theorem subscribeResumed_replay (s : EventState) (r : EventRequest) (p : SubscribePoint)
    (a : EventAnswers) : (s.subscribeResumed r p a).1.replay = s.replay := by
  unfold subscribeResumed
  split
  next x => exact replaceItem_replay { s with subscription := some x } r a
  next => rfl
  next item => exact createItem_replay (s.dropItem item a) r a

/-- What a call of `subscribeEvents` leaves is taken over by the replay. -/
theorem Went.replay {q : EventState × SubscribeProgress} (h : Went r noRequest q)
    (hreplay : q.1.replay = some .finishing) : Kept (q.1.replayWent r q.2) none noRequest := by
  obtain ⟨s, progress⟩ := q
  cases progress with
  | suspended p =>
      have hcreated : (p.created.toList ++ s.created).Perm
          { s with replay := some (.subscribing r p) }.created := by
        have hnone : s.created = s.pending.filterMap EventPending.created := by
          simp only [created, show s.replay = some .finishing from hreplay]
          exact List.append_nil _
        rw [hnone]
        exact List.perm_append_comm
      exact ⟨h.subscriptions.perm hcreated, { h.item with }, h.unsubscribed⟩
  | returned => exact h.1
  | thrown => exact h

/-- The replay is set aside. -/
theorem Kept.replaying (h : Kept s none noRequest) {point : EventReplay}
    (hreplay : s.replay = some point) :
    Kept { s with replay := some .finishing } point.created noRequest := by
  have hcreated : s.created.Perm
      (point.created.toList ++ { s with replay := some .finishing }.created) := by
    have hnone : { s with replay := some .finishing }.created =
        s.pending.filterMap EventPending.created := List.append_nil _
    rw [hnone, created, hreplay]
    exact List.perm_append_comm
  exact ⟨h.subscriptions.perm hcreated, { h.item with }, h.unsubscribed⟩

/-- The session is replaced, and a replay starts or not. -/
theorem Kept.sessionRecreated (h : Kept s none noRequest) :
    Kept s.sessionRecreated none noRequest := by
  have hgone : Kept { s with
      monitoredItem := none, subscription := none, liveSubscriptions := [] } none noRequest := by
    refine ⟨(h.subscriptions.fewer (List.nil_sublist _)).discarded fun _ _ => List.not_mem_nil, ?_,
      fun _ => rfl⟩
    exact ⟨fun it hit hlive => absurd (of_decide_eq_true hlive) List.not_mem_nil,
      fun it hit hlive => absurd (of_decide_eq_true hlive) List.not_mem_nil, h.item.distinct,
      h.item.numbers⟩
  unfold EventState.sessionRecreated resubscribe
  dsimp only
  split
  next => exact hgone
  next hnot =>
    simp only [Bool.or_eq_true, not_or, Bool.not_eq_true, Option.isSome_eq_false_iff,
      Option.isNone_iff_eq_none] at hnot
    have hsame : { s with
        monitoredItem := none, subscription := none, liveSubscriptions := []
        replay := some .starting }.created = s.created := by
      simp [created, EventReplay.created, hnot.1]
    refine ⟨?_, { hgone.item with }, hgone.unsubscribed⟩
    rw [hsame]
    exact hgone.subscriptions

theorem isAsked_of_mayReplay (h : s.mayReplay s.subscription r a = true) :
    IsAsked s asking r a := by
  intro htakes x hx hlive
  have hor : (¬ a.takes r = true ∨ x ∉ s.liveSubscriptions) ∨ s.asks r = true := by
    simpa [mayReplay, hx] using h
  rcases hor with (hnot | hdead) | hasks
  · exact absurd htakes hnot
  · exact absurd hlive hdead
  · exact .inl hasks

theorem Kept.replayResumed {cfg : EventConfig} {s' : EventState} (h : Kept s none noRequest)
    (hok : s.isOrderly cfg (.replayResumed a) = true) (hstep : s.replayResumed a = some s') :
    Kept s' none noRequest := by
  unfold EventState.replayResumed at hstep
  cases hpoint : s.replay with
  | none =>
      rw [hpoint] at hstep
      cases hstep
  | some point =>
      have haside := h.replaying hpoint
      rw [isOrderly, hpoint] at hok
      rw [hpoint] at hstep
      cases hstep
      cases point with
      | starting =>
          dsimp only
          split
          next r hactive =>
            rw [hactive] at hok
            simp only [Option.all_some, Bool.and_eq_true] at hok
            obtain ⟨⟨hopen, hagain⟩, hreplay⟩ := hok
            refine Went.replay (subscribeEvents_went haside (fun _ => haside) ?_ fun hnone => ?_)
              (subscribeEvents_replay _ r a)
            · intro hnone hcreates
              have hnone : s.subscription = none := hnone
              have hopening : s.isOpening = false := by simpa [mayOpen, hnone, hcreates] using hopen
              refine ⟨isOpening_eq_false.mpr fun x hx => isOpening_eq_false.mp hopening x ?_, ?_⟩
              · simpa [created, hpoint, EventReplay.created] using hx
              · simpa [hnone, hcreates] using hagain
            · have hnone : s.monitoredItem = none := hnone
              have hmay : s.mayReplay s.subscription r a = true := by simpa [hnone] using hreplay
              exact isAsked_of_mayReplay (s := { s with replay := some .finishing }) hmay
          next => exact haside
      | subscribing r p =>
          cases p with
          | creating created =>
              cases created with
              | some x =>
                  obtain ⟨hrecord, hreplay⟩ := Bool.and_eq_true_iff.mp hok
                  refine Went.replay (recorded_went haside hrecord fun hnone => ?_)
                    (subscribeResumed_replay _ r _ a)
                  have hnone : s.monitoredItem = none := hnone
                  have hmay : s.mayReplay (some x) r a = true := by simpa [hnone] using hreplay
                  exact isAsked_of_mayReplay
                    (s := { s with replay := some .finishing, subscription := some x }) hmay
              | none => exact haside
          | replacing item =>
              obtain ⟨hdrop, hreplay⟩ := Bool.and_eq_true_iff.mp hok
              exact Went.replay (replaced_went haside hdrop (isAsked_of_mayReplay hreplay))
                (subscribeResumed_replay _ r _ a)
      | finishing => exact ⟨haside.subscriptions, { haside.item with }, h.unsubscribed⟩

/-! ## Runs -/

/-- A message that goes on opens nothing by itself. -/
theorem isOpening_aside {p : EventPending} (h : s.isOpening = false) :
    { s with pending := s.pending.erase p }.isOpening = false := by
  refine isOpening_eq_false.mpr fun x hx => isOpening_eq_false.mp h x ?_
  exact ((List.erase_sublist.filterMap EventPending.created).append_right _).subset hx

/-- A message fails whose request has no item, or is asked for all the same. -/
theorem mayFail_asked {p : EventPending}
    (h : Kept { s with pending := s.pending.erase p } none (Eq r)) (hok : s.mayFail p r = true) :
    Kept { s with pending := s.pending.erase p } none noRequest := by
  refine h.reasked fun it hit hlive => ?_
  refine (h.item.asked it hit hlive).elim .inl fun heq => ?_
  rcases Bool.or_eq_true_iff.mp hok with hnone | hasks
  · have hor := List.all_eq_true.mp hnone it hit
    rcases Bool.or_eq_true_iff.mp hor with hdead | hother
    · have hlive : s.isLive it = true := hlive
      simp [hlive] at hdead
    · exact absurd heq.symm (of_decide_eq_true hother)
  · exact .inl (heq ▸ hasks)

theorem Kept.resumed {cfg : EventConfig} {s' : EventState} (h : Kept s none noRequest)
    {p : EventPending} (hok : s.isOrderly cfg (.resumed p a) = true)
    (hstep : s.resumed cfg p a = some s') : Kept s' none noRequest := by
  unfold EventState.resumed at hstep
  split at hstep
  next hp =>
    cases hstep
    cases p with
    | waiting m =>
        have haside : Kept { s with pending := s.pending.erase (.waiting m) } none noRequest :=
          h.resume hp nofun
        dsimp only
        split
        next hconnects =>
          simp only [isOrderly, hconnects, Bool.not_true, Bool.false_or] at hok
          split
          next hunsubscribe =>
            simp only [hunsubscribe, if_true, Bool.or_eq_true, Bool.not_eq_true'] at hok
            refine haside.unsubscribe fun hitem hsubscription => isOpening_aside ?_
            have hitem : s.monitoredItem = none := hitem
            have hsubscription : s.subscription = none := hsubscription
            simpa [hitem, hsubscription] using hok
          next hsubscribe =>
            simp only [hsubscribe, Bool.false_eq_true, if_false] at hok
            refine subscribe_kept haside m fun hvalid => ?_
            have hmay : s.mayOpen a = true := by simpa [hvalid] using hok
            rcases Bool.or_eq_true_iff.mp hmay with hleft | hopening
            · exact Bool.or_eq_true_iff.mpr (.inl hleft)
            · have hopening : s.isOpening = false := by simpa using hopening
              simp [mayOpen, isOpening_aside hopening]
        next => exact haside.failed a
    | subscribing r point =>
        have haside : Kept { s with pending := s.pending.erase (.subscribing r point) }
            point.created (Eq r) := h.resume hp fun r' hasks => of_decide_eq_true hasks
        apply Went.message
        cases point with
        | creating created =>
            cases created with
            | some x => exact recorded_went haside hok fun _ _ _ _ _ => .inr rfl
            | none => exact mayFail_asked haside hok
        | replacing item => exact replaced_went haside hok fun _ _ _ _ => .inr rfl
    | terminatingItem item =>
        have haside : Kept { s with pending := s.pending.erase (.terminatingItem item) } none
            noRequest := h.resume hp nofun
        apply haside.itemTerminated
        · intro hsettles
          simp only [isOrderly, hsettles, Bool.not_true, Bool.false_or, Bool.and_eq_true] at hok
          exact hok.1
        · intro hsettles hsubscription
          have hsubscription : s.subscription = none := hsubscription
          refine isOpening_aside ?_
          simp only [isOrderly, hsettles, Bool.not_true, Bool.false_or, Bool.and_eq_true] at hok
          simpa [hsubscription] using hok.2
    | terminatingSubscription x =>
        have haside : Kept { s with pending := s.pending.erase (.terminatingSubscription x) } none
            noRequest := h.resume hp nofun
        apply haside.subscriptionTerminated
        · intro hsettles
          refine isOpening_aside ?_
          simp only [isOrderly, hsettles, Bool.not_true, Bool.false_or, Bool.and_eq_true] at hok
          simpa using hok.1
        · intro hsettles y hy
          have hy : s.subscription = some y := hy
          simp only [isOrderly, hsettles, Bool.not_true, Bool.false_or, Bool.and_eq_true] at hok
          simpa [hy] using hok.2
    | recovering => exact h.resume hp nofun
  next => cases hstep

end

theorem kept_step {cfg : EventConfig} : Transition.Preserves (step cfg)
    (fun s e => s.isOrderly cfg e = true) fun s => Kept s none noRequest := by
  intro s e s' h hok hstep
  cases e with
  | message m =>
      cases hstep
      exact Kept.suspend (.waiting m) h nofun
  | resumed p a => exact h.resumed hok hstep
  | sessionRecreated =>
      cases hstep
      exact h.sessionRecreated
  | replayResumed a => exact h.replayResumed hok hstep

/-- No message is in flight and no replay runs. -/
def IsQuiescent (s : EventState) : Prop := s.pending = [] ∧ s.replay = none

/-- At rest one subscription and one item live at most, the item for the last
successful subscribe message, and none after an unsubscribe message. -/
structure AsAsked (s : EventState) : Prop where
  single : s.IsQuiescent → s.liveSubscriptions.length ≤ 1
  once : s.IsQuiescent → (s.items.filter s.isLive).length ≤ 1
  matching : s.IsQuiescent → ∀ it ∈ s.items, s.isLive it = true → s.subscribed = some it.request
  unsubscribed : s.IsQuiescent → s.unsubscribed = true →
    s.liveSubscriptions = [] ∧ s.items.filter s.isLive = []

/-- At most one item lives. -/
theorem ItemKept.length_le_one {s : EventState} {asking : EventRequest → Prop}
    (h : ItemKept s asking) : (s.items.filter s.isLive).length ≤ 1 := by
  have hdistinct : ((s.items.filter s.isLive).map EventItem.item).Nodup :=
    h.distinct.sublist (List.filter_sublist.map EventItem.item)
  rw [← List.length_map EventItem.item]
  refine OpenedOnce.length_le_one_of_forall (o := s.monitoredItem) hdistinct fun i hi => ?_
  obtain ⟨it, hit, rfl⟩ := List.mem_map.mp hi
  obtain ⟨hmem, hlive⟩ := List.mem_filter.mp hit
  exact h.recorded it hmem hlive

theorem Kept.asAsked {s : EventState} (h : Kept s none noRequest) : AsAsked s := by
  constructor
  case single =>
    rintro ⟨hpending, hreplay⟩
    have hcreated : s.created = [] := by simp [created, hpending, hreplay]
    have hopened := h.subscriptions
    rw [hcreated] at hopened
    exact hopened.length_le_one
  case once => exact fun _ => h.item.length_le_one
  case matching =>
    rintro ⟨hpending, -⟩ it hit hlive
    have hasks := (h.item.asked it hit hlive).resolve_right id
    simpa [asks, hpending] using hasks
  case unsubscribed =>
    intro _ hunsubscribed
    have hnone := h.unsubscribed hunsubscribed
    exact ⟨hnone, List.filter_eq_nil_iff.mpr fun it _ => by simp [isLive, hnone]⟩

/-- After any run whose steps are orderly the node is subscribed as it was asked to be. -/
theorem event_subscribed_as_asked {cfg : EventConfig} {es : List EventEvent} {s : EventState}
    (hok : Transition.Along (step cfg) (fun s e => s.isOrderly cfg e = true) {} es)
    (hrun : Transition.run (step cfg) {} es = some s) : AsAsked s :=
  (kept_step.run kept_initial hok hrun).asAsked

/-- A subscribe message, a new session, another subscribe message and an unsubscribe. -/
def orderlyRun : List EventEvent :=
  let r : EventRequest := ⟨js "i=2253", js "BaseEventType", 500⟩
  [.message {}, .resumed (.waiting {}) {}, .resumed (.subscribing r (.creating (some 0))) {},
    .sessionRecreated, .replayResumed {}, .replayResumed {}, .replayResumed {},
    .message {}, .resumed (.waiting {}) {}, .resumed (.subscribing r (.replacing 1)) {},
    .message { action := js "unsubscribe" }, .resumed (.waiting { action := js "unsubscribe" }) {},
    .resumed (.terminatingItem 2) {}, .resumed (.terminatingSubscription 1) {},
    .sessionRecreated]

theorem orderly_run_as_asked : ∃ s, Transition.run (step ⟨[], []⟩) {} orderlyRun = some s ∧
    AsAsked s := by
  obtain ⟨s, hrun⟩ := Option.isSome_iff_exists.mp
    (show (Transition.run (step ⟨[], []⟩) {} orderlyRun).isSome = true by decide +kernel)
  exact ⟨s, hrun, event_subscribed_as_asked (by decide +kernel) hrun⟩

/-- An unsubscribe message ends while a subscribe message awaits its subscription. -/
def overtakenRun : List EventEvent :=
  [.message {}, .resumed (.waiting {}) {}, .message { action := js "unsubscribe" },
    .resumed (.waiting { action := js "unsubscribe" }) {},
    .resumed (.subscribing ⟨js "i=2253", js "BaseEventType", 500⟩ (.creating (some 0))) {}]

theorem overtaken_subscription_lives : ¬ ∀ (cfg : EventConfig) (es : List EventEvent)
    (s : EventState), Transition.run (step cfg) {} es = some s → AsAsked s := by
  intro h
  have hrun : (Transition.run (step ⟨[], []⟩) {} overtakenRun).map (fun s =>
      (s.pending, s.replay, s.unsubscribed, s.liveSubscriptions)) =
        some ([], none, true, [0]) := by decide +kernel
  obtain ⟨s, hrun, heq⟩ := Option.map_eq_some_iff.mp hrun
  simp only [Prod.mk.injEq] at heq
  obtain ⟨hpending, hreplay, hunsubscribed, hlive⟩ := heq
  have hnone := ((h ⟨[], []⟩ overtakenRun s hrun).unsubscribed ⟨hpending, hreplay⟩
    hunsubscribed).1
  cases hlive.symm.trans hnone

end EventState

end OpcUaSuite.Nodes
