import OpcUaSuite.Lib.OpenedOnce
import OpcUaSuite.Nodes.ClientSubscription

/-!
# What the subscriptions keep

Between two suspensions the node, the messages in flight and the replay account
for every live subscription and item, as long as no library call fails for good
and no step runs into one that is suspended.
-/

namespace OpcUaSuite.Nodes

open Js

namespace Pending

/-- The subscription a message has opened and not yet recorded. -/
def created : Pending → Option Nat
  | .creating _ _ created => created
  | _ => none

/-- The subscription an unsubscribe message holds. -/
def captured : Pending → Option Nat
  | .terminatingItem _ _ subscription => subscription
  | .terminatingSubscription _ subscription => some subscription
  | _ => none

def subscribes (n : JsString) : Pending → Prop
  | .subscribing m _ | .creating m _ _ => m = n
  | _ => False

def unsubscribes (n : JsString) : Pending → Prop
  | .unsubscribing m | .terminatingItem m _ _ | .terminatingSubscription m _ => m = n
  | _ => False

def terminates (n : JsString) : Pending → Prop
  | .terminatingItem m _ _ | .terminatingSubscription m _ => m = n
  | _ => False

/-- The message awaits the end of a subscription. -/
def terminatesAll (x : Nat) : Pending → Bool
  | .terminatingSubscription _ y => decide (y = x)
  | _ => false

/-- The message stands in the way of a new item for the NodeId. -/
def blocks (n : JsString) : Pending → Bool
  | .terminatingItem m _ _ => decide (m = n)
  | .terminatingSubscription _ _ => true
  | _ => false

/-- The message is waiting for a subscription it has opened for the NodeId. -/
def createsFor (n : JsString) : Pending → Bool
  | .creating m _ (some _) => decide (m = n)
  | _ => false

end Pending

namespace Replay

def created (r : Replay) : Option Nat :=
  match r.point with
  | .creating _ _ created => created
  | .between => none

def createsFor (r : Replay) (n : JsString) : Bool :=
  match r.point with
  | .creating m _ (some _) => decide (m = n)
  | _ => false

end Replay

namespace SubscriptionState

/-- The subscriptions opened and not yet recorded. -/
def created (s : SubscriptionState) : List Nat :=
  s.pending.filterMap Pending.created ++ (s.replay.bind Replay.created).toList

/-- Nothing stands in the way of a new item, and the server takes it. -/
def canMonitor (s : SubscriptionState) (n : JsString) (a : SubscriptionAnswers) (retries : Bool) :
    Bool :=
  !(s.pending.any fun p => p.blocks n) &&
    (decide (n ∈ InsertionMap.keys s.monitorItems) || decide (a.monitoring = .accepted) ||
      (retries && decide (a.monitoring = .thrown)))

/-- A call of `handleSubscribe` goes on with the subscription there is, or opens
the only one; a message may fail here and be retried. -/
def canSubscribe (s : SubscriptionState) (n : JsString) (a : SubscriptionAnswers)
    (message : Bool) : Bool :=
  match s.subscription with
  | none => (message && !a.creates) || (a.creates && s.created.isEmpty)
  | some _ => s.canMonitor n a (message && a.retries)

/-- The subscription of the node is the one an unsubscribe has terminated, or
another is terminated as well. -/
def mayDrop (s : SubscriptionState) (subscription : Nat) : Bool :=
  s.subscription.all fun x => decide (x = subscription) || s.pending.any fun p => p.terminatesAll x

/-- The topic the replay subscribes next. -/
def nextTopic (s : SubscriptionState) (rest : List JsString) : Option JsString :=
  rest.find? fun n => (InsertionMap.get? n s.monitorItems).isNone &&
    (InsertionMap.get? n s.subscribedTopics).isSome

/-- The step runs into no other that is suspended, and no library call fails for good. -/
def isOrderly (s : SubscriptionState) : SubscriptionEvent → Bool
  | .subscribe _ _ | .unsubscribe _ => true
  | .resumed (.subscribing n _) a => s.canSubscribe n a true
  | .resumed (.creating n _ (some _)) a => s.canMonitor n a a.retries
  | .resumed (.creating _ _ none) a => a.retries
  | .resumed (.unsubscribing n) _ =>
      !(s.pending.any fun p => p.createsFor n) && !(s.replay.any fun r => r.createsFor n)
  | .resumed (.terminatingItem _ _ _) a => a.settles || a.retries
  | .resumed (.terminatingSubscription _ subscription) a =>
      (a.settles || !decide (subscription ∈ s.liveSubscriptions)) && s.mayDrop subscription
  | .sessionRecreated a =>
      s.created.isEmpty && s.replay.isNone && (a.creates || s.subscribedTopics.isEmpty)
  | .replayResumed a =>
      match s.replay with
      | none => true
      | some r =>
          match r.point with
          | .creating n _ (some _) => s.canMonitor n a false
          | .creating _ _ none => false
          | .between => (s.nextTopic r.rest).all fun n => s.canSubscribe n a false

/-! ## The invariant -/

/-- The subscription of the node lives; every other that lives is on its way to the
node or to its end. -/
structure SubscriptionsKept (subscription : Option Nat) (live created : List Nat)
    (pending : List Pending) (nextSubscription : Nat) : Prop where
  current : ∀ x, subscription = some x → x ∈ live
  owned : ∀ x ∈ live, subscription = some x ∨ x ∈ created ∨
    ∃ n, .terminatingSubscription n x ∈ pending
  single : created.length ≤ 1
  opened : ∀ x ∈ created, x ∈ live ∧ subscription = none ∧ ∀ p ∈ pending, p.captured ≠ some x
  nodup : live.Nodup
  numbers : ∀ x ∈ live, x < nextSubscription
  captured : ∀ p ∈ pending, ∀ x, p.captured = some x → x < nextSubscription

/-- The map of the node has the live items and no others. -/
structure ItemsKept (subscription : Option Nat) (monitorItems : InsertionMap JsString Nat)
    (live : List Nat) (items : List MonitoredItem) (pending : List Pending)
    (nextItem nextSubscription : Nat) : Prop where
  tracked : ∀ e ∈ monitorItems, ∃ x, subscription = some x ∧ ⟨e.2, e.1, x⟩ ∈ items
  live : ∀ it ∈ items, it.subscription ∈ live → (it.nodeId, it.item) ∈ monitorItems
  nodup : (InsertionMap.keys monitorItems).Nodup
  numbers : ∀ it ∈ items, it.item < nextItem ∧ it.subscription < nextSubscription
  distinct : ∀ it ∈ items, ∀ it' ∈ items, it.item = it'.item → it = it'
  terminating : ∀ n i c, .terminatingItem n i c ∈ pending → i < nextItem ∧
    (∀ it ∈ items, it.item = i → it.nodeId = n) ∧ ∀ j, (n, j) ∈ monitorItems → j = i
  emptied : ∀ n x, .terminatingSubscription n x ∈ pending → monitorItems = []

/-- The topics the replay still has to subscribe. -/
def unreached (replay : Option Replay) : List JsString :=
  match replay with
  | none => []
  | some ⟨rest, .creating n _ _⟩ => n :: rest
  | some ⟨rest, .between⟩ => rest

/-- A topic has an item or is about to have one, and it is one that was last subscribed. -/
structure TopicsKept (keys topics : List JsString) (replay : Option Replay)
    (pending : List Pending) (completed : InsertionMap JsString Bool) : Prop where
  monitored : ∀ n ∈ topics, n ∈ keys ∨ (∃ p ∈ pending, p.subscribes n) ∨ n ∈ unreached replay
  remembered : ∀ n ∈ keys, n ∈ topics ∨ ∃ p ∈ pending, p.unsubscribes n
  asked : ∀ n ∈ topics, (∃ p ∈ pending, p.subscribes n) ∨
    InsertionMap.get? n completed = some true
  dropped : ∀ n, InsertionMap.get? n completed = some true → n ∈ topics ∨
    ∃ p ∈ pending, p.unsubscribes n
  renewed : ∀ p ∈ pending, ∀ n ∈ topics, p.terminates n → ∃ q ∈ pending, q.subscribes n
  creating : ∀ p ∈ pending, ∀ n, p.createsFor n = true → n ∈ topics
  replayed : ∀ n ∈ unreached replay, n ∈ topics
  opening : ∀ rest n o, replay ≠ some ⟨rest, .creating n o none⟩

structure Kept (s : SubscriptionState) : Prop where
  subscriptions : SubscriptionsKept s.subscription s.liveSubscriptions s.created s.pending
    s.nextSubscription
  items : ItemsKept s.subscription s.monitorItems s.liveSubscriptions s.items s.pending s.nextItem
    s.nextSubscription
  topics : TopicsKept (InsertionMap.keys s.monitorItems) (InsertionMap.keys s.subscribedTopics)
    s.replay s.pending s.completed

/-! ## Subscriptions -/

section

variable {subscription : Option Nat} {live created : List Nat} {pending pending' : List Pending}
  {nextSubscription : Nat}

/-- Messages go on without opening or ending a subscription. -/
theorem SubscriptionsKept.repend
    (h : SubscriptionsKept subscription live created pending nextSubscription)
    (hkeep : ∀ n x, .terminatingSubscription n x ∈ pending →
      .terminatingSubscription n x ∈ pending')
    (hnew : ∀ p ∈ pending', p ∈ pending ∨
      ∀ x, p.captured = some x → x < nextSubscription ∧ x ∉ created) :
    SubscriptionsKept subscription live created pending' nextSubscription where
  current := h.current
  owned x hx := by
    rcases h.owned x hx with hcur | hcreated | ⟨n, hmem⟩
    · exact Or.inl hcur
    · exact Or.inr (Or.inl hcreated)
    · exact Or.inr (Or.inr ⟨n, hkeep n x hmem⟩)
  single := h.single
  opened x hx := by
    obtain ⟨hlive, hnone, hcaptured⟩ := h.opened x hx
    refine ⟨hlive, hnone, fun p hp heq => ?_⟩
    rcases hnew p hp with hp | hp
    · exact hcaptured p hp heq
    · exact (hp x heq).2 hx
  nodup := h.nodup
  numbers := h.numbers
  captured p hp x hx := by
    rcases hnew p hp with hp | hp
    · exact h.captured p hp x hx
    · exact (hp x hx).1

/-- A message opens the only subscription on its way to the node. -/
theorem SubscriptionsKept.create (h : SubscriptionsKept none live [] pending nextSubscription) :
    SubscriptionsKept none (nextSubscription :: live) [nextSubscription] pending
      (nextSubscription + 1) where
  current _ hcur := by cases hcur
  owned x hx := by
    rcases List.mem_cons.mp hx with rfl | hx
    · exact Or.inr (Or.inl List.mem_cons_self)
    · rcases h.owned x hx with hcur | hcreated | hmem
      · cases hcur
      · cases hcreated
      · exact Or.inr (Or.inr hmem)
  single := Nat.le_refl _
  opened x hx := by
    obtain rfl := List.mem_singleton.mp hx
    refine ⟨List.mem_cons_self, rfl, fun p hp heq => ?_⟩
    exact absurd (h.captured p hp x heq) (Nat.lt_irrefl x)
  nodup := List.nodup_cons.mpr ⟨fun hmem => Nat.lt_irrefl _ (h.numbers _ hmem), h.nodup⟩
  numbers x hx := by
    rcases List.mem_cons.mp hx with rfl | hx
    · exact Nat.lt_succ_self x
    · exact Nat.lt_succ_of_lt (h.numbers x hx)
  captured p hp x hx := Nat.lt_succ_of_lt (h.captured p hp x hx)

/-- The node records the subscription that was on its way. -/
theorem SubscriptionsKept.record {x : Nat}
    (h : SubscriptionsKept subscription live [x] pending nextSubscription) :
    SubscriptionsKept (some x) live [] pending nextSubscription where
  current y hy := by
    obtain rfl := Option.some.inj hy
    exact (h.opened x List.mem_cons_self).1
  owned y hy := by
    rcases h.owned y hy with hcur | hcreated | hmem
    · cases (h.opened x List.mem_cons_self).2.1.symm.trans hcur
    · exact Or.inl (congrArg some (List.mem_singleton.mp hcreated).symm)
    · exact Or.inr (Or.inr hmem)
  single := Nat.zero_le 1
  opened _ hy := by cases hy
  nodup := h.nodup
  numbers := h.numbers
  captured := h.captured

/-- An unsubscribe has terminated a subscription. -/
theorem SubscriptionsKept.terminated {x : Nat} {n : JsString}
    (h : SubscriptionsKept subscription live created (.terminatingSubscription n x :: pending)
      nextSubscription)
    (hdrop : ∀ y, subscription = some y → y = x ∨ ∃ m, .terminatingSubscription m y ∈ pending) :
    SubscriptionsKept none (live.filter (· ≠ x)) created pending nextSubscription where
  current _ hcur := by cases hcur
  owned y hy := by
    obtain ⟨hy, hne⟩ := List.mem_filter.mp hy
    have hne := of_decide_eq_true hne
    rcases h.owned y hy with hcur | hcreated | ⟨m, hmem⟩
    · exact Or.inr (Or.inr ((hdrop y hcur).resolve_left hne))
    · exact Or.inr (Or.inl hcreated)
    · rcases List.mem_cons.mp hmem with heq | hmem
      · cases heq
        exact absurd rfl hne
      · exact Or.inr (Or.inr ⟨m, hmem⟩)
  single := h.single
  opened y hy := by
    obtain ⟨hlive, hnone, hcaptured⟩ := h.opened y hy
    refine ⟨List.mem_filter.mpr ⟨hlive, decide_eq_true ?_⟩, rfl,
      fun p hp => hcaptured p (List.mem_cons_of_mem _ hp)⟩
    rintro rfl
    exact hcaptured _ List.mem_cons_self rfl
  nodup := h.nodup.filter _
  numbers y hy := h.numbers y (List.mem_filter.mp hy).1
  captured p hp := h.captured p (List.mem_cons_of_mem _ hp)

/-- The session is replaced while no subscription is on its way. -/
theorem SubscriptionsKept.reset
    (h : SubscriptionsKept subscription live created pending nextSubscription) :
    SubscriptionsKept none [] [] pending nextSubscription where
  current _ hcur := by cases hcur
  owned _ hx := by cases hx
  single := Nat.zero_le 1
  opened _ hx := by cases hx
  nodup := List.nodup_nil
  numbers _ hx := by cases hx
  captured := h.captured

end

/-! ## Items -/

section

variable {subscription : Option Nat} {monitorItems : InsertionMap JsString Nat} {live : List Nat}
  {items : List MonitoredItem} {pending pending' : List Pending} {nextItem nextSubscription : Nat}

/-- Messages go on without terminating anything. -/
theorem ItemsKept.repend
    (h : ItemsKept subscription monitorItems live items pending nextItem nextSubscription)
    (hnew : ∀ p ∈ pending', p ∈ pending ∨ ∀ n, ¬ p.terminates n) :
    ItemsKept subscription monitorItems live items pending' nextItem nextSubscription where
  tracked := h.tracked
  live := h.live
  nodup := h.nodup
  numbers := h.numbers
  distinct := h.distinct
  terminating n i c hp := h.terminating n i c ((hnew _ hp).resolve_right fun hno => hno n rfl)
  emptied n x hp := h.emptied n x ((hnew _ hp).resolve_right fun hno => hno n rfl)

theorem ItemsKept.nil_of_none
    (h : ItemsKept none monitorItems live items pending nextItem nextSubscription) :
    monitorItems = [] := by
  refine List.eq_nil_iff_forall_not_mem.mpr fun e he => ?_
  obtain ⟨x, hx, -⟩ := h.tracked e he
  cases hx

theorem ItemsKept.create
    (h : ItemsKept subscription monitorItems live items pending nextItem nextSubscription) :
    ItemsKept subscription monitorItems (nextSubscription :: live) items pending nextItem
      (nextSubscription + 1) where
  tracked := h.tracked
  live it hit hlive := by
    rcases List.mem_cons.mp hlive with heq | hlive
    · exact absurd (h.numbers it hit).2 (heq ▸ Nat.lt_irrefl _)
    · exact h.live it hit hlive
  nodup := h.nodup
  numbers it hit := ⟨(h.numbers it hit).1, Nat.lt_succ_of_lt (h.numbers it hit).2⟩
  distinct := h.distinct
  terminating := h.terminating
  emptied := h.emptied

theorem ItemsKept.record
    (h : ItemsKept none monitorItems live items pending nextItem nextSubscription) (x : Nat) :
    ItemsKept (some x) monitorItems live items pending nextItem nextSubscription where
  tracked e he := by
    rw [h.nil_of_none] at he
    cases he
  live := h.live
  nodup := h.nodup
  numbers := h.numbers
  distinct := h.distinct
  terminating := h.terminating
  emptied := h.emptied

/-- A new item on the subscription of the node, for a NodeId that has none. -/
theorem ItemsKept.monitor {x : Nat} {n : JsString}
    (h : ItemsKept (some x) monitorItems live items pending nextItem nextSubscription)
    (hx : x < nextSubscription) (hn : n ∉ InsertionMap.keys monitorItems)
    (hfree : ∀ p ∈ pending, p.blocks n = false) :
    ItemsKept (some x) (InsertionMap.set n nextItem monitorItems) live (⟨nextItem, n, x⟩ :: items)
      pending (nextItem + 1) nextSubscription where
  tracked e he := by
    rcases InsertionMap.mem_of_mem_set he with he | rfl
    · obtain ⟨y, hy, hmem⟩ := h.tracked e he
      exact ⟨y, hy, List.mem_cons_of_mem _ hmem⟩
    · exact ⟨x, rfl, List.mem_cons_self⟩
  live it hit hlive := by
    rw [InsertionMap.set_of_not_mem hn]
    rcases List.mem_cons.mp hit with rfl | hit
    · exact List.mem_append_right _ List.mem_cons_self
    · exact List.mem_append_left _ (h.live it hit hlive)
  nodup := InsertionMap.nodup_set h.nodup
  numbers it hit := by
    rcases List.mem_cons.mp hit with rfl | hit
    · exact ⟨Nat.lt_succ_self _, hx⟩
    · exact ⟨Nat.lt_succ_of_lt (h.numbers it hit).1, (h.numbers it hit).2⟩
  distinct it hit it' hit' heq := by
    rcases List.mem_cons.mp hit with rfl | hit <;> rcases List.mem_cons.mp hit' with rfl | hit'
    · rfl
    · exact absurd (h.numbers it' hit').1 (heq ▸ Nat.lt_irrefl _)
    · exact absurd (h.numbers it hit).1 (heq ▸ Nat.lt_irrefl _)
    · exact h.distinct it hit it' hit' heq
  terminating m i c hp := by
    obtain ⟨hi, hitem, hentry⟩ := h.terminating m i c hp
    refine ⟨Nat.lt_succ_of_lt hi, ?_, ?_⟩
    · intro it hit heq
      rcases List.mem_cons.mp hit with rfl | hit
      · exact absurd hi (heq ▸ Nat.lt_irrefl _)
      · exact hitem it hit heq
    · intro j hj
      rcases InsertionMap.mem_of_mem_set hj with hj | heq
      · exact hentry j hj
      · cases heq
        have hblocks := hfree _ hp
        simp [Pending.blocks] at hblocks
  emptied m y hp := by
    have hblocks := hfree _ hp
    simp [Pending.blocks] at hblocks

/-- An unsubscribe begins to terminate the item of its NodeId. -/
theorem ItemsKept.beginTerminating {n : JsString} {i : Nat} {c : Option Nat}
    (h : ItemsKept subscription monitorItems live items pending nextItem nextSubscription)
    (hmem : (n, i) ∈ monitorItems) :
    ItemsKept subscription monitorItems live items (.terminatingItem n i c :: pending) nextItem
      nextSubscription where
  tracked := h.tracked
  live := h.live
  nodup := h.nodup
  numbers := h.numbers
  distinct := h.distinct
  terminating m j d hp := by
    rcases List.mem_cons.mp hp with heq | hp
    · cases heq
      obtain ⟨x, -, hitem⟩ := h.tracked _ hmem
      refine ⟨(h.numbers _ hitem).1, fun it hit heq => ?_, fun k hk => ?_⟩
      · rw [h.distinct it hit _ hitem heq]
      · have hget := InsertionMap.get?_of_mem h.nodup hmem
        exact Option.some.inj ((InsertionMap.get?_of_mem h.nodup hk).symm.trans hget)
    · exact h.terminating m j d hp
  emptied m y hp := by
    rcases List.mem_cons.mp hp with heq | hp
    · cases heq
    · exact h.emptied m y hp

/-- The item of a NodeId is terminated. -/
theorem ItemsKept.itemTerminated {n : JsString} {i : Nat} {c : Option Nat}
    (h : ItemsKept subscription monitorItems live items (.terminatingItem n i c :: pending)
      nextItem nextSubscription) :
    ItemsKept subscription (InsertionMap.erase n monitorItems) live (items.filter (·.item ≠ i))
      pending nextItem nextSubscription where
  tracked e he := by
    obtain ⟨he, hne⟩ := List.mem_filter.mp he
    obtain ⟨x, hx, hitem⟩ := h.tracked e he
    refine ⟨x, hx, List.mem_filter.mpr ⟨hitem, decide_eq_true fun heq => ?_⟩⟩
    exact of_decide_eq_true hne ((h.terminating n i c List.mem_cons_self).2.1 _ hitem heq)
  live it hit hlive := by
    obtain ⟨hit, hne⟩ := List.mem_filter.mp hit
    have hmem := h.live it hit hlive
    refine List.mem_filter.mpr ⟨hmem, decide_eq_true fun heq => ?_⟩
    have heq : it.nodeId = n := heq
    rw [heq] at hmem
    exact of_decide_eq_true hne ((h.terminating n i c List.mem_cons_self).2.2 _ hmem)
  nodup := InsertionMap.nodup_filter h.nodup
  numbers it hit := h.numbers it (List.mem_filter.mp hit).1
  distinct it hit it' hit' := h.distinct it (List.mem_filter.mp hit).1 it' (List.mem_filter.mp hit').1
  terminating m j d hp := by
    obtain ⟨hj, hitem, hentry⟩ := h.terminating m j d (List.mem_cons_of_mem _ hp)
    exact ⟨hj, fun it hit => hitem it (List.mem_filter.mp hit).1,
      fun k hk => hentry k (List.mem_filter.mp hk).1⟩
  emptied m y hp := by
    rw [h.emptied m y (List.mem_cons_of_mem _ hp)]
    rfl

/-- The last unsubscribe begins to terminate the subscription. -/
theorem ItemsKept.beginTerminatingAll {n : JsString} {x : Nat}
    (h : ItemsKept subscription monitorItems live items pending nextItem nextSubscription)
    (hnil : monitorItems = []) :
    ItemsKept subscription monitorItems live items (.terminatingSubscription n x :: pending)
      nextItem nextSubscription where
  tracked := h.tracked
  live := h.live
  nodup := h.nodup
  numbers := h.numbers
  distinct := h.distinct
  terminating m j d hp := by
    rcases List.mem_cons.mp hp with heq | hp
    · cases heq
    · exact h.terminating m j d hp
  emptied _ _ _ := hnil

/-- The subscription goes when no item is left. -/
theorem ItemsKept.drop {live' : List Nat}
    (h : ItemsKept subscription monitorItems live items pending nextItem nextSubscription)
    (hnil : monitorItems = []) (hlive : live' ⊆ live) :
    ItemsKept none monitorItems live' items pending nextItem nextSubscription where
  tracked e he := by
    rw [hnil] at he
    cases he
  live it hit hmem := h.live it hit (hlive hmem)
  nodup := h.nodup
  numbers := h.numbers
  distinct := h.distinct
  terminating := h.terminating
  emptied := h.emptied

/-- With the session all items are gone. -/
theorem ItemsKept.reset
    (h : ItemsKept subscription monitorItems live items pending nextItem nextSubscription) :
    ItemsKept none [] [] items pending nextItem nextSubscription where
  tracked _ he := by cases he
  live _ _ hlive := by cases hlive
  nodup := List.nodup_nil
  numbers := h.numbers
  distinct := h.distinct
  terminating n i c hp := by
    obtain ⟨hi, hitem, -⟩ := h.terminating n i c hp
    exact ⟨hi, hitem, fun _ hj => by cases hj⟩
  emptied _ _ _ := rfl

end

/-! ## Topics -/

section

variable {keys keys' topics topics' : List JsString} {replay replay' : Option Replay}
  {pending pending' : List Pending} {completed : InsertionMap JsString Bool} {n : JsString}

/-- Messages go on without a change of the topics. -/
theorem TopicsKept.repend (h : TopicsKept keys topics replay pending completed)
    (hsubscribes : ∀ m, (∃ p ∈ pending, p.subscribes m) → ∃ p ∈ pending', p.subscribes m)
    (hunsubscribes : ∀ m, (∃ p ∈ pending, p.unsubscribes m) → ∃ p ∈ pending', p.unsubscribes m)
    (hnew : ∀ p ∈ pending', p ∈ pending ∨
      (∀ m ∈ topics, p.terminates m → ∃ q ∈ pending', q.subscribes m) ∧
        ∀ m, p.createsFor m = true → m ∈ topics) :
    TopicsKept keys topics replay pending' completed where
  monitored m hm := by
    rcases h.monitored m hm with hkey | hp | hrest
    · exact Or.inl hkey
    · exact Or.inr (Or.inl (hsubscribes m hp))
    · exact Or.inr (Or.inr hrest)
  remembered m hm := (h.remembered m hm).imp_right (hunsubscribes m)
  asked m hm := (h.asked m hm).imp_left (hsubscribes m)
  dropped m hm := (h.dropped m hm).imp_right (hunsubscribes m)
  renewed p hp m hm hterminates := by
    rcases hnew p hp with hp | hp
    · exact hsubscribes m (h.renewed p hp m hm hterminates)
    · exact hp.1 m hm hterminates
  creating p hp m hcreates := by
    rcases hnew p hp with hp | hp
    · exact h.creating p hp m hcreates
    · exact hp.2 m hcreates
  replayed := h.replayed
  opening := h.opening

/-- A message about to subscribe a NodeId makes it a topic. -/
theorem TopicsKept.remember (h : TopicsKept keys topics replay pending completed)
    (hpending : ∃ p ∈ pending, p.subscribes n) (htopics : ∀ m, m ∈ topics' ↔ m ∈ topics ∨ m = n)
    (hreach : ∀ m ∈ unreached replay, m ∈ unreached replay')
    (hreach' : ∀ m ∈ unreached replay', m ∈ unreached replay ∨ m = n)
    (hopening : ∀ rest m o, replay' ≠ some ⟨rest, .creating m o none⟩) :
    TopicsKept keys topics' replay' pending completed where
  monitored m hm := by
    rcases (htopics m).mp hm with hm | rfl
    · rcases h.monitored m hm with hkey | hp | hrest
      · exact Or.inl hkey
      · exact Or.inr (Or.inl hp)
      · exact Or.inr (Or.inr (hreach m hrest))
    · exact Or.inr (Or.inl hpending)
  remembered m hm := (h.remembered m hm).imp_left fun hm => (htopics m).mpr (Or.inl hm)
  asked m hm := by
    rcases (htopics m).mp hm with hm | rfl
    · exact h.asked m hm
    · exact Or.inl hpending
  dropped m hm := (h.dropped m hm).imp_left fun hm => (htopics m).mpr (Or.inl hm)
  renewed p hp m hm hterminates := by
    rcases (htopics m).mp hm with hm | rfl
    · exact h.renewed p hp m hm hterminates
    · exact hpending
  creating p hp m hcreates := (htopics m).mpr (Or.inl (h.creating p hp m hcreates))
  replayed m hm := (htopics m).mpr ((hreach' m hm).imp_left (h.replayed m))
  opening := hopening

/-- A message about to unsubscribe a NodeId makes it no topic. -/
theorem TopicsKept.forget (h : TopicsKept keys topics replay pending completed)
    (hpending : ∃ p ∈ pending, p.unsubscribes n)
    (hcreates : ∀ p ∈ pending, p.createsFor n = false)
    (htopics : ∀ m, m ∈ topics' ↔ m ∈ topics ∧ m ≠ n)
    (hreach : ∀ m, m ∈ unreached replay' ↔ m ∈ unreached replay ∧ m ≠ n)
    (hopening : ∀ rest m o, replay' ≠ some ⟨rest, .creating m o none⟩) :
    TopicsKept keys topics' replay' pending completed where
  monitored m hm := by
    obtain ⟨hm, hne⟩ := (htopics m).mp hm
    rcases h.monitored m hm with hkey | hp | hrest
    · exact Or.inl hkey
    · exact Or.inr (Or.inl hp)
    · exact Or.inr (Or.inr ((hreach m).mpr ⟨hrest, hne⟩))
  remembered m hm := by
    by_cases heq : m = n
    · exact Or.inr (heq ▸ hpending)
    · exact (h.remembered m hm).imp_left fun hm => (htopics m).mpr ⟨hm, heq⟩
  asked m hm := h.asked m ((htopics m).mp hm).1
  dropped m hm := by
    by_cases heq : m = n
    · exact Or.inr (heq ▸ hpending)
    · exact (h.dropped m hm).imp_left fun hm => (htopics m).mpr ⟨hm, heq⟩
  renewed p hp m hm := h.renewed p hp m ((htopics m).mp hm).1
  creating p hp m hm := by
    refine (htopics m).mpr ⟨h.creating p hp m hm, fun heq => ?_⟩
    rw [heq, hcreates p hp] at hm
    cases hm
  replayed m hm := by
    obtain ⟨hm, hne⟩ := (hreach m).mp hm
    exact (htopics m).mpr ⟨h.replayed m hm, hne⟩
  opening := hopening

/-- A topic has an item now. -/
theorem TopicsKept.monitor (h : TopicsKept keys topics replay pending completed)
    (hn : n ∈ topics) (hkeys : ∀ m, m ∈ keys' ↔ m ∈ keys ∨ m = n) :
    TopicsKept keys' topics replay pending completed where
  monitored m hm := (h.monitored m hm).imp_left fun hm => (hkeys m).mpr (Or.inl hm)
  remembered m hm := by
    rcases (hkeys m).mp hm with hm | rfl
    · exact h.remembered m hm
    · exact Or.inl hn
  asked := h.asked
  dropped := h.dropped
  renewed := h.renewed
  creating := h.creating
  replayed := h.replayed
  opening := h.opening

/-- A NodeId has no item any more; if it is a topic again, a message is subscribing it. -/
theorem TopicsKept.unmonitor (h : TopicsKept keys topics replay pending completed)
    (hkeys : ∀ m, m ∈ keys' ↔ m ∈ keys ∧ m ≠ n)
    (hrenewed : n ∈ topics → ∃ p ∈ pending, p.subscribes n) :
    TopicsKept keys' topics replay pending completed where
  monitored m hm := by
    by_cases heq : m = n
    · exact Or.inr (Or.inl (heq ▸ hrenewed (heq ▸ hm)))
    · exact (h.monitored m hm).imp_left fun hm => (hkeys m).mpr ⟨hm, heq⟩
  remembered m hm := h.remembered m ((hkeys m).mp hm).1
  asked := h.asked
  dropped := h.dropped
  renewed := h.renewed
  creating := h.creating
  replayed := h.replayed
  opening := h.opening

/-- A message has subscribed its NodeId. -/
theorem TopicsKept.subscribed {o : SubscribeOptions}
    (h : TopicsKept keys topics replay (.subscribing n o :: pending) completed)
    (hn : n ∈ topics) (hkey : n ∈ keys) (hfree : ∀ p ∈ pending, ¬ p.terminates n) :
    TopicsKept keys topics replay pending (InsertionMap.set n true completed) := by
  have hother : ∀ m, (∃ p ∈ Pending.subscribing n o :: pending, p.subscribes m) → m ≠ n →
      ∃ p ∈ pending, p.subscribes m := by
    intro m hm hne
    exact ((List.exists_mem_cons_iff _ _ _).mp hm).resolve_left fun hm => hne hm.symm
  have hunsubscribes : ∀ m, (∃ p ∈ Pending.subscribing n o :: pending, p.unsubscribes m) →
      ∃ p ∈ pending, p.unsubscribes m := by
    intro m hm
    exact ((List.exists_mem_cons_iff _ _ _).mp hm).resolve_left fun hm => hm.elim
  constructor
  case monitored =>
    intro m hm
    by_cases heq : m = n
    · exact Or.inl (heq ▸ hkey)
    · rcases h.monitored m hm with hm | hp | hrest
      · exact Or.inl hm
      · exact Or.inr (Or.inl (hother m hp heq))
      · exact Or.inr (Or.inr hrest)
  case remembered => exact fun m hm => (h.remembered m hm).imp_right (hunsubscribes m)
  case asked =>
    intro m hm
    by_cases heq : m = n
    · exact Or.inr (heq ▸ InsertionMap.get?_set_self n true completed)
    · rw [InsertionMap.get?_set_of_ne heq]
      exact (h.asked m hm).imp_left fun hp => hother m hp heq
  case dropped =>
    intro m hm
    by_cases heq : m = n
    · exact Or.inl (heq ▸ hn)
    · rw [InsertionMap.get?_set_of_ne heq] at hm
      exact (h.dropped m hm).imp_right (hunsubscribes m)
  case renewed =>
    intro p hp m hm hterminates
    refine hother m (h.renewed p (List.mem_cons_of_mem _ hp) m hm hterminates) fun heq => ?_
    exact hfree p hp (heq ▸ hterminates)
  case creating => exact fun p hp => h.creating p (List.mem_cons_of_mem _ hp)
  case replayed => exact h.replayed
  case opening => exact h.opening

/-- A message has unsubscribed its NodeId. -/
theorem TopicsKept.unsubscribed
    (h : TopicsKept keys topics replay (.unsubscribing n :: pending) completed)
    (hkey : n ∉ keys) (hrenewed : n ∈ topics → ∃ p ∈ pending, p.subscribes n) :
    TopicsKept keys topics replay pending (InsertionMap.set n false completed) := by
  have hsubscribes : ∀ m, (∃ p ∈ Pending.unsubscribing n :: pending, p.subscribes m) →
      ∃ p ∈ pending, p.subscribes m := by
    intro m hm
    exact ((List.exists_mem_cons_iff _ _ _).mp hm).resolve_left fun hm => hm.elim
  have hother : ∀ m, (∃ p ∈ Pending.unsubscribing n :: pending, p.unsubscribes m) → m ≠ n →
      ∃ p ∈ pending, p.unsubscribes m := by
    intro m hm hne
    exact ((List.exists_mem_cons_iff _ _ _).mp hm).resolve_left fun hm => hne hm.symm
  constructor
  case monitored =>
    intro m hm
    rcases h.monitored m hm with hm | hp | hrest
    · exact Or.inl hm
    · exact Or.inr (Or.inl (hsubscribes m hp))
    · exact Or.inr (Or.inr hrest)
  case remembered =>
    intro m hm
    exact (h.remembered m hm).imp_right fun hp => hother m hp fun heq => hkey (heq ▸ hm)
  case asked =>
    intro m hm
    by_cases heq : m = n
    · exact Or.inl (heq ▸ hrenewed (heq ▸ hm))
    · rw [InsertionMap.get?_set_of_ne heq]
      exact (h.asked m hm).imp_left (hsubscribes m)
  case dropped =>
    intro m hm
    by_cases heq : m = n
    · rw [heq, InsertionMap.get?_set_self] at hm
      cases hm
    · rw [InsertionMap.get?_set_of_ne heq] at hm
      exact (h.dropped m hm).imp_right fun hp => hother m hp heq
  case renewed =>
    intro p hp m hm hterminates
    exact hsubscribes m (h.renewed p (List.mem_cons_of_mem _ hp) m hm hterminates)
  case creating => exact fun p hp => h.creating p (List.mem_cons_of_mem _ hp)
  case replayed => exact h.replayed
  case opening => exact h.opening

/-- The replay goes on past topics that have their item. -/
theorem TopicsKept.advance (h : TopicsKept keys topics replay pending completed)
    (hreach : ∀ m ∈ unreached replay, m ∈ keys ∨ m ∈ unreached replay')
    (hreach' : ∀ m ∈ unreached replay', m ∈ unreached replay)
    (hopening : ∀ rest m o, replay' ≠ some ⟨rest, .creating m o none⟩) :
    TopicsKept keys topics replay' pending completed where
  monitored m hm := by
    rcases h.monitored m hm with hm | hp | hrest
    · exact Or.inl hm
    · exact Or.inr (Or.inl hp)
    · exact (hreach m hrest).imp_right Or.inr
  remembered := h.remembered
  asked := h.asked
  dropped := h.dropped
  renewed := h.renewed
  creating := h.creating
  replayed m hm := h.replayed m (hreach' m hm)
  opening := hopening

/-- With a new session the replay begins with every topic. -/
theorem TopicsKept.restart (h : TopicsKept keys topics replay pending completed) :
    TopicsKept [] topics (some ⟨topics, .between⟩) pending completed where
  monitored _ hm := Or.inr (Or.inr hm)
  remembered _ hm := by cases hm
  asked := h.asked
  dropped := h.dropped
  renewed := h.renewed
  creating := h.creating
  replayed _ hm := hm
  opening _ _ _ heq := by cases heq

end

/-! ## Messages -/

theorem created_suspend (s : SubscriptionState) (p : Pending) :
    (s.suspend p).created = p.created.toList ++ s.created := by
  unfold created suspend
  cases hp : p.created with
  | none => simp [hp]
  | some x => simp [hp]

theorem Kept.arrive {s : SubscriptionState} (h : Kept s) {p : Pending}
    (hp : p.created = none ∧ p.captured = none) (hterminates : ∀ n, ¬ p.terminates n)
    (hcreates : ∀ n, p.createsFor n = false) : Kept (s.suspend p) where
  subscriptions := by
    rw [created_suspend, hp.1]
    refine h.subscriptions.repend (fun n x hmem => List.mem_cons_of_mem _ hmem) fun q hq => ?_
    rcases List.mem_cons.mp hq with rfl | hq
    · exact Or.inr fun x hx => by cases hp.2.symm.trans hx
    · exact Or.inl hq
  items := by
    refine h.items.repend fun q hq => ?_
    rcases List.mem_cons.mp hq with rfl | hq
    · exact Or.inr hterminates
    · exact Or.inl hq
  topics := by
    refine h.topics.repend ?_ ?_ fun q hq => ?_
    · exact fun m ⟨q, hq, hm⟩ => ⟨q, List.mem_cons_of_mem _ hq, hm⟩
    · exact fun m ⟨q, hq, hm⟩ => ⟨q, List.mem_cons_of_mem _ hq, hm⟩
    · rcases List.mem_cons.mp hq with rfl | hq
      · refine Or.inr ⟨fun m _ hm => absurd hm (hterminates m), fun m hm => ?_⟩
        cases (hcreates m).symm.trans hm
      · exact Or.inl hq

/-- The message that goes on is set apart from the others. -/
theorem Kept.resume {s : SubscriptionState} (h : Kept s) {p : Pending} (hp : p ∈ s.pending) :
    Kept ({ s with pending := s.pending.erase p }.suspend p) := by
  have hperm : s.pending.Perm (p :: s.pending.erase p) := List.perm_cons_erase hp
  have hcreated : s.created.Perm ({ s with pending := s.pending.erase p }.suspend p).created :=
    (hperm.filterMap Pending.created).append_right _
  have hmem : ∀ q, q ∈ p :: s.pending.erase p → q ∈ s.pending := fun q => hperm.mem_iff.mpr
  have hmem' : ∀ q, q ∈ s.pending → q ∈ p :: s.pending.erase p := fun q => hperm.mem_iff.mp
  constructor
  case subscriptions =>
    have hs := h.subscriptions.repend (fun n x => hmem' _) fun q hq => Or.inl (hmem q hq)
    constructor
    case current => exact hs.current
    case owned =>
      intro x hx
      rw [hcreated.symm.mem_iff]
      exact hs.owned x hx
    case single => exact hcreated.length_eq ▸ hs.single
    case opened => exact fun x hx => hs.opened x (hcreated.mem_iff.mpr hx)
    case nodup => exact hs.nodup
    case numbers => exact hs.numbers
    case captured => exact hs.captured
  case items => exact h.items.repend fun q hq => Or.inl (hmem q hq)
  case topics =>
    exact h.topics.repend (fun m ⟨q, hq, hm⟩ => ⟨q, hmem' q hq, hm⟩)
      (fun m ⟨q, hq, hm⟩ => ⟨q, hmem' q hq, hm⟩) fun q hq => Or.inl (hmem q hq)

/-- A message goes from one suspension to the next. -/
theorem Kept.swap {s : SubscriptionState} {p q : Pending} (h : Kept (s.suspend p))
    (hcreated : p.created = none ∧ q.created = none)
    (hkeep : ∀ n x, p ≠ .terminatingSubscription n x)
    (hcaptured : ∀ x, q.captured = some x → p.captured = some x ∨ s.subscription = some x)
    (hsubscribes : ∀ m, p.subscribes m → q.subscribes m)
    (hunsubscribes : ∀ m, p.unsubscribes m → q.unsubscribes m)
    (hterminates : ∀ m ∈ InsertionMap.keys s.subscribedTopics, q.terminates m →
      ∃ r ∈ s.pending, r.subscribes m)
    (hcreates : ∀ m, q.createsFor m = false)
    (hitems : ItemsKept s.subscription s.monitorItems s.liveSubscriptions s.items
      (q :: s.pending) s.nextItem s.nextSubscription) : Kept (s.suspend q) where
  subscriptions := by
    have hs := h.subscriptions
    rw [created_suspend, hcreated.1] at hs
    rw [created_suspend, hcreated.2]
    refine hs.repend ?_ ?_
    · intro n x hmem
      rcases List.mem_cons.mp hmem with heq | hmem
      · exact absurd heq.symm (hkeep n x)
      · exact List.mem_cons_of_mem _ hmem
    · intro r hr
      rcases List.mem_cons.mp hr with rfl | hr
      · refine Or.inr fun x hx => ?_
        rcases hcaptured x hx with hp | hcur
        · refine ⟨hs.captured p List.mem_cons_self x hp, fun hmem => ?_⟩
          exact (hs.opened x hmem).2.2 p List.mem_cons_self hp
        · refine ⟨hs.numbers x (hs.current x hcur), fun hmem => ?_⟩
          cases (hs.opened x hmem).2.1.symm.trans hcur
      · exact Or.inl (List.mem_cons_of_mem _ hr)
  items := hitems
  topics := by
    refine h.topics.repend ?_ ?_ ?_
    · rintro m ⟨r, hr, hm⟩
      rcases List.mem_cons.mp hr with rfl | hr
      · exact ⟨q, List.mem_cons_self, hsubscribes m hm⟩
      · exact ⟨r, List.mem_cons_of_mem _ hr, hm⟩
    · rintro m ⟨r, hr, hm⟩
      rcases List.mem_cons.mp hr with rfl | hr
      · exact ⟨q, List.mem_cons_self, hunsubscribes m hm⟩
      · exact ⟨r, List.mem_cons_of_mem _ hr, hm⟩
    · intro r hr
      rcases List.mem_cons.mp hr with rfl | hr
      · refine Or.inr ⟨fun m hm hterm => ?_, fun m hm => ?_⟩
        · obtain ⟨r, hr, hsub⟩ := hterminates m hm hterm
          exact ⟨r, List.mem_cons_of_mem _ hr, hsub⟩
        · cases (hcreates m).symm.trans hm
      · exact Or.inl (List.mem_cons_of_mem _ hr)

/-- The operation of a message will be tried again. -/
theorem Kept.retry {s : SubscriptionState} {p q : Pending} (h : Kept (s.suspend p))
    (hcreated : p.created = none ∧ q.created = none)
    (hkeep : ∀ n x, p ≠ .terminatingSubscription n x) (hcaptured : q.captured = none)
    (hsubscribes : ∀ m, p.subscribes m → q.subscribes m)
    (hunsubscribes : ∀ m, p.unsubscribes m → q.unsubscribes m)
    (hterminates : ∀ m, ¬ q.terminates m) (hcreates : ∀ m, q.createsFor m = false) :
    Kept (s.suspend q) := by
  refine h.swap hcreated hkeep ?_ hsubscribes hunsubscribes ?_ hcreates ?_
  · exact fun x hx => by cases hcaptured.symm.trans hx
  · exact fun m _ hm => absurd hm (hterminates m)
  · refine h.items.repend fun r hr => ?_
    rcases List.mem_cons.mp hr with rfl | hr
    · exact Or.inr hterminates
    · exact Or.inl (List.mem_cons_of_mem _ hr)

/-! ## Subscribing -/

theorem keys_remember (s : SubscriptionState) (n : JsString) (o : SubscribeOptions) (m : JsString) :
    m ∈ InsertionMap.keys (s.remember n o).subscribedTopics ↔
      m ∈ InsertionMap.keys s.subscribedTopics ∨ m = n :=
  InsertionMap.mem_keys_set

/-- A running replay reaches what it reached, and the new topic at most. -/
theorem unreached_remember (s : SubscriptionState) (n : JsString) (o : SubscribeOptions) :
    (∀ m ∈ unreached s.replay, m ∈ unreached (s.remember n o).replay) ∧
      ∀ m ∈ unreached (s.remember n o).replay, m ∈ unreached s.replay ∨ m = n := by
  unfold remember
  cases hr : s.replay with
  | none => exact ⟨fun m hm => hm, fun m hm => Or.inl hm⟩
  | some r =>
      obtain ⟨rest, point⟩ := r
      dsimp only [Option.map_some]
      split
      · exact ⟨fun m hm => hm, fun m hm => Or.inl hm⟩
      · cases point with
        | creating k o created =>
            simp only [unreached, List.mem_cons, List.mem_append, List.not_mem_nil, or_false]
            exact ⟨fun m hm => hm.imp_right Or.inl, fun m hm => or_assoc.mpr hm⟩
        | between =>
            simp only [unreached, List.mem_append, List.mem_singleton]
            exact ⟨fun m hm => Or.inl hm, fun m hm => hm⟩

theorem opening_remember {s : SubscriptionState}
    (h : ∀ rest m o, s.replay ≠ some ⟨rest, .creating m o none⟩) (n : JsString)
    (o : SubscribeOptions) :
    ∀ rest m o', (s.remember n o).replay ≠ some ⟨rest, .creating m o' none⟩ := by
  intro rest m o' heq
  obtain ⟨⟨rest', point⟩, hr, heq⟩ := Option.map_eq_some_iff.mp heq
  refine h rest' m o' (hr.trans ?_)
  split at heq <;> cases heq <;> rfl

theorem created_remember (s : SubscriptionState) (n : JsString) (o : SubscribeOptions) :
    (s.remember n o).created = s.created := by
  unfold created remember
  cases s.replay with
  | none => rfl
  | some r =>
      dsimp only [Option.map_some, Option.bind_some]
      split <;> rfl

theorem Kept.remember {s : SubscriptionState} (h : Kept s) {n : JsString} {o : SubscribeOptions}
    (hpending : ∃ p ∈ s.pending, p.subscribes n) : Kept (s.remember n o) where
  subscriptions := by
    rw [created_remember]
    exact h.subscriptions
  items := h.items
  topics := h.topics.remember hpending (keys_remember s n o) (unreached_remember s n o).1
    (unreached_remember s n o).2 (opening_remember h.topics.opening n o)

/-- A message opens a subscription when there is none and none on its way. -/
theorem Kept.createSubscription {s : SubscriptionState} {n : JsString} {o : SubscribeOptions}
    (h : Kept (s.suspend (.subscribing n o))) (hnone : s.subscription = none)
    (hn : n ∈ InsertionMap.keys s.subscribedTopics) {a : SubscriptionAnswers}
    (hfree : a.creates = true → s.created = []) :
    Kept ((s.createSubscription a).1.suspend (.creating n o (s.createSubscription a).2)) := by
  unfold SubscriptionState.createSubscription
  split
  next hcreates =>
    have hs := h.subscriptions
    rw [created_suspend, hfree hcreates] at hs
    simp only [suspend, hnone] at hs
    constructor
    case subscriptions =>
      rw [created_suspend]
      change SubscriptionsKept s.subscription _ (s.nextSubscription :: s.created) _ _
      rw [hfree hcreates, hnone]
      refine hs.create.repend ?_ fun p hp => ?_
      · intro m x hmem
        rcases List.mem_cons.mp hmem with heq | hmem
        · cases heq
        · exact List.mem_cons_of_mem _ hmem
      · rcases List.mem_cons.mp hp with rfl | hp
        · exact Or.inr fun x hx => by cases hx
        · exact Or.inl (List.mem_cons_of_mem _ hp)
    case items =>
      refine h.items.create.repend fun p hp => ?_
      rcases List.mem_cons.mp hp with rfl | hp
      · exact Or.inr fun m hm => hm
      · exact Or.inl (List.mem_cons_of_mem _ hp)
    case topics =>
      refine h.topics.repend ?_ ?_ fun p hp => ?_
      · rintro m ⟨p, hp, hm⟩
        rcases List.mem_cons.mp hp with rfl | hp
        · exact ⟨_, List.mem_cons_self, hm⟩
        · exact ⟨p, List.mem_cons_of_mem _ hp, hm⟩
      · rintro m ⟨p, hp, hm⟩
        rcases List.mem_cons.mp hp with rfl | hp
        · cases hm
        · exact ⟨p, List.mem_cons_of_mem _ hp, hm⟩
      · rcases List.mem_cons.mp hp with rfl | hp
        · refine Or.inr ⟨fun m _ hm => hm.elim, fun m hm => ?_⟩
          exact of_decide_eq_true hm ▸ hn
        · exact Or.inl (List.mem_cons_of_mem _ hp)
  next =>
    exact h.retry ⟨rfl, rfl⟩ (fun _ _ heq => by cases heq) rfl (fun m hm => hm)
      (fun m hm => hm) (fun m hm => hm) fun m => rfl

/-- The node records the subscription a message has opened. -/
theorem Kept.record {s : SubscriptionState} {n : JsString} {o : SubscribeOptions} {x : Nat}
    (h : Kept (s.suspend (.creating n o (some x)))) :
    Kept ({ s with subscription := some x }.suspend (.subscribing n o)) ∧
      n ∈ InsertionMap.keys s.subscribedTopics ∧ x < s.nextSubscription := by
  have hs := h.subscriptions
  rw [created_suspend] at hs
  -- no other subscription is on its way
  have hcreated : s.created = [] := by
    have hlen : (x :: s.created).length ≤ 1 := hs.single
    exact List.length_eq_zero_iff.mp (Nat.le_zero.mp (Nat.le_of_succ_le_succ hlen))
  rw [hcreated] at hs
  obtain ⟨hlive, hnone, -⟩ := hs.opened x List.mem_cons_self
  have hnone : s.subscription = none := hnone
  refine ⟨?_, h.topics.creating _ List.mem_cons_self n (decide_eq_true rfl), hs.numbers x hlive⟩
  constructor
  case subscriptions =>
    rw [created_suspend]
    change SubscriptionsKept (some x) s.liveSubscriptions s.created _ _
    rw [hcreated]
    refine hs.record.repend ?_ fun p hp => ?_
    · intro m y hmem
      rcases List.mem_cons.mp hmem with heq | hmem
      · cases heq
      · exact List.mem_cons_of_mem _ hmem
    · rcases List.mem_cons.mp hp with rfl | hp
      · exact Or.inr fun y hy => by cases hy
      · exact Or.inl (List.mem_cons_of_mem _ hp)
  case items =>
    have hi := h.items
    simp only [suspend, hnone] at hi
    refine (hi.record x).repend fun p hp => ?_
    rcases List.mem_cons.mp hp with rfl | hp
    · exact Or.inr fun m hm => hm
    · exact Or.inl (List.mem_cons_of_mem _ hp)
  case topics =>
    refine h.topics.repend ?_ ?_ fun p hp => ?_
    · rintro m ⟨p, hp, hm⟩
      rcases List.mem_cons.mp hp with rfl | hp
      · exact ⟨_, List.mem_cons_self, hm⟩
      · exact ⟨p, List.mem_cons_of_mem _ hp, hm⟩
    · rintro m ⟨p, hp, hm⟩
      rcases List.mem_cons.mp hp with rfl | hp
      · cases hm
      · exact ⟨p, List.mem_cons_of_mem _ hp, hm⟩
    · rcases List.mem_cons.mp hp with rfl | hp
      · exact Or.inr ⟨fun m _ hm => hm.elim, fun m hm => by cases hm⟩
      · exact Or.inl (List.mem_cons_of_mem _ hp)

/-- What `handleSubscribe` ends with: the item is there, or the call threw and
changed nothing. -/
structure Monitored (n : JsString) (retries : Bool) (s : SubscriptionState)
    (r : SubscriptionState × Bool) : Prop where
  kept : Kept r.1
  key : r.2 = true → n ∈ InsertionMap.keys r.1.monitorItems
  thrown : r.2 = false → r.1 = s ∧ retries = true
  pending : r.1.pending = s.pending
  topics : r.1.subscribedTopics = s.subscribedTopics
  replay : r.1.replay = s.replay
  keys : ∀ m ∈ InsertionMap.keys s.monitorItems, m ∈ InsertionMap.keys r.1.monitorItems

theorem Kept.monitor {s : SubscriptionState} (h : Kept s) {x : Nat} (hx : s.subscription = some x)
    {n : JsString} (hn : n ∈ InsertionMap.keys s.subscribedTopics) {a : SubscriptionAnswers}
    {retries : Bool} (hcan : s.canMonitor n a retries = true) :
    Monitored n retries s (s.monitor n x a) := by
  simp only [canMonitor, Bool.and_eq_true, Bool.not_eq_true', List.any_eq_false] at hcan
  obtain ⟨hfree, hanswer⟩ := hcan
  unfold SubscriptionState.monitor
  split
  next hkey => exact ⟨h, fun _ => hkey, (fun hno => by cases hno), rfl, rfl, rfl, fun m hm => hm⟩
  next hkey =>
    have hanswer : a.monitoring = .accepted ∨ retries = true ∧ a.monitoring = .thrown := by
      simpa [hkey] using hanswer
    rcases hanswer with hmonitoring | ⟨hretries, hmonitoring⟩ <;> rw [hmonitoring]
    · have hi := h.items
      rw [hx] at hi
      have hnext := h.subscriptions.numbers x (h.subscriptions.current x hx)
      have hkeys : ∀ m, m ∈ InsertionMap.keys (InsertionMap.set n s.nextItem s.monitorItems) ↔
          m ∈ InsertionMap.keys s.monitorItems ∨ m = n := fun m => InsertionMap.mem_keys_set
      refine ⟨⟨h.subscriptions, ?_, h.topics.monitor hn hkeys⟩, fun _ => (hkeys n).mpr (Or.inr rfl),
        (fun hno => by cases hno), rfl, rfl, rfl, fun m hm => (hkeys m).mpr (Or.inl hm)⟩
      change ItemsKept s.subscription _ _ _ _ _ _
      rw [hx]
      refine hi.monitor hnext hkey fun p hp => ?_
      simpa using hfree p hp
    · exact ⟨h, (fun hno => by cases hno), fun _ => ⟨rfl, hretries⟩, rfl, rfl, rfl, fun m hm => hm⟩

theorem Kept.complete {s : SubscriptionState} {n : JsString} {o : SubscribeOptions}
    (h : Kept (s.suspend (.subscribing n o)))
    (hn : n ∈ InsertionMap.keys s.subscribedTopics) (hkey : n ∈ InsertionMap.keys s.monitorItems)
    (hfree : ∀ p ∈ s.pending, p.blocks n = false) : Kept (s.complete n true) where
  subscriptions := by
    have hs := h.subscriptions
    rw [created_suspend] at hs
    refine hs.repend ?_ fun p hp => Or.inl (List.mem_cons_of_mem _ hp)
    intro m x hmem
    rcases List.mem_cons.mp hmem with heq | hmem
    · cases heq
    · exact hmem
  items := h.items.repend fun p hp => Or.inl (List.mem_cons_of_mem _ hp)
  topics := by
    refine h.topics.subscribed hn hkey fun p hp hterminates => ?_
    have hblocks := hfree p hp
    cases p with
    | terminatingItem m i c => simp [Pending.blocks, show m = n from hterminates] at hblocks
    | terminatingSubscription m x => cases hblocks
    | _ => exact hterminates

theorem Kept.finishSubscribe {s : SubscriptionState} {n : JsString} {o : SubscribeOptions}
    (h : Kept (s.suspend (.subscribing n o))) {x : Nat} (hx : s.subscription = some x)
    (hn : n ∈ InsertionMap.keys s.subscribedTopics) {a : SubscriptionAnswers}
    (hcan : s.canMonitor n a a.retries = true) : Kept (s.finishSubscribe n o x a) := by
  have hcan' : (s.suspend (.subscribing n o)).canMonitor n a a.retries = true := hcan
  have hm := h.monitor (x := x) hx hn hcan'
  have hcommutes : (s.suspend (.subscribing n o)).monitor n x a =
      ((s.monitor n x a).1.suspend (.subscribing n o), (s.monitor n x a).2) := by
    unfold SubscriptionState.monitor suspend
    dsimp only
    split
    · rfl
    · split <;> rfl
  rw [hcommutes] at hm
  unfold SubscriptionState.finishSubscribe
  dsimp only
  split
  next hreturns =>
    have hpending : (s.monitor n x a).1.pending = s.pending :=
      (List.cons.inj hm.pending).2
    refine hm.kept.complete ?_ (hm.key hreturns) ?_
    · rw [show (s.monitor n x a).1.subscribedTopics = s.subscribedTopics from hm.topics]
      exact hn
    · intro p hp
      simp only [canMonitor, Bool.and_eq_true, Bool.not_eq_true', List.any_eq_false] at hcan
      simpa using hcan.1 p (hpending ▸ hp)
  next hthrows =>
    obtain ⟨-, hretries⟩ := hm.thrown (Bool.eq_false_iff.mpr hthrows)
    unfold failed
    rw [if_pos hretries]
    exact hm.kept

/-- `handleSubscribe` of a message. -/
theorem Kept.subscribe {s : SubscriptionState} {n : JsString} {o : SubscribeOptions}
    (h : Kept (s.suspend (.subscribing n o))) {a : SubscriptionAnswers}
    (hcan : s.canSubscribe n a true = true) : Kept (s.subscribe n o a) := by
  have hr : Kept ((s.remember n o).suspend (.subscribing n o)) :=
    h.remember (o := o) ⟨_, List.mem_cons_self, rfl⟩
  have hn := (keys_remember s n o n).mpr (Or.inr rfl)
  unfold SubscriptionState.subscribe
  unfold canSubscribe at hcan
  dsimp only
  split
  next x hx =>
    rw [show s.subscription = some x from hx] at hcan
    exact hr.finishSubscribe hx hn hcan
  next hnone =>
    rw [show s.subscription = none from hnone] at hcan
    refine hr.createSubscription hnone hn fun hcreates => ?_
    rw [created_remember]
    simpa [hcreates] using hcan

theorem Kept.subscriptionCreated {s : SubscriptionState} {n : JsString} {o : SubscribeOptions}
    {created : Option Nat} (h : Kept (s.suspend (.creating n o created))) {a : SubscriptionAnswers}
    (hcan : ∀ x, created = some x → s.canMonitor n a a.retries = true)
    (hretries : created = none → a.retries = true) : Kept (s.subscriptionCreated n o created a) := by
  unfold SubscriptionState.subscriptionCreated
  cases created with
  | some x =>
      obtain ⟨hr, hn, -⟩ := h.record
      exact hr.finishSubscribe rfl hn (hcan x rfl)
  | none =>
      unfold failed
      dsimp only
      rw [if_pos (hretries rfl)]
      exact h.retry ⟨rfl, rfl⟩ (fun _ _ heq => by cases heq) rfl (fun m hm => hm)
        (fun m hm => hm) (fun m hm => hm) fun m => rfl

/-! ## Unsubscribing -/

theorem keys_forget (s : SubscriptionState) (n m : JsString) :
    m ∈ InsertionMap.keys (s.forget n).subscribedTopics ↔
      m ∈ InsertionMap.keys s.subscribedTopics ∧ m ≠ n :=
  InsertionMap.mem_keys_erase

theorem unreached_forget {s : SubscriptionState} {n : JsString}
    (hreplay : ∀ r, s.replay = some r → r.createsFor n = false)
    (hopening : ∀ rest m o, s.replay ≠ some ⟨rest, .creating m o none⟩) (m : JsString) :
    m ∈ unreached (s.forget n).replay ↔ m ∈ unreached s.replay ∧ m ≠ n := by
  unfold forget
  cases hr : s.replay with
  | none => simp [unreached]
  | some r =>
      obtain ⟨rest, point⟩ := r
      cases point with
      | between => simp [unreached]
      | creating k o created =>
          cases created with
          | none => exact absurd hr (hopening rest k o)
          | some x =>
              have hne : k ≠ n := fun heq => by
                have hcreates := hreplay _ hr
                simp [Replay.createsFor, heq] at hcreates
              simp only [Option.map_some, unreached, List.mem_cons, List.mem_filter,
                decide_eq_true_eq]
              constructor
              · rintro (rfl | hm)
                · exact ⟨Or.inl rfl, hne⟩
                · exact ⟨Or.inr hm.1, hm.2⟩
              · rintro ⟨rfl | hm, hmn⟩
                · exact Or.inl rfl
                · exact Or.inr ⟨hm, hmn⟩

theorem opening_forget {s : SubscriptionState}
    (h : ∀ rest m o, s.replay ≠ some ⟨rest, .creating m o none⟩) (n : JsString) :
    ∀ rest m o, (s.forget n).replay ≠ some ⟨rest, .creating m o none⟩ := by
  intro rest m o heq
  obtain ⟨⟨rest', point⟩, hr, heq⟩ := Option.map_eq_some_iff.mp heq
  cases heq
  exact h rest' m o hr

theorem created_forget (s : SubscriptionState) (n : JsString) :
    (s.forget n).created = s.created := by
  unfold created forget
  cases s.replay <;> rfl

theorem Kept.forget {s : SubscriptionState} (h : Kept s) {n : JsString}
    (hunsubscribes : ∃ p ∈ s.pending, p.unsubscribes n)
    (hpending : ∀ p ∈ s.pending, p.createsFor n = false)
    (hreplay : ∀ r, s.replay = some r → r.createsFor n = false) : Kept (s.forget n) where
  subscriptions := by
    rw [created_forget]
    exact h.subscriptions
  items := h.items
  topics := h.topics.forget hunsubscribes hpending (keys_forget s n)
    (unreached_forget hreplay h.topics.opening) (opening_forget h.topics.opening n)

/-- A message that unsubscribes a NodeId without an item is done. -/
theorem Kept.unsubscribed {s : SubscriptionState} {n : JsString}
    (h : Kept (s.suspend (.unsubscribing n))) (hkey : n ∉ InsertionMap.keys s.monitorItems)
    (hrenewed : n ∈ InsertionMap.keys s.subscribedTopics → ∃ p ∈ s.pending, p.subscribes n) :
    Kept (s.complete n false) where
  subscriptions := by
    have hs := h.subscriptions
    rw [created_suspend] at hs
    refine hs.repend ?_ fun p hp => Or.inl (List.mem_cons_of_mem _ hp)
    intro m x hmem
    rcases List.mem_cons.mp hmem with heq | hmem
    · cases heq
    · exact hmem
  items := h.items.repend fun p hp => Or.inl (List.mem_cons_of_mem _ hp)
  topics := h.topics.unsubscribed hkey hrenewed

/-- `handleUnsubscribe` of a message. -/
theorem Kept.unsubscribe {s : SubscriptionState} {n : JsString}
    (h : Kept (s.suspend (.unsubscribing n)))
    (hpending : ∀ p ∈ s.pending, p.createsFor n = false)
    (hreplay : ∀ r, s.replay = some r → r.createsFor n = false) : Kept (s.unsubscribe n) := by
  have hf : Kept ((s.forget n).suspend (.unsubscribing n)) := by
    refine h.forget ⟨_, List.mem_cons_self, rfl⟩ (fun p hp => ?_) hreplay
    rcases List.mem_cons.mp hp with rfl | hp
    · rfl
    · exact hpending p hp
  have hn : n ∉ InsertionMap.keys (s.forget n).subscribedTopics :=
    fun hmem => ((keys_forget s n n).mp hmem).2 rfl
  unfold SubscriptionState.unsubscribe
  dsimp only
  split
  next hnone =>
    exact hf.unsubscribed (InsertionMap.get?_eq_none_iff.mp hnone) fun hmem => absurd hmem hn
  next i hget =>
    refine hf.swap ⟨rfl, rfl⟩ (fun _ _ heq => by cases heq) (fun x hx => Or.inr hx)
      (fun m hm => hm.elim) (fun m hm => hm) ?_ (fun m => rfl) ?_
    · intro m hm hterminates
      exact absurd (show n ∈ _ from (show n = m from hterminates) ▸ hm) hn
    · refine ItemsKept.beginTerminating (hf.items.repend fun p hp => ?_)
        (InsertionMap.mem_of_get? hget)
      exact Or.inl (List.mem_cons_of_mem _ hp)

/-- The item of a NodeId is gone, and the message that terminated it goes on. -/
theorem Kept.afterItem {s : SubscriptionState} {n : JsString} {i : Nat} {c : Option Nat}
    (h : Kept (s.suspend (.terminatingItem n i c))) {q : Pending} (hcreated : q.created = none)
    (hcaptured : ∀ x, q.captured = some x → c = some x) (hunsubscribes : q.unsubscribes n)
    (hterminates : ∀ m, q.terminates m → m = n) (hcreates : ∀ m, q.createsFor m = false)
    (hitems : ItemsKept s.subscription (InsertionMap.erase n s.monitorItems) s.liveSubscriptions
      (s.items.filter (·.item ≠ i)) (q :: s.pending) s.nextItem s.nextSubscription) :
    Kept ({ s with
      items := s.items.filter (·.item ≠ i)
      monitorItems := InsertionMap.erase n s.monitorItems }.suspend q) where
  subscriptions := by
    have hs := h.subscriptions
    rw [created_suspend] at hs
    rw [created_suspend, hcreated]
    refine hs.repend ?_ fun p hp => ?_
    · intro m x hmem
      rcases List.mem_cons.mp hmem with heq | hmem
      · cases heq
      · exact List.mem_cons_of_mem _ hmem
    · rcases List.mem_cons.mp hp with rfl | hp
      · refine Or.inr fun x hx => ?_
        have hc : Pending.captured (.terminatingItem n i c) = some x := hcaptured x hx
        refine ⟨hs.captured _ List.mem_cons_self x hc, fun hmem => ?_⟩
        exact (hs.opened x hmem).2.2 _ List.mem_cons_self hc
      · exact Or.inl (List.mem_cons_of_mem _ hp)
  items := hitems
  topics := by
    have hsubscribes : ∀ m, (∃ p ∈ Pending.terminatingItem n i c :: s.pending, p.subscribes m) →
        ∃ p ∈ q :: s.pending, p.subscribes m := by
      rintro m ⟨p, hp, hm⟩
      rcases List.mem_cons.mp hp with rfl | hp
      · exact hm.elim
      · exact ⟨p, List.mem_cons_of_mem _ hp, hm⟩
    have hrenewed : n ∈ InsertionMap.keys s.subscribedTopics →
        ∃ p ∈ Pending.terminatingItem n i c :: s.pending, p.subscribes n :=
      fun hn => h.topics.renewed _ List.mem_cons_self n hn rfl
    refine (h.topics.unmonitor (fun m => InsertionMap.mem_keys_erase) hrenewed).repend hsubscribes
      ?_ fun p hp => ?_
    · rintro m ⟨p, hp, hm⟩
      rcases List.mem_cons.mp hp with rfl | hp
      · exact ⟨q, List.mem_cons_self, (show n = m from hm) ▸ hunsubscribes⟩
      · exact ⟨p, List.mem_cons_of_mem _ hp, hm⟩
    · rcases List.mem_cons.mp hp with rfl | hp
      · refine Or.inr ⟨fun m hm hterm => ?_, fun m hm => ?_⟩
        · obtain rfl := hterminates m hterm
          exact hsubscribes m (hrenewed hm)
        · cases (hcreates m).symm.trans hm
      · exact Or.inl (List.mem_cons_of_mem _ hp)

theorem Kept.itemTerminated {s : SubscriptionState} {n : JsString} {i : Nat} {c : Option Nat}
    (h : Kept (s.suspend (.terminatingItem n i c))) {a : SubscriptionAnswers}
    (ha : a.settles = false → a.retries = true) : Kept (s.itemTerminated n i c a) := by
  have hitems := h.items.itemTerminated
  have hdone : Kept ({ s with
      items := s.items.filter (·.item ≠ i)
      monitorItems := InsertionMap.erase n s.monitorItems }.complete n false) := by
    have hunsubscribing := h.afterItem (q := .unsubscribing n) rfl (fun x hx => by cases hx) rfl
      (fun m hm => hm.elim) (fun m => rfl) (hitems.repend fun p hp => by
        rcases List.mem_cons.mp hp with rfl | hp
        · exact Or.inr fun m hm => hm
        · exact Or.inl hp)
    refine hunsubscribing.unsubscribed (fun hmem => (InsertionMap.mem_keys_erase.mp hmem).2 rfl) ?_
    intro hn
    have hrenewed := h.topics.renewed _ List.mem_cons_self n hn rfl
    exact ((List.exists_mem_cons_iff _ _ _).mp hrenewed).resolve_left fun hm => hm.elim
  unfold SubscriptionState.itemTerminated
  split
  next =>
    cases c with
    | none => exact hdone
    | some x =>
        dsimp only
        split
        next hnil =>
          exact h.afterItem rfl (fun y hy => hy) rfl (fun m hm => hm.symm) (fun m => rfl)
            (hitems.beginTerminatingAll hnil)
        next => exact hdone
  next hfails =>
    unfold failed
    rw [if_pos (ha (Bool.eq_false_iff.mpr hfails))]
    exact h.retry ⟨rfl, rfl⟩ (fun _ _ heq => by cases heq) rfl (fun m hm => hm)
      (fun m hm => hm) (fun m hm => hm) fun m => rfl

theorem Kept.subscriptionTerminated {s : SubscriptionState} {n : JsString} {x : Nat}
    (h : Kept (s.suspend (.terminatingSubscription n x))) {a : SubscriptionAnswers}
    (ha : a.settles = false → x ∉ s.liveSubscriptions)
    (hdrop : ∀ y, s.subscription = some y → y = x ∨ ∃ m, .terminatingSubscription m y ∈ s.pending) :
    Kept (s.subscriptionTerminated n x a) := by
  have hnil : s.monitorItems = [] := h.items.emptied n x List.mem_cons_self
  have hlive : (if a.settles then s.liveSubscriptions.filter (· ≠ x) else s.liveSubscriptions) =
      s.liveSubscriptions.filter (· ≠ x) := by
    split
    · rfl
    next hfails =>
      have hnot := ha (Bool.eq_false_iff.mpr hfails)
      refine (List.filter_eq_self.mpr fun y hy => decide_eq_true ?_).symm
      rintro rfl
      exact hnot hy
  unfold SubscriptionState.subscriptionTerminated
  dsimp only
  rw [hlive]
  constructor
  case subscriptions =>
    have hs := h.subscriptions
    rw [created_suspend] at hs
    exact hs.terminated hdrop
  case items =>
    refine (h.items.drop hnil (List.filter_subset_self _)).repend fun p hp => ?_
    exact Or.inl (List.mem_cons_of_mem _ hp)
  case topics =>
    have hkey : n ∉ InsertionMap.keys s.monitorItems := by
      rw [hnil]
      exact List.not_mem_nil
    refine TopicsKept.unsubscribed (h.topics.repend ?_ ?_ fun p hp => ?_) hkey fun hn => ?_
    · rintro m ⟨p, hp, hm⟩
      rcases List.mem_cons.mp hp with rfl | hp
      · exact hm.elim
      · exact ⟨p, List.mem_cons_of_mem _ hp, hm⟩
    · rintro m ⟨p, hp, hm⟩
      rcases List.mem_cons.mp hp with rfl | hp
      · exact ⟨_, List.mem_cons_self, hm⟩
      · exact ⟨p, List.mem_cons_of_mem _ hp, hm⟩
    · rcases List.mem_cons.mp hp with rfl | hp
      · exact Or.inr ⟨fun m _ hm => hm.elim, fun m hm => by cases hm⟩
      · exact Or.inl (List.mem_cons_of_mem _ hp)
    · have hrenewed := h.topics.renewed _ List.mem_cons_self n hn rfl
      exact ((List.exists_mem_cons_iff _ _ _).mp hrenewed).resolve_left fun hm => hm.elim

/-! ## The replay -/

def withReplay (s : SubscriptionState) (r : Option Replay) : SubscriptionState :=
  { s with replay := r }

theorem monitor_withReplay (s : SubscriptionState) (r : Option Replay) (n : JsString) (x : Nat)
    (a : SubscriptionAnswers) :
    (s.withReplay r).monitor n x a = ((s.monitor n x a).1.withReplay r, (s.monitor n x a).2) := by
  unfold SubscriptionState.monitor withReplay
  dsimp only
  split
  · rfl
  · split <;> rfl

/-- The replay remembers only what is a topic already. -/
theorem Kept.rememberTopic {s : SubscriptionState} {rest : List JsString}
    (h : Kept (s.withReplay (some ⟨rest, .between⟩))) {n : JsString} {o : SubscribeOptions}
    (hn : n ∈ InsertionMap.keys s.subscribedTopics) :
    Kept ((s.remember n o).withReplay (some ⟨rest, .between⟩)) where
  subscriptions := h.subscriptions
  items := h.items
  topics := by
    change TopicsKept _ (InsertionMap.keys (InsertionMap.set n _ s.subscribedTopics)) _ _ _
    rw [InsertionMap.keys_set_of_mem hn]
    exact h.topics

theorem Kept.advance {s : SubscriptionState} {r r' : Option Replay} (h : Kept (s.withReplay r))
    (hcreated : (s.withReplay r).created = (s.withReplay r').created)
    (hreach : ∀ m ∈ unreached r, m ∈ InsertionMap.keys s.monitorItems ∨ m ∈ unreached r')
    (hreach' : ∀ m ∈ unreached r', m ∈ unreached r)
    (hopening : ∀ rest m o, r' ≠ some ⟨rest, .creating m o none⟩) : Kept (s.withReplay r') where
  subscriptions := by
    rw [← hcreated]
    exact h.subscriptions
  items := h.items
  topics := h.topics.advance hreach hreach' hopening

/-- The replay opens the only subscription on its way. -/
theorem Kept.replayCreates {s : SubscriptionState} {n : JsString} {rest : List JsString}
    (h : Kept (s.withReplay (some ⟨n :: rest, .between⟩))) (hnone : s.subscription = none)
    (hfree : s.pending.filterMap Pending.created = []) (o : SubscribeOptions)
    {a : SubscriptionAnswers} (ha : a.creates = true) :
    Kept ((s.createSubscription a).1.withReplay
      (some ⟨rest, .creating n o (s.createSubscription a).2⟩)) := by
  have hs := h.subscriptions
  simp only [created, withReplay, hfree, hnone] at hs
  unfold SubscriptionState.createSubscription
  rw [if_pos ha]
  constructor
  case subscriptions =>
    simp only [created, withReplay, hfree, hnone]
    exact hs.create
  case items => exact h.items.create
  case topics =>
    exact h.topics.advance (fun m hm => Or.inr hm) (fun m hm => hm) fun _ _ _ heq => by cases heq

/-- The replay gives a topic its item. -/
theorem Kept.replayMonitors {s : SubscriptionState} {n : JsString} {rest : List JsString}
    (h : Kept (s.withReplay (some ⟨n :: rest, .between⟩))) {x : Nat} (hx : s.subscription = some x)
    (hn : n ∈ InsertionMap.keys s.subscribedTopics) {a : SubscriptionAnswers}
    (hcan : s.canMonitor n a false = true) :
    Kept ((s.monitor n x a).1.withReplay (some ⟨rest, .between⟩)) := by
  have hm : Monitored n false (s.withReplay (some ⟨n :: rest, .between⟩))
      ((s.withReplay (some ⟨n :: rest, .between⟩)).monitor n x a) := h.monitor hx hn hcan
  rw [monitor_withReplay] at hm
  refine hm.kept.advance rfl ?_ (fun m hm => List.mem_cons_of_mem n hm) fun _ _ _ heq => by cases heq
  intro m hmem
  rcases List.mem_cons.mp hmem with rfl | hmem
  · refine Or.inl (hm.key ?_)
    by_contra hthrown
    cases (hm.thrown (Bool.eq_false_iff.mpr hthrown)).2
  · exact Or.inr hmem

/-- The loop of the replay, up to its next suspension. -/
theorem Kept.replayNext {s : SubscriptionState} {rest : List JsString}
    (h : Kept (s.withReplay (some ⟨rest, .between⟩))) {a : SubscriptionAnswers}
    (hcan : (s.nextTopic rest).all (fun n => s.canSubscribe n a false) = true) :
    Kept (s.replayNext a rest) := by
  induction rest with
  | nil => exact h.advance rfl (fun m hm => Or.inr hm) (fun m hm => hm) fun _ _ _ heq => by cases heq
  | cons n rest ih =>
      have hn : n ∈ InsertionMap.keys s.subscribedTopics := h.topics.replayed n List.mem_cons_self
      unfold SubscriptionState.replayNext
      split
      next o hnone htopic =>
        have hcan : s.canSubscribe n a false = true := by
          simpa [nextTopic, hnone, htopic] using hcan
        have hr := h.rememberTopic (o := o) hn
        have hn' : n ∈ InsertionMap.keys (s.remember n o).subscribedTopics :=
          (keys_remember s n o n).mpr (Or.inr rfl)
        unfold canSubscribe at hcan
        dsimp only
        split
        next x hx =>
          rw [show s.subscription = some x from hx] at hcan
          exact hr.replayMonitors hx hn' hcan
        next hsub =>
          rw [show s.subscription = none from hsub] at hcan
          simp only [Bool.false_and, Bool.false_or, Bool.and_eq_true, List.isEmpty_iff] at hcan
          refine hr.replayCreates hsub ?_ o hcan.1
          exact (List.append_eq_nil_iff.mp hcan.2).1
      next hskip =>
        have hkey : n ∈ InsertionMap.keys s.monitorItems := by
          obtain ⟨o, ho⟩ := Option.isSome_iff_exists.mp (InsertionMap.get?_isSome_iff.mpr hn)
          by_contra hnot
          exact hskip o (InsertionMap.get?_eq_none_iff.mpr hnot) ho
        refine ih (h.advance rfl ?_ (fun m hm => List.mem_cons_of_mem n hm)
          fun _ _ _ heq => by cases heq) ?_
        · intro m hmem
          rcases List.mem_cons.mp hmem with rfl | hmem
          · exact Or.inl hkey
          · exact Or.inr hmem
        · have hsome := InsertionMap.get?_isSome_iff.mpr hkey
          simpa [nextTopic, List.find?_cons, Option.isNone_iff_eq_none,
            Option.ne_none_iff_isSome.mpr hsome] using hcan

/-- The node records the subscription the replay has opened. -/
theorem Kept.replayRecords {s : SubscriptionState} {n : JsString} {o : SubscribeOptions} {x : Nat}
    {rest : List JsString} (h : Kept s)
    (hreplay : s.replay = some ⟨rest, .creating n o (some x)⟩) :
    Kept ({ s with subscription := some x }.withReplay (some ⟨n :: rest, .between⟩)) := by
  have hs := h.subscriptions
  have hcreated : s.created = s.pending.filterMap Pending.created ++ [x] := by
    unfold created
    rw [hreplay]
    rfl
  -- no message has a subscription on its way
  have hnil : s.pending.filterMap Pending.created = [] := by
    have hlen := hs.single
    rw [hcreated, List.length_append] at hlen
    exact List.length_eq_zero_iff.mp (Nat.le_zero.mp (Nat.le_of_succ_le_succ hlen))
  rw [hcreated, hnil] at hs
  obtain ⟨-, hnone, -⟩ := hs.opened x List.mem_cons_self
  constructor
  case subscriptions =>
    simp only [created, withReplay, hnil]
    exact hs.record
  case items =>
    have hi := h.items
    rw [hnone] at hi
    exact hi.record x
  case topics =>
    have ht := h.topics
    rw [hreplay] at ht
    exact ht.advance (fun m hm => Or.inr hm) (fun m hm => hm) fun _ _ _ heq => by cases heq

theorem Kept.replayResumed {s s' : SubscriptionState} (h : Kept s) {a : SubscriptionAnswers}
    (hok : s.isOrderly (.replayResumed a) = true) (hstep : s.replayResumed a = some s') :
    Kept s' := by
  unfold SubscriptionState.replayResumed at hstep
  unfold isOrderly at hok
  cases hreplay : s.replay with
  | none =>
      rw [hreplay] at hstep
      cases hstep
  | some r =>
      obtain ⟨rest, point⟩ := r
      rw [hreplay] at hstep hok
      cases point with
      | between =>
          cases hstep
          refine Kept.replayNext ?_ hok
          unfold withReplay
          rwa [← hreplay]
      | creating n o created =>
          cases created with
          | none => cases hok
          | some x =>
              cases hstep
              have hn : n ∈ InsertionMap.keys s.subscribedTopics := by
                refine h.topics.replayed n ?_
                rw [hreplay]
                exact List.mem_cons_self
              have hkept := (h.replayRecords hreplay).replayMonitors rfl hn hok
              rw [hreplay] at hkept
              exact hkept

theorem Kept.sessionRecreated {s : SubscriptionState} (h : Kept s) {a : SubscriptionAnswers}
    (hok : s.isOrderly (.sessionRecreated a) = true) : Kept (s.sessionRecreated a) := by
  simp only [isOrderly, Bool.and_eq_true, Bool.or_eq_true, List.isEmpty_iff,
    Option.isNone_iff_eq_none] at hok
  obtain ⟨⟨hcreated, hreplay⟩, hcreates⟩ := hok
  have hnil : s.pending.filterMap Pending.created = [] := (List.append_eq_nil_iff.mp hcreated).1
  have hreset : Kept ({ s with
      subscription := none, monitorItems := [], liveSubscriptions := [] }.withReplay
        (some ⟨InsertionMap.keys s.subscribedTopics, .between⟩)) := by
    refine ⟨?_, h.items.reset, h.topics.restart⟩
    simp only [created, withReplay, hnil]
    exact h.subscriptions.reset
  unfold SubscriptionState.sessionRecreated resubscribeAll
  split
  next hskip =>
    simp only [hreplay, Option.isSome_none, Bool.false_or, List.isEmpty_iff] at hskip
    have hnone := @Kept.advance _ _ none hreset rfl (fun m hm => ?_) (fun m hm => by cases hm)
      fun _ _ _ heq => by cases heq
    · unfold withReplay at hnone
      rw [← hreplay] at hnone
      exact hnone
    · rw [show s.subscribedTopics = [] from hskip] at hm
      cases hm
  next hnot =>
    have hopens : a.creates = true := by
      refine hcreates.resolve_right fun hempty => hnot ?_
      simp [hempty]
    have hcreated' : ({ s with
        subscription := none, monitorItems := [], liveSubscriptions := [] } :
          SubscriptionState).created = [] := hcreated
    refine hreset.replayNext ?_
    cases nextTopic _ (InsertionMap.keys s.subscribedTopics) with
    | none => rfl
    | some n => simp [canSubscribe, hopens, hcreated']

/-! ## Every step -/

theorem kept_initial : Kept {} where
  subscriptions :=
    { current := fun _ h => by cases h
      owned := fun _ h => by cases h
      single := Nat.zero_le 1
      opened := fun _ h => by cases h
      nodup := List.nodup_nil
      numbers := fun _ h => by cases h
      captured := fun _ h => by cases h }
  items :=
    { tracked := fun _ h => by cases h
      live := fun _ h => by cases h
      nodup := List.nodup_nil
      numbers := fun _ h => by cases h
      distinct := fun _ h => by cases h
      terminating := fun _ _ _ h => by cases h
      emptied := fun _ _ h => by cases h }
  topics :=
    { monitored := fun _ h => by cases h
      remembered := fun _ h => by cases h
      asked := fun _ h => by cases h
      dropped := fun _ h => by cases h
      renewed := fun _ h => by cases h
      creating := fun _ h => by cases h
      replayed := fun _ h => by cases h
      opening := fun _ _ _ h => by cases h }

/-- What is free of obstacles stays so without the message that goes on. -/
theorem canMonitor_erase {s : SubscriptionState} {n : JsString} {a : SubscriptionAnswers}
    {retries : Bool} (h : s.canMonitor n a retries = true) (p : Pending) :
    { s with pending := s.pending.erase p }.canMonitor n a retries = true := by
  simp only [canMonitor, Bool.and_eq_true, Bool.not_eq_true', List.any_eq_false] at h ⊢
  exact ⟨fun q hq => h.1 q (List.mem_of_mem_erase hq), h.2⟩

theorem canSubscribe_erase {s : SubscriptionState} {n : JsString} {a : SubscriptionAnswers}
    (h : s.canSubscribe n a true = true) (p : Pending) :
    { s with pending := s.pending.erase p }.canSubscribe n a true = true := by
  unfold canSubscribe at h ⊢
  cases hsub : s.subscription with
  | some x =>
      rw [hsub] at h
      exact canMonitor_erase h p
  | none =>
      rw [hsub] at h
      simp only [Bool.true_and, Bool.or_eq_true, Bool.not_eq_true', Bool.and_eq_true,
        List.isEmpty_iff] at h ⊢
      refine h.imp_right fun ⟨hcreates, hnil⟩ => ⟨hcreates, ?_⟩
      obtain ⟨hpending, hreplay⟩ := List.append_eq_nil_iff.mp hnil
      refine List.append_eq_nil_iff.mpr ⟨?_, hreplay⟩
      exact List.sublist_nil.mp (hpending ▸ List.erase_sublist.filterMap Pending.created)

theorem mayDrop_erase {s : SubscriptionState} {n : JsString} {x : Nat}
    (h : s.mayDrop x = true) (y : Nat) (hy : s.subscription = some y) :
    y = x ∨ ∃ m, .terminatingSubscription m y ∈ s.pending.erase (.terminatingSubscription n x) := by
  by_cases heq : y = x
  · exact Or.inl heq
  · simp only [mayDrop, hy, Option.all_some, heq, decide_false, Bool.false_or,
      List.any_eq_true] at h
    obtain ⟨p, hp, hends⟩ := h
    cases p with
    | terminatingSubscription m z =>
        obtain rfl : z = y := of_decide_eq_true hends
        refine Or.inr ⟨m, (List.mem_erase_of_ne ?_).mpr hp⟩
        intro hsame
        cases hsame
        exact heq rfl
    | _ => cases hends

/-- A message goes on. -/
theorem Kept.resumed {s s' : SubscriptionState} (h : Kept s) {p : Pending}
    {a : SubscriptionAnswers} (hok : s.isOrderly (.resumed p a) = true)
    (hstep : s.resumed p a = some s') : Kept s' := by
  unfold SubscriptionState.resumed at hstep
  split at hstep
  next hp =>
    have hr := h.resume hp
    cases hstep
    cases p with
    | subscribing n o => exact hr.subscribe (canSubscribe_erase hok _)
    | creating n o created =>
        refine hr.subscriptionCreated (fun x hx => ?_) fun hnone => ?_
        · subst hx
          exact canMonitor_erase hok _
        · subst hnone
          exact hok
    | unsubscribing n =>
        simp only [isOrderly, Bool.and_eq_true, Bool.not_eq_true', List.any_eq_false] at hok
        refine hr.unsubscribe (fun q hq => ?_) fun r hreplay => ?_
        · simpa using hok.1 q (List.mem_of_mem_erase hq)
        · have hfree := hok.2
          rw [show s.replay = some r from hreplay] at hfree
          exact hfree
    | terminatingItem n i c =>
        refine hr.itemTerminated fun hfails => ?_
        simpa [isOrderly, hfails] using hok
    | terminatingSubscription n x =>
        simp only [isOrderly, Bool.and_eq_true] at hok
        refine hr.subscriptionTerminated (fun hfails => ?_) (mayDrop_erase hok.2)
        simpa [hfails] using hok.1
  next => cases hstep

theorem kept_step : Transition.Preserves step (fun s e => s.isOrderly e = true) Kept := by
  intro s e s' h hok hstep
  cases e with
  | subscribe n o =>
      cases hstep
      exact h.arrive ⟨rfl, rfl⟩ (fun m hm => hm) fun m => rfl
  | unsubscribe n =>
      cases hstep
      exact h.arrive ⟨rfl, rfl⟩ (fun m hm => hm) fun m => rfl
  | resumed p a => exact h.resumed hok hstep
  | sessionRecreated a =>
      cases hstep
      exact h.sessionRecreated hok
  | replayResumed a => exact h.replayResumed hok hstep

/-- One live subscription at most; the items of the node are the live ones, one
for each topic; and the topics are those that were last subscribed. -/
structure InOrder (s : SubscriptionState) : Prop where
  single : s.liveSubscriptions.length ≤ 1
  live : ∀ e ∈ s.monitorItems, ∃ x ∈ s.liveSubscriptions, ⟨e.2, e.1, x⟩ ∈ s.items
  once : ∀ it ∈ s.items, ∀ it' ∈ s.items, it.subscription ∈ s.liveSubscriptions →
    it'.subscription ∈ s.liveSubscriptions → it.nodeId = it'.nodeId → it = it'
  topics : ∀ n, n ∈ InsertionMap.keys s.monitorItems ↔ n ∈ InsertionMap.keys s.subscribedTopics
  asked : ∀ n, n ∈ InsertionMap.keys s.monitorItems ↔
    InsertionMap.get? n s.completed = some true

theorem Kept.inOrder {s : SubscriptionState} (h : Kept s) (hpending : s.pending = [])
    (hreplay : s.replay = none) : InOrder s := by
  have hs := h.subscriptions
  have ht := h.topics
  rw [hpending] at hs ht
  rw [hreplay] at ht
  have htopics : ∀ n, n ∈ InsertionMap.keys s.monitorItems ↔
      n ∈ InsertionMap.keys s.subscribedTopics := by
    intro n
    constructor
    · intro hn
      rcases ht.remembered n hn with hn | ⟨p, hp, -⟩
      · exact hn
      · cases hp
    · intro hn
      rcases ht.monitored n hn with hn | ⟨p, hp, -⟩ | hn
      · exact hn
      · cases hp
      · cases hn
  constructor
  case single =>
    refine OpenedOnce.length_le_one_of_forall (o := s.subscription) hs.nodup fun x hx => ?_
    rcases hs.owned x hx with hcur | hcreated | ⟨n, hp⟩
    · exact hcur
    · simp [created, hpending, hreplay] at hcreated
    · cases hp
  case live =>
    intro e he
    obtain ⟨x, hx, hitem⟩ := h.items.tracked e he
    exact ⟨x, hs.current x hx, hitem⟩
  case once =>
    intro it hit it' hit' hlive hlive' hnode
    have hmem := h.items.live it hit hlive
    have hmem' := h.items.live it' hit' hlive'
    rw [hnode] at hmem
    refine h.items.distinct it hit it' hit' (Option.some.inj ?_)
    rw [← InsertionMap.get?_of_mem h.items.nodup hmem, InsertionMap.get?_of_mem h.items.nodup hmem']
  case topics => exact htopics
  case asked =>
    intro n
    rw [htopics]
    constructor
    · intro hn
      rcases ht.asked n hn with ⟨p, hp, -⟩ | hdone
      · cases hp
      · exact hdone
    · intro hdone
      rcases ht.dropped n hdone with hn | ⟨p, hp, -⟩
      · exact hn
      · cases hp

/-- After any run whose steps are orderly the subscriptions are in order whenever
no message and no replay is suspended. -/
theorem subscriptions_in_order {es : List SubscriptionEvent} {s : SubscriptionState}
    (hok : Transition.Along step (fun s e => s.isOrderly e = true) {} es)
    (hrun : Transition.run step {} es = some s) (hpending : s.pending = [])
    (hreplay : s.replay = none) : InOrder s :=
  (kept_step.run kept_initial hok hrun).inOrder hpending hreplay

/-- One NodeId is unsubscribed while another is subscribed, then the session is replaced. -/
theorem replayed_in_order : ∃ s, Transition.run step {}
    [.subscribe [97] ⟨0, 0⟩, .resumed (.subscribing [97] ⟨0, 0⟩) {},
      .resumed (.creating [97] ⟨0, 0⟩ (some 0)) {}, .unsubscribe [97], .subscribe [98] ⟨500, 1⟩,
      .resumed (.unsubscribing [97]) {}, .resumed (.subscribing [98] ⟨500, 1⟩) {},
      .resumed (.terminatingItem [97] 0 (some 0)) {}, .sessionRecreated {}, .replayResumed {},
      .replayResumed {}] = some s ∧ InOrder s :=
  ⟨_, rfl, @subscriptions_in_order
    [.subscribe [97] ⟨0, 0⟩, .resumed (.subscribing [97] ⟨0, 0⟩) {},
      .resumed (.creating [97] ⟨0, 0⟩ (some 0)) {}, .unsubscribe [97], .subscribe [98] ⟨500, 1⟩,
      .resumed (.unsubscribing [97]) {}, .resumed (.subscribing [98] ⟨500, 1⟩) {},
      .resumed (.terminatingItem [97] 0 (some 0)) {}, .sessionRecreated {}, .replayResumed {},
      .replayResumed {}] _ (by decide +kernel) rfl rfl rfl⟩

/-- Two messages subscribe while there is no subscription: both open one. -/
theorem concurrent_subscribes_open_two : ¬ ∀ (es : List SubscriptionEvent) (s : SubscriptionState),
    Transition.run step {} es = some s → s.pending = [] → s.replay = none → InOrder s := by
  intro h
  have hsingle := (h
    [.subscribe [97] ⟨0, 0⟩, .subscribe [98] ⟨0, 0⟩, .resumed (.subscribing [97] ⟨0, 0⟩) {},
      .resumed (.subscribing [98] ⟨0, 0⟩) {}, .resumed (.creating [97] ⟨0, 0⟩ (some 0)) {},
      .resumed (.creating [98] ⟨0, 0⟩ (some 1)) {}] _ rfl rfl rfl).single
  exact absurd hsingle (by decide +kernel)

end SubscriptionState

end OpcUaSuite.Nodes
