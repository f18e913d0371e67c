import OpcUaSuite.Js.Value
import OpcUaSuite.Lib.InsertionMap
import OpcUaSuite.Lib.Transition

/-!
# The shared manager of an endpoint

opcua-endpoint: `getSharedManager`, `releaseSharedManager`, the status callbacks and the
close handler, with the client nodes that call them. Managers are numbered as they are
created; a released one may still emit events.
-/

namespace OpcUaSuite.Nodes

open Js

/-! ## Configuration -/

/-- The first value that is set, as a number. A configuration holds none that `Number` throws of. -/
def firstSet (host : Host) : List JsValue → Option Double
  | [] => none
  | v :: values =>
      if v.isNullish || decide (v = .str []) then firstSet host values
      else
        match host.number v with
        | .ok d => if d.isFinite then some d else firstSet host values
        | .error _ => firstSet host values

/-- What the endpoint is configured with. -/
structure EndpointSettings where
  endpointUrl : JsString
  userName : JsString
  password : JsString
  securityMode : JsString
  securityPolicy : JsString
  applicationName : JsString
  maxReconnectAttempts : JsValue
  reconnectDelay : JsValue
  operationTimeout : Nat
  poolSize : Nat
  certificateFile : JsString
  privateKeyFile : JsString
  caCertificateFile : JsString
  userCertificateFile : JsString
  userPrivateKeyFile : JsString

/-- What a client node passes. -/
structure ClientConfig where
  applicationName : JsString
  maxReconnectAttempts : JsValue
  reconnectDelay : JsValue

structure ManagerConfig where
  endpointUrl : JsString
  userName : JsString
  password : JsString
  securityMode : JsString
  securityPolicy : JsString
  applicationName : JsString
  maxReconnectAttempts : Option Double
  reconnectDelay : Option Double
  operationTimeout : Nat
  certificateFile : JsString
  privateKeyFile : JsString
  caCertificateFile : JsString
  userCertificateFile : JsString
  userPrivateKeyFile : JsString
  poolSize : Nat

/-- `a || b` -/
def textOr (a b : JsString) : JsString := if a = [] then b else a

/-- `getCertificateData`: a file that is not there counts as not set. -/
def presentFile (exist : JsString → Bool) (file : JsString) : JsString :=
  if exist file then file else []

/-- The endpoint's own setting wins; the first client node provides what it leaves empty. -/
def managerConfig (host : Host) (settings : EndpointSettings) (exist : JsString → Bool)
    (clientConfig : ClientConfig) : ManagerConfig where
  endpointUrl := settings.endpointUrl
  userName := settings.userName
  password := settings.password
  securityMode := textOr settings.securityMode (js "None")
  securityPolicy := textOr settings.securityPolicy (js "None")
  applicationName := textOr settings.applicationName
    (textOr clientConfig.applicationName (js "Node-RED OPC UA Client"))
  maxReconnectAttempts := firstSet host [settings.maxReconnectAttempts, clientConfig.maxReconnectAttempts]
  reconnectDelay := firstSet host [settings.reconnectDelay, clientConfig.reconnectDelay]
  operationTimeout := settings.operationTimeout
  certificateFile := presentFile exist settings.certificateFile
  privateKeyFile := presentFile exist settings.privateKeyFile
  caCertificateFile := presentFile exist settings.caCertificateFile
  userCertificateFile := presentFile exist settings.userCertificateFile
  userPrivateKeyFile := presentFile exist settings.userPrivateKeyFile
  poolSize := settings.poolSize

/-! ## The endpoint and its clients -/

/-- The events an endpoint listens to. -/
inductive ManagerEvent
  | connected
  | disconnected
  | reconnecting
  | session_recreated
  | reconnected
  | error
deriving DecidableEq

/-- A client node with the manager it was given. -/
abbrev Given := InsertionMap Nat Nat

structure SharedEndpoint where
  sharedManager : Option Nat := none
  refCount : Nat := 0
  statusCallbacks : List Nat := []
  configs : List ManagerConfig := []
  disconnects : List Nat := []
  given : Given := []
  holders : List Nat := []
  heard : List (Nat × Nat × ManagerEvent) := []
  closed : Bool := false

/-- A client node is deployed or closes, a manager emits an event, or the endpoint closes. -/
inductive EndpointEvent
  | deploy (client : Nat) (exist : JsString → Bool) (config : ClientConfig)
  | leave (client : Nat)
  | emit (manager : Nat) (event : ManagerEvent)
  | close

namespace SharedEndpoint

variable (host : Host) (settings : EndpointSettings) (p : SharedEndpoint)

/-- The managers there have been. -/
def created : Nat := p.configs.length

/-- `getSharedManager`, with the manager it returns. -/
def getSharedManager (exist : JsString → Bool) (clientConfig : ClientConfig) : Nat × SharedEndpoint :=
  let p := { p with refCount := p.refCount + 1 }
  match p.sharedManager with
  | some m => (m, p)
  | none => (p.created,
      { p with
        sharedManager := some p.created
        configs := p.configs ++ [managerConfig host settings exist clientConfig] })

/-- A set keeps the callbacks in the order they were added. -/
def registerStatusCallback (client : Nat) : SharedEndpoint :=
  { p with statusCallbacks :=
      if client ∈ p.statusCallbacks then p.statusCallbacks else p.statusCallbacks ++ [client] }

def unregisterStatusCallback (client : Nat) : SharedEndpoint :=
  { p with statusCallbacks := p.statusCallbacks.filter (· ≠ client) }

/-- Up to the await of the disconnect, which never fails the caller. -/
def releaseSharedManager : SharedEndpoint :=
  let p := { p with refCount := p.refCount - 1 }
  match p.sharedManager with
  | some m =>
      if p.refCount = 0 then
        { p with sharedManager := none, statusCallbacks := [], disconnects := p.disconnects ++ [m] }
      else p
  | none => p

/-- The listener on a manager. -/
def forward (manager : Nat) (event : ManagerEvent) : SharedEndpoint :=
  if p.sharedManager = some manager then
    { p with heard := p.heard ++ p.statusCallbacks.map fun client => (client, manager, event) }
  else p

/-- The close handler of the endpoint. -/
def closeHandler : SharedEndpoint :=
  { p with
    sharedManager := none
    refCount := 0
    statusCallbacks := []
    disconnects := p.disconnects ++ p.sharedManager.toList
    closed := true }

/-- A client node is deployed once, while the endpoint is there, and closes once. -/
def step : EndpointEvent → Option SharedEndpoint
  | .deploy client exist config =>
      if p.closed ∨ client ∈ InsertionMap.keys p.given then none
      else
        let (manager, q) := p.getSharedManager host settings exist config
        let q := q.registerStatusCallback client
        some { q with
          given := InsertionMap.set client manager q.given
          holders := q.holders ++ [client] }
  | .leave client =>
      if client ∈ p.holders then
        let q := (p.unregisterStatusCallback client).releaseSharedManager
        some { q with holders := q.holders.filter (· ≠ client) }
      else none
  | .emit manager event => if manager < p.created then some (p.forward manager event) else none
  | .close => if p.closed then none else some p.closeHandler

/-- What holds after any order of deployments, closes and events. -/
structure Kept : Prop where
  counted : p.closed = false → p.refCount = p.holders.length
  released : p.closed = true → p.refCount = 0
  registered : p.closed = false → p.statusCallbacks = p.holders
  current : p.closed = false → ∀ client ∈ p.holders,
    InsertionMap.get? client p.given = p.sharedManager
  idle : p.closed = true ∨ p.holders = [] → p.sharedManager = none ∧ p.statusCallbacks = []
  known : ∀ m, p.sharedManager = some m → m < p.created
  disconnected : ∀ m, p.disconnects.count m =
    if m < p.created ∧ p.sharedManager ≠ some m then 1 else 0
  given : ∀ client ∈ p.holders, ∃ m, InsertionMap.get? client p.given = some m
  nodup : p.holders.Nodup
  heard : ∀ h ∈ p.heard, InsertionMap.get? h.1 p.given = some h.2.1

theorem kept_init : Kept {} where
  counted _ := rfl
  released h := by cases h
  registered _ := rfl
  current _ _ h := by cases h
  idle _ := ⟨rfl, rfl⟩
  known m h := by cases h
  disconnected m := by rw [if_neg (by rintro ⟨h, -⟩; cases h)]; rfl
  given _ h := by cases h
  nodup := List.nodup_nil
  heard _ h := by cases h

namespace Kept

variable {host settings p}

theorem not_closed_of_shared (h : p.Kept) {m : Nat} (hm : p.sharedManager = some m) :
    p.closed = false := by
  cases hclosed : p.closed with
  | false => rfl
  | true =>
      rw [(h.idle (Or.inl hclosed)).1] at hm
      cases hm

variable (host settings p) in
/-- Whether there is a manager or one is created, the client gets the shared one. -/
theorem getSharedManager_cases (exist : JsString → Bool) (config : ClientConfig) :
    (∃ m, p.sharedManager = some m ∧ p.getSharedManager host settings exist config =
        (m, { p with refCount := p.refCount + 1 })) ∨
      (p.sharedManager = none ∧ p.getSharedManager host settings exist config =
        (p.created, { p with
          refCount := p.refCount + 1
          sharedManager := some p.created
          configs := p.configs ++ [managerConfig host settings exist config] })) := by
  unfold getSharedManager
  cases hm : p.sharedManager with
  | some m => exact Or.inl ⟨m, rfl, rfl⟩
  | none => exact Or.inr ⟨rfl, rfl⟩

/-- A client is deployed with the manager that is shared from then on. -/
theorem joins (h : p.Kept) (hopen : p.closed = false) {client : Nat}
    (hnew : client ∉ InsertionMap.keys p.given) {m : Nat} {configs : List ManagerConfig}
    (hm : p.holders ≠ [] → p.sharedManager = some m) (hknown : m < configs.length)
    (hcount : ∀ k, p.disconnects.count k = if k < configs.length ∧ some m ≠ some k then 1 else 0) :
    Kept
      { p with
        refCount := p.refCount + 1
        sharedManager := some m
        configs := configs
        statusCallbacks := p.holders ++ [client]
        given := InsertionMap.set client m p.given
        holders := p.holders ++ [client] } := by
  have hother : ∀ c, c ∈ InsertionMap.keys p.given →
      InsertionMap.get? c (InsertionMap.set client m p.given) = InsertionMap.get? c p.given :=
    fun c hc => by
      have hne : c ≠ client := by
        rintro rfl
        exact hnew hc
      exact InsertionMap.get?_set_of_ne hne m p.given
  have hkey : ∀ c ∈ p.holders, c ∈ InsertionMap.keys p.given := fun c hc => by
    obtain ⟨k, hk⟩ := h.given c hc
    exact InsertionMap.get?_isSome_iff.mp (by rw [hk]; rfl)
  exact
    { counted := fun _ => by
        change p.refCount + 1 = (p.holders ++ [client]).length
        rw [h.counted hopen, List.length_append, List.length_singleton]
      released := fun hclosed => absurd (hopen.symm.trans hclosed) Bool.false_ne_true
      registered := fun _ => rfl
      current := fun _ c hc => by
        rcases List.mem_append.mp hc with hc | hc
        · change InsertionMap.get? c (InsertionMap.set client m p.given) = some m
          rw [hother c (hkey c hc), h.current hopen c hc, hm (List.ne_nil_of_mem hc)]
        · obtain rfl := List.mem_singleton.mp hc
          exact InsertionMap.get?_set_self c m p.given
      idle := by
        rintro (hclosed | hnil)
        · exact absurd (hopen.symm.trans hclosed) Bool.false_ne_true
        · exact absurd hnil (List.append_ne_nil_of_right_ne_nil _ (List.cons_ne_nil _ _))
      known := fun k hk => Option.some.inj hk ▸ hknown
      disconnected := hcount
      given := fun c hc => by
        rcases List.mem_append.mp hc with hc | hc
        · obtain ⟨k, hk⟩ := h.given c hc
          exact ⟨k, (hother c (hkey c hc)).trans hk⟩
        · obtain rfl := List.mem_singleton.mp hc
          exact ⟨m, InsertionMap.get?_set_self c m p.given⟩
      nodup := List.nodup_append.mpr ⟨h.nodup, List.pairwise_singleton _ _, fun c hc d hd heq =>
        hnew (List.mem_singleton.mp hd ▸ heq ▸ hkey c hc)⟩
      heard := fun x hx => by
        have hgiven := h.heard x hx
        exact (hother x.1 (InsertionMap.get?_isSome_iff.mp (by rw [hgiven]; rfl))).trans hgiven }

theorem deploy (h : p.Kept) {client : Nat} {exist : JsString → Bool} {config : ClientConfig}
    {q : SharedEndpoint} (hstep : p.step host settings (.deploy client exist config) = some q) :
    q.Kept := by
  simp only [step] at hstep
  split at hstep
  next => cases hstep
  next hproper =>
    obtain ⟨hnotClosed, hnew⟩ := not_or.mp hproper
    have hopen : p.closed = false := Bool.eq_false_iff.mpr hnotClosed
    have hfresh : client ∉ p.holders := fun hmem => by
      obtain ⟨k, hk⟩ := h.given client hmem
      exact hnew (InsertionMap.get?_isSome_iff.mp (by rw [hk]; rfl))
    cases hstep
    rcases getSharedManager_cases host settings p exist config with
      ⟨m, hm, heq⟩ | ⟨hnone, heq⟩
    · have hjoined := h.joins hopen hnew (fun _ => hm) (h.known m hm) fun k => by
        rw [h.disconnected k, hm]
        rfl
      rw [heq]
      simpa only [registerStatusCallback, if_neg hfresh, h.registered hopen, hm] using hjoined
    · have hempty : p.holders = [] := by
        by_contra hne
        obtain ⟨c, hc⟩ := List.exists_mem_of_ne_nil _ hne
        obtain ⟨k, hk⟩ := h.given c hc
        rw [h.current hopen c hc, hnone] at hk
        cases hk
      have hlength : (p.configs ++ [managerConfig host settings exist config]).length =
          p.created + 1 := List.length_append
      have hjoined := h.joins hopen hnew (fun hne => absurd hempty hne)
        (by rw [hlength]; exact Nat.lt_succ_self p.created) fun k => by
          rw [h.disconnected k, hnone, hlength]
          refine if_congr ?_ rfl rfl
          constructor
          · rintro ⟨hk, -⟩
            exact ⟨Nat.lt_succ_of_lt hk, fun heq => Nat.ne_of_gt hk (Option.some.inj heq)⟩
          · rintro ⟨hk, hne⟩
            refine ⟨Nat.lt_of_le_of_ne (Nat.le_of_lt_succ hk) fun heq => hne ?_, fun heq => by cases heq⟩
            rw [heq]
      rw [heq]
      simpa only [registerStatusCallback, if_neg hfresh, h.registered hopen] using hjoined

/-- The manager that is released has been told to disconnect as all before it. -/
theorem count_release (h : p.Kept) (m : Nat) :
    (p.disconnects ++ p.sharedManager.toList).count m =
      if m < p.created ∧ (none : Option Nat) ≠ some m then 1 else 0 := by
  rw [List.count_append, h.disconnected m]
  cases hm : p.sharedManager with
  | none => rfl
  | some k =>
      have hk := h.known k hm
      rw [Option.toList_some]
      by_cases heq : k = m
      · subst heq
        rw [if_neg (fun hne => hne.2 rfl), if_pos ⟨hk, by intro hnone; cases hnone⟩,
          List.count_singleton_self]
      · rw [List.count_singleton, if_neg (fun hbeq => heq (beq_iff_eq.mp hbeq)), Nat.add_zero]
        refine if_congr (and_congr_right fun _ => iff_of_true ?_ ?_) rfl rfl
        · exact fun hsome => heq (Option.some.inj hsome)
        · intro hnone
          cases hnone

theorem length_without (h : p.Kept) {client : Nat} (hmem : client ∈ p.holders)
    (hopen : p.closed = false) : (p.holders.filter (· ≠ client)).length = p.refCount - 1 := by
  rw [h.counted hopen, ← List.length_erase_of_mem hmem, h.nodup.erase_eq_filter]
  refine congrArg List.length (List.filter_congr fun c _ => ?_)
  rw [Bool.eq_iff_iff, decide_eq_true_iff, bne_iff_ne]

/-- The last client leaves, and the manager is told to disconnect. -/
theorem leavesLast (h : p.Kept) {client m : Nat} (hm : p.sharedManager = some m)
    (hnil : p.holders.filter (· ≠ client) = []) (hlast : p.refCount - 1 = 0) :
    Kept
      { p with
        refCount := p.refCount - 1
        sharedManager := none
        statusCallbacks := []
        disconnects := p.disconnects ++ [m]
        holders := p.holders.filter (· ≠ client) } where
  counted _ := by
    rw [hlast, hnil]
    rfl
  released _ := hlast
  registered _ := hnil.symm
  current _ c hc := by
    rw [hnil] at hc
    cases hc
  idle _ := ⟨rfl, rfl⟩
  known k hk := by cases hk
  disconnected k := by
    have hcount := h.count_release k
    rw [hm, Option.toList_some] at hcount
    exact hcount
  given c hc := h.given c (List.mem_filter.mp hc).1
  nodup := h.nodup.filter _
  heard := h.heard

/-- A client leaves another one behind, or a closed endpoint. -/
theorem leavesRest (h : p.Kept) {client : Nat} (hmem : client ∈ p.holders)
    (hrest : p.closed = false → p.refCount - 1 ≠ 0) :
    Kept
      { p with
        refCount := p.refCount - 1
        statusCallbacks := p.statusCallbacks.filter (· ≠ client)
        holders := p.holders.filter (· ≠ client) } where
  counted hopen := (h.length_without hmem hopen).symm
  released hclosed := by
    change p.refCount - 1 = 0
    rw [h.released hclosed]
  registered hopen := by
    change p.statusCallbacks.filter _ = _
    rw [h.registered hopen]
  current hopen c hc := h.current hopen c (List.mem_filter.mp hc).1
  idle := by
    intro hidle
    have hclosed : p.closed = true := by
      rcases hidle with hclosed | hnil
      · exact hclosed
      · by_contra hnot
        have hopen := Bool.eq_false_iff.mpr hnot
        have hlength := h.length_without hmem hopen
        rw [show p.holders.filter (· ≠ client) = [] from hnil] at hlength
        exact hrest hopen hlength.symm
    obtain ⟨hnone, hcallbacks⟩ := h.idle (Or.inl hclosed)
    refine ⟨hnone, ?_⟩
    change p.statusCallbacks.filter _ = []
    rw [hcallbacks]
    rfl
  known := h.known
  disconnected := h.disconnected
  given c hc := h.given c (List.mem_filter.mp hc).1
  nodup := h.nodup.filter _
  heard := h.heard

/-- A client leaves; with the last one the manager is released. -/
theorem leaves (h : p.Kept) {client : Nat} (hmem : client ∈ p.holders) :
    Kept
      { (p.unregisterStatusCallback client).releaseSharedManager with
        holders := (p.unregisterStatusCallback client).releaseSharedManager.holders.filter (· ≠ client) } := by
  unfold releaseSharedManager unregisterStatusCallback
  dsimp only
  split
  next m hm =>
    have hlength := h.length_without hmem (h.not_closed_of_shared hm)
    split
    next hlast => exact h.leavesLast hm (List.length_eq_zero_iff.mp (hlength.trans hlast)) hlast
    next hmore => exact h.leavesRest hmem fun _ => hmore
  next hnone =>
    refine h.leavesRest hmem fun hopen => ?_
    obtain ⟨k, hk⟩ := h.given client hmem
    rw [h.current hopen client hmem, hnone] at hk
    cases hk

theorem leave (h : p.Kept) {client : Nat} {q : SharedEndpoint}
    (hstep : p.step host settings (.leave client) = some q) : q.Kept := by
  simp only [step] at hstep
  split at hstep
  next hmem =>
    cases hstep
    exact h.leaves hmem
  next => cases hstep

theorem emit (h : p.Kept) {m : Nat} {event : ManagerEvent} : (p.forward m event).Kept := by
  unfold forward
  split
  next hm =>
    have hopen := h.not_closed_of_shared hm
    refine { h with heard := fun x hx => ?_ }
    rcases List.mem_append.mp hx with hx | hx
    · exact h.heard x hx
    · obtain ⟨client, hclient, rfl⟩ := List.mem_map.mp hx
      rw [h.registered hopen] at hclient
      exact (h.current hopen client hclient).trans hm
  next => exact h

theorem close (h : p.Kept) : p.closeHandler.Kept where
  counted hopen := by cases hopen
  released _ := rfl
  registered hopen := by cases hopen
  current hopen := by cases hopen
  idle _ := ⟨rfl, rfl⟩
  known m hm := by cases hm
  disconnected m := by
    change (p.disconnects ++ p.sharedManager.toList).count m = if m < p.created ∧ none ≠ some m then 1 else 0
    exact h.count_release m
  given := h.given
  nodup := h.nodup
  heard := h.heard

theorem step (h : p.Kept) {e : EndpointEvent} {q : SharedEndpoint}
    (hstep : p.step host settings e = some q) : q.Kept := by
  cases e with
  | deploy client exist config => exact h.deploy hstep
  | leave client => exact h.leave hstep
  | emit m event =>
      simp only [SharedEndpoint.step] at hstep
      split at hstep
      next =>
        cases hstep
        exact h.emit
      next => cases hstep
  | close =>
      simp only [SharedEndpoint.step] at hstep
      split at hstep
      next => cases hstep
      next =>
        cases hstep
        exact h.close

theorem run (h : p.Kept) {es : List EndpointEvent} {q : SharedEndpoint}
    (hrun : Transition.run (SharedEndpoint.step host settings) p es = some q) : q.Kept := by
  have hkeep : Transition.Preserves (SharedEndpoint.step host settings) (fun _ _ => True) Kept :=
    fun _ _ _ h _ hstep => h.step hstep
  exact hkeep.run h (Transition.along_of_forall (fun _ _ => trivial) p es) hrun

end Kept

/-- After any order of deployments, closes and events: the counter is the number of client
nodes that hold the manager, each of them the shared one, and zero once the endpoint has
closed; every other manager there has been was told to disconnect exactly once; and an
event reaches the nodes that hold its manager, each once, and no other. -/
theorem endpoint_shares {host : Host} {settings : EndpointSettings} {es : List EndpointEvent}
    {p : SharedEndpoint}
    (hrun : Transition.run (SharedEndpoint.step host settings) {} es = some p) :
    p.Kept ∧ ∀ m event q, p.step host settings (.emit m event) = some q →
      q.heard = p.heard ++ (p.holders.filter fun client =>
        !p.closed && decide (InsertionMap.get? client p.given = some m)).map
          fun client => (client, m, event) := by
  have h := kept_init.run hrun
  refine ⟨h, fun m event q hstep => ?_⟩
  simp only [SharedEndpoint.step] at hstep
  split at hstep
  next =>
    cases hstep
    unfold forward
    split
    next hm =>
      have hopen := h.not_closed_of_shared hm
      have hall : (p.holders.filter fun client =>
          !p.closed && decide (InsertionMap.get? client p.given = some m)) = p.holders := by
        rw [List.filter_eq_self]
        intro client hclient
        rw [hopen, h.current hopen client hclient, hm]
        simp
      rw [hall, ← h.registered hopen]
    next hm =>
      have hnone : (p.holders.filter fun client =>
          !p.closed && decide (InsertionMap.get? client p.given = some m)) = [] := by
        rw [List.filter_eq_nil_iff]
        intro client hclient hheld
        rw [Bool.and_eq_true, Bool.not_eq_true', decide_eq_true_iff] at hheld
        exact hm ((h.current hheld.1 client hclient).symm.trans hheld.2)
      rw [hnone, List.map_nil, List.append_nil]
  next => cases hstep

/-- An endpoint with nothing set. -/
def bareEndpoint : EndpointSettings :=
  ⟨js "opc.tcp://localhost:4840", [], [], [], [], [], .str [], .str [], 10000, 1, [], [], [], [], []⟩

def bareClient : ClientConfig := ⟨[], .undefined, .undefined⟩

/-- Two nodes close, another is deployed, and the manager of the first two is still going down. -/
def redeployed : List EndpointEvent :=
  [.deploy 0 (fun _ => false) bareClient, .deploy 1 (fun _ => false) bareClient, .leave 0, .leave 1,
    .deploy 2 (fun _ => false) bareClient, .emit 0 .disconnected]

theorem endpoint_shares_redeployed :
    ∃ p, Transition.run (SharedEndpoint.step .inert bareEndpoint) {} redeployed = some p ∧
      p.Kept ∧ ∀ m event q, p.step .inert bareEndpoint (.emit m event) = some q →
        q.heard = p.heard ++ (p.holders.filter fun client =>
          !p.closed && decide (InsertionMap.get? client p.given = some m)).map
            fun client => (client, m, event) := by
  have hruns : (Transition.run (SharedEndpoint.step .inert bareEndpoint) {} redeployed).isSome = true :=
    rfl
  obtain ⟨p, hrun⟩ := Option.isSome_iff_exists.mp hruns
  exact ⟨p, hrun, endpoint_shares hrun⟩

end SharedEndpoint

end OpcUaSuite.Nodes
