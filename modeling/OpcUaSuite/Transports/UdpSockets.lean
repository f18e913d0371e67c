import OpcUaSuite.Lib.Bytes

/-!
# The sockets of the UDP transport

`connect`, `close` and `send` of `UdpTransport`, with every socket the transport ever created.
A socket that is closed while it binds never runs the callback of its `bind`.
-/

namespace OpcUaSuite.Transports

open ByteCodec

/-- `unjoined` is a bound socket that could not join the multicast group. -/
inductive SocketState
  | binding
  | bound
  | unjoined
  | closing
  | closed
deriving DecidableEq

/-- A socket that was not told to close. -/
def SocketState.inUse : SocketState → Bool
  | .binding | .bound | .unjoined => true
  | .closing | .closed => false

/-- `_socket`, and every socket that was created, by its number. -/
structure UdpTransport where
  socket : Option Nat := none
  sockets : List SocketState := []
deriving DecidableEq

/-- What dgram reports of a socket: its `bind` is over and the group was joined or not, an error
event, the callback of its `close`. -/
inductive SocketEvent
  | bound (joins : Bool)
  | error
  | closed
deriving DecidableEq

/-- What the transport makes of it: an event of its own, or the promise of `connect` is
rejected. -/
inductive SocketOutput
  | connected
  | disconnected
  | error
  | rejected
deriving DecidableEq

/-- A datagram leaves through a socket, or there is none. -/
inductive UdpSent
  | datagram (socket : Nat) (buffer : Bytes)
  | notConnected
deriving DecidableEq

namespace UdpTransport

variable (u : UdpTransport)

/-- `connect` -/
def connect : UdpTransport :=
  if u.socket.isSome then u
  else { socket := some u.sockets.length, sockets := u.sockets ++ [.binding] }

/-- `close` -/
def close : UdpTransport :=
  match u.socket with
  | none => u
  | some s => { socket := none, sockets := u.sockets.set s .closing }

/-- `send`, of one buffer or of the chunks of a message. -/
def send (buffers : List Bytes) : List UdpSent :=
  match u.socket with
  | none => [.notConnected]
  | some s => buffers.map (.datagram s)

/-- The handlers that `connect` and `close` leave at a socket. -/
def handle (s : Nat) : SocketEvent → Option (UdpTransport × SocketOutput)
  | .bound joins =>
      if u.sockets[s]? = some .binding then
        some ({ u with sockets := u.sockets.set s (if joins then .bound else .unjoined) },
          if joins then .connected else .rejected)
      else none
  | .error => if (u.sockets[s]?.any SocketState.inUse) then some (u, .error) else none
  | .closed =>
      if u.sockets[s]? = some .closing then
        some ({ u with sockets := u.sockets.set s .closed }, .disconnected)
      else none

/-! ## A transport that is connected once -/

/-- The one socket of the transport is in use. -/
def Opened (u : UdpTransport) (state : SocketState) : Prop :=
  u = ⟨some 0, [state]⟩ ∧ state.inUse = true

/-- The one socket of the transport was told to close. -/
def Shut (u : UdpTransport) (state : SocketState) : Prop :=
  u = ⟨none, [state]⟩ ∧ state.inUse = false

variable {u} {u' : UdpTransport} {s : Nat} {state : SocketState} {event : SocketEvent}
  {output : SocketOutput}

theorem opened_connect : Opened (connect {}) .binding := ⟨rfl, rfl⟩

theorem shut_close (h : Opened u state) : Shut u.close .closing := by
  rw [h.1]
  exact ⟨rfl, rfl⟩

theorem handle_new : handle {} s event = none := by
  cases event <;> simp [handle]

/-- An event of the socket in use: the transport stays open, and is bound exactly once it says
so. -/
theorem opened_handle (h : Opened u state) (hevent : u.handle s event = some (u', output)) :
    (u' = u ∧ output = .error) ∨ (Opened u' .bound ∧ output = .connected) ∨
      (Opened u' .unjoined ∧ state = .binding ∧ output = .rejected) := by
  obtain ⟨rfl, huse⟩ := h
  cases event with
  | bound joins =>
      simp only [handle] at hevent
      split at hevent
      next hbinding =>
        obtain ⟨hs, hstate⟩ := List.getElem?_eq_some_iff.mp hbinding
        obtain rfl : s = 0 := Nat.lt_one_iff.mp hs
        cases hevent
        cases joins with
        | true => exact Or.inr (Or.inl ⟨⟨rfl, rfl⟩, rfl⟩)
        | false => exact Or.inr (Or.inr ⟨⟨rfl, rfl⟩, hstate, rfl⟩)
      next => cases hevent
  | error =>
      simp only [handle] at hevent
      split at hevent
      next =>
        cases hevent
        exact Or.inl ⟨rfl, rfl⟩
      next => cases hevent
  | closed =>
      simp only [handle] at hevent
      split at hevent
      next hclosing =>
        obtain ⟨hs, hstate⟩ := List.getElem?_eq_some_iff.mp hclosing
        obtain rfl : s = 0 := Nat.lt_one_iff.mp hs
        change state = .closing at hstate
        rw [hstate] at huse
        cases huse
      next => cases hevent

/-- All that a socket told to close still does is to close. -/
theorem shut_handle (h : Shut u state) (hevent : u.handle s event = some (u', output)) :
    Shut u' .closed ∧ state = .closing ∧ event = .closed ∧ output = .disconnected := by
  obtain ⟨rfl, huse⟩ := h
  have hzero : ∀ {st : SocketState}, [state][s]? = some st → s = 0 ∧ state = st := by
    intro st hst
    obtain ⟨hs, hstate⟩ := List.getElem?_eq_some_iff.mp hst
    obtain rfl : s = 0 := Nat.lt_one_iff.mp hs
    exact ⟨rfl, hstate⟩
  cases event with
  | bound joins =>
      simp only [handle] at hevent
      split at hevent
      next hbinding =>
        obtain ⟨-, rfl⟩ := hzero hbinding
        cases huse
      next => cases hevent
  | error =>
      simp only [handle] at hevent
      split at hevent
      next hany =>
        cases hst : [state][s]? with
        | none =>
            rw [hst] at hany
            cases hany
        | some st =>
            obtain ⟨-, rfl⟩ := hzero hst
            rw [hst] at hany
            cases huse.symm.trans hany
      next => cases hevent
  | closed =>
      simp only [handle] at hevent
      split at hevent
      next hclosing =>
        obtain ⟨rfl, rfl⟩ := hzero hclosing
        cases hevent
        exact ⟨⟨rfl, rfl⟩, rfl, rfl, rfl⟩
      next => cases hevent

end UdpTransport

end OpcUaSuite.Transports
