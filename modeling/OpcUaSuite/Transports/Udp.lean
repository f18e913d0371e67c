import OpcUaSuite.Uadp.Reassembler

/-!
# The receive path of the UDP transport

`UdpTransport._onDatagram`: a datagram is passed on as it is unless it carries a
chunk, which goes to the reassembler of the transport.
-/

namespace OpcUaSuite.Transports

open Js ByteCodec PubSub Uadp

/-- `MAX_CHUNKS` -/
def maxChunks : Nat := 256

inductive UdpOutput
  | message (buffer : Bytes)
  | decodeError (e : UadpError)
  | warn (w : ReassemblyWarning)
deriving DecidableEq

/-- The reassembler of a transport with this `mtu`. -/
def udpReassembler (mtu : Nat) : Reassembler := ⟨mtu * maxChunks, []⟩

/-- `_onDatagram` -/
def onDatagram (host : Host) (now : Int) (r : Reassembler) (buffer : Bytes) :
    Reassembler × List UdpOutput :=
  match decodeNetworkMessage buffer with
  | .error e => (r, [.decodeError e])
  | .ok nm =>
      match asChunk nm with
      | none => (r, [.message buffer])
      | some m =>
          let pushed := push host r now m
          (pushed.state, pushed.warnings.map .warn ++ (pushed.output.map .message).toList)

end OpcUaSuite.Transports
