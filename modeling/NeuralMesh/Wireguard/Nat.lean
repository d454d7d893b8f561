import NeuralMesh.Base.Calls
import NeuralMesh.Base.Files
import NeuralMesh.Base.Attributes

/-!
# Finding the public endpoint

`nat.rs`: the Binding Request that is sent to a STUN server, how the datagram that is read next is
parsed, and the servers that are tried. What the network and the random source do in an attempt is
given.
-/

namespace NeuralMesh.Wireguard

open Attributes

/-- How a call ends that does not succeed. -/
inductive StunError where
  | bail (message : String)
  /-- an index beyond the end of a slice -/
  | panic
  deriving DecidableEq

/-- The endpoints that are built are `V4`. -/
structure SocketAddr where
  ip : UInt32
  port : UInt16
  deriving DecidableEq

/-- An octet of the address, the first with the highest bits. -/
def SocketAddr.octet (addr : SocketAddr) (shift : Nat) : String :=
  toString (addr.ip.toNat / 2 ^ shift % 256)

def SocketAddr.display (addr : SocketAddr) : String :=
  addr.octet 24 ++ "." ++ addr.octet 16 ++ "." ++ addr.octet 8 ++ "." ++ addr.octet 0 ++ ":" ++
    toString addr.port.toNat

/-- `buf[i]` -/
def index (buf : Bytes) (i : Nat) : Except StunError UInt8 := orFail buf[i]? .panic

/-- `u32::from_be_bytes` -/
def be32 (a b c d : UInt8) : UInt32 :=
  UInt32.ofNat (256 * (256 * (256 * a.toNat + b.toNat) + c.toNat) + d.toNat)

/-- `STUN_SERVERS` -/
def stunServers : List String :=
  ["stun.l.google.com:19302", "stun1.l.google.com:19302", "stun.cloudflare.com:3478"]

def magicCookie : Bytes := [0x21, 0x12, 0xA4, 0x42]

def buildStunRequest (random : Fin 12 → UInt8) : Bytes :=
  [0x00, 0x01] ++ [0x00, 0x00] ++ magicCookie ++ List.ofFn random

/-! ### The answer -/

/-- The endpoint in an attribute of type `0x0020`, whose value starts at `pos`. -/
def xorMappedAddress (buf : Bytes) (pos : Nat) : Except StunError SocketAddr := do
  let xport := be16 (← index buf (pos + 2)) (← index buf (pos + 3)) ^^^ 0x2112
  let xip := be32 (← index buf (pos + 4)) (← index buf (pos + 5)) (← index buf (pos + 6))
    (← index buf (pos + 7)) ^^^ 0x2112A442
  return { ip := xip, port := xport }

/-- The endpoint in an attribute of type `0x0001`. -/
def mappedAddress (buf : Bytes) (pos : Nat) : Except StunError SocketAddr := do
  let port := be16 (← index buf (pos + 2)) (← index buf (pos + 3))
  let ip := be32 (← index buf (pos + 4)) (← index buf (pos + 5)) (← index buf (pos + 6))
    (← index buf (pos + 7))
  return { ip, port }

/-- The loop, from a position on. -/
def parseAttributes (buf : Bytes) (pos : Nat) : Except StunError SocketAddr :=
  if pos + 4 ≤ buf.length then do
    let attrType := be16 (← index buf pos) (← index buf (pos + 1))
    let attrLen := (be16 (← index buf (pos + 2)) (← index buf (pos + 3))).toNat
    if attrType = 0x0020 ∧ 8 ≤ attrLen then xorMappedAddress buf (pos + 4)
    else if attrType = 0x0001 ∧ 8 ≤ attrLen then mappedAddress buf (pos + 4)
    else parseAttributes buf (pos + 4 + roundUp 4 attrLen)
  else .error (.bail "No mapped address found in STUN response")
termination_by buf.length - pos

def parseStunResponse (buf : Bytes) : Except StunError SocketAddr :=
  if buf.length < 20 then .error (.bail "STUN response too short") else parseAttributes buf 20

/-! ### The attempts -/

/-- What happens to one attempt. -/
structure Attempt where
  /-- `to_socket_addrs`, and whether it finds an address -/
  toSocketAddrs : Except String Bool
  random : Fin 12 → UInt8
  sendTo : Bytes → Except String Unit
  /-- the datagram that arrives next on the socket, or why none does -/
  datagram : Except String Bytes

namespace Attempt

def request (attempt : Attempt) : Bytes := buildStunRequest attempt.random

/-- `recv_from` into the 512 bytes of `buf`; what does not fit is dropped. -/
def recvFrom (attempt : Attempt) : Except String Bytes := attempt.datagram.map (·.take 512)

end Attempt

def tryStun (server : String) (attempt : Attempt) : Except StunError SocketAddr := do
  let resolved ← attempt.toSocketAddrs.mapError .bail
  ensure resolved (.bail ("Could not resolve " ++ server))
  (attempt.sendTo attempt.request).mapError .bail
  let buf ← attempt.recvFrom.mapError .bail
  parseStunResponse buf

/-- The loop over the servers; a panic ends it. -/
def tryServers : List (String × Attempt) → Except StunError String
  | [] =>
      .error (.bail "All STUN servers failed — provider may be behind symmetric NAT")
  | (server, attempt) :: rest =>
      match tryStun server attempt with
      | .ok addr => .ok addr.display
      | .error .panic => .error .panic
      | .error (.bail _) => tryServers rest

/-- One socket for all the servers; `bound` is what `bind` and `set_read_timeout` answer. -/
def discoverPublicEndpoint (bound : Except String Unit) (attempts : String → Attempt) :
    Except StunError String := do
  bound.mapError .bail
  tryServers (stunServers.map fun server => (server, attempts server))

end NeuralMesh.Wireguard
