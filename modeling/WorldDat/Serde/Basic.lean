import WorldDat.Rust.Deserialization
import WorldDat.Types

/-
  Serialization of messages (`hash.rs`, `types.rs`).

  A format hands the visitor of each id field the byte string
  that it finds on the wire.  `WireMessage` is a message with
  such byte strings in the place of its ids, and with what a
  format writes in the place of its addresses.  How addresses
  are written and read is up to serde, so it is a parameter.

  Main declarations:
    * `WireMessage`, `WireMessage.fields` and
      `WireMessage.WellSized`
    * `AddrFormat`, `AddrFormat.ReadsBack` and
      `AddrFormat.Keeps`
    * `Message.serialize` and `Message.deserialize`
-/

------------------------------------------------------------
-- Messages On The Wire
------------------------------------------------------------

namespace WorldDat

open Rust

/-
  A message whose ids are byte strings of any length, with
  addresses written as `A`.
-/
inductive WireMessage (A : Type) where
| ping (id : List UInt8)
| pong (id : List UInt8)
| findPeer (id : List UInt8)
| findPeerResponsePeerFound
    (id : List UInt8)
    (addr : A)
| findPeerResponsePeerNotFound
    (id : List UInt8)
    (neighbors : List (List UInt8 × A))
deriving DecidableEq

/- What a format reads at one place of a message. -/
inductive WireField (A : Type) where
| id (bytes : List UInt8)
| addr (written : A)
deriving DecidableEq

/- Write an address in another way. -/
def WireField.mapAddr
    {A B : Type}
    (f : A → B) : WireField A → WireField B
| .id bytes => .id bytes
| .addr written => .addr (f written)

namespace WireMessage

variable {A B : Type}

/- The fields of a neighbor, in wire order. -/
def neighborFields
    (neighbor : List UInt8 × A) : List (WireField A) :=
  [.id neighbor.1, .addr neighbor.2]

/- The fields of a message, in wire order. -/
def fields : WireMessage A → List (WireField A)
| .ping id => [.id id]
| .pong id => [.id id]
| .findPeer id => [.id id]
| .findPeerResponsePeerFound id addr => [.id id, .addr addr]
| .findPeerResponsePeerNotFound id neighbors =>
    .id id :: neighbors.flatMap neighborFields

/- Write the addresses in another way. -/
def mapAddr (f : A → B) : WireMessage A → WireMessage B
| .ping id => .ping id
| .pong id => .pong id
| .findPeer id => .findPeer id
| .findPeerResponsePeerFound id addr =>
    .findPeerResponsePeerFound id (f addr)
| .findPeerResponsePeerNotFound id neighbors =>
    .findPeerResponsePeerNotFound id
      (neighbors.map fun (id, addr) => (id, f addr))

/- Every id field is as long as a hash. -/
def WellSized (wire : WireMessage A) : Prop :=
  ∀ bytes, .id bytes ∈ wire.fields →
    bytes.length = blake2HashSize

end WireMessage

end WorldDat

------------------------------------------------------------
-- Addresses On The Wire
------------------------------------------------------------

namespace WorldDat

open Rust

/-
  How a format writes socket addresses and reads them, with
  errors `E`.  Both are serde's and the format's own.
-/
structure AddrFormat (E A : Type) where
  encode : SocketAddr → A
  decode : A → Except E SocketAddr

namespace AddrFormat

variable {E A : Type}

/- What the format writes for an address, it can read. -/
def ReadsBack (format : AddrFormat E A) : Prop :=
  ∀ addr, ∃ result, format.decode (format.encode addr) =
    .ok result

/- The address is read as it was written. -/
def Keeps
    (format : AddrFormat E A)
    (addr : SocketAddr) : Prop :=
  format.decode (format.encode addr) = .ok addr

def deserialize
    (format : AddrFormat E A)
    (addr : A) : Deserialization E SocketAddr :=
  ExceptT.mk (.ok (format.decode addr))

end AddrFormat

/- An address in a binary format. -/
inductive BinaryAddr where
| v4 (ip : BitVec 32) (port : UInt16)
| v6 (ip : BitVec 128) (port : UInt16)
deriving DecidableEq

/-
  Binary formats write the IP address and the port.  Flow
  information and scope id are not written, and are zero
  when an address is read.
-/
def AddrFormat.binary (E : Type) :
    AddrFormat E BinaryAddr where
  encode
  | .v4 ip port => .v4 ip port
  | .v6 ip port _ _ => .v6 ip port
  decode
  | .v4 ip port => .ok (.v4 ip port)
  | .v6 ip port => .ok (.v6 ip port 0 0)

end WorldDat

------------------------------------------------------------
-- Serialization And Deserialization
------------------------------------------------------------

namespace WorldDat

open Rust

variable {E A : Type}

namespace Blake2Hash

/- `visit_bytes` of `Blake2HashVisitor`. -/
def visitBytes
    (value : List UInt8) : Deserialization E Blake2Hash :=
  match hCopy :
      copyFromSlice (List.replicate blake2HashSize 0)
        value with
  | .error reason => .unwind reason
  | .ok out =>
      pure
        { bytes := out
          length_bytes := by
            rw [length_copyFromSlice hCopy]
            exact List.length_replicate }

def serialize (self : Blake2Hash) : List UInt8 :=
  self.bytes

def deserialize
    (bytes : List UInt8) : Deserialization E Blake2Hash :=
  visitBytes bytes

end Blake2Hash

namespace PeerId

def serialize (self : PeerId) : List UInt8 :=
  self.hash.serialize

def deserialize
    (bytes : List UInt8) : Deserialization E PeerId := do
  let hash ← Blake2Hash.deserialize bytes
  return { hash }

end PeerId

namespace Message

/- Addresses are written by the given function. -/
def serialize
    (encode : SocketAddr → A) : Message → WireMessage A
| .ping id => .ping id.serialize
| .pong id => .pong id.serialize
| .findPeer id => .findPeer id.serialize
| .findPeerResponsePeerFound id addr =>
    .findPeerResponsePeerFound id.serialize (encode addr)
| .findPeerResponsePeerNotFound id neighbors =>
    .findPeerResponsePeerNotFound id.serialize
      (neighbors.map fun (id, addr) =>
        (id.serialize, encode addr))

/- The elements of a neighbor list, one after the other. -/
def deserializeNeighbors (format : AddrFormat E A) :
    List (List UInt8 × A) →
      Deserialization E (List (PeerId × SocketAddr))
| [] => return []
| (bytes, addr) :: rest => do
    let id ← PeerId.deserialize bytes
    let addr ← format.deserialize addr
    let neighbors ← deserializeNeighbors format rest
    return (id, addr) :: neighbors

def deserialize (format : AddrFormat E A) :
    WireMessage A → Deserialization E Message
| .ping bytes => do
    let id ← PeerId.deserialize bytes
    return .ping id
| .pong bytes => do
    let id ← PeerId.deserialize bytes
    return .pong id
| .findPeer bytes => do
    let id ← PeerId.deserialize bytes
    return .findPeer id
| .findPeerResponsePeerFound bytes addr => do
    let id ← PeerId.deserialize bytes
    let addr ← format.deserialize addr
    return .findPeerResponsePeerFound id addr
| .findPeerResponsePeerNotFound bytes neighbors => do
    let id ← PeerId.deserialize bytes
    let neighbors ← deserializeNeighbors format neighbors
    return .findPeerResponsePeerNotFound id neighbors

end Message

end WorldDat
