import WorldDat.Hash

/-
  Peers, addresses, messages and contacts (`types.rs`).

  Main declarations:
    * `PeerId.distanceRank` and `PeerId.distance`
    * `Message`
    * `Contact`
-/

------------------------------------------------------------
-- Peer Identifiers
------------------------------------------------------------

namespace WorldDat

/- A hash identifying a peer. -/
structure PeerId where
  hash : Blake2Hash
deriving DecidableEq

namespace PeerId

/- `raw`: the identifier made of exactly the given bytes. -/
def raw
    (bytes : List UInt8)
    (hLength : bytes.length = blake2HashSize) : PeerId where
  hash := { bytes := bytes, length_bytes := hLength }

/- The identifier that repeats one byte. -/
def repeating (byte : UInt8) : PeerId :=
  raw (List.replicate blake2HashSize byte)
    List.length_replicate

/- The bucket in which `self` files `other`. -/
def distanceRank (self other : PeerId) : Nat :=
  (self.hash.bitxor other.hash).leadingZeros

/- The XOR distance, as a big-endian number. -/
def distance (self other : PeerId) : Nat :=
  (self.hash.bitxor other.hash).toNat

/- Two peers give each other the same rank. -/
theorem distanceRank_comm (a b : PeerId) :
    a.distanceRank b = b.distanceRank a := by
  simp [distanceRank, Blake2Hash.bitxor_comm a.hash]

/- A rank is the index of a bucket. -/
theorem distanceRank_lt (a b : PeerId) :
    a.distanceRank b < Blake2Hash.maxPower :=
  Blake2Hash.leadingZeros_lt _

end PeerId

end WorldDat

------------------------------------------------------------
-- Addresses, Messages and Contacts
------------------------------------------------------------

namespace WorldDat

/- `std::net::SocketAddr`. -/
inductive SocketAddr where
| v4 (ip : BitVec 32) (port : UInt16)
| v6 (ip : BitVec 128) (port : UInt16)
    (flowinfo scopeId : UInt32)
deriving DecidableEq

/- The messages that peers send each other. -/
inductive Message where
| ping (id : PeerId)
| pong (id : PeerId)
| findPeer (id : PeerId)
| findPeerResponsePeerFound
    (id : PeerId)
    (addr : SocketAddr)
| findPeerResponsePeerNotFound
    (id : PeerId)
    (neighbors : List (PeerId × SocketAddr))
deriving DecidableEq

/- Contact info for a peer. -/
structure Contact where
  peerId : PeerId
  address : SocketAddr
deriving DecidableEq

end WorldDat
