import Mathlib.Data.List.Forall2
import WorldDat.Serde.Basic

/-
  Deserialization reads the fields of a message in the order
  in which they stand on the wire.

  A single field either fails or is read; what is returned
  in the end is the message that the fields spell.

  Main declarations:
    * `AddrFormat.failure?`
    * `Message.Spells`
    * `Message.reads_deserialize`
    * `Message.run_deserialize_eq_ok_iff` and
      `Message.run_deserialize_eq_failure_iff`
    * `Message.spells_serialize_iff`
-/

------------------------------------------------------------
-- Single Fields
------------------------------------------------------------

namespace WorldDat

open Rust

variable {E A : Type}

namespace Blake2Hash

/- A byte string of the right length is copied. -/
theorem visitBytes_of_length
    {value : List UInt8}
    (hLength : value.length = blake2HashSize) :
    (visitBytes value : Deserialization E Blake2Hash) =
      pure { bytes := value, length_bytes := hLength } := by
  have hSource :
      copyFromSlice (List.replicate blake2HashSize 0)
          value =
        .ok value := by
    unfold copyFromSlice
    rw [List.length_replicate, if_pos hLength]
  unfold visitBytes
  split
  · rename_i reason hCopy
    rw [hSource] at hCopy
    cases hCopy
  · rename_i out hCopy
    have hOut : value = out := by
      rw [hSource, Except.ok.injEq] at hCopy
      exact hCopy
    subst hOut
    rfl

/- Copying any other byte string unwinds. -/
theorem visitBytes_of_length_ne
    {value : List UInt8}
    (hLength : value.length ≠ blake2HashSize) :
    (visitBytes value : Deserialization E Blake2Hash) =
      .unwind
        (.sourceLengthMismatch value.length
          blake2HashSize) := by
  have hSource :
      copyFromSlice (List.replicate blake2HashSize 0)
          value =
        .error
          (.sourceLengthMismatch value.length
            blake2HashSize) := by
    unfold copyFromSlice
    rw [List.length_replicate, if_neg hLength]
  unfold visitBytes
  split
  · rename_i reason hCopy
    rw [hSource, Except.error.injEq] at hCopy
    rw [hCopy]
  · rename_i out hCopy
    rw [hSource] at hCopy
    cases hCopy

end Blake2Hash

/-
  Why a field cannot be read.  Copying an id that is not as
  long as a hash unwinds; for an address the format may
  return an error.
-/
def AddrFormat.failure?
    (format : AddrFormat E A) :
    WireField A → Option (Except Panic E)
| .id bytes =>
    if bytes.length = blake2HashSize then
      none
    else
      some
        (.error
          (.sourceLengthMismatch bytes.length
            blake2HashSize))
| .addr addr =>
    match format.decode addr with
    | .error error => some (.ok error)
    | .ok _ => none

/- An id field is read as the id with its bytes. -/
theorem PeerId.reads_deserialize
    (format : AddrFormat E A)
    (bytes : List UInt8) :
    Reads format.failure? [.id bytes]
      (fun id : PeerId => id.serialize = bytes)
      (PeerId.deserialize bytes) := by
  by_cases hLength : bytes.length = blake2HashSize
  · left
    refine ⟨raw bytes hLength, ?_, rfl, ?_⟩
    · rw [List.findSome?_cons, AddrFormat.failure?,
        if_pos hLength]
      rfl
    · unfold deserialize Blake2Hash.deserialize
      rw [Blake2Hash.visitBytes_of_length hLength, pure_bind]
      rfl
  · right
    refine
      ⟨.error
        (.sourceLengthMismatch bytes.length
          blake2HashSize), ?_, ?_⟩
    · rw [List.findSome?_cons, AddrFormat.failure?,
        if_neg hLength]
    · unfold deserialize Blake2Hash.deserialize
      rw [Blake2Hash.visitBytes_of_length_ne hLength]
      rfl

namespace AddrFormat

variable {format : AddrFormat E A}

/- An address field is read as the format reads it. -/
theorem reads_deserialize
    (format : AddrFormat E A)
    (addr : A) :
    Reads format.failure? [.addr addr]
      (fun result => format.decode addr = .ok result)
      (format.deserialize addr) := by
  cases hDecode : format.decode addr with
  | error error =>
      right
      refine ⟨.ok error, ?_, ?_⟩
      · rw [List.findSome?_cons, failure?, hDecode]
      · rw [deserialize, hDecode]
        rfl
  | ok result =>
      left
      refine ⟨result, ?_, rfl, ?_⟩
      · rw [List.findSome?_cons, failure?, hDecode]
        rfl
      · rw [deserialize, hDecode]
        rfl

/- An id can be read if it is as long as a hash. -/
theorem failure?_id_eq_none_iff (bytes : List UInt8) :
    format.failure? (.id bytes) = none ↔
      bytes.length = blake2HashSize := by
  unfold failure?
  simp

/- The bytes of an id can be read. -/
theorem failure?_id_serialize
    {bytes : List UInt8}
    {id : PeerId}
    (hId : id.serialize = bytes) :
    format.failure? (.id bytes) = none := by
  rw [failure?_id_eq_none_iff, ← hId]
  exact id.hash.length_bytes

/- What an address was read as, could be read. -/
theorem failure?_addr_of_decode
    {addr : A}
    {result : SocketAddr}
    (hDecode : format.decode addr = .ok result) :
    format.failure? (.addr addr) = none := by
  rw [failure?, hDecode]

/- Binary formats can read every address they write. -/
theorem readsBack_binary : (binary E).ReadsBack := by
  intro addr
  cases addr with
  | v4 ip port => exact ⟨.v4 ip port, rfl⟩
  | v6 ip port _ _ => exact ⟨.v6 ip port 0 0, rfl⟩

/- Of the IPv6 addresses they keep the plain ones. -/
theorem keeps_binary_v6_iff
    (ip : BitVec 128)
    (port : UInt16)
    (flowinfo scopeId : UInt32) :
    (binary E).Keeps (.v6 ip port flowinfo scopeId) ↔
      flowinfo = 0 ∧ scopeId = 0 := by
  constructor
  · intro hKeeps
    cases hKeeps
    exact ⟨rfl, rfl⟩
  · intro hPlain
    rw [hPlain.1, hPlain.2]
    rfl

end AddrFormat

end WorldDat

------------------------------------------------------------
-- Messages And How They Are Spelled
------------------------------------------------------------

namespace WorldDat

open Rust

variable {E A B : Type}

/- An id is determined by its bytes. -/
theorem PeerId.serialize_inj
    {one other : PeerId}
    (hSame : one.serialize = other.serialize) :
    one = other := by
  rcases one with ⟨⟨bytes, hLength⟩⟩
  rcases other with ⟨⟨bytes', hLength'⟩⟩
  cases hSame
  rfl

namespace WireMessage

/- Writing the addresses in another way changes no id. -/
theorem fields_mapAddr
    (f : A → B)
    (wire : WireMessage A) :
    (wire.mapAddr f).fields =
      wire.fields.map (WireField.mapAddr f) := by
  cases wire with
  | ping id => rfl
  | pong id => rfl
  | findPeer id => rfl
  | findPeerResponsePeerFound id addr => rfl
  | findPeerResponsePeerNotFound id neighbors =>
      rw [mapAddr, fields, fields, List.map_cons,
        List.map_flatMap, List.flatMap_map]
      rfl

end WireMessage

namespace Message

/- The two parts of a neighbor spell this one. -/
def SpellsNeighbor
    (format : AddrFormat E A)
    (written : List UInt8 × A)
    (neighbor : PeerId × SocketAddr) : Prop :=
  neighbor.1.serialize = written.1 ∧
    format.decode written.2 = .ok neighbor.2

/-
  What is on the wire spells the message: the ids have the
  bytes of the id fields, and the addresses are what the
  format reads.
-/
inductive Spells (format : AddrFormat E A) :
    WireMessage A → Message → Prop where
| ping {bytes : List UInt8} {id : PeerId}
    (hId : id.serialize = bytes) :
    Spells format (.ping bytes) (.ping id)
| pong {bytes : List UInt8} {id : PeerId}
    (hId : id.serialize = bytes) :
    Spells format (.pong bytes) (.pong id)
| findPeer {bytes : List UInt8} {id : PeerId}
    (hId : id.serialize = bytes) :
    Spells format (.findPeer bytes) (.findPeer id)
| findPeerResponsePeerFound
    {bytes : List UInt8} {id : PeerId}
    {written : A} {addr : SocketAddr}
    (hId : id.serialize = bytes)
    (hAddr : format.decode written = .ok addr) :
    Spells format
      (.findPeerResponsePeerFound bytes written)
      (.findPeerResponsePeerFound id addr)
| findPeerResponsePeerNotFound
    {bytes : List UInt8} {id : PeerId}
    {written : List (List UInt8 × A)}
    {neighbors : List (PeerId × SocketAddr)}
    (hId : id.serialize = bytes)
    (hNeighbors :
      List.Forall₂ (SpellsNeighbor format) written
        neighbors) :
    Spells format
      (.findPeerResponsePeerNotFound bytes written)
      (.findPeerResponsePeerNotFound id neighbors)

/- One neighbor is spelled in one way. -/
theorem spellsNeighbor_rightUnique
    (format : AddrFormat E A) :
    Relator.RightUnique (SpellsNeighbor format) := by
  intro written one other hOne hOther
  have hId : one.1 = other.1 :=
    PeerId.serialize_inj (hOne.1.trans hOther.1.symm)
  have hAddr : one.2 = other.2 := by
    have hSame := hOne.2.symm.trans hOther.2
    rw [Except.ok.injEq] at hSame
    exact hSame
  exact Prod.ext hId hAddr

/- Every field of spelled neighbors can be read. -/
theorem failure?_neighborFields
    {format : AddrFormat E A}
    {written : List (List UInt8 × A)}
    {neighbors : List (PeerId × SocketAddr)}
    (hSpells :
      List.Forall₂ (SpellsNeighbor format) written
        neighbors) :
    ∀ field ∈ written.flatMap WireMessage.neighborFields,
      format.failure? field = none := by
  induction hSpells with
  | nil =>
      intro field hField
      cases hField
  | cons hNeighbor _ ih =>
      intro field hField
      rcases List.mem_cons.mp hField with hField | hField
      · rw [hField]
        exact AddrFormat.failure?_id_serialize hNeighbor.1
      · rcases List.mem_cons.mp hField with hField | hField
        · rw [hField]
          exact AddrFormat.failure?_addr_of_decode
            hNeighbor.2
        · exact ih field hField

namespace Spells

variable {format : AddrFormat E A}
variable {wire : WireMessage A}

/- What is on the wire spells at most one message. -/
theorem unique
    {one other : Message}
    (hOne : Spells format wire one)
    (hOther : Spells format wire other) :
    one = other := by
  cases hOne with
  | ping hId =>
      cases hOther with
      | ping hId' =>
          rw [PeerId.serialize_inj (hId.trans hId'.symm)]
  | pong hId =>
      cases hOther with
      | pong hId' =>
          rw [PeerId.serialize_inj (hId.trans hId'.symm)]
  | findPeer hId =>
      cases hOther with
      | findPeer hId' =>
          rw [PeerId.serialize_inj (hId.trans hId'.symm)]
  | findPeerResponsePeerFound hId hAddr =>
      cases hOther with
      | findPeerResponsePeerFound hId' hAddr' =>
          have hSame := hAddr.symm.trans hAddr'
          rw [Except.ok.injEq] at hSame
          rw [PeerId.serialize_inj (hId.trans hId'.symm),
            hSame]
  | findPeerResponsePeerNotFound hId hNeighbors =>
      cases hOther with
      | findPeerResponsePeerNotFound hId' hNeighbors' =>
          rw [PeerId.serialize_inj (hId.trans hId'.symm),
            (spellsNeighbor_rightUnique format).forall₂
              hNeighbors hNeighbors']

/- Every field of a spelled message can be read. -/
theorem failure?_eq_none
    {msg : Message}
    {field : WireField A}
    (hSpells : Spells format wire msg)
    (hField : field ∈ wire.fields) :
    format.failure? field = none := by
  cases hSpells with
  | ping hId =>
      rw [List.mem_singleton.mp hField]
      exact AddrFormat.failure?_id_serialize hId
  | pong hId =>
      rw [List.mem_singleton.mp hField]
      exact AddrFormat.failure?_id_serialize hId
  | findPeer hId =>
      rw [List.mem_singleton.mp hField]
      exact AddrFormat.failure?_id_serialize hId
  | findPeerResponsePeerFound hId hAddr =>
      rcases List.mem_pair.mp hField with hField | hField
      · rw [hField]
        exact AddrFormat.failure?_id_serialize hId
      · rw [hField]
        exact AddrFormat.failure?_addr_of_decode hAddr
  | findPeerResponsePeerNotFound hId hNeighbors =>
      rcases List.mem_cons.mp hField with hField | hField
      · rw [hField]
        exact AddrFormat.failure?_id_serialize hId
      · exact failure?_neighborFields hNeighbors field hField

end Spells

end Message

end WorldDat

------------------------------------------------------------
-- Reading Messages
------------------------------------------------------------

namespace WorldDat

open Rust

variable {E A B : Type}

namespace Message

/- Neighbors are read one after the other. -/
theorem reads_deserializeNeighbors
    (format : AddrFormat E A)
    (neighbors : List (List UInt8 × A)) :
    Reads format.failure?
      (neighbors.flatMap WireMessage.neighborFields)
      (List.Forall₂ (SpellsNeighbor format) neighbors)
      (deserializeNeighbors format neighbors) := by
  induction neighbors with
  | nil => exact .pure .nil
  | cons neighbor rest ih =>
      rcases neighbor with ⟨bytes, addr⟩
      apply (PeerId.reads_deserialize format bytes).bind
      intro id hId
      apply (format.reads_deserialize addr).bind
      intro result hAddr
      apply ih.map
      intro neighbors hNeighbors
      exact .cons ⟨hId, hAddr⟩ hNeighbors

/- The fields of a message are read in wire order. -/
theorem reads_deserialize
    (format : AddrFormat E A)
    (wire : WireMessage A) :
    Reads format.failure? wire.fields (Spells format wire)
      (deserialize format wire) := by
  cases wire with
  | ping bytes =>
      apply (PeerId.reads_deserialize format bytes).map
      intro id hId
      exact .ping hId
  | pong bytes =>
      apply (PeerId.reads_deserialize format bytes).map
      intro id hId
      exact .pong hId
  | findPeer bytes =>
      apply (PeerId.reads_deserialize format bytes).map
      intro id hId
      exact .findPeer hId
  | findPeerResponsePeerFound bytes addr =>
      apply (PeerId.reads_deserialize format bytes).bind
      intro id hId
      apply (format.reads_deserialize addr).map
      intro result hAddr
      exact .findPeerResponsePeerFound hId hAddr
  | findPeerResponsePeerNotFound bytes neighbors =>
      apply (PeerId.reads_deserialize format bytes).bind
      intro id hId
      apply (reads_deserializeNeighbors format
        neighbors).map
      intro result hNeighbors
      exact .findPeerResponsePeerNotFound hId hNeighbors

/- The message returned is the one that is spelled. -/
theorem run_deserialize_eq_ok_iff
    (format : AddrFormat E A)
    (wire : WireMessage A)
    (msg : Message) :
    (deserialize format wire).run = .ok (.ok msg) ↔
      Spells format wire msg := by
  rw [(reads_deserialize format wire).run_eq_ok_iff
    fun _ _ hOne hOther => hOne.unique hOther]
  constructor
  · intro hRead
    exact hRead.2
  · intro hSpells
    refine ⟨?_, hSpells⟩
    rw [List.findSome?_eq_none_iff]
    intro field hField
    exact hSpells.failure?_eq_none hField

/- A failure is that of the first field that has one. -/
theorem run_deserialize_eq_failure_iff
    (format : AddrFormat E A)
    (wire : WireMessage A)
    (failure : Except Panic E) :
    (deserialize format wire).run =
        failure.map Except.error ↔
      ∃ front field back,
        wire.fields = front ++ field :: back ∧
          format.failure? field = some failure ∧
          ∀ earlier ∈ front,
            format.failure? earlier = none := by
  rw [(reads_deserialize format wire).run_eq_failure_iff,
    List.findSome?_eq_some_iff]

/- Writing the addresses of a message afterwards. -/
theorem mapAddr_serialize
    (f : A → B)
    (encode : SocketAddr → A)
    (msg : Message) :
    (msg.serialize encode).mapAddr f =
      msg.serialize (f ∘ encode) := by
  cases msg with
  | ping id => rfl
  | pong id => rfl
  | findPeer id => rfl
  | findPeerResponsePeerFound id addr => rfl
  | findPeerResponsePeerNotFound id neighbors =>
      rw [serialize, WireMessage.mapAddr, List.map_map]
      rfl

/-
  What is sent spells the message if the format keeps every
  address of it.
-/
theorem spells_serialize_iff
    (format : AddrFormat E A)
    (msg : Message) :
    Spells format (msg.serialize format.encode) msg ↔
      ∀ addr, .addr addr ∈ (msg.serialize id).fields →
        format.Keeps addr := by
  cases msg with
  | ping id =>
      apply iff_of_true (.ping rfl)
      intro addr hAddr
      cases List.mem_singleton.mp hAddr
  | pong id =>
      apply iff_of_true (.pong rfl)
      intro addr hAddr
      cases List.mem_singleton.mp hAddr
  | findPeer id =>
      apply iff_of_true (.findPeer rfl)
      intro addr hAddr
      cases List.mem_singleton.mp hAddr
  | findPeerResponsePeerFound id addr =>
      constructor
      · intro hSpells
        cases hSpells with
        | findPeerResponsePeerFound _ hAddr =>
            intro other hOther
            rcases List.mem_pair.mp hOther with
              hOther | hOther
            · cases hOther
            · cases hOther
              exact hAddr
      · intro hKeeps
        exact .findPeerResponsePeerFound rfl
          (hKeeps addr
            (List.mem_cons_of_mem _ List.mem_cons_self))
  | findPeerResponsePeerNotFound id neighbors =>
      constructor
      · intro hSpells
        cases hSpells with
        | findPeerResponsePeerNotFound _ hNeighbors =>
            rw [List.forall₂_map_left_iff,
              List.forall₂_same] at hNeighbors
            intro addr hAddr
            rcases List.mem_cons.mp hAddr with
              hAddr | hAddr
            · cases hAddr
            · rcases List.mem_flatMap.mp hAddr with
                ⟨written, hWritten, hAddr⟩
              rcases List.mem_map.mp hWritten with
                ⟨neighbor, hNeighbor, hSame⟩
              rw [← hSame] at hAddr
              rcases List.mem_pair.mp hAddr with
                hAddr | hAddr
              · cases hAddr
              · cases hAddr
                exact (hNeighbors neighbor hNeighbor).2
      · intro hKeeps
        apply Spells.findPeerResponsePeerNotFound rfl
        rw [List.forall₂_map_left_iff, List.forall₂_same]
        intro neighbor hNeighbor
        refine ⟨rfl, hKeeps neighbor.2 ?_⟩
        apply List.mem_cons_of_mem
        rw [List.mem_flatMap]
        exact
          ⟨(neighbor.1.serialize, neighbor.2),
            List.mem_map_of_mem hNeighbor,
            List.mem_cons_of_mem _ List.mem_cons_self⟩

end Message

end WorldDat
