import Mathlib.Data.Set.List
import WorldDat.Serde.Spelling

/-
  Messages with ids of any length, and when they are decoded
  without unwinding.

  Main declarations:
    * `Message.DecodesSafely`
    * `Message.decodesSafely_iff`
-/

------------------------------------------------------------
-- Safe Decoding
------------------------------------------------------------

namespace WorldDat

open Rust

variable {E A : Type}

namespace Message

/- Ids of the right length are those of a message. -/
theorem exists_serialize_eq
    {raw : WireMessage SocketAddr}
    (hSized : raw.WellSized) :
    ∃ msg : Message, msg.serialize id = raw := by
  cases raw with
  | ping bytes =>
      have hId := hSized bytes List.mem_cons_self
      exact ⟨.ping (.raw bytes hId), rfl⟩
  | pong bytes =>
      have hId := hSized bytes List.mem_cons_self
      exact ⟨.pong (.raw bytes hId), rfl⟩
  | findPeer bytes =>
      have hId := hSized bytes List.mem_cons_self
      exact ⟨.findPeer (.raw bytes hId), rfl⟩
  | findPeerResponsePeerFound bytes addr =>
      have hId := hSized bytes List.mem_cons_self
      exact
        ⟨.findPeerResponsePeerFound (.raw bytes hId) addr,
          rfl⟩
  | findPeerResponsePeerNotFound bytes written =>
      have hId := hSized bytes List.mem_cons_self
      let spell : PeerId × SocketAddr →
          List UInt8 × SocketAddr :=
        fun neighbor => (neighbor.1.serialize, neighbor.2)
      have hWritten :
          written ∈ Set.range (List.map spell) := by
        rw [Set.range_list_map]
        intro one hOne
        have hOneId := hSized one.1 (by
          apply List.mem_cons_of_mem
          rw [List.mem_flatMap]
          exact ⟨one, hOne, List.mem_cons_self⟩)
        exact ⟨(.raw one.1 hOneId, one.2), rfl⟩
      rcases hWritten with ⟨neighbors, hNeighbors⟩
      refine
        ⟨.findPeerResponsePeerNotFound (.raw bytes hId)
          neighbors, ?_⟩
      rw [← hNeighbors]
      rfl

/-
  With addresses that the format can read, a message fails
  to be read only by unwinding.
-/
theorem unwinds_of_failure
    {format : AddrFormat E A}
    (hReads : format.ReadsBack)
    {raw : WireMessage SocketAddr}
    {failure : Except Panic E}
    (hFailure :
      (raw.mapAddr format.encode).fields.findSome?
          format.failure? =
        some failure) :
    ∃ reason, failure = .error reason := by
  rcases List.exists_of_findSome?_eq_some hFailure with
    ⟨field, hField, hSome⟩
  rw [WireMessage.fields_mapAddr] at hField
  rcases List.mem_map.mp hField with ⟨source, _, hSource⟩
  cases source with
  | id bytes =>
      rw [← hSource, WireField.mapAddr,
        AddrFormat.failure?] at hSome
      by_cases hLength : bytes.length = blake2HashSize
      · rw [if_pos hLength] at hSome
        cases hSome
      · rw [if_neg hLength, Option.some.injEq] at hSome
        exact ⟨_, hSome.symm⟩
  | addr addr =>
      rcases hReads addr with ⟨result, hResult⟩
      rw [← hSource, WireField.mapAddr,
        AddrFormat.failure?_addr_of_decode hResult] at hSome
      cases hSome

/-
  Deserialization of a message neither unwinds nor accepts
  ids of the wrong length: it returns the message with the
  bytes on the wire, or an error of the format.  A message
  that is sent is read back.
-/
structure DecodesSafely
    (format : AddrFormat E A)
    (raw : WireMessage SocketAddr) : Prop where
  accepted : raw.WellSized →
    ∃ msg : Message,
      (deserialize format (raw.mapAddr format.encode)).run =
          .ok (.ok msg) ∧
        msg.serialize id = raw
  rejected : ¬ raw.WellSized →
    ∃ error,
      (deserialize format (raw.mapAddr format.encode)).run =
        .ok (.error error)
  inverse : ∀ msg : Message, msg.serialize id = raw →
    (deserialize format
        (msg.serialize format.encode)).run =
      .ok (.ok msg)

/-
  Decoding is safe for messages of the right size whose
  addresses the format keeps, and for no others.
-/
theorem decodesSafely_iff
    (format : AddrFormat E A)
    (hReads : format.ReadsBack)
    (raw : WireMessage SocketAddr) :
    DecodesSafely format raw ↔
      raw.WellSized ∧
        ∀ addr, .addr addr ∈ raw.fields →
          format.Keeps addr := by
  constructor
  · intro hSafe
    have hSized : raw.WellSized := by
      by_contra hWrong
      rcases hSafe.rejected hWrong with ⟨error, hError⟩
      have hFailure :=
        ((reads_deserialize format _).run_eq_failure_iff
          (.ok error)).mp hError
      rcases unwinds_of_failure hReads hFailure with
        ⟨reason, hReason⟩
      cases hReason
    rcases exists_serialize_eq hSized with ⟨msg, hMsg⟩
    have hRead := hSafe.inverse msg hMsg
    rw [run_deserialize_eq_ok_iff, spells_serialize_iff,
      hMsg] at hRead
    exact ⟨hSized, hRead⟩
  · intro hGood
    rcases hGood with ⟨hSized, hKeeps⟩
    have hInverse :
        ∀ msg : Message, msg.serialize id = raw →
          (deserialize format
              (msg.serialize format.encode)).run =
            .ok (.ok msg) := by
      intro msg hMsg
      rw [run_deserialize_eq_ok_iff, spells_serialize_iff,
        hMsg]
      exact hKeeps
    refine ⟨?_, ?_, hInverse⟩
    · intro _
      rcases exists_serialize_eq hSized with ⟨msg, hMsg⟩
      refine ⟨msg, ?_, hMsg⟩
      rw [← hMsg, mapAddr_serialize]
      exact hInverse msg hMsg
    · intro hWrong
      exact absurd hSized hWrong

/- A reply with an IPv4 and a plain IPv6 address is safe. -/
theorem reply_decoded_safely :
    DecodesSafely (.binary String)
      (.findPeerResponsePeerNotFound
        (List.replicate 32 1)
        [(List.replicate 32 2, .v4 0x0A000001#32 4433),
          (List.replicate 32 3, .v6 1#128 1234 0 0)]) := by
  rw [decodesSafely_iff (.binary String)
    AddrFormat.readsBack_binary]
  constructor
  · intro bytes hBytes
    simp only [WireMessage.fields, List.flatMap_cons,
      List.flatMap_nil, WireMessage.neighborFields,
      List.cons_append, List.nil_append, List.mem_cons,
      List.not_mem_nil, WireField.id.injEq, reduceCtorEq,
      false_or, or_false] at hBytes
    rcases hBytes with hBytes | hBytes | hBytes
    · rw [hBytes, List.length_replicate]
      rfl
    · rw [hBytes, List.length_replicate]
      rfl
    · rw [hBytes, List.length_replicate]
      rfl
  · intro addr hAddr
    simp only [WireMessage.fields, List.flatMap_cons,
      List.flatMap_nil, WireMessage.neighborFields,
      List.cons_append, List.nil_append, List.mem_cons,
      List.not_mem_nil, WireField.addr.injEq, reduceCtorEq,
      false_or, or_false] at hAddr
    rcases hAddr with hAddr | hAddr
    · rw [hAddr]
      rfl
    · rw [hAddr, AddrFormat.keeps_binary_v6_iff]
      exact ⟨rfl, rfl⟩

/- A ping with an empty id is not rejected but unwinds. -/
theorem empty_ping_not_decoded_safely :
    ¬ ∀ raw, DecodesSafely (.binary String) raw := by
  intro hClaim
  have hSized :
      ¬ (WireMessage.ping [] :
        WireMessage SocketAddr).WellSized := by
    intro hAll
    have hLength := hAll [] List.mem_cons_self
    exact absurd hLength (by decide)
  rcases (hClaim (.ping [])).rejected hSized with
    ⟨error, hError⟩
  have hRun :
      (deserialize (.binary String) (.ping [])).run =
        .error (.sourceLengthMismatch 0 32) := rfl
  rw [WireMessage.mapAddr, hRun] at hError
  cases hError

end Message

end WorldDat
