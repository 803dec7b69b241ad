import WorldDat.Serde.Spelling

/-
  What becomes of every message on the wire.

  The fields are read in the order in which they stand
  there, so the first one that cannot be read decides how the
  deserialization ends.

  Main declarations:
    * `AddrFormat.Readable`
    * `Message.DecodesExactly`
    * `Message.decodes_exactly`
-/

------------------------------------------------------------
-- Fields That Cannot Be Read
------------------------------------------------------------

namespace WorldDat

open Rust

namespace AddrFormat

variable {E A : Type}

/- Nothing is wrong with the field. -/
def Readable
    (format : AddrFormat E A)
    (field : WireField A) : Prop :=
  format.failure? field = none

/- An id unwinds by its length. -/
theorem failure?_eq_panic_iff
    (format : AddrFormat E A)
    (field : WireField A)
    (reason : Panic) :
    format.failure? field = some (.error reason) ↔
      ∃ bytes,
        field = .id bytes ∧
          bytes.length ≠ blake2HashSize ∧
          reason =
            .sourceLengthMismatch bytes.length
              blake2HashSize := by
  cases field with
  | id bytes =>
      by_cases hLength : bytes.length = blake2HashSize
      · rw [(failure?_id_eq_none_iff bytes).mpr hLength]
        apply iff_of_false
        · intro hSome
          cases hSome
        · intro hExists
          rcases hExists with ⟨other, hOther, hWrong, _⟩
          cases hOther
          exact hWrong hLength
      · rw [failure?, if_neg hLength]
        constructor
        · intro hSome
          cases hSome
          exact ⟨bytes, rfl, hLength, rfl⟩
        · intro hExists
          rcases hExists with ⟨other, hOther, _, hReason⟩
          cases hOther
          rw [hReason]
  | addr written =>
      apply iff_of_false
      · intro hSome
        cases hDecode : format.decode written with
        | error error =>
            rw [failure?, hDecode] at hSome
            cases hSome
        | ok result =>
            rw [failure?_addr_of_decode hDecode] at hSome
            cases hSome
      · intro hExists
        rcases hExists with ⟨bytes, hBytes, _⟩
        cases hBytes

/- An error is that of an address. -/
theorem failure?_eq_error_iff
    (format : AddrFormat E A)
    (field : WireField A)
    (error : E) :
    format.failure? field = some (.ok error) ↔
      ∃ written,
        field = .addr written ∧
          format.decode written = .error error := by
  cases field with
  | id bytes =>
      apply iff_of_false
      · intro hSome
        by_cases hLength : bytes.length = blake2HashSize
        · rw [failure?, if_pos hLength] at hSome
          cases hSome
        · rw [failure?, if_neg hLength] at hSome
          cases hSome
      · intro hExists
        rcases hExists with ⟨written, hWritten, _⟩
        cases hWritten
  | addr written =>
      cases hDecode : format.decode written with
      | error other =>
          rw [failure?, hDecode]
          constructor
          · intro hSome
            cases hSome
            exact ⟨written, rfl, hDecode⟩
          · intro hExists
            rcases hExists with ⟨same, hSame, hError⟩
            cases hSame
            rw [hDecode] at hError
            cases hError
            rfl
      | ok result =>
          rw [failure?_addr_of_decode hDecode]
          apply iff_of_false
          · intro hSome
            cases hSome
          · intro hExists
            rcases hExists with ⟨same, hSame, hError⟩
            cases hSame
            rw [hDecode] at hError
            cases hError

end AddrFormat

end WorldDat

------------------------------------------------------------
-- Exact Decoding
------------------------------------------------------------

namespace WorldDat

open Rust

variable {E A : Type}

namespace Message

/-
  Deserialization returns exactly the message that is spelled
  on the wire.  Otherwise the first field that cannot be read
  decides: an id that is not as long as a hash unwinds, an
  address gives the error of the format.  A message that is
  sent comes back if the format keeps all its addresses.
-/
structure DecodesExactly
    (format : AddrFormat E A)
    (wire : WireMessage A) : Prop where
  returns : ∀ msg : Message,
    (deserialize format wire).run = .ok (.ok msg) ↔
      Spells format wire msg
  unwinds : ∀ reason,
    (deserialize format wire).run = .error reason ↔
      ∃ front bytes back,
        wire.fields = front ++ .id bytes :: back ∧
          (∀ field ∈ front, format.Readable field) ∧
          bytes.length ≠ blake2HashSize ∧
          reason =
            .sourceLengthMismatch bytes.length
              blake2HashSize
  errors : ∀ error,
    (deserialize format wire).run = .ok (.error error) ↔
      ∃ front written back,
        wire.fields = front ++ .addr written :: back ∧
          (∀ field ∈ front, format.Readable field) ∧
          format.decode written = .error error
  inverse : ∀ msg : Message,
    msg.serialize format.encode = wire →
      ((deserialize format wire).run = .ok (.ok msg) ↔
        ∀ addr, .addr addr ∈ (msg.serialize id).fields →
          format.Keeps addr)

theorem decodes_exactly
    (format : AddrFormat E A)
    (wire : WireMessage A) :
    DecodesExactly format wire := by
  refine
    { returns := run_deserialize_eq_ok_iff format wire
      unwinds := ?_
      errors := ?_
      inverse := ?_ }
  · intro reason
    refine
      (run_deserialize_eq_failure_iff format wire
        (.error reason)).trans ?_
    constructor
    · intro hFirst
      rcases hFirst with
        ⟨front, field, back, hFields, hField, hFront⟩
      rcases (format.failure?_eq_panic_iff field reason).mp
          hField with
        ⟨bytes, hBytes, hLength, hReason⟩
      rw [hBytes] at hFields
      exact
        ⟨front, bytes, back, hFields, hFront, hLength,
          hReason⟩
    · intro hFirst
      rcases hFirst with
        ⟨front, bytes, back, hFields, hFront, hLength,
          hReason⟩
      exact
        ⟨front, .id bytes, back, hFields,
          (format.failure?_eq_panic_iff _ reason).mpr
            ⟨bytes, rfl, hLength, hReason⟩,
          hFront⟩
  · intro error
    refine
      (run_deserialize_eq_failure_iff format wire
        (.ok error)).trans ?_
    constructor
    · intro hFirst
      rcases hFirst with
        ⟨front, field, back, hFields, hField, hFront⟩
      rcases (format.failure?_eq_error_iff field error).mp
          hField with
        ⟨written, hWritten, hError⟩
      rw [hWritten] at hFields
      exact
        ⟨front, written, back, hFields, hFront, hError⟩
    · intro hFirst
      rcases hFirst with
        ⟨front, written, back, hFields, hFront, hError⟩
      exact
        ⟨front, .addr written, back, hFields,
          (format.failure?_eq_error_iff _ error).mpr
            ⟨written, rfl, hError⟩,
          hFront⟩
  · intro msg hWire
    rw [← hWire, run_deserialize_eq_ok_iff,
      spells_serialize_iff]

end Message

end WorldDat
