import WorldDat.Rust.Panic

/-
  Deserializations that read fields one after the other.

  A deserialization returns a value, returns an error of the
  format, or unwinds.  `Reads` says that it reads a list of
  fields in order: the first field that cannot be read
  decides how it ends, and where there is none it returns a
  value.

  Main declarations:
    * `Rust.Deserialization`
    * `Rust.Reads`
    * `Rust.Reads.pure`, `Rust.Reads.bind` and
      `Rust.Reads.map`
    * `Rust.Reads.run_eq_ok_iff`
    * `Rust.Reads.run_eq_failure_iff`
-/

------------------------------------------------------------
-- Deserializations
------------------------------------------------------------

namespace Rust

/-
  A deserialization with errors `E` of the format, which may
  also unwind.
-/
abbrev Deserialization (E α : Type) :=
  ExceptT E (Except Panic) α

namespace Deserialization

variable {E α β : Type}

/-
  A deserialization without a value.  The failure is a panic
  or an error of the format.
-/
def fail
    (failure : Except Panic E) : Deserialization E α :=
  ExceptT.mk (failure.map Except.error)

/- A deserialization that unwinds. -/
def unwind (reason : Panic) : Deserialization E α :=
  fail (.error reason)

/- Nothing comes after a failure. -/
theorem fail_bind
    (failure : Except Panic E)
    (next : α → Deserialization E β) :
    fail failure >>= next = fail failure := by
  cases failure with
  | error reason => rfl
  | ok error => rfl

/- A value is not a failure. -/
theorem run_pure_ne_failure
    (value : α)
    (failure : Except Panic E) :
    (pure value : Deserialization E α).run ≠
      failure.map Except.error := by
  intro hFailure
  cases failure with
  | error reason => cases hFailure
  | ok error => cases hFailure

/- A failure shows which one it is. -/
theorem run_fail_inj
    {failure other : Except Panic E}
    (hRun :
      (fail failure : Deserialization E α).run =
        other.map Except.error) :
    failure = other := by
  cases failure with
  | error reason =>
      cases other with
      | error _ =>
          cases hRun
          rfl
      | ok _ => cases hRun
  | ok error =>
      cases other with
      | error _ => cases hRun
      | ok _ =>
          cases hRun
          rfl

end Deserialization

end Rust

------------------------------------------------------------
-- Reading Fields In Order
------------------------------------------------------------

namespace Rust

open Deserialization

variable {E F α β : Type}

/-
  The deserialization reads the fields in order.  The first
  one with a failure decides; without a failure it returns a
  value that has the property.
-/
def Reads
    (failure? : F → Option (Except Panic E))
    (fields : List F)
    (property : α → Prop)
    (reader : Deserialization E α) : Prop :=
  (∃ value,
    fields.findSome? failure? = none ∧
      property value ∧
      reader = pure value) ∨
  (∃ failure,
    fields.findSome? failure? = some failure ∧
      reader = fail failure)

namespace Reads

variable {failure? : F → Option (Except Panic E)}
variable {fields rest : List F}
variable {property : α → Prop} {goal : β → Prop}
variable {reader : Deserialization E α}

/- A value is returned without reading a field. -/
theorem pure
    {value : α}
    (hValue : property value) :
    Reads failure? [] property (Pure.pure value) :=
  .inl ⟨value, rfl, hValue, rfl⟩

/- Two deserializations read their fields one by one. -/
theorem bind
    {next : α → Deserialization E β}
    (hFirst : Reads failure? fields property reader)
    (hNext : ∀ value, property value →
      Reads failure? rest goal (next value)) :
    Reads failure? (fields ++ rest) goal
      (reader >>= next) := by
  rcases hFirst with
    ⟨value, hNone, hValue, hReader⟩ |
      ⟨failure, hSome, hReader⟩
  · rw [hReader, pure_bind]
    unfold Reads
    rw [List.findSome?_append, hNone, Option.none_or]
    exact hNext value hValue
  · right
    refine ⟨failure, ?_, ?_⟩
    · rw [List.findSome?_append, hSome, Option.some_or]
    · rw [hReader, fail_bind]

/- What is made of the value reads nothing more. -/
theorem map
    {next : α → β}
    (hReads : Reads failure? fields property reader)
    (hNext : ∀ value, property value → goal (next value)) :
    Reads failure? fields goal
      (do return next (← reader)) := by
  rw [← List.append_nil fields]
  apply hReads.bind
  intro value hValue
  exact .pure (hNext value hValue)

/- Values are returned where no field has a failure. -/
theorem run_eq_ok_iff
    (hReads : Reads failure? fields property reader)
    (hUnique : ∀ one other, property one →
      property other → one = other)
    (value : α) :
    reader.run = .ok (.ok value) ↔
      fields.findSome? failure? = none ∧
        property value := by
  rcases hReads with
    ⟨result, hNone, hResult, hReader⟩ |
      ⟨failure, hSome, hReader⟩
  · rw [hReader]
    constructor
    · intro hRun
      cases hRun
      exact ⟨hNone, hResult⟩
    · intro hValue
      rw [hUnique value result hValue.2 hResult]
      rfl
  · rw [hReader]
    apply iff_of_false
    · intro hRun
      cases failure with
      | error reason => cases hRun
      | ok error => cases hRun
    · intro hValue
      rw [hSome] at hValue
      cases hValue.1

/- A failure is that of the first field that has one. -/
theorem run_eq_failure_iff
    (hReads : Reads failure? fields property reader)
    (failure : Except Panic E) :
    reader.run = failure.map Except.error ↔
      fields.findSome? failure? = some failure := by
  rcases hReads with
    ⟨result, hNone, _, hReader⟩ |
      ⟨first, hSome, hReader⟩
  · rw [hReader, hNone]
    apply iff_of_false
    · exact run_pure_ne_failure result failure
    · intro hSome
      cases hSome
  · rw [hReader, hSome, Option.some.injEq]
    constructor
    · exact run_fail_inj
    · intro hFirst
      rw [hFirst]
      rfl

end Reads

end Rust
