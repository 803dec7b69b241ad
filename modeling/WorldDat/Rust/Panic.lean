import Mathlib.Data.List.Basic

/-
  Panics of the Rust runtime and the slice operations that
  raise them.

  A computation that may unwind is an `Except Panic`.  The
  lemmas give the result of each operation on arguments that
  are in range.

  Main declarations:
    * `Rust.Panic`
    * `Rust.index`, `Rust.slice`, `Rust.setIndex` and
      `Rust.copyFromSlice`
-/

------------------------------------------------------------
-- Panics
------------------------------------------------------------

namespace Rust

/- The reasons for unwinding that a modelled operation has. -/
inductive Panic where
| indexOutOfBounds (index length : Nat)
| sliceOutOfBounds (start stop length : Nat)
| sourceLengthMismatch (source destination : Nat)
| assertionFailed
deriving DecidableEq, Repr

end Rust

------------------------------------------------------------
-- Slices
------------------------------------------------------------

namespace Rust

variable {α : Type}

/- `xs[i]`. -/
def index
    (xs : List α)
    (i : Nat) : Except Panic α :=
  match xs[i]? with
  | some x => .ok x
  | none => .error (.indexOutOfBounds i xs.length)

/- `xs[start..stop]`. -/
def slice
    (xs : List α)
    (start stop : Nat) : Except Panic (List α) :=
  if start ≤ stop ∧ stop ≤ xs.length then
    .ok ((xs.drop start).take (stop - start))
  else
    .error (.sliceOutOfBounds start stop xs.length)

/- `xs[i] = x`. -/
def setIndex
    (xs : List α)
    (i : Nat)
    (x : α) : Except Panic (List α) :=
  if i < xs.length then
    .ok (xs.set i x)
  else
    .error (.indexOutOfBounds i xs.length)

/- `destination.copy_from_slice(source)`. -/
def copyFromSlice
    (destination source : List α) :
    Except Panic (List α) :=
  if source.length = destination.length then
    .ok source
  else
    .error
      (.sourceLengthMismatch source.length
        destination.length)

/- An index in range returns the element. -/
theorem index_of_lt
    {xs : List α}
    {i : Nat}
    (hIndex : i < xs.length) :
    index xs i = .ok xs[i] := by
  simp [index, hIndex]

/- A range inside the list returns its elements. -/
theorem slice_of_le
    {xs : List α}
    {start stop : Nat}
    (hStart : start ≤ stop)
    (hStop : stop ≤ xs.length) :
    slice xs start stop =
      .ok ((xs.drop start).take (stop - start)) := by
  simp [slice, hStart, hStop]

/- An index in range can be written. -/
theorem setIndex_of_lt
    {xs : List α}
    {i : Nat}
    {x : α}
    (hIndex : i < xs.length) :
    setIndex xs i x = .ok (xs.set i x) := by
  simp [setIndex, hIndex]

/- A copied slice fills its destination. -/
theorem length_copyFromSlice
    {destination source result : List α}
    (hCopy :
      copyFromSlice destination source = .ok result) :
    result.length = destination.length := by
  unfold copyFromSlice at hCopy
  by_cases hLength : source.length = destination.length
  · rw [if_pos hLength, Except.ok.injEq] at hCopy
    rw [← hCopy]
    exact hLength
  · rw [if_neg hLength] at hCopy
    cases hCopy

end Rust
