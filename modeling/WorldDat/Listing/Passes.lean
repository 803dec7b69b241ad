import Mathlib.Data.List.Basic
import Mathlib.Data.Nat.Init

/-
  Lists collected in passes: a first part, then what the
  passes 1, 2, 3, ... add, until enough has been collected.

  Main declarations:
    * `Listing.before`
    * `Listing.exists_getElem?_append_iff`
    * `Listing.mem_before_iff` and `mem_take_before_iff`
    * `Listing.take_gather`
-/

------------------------------------------------------------
-- Positions In A Concatenation
------------------------------------------------------------

namespace Listing

variable {α : Type}

/-
  An element before position `bound` of a concatenation is
  in the first list, or in the second one at a position that
  counts from its end.
-/
theorem exists_getElem?_append_iff
    (xs ys : List α)
    (bound : Nat)
    (x : α) :
    (∃ i, i < bound ∧ (xs ++ ys)[i]? = some x) ↔
      (∃ i, i < bound ∧ xs[i]? = some x) ∨
        ∃ j, xs.length + j < bound ∧ ys[j]? = some x := by
  constructor
  · rintro ⟨i, hBound, hGet⟩
    rw [List.getElem?_append] at hGet
    by_cases hIndex : i < xs.length
    · rw [if_pos hIndex] at hGet
      exact Or.inl ⟨i, hBound, hGet⟩
    · rw [if_neg hIndex] at hGet
      exact Or.inr ⟨i - xs.length, by omega, hGet⟩
  · rintro (⟨i, hBound, hGet⟩ | ⟨j, hBound, hGet⟩)
    · have hIndex : i < xs.length := by
        by_contra hNot
        rw [List.getElem?_eq_none (by omega)] at hGet
        cases hGet
      refine ⟨i, hBound, ?_⟩
      rw [List.getElem?_append, if_pos hIndex, hGet]
    · refine ⟨xs.length + j, hBound, ?_⟩
      rw [List.getElem?_append, if_neg (by omega),
        Nat.add_sub_cancel_left, hGet]

/- The elements of an initial part are those before its end. -/
theorem mem_take_iff_exists_getElem?
    (xs : List α)
    (bound : Nat)
    (x : α) :
    x ∈ xs.take bound ↔
      ∃ i, i < bound ∧ xs[i]? = some x := by
  rw [List.mem_iff_getElem?]
  constructor
  · rintro ⟨i, hGet⟩
    rw [List.getElem?_take] at hGet
    by_cases hBound : i < bound
    · rw [if_pos hBound] at hGet
      exact ⟨i, hBound, hGet⟩
    · rw [if_neg hBound] at hGet
      cases hGet
  · rintro ⟨i, hBound, hGet⟩
    refine ⟨i, ?_⟩
    rw [List.getElem?_take, if_pos hBound, hGet]

end Listing

------------------------------------------------------------
-- Passes
------------------------------------------------------------

namespace Listing

variable {α : Type}

/- What has been collected before a pass, counted from 1. -/
def before
    (first : List α)
    (pass : Nat → List α)
    (width : Nat) : List α :=
  first ++ (List.range' 1 (width - 1)).flatMap pass

@[simp] theorem before_one
    (first : List α)
    (pass : Nat → List α) :
    before first pass 1 = first := by
  simp [before]

/- Each pass appends what it adds. -/
theorem before_succ
    (first : List α)
    (pass : Nat → List α)
    {width : Nat}
    (hWidth : 1 ≤ width) :
    before first pass (width + 1) =
      before first pass width ++ pass width := by
  have hCount : width + 1 - 1 = (width - 1) + 1 := by
    omega
  have hLast : 1 + 1 * (width - 1) = width := by
    omega
  unfold before
  rw [hCount, List.range'_concat, List.flatMap_append,
    hLast, List.flatMap_singleton, List.append_assoc]

/- What the passes from one to another add. -/
theorem before_eq_append
    (first : List α)
    (pass : Nat → List α)
    {smaller larger : Nat}
    (hPositive : 1 ≤ smaller)
    (hWidths : smaller ≤ larger) :
    before first pass larger =
      before first pass smaller ++
        (List.range' smaller (larger - smaller)).flatMap
          pass := by
  have hCount :
      larger - 1 = (smaller - 1) + (larger - smaller) := by
    omega
  have hNext : 1 + 1 * (smaller - 1) = smaller := by omega
  unfold before
  rw [hCount, ← List.range'_append, hNext,
    List.flatMap_append, List.append_assoc]

/- What has been collected stays in front. -/
theorem before_prefix
    (first : List α)
    (pass : Nat → List α)
    {smaller larger : Nat}
    (hPositive : 1 ≤ smaller)
    (hWidths : smaller ≤ larger) :
    before first pass smaller <+:
      before first pass larger := by
  rw [before_eq_append first pass hPositive hWidths]
  exact List.prefix_append _ _

/- What the passes add can be mapped one by one. -/
theorem map_before
    {β : Type}
    (f : α → β)
    (first : List α)
    (pass : Nat → List α)
    (width : Nat) :
    (before first pass width).map f =
      before (first.map f) (fun v => (pass v).map f)
        width := by
  unfold before
  rw [List.map_append, List.map_flatMap]

/- What is collected comes first or in some pass. -/
theorem mem_before_iff
    (first : List α)
    (pass : Nat → List α)
    (width : Nat)
    (x : α) :
    x ∈ before first pass width ↔
      x ∈ first ∨
        ∃ v, 1 ≤ v ∧ v < width ∧ x ∈ pass v := by
  unfold before
  rw [List.mem_append, List.mem_flatMap]
  apply or_congr_right
  constructor
  · intro hPass
    rcases hPass with ⟨v, hWidth, hMem⟩
    rw [List.mem_range'_1] at hWidth
    exact ⟨v, by omega, by omega, hMem⟩
  · intro hPass
    rcases hPass with ⟨v, hLow, hHigh, hMem⟩
    refine ⟨v, ?_, hMem⟩
    rw [List.mem_range'_1]
    omega

/-
  What the first `bound` elements are: elements of the first
  part, and elements of a pass at a position that counts
  from what was collected before that pass.
-/
theorem mem_take_before_iff
    (first : List α)
    (pass : Nat → List α)
    {width : Nat}
    (hWidth : 1 ≤ width)
    (bound : Nat)
    (x : α) :
    x ∈ (before first pass width).take bound ↔
      (∃ i, i < bound ∧ first[i]? = some x) ∨
        ∃ v j, 1 ≤ v ∧ v < width ∧
          (before first pass v).length + j < bound ∧
            (pass v)[j]? = some x := by
  rw [mem_take_iff_exists_getElem?]
  induction width, hWidth using Nat.le_induction with
  | base =>
      rw [before_one]
      constructor
      · exact Or.inl
      · rintro (hFirst | ⟨v, j, hLow, hHigh, _⟩)
        · exact hFirst
        · omega
  | succ width hWidth ih =>
      rw [before_succ first pass hWidth,
        exists_getElem?_append_iff, ih]
      constructor
      · rintro ((hFirst | ⟨v, j, hLow, hHigh, hRest⟩) |
          ⟨j, hBound, hGet⟩)
        · exact Or.inl hFirst
        · exact Or.inr ⟨v, j, hLow, by omega, hRest⟩
        · apply Or.inr
          exact ⟨width, j, hWidth, by omega, hBound, hGet⟩
      · rintro (hFirst | ⟨v, j, hLow, hHigh, hBound, hGet⟩)
        · apply Or.inl
          apply Or.inl
          exact hFirst
        · by_cases hLast : v = width
          · subst hLast
            exact Or.inr ⟨j, hBound, hGet⟩
          · apply Or.inl
            apply Or.inr
            exact ⟨v, j, hLow, by omega, hBound, hGet⟩

end Listing

------------------------------------------------------------
-- Gathering
------------------------------------------------------------

namespace Listing

variable {α : Type}

/-
  Collect passes as long as there is not enough, up to a last
  width.  `fuel` bounds the passes that remain.
-/
def gather
    (pass : Nat → List α)
    (bound last : Nat) :
    (fuel width : Nat) → List α → List α
| 0, _, results => results
| fuel + 1, width, results =>
    if results.length < bound ∧ width < last then
      gather pass bound last fuel (width + 1)
        (results ++ pass width)
    else
      results

/-
  Gathering stops early only when there is enough, so the
  first `bound` elements are those of all the passes.
-/
theorem take_gather
    (first : List α)
    (pass : Nat → List α)
    (bound : Nat)
    {last : Nat}
    (fuel width : Nat)
    (hPositive : 1 ≤ width)
    (hWidth : width ≤ last)
    (hFuel : last ≤ width + fuel) :
    (gather pass bound last fuel width
        (before first pass width)).take bound =
      (before first pass last).take bound := by
  induction fuel generalizing width with
  | zero =>
      have hLast : width = last := by omega
      rw [hLast]
      rfl
  | succ fuel ih =>
      rw [gather]
      by_cases hMore :
          (before first pass width).length < bound ∧
            width < last
      · rw [if_pos hMore, ← before_succ _ _ hPositive]
        apply ih (width + 1)
        · omega
        · omega
        · omega
      · rw [if_neg hMore]
        rcases not_and_or.mp hMore with hEnough | hEnd
        · rcases before_prefix first pass hPositive
              hWidth with
            ⟨rest, hRest⟩
          rw [← hRest]
          exact
            (List.take_append_of_le_length
              (Nat.le_of_not_lt hEnough)).symm
        · have hLast : width = last := by omega
          rw [hLast]

end Listing
