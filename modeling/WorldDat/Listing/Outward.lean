import Mathlib.Data.List.Nodup
import Mathlib.Data.Nat.ModEq
import WorldDat.Listing.Passes

/-
  Stepping outward around a ring, in both directions at once.

  The places of a ring are numbered from 0.  The offsets from
  a starting place come in the order 0, then `w` and `n - w`
  for each width `w`.  In a ring of even size the two
  directions meet at half its size, where every place has
  been visited once, and cross from there on.

  Main declarations:
    * `Ring.turn`
    * `Ring.outward` and `Ring.Sooner`
    * `Ring.mem_once_iff` and `Ring.pairwise_once`
    * `Ring.outward_eq`
    * `Ring.gap`
-/

------------------------------------------------------------
-- Places Of A Ring
------------------------------------------------------------

namespace Ring

/- The place at an offset from another one. -/
def turn (size start offset : Nat) : Nat :=
  (start + offset) % size

/- Different offsets within a turn lead to other places. -/
theorem turn_inj
    {size start offset offset' : Nat}
    (hOffset : offset < size)
    (hOffset' : offset' < size)
    (hSame :
      turn size start offset = turn size start offset') :
    offset = offset' := by
  have hMod : offset ≡ offset' [MOD size] :=
    Nat.ModEq.add_left_cancel' start hSame
  rw [← Nat.mod_eq_of_lt hOffset,
    ← Nat.mod_eq_of_lt hOffset']
  exact hMod

/- Every place is at some offset within a turn. -/
theorem exists_turn_eq
    {size start place : Nat}
    (hStart : start < size)
    (hPlace : place < size) :
    ∃ offset, offset < size ∧
      turn size start offset = place := by
  rcases Nat.lt_or_ge place start with hBefore | hAfter
  · refine ⟨size - start + place, by omega, ?_⟩
    have hWhole :
        start + (size - start + place) = size + place := by
      omega
    rw [turn, hWhole, Nat.add_mod_left,
      Nat.mod_eq_of_lt hPlace]
  · refine ⟨place - start, by omega, ?_⟩
    rw [turn, Nat.add_sub_cancel' hAfter,
      Nat.mod_eq_of_lt hPlace]

end Ring

------------------------------------------------------------
-- Offsets
------------------------------------------------------------

namespace Ring

/- The offsets that a width adds. -/
def bothWays (size width : Nat) : List Nat :=
  [width, size - width]

/- The offsets before a width. -/
def outward (size width : Nat) : List Nat :=
  Listing.before [0] (bothWays size) width

/- Up to half a turn the two directions stay apart. -/
theorem mem_outward_iff
    {size width : Nat}
    (hPositive : 1 ≤ width)
    (hHalf : 2 * width ≤ size)
    (offset : Nat) :
    offset ∈ outward size width ↔
      offset < width ∨ size - width < offset ∧
        offset < size := by
  unfold outward
  induction width, hPositive using Nat.le_induction with
  | base =>
      rw [Listing.before_one, List.mem_singleton]
      omega
  | succ width hPositive ih =>
      rw [Listing.before_succ _ _ hPositive,
        List.mem_append, ih (by omega), bothWays]
      simp only [List.mem_cons, List.not_mem_nil, or_false]
      omega

end Ring

------------------------------------------------------------
-- The Order Of The Offsets
------------------------------------------------------------

namespace Ring

/- How far an offset leads, in the shorter direction. -/
def reach (size offset : Nat) : Nat :=
  min offset (size - offset)

/-
  Offsets are visited by how far they lead, and of two that
  lead equally far the one ahead comes first.
-/
def Sooner (size offset offset' : Nat) : Prop :=
  reach size offset < reach size offset' ∨
    reach size offset = reach size offset' ∧
      offset < offset'

instance decidableSooner
    (size offset offset' : Nat) :
    Decidable (Sooner size offset offset') :=
  inferInstanceAs (Decidable (_ ∨ _))

theorem Sooner.asymm
    {size offset offset' : Nat}
    (hSooner : Sooner size offset offset') :
    ¬ Sooner size offset' offset := by
  unfold Sooner at hSooner ⊢
  omega

theorem Sooner.ne
    {size offset offset' : Nat}
    (hSooner : Sooner size offset offset') :
    offset ≠ offset' := by
  intro hSame
  rw [hSame] at hSooner
  exact hSooner.asymm hSooner

theorem Sooner.reach_le
    {size offset offset' : Nat}
    (hSooner : Sooner size offset offset') :
    reach size offset ≤ reach size offset' := by
  unfold Sooner at hSooner
  omega

/- Up to half a turn each width leads farther. -/
theorem pairwise_outward
    {size width : Nat}
    (hPositive : 1 ≤ width)
    (hHalf : 2 * width ≤ size) :
    (outward size width).Pairwise (Sooner size) := by
  induction width, hPositive using Nat.le_induction with
  | base => simp [outward]
  | succ width hPositive ih =>
      have hBefore := ih (by omega)
      have hFits : 2 * width ≤ size := by omega
      have hOld := mem_outward_iff hPositive hFits
      unfold outward at hBefore hOld ⊢
      rw [Listing.before_succ _ _ hPositive,
        List.pairwise_append]
      refine ⟨hBefore, ?_, ?_⟩
      · unfold bothWays Sooner reach
        rw [List.pairwise_pair]
        omega
      · intro old hMem new hNew
        rw [hOld] at hMem
        unfold bothWays at hNew
        simp only [List.mem_cons, List.not_mem_nil,
          or_false] at hNew
        unfold Sooner reach
        omega

end Ring

------------------------------------------------------------
-- A Whole Turn
------------------------------------------------------------

namespace Ring

/- The offsets up to the place where the directions meet. -/
def once (half : Nat) : List Nat :=
  outward (2 * half) half ++ [half]

/- The offsets that come after that. -/
def again (half : Nat) : List Nat :=
  half ::
    (List.range' (half + 1) (half - 1)).flatMap
      (bothWays (2 * half))

variable {half : Nat}

/- A whole turn in both directions passes everything twice. -/
theorem outward_eq (hHalf : 1 ≤ half) :
    outward (2 * half) (2 * half) =
      once half ++ again half := by
  have hCount : 2 * half - half = (half - 1) + 1 := by
    omega
  have hMeet : 2 * half - half = half := by omega
  unfold once again outward
  rw [Listing.before_eq_append _ _ hHalf (by omega), hCount,
    List.range'_succ, List.flatMap_cons, bothWays, hMeet]
  simp

/- Until they meet, the directions visit every place ... -/
theorem mem_once_iff
    (hHalf : 1 ≤ half)
    (offset : Nat) :
    offset ∈ once half ↔ offset < 2 * half := by
  unfold once
  rw [List.mem_append, List.mem_singleton,
    mem_outward_iff hHalf (Nat.le_refl _)]
  omega

/- ... each one farther than those before it ... -/
theorem pairwise_once (hHalf : 1 ≤ half) :
    (once half).Pairwise (Sooner (2 * half)) := by
  unfold once
  rw [List.pairwise_append]
  refine
    ⟨pairwise_outward hHalf (Nat.le_refl _),
      List.pairwise_singleton _ _, ?_⟩
  intro old hOld new hNew
  rw [mem_outward_iff hHalf (Nat.le_refl _)] at hOld
  rw [List.mem_singleton] at hNew
  unfold Sooner reach
  omega

/- ... and none of them twice. -/
theorem nodup_once (hHalf : 1 ≤ half) :
    (once half).Nodup :=
  (pairwise_once hHalf).imp fun hSooner => hSooner.ne

/- Afterwards all places but the start are visited again. -/
theorem mem_again_iff
    (hHalf : 1 ≤ half)
    (offset : Nat) :
    offset ∈ again half ↔
      0 < offset ∧ offset < 2 * half := by
  unfold again
  rw [List.mem_cons, List.mem_flatMap]
  constructor
  · intro hAgain
    rcases hAgain with hMeet | ⟨width, hWidth, hOffset⟩
    · omega
    · rw [List.mem_range'_1] at hWidth
      unfold bothWays at hOffset
      simp only [List.mem_cons, List.not_mem_nil,
        or_false] at hOffset
      omega
  · intro hInside
    rcases Nat.lt_trichotomy offset half with
      hBehind | hMeet | hAhead
    · apply Or.inr
      refine ⟨2 * half - offset, ?_, ?_⟩
      · rw [List.mem_range'_1]
        omega
      · unfold bothWays
        simp only [List.mem_cons, List.not_mem_nil,
          or_false]
        omega
    · exact Or.inl hMeet
    · apply Or.inr
      refine ⟨offset, ?_, ?_⟩
      · rw [List.mem_range'_1]
        omega
      · unfold bothWays
        exact List.mem_cons_self

end Ring

------------------------------------------------------------
-- Distances On A Ring
------------------------------------------------------------

namespace Ring

/- The steps ahead from one place to another. -/
def steps (size start place : Nat) : Nat :=
  (place + size - start) % size

/- The ring distance of two places. -/
def gap (size start place : Nat) : Nat :=
  reach size (steps size start place)

/- The steps to the place at an offset are the offset. -/
theorem steps_turn
    {size start offset : Nat}
    (hStart : start < size)
    (hOffset : offset < size) :
    steps size start (turn size start offset) = offset := by
  unfold steps turn
  rcases Nat.lt_or_ge (start + offset) size with
    hInside | hWraps
  · have hSteps :
        start + offset + size - start = offset + size := by
      omega
    rw [Nat.mod_eq_of_lt hInside, hSteps,
      Nat.add_mod_right, Nat.mod_eq_of_lt hOffset]
  · have hTurn :
        (start + offset) % size = start + offset - size := by
      rw [Nat.mod_eq_sub_mod hWraps]
      apply Nat.mod_eq_of_lt
      omega
    have hSteps :
        start + offset - size + size - start = offset := by
      omega
    rw [hTurn, hSteps, Nat.mod_eq_of_lt hOffset]

end Ring
