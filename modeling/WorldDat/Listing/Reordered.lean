import Mathlib.Data.List.Forall2
import Mathlib.Data.List.Perm.Basic
import WorldDat.Listing.Readings

/-
  Lists collected from parts whose inner order may differ.

  If two contents have the same elements at each index, then
  what is collected from either has the same elements.  If
  only so many elements are taken, the two results differ in
  a single part at most: the one that the limit cuts in two.

  Lists that are related position by position stay so when a
  position is read or erased in both.

  Main declarations:
    * `Listing.take_collected_cases`
    * `Listing.mem_take_collected_cases`
    * `Listing.map_take_collected`
    * `Listing.forall₂_getElem?` and `Listing.forall₂_eraseIdx`
-/

------------------------------------------------------------
-- Reordered Contents
------------------------------------------------------------

namespace Listing

variable {ι α κ : Type}
variable {first second : ι → List α}

/- Reordering the parts reorders what is collected. -/
theorem collected_perm
    (hPerm : ∀ i, (first i).Perm (second i))
    (readings : List ι) :
    (collected first readings).Perm
      (collected second readings) := by
  unfold collected
  apply List.Perm.flatMap_left
  intro i _
  exact hPerm i

/-
  A limit either takes everything, or all parts up to one
  that it cuts, at the same place in both contents.
-/
theorem take_collected_cases
    (hPerm : ∀ i, (first i).Perm (second i))
    (readings : List ι)
    (bound : Nat) :
    (collected first readings).length ≤ bound ∨
      ∃ front place back count,
        readings = front ++ place :: back ∧
          (collected first readings).take bound =
            collected first front ++
              (first place).take count ∧
          (collected second readings).take bound =
            collected second front ++
              (second place).take count := by
  induction readings generalizing bound with
  | nil => exact Or.inl (Nat.zero_le bound)
  | cons i rest ih =>
      have hSplit : ∀ content : ι → List α,
          collected content (i :: rest) =
            content i ++ collected content rest :=
        fun content => List.flatMap_cons
      have hLength := (hPerm i).length_eq
      by_cases hCut : bound ≤ (first i).length
      · apply Or.inr
        refine ⟨[], i, rest, bound, rfl, ?_, ?_⟩
        · rw [hSplit, List.take_append_of_le_length hCut]
          rfl
        · rw [hLength] at hCut
          rw [hSplit, List.take_append_of_le_length hCut]
          rfl
      · have hWhole : (first i).length ≤ bound := by omega
        rcases ih (bound - (first i).length) with
          hAll | ⟨front, place, back, count, hReadings,
            hFirst, hSecond⟩
        · apply Or.inl
          rw [hSplit, List.length_append]
          omega
        · apply Or.inr
          refine
            ⟨i :: front, place, back, count, ?_, ?_, ?_⟩
          · rw [hReadings]
            rfl
          · rw [hSplit, List.take_append, hFirst,
              List.take_of_length_le hWhole,
              ← List.append_assoc]
            rfl
          · rw [hLength] at hSecond hWhole
            rw [hSplit, List.take_append, hSecond,
              List.take_of_length_le hWhole,
              ← List.append_assoc]
            rfl

/- The elements taken are the same outside a single part. -/
theorem mem_take_collected_cases
    (hPerm : ∀ i, (first i).Perm (second i))
    (readings : List ι)
    (bound : Nat) :
    (∀ x, x ∈ (collected first readings).take bound ↔
        x ∈ (collected second readings).take bound) ∨
      ∃ place ∈ readings, ∀ x,
        (x ∈ (collected first readings).take bound ↔
            x ∈ (collected second readings).take bound) ∨
          x ∈ first place := by
  have hWhole := collected_perm hPerm readings
  rcases take_collected_cases hPerm readings bound with
    hAll | ⟨front, place, back, count, hReadings, hFirst,
      hSecond⟩
  · apply Or.inl
    intro x
    have hAll' := hAll
    rw [hWhole.length_eq] at hAll'
    rw [List.take_of_length_le hAll,
      List.take_of_length_le hAll']
    exact hWhole.mem_iff
  · apply Or.inr
    refine ⟨place, ?_, ?_⟩
    · rw [hReadings]
      exact List.mem_append_right front List.mem_cons_self
    · intro x
      by_cases hPlace : x ∈ first place
      · exact Or.inr hPlace
      · apply Or.inl
        have hOther : x ∉ second place := by
          rw [← (hPerm place).mem_iff]
          exact hPlace
        have hFirstCut : x ∉ (first place).take count :=
          fun hTaken => hPlace (List.mem_of_mem_take hTaken)
        have hSecondCut : x ∉ (second place).take count :=
          fun hTaken => hOther (List.mem_of_mem_take hTaken)
        rw [hFirst, hSecond, List.mem_append,
          List.mem_append, or_iff_left hFirstCut,
          or_iff_left hSecondCut]
        exact (collected_perm hPerm front).mem_iff

/-
  What an element tells about the part that it comes from is
  the same at each position.
-/
theorem map_take_collected
    (hPerm : ∀ i, (first i).Perm (second i))
    {tag : α → κ}
    {label : ι → κ}
    (hTag : ∀ i, ∀ x ∈ first i, tag x = label i)
    (readings : List ι)
    (bound : Nat) :
    ((collected first readings).take bound).map tag =
      ((collected second readings).take bound).map tag := by
  have hSame :
      (fun i => (first i).map tag) =
        fun i => (second i).map tag := by
    funext i
    have hLeft :
        (first i).map tag =
          List.replicate (first i).length (label i) :=
      List.map_eq_replicate_iff.mpr (hTag i)
    have hRight :
        (second i).map tag =
          List.replicate (second i).length (label i) := by
      apply List.map_eq_replicate_iff.mpr
      intro x hMem
      exact hTag i x ((hPerm i).mem_iff.mpr hMem)
    rw [hLeft, hRight, (hPerm i).length_eq]
  rw [List.map_take, List.map_take, map_collected,
    map_collected, hSame]

end Listing

------------------------------------------------------------
-- Lists Related Position By Position
------------------------------------------------------------

namespace Listing

variable {α β : Type}
variable {R : α → β → Prop}
variable {left : List α}
variable {right : List β}

/- What stands at a position is related to what stands there. -/
theorem forall₂_getElem?
    (hRelated : List.Forall₂ R left right)
    {position : Nat}
    {x : α}
    (hGet : left[position]? = some x) :
    ∃ y, right[position]? = some y ∧ R x y := by
  induction hRelated generalizing position with
  | nil => cases hGet
  | @cons _ other _ _ hHead hTail ih =>
      cases position with
      | zero =>
          cases hGet
          exact ⟨other, rfl, hHead⟩
      | succ position => exact ih hGet

/- Erasing a position in both keeps the rest related. -/
theorem forall₂_eraseIdx
    (hRelated : List.Forall₂ R left right)
    (position : Nat) :
    List.Forall₂ R (left.eraseIdx position)
      (right.eraseIdx position) := by
  rw [List.eraseIdx_eq_take_drop_succ,
    List.eraseIdx_eq_take_drop_succ]
  exact
    List.rel_append (List.forall₂_take position hRelated)
      (List.forall₂_drop (position + 1) hRelated)

/- Whatever is in one list has a partner in the other. -/
theorem exists_of_mem_forall₂
    (hRelated : List.Forall₂ R left right)
    {y : β}
    (hMem : y ∈ right) :
    ∃ x ∈ left, R x y := by
  induction hRelated with
  | nil => cases hMem
  | @cons x _ _ _ hHead _ ih =>
      rcases List.mem_cons.mp hMem with hHere | hLater
      · rw [hHere]
        exact ⟨x, List.mem_cons_self, hHead⟩
      · rcases ih hLater with ⟨other, hOther, hThere⟩
        exact ⟨other, List.mem_cons_of_mem x hOther, hThere⟩

end Listing
