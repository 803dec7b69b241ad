import Mathlib.Data.List.Basic
import Mathlib.Data.List.Infix

/-
  The step of a history that last changed a value.

  A value that depends on the history so far either never
  changes, or there is one last step that changes it.

  Main declarations:
    * `Listing.LastChange`
    * `Listing.constant_or_exists_lastChange`
    * `Listing.LastChange.before_unique`
-/

------------------------------------------------------------
-- Last Changes
------------------------------------------------------------

namespace Listing

variable {α β : Type}

/- A step changes a value, and no later one does. -/
structure LastChange
    (value : List α → β)
    (before : List α)
    (step : α)
    (rest : List α) : Prop where
  changes : value before ≠ value (before ++ [step])
  keeps : ∀ later, later <+: rest →
    value (before ++ step :: later) =
      value (before ++ [step])

/- After its last change a value is what it is in the end. -/
theorem LastChange.value_eq
    {value : List α → β}
    {before rest : List α}
    {step : α}
    (hLast : LastChange value before step rest) :
    value (before ++ step :: rest) =
      value (before ++ [step]) :=
  hLast.keeps rest (List.prefix_refl rest)

/- A value never changes, or it changes for a last time. -/
theorem constant_or_exists_lastChange
    (value : List α → β)
    (history : List α) :
    (∀ earlier, earlier <+: history →
        value earlier = value history) ∨
      ∃ before step rest,
        history = before ++ step :: rest ∧
          LastChange value before step rest := by
  induction history using List.reverseRecOn with
  | nil =>
      apply Or.inl
      intro earlier hEarlier
      rw [List.prefix_nil.mp hEarlier]
  | append_singleton history step ih =>
      by_cases hChange :
          value history = value (history ++ [step])
      · rcases ih with hConstant | hLast
        · apply Or.inl
          intro earlier hEarlier
          rcases List.prefix_concat_iff.mp hEarlier with
            hAll | hBefore
          · rw [hAll]
          · rw [hConstant earlier hBefore, hChange]
        · rcases hLast with
            ⟨before, last, rest, hHistory, hLast⟩
          apply Or.inr
          refine ⟨before, last, rest ++ [step], ?_, ?_⟩
          · simp [hHistory]
          · refine ⟨hLast.changes, ?_⟩
            intro later hLater
            rcases List.prefix_concat_iff.mp hLater with
              hAll | hBefore
            · have hEnd := hLast.value_eq
              rw [← hHistory, hChange] at hEnd
              rw [hAll, ← hEnd, hHistory]
              simp
            · exact hLast.keeps later hBefore
      · apply Or.inr
        refine ⟨history, step, [], rfl, hChange, ?_⟩
        intro later hLater
        rw [List.prefix_nil.mp hLater]

/- No change comes after the last one. -/
theorem LastChange.length_le
    {value : List α → β}
    {before before' rest rest' : List α}
    {step step' : α}
    (hLast : LastChange value before step rest)
    (hLast' : LastChange value before' step' rest')
    (hSame :
      before ++ step :: rest = before' ++ step' :: rest') :
    before'.length ≤ before.length := by
  by_contra hNot
  have hBefore' : before' <+: before ++ step :: rest := by
    rw [hSame]
    exact List.prefix_append _ _
  have hStep : before ++ [step] <+: before ++ step :: rest := by
    refine ⟨rest, ?_⟩
    simp
  have hLonger : before ++ [step] <+: before' := by
    apply List.prefix_of_prefix_length_le hStep hBefore'
    rw [List.length_append, List.length_singleton]
    omega
  rcases hLonger with ⟨later, hLater⟩
  rw [List.append_assoc, List.singleton_append] at hLater
  have hPrefix : later <+: rest := by
    rw [← hLater, List.prefix_append_right_inj,
      List.cons_prefix_cons] at hBefore'
    exact hBefore'.2
  apply hLast'.changes
  rw [← hLast'.value_eq, ← hSame, hLast.value_eq, ← hLater]
  exact hLast.keeps later hPrefix

/- There is only one last change. -/
theorem LastChange.before_unique
    {value : List α → β}
    {before before' rest rest' : List α}
    {step step' : α}
    (hLast : LastChange value before step rest)
    (hLast' : LastChange value before' step' rest')
    (hSame :
      before ++ step :: rest = before' ++ step' :: rest') :
    before = before' := by
  have hLength := hLast.length_le hLast' hSame
  have hLength' := hLast'.length_le hLast hSame.symm
  apply (List.append_inj hSame _).1
  omega

end Listing
