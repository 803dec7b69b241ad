import Mathlib.Algebra.BigOperators.Group.List.Basic
import Mathlib.Algebra.GroupWithZero.Nat

/-
  Executions of a machine whose step function is partial:
  `step s choice` is `none` when the choice is not enabled
  in `s`.

  Main declarations:
    * `Machine.exec`
    * `Machine.exec_invariant`
    * `Machine.length_exec_le` and `Machine.countP_exec_le`
    * `Machine.exists_exec_replicate` and
      `Machine.exists_exec_countdown`
    * `Machine.Along` and `Machine.exec_iff_along`
-/

------------------------------------------------------------
-- Executions
------------------------------------------------------------

namespace Machine

variable {S C : Type}

/- Make the listed choices one after the other. -/
def exec
    (step : S → C → Option S) :
    S → List C → Option S
| s, [] => some s
| s, choice :: choices =>
    (step s choice).bind fun t => exec step t choices

variable {step : S → C → Option S}

/- A nonempty execution makes one step and goes on. -/
theorem exec_cons_eq_some_iff
    {s u : S}
    {choice : C}
    {choices : List C} :
    exec step s (choice :: choices) = some u ↔
      ∃ t, step s choice = some t ∧
        exec step t choices = some u := by
  simp [exec, Option.bind_eq_some_iff]

/- An execution can be cut in two. -/
theorem exec_append_eq_some_iff
    {s u : S}
    {first second : List C} :
    exec step s (first ++ second) = some u ↔
      ∃ t, exec step s first = some t ∧
        exec step t second = some u := by
  induction first generalizing s with
  | nil => simp [exec]
  | cons choice first ih =>
      rw [List.cons_append, exec_cons_eq_some_iff]
      constructor
      · intro hExec
        rcases hExec with ⟨next, hNext, hRest⟩
        rcases ih.mp hRest with ⟨t, hFirst, hSecond⟩
        refine ⟨t, ?_, hSecond⟩
        rw [exec_cons_eq_some_iff]
        exact ⟨next, hNext, hFirst⟩
      · intro hExec
        rcases hExec with ⟨t, hFirst, hSecond⟩
        rcases exec_cons_eq_some_iff.mp hFirst with
          ⟨next, hNext, hRest⟩
        exact ⟨next, hNext, ih.mpr ⟨t, hRest, hSecond⟩⟩

/-
  What the listed choices preserve, the execution through
  them preserves.
-/
theorem exec_invariant_of_mem
    {Inv : S → Prop}
    {choices : List C}
    (hStep : ∀ s t, ∀ choice ∈ choices,
      Inv s → step s choice = some t → Inv t)
    {s t : S}
    (hExec : exec step s choices = some t)
    (hInit : Inv s) :
    Inv t := by
  induction choices generalizing s with
  | nil =>
      cases hExec
      exact hInit
  | cons choice choices ih =>
      rcases exec_cons_eq_some_iff.mp hExec with
        ⟨next, hNext, hRest⟩
      apply ih ?_ hRest
      · exact
          hStep s next choice List.mem_cons_self hInit hNext
      · intro s t later hLater
        apply hStep s t later
        exact List.mem_cons_of_mem choice hLater

/- What every step preserves, every execution preserves. -/
theorem exec_invariant
    {Inv : S → Prop}
    (hStep : ∀ s choice t,
      Inv s → step s choice = some t → Inv t)
    {s t : S}
    {choices : List C}
    (hExec : exec step s choices = some t)
    (hInit : Inv s) :
    Inv t := by
  apply exec_invariant_of_mem ?_ hExec hInit
  intro s t choice _
  exact hStep s choice t

/-
  If every step uses up one unit of a measure, to which a
  choice may first add its own cost, then the costs bound
  the number of steps.
-/
theorem length_exec_le
    {Inv : S → Prop}
    (measure : S → Nat)
    (cost : C → Nat)
    (hInv : ∀ s choice t,
      Inv s → step s choice = some t → Inv t)
    (hMeasure : ∀ s choice t,
      Inv s → step s choice = some t →
        measure t + 1 ≤ measure s + cost choice)
    {s t : S}
    {choices : List C}
    (hExec : exec step s choices = some t)
    (hInit : Inv s) :
    choices.length + measure t ≤
      measure s + (choices.map cost).sum := by
  induction choices generalizing s with
  | nil =>
      cases hExec
      simp
  | cons choice choices ih =>
      rcases exec_cons_eq_some_iff.mp hExec with
        ⟨next, hNext, hRest⟩
      have hTail := ih hRest (hInv s choice next hInit hNext)
      have hHead := hMeasure s choice next hInit hNext
      simp only [List.length_cons, List.map_cons,
        List.sum_cons]
      omega

/-
  If every choice of a kind uses up some of a measure, and no
  other choice adds to it, then the measure bounds how often
  a choice of that kind is made.
-/
theorem countP_exec_le
    {Inv : S → Prop}
    (measure : S → Nat)
    (kind : C → Bool)
    (hInv : ∀ s choice t,
      Inv s → step s choice = some t → Inv t)
    (hKind : ∀ s choice t,
      Inv s → step s choice = some t → kind choice →
        measure t < measure s)
    (hOther : ∀ s choice t,
      Inv s → step s choice = some t → ¬ kind choice →
        measure t ≤ measure s)
    {s t : S}
    {choices : List C}
    (hExec : exec step s choices = some t)
    (hInit : Inv s) :
    choices.countP kind + measure t ≤ measure s := by
  induction choices generalizing s with
  | nil =>
      cases hExec
      simp
  | cons choice choices ih =>
      rcases exec_cons_eq_some_iff.mp hExec with
        ⟨next, hNext, hRest⟩
      have hTail := ih hRest (hInv s choice next hInit hNext)
      by_cases hChoice : kind choice
      · have hHead := hKind s choice next hInit hNext hChoice
        rw [List.countP_cons_of_pos hChoice]
        omega
      · have hHead :=
          hOther s choice next hInit hNext hChoice
        rw [List.countP_cons_of_neg hChoice]
        omega

/-
  If a choice can be made, and uses up some of a measure,
  wherever a goal is not reached yet, then making it again
  and again reaches the goal.
-/
theorem exists_exec_replicate
    {Inv Goal : S → Prop}
    (measure : S → Nat)
    (choice : C)
    (hStep : ∀ s, Inv s →
      Goal s ∨
        ∃ t, step s choice = some t ∧ Inv t ∧
          measure t < measure s)
    {s : S}
    (hInit : Inv s) :
    ∃ count t,
      exec step s (List.replicate count choice) = some t ∧
        Inv t ∧ Goal t := by
  induction hMeasure : measure s
    using Nat.strongRecOn generalizing s with
  | ind n ih =>
      rcases hStep s hInit with
        hGoal | ⟨next, hNext, hInv, hLess⟩
      · exact ⟨0, s, rfl, hInit, hGoal⟩
      · rw [hMeasure] at hLess
        rcases ih (measure next) hLess hInv rfl with
          ⟨count, t, hExec, hReached⟩
        refine ⟨count + 1, t, ?_, hReached⟩
        rw [List.replicate_succ, exec_cons_eq_some_iff]
        exact ⟨next, hNext, hExec⟩

/-
  A choice that takes every stage of a countdown to the next
  one can be made as often as the countdown is long.
-/
theorem exists_exec_countdown
    (Stage : Nat → S → Prop)
    {choice : C}
    (hStep : ∀ left s, Stage (left + 1) s →
      ∃ t, step s choice = some t ∧ Stage left t)
    {left : Nat}
    {s : S}
    (hInit : Stage left s) :
    ∃ t,
      exec step s (List.replicate left choice) = some t ∧
        Stage 0 t := by
  induction left generalizing s with
  | zero => exact ⟨s, rfl, hInit⟩
  | succ left ih =>
      rcases hStep left s hInit with ⟨next, hNext, hStage⟩
      rcases ih hStage with ⟨t, hExec, hDone⟩
      refine ⟨t, ?_, hDone⟩
      rw [List.replicate_succ, exec_cons_eq_some_iff]
      exact ⟨next, hNext, hExec⟩

end Machine

------------------------------------------------------------
-- Executions Under A Condition
------------------------------------------------------------

namespace Machine

variable {S C : Type}

/- Each choice of an execution is allowed where it is made. -/
def Along
    (step : S → C → Option S)
    (allowed : S → C → Prop) :
    S → List C → Prop
| _, [] => True
| s, choice :: choices =>
    allowed s choice ∧
      ∀ t, step s choice = some t →
        Along step allowed t choices

variable {step : S → C → Option S}
variable {allowed : S → C → Prop}

/-
  If a property holds after a choice exactly when it held
  before and the choice was allowed, then it holds at the end
  of an execution exactly when it held at the start and every
  choice was allowed.
-/
theorem exec_iff_along
    {Inv Good : S → Prop}
    (hInv : ∀ s choice t,
      Inv s → step s choice = some t → Inv t)
    (hGood : ∀ s choice t,
      Inv s → step s choice = some t →
        (Good t ↔ Good s ∧ allowed s choice))
    {s t : S}
    {choices : List C}
    (hExec : exec step s choices = some t)
    (hInit : Inv s) :
    Good t ↔ Good s ∧ Along step allowed s choices := by
  induction choices generalizing s with
  | nil =>
      cases hExec
      exact (and_iff_left trivial).symm
  | cons choice choices ih =>
      rcases exec_cons_eq_some_iff.mp hExec with
        ⟨next, hNext, hRest⟩
      have hHead := hGood s choice next hInit hNext
      have hTail :=
        ih hRest (hInv s choice next hInit hNext)
      have hAlong :
          Along step allowed s (choice :: choices) ↔
            allowed s choice ∧
              Along step allowed next choices := by
        rw [Along, hNext]
        simp
      rw [hTail, hHead, hAlong, and_assoc]

end Machine
