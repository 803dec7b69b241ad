import WorldDat.Machine.Execution

/-
  Refinement between two machines.

  A lower machine refines an upper one if each of its steps
  is matched by some steps of the upper one, possibly none,
  that lead to a related state.  Then every execution of the
  lower machine is matched by one of the upper machine.

  Main declarations:
    * `Machine.Refines`
    * `Machine.Refines.exists_exec`
    * `Machine.exists_exec_of_lockstep`
-/

------------------------------------------------------------
-- Refinement
------------------------------------------------------------

namespace Machine

variable {S C T D : Type}

/-
  Every step of `low` from a related state is matched by an
  execution of `high` that makes allowed choices only.
-/
structure Refines
    (low : S → C → Option S)
    (high : T → D → Option T)
    (allowed : D → Prop)
    (Related : S → T → Prop) : Prop where
  step : ∀ s choice s' t,
    Related s t → low s choice = some s' →
      ∃ choices t',
        exec high t choices = some t' ∧
          (∀ choice ∈ choices, allowed choice) ∧
          Related s' t'

variable {low : S → C → Option S}
variable {high : T → D → Option T}
variable {allowed : D → Prop}
variable {Related : S → T → Prop}

/- Every execution of the lower machine is matched. -/
theorem Refines.exists_exec
    (hRefines : Refines low high allowed Related)
    {s s' : S}
    {t : T}
    {choices : List C}
    (hExec : exec low s choices = some s')
    (hInit : Related s t) :
    ∃ matching t',
      exec high t matching = some t' ∧
        (∀ choice ∈ matching, allowed choice) ∧
        Related s' t' := by
  induction choices generalizing s t with
  | nil =>
      cases hExec
      refine ⟨[], t, rfl, ?_, hInit⟩
      intro choice hChoice
      cases hChoice
  | cons choice choices ih =>
      rcases exec_cons_eq_some_iff.mp hExec with
        ⟨next, hNext, hRest⟩
      rcases hRefines.step s choice next t hInit hNext with
        ⟨first, mid, hFirst, hFirstAllowed, hMid⟩
      rcases ih hRest hMid with
        ⟨second, t', hSecond, hSecondAllowed, hRelated⟩
      refine ⟨first ++ second, t', ?_, ?_, hRelated⟩
      · rw [exec_append_eq_some_iff]
        exact ⟨mid, hFirst, hSecond⟩
      · intro other hOther
        rcases List.mem_append.mp hOther with hIn | hIn
        · exact hFirstAllowed other hIn
        · exact hSecondAllowed other hIn

/-
  If a second machine can make every choice that the first
  one makes, and the states stay related, then it can follow
  every execution choice by choice.
-/
theorem exists_exec_of_lockstep
    {first : S → C → Option S}
    {second : T → C → Option T}
    (hStep : ∀ s choice s' t,
      Related s t → first s choice = some s' →
        ∃ t', second t choice = some t' ∧ Related s' t')
    {s s' : S}
    {t : T}
    {choices : List C}
    (hExec : exec first s choices = some s')
    (hInit : Related s t) :
    ∃ t', exec second t choices = some t' ∧
      Related s' t' := by
  induction choices generalizing s t with
  | nil =>
      cases hExec
      exact ⟨t, rfl, hInit⟩
  | cons choice choices ih =>
      rcases exec_cons_eq_some_iff.mp hExec with
        ⟨next, hNext, hRest⟩
      rcases hStep s choice next t hInit hNext with
        ⟨mid, hMid, hRelated⟩
      rcases ih hRest hRelated with ⟨t', hLast, hEnd⟩
      refine ⟨t', ?_, hEnd⟩
      rw [exec_cons_eq_some_iff]
      exact ⟨mid, hMid, hLast⟩

end Machine
