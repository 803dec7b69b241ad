import WorldDat.Machine.Execution

/-
  Termination of a machine that makes choices of some kind.

  If every such choice uses up some of a measure, then only
  so many can be made one after the other, and making them as
  long as possible ends where none is enabled.

  Main declarations:
    * `Machine.Stuck` and `Machine.Terminates`
    * `Machine.Terminates.length_le`
    * `Machine.Terminates.exists_exec`
    * `Machine.exec_le_sub_countP`
-/

------------------------------------------------------------
-- Termination
------------------------------------------------------------

namespace Machine

variable {S C : Type}

/- No choice of the kind can be made. -/
def Stuck
    (step : S → C → Option S)
    (kind : C → Prop)
    (s : S) : Prop :=
  ∀ choice, kind choice → step s choice = none

/-
  A choice of the kind uses up some of the measure and keeps
  the invariant, and the goal is reached wherever none of
  them can be made.
-/
structure Terminates
    (step : S → C → Option S)
    (kind : C → Prop)
    (measure : S → Nat)
    (Inv Goal : S → Prop) : Prop where
  keeps : ∀ s choice t, Inv s → kind choice →
    step s choice = some t → Inv t
  less : ∀ s choice t, Inv s → kind choice →
    step s choice = some t → measure t < measure s
  goal : ∀ s, Inv s → Stuck step kind s → Goal s

variable {step : S → C → Option S}
variable {kind : C → Prop}
variable {measure : S → Nat}
variable {Inv Goal : S → Prop}

/- Only so many choices can be made one after the other. -/
theorem Terminates.length_le
    (hTerminates : Terminates step kind measure Inv Goal)
    {s t : S}
    {choices : List C}
    (hKind : ∀ choice ∈ choices, kind choice)
    (hExec : exec step s choices = some t)
    (hInit : Inv s) :
    choices.length + measure t ≤ measure s := by
  induction choices generalizing s with
  | nil =>
      cases hExec
      simp
  | cons choice choices ih =>
      rcases exec_cons_eq_some_iff.mp hExec with
        ⟨next, hNext, hRest⟩
      have hHere := hKind choice List.mem_cons_self
      have hInv :=
        hTerminates.keeps s choice next hInit hHere hNext
      have hLess :=
        hTerminates.less s choice next hInit hHere hNext
      have hTail :
          choices.length + measure t ≤ measure next := by
        apply ih ?_ hRest hInv
        intro later hLater
        apply hKind
        exact List.mem_cons_of_mem choice hLater
      rw [List.length_cons]
      omega

/- Making them as long as possible reaches the goal. -/
theorem Terminates.exists_exec
    (hTerminates : Terminates step kind measure Inv Goal)
    {s : S}
    (hInit : Inv s) :
    ∃ choices t,
      (∀ choice ∈ choices, kind choice) ∧
        exec step s choices = some t ∧
          Inv t ∧ Stuck step kind t ∧ Goal t := by
  induction hMeasure : measure s
    using Nat.strongRecOn generalizing s with
  | ind n ih =>
      by_cases hStuck : Stuck step kind s
      · refine ⟨[], s, ?_, rfl, hInit, hStuck, ?_⟩
        · intro choice hChoice
          cases hChoice
        · exact hTerminates.goal s hInit hStuck
      · unfold Stuck at hStuck
        push Not at hStuck
        rcases hStuck with ⟨choice, hChoice, hSome⟩
        rcases Option.ne_none_iff_exists'.mp hSome with
          ⟨next, hNext⟩
        have hInv :=
          hTerminates.keeps s choice next hInit hChoice hNext
        have hLess :=
          hTerminates.less s choice next hInit hChoice hNext
        rw [hMeasure] at hLess
        rcases ih (measure next) hLess hInv rfl with
          ⟨choices, t, hKind, hExec, hReached⟩
        refine ⟨choice :: choices, t, ?_, ?_, hReached⟩
        · intro other hOther
          rcases List.mem_cons.mp hOther with hHere | hLater
          · rw [hHere]
            exact hChoice
          · exact hKind other hLater
        · rw [exec_cons_eq_some_iff]
          exact ⟨next, hNext, hExec⟩

end Machine

------------------------------------------------------------
-- Measures That Run Out
------------------------------------------------------------

namespace Machine

variable {S C : Type}
variable {step : S → C → Option S}

/-
  If a choice of a kind uses up some of a measure as long as
  there is any, and no other choice adds to it, then as many
  of these choices as the measure counts use it up.
-/
theorem exec_le_sub_countP
    {Inv : S → Prop}
    (measure : S → Nat)
    (kind : C → Bool)
    (hInv : ∀ s choice t,
      Inv s → step s choice = some t → Inv t)
    (hKind : ∀ s choice t,
      Inv s → step s choice = some t → kind choice →
        measure t ≤ measure s - 1)
    (hOther : ∀ s choice t,
      Inv s → step s choice = some t → ¬ kind choice →
        measure t ≤ measure s)
    {s t : S}
    {choices : List C}
    (hExec : exec step s choices = some t)
    (hInit : Inv s) :
    measure t ≤ measure s - choices.countP kind := by
  induction choices generalizing s with
  | nil =>
      cases hExec
      exact Nat.le_refl _
  | cons choice choices ih =>
      rcases exec_cons_eq_some_iff.mp hExec with
        ⟨next, hNext, hRest⟩
      have hTail := ih hRest (hInv s choice next hInit hNext)
      by_cases hChoice : kind choice
      · have hHead := hKind s choice next hInit hNext hChoice
        rw [List.countP_cons_of_pos hChoice]
        omega
      · have hHead :=
          hOther s choice next hInit hNext hChoice
        rw [List.countP_cons_of_neg hChoice]
        omega

end Machine
