import Mathlib.Data.List.Basic

/-
  The last-writer view of a list of writes: what a key holds
  is the value of the latest write to it.

  Main declarations:
    * `Listing.latest`
    * `Listing.latest_concat`
    * `Listing.isSome_latest_iff`
-/

------------------------------------------------------------
-- Latest Writes
------------------------------------------------------------

namespace Listing

variable {K V : Type} [DecidableEq K]

/- The value last written to a key, oldest write first. -/
def latest
    (key : K) :
    List (K × V) → Option V
| [] => none
| (other, value) :: rest =>
    (latest key rest).or
      (if other = key then some value else none)

/- A write is seen at its key and hides the earlier ones. -/
theorem latest_concat
    (key other : K)
    (value : V)
    (writes : List (K × V)) :
    latest key (writes ++ [(other, value)]) =
      if other = key then
        some value
      else
        latest key writes := by
  induction writes with
  | nil => simp [latest]
  | cons write rest ih =>
      rcases write with ⟨current, old⟩
      by_cases hOther : other = key
      · rw [if_pos hOther] at ih ⊢
        simp [latest, ih]
      · rw [if_neg hOther] at ih ⊢
        simp [latest, ih]

/- A key holds a value exactly when it has been written to. -/
theorem isSome_latest_iff
    (key : K)
    (writes : List (K × V)) :
    (latest key writes).isSome ↔
      ∃ value, (key, value) ∈ writes := by
  induction writes with
  | nil => simp [latest]
  | cons write rest ih =>
      rcases write with ⟨other, value⟩
      by_cases hOther : other = key
      · subst hOther
        simp [latest]
      · have hKey : key ≠ other := fun h => hOther h.symm
        simp [latest, hOther, hKey, ih]

end Listing
