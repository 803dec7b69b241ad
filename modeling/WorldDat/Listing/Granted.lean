import Mathlib.Data.List.Basic

/-
  Streams in which every key is granted before it is used.

  A receiver that knows some keys and remembers what it is
  granted meets every use of such a stream prepared.

  Main declarations:
    * `Listing.Granted`
    * `Listing.Granted.mono`
    * `Listing.Granted.append`
-/

------------------------------------------------------------
-- Granted Streams
------------------------------------------------------------

namespace Listing

variable {α κ : Type}
variable {uses grants : α → κ → Prop}

/-
  Every key that an element uses is known from the start or
  granted by an earlier element.
-/
def Granted
    (uses grants : α → κ → Prop) :
    (κ → Prop) → List α → Prop
| _, [] => True
| known, x :: xs =>
    (∀ key, uses x key → known key) ∧
      Granted uses grants
        (fun key => known key ∨ grants x key) xs

@[simp] theorem granted_nil (known : κ → Prop) :
    Granted uses grants known [] := trivial

/- A receiver may know more. -/
theorem Granted.mono
    {known more : κ → Prop}
    {xs : List α}
    (hGranted : Granted uses grants known xs)
    (hMore : ∀ key, known key → more key) :
    Granted uses grants more xs := by
  induction xs generalizing known more with
  | nil => trivial
  | cons x xs ih =>
      refine ⟨fun key hUse => hMore key ?_, ?_⟩
      · exact hGranted.1 key hUse
      · refine ih hGranted.2 ?_
        rintro key (hKnown | hGrant)
        · exact Or.inl (hMore key hKnown)
        · exact Or.inr hGrant

/- Two streams may follow each other. -/
theorem Granted.append
    {known : κ → Prop}
    {xs ys : List α}
    (hFirst : Granted uses grants known xs)
    (hSecond :
      Granted uses grants (fun _ => False) ys) :
    Granted uses grants known (xs ++ ys) := by
  induction xs generalizing known with
  | nil => exact hSecond.mono fun _ hFalse => hFalse.elim
  | cons x xs ih => exact ⟨hFirst.1, ih hFirst.2⟩

end Listing
