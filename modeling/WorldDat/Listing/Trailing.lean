import Mathlib.Data.List.Basic
import Mathlib.Data.Vector.Basic
import Mathlib.Logic.Equiv.Fin.Basic
import Mathlib.SetTheory.Cardinal.Finite

/-
  How many words of a length there are, by the place of the
  last letter that is not blank.

  Main declarations:
    * `Listing.Words`
    * `Listing.EndsAt` and `Listing.card_endsAt`
    * `Listing.BlankFrom` and `Listing.card_blankFrom`
-/

------------------------------------------------------------
-- Words
------------------------------------------------------------

namespace Listing

/- The words of a length that have a property. -/
def Words
    {A : Type}
    (length : Nat)
    (p : List A → Prop) : Type :=
  { word : List A // word.length = length ∧ p word }

variable {A : Type}

/- Each letter of a word can be any letter. -/
theorem card_vector (length : Nat) :
    Nat.card (List.Vector A length) =
      Nat.card A ^ length := by
  rw [Nat.card_congr (Equiv.vectorEquivFin A length),
    Nat.card_fun, Nat.card_fin]

end Listing

------------------------------------------------------------
-- The Last Letter
------------------------------------------------------------

namespace Listing

variable {A : Type}

/-
  The letter at a place has a property, and there is nothing
  but blanks after it.
-/
def EndsAt
    (blank : A)
    (last : A → Prop)
    (place : Nat)
    (word : List A) : Prop :=
  ∃ front letter rest,
    word = front ++ letter :: rest ∧
      front.length = place ∧ last letter ∧
        ∀ other ∈ rest, other = blank

/- A word is filled up with blanks after its last letter. -/
def ending
    (blank : A)
    (last : A → Prop)
    {place length : Nat}
    (hPlace : place < length)
    (parts :
      List.Vector A place × { letter : A // last letter }) :
    Words length (EndsAt blank last place) :=
  ⟨parts.1.toList ++
      parts.2.1 ::
        List.replicate (length - place - 1) blank, by
    constructor
    · rw [List.length_append, List.length_cons,
        List.length_replicate, List.Vector.toList_length]
      omega
    · exact
        ⟨_, _, _, rfl, parts.1.toList_length, parts.2.2,
          fun _ hOther => List.eq_of_mem_replicate hOther⟩⟩

theorem ending_injective
    (blank : A)
    (last : A → Prop)
    {place length : Nat}
    (hPlace : place < length) :
    Function.Injective (ending blank last hPlace) := by
  intro left right hSame
  have hWords := congrArg Subtype.val hSame
  have hLength :
      left.1.toList.length = right.1.toList.length := by
    rw [List.Vector.toList_length, List.Vector.toList_length]
  rcases List.append_inj hWords hLength with
    ⟨hFront, hBack⟩
  rw [List.cons.injEq] at hBack
  exact
    Prod.ext (List.Vector.eq _ _ hFront)
      (Subtype.ext hBack.1)

theorem ending_surjective
    (blank : A)
    (last : A → Prop)
    {place length : Nat}
    (hPlace : place < length) :
    Function.Surjective (ending blank last hPlace) := by
  intro word
  rcases word with ⟨word, hLength, hEnds⟩
  rcases hEnds with
    ⟨front, letter, rest, hWord, hFront, hLast, hRest⟩
  have hBlanks :
      List.replicate (length - place - 1) blank = rest := by
    have hCount : rest.length = length - place - 1 := by
      rw [hWord, List.length_append, List.length_cons]
        at hLength
      omega
    exact
      (List.eq_replicate_iff.mpr ⟨hCount, hRest⟩).symm
  refine ⟨(⟨front, hFront⟩, ⟨letter, hLast⟩), ?_⟩
  apply Subtype.ext
  change
    front ++
        letter ::
          List.replicate (length - place - 1) blank =
      word
  rw [hBlanks, hWord]

/- All that is free is the last letter and what is before. -/
theorem card_endsAt
    (blank : A)
    (last : A → Prop)
    {place length : Nat}
    (hPlace : place < length) :
    Nat.card (Words length (EndsAt blank last place)) =
      Nat.card A ^ place *
        Nat.card { letter : A // last letter } := by
  rw [← card_vector, ← Nat.card_prod]
  exact
    (Nat.card_eq_of_bijective (ending blank last hPlace)
      ⟨ending_injective blank last hPlace,
        ending_surjective blank last hPlace⟩).symm

end Listing

------------------------------------------------------------
-- Blank Ends
------------------------------------------------------------

namespace Listing

variable {A : Type}

/- There is nothing but blanks from a place on. -/
def BlankFrom
    (blank : A)
    (place : Nat)
    (word : List A) : Prop :=
  ∀ letter ∈ word.drop place, letter = blank

/- A word is filled up with blanks. -/
def filled
    (blank : A)
    {place length : Nat}
    (hPlace : place ≤ length)
    (front : List.Vector A place) :
    Words length (BlankFrom blank place) :=
  ⟨front.toList ++ List.replicate (length - place) blank, by
    constructor
    · rw [List.length_append, List.length_replicate,
        List.Vector.toList_length]
      omega
    · intro letter hLetter
      rw [List.drop_left' front.toList_length] at hLetter
      exact List.eq_of_mem_replicate hLetter⟩

theorem filled_bijective
    (blank : A)
    {place length : Nat}
    (hPlace : place ≤ length) :
    Function.Bijective (filled blank hPlace) := by
  constructor
  · intro left right hSame
    have hWords := congrArg Subtype.val hSame
    have hLength :
        left.toList.length = right.toList.length := by
      rw [List.Vector.toList_length,
        List.Vector.toList_length]
    exact
      List.Vector.eq _ _ (List.append_inj hWords hLength).1
  · intro word
    rcases word with ⟨word, hLength, hBlank⟩
    have hFront : (word.take place).length = place := by
      rw [List.length_take, hLength]
      exact Nat.min_eq_left hPlace
    have hBack :
        List.replicate (length - place) blank =
          word.drop place := by
      have hCount :
          (word.drop place).length = length - place := by
        rw [List.length_drop, hLength]
      exact
        (List.eq_replicate_iff.mpr ⟨hCount, hBlank⟩).symm
    refine ⟨⟨word.take place, hFront⟩, ?_⟩
    apply Subtype.ext
    change
      word.take place ++
          List.replicate (length - place) blank =
        word
    rw [hBack]
    exact List.take_append_drop place word

/- All that is free is what is before. -/
theorem card_blankFrom
    (blank : A)
    {place length : Nat}
    (hPlace : place ≤ length) :
    Nat.card (Words length (BlankFrom blank place)) =
      Nat.card A ^ place := by
  rw [← card_vector]
  exact
    (Nat.card_eq_of_bijective _
      (filled_bijective blank hPlace)).symm

end Listing
