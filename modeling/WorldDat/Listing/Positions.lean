import Mathlib.Data.List.Basic

/-
  Lists that are split at one of their elements.

  Main declarations:
    * `Listing.exists_split_of_getElem?`
    * `Listing.mem_append_cons`
    * `Listing.filter_append_cons_of_neg`
    * `Listing.filter_append_cons_of_first`
-/

------------------------------------------------------------
-- Splitting At A Position
------------------------------------------------------------

namespace Listing

variable {α : Type}
variable {x : α}

/-
  A position splits a list; what is erased or replaced there
  does not touch the two parts.
-/
theorem exists_split_of_getElem?
    {xs : List α}
    {i : Nat}
    (hGet : xs[i]? = some x) :
    ∃ front back,
      xs = front ++ x :: back ∧
        front = xs.take i ∧
        front.length = i ∧
        xs.eraseIdx i = front ++ back ∧
        ∀ y, xs.set i y = front ++ y :: back := by
  rcases List.getElem?_eq_some_iff.mp hGet with
    ⟨hIndex, hElem⟩
  refine
    ⟨xs.take i, xs.drop (i + 1), ?_, rfl, ?_, ?_, ?_⟩
  · rw [← hElem, List.getElem_cons_drop,
      List.take_append_drop]
  · exact List.length_take_of_le (Nat.le_of_lt hIndex)
  · exact List.eraseIdx_eq_take_drop_succ xs i
  · intro y
    rw [List.set_eq_take_append_cons_drop, if_pos hIndex]

/- An element stays when one is put between the others. -/
theorem mem_append_cons
    {y : α}
    {front back : List α}
    (hMem : x ∈ front ++ back) :
    x ∈ front ++ y :: back := by
  rcases List.mem_append.mp hMem with hFront | hBack
  · exact List.mem_append_left _ hFront
  · apply List.mem_append_right
    apply List.mem_cons_of_mem
    exact hBack

end Listing

------------------------------------------------------------
-- Filtering Around A Position
------------------------------------------------------------

namespace Listing

variable {α : Type}
variable {p : α → Bool}
variable {x : α}

/- An element that a filter drops. -/
theorem filter_append_cons_of_neg
    (hDrop : ¬ p x)
    (front back : List α) :
    (front ++ x :: back).filter p =
      (front ++ back).filter p := by
  rw [List.filter_append, List.filter_cons_of_neg hDrop,
    List.filter_append]

/- The first element that a filter keeps. -/
theorem filter_append_cons_of_first
    {front : List α}
    (hKeep : p x)
    (hFirst : ∀ y ∈ front, ¬ p y)
    (back : List α) :
    (front ++ x :: back).filter p =
      x :: (front ++ back).filter p := by
  have hFront : front.filter p = [] :=
    List.filter_eq_nil_iff.mpr hFirst
  rw [List.filter_append, List.filter_cons_of_pos hKeep,
    List.filter_append, hFront, List.nil_append,
    List.nil_append]

end Listing
