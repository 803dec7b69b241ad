import Mathlib.Data.List.Perm.Basic

/-
  Queues from which items are taken once they are due.

  Items wait in the order of their delays, longest first, and
  the last one is taken when a reading of the clock exceeds
  its delay.  Readings may come in any order.

  Main declarations:
    * `DelayQueue.Orderly`
    * `DelayQueue.orderly_of_sorted`
    * `DelayQueue.Orderly.take`
    * `DelayQueue.Orderly.nodup`
-/

------------------------------------------------------------
-- Orderly Queues
------------------------------------------------------------

namespace DelayQueue

variable {α : Type}

/-
  What has been taken and what waits of some items: nothing
  is lost, what waits is sorted, whatever has been taken was
  due at some reading, and nothing that waits was due before
  it.
-/
structure Orderly
    (delay : α → Nat)
    (readings : Nat → Prop)
    (items taken waiting : List α) : Prop where
  perm : (taken ++ waiting).Perm items
  sorted : waiting.Pairwise fun first second =>
    delay second ≤ delay first
  due : ∀ item ∈ taken,
    ∃ reading, readings reading ∧ delay item < reading
  ordered : ∀ item ∈ taken, ∀ later ∈ waiting,
    delay item ≤ delay later

variable {delay : α → Nat}
variable {readings : Nat → Prop}
variable {items taken waiting : List α}

/- At first all items wait, sorted by their delays. -/
theorem orderly_of_sorted
    (hPerm : waiting.Perm items)
    (hSorted : waiting.Pairwise fun first second =>
      delay second ≤ delay first) :
    Orderly delay readings items [] waiting where
  perm := hPerm
  sorted := hSorted
  due := by
    intro item hItem
    cases hItem
  ordered := by
    intro item hItem
    cases hItem

/- Taking the last item that waits when it is due. -/
theorem Orderly.take
    {front : List α}
    {item : α}
    (hOrderly :
      Orderly delay readings items taken (front ++ [item]))
    {reading : Nat}
    (hReading : readings reading)
    (hDue : delay item < reading) :
    Orderly delay readings items (taken ++ [item]) front where
  perm := by
    have hSwap :
        (taken ++ [item] ++ front).Perm
          (taken ++ (front ++ [item])) := by
      rw [List.append_assoc]
      apply List.Perm.append_left
      exact List.perm_append_comm
    exact hSwap.trans hOrderly.perm
  sorted := (List.pairwise_append.mp hOrderly.sorted).1
  due := by
    intro other hOther
    rcases List.mem_append.mp hOther with hOld | hNew
    · exact hOrderly.due other hOld
    · rw [List.mem_singleton.mp hNew]
      exact ⟨reading, hReading, hDue⟩
  ordered := by
    intro other hOther later hLater
    rcases List.mem_append.mp hOther with hOld | hNew
    · apply hOrderly.ordered other hOld
      exact List.mem_append_left _ hLater
    · -- all that waits was sorted before the item
      rw [List.mem_singleton.mp hNew]
      have hSorted := List.pairwise_append.mp hOrderly.sorted
      exact
        hSorted.2.2 later hLater item
          (List.mem_singleton_self item)

/- Every item has been taken or waits, and no other. -/
theorem Orderly.mem_iff
    (hOrderly :
      Orderly delay readings items taken waiting)
    (item : α) :
    item ∈ items ↔ item ∈ taken ∨ item ∈ waiting := by
  rw [← hOrderly.perm.mem_iff, List.mem_append]

/- No key comes twice if the items have different ones. -/
theorem Orderly.nodup
    {κ : Type}
    {key : α → κ}
    (hOrderly :
      Orderly delay readings items taken waiting)
    (hKeys : (items.map key).Nodup) :
    (taken.map key ++ waiting.map key).Nodup := by
  rw [← List.map_append]
  exact ((hOrderly.perm.map key).nodup_iff).mpr hKeys

end DelayQueue
