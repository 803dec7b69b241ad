import Mathlib.Data.List.Dedup
import WorldDat.Listing.Passes

/-
  What is collected by reading some of many disjoint lists
  one after the other, possibly more than once.

  Main declarations:
    * `Listing.nodup_take_append_iff`
    * `Listing.nodup_collected`
    * `Listing.le_length_dedup_iff`
    * `Listing.mem_take_append_of_subset`
    * `Listing.not_shared_iff` and `forall_shared_iff`
    * `Listing.mem_take_collected_iff`
-/

------------------------------------------------------------
-- Duplicates
------------------------------------------------------------

namespace Listing

variable {α : Type}

/-
  If all that follows a list without duplicates starts with
  one of its elements, an initial part has no duplicates just
  when it does not reach that far.
-/
theorem nodup_take_append_iff
    {xs ys : List α}
    (hNodup : xs.Nodup)
    (hRepeats : ∀ y ∈ ys.head?, y ∈ xs)
    (bound : Nat) :
    ((xs ++ ys).take bound).Nodup ↔
      bound ≤ xs.length ∨ ys = [] := by
  constructor
  · intro hTake
    by_contra hNot
    rw [not_or] at hNot
    rcases hNot with ⟨hBound, hRest⟩
    cases ys with
    | nil => exact hRest rfl
    | cons y rest =>
        have hFirst : y ∈ xs := hRepeats y rfl
        have hSplit : (xs ++ [y]) <+: xs ++ y :: rest := by
          refine ⟨rest, ?_⟩
          simp
        have hPrefix :
            xs ++ [y] <+: (xs ++ y :: rest).take bound := by
          rw [List.prefix_take_iff]
          refine ⟨hSplit, ?_⟩
          rw [List.length_append, List.length_singleton]
          omega
        have hTwice := hPrefix.sublist.nodup hTake
        rw [List.nodup_append] at hTwice
        exact
          hTwice.2.2 y hFirst y (List.mem_singleton_self y)
            rfl
  · intro hEnd
    rcases hEnd with hBound | hRest
    · rw [List.take_append_of_le_length hBound]
      exact (List.take_sublist bound xs).nodup hNodup
    · rw [hRest, List.append_nil]
      exact (List.take_sublist bound xs).nodup hNodup

variable [DecidableEq α]

/-
  A list that is not longer than a bound has that many
  different elements when it is full of different ones.
-/
theorem le_length_dedup_iff
    {xs : List α}
    {bound : Nat}
    (hLength : xs.length ≤ bound) :
    bound ≤ xs.dedup.length ↔
      xs.Nodup ∧ bound ≤ xs.length := by
  have hSublist := List.dedup_sublist xs
  constructor
  · intro hBound
    have hSame : xs.dedup = xs := by
      apply hSublist.eq_of_length_le
      omega
    refine ⟨List.dedup_eq_self.mp hSame, ?_⟩
    rw [hSame] at hBound
    exact hBound
  · intro hFull
    rw [hFull.1.dedup]
    exact hFull.2

end Listing

------------------------------------------------------------
-- Readings
------------------------------------------------------------

namespace Listing

variable {ι α : Type}

/- What is collected from lists read one after the other. -/
def collected
    (content : ι → List α)
    (readings : List ι) : List α :=
  readings.flatMap content

variable {content : ι → List α}

/- Lists that have no element in common and none twice. -/
structure Separate (content : ι → List α) : Prop where
  nodup : ∀ i, (content i).Nodup
  apart : ∀ i j x, x ∈ content i → x ∈ content j → i = j

/- Reading separate lists once each gives no duplicates. -/
theorem nodup_collected
    (hSeparate : Separate content)
    {readings : List ι}
    (hReadings : readings.Nodup) :
    (collected content readings).Nodup := by
  unfold collected
  rw [List.nodup_flatMap]
  constructor
  · intro i _
    exact hSeparate.nodup i
  · apply hReadings.imp
    intro i j hOther x hLeft hRight
    exact hOther (hSeparate.apart i j x hLeft hRight)

@[simp] theorem collected_append
    (content : ι → List α)
    (first second : List ι) :
    collected content (first ++ second) =
      collected content first ++
        collected content second := by
  unfold collected
  exact List.flatMap_append

/- Readings can be collected pass by pass. -/
theorem collected_before
    (content : ι → List α)
    (first : List ι)
    (pass : Nat → List ι)
    (width : Nat) :
    collected content (before first pass width) =
      before (collected content first)
        (fun v => collected content (pass v)) width := by
  unfold collected before
  rw [List.flatMap_append, List.flatMap_assoc]

/- What is collected can be mapped list by list. -/
theorem map_collected
    {β : Type}
    (f : α → β)
    (content : ι → List α)
    (readings : List ι) :
    (collected content readings).map f =
      collected (fun i => (content i).map f) readings :=
  List.map_flatMap

theorem mem_collected_iff
    (content : ι → List α)
    (readings : List ι)
    (x : α) :
    x ∈ collected content readings ↔
      ∃ i ∈ readings, x ∈ content i :=
  List.mem_flatMap

/-
  Reading on where everything has been read already gives
  duplicates as soon as it gives anything.
-/
theorem nodup_take_collected_iff
    (hSeparate : Separate content)
    {first second : List ι}
    (hFirst : first.Nodup)
    (hAgain : ∀ x ∈ (collected content second).head?,
      ∃ i ∈ first, x ∈ content i)
    (bound : Nat) :
    ((collected content (first ++ second)).take
        bound).Nodup ↔
      bound ≤ (collected content first).length ∨
        collected content second = [] := by
  rw [collected_append]
  apply nodup_take_append_iff
    (nodup_collected hSeparate hFirst)
  intro x hHead
  rw [mem_collected_iff]
  exact hAgain x hHead

end Listing

------------------------------------------------------------
-- Initial Parts Of Readings
------------------------------------------------------------

namespace Listing

variable {ι α : Type}

/- Repetitions at the end add nothing to an initial part. -/
theorem mem_take_append_of_subset
    {xs ys : List α}
    (hAgain : ∀ y ∈ ys, y ∈ xs)
    (bound : Nat)
    (x : α) :
    x ∈ (xs ++ ys).take bound ↔ x ∈ xs.take bound := by
  rcases Nat.le_total bound xs.length with hBound | hAll
  · rw [List.take_append_of_le_length hBound]
  · rw [List.take_of_length_le hAll, List.take_append,
      List.take_of_length_le hAll, List.mem_append]
    constructor
    · intro hMem
      rcases hMem with hFirst | hRest
      · exact hFirst
      · exact hAgain x (List.mem_of_mem_take hRest)
    · exact Or.inl

/- What an initial part leaves out is related to all of it. -/
theorem rel_of_not_mem_take
    {R : α → α → Prop}
    {xs : List α}
    (hPairwise : xs.Pairwise R)
    {bound : Nat}
    {near far : α}
    (hNear : near ∈ xs.take bound)
    (hFar : far ∈ xs)
    (hNot : far ∉ xs.take bound) :
    R near far := by
  rw [← List.take_append_drop bound xs] at hPairwise hFar
  rw [List.pairwise_append] at hPairwise
  rcases List.mem_append.mp hFar with hTake | hDrop
  · exact absurd hTake hNot
  · exact hPairwise.2.2 near hNear far hDrop

variable {content : ι → List α}

/- Elements that are collected in the order of their lists. -/
theorem pairwise_collected
    {R : α → α → Prop}
    {S : ι → ι → Prop}
    {readings : List ι}
    (hReadings : readings.Pairwise S)
    (hWithin : ∀ i, (content i).Pairwise R)
    (hAcross : ∀ i j, S i j →
      ∀ x ∈ content i, ∀ y ∈ content j, R x y) :
    (collected content readings).Pairwise R := by
  unfold collected
  rw [List.pairwise_flatMap]
  constructor
  · intro i _
    exact hWithin i
  · apply hReadings.imp
    intro i j hOrder
    exact hAcross i j hOrder

/-
  What shares of separate lists leave out of what they hold
  is what lies beyond the share of some list.
-/
theorem not_shared_iff
    (hSeparate : Separate content)
    (share : ι → Nat)
    (x : α) :
    ((∃ i, x ∈ content i) ∧
        ¬ ∃ i, x ∈ (content i).take (share i)) ↔
      ∃ i, x ∈ (content i).drop (share i) := by
  constructor
  · intro hMissed
    rcases hMissed with ⟨⟨i, hI⟩, hNot⟩
    refine ⟨i, ?_⟩
    rw [← List.take_append_drop (share i) (content i),
      List.mem_append] at hI
    rcases hI with hTake | hDrop
    · exact absurd ⟨i, hTake⟩ hNot
    · exact hDrop
  · intro hBeyond
    rcases hBeyond with ⟨i, hDrop⟩
    have hI := List.mem_of_mem_drop hDrop
    refine ⟨⟨i, hI⟩, ?_⟩
    intro hShared
    rcases hShared with ⟨j, hTake⟩
    have hSame : i = j :=
      hSeparate.apart i j x hI (List.mem_of_mem_take hTake)
    rw [hSame] at hDrop
    exact
      List.disjoint_take_drop (hSeparate.nodup j)
        (Nat.le_refl _) hTake hDrop

/-
  A relation of all that is shared to all that is not, list
  by list.
-/
theorem forall_shared_iff
    {R : α → α → Prop}
    {shared held : α → Prop}
    {share : ι → Nat}
    (hShared : ∀ x,
      shared x ↔ ∃ i, x ∈ (content i).take (share i))
    (hMissed : ∀ x,
      held x ∧ ¬ shared x ↔
        ∃ i, x ∈ (content i).drop (share i)) :
    (∀ near, shared near →
      ∀ far, held far → ¬ shared far → R near far) ↔
      ∀ i j,
        ∀ near ∈ (content i).take (share i),
          ∀ far ∈ (content j).drop (share j),
            R near far := by
  constructor
  · intro hAll i j near hNear far hFar
    have hFarMissed := (hMissed far).mpr ⟨j, hFar⟩
    apply hAll near ?_ far hFarMissed.1 hFarMissed.2
    rw [hShared]
    exact ⟨i, hNear⟩
  · intro hLists near hNear far hHeld hNot
    rcases (hShared near).mp hNear with ⟨i, hTake⟩
    rcases (hMissed far).mp ⟨hHeld, hNot⟩ with ⟨j, hDrop⟩
    exact hLists i j near hTake far hDrop

variable {S : ι → ι → Prop} [DecidableRel S]

/-
  An initial part takes of each list what the lists that are
  read before it leave room for.
-/
theorem mem_take_collected_iff
    (hAsymm : ∀ i j, S i j → ¬ S j i)
    {readings : List ι}
    (hReadings : readings.Pairwise S)
    (bound : Nat)
    (x : α) :
    x ∈ (collected content readings).take bound ↔
      ∃ i ∈ readings,
        x ∈ (content i).take
          (bound -
            (collected content
              (readings.filter fun j => S j i)).length) := by
  induction readings generalizing bound with
  | nil => simp [collected]
  | cons first rest ih =>
      rw [List.pairwise_cons] at hReadings
      rcases hReadings with ⟨hFirst, hRest⟩
      have hIrrefl : ¬ S first first := fun hSelf =>
        hAsymm first first hSelf hSelf
      -- nothing is read before the first list
      have hNone :
          (first :: rest).filter (fun j => S j first) =
            [] := by
        rw [List.filter_eq_nil_iff]
        intro j hJ
        rcases List.mem_cons.mp hJ with hSame | hLater
        · rw [hSame]
          simpa using hIrrefl
        · simpa using hAsymm first j (hFirst j hLater)
      -- the first list is read before the others
      have hBefore : ∀ i ∈ rest,
          (first :: rest).filter (fun j => S j i) =
            first :: rest.filter (fun j => S j i) := by
        intro i hI
        exact
          List.filter_cons_of_pos (by simpa using hFirst i hI)
      have hSplit :
          collected content (first :: rest) =
            content first ++ collected content rest :=
        List.flatMap_cons
      rw [hSplit, List.take_append, List.mem_append,
        ih hRest]
      constructor
      · intro hMem
        rcases hMem with hTake | ⟨i, hI, hTake⟩
        · refine ⟨first, List.mem_cons_self, ?_⟩
          rw [hNone]
          exact hTake
        · refine ⟨i, List.mem_cons_of_mem first hI, ?_⟩
          rw [hBefore i hI]
          unfold collected at hTake ⊢
          rw [List.flatMap_cons, List.length_append,
            ← Nat.sub_sub]
          exact hTake
      · intro hMem
        rcases hMem with ⟨i, hI, hTake⟩
        rcases List.mem_cons.mp hI with hSame | hLater
        · rw [hSame, hNone] at hTake
          exact Or.inl hTake
        · apply Or.inr
          refine ⟨i, hLater, ?_⟩
          rw [hBefore i hLater] at hTake
          unfold collected at hTake ⊢
          rw [List.flatMap_cons, List.length_append,
            ← Nat.sub_sub] at hTake
          exact hTake

end Listing
