import Mathlib.Data.List.Basic

/-
  A list that is divided into blocks of one size.

  Main declarations:
    * `Listing.block` and `Listing.setBlock`
    * `Listing.block_setBlock_self`
    * `Listing.block_setBlock_ne`
    * `Listing.flatMap_block`
-/

------------------------------------------------------------
-- Blocks
------------------------------------------------------------

namespace Listing

variable {α : Type}

/- The block at an index. -/
def block
    (size index : Nat)
    (xs : List α) : List α :=
  (xs.drop (index * size)).take size

/- Replace the block at an index. -/
def setBlock
    (size index : Nat)
    (new xs : List α) : List α :=
  xs.take (index * size) ++
    (new ++ xs.drop (index * size + size))

variable {size index : Nat}
variable {new xs : List α}

/- Every block lies inside the list. -/
theorem block_fits
    {count : Nat}
    (hLength : xs.length = count * size)
    (hIndex : index < count) :
    index * size + size ≤ xs.length := by
  rw [hLength, ← Nat.succ_mul]
  exact Nat.mul_le_mul_right size hIndex

theorem length_setBlock
    (hFits : index * size + size ≤ xs.length)
    (hNew : new.length = size) :
    (setBlock size index new xs).length = xs.length := by
  unfold setBlock
  rw [List.length_append, List.length_append,
    List.length_take, List.length_drop, hNew]
  omega

/- A list is what surrounds a block and the block. -/
theorem eq_append_block_append
    (size index : Nat)
    (xs : List α) :
    xs =
      xs.take (index * size) ++
        (block size index xs ++
          xs.drop (index * size + size)) := by
  unfold block
  rw [← List.drop_drop, List.take_append_drop,
    List.take_append_drop]

theorem getElem?_block
    (size index i : Nat)
    (xs : List α) :
    (block size index xs)[i]? =
      if i < size then xs[index * size + i]? else none := by
  unfold block
  rw [List.getElem?_take, List.getElem?_drop]

theorem getElem?_setBlock
    (hFits : index * size + size ≤ xs.length)
    (hNew : new.length = size)
    (i : Nat) :
    (setBlock size index new xs)[i]? =
      if i < index * size then
        xs[i]?
      else if i < index * size + size then
        new[i - index * size]?
      else
        xs[i]? := by
  have hTake :
      (xs.take (index * size)).length = index * size := by
    rw [List.length_take]
    omega
  unfold setBlock
  rw [List.getElem?_append, hTake]
  by_cases hBefore : i < index * size
  · rw [if_pos hBefore, if_pos hBefore,
      List.getElem?_take, if_pos hBefore]
  · rw [if_neg hBefore, if_neg hBefore,
      List.getElem?_append, hNew]
    by_cases hInside : i < index * size + size
    · rw [if_pos (by omega), if_pos hInside]
    · rw [if_neg (by omega), if_neg hInside,
        List.getElem?_drop]
      congr 1
      omega

/- The new block can be read back. -/
theorem block_setBlock_self
    (hFits : index * size + size ≤ xs.length)
    (hNew : new.length = size) :
    block size index (setBlock size index new xs) =
      new := by
  apply List.ext_getElem?
  intro i
  rw [getElem?_block, getElem?_setBlock hFits hNew]
  by_cases hInside : i < size
  · rw [if_pos hInside, if_neg (by omega),
      if_pos (by omega), Nat.add_sub_cancel_left]
  · rw [if_neg hInside, List.getElem?_eq_none (by omega)]

/- The other blocks stay as they are. -/
theorem block_setBlock_ne
    (hFits : index * size + size ≤ xs.length)
    (hNew : new.length = size)
    {other : Nat}
    (hOther : other ≠ index) :
    block size other (setBlock size index new xs) =
      block size other xs := by
  apply List.ext_getElem?
  intro i
  rw [getElem?_block, getElem?_block,
    getElem?_setBlock hFits hNew]
  by_cases hInside : i < size
  · rw [if_pos hInside, if_pos hInside]
    rcases Nat.lt_or_gt_of_ne hOther with hBefore | hAfter
    · have hStart : other * size + size ≤ index * size := by
        rw [← Nat.succ_mul]
        exact Nat.mul_le_mul_right size hBefore
      rw [if_pos (by omega)]
    · have hStart : index * size + size ≤ other * size := by
        rw [← Nat.succ_mul]
        exact Nat.mul_le_mul_right size hAfter
      rw [if_neg (by omega), if_neg (by omega)]
  · rw [if_neg hInside, if_neg hInside]

/- What a replacement changes in the number of hits. -/
theorem countP_setBlock
    (p : α → Bool)
    (size index : Nat)
    (new xs : List α) :
    (setBlock size index new xs).countP p +
        (block size index xs).countP p =
      xs.countP p + new.countP p := by
  have hSplit :=
    congrArg (List.countP p)
      (eq_append_block_append size index xs)
  unfold setBlock
  rw [List.countP_append, List.countP_append] at hSplit
  rw [List.countP_append, List.countP_append]
  omega

/- The blocks make up the list. -/
theorem flatMap_block
    {count : Nat}
    (hLength : xs.length = count * size) :
    (List.range count).flatMap
        (fun index => block size index xs) =
      xs := by
  have hTake : ∀ count : Nat,
      (List.range count).flatMap
          (fun index => block size index xs) =
        xs.take (count * size) := by
    intro count
    induction count with
    | zero => simp
    | succ count ih =>
        rw [List.range_succ, List.flatMap_append, ih,
          List.flatMap_singleton, block, Nat.succ_mul,
          List.take_add]
  rw [hTake count, ← hLength, List.take_length]

/- A position is a position in some block. -/
theorem exists_block_position
    {count i : Nat}
    (hLength : xs.length = count * size)
    (hPosition : i < xs.length) :
    ∃ index offset,
      index < count ∧ offset < size ∧
        i = index * size + offset := by
  have hSize : 0 < size := by
    rcases Nat.eq_zero_or_pos size with hZero | hPos
    · rw [hLength, hZero] at hPosition
      omega
    · exact hPos
  refine ⟨i / size, i % size, ?_, ?_, ?_⟩
  · apply (Nat.div_lt_iff_lt_mul hSize).mpr
    rw [← hLength]
    exact hPosition
  · exact Nat.mod_lt i hSize
  · rw [Nat.mul_comm]
    exact (Nat.div_add_mod i size).symm

end Listing
