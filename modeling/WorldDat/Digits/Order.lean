import Mathlib.Data.Nat.Bitwise
import WorldDat.Digits.BigEndian

/-
  Comparing numbers and combining their bits byte by byte.

  Lists of bytes of one length are ordered lexicographically
  as the numbers that they stand for, and taking the
  exclusive or of their bytes gives that of the numbers.

  Main declarations:
    * `BigEndian.compareLex_eq_compare_value`
    * `BigEndian.value_inj`
    * `BigEndian.value_zipWith_xor`
    * `BigEndian.xor_triangle`
-/

------------------------------------------------------------
-- Lexicographic Order
------------------------------------------------------------

namespace BigEndian

theorem compare_toNat (x y : UInt8) :
    compare x y = compare x.toNat y.toNat := by
  change compareOfLessAndEq x y =
    compareOfLessAndEq x.toNat y.toNat
  unfold compareOfLessAndEq
  simp only [UInt8.lt_iff_toNat_lt, UInt8.toNat_inj]

/- A smaller first byte outweighs all that follow it. -/
theorem value_cons_lt_value_cons
    {x y : UInt8}
    {xs ys : List UInt8}
    (hLength : xs.length = ys.length)
    (hFirst : x.toNat < y.toNat) :
    value (x :: xs) < value (y :: ys) := by
  have hRest := value_lt xs
  rw [value_cons, value_cons, ← hLength]
  calc
    value xs + 2 ^ (8 * xs.length) * x.toNat <
        2 ^ (8 * xs.length) +
          2 ^ (8 * xs.length) * x.toNat :=
      Nat.add_lt_add_right hRest _
    _ = 2 ^ (8 * xs.length) * (x.toNat + 1) := by
      rw [Nat.mul_succ, Nat.add_comm]
    _ ≤ 2 ^ (8 * xs.length) * y.toNat :=
      Nat.mul_le_mul_left _ hFirst
    _ ≤ value ys + 2 ^ (8 * xs.length) * y.toNat :=
      Nat.le_add_left _ _

/- Bytes are ordered as the numbers that they stand for. -/
theorem compareLex_eq_compare_value
    {xs ys : List UInt8}
    (hLength : xs.length = ys.length) :
    List.compareLex compare xs ys =
      compare (value xs) (value ys) := by
  induction xs generalizing ys with
  | nil =>
      have hNil : ys = [] :=
        List.eq_nil_of_length_eq_zero hLength.symm
      rw [hNil]
      rfl
  | cons x xs ih =>
      cases ys with
      | nil => cases hLength
      | cons y ys =>
          have hRest : xs.length = ys.length :=
            Nat.succ.inj hLength
          rw [List.compareLex_cons_cons, compare_toNat]
          rcases Nat.lt_trichotomy x.toNat y.toNat with
            hLess | hSame | hMore
          · rw [Nat.compare_eq_lt.mpr hLess,
              Nat.compare_eq_lt.mpr
                (value_cons_lt_value_cons hRest hLess)]
            rfl
          · rw [Nat.compare_eq_eq.mpr hSame, ih hRest,
              value_cons, value_cons, hSame, hRest]
            unfold compare instOrdNat compareOfLessAndEq
            simp
          · rw [Nat.compare_eq_gt.mpr hMore,
              Nat.compare_eq_gt.mpr
                (value_cons_lt_value_cons hRest.symm hMore)]
            rfl

/- A number has one list of bytes of each length. -/
theorem value_inj
    {xs ys : List UInt8}
    (hLength : xs.length = ys.length)
    (hValue : value xs = value ys) :
    xs = ys := by
  induction xs generalizing ys with
  | nil =>
      exact (List.eq_nil_of_length_eq_zero hLength.symm).symm
  | cons x xs ih =>
      cases ys with
      | nil => cases hLength
      | cons y ys =>
          have hRest : xs.length = ys.length :=
            Nat.succ.inj hLength
          rcases Nat.lt_trichotomy x.toNat y.toNat with
            hLess | hSame | hMore
          · have hLt := value_cons_lt_value_cons hRest hLess
            omega
          · have hFirst : x = y := UInt8.toNat_inj.mp hSame
            rw [value_cons, value_cons, hSame,
              hRest] at hValue
            have hTail : value xs = value ys := by omega
            rw [hFirst, ih hRest hTail]
          · have hLt :=
              value_cons_lt_value_cons hRest.symm hMore
            omega

end BigEndian

------------------------------------------------------------
-- Exclusive Or
------------------------------------------------------------

namespace BigEndian

/- Low and high parts are combined separately. -/
theorem two_pow_mul_add_xor
    (a c : Nat)
    {b d bits : Nat}
    (hLeft : b < 2 ^ bits)
    (hRight : d < 2 ^ bits) :
    (2 ^ bits * a + b) ^^^ (2 ^ bits * c + d) =
      2 ^ bits * (a ^^^ c) + (b ^^^ d) := by
  apply Nat.eq_of_testBit_eq
  intro place
  rw [Nat.testBit_xor, Nat.testBit_two_pow_mul_add a hLeft,
    Nat.testBit_two_pow_mul_add c hRight,
    Nat.testBit_two_pow_mul_add _
      (Nat.xor_lt_two_pow hLeft hRight)]
  by_cases hLow : place < bits
  · rw [if_pos hLow, if_pos hLow, if_pos hLow,
      Nat.testBit_xor]
  · rw [if_neg hLow, if_neg hLow, if_neg hLow,
      Nat.testBit_xor]

/- Combining bytes combines the numbers. -/
theorem value_zipWith_xor
    {xs ys : List UInt8}
    (hLength : xs.length = ys.length) :
    value (List.zipWith (· ^^^ ·) xs ys) =
      value xs ^^^ value ys := by
  induction xs generalizing ys with
  | nil =>
      have hNil : ys = [] :=
        List.eq_nil_of_length_eq_zero hLength.symm
      rw [hNil]
      rfl
  | cons x xs ih =>
      cases ys with
      | nil => cases hLength
      | cons y ys =>
          have hRest : xs.length = ys.length :=
            Nat.succ.inj hLength
          have hRight := value_lt ys
          rw [← hRest] at hRight
          have hBoth :
              (List.zipWith (· ^^^ ·) xs ys).length =
                xs.length := by
            rw [List.length_zipWith, ← hRest, Nat.min_self]
          rw [List.zipWith_cons_cons, value_cons, value_cons,
            value_cons, hBoth, ih hRest, UInt8.toNat_xor,
            ← hRest, Nat.add_comm (value xs),
            Nat.add_comm (value ys),
            two_pow_mul_add_xor _ _ (value_lt xs) hRight,
            Nat.add_comm]

/- Adding carries where the exclusive or does not. -/
theorem xor_le_add (a b : Nat) : a ^^^ b ≤ a + b := by
  induction a using Nat.strongRecOn generalizing b with
  | ind a ih =>
      by_cases hZero : a = 0
      · rw [hZero, Nat.zero_xor, Nat.zero_add]
      · have hHalf := ih (a / 2) (by omega) (b / 2)
        have hDiv : (a ^^^ b) / 2 = a / 2 ^^^ b / 2 :=
          Nat.xor_div_two
        have hMod : (a ^^^ b) % 2 = (a + b) % 2 :=
          Nat.xor_mod_two_eq
        omega

/- The detour through a third number is never shorter. -/
theorem xor_triangle (a b c : Nat) :
    a ^^^ c ≤ (a ^^^ b) + (b ^^^ c) := by
  have hDetour : (a ^^^ b) ^^^ (b ^^^ c) = a ^^^ c := by
    rw [Nat.xor_assoc, ← Nat.xor_assoc b, Nat.xor_self,
      Nat.zero_xor]
  rw [← hDetour]
  exact xor_le_add _ _

end BigEndian
