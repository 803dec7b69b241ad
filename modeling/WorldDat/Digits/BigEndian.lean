import Mathlib.Data.Nat.Digits.Defs
import Mathlib.Data.Nat.Size
import Mathlib.Data.UInt

/-
  Numbers written as lists of bytes, most significant byte
  first.

  Main declarations:
    * `BigEndian.value`
    * `BigEndian.value_lt`
    * `BigEndian.value_cons_zero`
    * `BigEndian.size_value_cons`
    * `BigEndian.value_concat`
    * `BigEndian.size_xor_of_lt`
-/

------------------------------------------------------------
-- Values
------------------------------------------------------------

namespace BigEndian

/- The number that a list of bytes stands for. -/
def value (bytes : List UInt8) : Nat :=
  Nat.ofDigits 256 (bytes.reverse.map UInt8.toNat)

@[simp] theorem value_nil : value [] = 0 := rfl

/- The first byte counts for all that follow it. -/
theorem value_cons
    (byte : UInt8)
    (bytes : List UInt8) :
    value (byte :: bytes) =
      value bytes + 2 ^ (8 * bytes.length) * byte.toNat := by
  have hBase : 256 ^ bytes.length = 2 ^ (8 * bytes.length) := by
    rw [Nat.pow_mul]
  unfold value
  rw [List.reverse_cons, List.map_append,
    Nat.ofDigits_append, List.length_map,
    List.length_reverse, hBase]
  simp [Nat.ofDigits_singleton]

/- What bounds the first byte bounds the number. -/
theorem value_cons_lt
    {byte : UInt8}
    {bytes : List UInt8}
    {bits : Nat}
    (hByte : byte.toNat < 2 ^ bits)
    (hRest : value bytes < 2 ^ (8 * bytes.length)) :
    value (byte :: bytes) <
      2 ^ (8 * bytes.length + bits) := by
  rw [value_cons, Nat.pow_add]
  calc
    value bytes + 2 ^ (8 * bytes.length) * byte.toNat <
        2 ^ (8 * bytes.length) * (byte.toNat + 1) := by
      rw [Nat.mul_succ]
      omega
    _ ≤ 2 ^ (8 * bytes.length) * 2 ^ bits :=
      Nat.mul_le_mul_left _ hByte

/- A number has at most eight bits for each byte. -/
theorem value_lt (bytes : List UInt8) :
    value bytes < 2 ^ (8 * bytes.length) := by
  induction bytes with
  | nil => simp
  | cons byte bytes ih =>
      rw [List.length_cons, Nat.mul_succ]
      exact value_cons_lt byte.toNat_lt ih

end BigEndian

------------------------------------------------------------
-- Sizes
------------------------------------------------------------

namespace BigEndian

/- A leading zero byte does not count. -/
theorem value_cons_zero (bytes : List UInt8) :
    value (0 :: bytes) = value bytes := by
  rw [value_cons]
  simp

/- The first byte of a number fixes its size. -/
theorem size_value_cons
    {byte : UInt8}
    (hByte : byte ≠ 0)
    (bytes : List UInt8) :
    (value (byte :: bytes)).size =
      8 * bytes.length + byte.toNat.size := by
  have hPositive : 0 < byte.toNat := by
    rw [Nat.pos_iff_ne_zero]
    intro hZero
    apply hByte
    exact UInt8.toNat_inj.mp hZero
  have hSize : 0 < byte.toNat.size :=
    Nat.size_pos.mpr hPositive
  apply Nat.le_antisymm
  · rw [Nat.size_le]
    apply value_cons_lt ?_ (value_lt bytes)
    exact Nat.lt_size_self byte.toNat
  · have hLast :
        8 * bytes.length + (byte.toNat.size - 1) <
          (value (byte :: bytes)).size := by
      rw [Nat.lt_size, Nat.pow_add, value_cons]
      have hTop : 2 ^ (byte.toNat.size - 1) ≤ byte.toNat := by
        apply Nat.lt_size.mp
        omega
      calc
        2 ^ (8 * bytes.length) * 2 ^ (byte.toNat.size - 1) ≤
            2 ^ (8 * bytes.length) * byte.toNat :=
          Nat.mul_le_mul_left _ hTop
        _ ≤ value bytes +
            2 ^ (8 * bytes.length) * byte.toNat :=
          Nat.le_add_left _ _
    omega

end BigEndian

------------------------------------------------------------
-- Last Bytes
------------------------------------------------------------

namespace BigEndian

/- The last byte counts for itself. -/
theorem value_concat
    (bytes : List UInt8)
    (byte : UInt8) :
    value (bytes ++ [byte]) =
      byte.toNat + 256 * value bytes := by
  unfold value
  rw [List.reverse_append, List.reverse_singleton,
    List.singleton_append, List.map_cons, Nat.ofDigits_cons]

/- Only zeros stand for zero. -/
theorem eq_zero_of_value_eq_zero
    {bytes : List UInt8}
    (hValue : value bytes = 0) :
    ∀ byte ∈ bytes, byte = 0 := by
  induction bytes with
  | nil => simp
  | cons first rest ih =>
      rw [value_cons, Nat.add_eq_zero_iff,
        Nat.mul_eq_zero] at hValue
      rcases hValue with ⟨hRest, hPower | hFirst⟩
      · exact absurd hPower (Nat.pow_pos (by decide)).ne'
      · intro byte hByte
        rcases List.mem_cons.mp hByte with hSame | hLater
        · rw [hSame]
          exact UInt8.toNat_inj.mp hFirst
        · exact ih hRest byte hLater

end BigEndian

------------------------------------------------------------
-- Highest Bits
------------------------------------------------------------

namespace BigEndian

/- The size of a number is that of its highest bit. -/
theorem size_eq_log2_add_one
    {number : Nat}
    (hNumber : number ≠ 0) :
    number.size = number.log2 + 1 := by
  apply Nat.le_antisymm
  · rw [Nat.size_le]
    exact Nat.lt_log2_self
  · apply Nat.succ_le_of_lt
    rw [Nat.lt_size]
    exact Nat.log2_self_le hNumber

/- What is left of a number at its highest bit. -/
theorem div_two_pow_log2
    {number : Nat}
    (hNumber : number ≠ 0) :
    number / 2 ^ number.log2 = 1 := by
  have hLow := Nat.log2_self_le hNumber
  have hHigh : number < 2 ^ (number.log2 + 1) :=
    Nat.lt_log2_self
  rw [Nat.pow_succ] at hHigh
  apply Nat.div_eq_of_lt_le
  · rw [Nat.one_mul]
    exact hLow
  · omega

/- Changes below the highest bit keep the size ... -/
theorem size_xor_of_lt
    {number change : Nat}
    (hChange : change < 2 ^ number.log2) :
    (number ^^^ change).size = number.size := by
  by_cases hNumber : number = 0
  · rw [hNumber, Nat.log2_zero, Nat.pow_zero,
      Nat.lt_one_iff] at hChange
    rw [hNumber, hChange]
    rfl
  · have hDiv :
        (number ^^^ change) / 2 ^ number.log2 = 1 := by
      rw [Nat.xor_div_two_pow, div_two_pow_log2 hNumber,
        Nat.div_eq_of_lt hChange]
      rfl
    have hPositive : 0 < 2 ^ number.log2 :=
      Nat.pow_pos (by decide)
    have hBounds := (Nat.div_eq_iff hPositive).mp hDiv
    have hOther : number ^^^ change ≠ 0 := by omega
    have hLog : (number ^^^ change).log2 = number.log2 := by
      rw [Nat.log2_eq_iff hOther, Nat.pow_succ]
      omega
    rw [size_eq_log2_add_one hOther, hLog,
      size_eq_log2_add_one hNumber]

/- ... and a change of that bit alone does not. -/
theorem size_xor_two_pow_log2 (number : Nat) :
    (number ^^^ 2 ^ number.log2).size ≠ number.size := by
  by_cases hNumber : number = 0
  · rw [hNumber]
    decide
  · have hDiv :
        (number ^^^ 2 ^ number.log2) / 2 ^ number.log2 =
          0 := by
      rw [Nat.xor_div_two_pow, div_two_pow_log2 hNumber,
        Nat.div_self (Nat.pow_pos (by decide))]
      rfl
    have hLess :
        number ^^^ 2 ^ number.log2 < 2 ^ number.log2 := by
      rcases Nat.div_eq_zero_iff.mp hDiv with hZero | hLess
      · exact absurd hZero (Nat.pow_pos (by decide)).ne'
      · exact hLess
    have hSize := Nat.size_le.mpr hLess
    rw [size_eq_log2_add_one hNumber]
    omega

end BigEndian
