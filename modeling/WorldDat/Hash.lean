import Mathlib.Data.Nat.Digits.Defs
import Mathlib.Data.UInt

/-
  Fixed-size hashes, their XOR and the rank that
  `leading_zeros` gives them (`hash.rs`).

  Main declarations:
    * `Blake2Hash`
    * `Blake2Hash.bitxor`
    * `Blake2Hash.leadingZeros`
    * `Blake2Hash.leadingZeros_lt`
-/

------------------------------------------------------------
-- Hashes
------------------------------------------------------------

namespace WorldDat

/- `BLAKE2_HASH_SIZE`, in bytes. -/
def blake2HashSize : Nat := 32

/- A hash is an array of exactly `blake2HashSize` bytes. -/
@[ext] structure Blake2Hash where
  bytes : List UInt8
  length_bytes : bytes.length = blake2HashSize
deriving DecidableEq

namespace Blake2Hash

/- Bytewise exclusive or. -/
def bitxor (self rhs : Blake2Hash) : Blake2Hash where
  bytes := List.zipWith (· ^^^ ·) self.bytes rhs.bytes
  length_bytes := by
    simp [self.length_bytes, rhs.length_bytes]

/- The number of bits in a hash. -/
def maxPower : Nat := blake2HashSize * 8

/- `u8::leading_zeros`. -/
def byteLeadingZeros (byte : UInt8) : Nat :=
  if byte = 0 then 8 else 7 - byte.toNat.log2

/-
  One pass of the loop in `leading_zeros`.  The loop goes on
  after a non-zero byte, so a later one overwrites `res`.
-/
def leadingZerosStep
    (res : Nat)
    (item : UInt8 × Nat) : Nat :=
  if item.1 = 0 then
    res
  else
    8 * item.2 + byteLeadingZeros item.1

/-
  `leading_zeros`: the loop over the bytes and their
  indices, then `saturating_sub(1)`.
-/
def leadingZeros (self : Blake2Hash) : Nat :=
  self.bytes.zipIdx.foldl leadingZerosStep maxPower - 1

/- The hash as a number, most significant byte first. -/
def toNat (self : Blake2Hash) : Nat :=
  Nat.ofDigits 256 (self.bytes.reverse.map UInt8.toNat)

/- XOR does not depend on the order of its operands. -/
theorem bitxor_comm (a b : Blake2Hash) :
    a.bitxor b = b.bitxor a := by
  ext1
  exact List.zipWith_comm_of_comm UInt8.xor_comm

/- A byte that is not zero has at most seven leading zeros. -/
theorem byteLeadingZeros_lt
    {byte : UInt8}
    (hByte : byte ≠ 0) :
    byteLeadingZeros byte < 8 := by
  simp only [byteLeadingZeros, if_neg hByte]
  omega

/- The loop never leaves the range of bit positions. -/
theorem foldl_leadingZerosStep_le
    (bytes : List UInt8)
    (start res : Nat)
    (hBytes : start + bytes.length ≤ blake2HashSize)
    (hRes : res ≤ maxPower) :
    (bytes.zipIdx start).foldl leadingZerosStep res ≤
      maxPower := by
  induction bytes generalizing start res with
  | nil => simpa using hRes
  | cons byte bytes ih =>
      simp only [List.length_cons] at hBytes
      rw [List.zipIdx_cons, List.foldl_cons]
      apply ih (start + 1) _ (by omega)
      by_cases hByte : byte = 0
      · simpa [leadingZerosStep, hByte] using hRes
      · have hZeros := byteLeadingZeros_lt hByte
        simp only [leadingZerosStep, if_neg hByte, maxPower]
        omega

/- A rank is a bit position. -/
theorem leadingZeros_lt (self : Blake2Hash) :
    self.leadingZeros < maxPower := by
  have hLoop :=
    foldl_leadingZerosStep_le self.bytes 0 maxPower
      (by simp [self.length_bytes]) (Nat.le_refl _)
  have hPositive : 0 < maxPower := by decide
  unfold leadingZeros
  omega

end Blake2Hash

end WorldDat
