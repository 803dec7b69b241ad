import WorldDat.Digits.BigEndian
import WorldDat.Types

/-
  What the rank of a peer measures.

  The loop of `leading_zeros` ends with the last byte that is
  not zero, so it finds the most significant bit only if
  there is no later byte of that kind.

  Main declarations:
    * `Blake2Hash.leadingZeroBits`
    * `Blake2Hash.foldl_leadingZerosStep_eq`
    * `Blake2Hash.leadingZeros_eq_iff`
    * `PeerId.differingBytes`
    * `PeerId.distanceRank_eq_top_iff`
    * `PeerId.distanceRank_eq_iff`
-/

------------------------------------------------------------
-- Leading Zeros Of Bytes
------------------------------------------------------------

namespace WorldDat

namespace Blake2Hash

/- The number of leading zeros among the bits of a hash. -/
def leadingZeroBits (self : Blake2Hash) : Nat :=
  maxPower - self.toNat.size

/- A byte has a leading zero for each bit it does not use. -/
theorem byteLeadingZeros_add_size
    {byte : UInt8}
    (hByte : byte ≠ 0) :
    byteLeadingZeros byte + byte.toNat.size = 8 := by
  have hNat : byte.toNat ≠ 0 := by
    intro hZero
    apply hByte
    exact UInt8.toNat_inj.mp hZero
  have hSize := BigEndian.size_eq_log2_add_one hNat
  have hBound : byte.toNat.size ≤ 8 := by
    rw [Nat.size_le]
    exact byte.toNat_lt
  unfold byteLeadingZeros
  rw [if_neg hByte]
  omega

/- Bytes that are zero leave the result as it is. -/
theorem foldl_leadingZerosStep_of_zero
    {bytes : List UInt8}
    (hZero : bytes.countP (· ≠ 0) = 0)
    (start res : Nat) :
    (bytes.zipIdx start).foldl leadingZerosStep res =
      res := by
  induction bytes generalizing start res with
  | nil => rfl
  | cons byte bytes ih =>
      rw [List.countP_eq_zero] at hZero
      have hByte : byte = 0 := by
        simpa using hZero byte List.mem_cons_self
      have hRest : bytes.countP (· ≠ 0) = 0 := by
        rw [List.countP_eq_zero]
        intro other hOther
        exact hZero other (List.mem_cons_of_mem _ hOther)
      rw [List.zipIdx_cons, List.foldl_cons, ih hRest,
        leadingZerosStep, if_pos hByte]

/- The loop ends with the last byte that is not zero. -/
theorem foldl_leadingZerosStep_eq
    (front : List UInt8)
    {byte : UInt8}
    (hByte : byte ≠ 0)
    {rest : List UInt8}
    (hRest : rest.countP (· ≠ 0) = 0)
    (start res : Nat) :
    ((front ++ byte :: rest).zipIdx start).foldl
        leadingZerosStep res =
      8 * (start + front.length) + byteLeadingZeros byte := by
  rw [List.zipIdx_append, List.foldl_append,
    List.zipIdx_cons, List.foldl_cons,
    foldl_leadingZerosStep_of_zero hRest, leadingZerosStep,
    if_neg hByte]

/- Unless all bytes are zero, there is such a byte. -/
theorem exists_last_byte
    {bytes : List UInt8}
    (hBytes : 0 < bytes.countP (· ≠ 0)) :
    ∃ front byte rest,
      bytes = front ++ byte :: rest ∧ byte ≠ 0 ∧
        rest.countP (· ≠ 0) = 0 := by
  induction bytes with
  | nil => simp at hBytes
  | cons byte bytes ih =>
      by_cases hRest : 0 < bytes.countP (· ≠ 0)
      · rcases ih hRest with
          ⟨front, last, rest, hSplit, hLast, hZero⟩
        refine ⟨byte :: front, last, rest, ?_, hLast, hZero⟩
        rw [hSplit]
        rfl
      · have hZero : bytes.countP (· ≠ 0) = 0 := by omega
        refine ⟨[], byte, bytes, rfl, ?_, hZero⟩
        intro hSame
        rw [List.countP_cons, hZero, hSame] at hBytes
        simp at hBytes

/- Where the loop ends when not all bytes are zero. -/
theorem foldl_leadingZerosStep_bounds
    {bytes : List UInt8}
    (hBytes : 0 < bytes.countP (· ≠ 0))
    (start res : Nat) :
    8 * start ≤
        (bytes.zipIdx start).foldl leadingZerosStep res ∧
      (bytes.zipIdx start).foldl leadingZerosStep res <
        8 * (start + bytes.length) := by
  rcases exists_last_byte hBytes with
    ⟨front, byte, rest, hSplit, hByte, hRest⟩
  have hZeros := byteLeadingZeros_lt hByte
  rw [hSplit, foldl_leadingZerosStep_eq front hByte hRest,
    List.length_append, List.length_cons]
  omega

/-
  The loop ends at the most significant bit exactly when no
  byte after the first one that is not zero counts.
-/
theorem foldl_leadingZerosStep_eq_iff
    (bytes : List UInt8)
    (start : Nat)
    (hBytes : start + bytes.length = blake2HashSize) :
    (bytes.zipIdx start).foldl leadingZerosStep maxPower -
          1 =
        maxPower - (BigEndian.value bytes).size - 1 ↔
      bytes.countP (· ≠ 0) ≤ 1 := by
  induction bytes generalizing start with
  | nil => simp
  | cons byte bytes ih =>
      have hPower :
          maxPower = 8 * start + 8 * (bytes.length + 1) := by
        rw [List.length_cons] at hBytes
        unfold maxPower
        omega
      rw [List.zipIdx_cons, List.foldl_cons,
        List.countP_cons]
      by_cases hByte : byte = 0
      · have hNext :
            start + 1 + bytes.length = blake2HashSize := by
          rw [List.length_cons] at hBytes
          omega
        rw [hByte, BigEndian.value_cons_zero,
          leadingZerosStep, if_pos rfl, ih (start + 1) hNext]
        simp
      · have hBits := byteLeadingZeros_add_size hByte
        have hZeros := byteLeadingZeros_lt hByte
        have hCount :
            (if decide (byte ≠ 0) = true then 1 else 0) =
              1 := by
          simp [hByte]
        rw [hCount, BigEndian.size_value_cons hByte,
          leadingZerosStep, if_neg hByte]
        dsimp only
        by_cases hRest : 0 < bytes.countP (· ≠ 0)
        · -- a later byte overwrites what this one has set
          have hLater :=
            foldl_leadingZerosStep_bounds hRest (start + 1)
              (8 * start + byteLeadingZeros byte)
          omega
        · have hZero : bytes.countP (· ≠ 0) = 0 := by omega
          rw [foldl_leadingZerosStep_of_zero hZero]
          omega

/- `leading_zeros` is right about hashes with one byte set. -/
theorem leadingZeros_eq_iff (self : Blake2Hash) :
    self.leadingZeros = self.leadingZeroBits - 1 ↔
      self.bytes.countP (· ≠ 0) ≤ 1 := by
  apply foldl_leadingZerosStep_eq_iff self.bytes 0
  rw [Nat.zero_add]
  exact self.length_bytes

/- Only a hash of zeros gets the highest result. -/
theorem leadingZeros_eq_top_iff (self : Blake2Hash) :
    self.leadingZeros = maxPower - 1 ↔
      self.bytes.countP (· ≠ 0) = 0 := by
  unfold leadingZeros
  constructor
  · intro hTop
    by_contra hBytes
    have hBounds :=
      foldl_leadingZerosStep_bounds
        (Nat.pos_of_ne_zero hBytes) 0 maxPower
    have hLength := self.length_bytes
    unfold maxPower at hTop hBounds
    unfold blake2HashSize at hTop hBounds hLength
    omega
  · intro hZero
    rw [foldl_leadingZerosStep_of_zero hZero]

end Blake2Hash

end WorldDat

------------------------------------------------------------
-- Ranks And Distances
------------------------------------------------------------

namespace WorldDat

namespace PeerId

/- The number of bytes in which two peers differ. -/
def differingBytes (a b : PeerId) : Nat :=
  (a.hash.bytes.zip b.hash.bytes).countP
    fun (x, y) => x ≠ y

/- The bytes that differ are those with a distance. -/
theorem countP_bitxor (a b : PeerId) :
    (a.hash.bitxor b.hash).bytes.countP (· ≠ 0) =
      a.differingBytes b := by
  unfold Blake2Hash.bitxor differingBytes
  dsimp only
  rw [← List.map_uncurry_zip_eq_zipWith,
    List.countP_map]
  apply List.countP_congr
  intro pair _
  rcases pair with ⟨x, y⟩
  simp

/- Peers that differ in no byte are the same. -/
theorem differingBytes_eq_zero_iff (a b : PeerId) :
    a.differingBytes b = 0 ↔ a = b := by
  have hLength : a.hash.bytes.length = b.hash.bytes.length :=
    a.hash.length_bytes.trans b.hash.length_bytes.symm
  unfold differingBytes
  rw [List.countP_eq_zero]
  constructor
  · intro hBytes
    have hSame : a.hash.bytes = b.hash.bytes := by
      apply List.ext_getElem hLength
      intro i hLeft hRight
      have hZip :
          i < (a.hash.bytes.zip b.hash.bytes).length := by
        rw [List.length_zip]
        omega
      have hByte := hBytes _ (List.getElem_mem hZip)
      rw [List.getElem_zip] at hByte
      simpa using hByte
    rcases a with ⟨a⟩
    rcases b with ⟨b⟩
    exact congrArg PeerId.mk (Blake2Hash.ext hSame)
  · intro hSame pair hPair
    rw [hSame] at hPair
    rcases List.mem_iff_getElem.mp hPair with
      ⟨i, hInside, hByte⟩
    rw [List.getElem_zip] at hByte
    rw [← hByte]
    simp

/- Only a peer itself gets the highest rank. -/
theorem distanceRank_eq_top_iff (a b : PeerId) :
    a.distanceRank b = Blake2Hash.maxPower - 1 ↔
      a = b := by
  rw [← differingBytes_eq_zero_iff, ← countP_bitxor]
  exact (a.hash.bitxor b.hash).leadingZeros_eq_top_iff

/- A rank is right when the distance has one byte set. -/
theorem distanceRank_eq_iff_countP (a b : PeerId) :
    a.distanceRank b =
        Blake2Hash.maxPower - (a.distance b).size - 1 ↔
      (a.hash.bitxor b.hash).bytes.countP (· ≠ 0) ≤ 1 :=
  (a.hash.bitxor b.hash).leadingZeros_eq_iff

/-
  A rank is one less than the number of leading zeros of the
  distance exactly when the two peers differ in at most one
  byte.
-/
theorem distanceRank_eq_iff (a b : PeerId) :
    a.distanceRank b =
        Blake2Hash.maxPower - (a.distance b).size - 1 ↔
      a.differingBytes b ≤ 1 := by
  rw [← countP_bitxor]
  exact distanceRank_eq_iff_countP a b

/- Two peers that differ in every byte get the wrong rank. -/
theorem distanceRank_of_differing_bytes :
    ¬ ∀ a b : PeerId,
      a.distanceRank b =
        Blake2Hash.maxPower - (a.distance b).size - 1 := by
  intro hClaim
  have hCount :=
    (distanceRank_eq_iff_countP (repeating 0)
      (repeating 1)).mp (hClaim (repeating 0) (repeating 1))
  have hBytes :
      ((repeating 0).hash.bitxor
        (repeating 1).hash).bytes.countP (· ≠ 0) = 32 := by
    decide +kernel
  omega

end PeerId

end WorldDat
