import WorldDat.Rank

/-
  Which peers share a bucket with the closest ones.

  Both searches start in the bucket of the target, since the
  closest peers are said to be there.  A bucket holds peers
  that may differ in any byte but the last one in which they
  differ from the owner, so that is true of few peers.

  Main declarations:
    * `Blake2Hash.lastByte`
    * `Blake2Hash.leadingZeros_eq_iff_of_front`
    * `PeerId.distanceRank_eq_iff_of_near`
    * `PeerId.closestInBucket_iff`
-/

------------------------------------------------------------
-- Last Bytes
------------------------------------------------------------

namespace WorldDat

namespace Blake2Hash

/- All bytes but the last one. -/
def front (self : Blake2Hash) : List UInt8 :=
  self.bytes.take (blake2HashSize - 1)

def lastByte (self : Blake2Hash) : UInt8 :=
  self.bytes.getD (blake2HashSize - 1) 0

theorem length_front (self : Blake2Hash) :
    self.front.length = blake2HashSize - 1 := by
  unfold front
  rw [List.length_take, self.length_bytes]
  rfl

theorem front_concat_lastByte (self : Blake2Hash) :
    self.front ++ [self.lastByte] = self.bytes := by
  have hLast : blake2HashSize - 1 < self.bytes.length := by
    rw [self.length_bytes]
    decide
  have hAll : self.bytes.length ≤ blake2HashSize - 1 + 1 := by
    rw [self.length_bytes]
    decide
  unfold front lastByte
  rw [List.getD_eq_getElem?_getD,
    List.getElem?_eq_getElem hLast, Option.getD_some,
    List.take_concat_get' _ _ hLast,
    List.take_of_length_le hAll]

@[simp] theorem front_bitxor (a b : Blake2Hash) :
    (a.bitxor b).front =
      List.zipWith (· ^^^ ·) a.front b.front :=
  List.take_zipWith

@[simp] theorem lastByte_bitxor (a b : Blake2Hash) :
    (a.bitxor b).lastByte = a.lastByte ^^^ b.lastByte := by
  have hLeft := a.length_bytes
  have hRight := b.length_bytes
  unfold lastByte bitxor
  dsimp only
  rw [List.getD_eq_getElem?_getD, List.getD_eq_getElem?_getD,
    List.getD_eq_getElem?_getD, List.getElem?_zipWith,
    List.getElem?_eq_getElem (by rw [hLeft]; decide),
    List.getElem?_eq_getElem (by rw [hRight]; decide)]
  rfl

/- The last byte is the lowest part of the number. -/
theorem toNat_eq (self : Blake2Hash) :
    self.toNat =
      self.lastByte.toNat +
        256 * BigEndian.value self.front := by
  rw [← BigEndian.value_concat, self.front_concat_lastByte]
  rfl

/- A number that fits in the last byte. -/
theorem front_eq_replicate_of_lt
    {self : Blake2Hash}
    (hSmall : self.toNat < 256) :
    self.front = List.replicate (blake2HashSize - 1) 0 := by
  rw [toNat_eq] at hSmall
  have hZero : BigEndian.value self.front = 0 := by omega
  rw [List.eq_replicate_iff]
  exact
    ⟨self.length_front,
      BigEndian.eq_zero_of_value_eq_zero hZero⟩

/- Such a number changes only the last byte of another. -/
theorem front_bitxor_of_lt
    (self : Blake2Hash)
    {change : Blake2Hash}
    (hSmall : change.toNat < 256) :
    (self.bitxor change).front = self.front := by
  rw [front_bitxor, front_eq_replicate_of_lt hSmall]
  apply List.ext_getElem
  · rw [List.length_zipWith, List.length_replicate,
      self.length_front, Nat.min_self]
  · intro i hLeft hRight
    rw [List.getElem_zipWith, List.getElem_replicate]
    exact UInt8.xor_zero

/- The hash that has a last byte only. -/
def ofLastByte (byte : UInt8) : Blake2Hash where
  bytes := List.replicate (blake2HashSize - 1) 0 ++ [byte]
  length_bytes := by
    rw [List.length_append, List.length_replicate]
    rfl

theorem toNat_ofLastByte (byte : UInt8) :
    (ofLastByte byte).toNat = byte.toNat := by
  have hFront :
      BigEndian.value
        (List.replicate (blake2HashSize - 1) 0) = 0 := by
    decide
  change BigEndian.value (_ ++ [byte]) = _
  rw [BigEndian.value_concat, hFront]
  rfl

theorem bitxor_assoc (a b c : Blake2Hash) :
    (a.bitxor b).bitxor c = a.bitxor (b.bitxor c) := by
  ext1
  unfold bitxor
  apply List.ext_getElem
  · simp [Nat.min_assoc]
  · intro i hLeft hRight
    rw [List.getElem_zipWith, List.getElem_zipWith,
      List.getElem_zipWith, List.getElem_zipWith,
      UInt8.xor_assoc]

/- A difference is undone by applying it again. -/
theorem bitxor_bitxor_self (a b : Blake2Hash) :
    a.bitxor (a.bitxor b) = b := by
  have hLength : a.bytes.length = b.bytes.length :=
    a.length_bytes.trans b.length_bytes.symm
  ext1
  unfold bitxor
  apply List.ext_getElem
  · simp [hLength]
  · intro i hLeft hRight
    rw [List.getElem_zipWith, List.getElem_zipWith,
      ← UInt8.xor_assoc, UInt8.xor_self, UInt8.zero_xor]

end Blake2Hash

end WorldDat

------------------------------------------------------------
-- What The Last Byte Does To A Rank
------------------------------------------------------------

namespace WorldDat

namespace Blake2Hash

/- The loop ends with the last byte, unless that is zero. -/
theorem leadingZeros_eq_lastByte (self : Blake2Hash) :
    self.leadingZeros =
      (if self.lastByte = 0 then
        self.front.zipIdx.foldl leadingZerosStep maxPower
      else
        8 * (blake2HashSize - 1) +
          byteLeadingZeros self.lastByte) - 1 := by
  unfold leadingZeros
  rw [← self.front_concat_lastByte, List.zipIdx_append,
    List.foldl_append, self.length_front]
  rfl

/- Where the loop is before it reads the last byte. -/
theorem foldl_front_bounds (self : Blake2Hash) :
    self.front.zipIdx.foldl leadingZerosStep maxPower =
        maxPower ∨
      self.front.zipIdx.foldl leadingZerosStep maxPower <
        8 * (blake2HashSize - 1) := by
  rcases Nat.eq_zero_or_pos
      (self.front.countP (· ≠ 0)) with hZero | hSome
  · exact Or.inl (foldl_leadingZerosStep_of_zero hZero _ _)
  · have hBounds :=
      foldl_leadingZerosStep_bounds hSome 0 maxPower
    rw [self.length_front, Nat.zero_add] at hBounds
    exact Or.inr hBounds.2

/-
  Two hashes that differ in the last byte only have the same
  rank when these bytes have the same size.
-/
theorem leadingZeros_eq_iff_of_front
    {a b : Blake2Hash}
    (hFront : a.front = b.front) :
    a.leadingZeros = b.leadingZeros ↔
      a.lastByte.toNat.size = b.lastByte.toNat.size := by
  have hBounds := b.foldl_front_bounds
  have hPower : maxPower = 8 * blake2HashSize := rfl
  have hBytes : blake2HashSize = 32 := rfl
  rw [a.leadingZeros_eq_lastByte,
    b.leadingZeros_eq_lastByte, hFront]
  by_cases hLeft : a.lastByte = 0
  · by_cases hRight : b.lastByte = 0
    · rw [hLeft, hRight]
      simp
    · have hSum := byteLeadingZeros_add_size hRight
      have hZeros := byteLeadingZeros_lt hRight
      rw [if_pos hLeft, if_neg hRight, hLeft]
      simp only [UInt8.toNat_zero, Nat.size_zero]
      omega
  · have hSum := byteLeadingZeros_add_size hLeft
    have hZeros := byteLeadingZeros_lt hLeft
    rw [if_neg hLeft]
    by_cases hRight : b.lastByte = 0
    · rw [if_pos hRight, hRight]
      simp only [UInt8.toNat_zero, Nat.size_zero]
      omega
    · have hSum' := byteLeadingZeros_add_size hRight
      rw [if_neg hRight]
      omega

end Blake2Hash

end WorldDat

------------------------------------------------------------
-- Peers Close To A Target
------------------------------------------------------------

namespace WorldDat

namespace PeerId

/- In what the last bytes of two peers differ. -/
def lastDifference (a b : PeerId) : Nat :=
  (a.hash.bitxor b.hash).lastByte.toNat

/- The highest bit of a difference of bytes fits in a byte. -/
theorem two_pow_log2_lastDifference_lt (a b : PeerId) :
    2 ^ (a.lastDifference b).log2 < 256 := by
  have hByte : a.lastDifference b < 256 :=
    UInt8.toNat_lt _
  by_cases hZero : a.lastDifference b = 0
  · rw [hZero]
    decide
  · exact Nat.lt_of_le_of_lt (Nat.log2_self_le hZero) hByte

/-
  A peer that differs from a target in the last byte only is
  in its bucket when the difference keeps the size of that
  between the owner and the target.
-/
theorem distanceRank_eq_iff_of_near
    (self : PeerId)
    {target other : PeerId}
    (hNear : other.distance target < 256) :
    self.distanceRank other = self.distanceRank target ↔
      (self.lastDifference target ^^^
          other.distance target).size =
        (self.lastDifference target).size := by
  have hOther :
      self.hash.bitxor other.hash =
        (self.hash.bitxor target.hash).bitxor
          (other.hash.bitxor target.hash) := by
    rw [Blake2Hash.bitxor_assoc,
      Blake2Hash.bitxor_comm other.hash,
      Blake2Hash.bitxor_bitxor_self]
  have hLast :
      (other.hash.bitxor target.hash).lastByte.toNat =
        other.distance target := by
    unfold distance at hNear ⊢
    rw [Blake2Hash.toNat_eq] at hNear ⊢
    omega
  unfold distanceRank lastDifference
  rw [Blake2Hash.leadingZeros_eq_iff_of_front, hOther,
    Blake2Hash.lastByte_bitxor, UInt8.toNat_xor, hLast]
  rw [hOther]
  exact Blake2Hash.front_bitxor_of_lt _ hNear

/- Some peer is at any distance that fits in a byte. -/
theorem exists_distance_eq
    (target : PeerId)
    {distance : Nat}
    (hDistance : distance < 256) :
    ∃ other : PeerId, other.distance target = distance := by
  let change := Blake2Hash.ofLastByte (UInt8.ofNat distance)
  refine ⟨{ hash := target.hash.bitxor change }, ?_⟩
  unfold PeerId.distance
  rw [Blake2Hash.bitxor_comm, Blake2Hash.bitxor_bitxor_self,
    Blake2Hash.toNat_ofLastByte]
  exact UInt8.toNat_ofNat_of_lt hDistance

/-
  If a peer is in the bucket of a target, it is closer to the
  target than all peers outside that bucket.
-/
def ClosestInBucket (self target peer : PeerId) : Prop :=
  self.distanceRank peer = self.distanceRank target →
    ∀ other : PeerId,
      self.distanceRank other ≠ self.distanceRank target →
        peer.distance target < other.distance target

/-
  A peer in the bucket of a target is closer than all peers
  outside exactly if it differs from the target only below
  the highest bit in which the last bytes of the target and
  the owner differ.
-/
theorem closestInBucket_iff (self target peer : PeerId) :
    self.ClosestInBucket target peer ↔
      (self.distanceRank peer = self.distanceRank target →
        peer.distance target <
          2 ^ (self.lastDifference target).log2) := by
  have hByte :=
    self.two_pow_log2_lastDifference_lt target
  constructor
  · intro hClosest hSame
    rcases exists_distance_eq target hByte with
      ⟨other, hOther⟩
    rw [← hOther]
    apply hClosest hSame
    intro hRank
    rw [distanceRank_eq_iff_of_near self
      (by rw [hOther]; exact hByte), hOther] at hRank
    exact BigEndian.size_xor_two_pow_log2 _ hRank
  · intro hBelow hSame other hOther
    have hPeer := hBelow hSame
    by_contra hCloser
    have hLess :
        other.distance target <
          2 ^ (self.lastDifference target).log2 := by
      omega
    apply hOther
    rw [distanceRank_eq_iff_of_near self
      (Nat.lt_trans hLess hByte)]
    exact BigEndian.size_xor_of_lt hLess

/- A peer outside the bucket of a target may be closer. -/
theorem closer_peer_outside_bucket :
    ¬ ∀ self target peer other : PeerId,
      target ≠ self →
        self.distanceRank peer = self.distanceRank target →
          self.distanceRank other ≠
              self.distanceRank target →
            peer.distance target < other.distance target := by
  intro hClaim
  have hCloser :=
    hClaim (repeating 0)
      (raw (1 :: 1 :: List.replicate 30 0) rfl)
      (raw (2 :: 1 :: List.replicate 30 0) rfl)
      (raw (1 :: 2 :: List.replicate 30 0) rfl)
      (by decide +kernel) (by decide +kernel)
      (by decide +kernel)
  exact absurd hCloser (by decide +kernel)

end PeerId

end WorldDat
