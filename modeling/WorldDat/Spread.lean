import Mathlib.Order.Interval.Finset.Nat
import WorldDat.Listing.Trailing
import WorldDat.Neighborhood

/-
  How the ids of all peers are spread over the buckets of a
  routing table.

  A rank is found at the last byte in which a peer differs
  from the owner, so the buckets of the last byte hold all
  ids but one in 256, and the first bucket holds 192 ids.

  Main declarations:
    * `Blake2Hash.leadingZeros_eq_iff_endsAt`
    * `Blake2Hash.card_endsRank`
    * `PeerId.card_peers`
    * `PeerId.Spread` and `PeerId.spread`
-/

------------------------------------------------------------
-- Bytes
------------------------------------------------------------

namespace WorldDat

namespace Blake2Hash

theorem card_bytes : Nat.card UInt8 = 256 := by
  have hBijective : Function.Bijective UInt8.toFin := by
    constructor
    · intro left right hSame
      exact UInt8.toFin_inj.mp hSame
    · intro number
      exact ⟨UInt8.ofFin number, rfl⟩
  rw [Nat.card_eq_of_bijective _ hBijective, Nat.card_fin]

/- The bytes in an interval. -/
theorem card_bytes_between
    {lower upper : Nat}
    (hUpper : upper ≤ 256) :
    Nat.card
        { byte : UInt8 //
          lower ≤ byte.toNat ∧ byte.toNat < upper } =
      upper - lower := by
  have hNumbers :
      Nat.card (Finset.Ico lower upper) = upper - lower := by
    rw [Nat.card_eq_fintype_card, Fintype.card_coe,
      Nat.card_Ico]
  rw [← hNumbers]
  apply Nat.card_eq_of_bijective fun byte =>
    ⟨byte.1.toNat, Finset.mem_Ico.mpr byte.2⟩
  constructor
  · intro left right hSame
    apply Subtype.ext
    exact UInt8.toNat_inj.mp (congrArg Subtype.val hSame)
  · intro number
    rcases number with ⟨number, hNumber⟩
    have hByte : (UInt8.ofNat number).toNat = number := by
      rw [UInt8.toNat_ofNat']
      rw [Finset.mem_Ico] at hNumber
      omega
    refine ⟨⟨UInt8.ofNat number, ?_⟩, Subtype.ext hByte⟩
    rw [hByte]
    exact Finset.mem_Ico.mp hNumber

/-
  A byte at the place of a rank makes the loop end with it.
  The first two results of the loop make the same rank.
-/
def EndsRank
    (rank : Nat)
    (byte : UInt8) : Prop :=
  byte ≠ 0 ∧
    8 * ((rank + 1) / 8) + byteLeadingZeros byte - 1 = rank

/- Such bytes have one size, or one of two. -/
theorem endsRank_iff
    (rank : Nat)
    (byte : UInt8) :
    EndsRank rank byte ↔
      2 ^ (7 - (rank + 1) % 8) ≤ byte.toNat ∧
        byte.toNat <
          if rank = 0 then
            256
          else
            2 ^ (8 - (rank + 1) % 8) := by
  unfold EndsRank
  by_cases hByte : byte = 0
  · apply iff_of_false
    · intro hEnds
      exact hEnds.1 hByte
    · intro hBetween
      have hPositive :=
        Nat.two_pow_pos (7 - (rank + 1) % 8)
      rw [hByte] at hBetween
      exact absurd hBetween.1 (Nat.not_le.mpr hPositive)
  · have hSize := byteLeadingZeros_add_size hByte
    have hLower :
        2 ^ (7 - (rank + 1) % 8) ≤ byte.toNat ↔
          7 - (rank + 1) % 8 < byte.toNat.size :=
      Nat.lt_size.symm
    have hUpper :
        byte.toNat < 2 ^ (8 - (rank + 1) % 8) ↔
          byte.toNat.size ≤ 8 - (rank + 1) % 8 :=
      Nat.size_le.symm
    have hBound := byte.toNat_lt
    rw [and_iff_right hByte]
    by_cases hFirst : rank = 0
    · rw [if_pos hFirst, hLower, hFirst]
      omega
    · rw [if_neg hFirst, hLower, hUpper]
      omega

theorem card_endsRank (rank : Nat) :
    Nat.card { byte : UInt8 // EndsRank rank byte } =
      if rank = 0 then
        192
      else
        2 ^ (7 - (rank + 1) % 8) := by
  simp only [endsRank_iff]
  by_cases hFirst : rank = 0
  · simp only [hFirst, if_true]
    rw [card_bytes_between (Nat.le_refl 256)]
    rfl
  · simp only [hFirst, if_false]
    have hRest : (rank + 1) % 8 < 8 :=
      Nat.mod_lt _ (by decide)
    have hUpper : 2 ^ (8 - (rank + 1) % 8) ≤ 256 :=
      Nat.pow_le_pow_right (by decide) (Nat.sub_le 8 _)
    have hDouble :
        2 ^ (8 - (rank + 1) % 8) =
          2 * 2 ^ (7 - (rank + 1) % 8) := by
      rw [← Nat.pow_succ']
      congr 1
      omega
    rw [card_bytes_between hUpper, hDouble, Nat.two_mul,
      Nat.add_sub_cancel]

end Blake2Hash

end WorldDat

------------------------------------------------------------
-- Where The Loop Ends
------------------------------------------------------------

namespace WorldDat

namespace Blake2Hash

theorem countP_eq_zero_iff {bytes : List UInt8} :
    bytes.countP (· ≠ 0) = 0 ↔
      ∀ byte ∈ bytes, byte = 0 := by
  rw [List.countP_eq_zero]
  simp

/- A hash is zero, or it has a last byte that is not. -/
theorem zero_or_exists_last (self : Blake2Hash) :
    (∀ byte ∈ self.bytes, byte = 0) ∨
      ∃ front byte rest,
        self.bytes = front ++ byte :: rest ∧ byte ≠ 0 ∧
          (∀ other ∈ rest, other = 0) ∧
          self.leadingZeros =
            8 * front.length + byteLeadingZeros byte - 1 := by
  rcases Nat.eq_zero_or_pos
      (self.bytes.countP (· ≠ 0)) with hZero | hSome
  · exact Or.inl (countP_eq_zero_iff.mp hZero)
  · apply Or.inr
    rcases exists_last_byte hSome with
      ⟨front, byte, rest, hSplit, hByte, hRest⟩
    refine
      ⟨front, byte, rest, hSplit, hByte,
        countP_eq_zero_iff.mp hRest, ?_⟩
    unfold leadingZeros
    rw [hSplit, foldl_leadingZerosStep_eq front hByte hRest,
      Nat.zero_add]

/- A rank below the highest one is found at a last byte. -/
theorem leadingZeros_eq_iff_endsAt
    (self : Blake2Hash)
    {rank : Nat}
    (hRank : rank < maxPower - 1) :
    self.leadingZeros = rank ↔
      Listing.EndsAt 0 (EndsRank rank) ((rank + 1) / 8)
        self.bytes := by
  constructor
  · intro hZeros
    rcases self.zero_or_exists_last with hZero |
      ⟨front, byte, rest, hSplit, hByte, hRest, hLast⟩
    · have hTop :=
        self.leadingZeros_eq_top_iff.mpr
          (countP_eq_zero_iff.mpr hZero)
      omega
    · have hBits := byteLeadingZeros_lt hByte
      have hPlace : front.length = (rank + 1) / 8 := by omega
      refine
        ⟨front, byte, rest, hSplit, hPlace, ⟨hByte, ?_⟩,
          hRest⟩
      rw [← hPlace]
      omega
  · intro hEnds
    rcases hEnds with
      ⟨front, byte, rest, hSplit, hPlace, hLast, hRest⟩
    unfold leadingZeros
    rw [hSplit, foldl_leadingZerosStep_eq front hLast.1
      (countP_eq_zero_iff.mpr hRest), Nat.zero_add, hPlace]
    exact hLast.2

/- The ranks of a byte and of those before it, and zero. -/
theorem leadingZeros_lt_iff_blankFrom
    (self : Blake2Hash)
    (place : Nat) :
    (self.leadingZeros < 8 * place + 7 ∨
        ∀ byte ∈ self.bytes, byte = 0) ↔
      Listing.BlankFrom 0 (place + 1) self.bytes := by
  rcases self.zero_or_exists_last with hZero |
    ⟨front, byte, rest, hSplit, hByte, hRest, hLast⟩
  · apply iff_of_true (Or.inr hZero)
    intro letter hLetter
    exact hZero letter (List.mem_of_mem_drop hLetter)
  · have hBits := byteLeadingZeros_lt hByte
    have hSome : ¬ ∀ byte ∈ self.bytes, byte = 0 := by
      intro hZero
      apply hByte
      apply hZero
      rw [hSplit]
      exact List.mem_append_cons_self
    have hEarly :
        self.leadingZeros < 8 * place + 7 ↔
          front.length ≤ place := by
      rw [hLast]
      omega
    rw [or_iff_left hSome, hEarly]
    unfold Listing.BlankFrom
    rw [hSplit, List.drop_append]
    constructor
    · intro hPlace letter hLetter
      have hFront : front.drop (place + 1) = [] :=
        List.drop_eq_nil_of_le (by omega)
      have hBack :
          place + 1 - front.length =
            (place - front.length) + 1 := by
        omega
      rw [hFront, hBack, List.drop_succ_cons,
        List.nil_append] at hLetter
      exact hRest letter (List.mem_of_mem_drop hLetter)
    · intro hBlank
      by_contra hLate
      have hBack : place + 1 - front.length = 0 := by omega
      apply hByte
      apply hBlank
      rw [hBack, List.drop_zero]
      exact List.mem_append_right _ List.mem_cons_self

end Blake2Hash

end WorldDat

------------------------------------------------------------
-- Peers In Buckets
------------------------------------------------------------

namespace WorldDat

namespace PeerId

/- How a peer differs from the owner of a table. -/
def difference
    (owner : PeerId)
    (p : List UInt8 → Prop)
    (peer :
      { peer : PeerId //
        p (owner.hash.bitxor peer.hash).bytes }) :
    Listing.Words blake2HashSize p :=
  ⟨(owner.hash.bitxor peer.1.hash).bytes,
    (owner.hash.bitxor peer.1.hash).length_bytes, peer.2⟩

/- Each difference is that of one peer. -/
theorem difference_bijective
    (owner : PeerId)
    (p : List UInt8 → Prop) :
    Function.Bijective (owner.difference p) := by
  constructor
  · intro left right hSame
    have hHash :
        owner.hash.bitxor left.1.hash =
          owner.hash.bitxor right.1.hash :=
      Blake2Hash.ext (congrArg Subtype.val hSame)
    apply Subtype.ext
    have hBack :
        left.1.hash = right.1.hash := by
      rw [← owner.hash.bitxor_bitxor_self left.1.hash,
        hHash, owner.hash.bitxor_bitxor_self]
    exact congrArg PeerId.mk hBack
  · intro word
    rcases word with ⟨word, hLength, hWord⟩
    have hDifference :
        owner.hash.bitxor
            (owner.hash.bitxor
              { bytes := word, length_bytes := hLength }) =
          { bytes := word, length_bytes := hLength } :=
      owner.hash.bitxor_bitxor_self _
    refine
      ⟨⟨{ hash := owner.hash.bitxor ⟨word, hLength⟩ }, ?_⟩,
        ?_⟩
    · rw [hDifference]
      exact hWord
    · apply Subtype.ext
      exact congrArg Blake2Hash.bytes hDifference

/- There are as many peers as there are differences. -/
theorem card_peers
    (owner : PeerId)
    (p : List UInt8 → Prop) :
    Nat.card
        { peer : PeerId //
          p (owner.hash.bitxor peer.hash).bytes } =
      Nat.card (Listing.Words blake2HashSize p) :=
  Nat.card_eq_of_bijective _ (owner.difference_bijective p)

/-
  How many of all ids fall into each bucket of a table, and
  into the buckets of its first bytes.
-/
structure Spread (owner : PeerId) : Prop where
  bucket : ∀ rank, rank < Blake2Hash.maxPower - 1 →
    Nat.card
        { peer : PeerId // owner.distanceRank peer = rank } =
      256 ^ ((rank + 1) / 8) *
        if rank = 0 then
          192
        else
          2 ^ (7 - (rank + 1) % 8)
  last :
    Nat.card
        { peer : PeerId //
          owner.distanceRank peer =
            Blake2Hash.maxPower - 1 } =
      1
  early : ∀ place, place < blake2HashSize →
    Nat.card
        { peer : PeerId //
          owner.distanceRank peer < 8 * place + 7 ∨
            peer = owner } =
      256 ^ (place + 1)

/- The ids are spread like this around every owner. -/
theorem spread (owner : PeerId) : owner.Spread where
  bucket := by
    intro rank hRank
    have hPlace : (rank + 1) / 8 < blake2HashSize := by
      unfold Blake2Hash.maxPower at hRank
      omega
    have hEnds : ∀ peer : PeerId,
        owner.distanceRank peer = rank ↔
          Listing.EndsAt 0 (Blake2Hash.EndsRank rank)
            ((rank + 1) / 8)
            (owner.hash.bitxor peer.hash).bytes :=
      fun peer =>
        Blake2Hash.leadingZeros_eq_iff_endsAt _ hRank
    simp only [hEnds]
    rw [card_peers, Listing.card_endsAt _ _ hPlace,
      Blake2Hash.card_bytes, Blake2Hash.card_endsRank]
  last := by
    simp only [distanceRank_eq_top_iff]
    rw [Nat.card_eq_one_iff_exists]
    refine ⟨⟨owner, rfl⟩, ?_⟩
    intro peer
    exact Subtype.ext peer.2.symm
  early := by
    intro place hPlace
    have hBlank : ∀ peer : PeerId,
        (owner.distanceRank peer < 8 * place + 7 ∨
            peer = owner) ↔
          Listing.BlankFrom 0 (place + 1)
            (owner.hash.bitxor peer.hash).bytes := by
      intro peer
      rw [← Blake2Hash.leadingZeros_lt_iff_blankFrom,
        ← Blake2Hash.countP_eq_zero_iff, countP_bitxor,
        differingBytes_eq_zero_iff, eq_comm (a := peer)]
      rfl
    simp only [hBlank]
    rw [card_peers, Listing.card_blankFrom _ hPlace,
      Blake2Hash.card_bytes]

end PeerId

end WorldDat
