import WorldDat.Digits.Order
import WorldDat.Neighborhood
import WorldDat.Rust.Panic

/-
  How hashes, peers and contacts are ordered (`hash.rs` and
  `types.rs`), and the metric that distances between peers
  make.

  Main declarations:
    * `Blake2Hash.newRaw` and `Blake2Hash.newRaw_eq_ok_iff`
    * `Blake2Hash.cmp`, `PeerId.cmp` and `Contact.cmp`
    * `Contact.OrderedById` and `Contact.orderedById`
    * `PeerId.Metric` and `PeerId.xor_metric`
-/

------------------------------------------------------------
-- Literal Hashes
------------------------------------------------------------

namespace WorldDat

open Rust

namespace Blake2Hash

/- What has been copied into an array fills it. -/
theorem length_copied
    {bytes out : List UInt8}
    (hCopy :
      copyFromSlice (List.replicate blake2HashSize 0) bytes =
        .ok out) :
    out.length = blake2HashSize := by
  rw [length_copyFromSlice hCopy]
  exact List.length_replicate

/- `new_raw`: the hash made of a literal byte string. -/
def newRaw (bytes : List UInt8) : Except Panic Blake2Hash :=
  if bytes.length = blake2HashSize then
    match hCopy :
        copyFromSlice (List.replicate blake2HashSize 0)
          bytes with
    | .ok out =>
        .ok
          { bytes := out
            length_bytes := length_copied hCopy }
    | .error reason => .error reason
  else
    .error .assertionFailed

/- Exactly the bytes of a hash make a hash again. -/
theorem newRaw_eq_ok_iff
    (bytes : List UInt8)
    (hash : Blake2Hash) :
    newRaw bytes = .ok hash ↔ bytes = hash.bytes := by
  unfold newRaw
  by_cases hLength : bytes.length = blake2HashSize
  · rw [if_pos hLength]
    have hSource :
        copyFromSlice (List.replicate blake2HashSize 0)
            bytes =
          .ok bytes := by
      unfold copyFromSlice
      rw [List.length_replicate, if_pos hLength]
    split
    · rename_i out hCopy
      rw [hSource, Except.ok.injEq] at hCopy
      rw [Except.ok.injEq, Blake2Hash.ext_iff]
      constructor
      · intro hBytes
        exact hCopy.trans hBytes
      · intro hBytes
        exact hCopy.symm.trans hBytes
    · rename_i reason hCopy
      rw [hSource] at hCopy
      cases hCopy
  · rw [if_neg hLength]
    apply iff_of_false
    · intro hHash
      cases hHash
    · intro hBytes
      apply hLength
      rw [hBytes]
      exact hash.length_bytes

/- A byte string of any other length fails the assertion. -/
theorem newRaw_of_length_ne
    {bytes : List UInt8}
    (hLength : bytes.length ≠ blake2HashSize) :
    newRaw bytes = .error .assertionFailed := by
  unfold newRaw
  rw [if_neg hLength]

end Blake2Hash

end WorldDat

------------------------------------------------------------
-- Orders
------------------------------------------------------------

namespace WorldDat

namespace Blake2Hash

/- `PartialEq`: the slices are compared. -/
def eq (self other : Blake2Hash) : Bool :=
  self.bytes == other.bytes

/- `Ord`: slices are compared lexicographically. -/
def cmp (self other : Blake2Hash) : Ordering :=
  List.compareLex compare self.bytes other.bytes

def partialCmp
    (self other : Blake2Hash) : Option Ordering :=
  some (self.cmp other)

theorem eq_iff (a b : Blake2Hash) :
    a.eq b = true ↔ a = b := by
  unfold eq
  rw [beq_iff_eq, Blake2Hash.ext_iff]

theorem length_eq (a b : Blake2Hash) :
    a.bytes.length = b.bytes.length :=
  a.length_bytes.trans b.length_bytes.symm

/- Hashes are ordered as the numbers that they are. -/
theorem cmp_eq_compare (a b : Blake2Hash) :
    a.cmp b = compare a.toNat b.toNat :=
  BigEndian.compareLex_eq_compare_value (length_eq a b)

theorem toNat_inj
    {a b : Blake2Hash}
    (hNumber : a.toNat = b.toNat) :
    a = b := by
  ext1
  exact BigEndian.value_inj (length_eq a b) hNumber

theorem cmp_eq_eq_iff (a b : Blake2Hash) :
    a.cmp b = .eq ↔ a = b := by
  rw [cmp_eq_compare, Nat.compare_eq_eq]
  constructor
  · exact toNat_inj
  · intro hSame
    rw [hSame]

end Blake2Hash

namespace PeerId

/- The slice of the hash. -/
def bytes (self : PeerId) : List UInt8 :=
  self.hash.bytes

/- The derived order. -/
def cmp (self other : PeerId) : Ordering :=
  self.hash.cmp other.hash

def partialCmp
    (self other : PeerId) : Option Ordering :=
  some (self.cmp other)

theorem cmp_eq_eq_iff (a b : PeerId) :
    a.cmp b = .eq ↔ a = b := by
  unfold cmp
  rw [Blake2Hash.cmp_eq_eq_iff]
  constructor
  · intro hHash
    cases a
    cases b
    cases hHash
    rfl
  · intro hSame
    rw [hSame]

end PeerId

namespace Contact

/- Contact info is ordered by `peer_id`. -/
def cmp (self other : Contact) : Ordering :=
  self.peerId.cmp other.peerId

def partialCmp
    (self other : Contact) : Option Ordering :=
  some (self.cmp other)

/-
  How two contacts are ordered: by the numbers that their ids
  are.  A peer that has moved counts as equal in the order
  and is unequal in the derived equality.
-/
structure OrderedById (a b : Contact) : Prop where
  numeric :
    a.cmp b =
      compare a.peerId.hash.toNat b.peerId.hash.toNat
  partial_eq : a.partialCmp b = some (a.cmp b)
  moved : a.cmp b = .eq ∧ a ≠ b ↔
    a.peerId = b.peerId ∧ a.address ≠ b.address

/- All contacts are ordered by their ids. -/
theorem orderedById (a b : Contact) : a.OrderedById b where
  numeric := a.peerId.hash.cmp_eq_compare b.peerId.hash
  partial_eq := rfl
  moved := by
    unfold cmp
    rw [PeerId.cmp_eq_eq_iff]
    constructor
    · intro hBoth
      rcases hBoth with ⟨hId, hNe⟩
      refine ⟨hId, ?_⟩
      intro hAddress
      apply hNe
      cases a
      cases b
      cases hId
      cases hAddress
      rfl
    · intro hBoth
      rcases hBoth with ⟨hId, hNe⟩
      refine ⟨hId, ?_⟩
      intro hSame
      apply hNe
      rw [hSame]

end Contact

end WorldDat

------------------------------------------------------------
-- Distances
------------------------------------------------------------

namespace WorldDat

namespace PeerId

theorem distance_eq_xor (a b : PeerId) :
    a.distance b = a.hash.toNat ^^^ b.hash.toNat :=
  BigEndian.value_zipWith_xor
    (Blake2Hash.length_eq a.hash b.hash)

/-
  The distances between three peers: those of a metric, in
  which a peer is the only one at its distance from another,
  and there is one at each distance.
-/
structure Metric (a b c : PeerId) : Prop where
  bounded : a.distance b < 2 ^ Blake2Hash.maxPower
  zero_iff : a.distance b = 0 ↔ a = b
  symm : a.distance b = b.distance a
  triangle : a.distance c ≤ a.distance b + b.distance c
  unique : a.distance b = a.distance c → b = c
  complete : ∃ d : PeerId, a.hash.bitxor d.hash = c.hash

/- The exclusive or of the ids is a metric. -/
theorem xor_metric (a b c : PeerId) : Metric a b c where
  bounded := by
    have hBound :=
      BigEndian.value_lt (a.hash.bitxor b.hash).bytes
    rw [(a.hash.bitxor b.hash).length_bytes] at hBound
    exact hBound
  zero_iff := by
    rw [distance_eq_xor, Nat.xor_eq_zero_iff]
    constructor
    · intro hNumber
      rw [← cmp_eq_eq_iff]
      exact
        (Blake2Hash.cmp_eq_eq_iff _ _).mpr
          (Blake2Hash.toNat_inj hNumber)
    · intro hSame
      rw [hSame]
  symm := by
    unfold distance
    rw [Blake2Hash.bitxor_comm]
  triangle := by
    rw [distance_eq_xor, distance_eq_xor, distance_eq_xor]
    exact BigEndian.xor_triangle _ _ _
  unique := by
    intro hDistance
    have hHash :
        a.hash.bitxor b.hash = a.hash.bitxor c.hash :=
      Blake2Hash.toNat_inj hDistance
    have hBack := congrArg a.hash.bitxor hHash
    rw [Blake2Hash.bitxor_bitxor_self,
      Blake2Hash.bitxor_bitxor_self] at hBack
    rw [← cmp_eq_eq_iff]
    exact (Blake2Hash.cmp_eq_eq_iff _ _).mpr hBack
  complete := by
    refine ⟨{ hash := a.hash.bitxor c.hash }, ?_⟩
    exact Blake2Hash.bitxor_bitxor_self a.hash c.hash

end PeerId

end WorldDat
