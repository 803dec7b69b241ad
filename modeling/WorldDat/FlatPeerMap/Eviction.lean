import WorldDat.FlatPeerMap.Packed

/-
  Whom a full bucket evicts.

  The line that would advance `next_eviction` is commented
  out, so every peer that is new to a full bucket takes the
  first slot, from whoever took it last.

  Main declarations:
    * `FlatPeerMap.Supersedes`
    * `FlatPeerMap.contactsAt_putAll_of_full`
    * `FlatPeerMap.evicts_older_iff`
-/

------------------------------------------------------------
-- Full Buckets
------------------------------------------------------------

namespace WorldDat

open Rust

namespace FlatPeerMap

/-
  Of all peers that are new to a full bucket the last one
  stays, in the first slot.
-/
theorem contactsAt_putAll_of_full
    {self : FlatPeerMap}
    (hPacked : self.Packed)
    {rank : Nat}
    {first : Contact}
    {rest newcomers : List Contact}
    (hBucket : self.contactsAt rank = first :: rest)
    (hFull : (first :: rest).length = self.bucketSize)
    (hRanked : ∀ newPeer ∈ newcomers,
      self.peerId.distanceRank newPeer.peerId = rank)
    (hNodup : (newcomers.map Contact.peerId).Nodup)
    (hUnknown : ∀ newPeer ∈ newcomers,
      newPeer.peerId ∉
        (first :: rest).map Contact.peerId) :
    (self.putAll newcomers).contactsAt rank =
      newcomers.getLastD first :: rest := by
  induction newcomers generalizing self first with
  | nil => exact hBucket
  | cons newPeer newcomers ih =>
      have hRank := hRanked newPeer List.mem_cons_self
      have hNew := hUnknown newPeer List.mem_cons_self
      have hNext :
          (self.put newPeer).contactsAt rank =
            newPeer :: rest := by
        rw [contactsAt_put hPacked, if_pos hRank.symm,
          hBucket]
        exact enlist_of_full hFull hNew
      rw [List.map_cons, List.nodup_cons] at hNodup
      rw [List.getLastD_cons]
      apply ih (hPacked.put newPeer) hNext
      · rw [List.length_cons] at hFull ⊢
        exact hFull
      · intro later hLater
        apply hRanked
        exact List.mem_cons_of_mem newPeer hLater
      · exact hNodup.2
      · intro later hLater hKnown
        rw [List.map_cons, List.mem_cons] at hKnown
        rcases hKnown with hSame | hRest
        · apply hNodup.1
          rw [← hSame]
          exact List.mem_map_of_mem hLater
        · apply hUnknown later
          · exact List.mem_cons_of_mem newPeer hLater
          · rw [List.map_cons, List.mem_cons]
            exact Or.inr hRest

end FlatPeerMap

end WorldDat

------------------------------------------------------------
-- Round Robin
------------------------------------------------------------

namespace WorldDat

open Rust

namespace FlatPeerMap

/-
  A bucket is full, and as many different peers as it holds
  are of its rank and new to it.
-/
structure Supersedes
    (map : FlatPeerMap)
    (rank : Nat)
    (newcomers : List Contact) : Prop where
  full : (map.contactsAt rank).length = map.bucketSize
  length_newcomers : newcomers.length = map.bucketSize
  nodup : (newcomers.map Contact.peerId).Nodup
  ranked : ∀ newPeer ∈ newcomers,
    map.peerId.distanceRank newPeer.peerId = rank
  unknown : ∀ newPeer ∈ newcomers,
    newPeer.peerId ∉
      (map.contactsAt rank).map Contact.peerId

/- A full bucket takes the last newcomer and no other. -/
theorem Supersedes.contactsAt_putAll
    {map : FlatPeerMap}
    {rank : Nat}
    {newcomers : List Contact}
    (hSupersedes : map.Supersedes rank newcomers)
    (hPacked : map.Packed) :
    ∃ first rest,
      map.contactsAt rank = first :: rest ∧
        (map.putAll newcomers).contactsAt rank =
          newcomers.getLastD first :: rest := by
  have hFull := hSupersedes.full
  have hUnknown := hSupersedes.unknown
  cases hBucket : map.contactsAt rank with
  | nil =>
      rw [hBucket, List.length_nil] at hFull
      exact
        absurd hPacked.bucketSize_pos
          (Nat.not_lt.mpr (Nat.le_of_eq hFull.symm))
  | cons first rest =>
      rw [hBucket] at hFull hUnknown
      refine ⟨first, rest, rfl, ?_⟩
      exact
        contactsAt_putAll_of_full hPacked hBucket hFull
          hSupersedes.ranked hSupersedes.nodup hUnknown

/-
  Newcomers that fill a bucket leave nobody else in it
  exactly when the bucket has a single slot.
-/
theorem evicts_older_iff
    (owner : PeerId)
    {size : Nat}
    (hSize : 1 ≤ size)
    (inserts : List Contact)
    {map : FlatPeerMap}
    (hMap : (new owner size).insertAll inserts = .ok map)
    {rank : Nat}
    {newcomers : List Contact}
    (hSupersedes : map.Supersedes rank newcomers) :
    ∃ after,
      map.insertAll newcomers = .ok after ∧
        ((∀ contact, contact ∈ after.contactsAt rank ↔
            contact ∈ newcomers) ↔
          size = 1) := by
  have hPacked := packed_of_insertAll hSize hMap
  have hBucketSize : map.bucketSize = size :=
    bucketSize_insertAll hMap
  have hFull := hSupersedes.full
  have hLength := hSupersedes.length_newcomers
  rcases hSupersedes.contactsAt_putAll hPacked with
    ⟨first, rest, hBucket, hAfter⟩
  rw [hBucket, hBucketSize, List.length_cons] at hFull
  rw [hBucketSize] at hLength
  refine ⟨_, insertAll_eq_ok hPacked newcomers, ?_⟩
  rw [hAfter]
  constructor
  · intro hSame
    cases rest with
    | nil => exact hFull.symm
    | cons second rest =>
        -- the second slot still holds an older peer
        have hSecond : second ∈ newcomers := by
          rw [← hSame]
          simp
        have hUnknown :=
          hSupersedes.unknown second hSecond
        rw [hBucket] at hUnknown
        simp at hUnknown
  · intro hOne contact
    rw [hOne] at hFull hLength
    have hRest : rest = [] := by
      apply List.eq_nil_of_length_eq_zero
      omega
    rcases List.length_eq_one_iff.mp hLength with
      ⟨newPeer, hNewcomers⟩
    rw [hRest, hNewcomers]
    rfl

/- Two peers that fill a bucket of two slots. -/
def elders : List Contact :=
  [ { peerId := PeerId.repeating 252
      address := .v4 0x0A000004 4433 }
  , { peerId := PeerId.repeating 253
      address := .v4 0x0A000005 4433 } ]

/- The rivals fill the same bucket. -/
theorem supersedes_rivals :
    ((new zeroOwner 2).putAll elders).Supersedes 247
      rivals where
  full := by decide +kernel
  length_newcomers := by decide +kernel
  nodup := by decide +kernel
  ranked := by decide +kernel
  unknown := by decide +kernel

theorem evicts_older_iff_rivals :
    ∃ after,
      ((new zeroOwner 2).putAll elders).insertAll rivals =
          .ok after ∧
        ((∀ contact, contact ∈ after.contactsAt 247 ↔
            contact ∈ rivals) ↔
          2 = 1) := by
  have hSize : 1 ≤ 2 := by decide
  have hNew := packed_new zeroOwner hSize
  exact
    evicts_older_iff zeroOwner hSize elders
      (insertAll_eq_ok hNew elders) supersedes_rivals

/- An elder survives as many rivals as the bucket holds. -/
theorem elder_survives_rivals :
    ¬ ∀ (owner : PeerId)
        (size : Nat)
        (inserts newcomers : List Contact)
        (map after : FlatPeerMap)
        (rank : Nat),
      1 ≤ size →
        (new owner size).insertAll inserts = .ok map →
          map.Supersedes rank newcomers →
            map.insertAll newcomers = .ok after →
              ∀ contact, contact ∈ after.contactsAt rank ↔
                contact ∈ newcomers := by
  intro hClaim
  have hSize : 1 ≤ 2 := by decide
  have hNew := packed_new zeroOwner hSize
  have hPacked := hNew.putAll elders
  have hSame :=
    hClaim zeroOwner 2 elders rivals _ _ 247 hSize
      (insertAll_eq_ok hNew elders) supersedes_rivals
      (insertAll_eq_ok hPacked rivals)
      { peerId := PeerId.repeating 253
        address := .v4 0x0A000005 4433 }
  exact absurd (hSame.mp (by decide +kernel)) (by decide)

end FlatPeerMap

end WorldDat
