import Mathlib.Algebra.BigOperators.Group.Finset.Basic
import WorldDat.FlatPeerMap.Coverage

/-
  How close the contacts are that the flat routing table
  returns.

  The buckets file contacts by their distance to the owner,
  the search reads them by their ring distance from the
  bucket of the needle, and a bucket that is read in part
  gives the contacts in its first slots.  None of that
  compares a contact with the needle.

  Main declarations:
    * `FlatPeerMap.share`
    * `FlatPeerMap.mem_found_iff_share`
    * `FlatPeerMap.SharesClosest`
    * `FlatPeerMap.findClosestPeers_nearest_iff`
-/

------------------------------------------------------------
-- Shares Of The Buckets
------------------------------------------------------------

namespace WorldDat

namespace FlatPeerMap

variable {self : FlatPeerMap}

/- The number of contacts in the buckets read before one. -/
def searchOffset
    (self : FlatPeerMap)
    (targetBucket rank : Nat) : Nat :=
  ∑ other ∈ Finset.range Blake2Hash.maxPower with
      ReadBefore targetBucket other rank,
    (self.contactsAt other).length

/- How many contacts of a bucket the search has room for. -/
def share
    (self : FlatPeerMap)
    (count targetBucket rank : Nat) : Nat :=
  count - self.searchOffset targetBucket rank

/- What is collected before a bucket is read. -/
theorem length_collected_filter
    (self : FlatPeerMap)
    {targetBucket : Nat}
    (hTarget : targetBucket < Blake2Hash.maxPower)
    (rank : Nat) :
    (Listing.collected self.contactsAt
      ((firstReadings targetBucket).filter fun other =>
        ReadBefore targetBucket other rank)).length =
      self.searchOffset targetBucket rank := by
  have hNodup := nodup_firstReadings targetBucket
  have hSame :
      ((firstReadings targetBucket).filter fun other =>
          ReadBefore targetBucket other rank).toFinset =
        (Finset.range Blake2Hash.maxPower).filter fun other =>
          ReadBefore targetBucket other rank := by
    ext other
    rw [List.mem_toFinset, List.mem_filter,
      mem_firstReadings_iff hTarget, Finset.mem_filter,
      Finset.mem_range, decide_eq_true_eq]
  unfold Listing.collected searchOffset
  rw [List.length_flatMap, ← hSame,
    List.sum_toFinset _ (hNodup.filter _)]

/- No two buckets hold the same contact. -/
theorem Packed.separate_contactsAt
    (hPacked : self.Packed) :
    Listing.Separate self.contactsAt where
  nodup := by
    intro rank
    exact (hPacked.separate.nodup rank).of_map _
  apart := by
    intro i j contact hLeft hRight
    rw [← hPacked.rank_eq i contact hLeft,
      hPacked.rank_eq j contact hRight]

/- A contact is found in the share of its bucket. -/
theorem mem_found_iff_share
    (hPacked : self.Packed)
    (count : Nat)
    {targetBucket : Nat}
    (hTarget : targetBucket < Blake2Hash.maxPower)
    (contact : Contact) :
    contact ∈ self.found count targetBucket ↔
      ∃ rank, contact ∈
        (self.contactsAt rank).take
          (self.share count targetBucket rank) := by
  rw [mem_found_iff hPacked count hTarget,
    Listing.mem_take_collected_iff
      (fun _ _ => ReadBefore.asymm)
      (pairwise_firstReadings hTarget)]
  constructor
  · intro hFound
    rcases hFound with ⟨rank, _, hTake⟩
    rw [self.length_collected_filter hTarget] at hTake
    exact ⟨rank, hTake⟩
  · intro hShare
    rcases hShare with ⟨rank, hTake⟩
    refine ⟨rank, ?_, ?_⟩
    · have hContact := List.mem_of_mem_take hTake
      rw [mem_firstReadings_iff hTarget,
        ← hPacked.rank_eq rank contact hContact]
      exact self.peerId.distanceRank_lt contact.peerId
    · rw [self.length_collected_filter hTarget]
      exact hTake

/- A stored contact is not found beyond that share. -/
theorem not_found_iff
    (hPacked : self.Packed)
    (count : Nat)
    {targetBucket : Nat}
    (hTarget : targetBucket < Blake2Hash.maxPower)
    (contact : Contact) :
    some contact ∈ self.contacts ∧
        contact ∉ self.found count targetBucket ↔
      ∃ rank, contact ∈
        (self.contactsAt rank).drop
          (self.share count targetBucket rank) := by
  rw [mem_contacts_iff hPacked,
    mem_found_iff_share hPacked count hTarget]
  exact
    Listing.not_shared_iff hPacked.separate_contactsAt
      (self.share count targetBucket) contact

end FlatPeerMap

end WorldDat

------------------------------------------------------------
-- The Closest Contacts
------------------------------------------------------------

namespace WorldDat

open Rust

namespace FlatPeerMap

variable {self : FlatPeerMap}

/-
  Each contact returned is closer to the needle than each
  stored contact that is not.
-/
def ReturnsClosest
    (self : FlatPeerMap)
    (needle : PeerId)
    (results : List Contact) : Prop :=
  ∀ near ∈ results,
    ∀ far, some far ∈ self.contacts →
      far ∉ results →
        near.peerId.distance needle <
          far.peerId.distance needle

/-
  The contacts in the shares of the buckets are closer to the
  needle than those beyond them.
-/
def SharesClosest
    (self : FlatPeerMap)
    (needle : PeerId)
    (count : Nat) : Prop :=
  let targetBucket := self.peerId.distanceRank needle
  ∀ rank rank',
    ∀ near ∈
      (self.contactsAt rank).take
        (self.share count targetBucket rank),
    ∀ far ∈
      (self.contactsAt rank').drop
        (self.share count targetBucket rank'),
      near.peerId.distance needle <
        far.peerId.distance needle

/- What is found is closest when the shares are. -/
theorem found_closest_iff
    (hPacked : self.Packed)
    (needle : PeerId)
    (count : Nat) :
    self.ReturnsClosest needle
        (self.found count
          (self.peerId.distanceRank needle)) ↔
      self.SharesClosest needle count := by
  have hTarget := self.peerId.distanceRank_lt needle
  exact
    Listing.forall_shared_iff
      (mem_found_iff_share hPacked count hTarget)
      (not_found_iff hPacked count hTarget)

/-
  In every map built by inserts, the search returns the
  closest contacts exactly when the shares that it takes of
  the buckets hold them.
-/
theorem findClosestPeers_nearest_iff
    (owner : PeerId)
    {size : Nat}
    (hSize : 1 ≤ size)
    (inserts : List Contact)
    {map : FlatPeerMap}
    (hMap : (new owner size).insertAll inserts = .ok map)
    (needle : PeerId)
    {count : Nat}
    (hCount : count ≤ map.contacts.length) :
    ∃ results,
      map.findClosestPeers needle count = .ok results ∧
        (map.ReturnsClosest needle results ↔
          map.SharesClosest needle count) := by
  have hPacked := packed_of_insertAll hSize hMap
  exact
    ⟨_, findClosestPeers_eq_ok hPacked needle hCount,
      found_closest_iff hPacked needle count⟩

theorem findClosestPeers_nearest_iff_rivals :
    ∃ results,
      ((new zeroOwner 2).putAll rivals).findClosestPeers
          zeroOwner 1 = .ok results ∧
        (((new zeroOwner 2).putAll rivals).ReturnsClosest
            zeroOwner results ↔
          ((new zeroOwner 2).putAll rivals).SharesClosest
            zeroOwner 1) := by
  have hSize : 1 ≤ 2 := by decide
  have hNew := packed_new zeroOwner hSize
  exact
    findClosestPeers_nearest_iff zeroOwner hSize rivals
      (insertAll_eq_ok hNew rivals) zeroOwner
      (by decide +kernel)

/- The farther one of two stored contacts may be returned. -/
theorem findClosestPeers_leaves_out_nearest :
    ¬ ∀ (owner : PeerId)
        (size : Nat)
        (inserts : List Contact)
        (map : FlatPeerMap)
        (needle : PeerId)
        (count : Nat)
        (results : List Contact),
      1 ≤ size →
        (new owner size).insertAll inserts = .ok map →
          count ≤ map.contacts.length →
            map.findClosestPeers needle count =
                .ok results →
              map.ReturnsClosest needle results := by
  intro hClaim
  let near : Contact :=
    { peerId :=
        PeerId.raw (0xFF :: 2 :: List.replicate 30 0) rfl
      address := .v4 0x0A000002 4433 }
  let far : Contact :=
    { peerId :=
        PeerId.raw (0 :: 1 :: List.replicate 30 0) rfl
      address := .v4 0x0A000003 4433 }
  let needle :=
    PeerId.raw (0xFF :: 1 :: List.replicate 30 0) rfl
  have hSize : 1 ≤ 1 := by decide
  have hNew := packed_new zeroOwner hSize
  have hPacked := hNew.putAll [near, far]
  have hCount :
      1 ≤ ((new zeroOwner 1).putAll
        [near, far]).contacts.length := by
    decide +kernel
  have hClosest :=
    hClaim zeroOwner 1 [near, far] _ needle 1 _ hSize
      (insertAll_eq_ok hNew [near, far]) hCount
      (findClosestPeers_eq_ok hPacked needle hCount)
      far (by decide +kernel) near (by decide +kernel)
      (by decide +kernel)
  exact absurd hClosest (by decide +kernel)

end FlatPeerMap

end WorldDat
