import WorldDat.FlatPeerMap.Search

/-
  How the widening search of the flat routing table covers
  the ring of its buckets.

  The buckets are first read in the order of their ring
  distance from the bucket of the needle.  What is read again
  after that adds no other contact.

  Main declarations:
    * `FlatPeerMap.ReadBefore`
    * `FlatPeerMap.mem_found_iff`
    * `FlatPeerMap.CoversRing`
    * `FlatPeerMap.findClosestPeers_coversRing`
-/

------------------------------------------------------------
-- The Order Of The First Readings
------------------------------------------------------------

namespace WorldDat

open Rust

namespace FlatPeerMap

variable {self : FlatPeerMap}

/- A bucket is read before another. -/
def ReadBefore (targetBucket rank rank' : Nat) : Prop :=
  Ring.Sooner Blake2Hash.maxPower
    (Ring.steps Blake2Hash.maxPower targetBucket rank)
    (Ring.steps Blake2Hash.maxPower targetBucket rank')

instance decidableReadBefore
    (targetBucket : Nat) :
    DecidableRel (ReadBefore targetBucket) :=
  fun _ _ => inferInstanceAs (Decidable (Ring.Sooner _ _ _))

theorem ReadBefore.asymm
    {targetBucket rank rank' : Nat}
    (hBefore : ReadBefore targetBucket rank rank') :
    ¬ ReadBefore targetBucket rank' rank :=
  Ring.Sooner.asymm hBefore

/- The order is by ring distance in the first place. -/
theorem ReadBefore.gap_le
    {targetBucket rank rank' : Nat}
    (hBefore : ReadBefore targetBucket rank rank') :
    Ring.gap Blake2Hash.maxPower targetBucket rank ≤
      Ring.gap Blake2Hash.maxPower targetBucket rank' :=
  Ring.Sooner.reach_le hBefore

/- The buckets are first read in that order. -/
theorem pairwise_firstReadings
    {targetBucket : Nat}
    (hTarget : targetBucket < Blake2Hash.maxPower) :
    (firstReadings targetBucket).Pairwise
      (ReadBefore targetBucket) := by
  have hPower : Blake2Hash.maxPower = 2 * 128 := rfl
  have hHalf : 1 ≤ 128 := by decide
  have hOnce : (Ring.once 128).Pairwise
      (Ring.Sooner Blake2Hash.maxPower) :=
    Ring.pairwise_once hHalf
  unfold firstReadings
  rw [List.pairwise_map]
  apply hOnce.imp_of_mem
  intro offset offset' hMem hMem' hSooner
  rw [Ring.mem_once_iff hHalf, ← hPower] at hMem hMem'
  unfold ReadBefore
  rw [Ring.steps_turn hTarget hMem,
    Ring.steps_turn hTarget hMem']
  exact hSooner

/- The first readings collect what is stored. -/
theorem mem_collected_firstReadings_iff
    (hPacked : self.Packed)
    {targetBucket : Nat}
    (hTarget : targetBucket < Blake2Hash.maxPower)
    (contact : Contact) :
    contact ∈
        Listing.collected self.contactsAt
          (firstReadings targetBucket) ↔
      some contact ∈ self.contacts := by
  rw [Listing.mem_collected_iff, mem_contacts_iff hPacked]
  constructor
  · intro hRead
    rcases hRead with ⟨rank, _, hContact⟩
    exact ⟨rank, hContact⟩
  · intro hStored
    rcases hStored with ⟨rank, hContact⟩
    have hId : contact.peerId ∈ self.idsAt rank :=
      List.mem_map_of_mem hContact
    refine ⟨rank, ?_, hContact⟩
    rw [mem_firstReadings_iff hTarget]
    exact (rank_of_mem_idsAt hPacked hId).1

/-
  The contacts that are found are those that the first
  readings collect before there are enough.
-/
theorem mem_found_iff
    (hPacked : self.Packed)
    (count : Nat)
    {targetBucket : Nat}
    (hTarget : targetBucket < Blake2Hash.maxPower)
    (contact : Contact) :
    contact ∈ self.found count targetBucket ↔
      contact ∈
        (Listing.collected self.contactsAt
          (firstReadings targetBucket)).take count := by
  rw [self.found_eq_take count hTarget, readings_eq_append,
    Listing.collected_append]
  apply Listing.mem_take_append_of_subset
  intro other hAgain
  rw [mem_collected_firstReadings_iff hPacked hTarget,
    mem_contacts_iff hPacked]
  rcases (Listing.mem_collected_iff _ _ _).mp hAgain with
    ⟨rank, _, hContact⟩
  exact ⟨rank, hContact⟩

end FlatPeerMap

end WorldDat

------------------------------------------------------------
-- Covering The Ring
------------------------------------------------------------

namespace WorldDat

open Rust

namespace FlatPeerMap

variable {self : FlatPeerMap}

/-
  What a search returns: stored contacts, all of them if so
  many are asked for, and else as many as are asked for, from
  buckets that are not farther around the ring than those of
  the contacts left out.
-/
structure CoversRing
    (map : FlatPeerMap)
    (needle : PeerId)
    (count : Nat)
    (results : List Contact) : Prop where
  stored : ∀ contact ∈ results,
    some contact ∈ map.contacts
  complete : map.count ≤ count →
    ∀ contact, some contact ∈ map.contacts →
      contact ∈ results
  length_eq : count ≤ map.count → results.length = count
  nodup : count ≤ map.count →
    (results.map Contact.peerId).Nodup
  nearest : count ≤ map.count →
    ∀ rank rank' near far,
      near ∈ results → near ∈ map.contactsAt rank →
        far ∉ results → far ∈ map.contactsAt rank' →
          Ring.gap Blake2Hash.maxPower
              (map.peerId.distanceRank needle) rank ≤
            Ring.gap Blake2Hash.maxPower
              (map.peerId.distanceRank needle) rank'

/- The first readings collect buckets in their order. -/
theorem pairwise_collected_firstReadings
    (hPacked : self.Packed)
    {targetBucket : Nat}
    (hTarget : targetBucket < Blake2Hash.maxPower) :
    (Listing.collected self.contactsAt
        (firstReadings targetBucket)).Pairwise
      fun near far =>
        Ring.gap Blake2Hash.maxPower targetBucket
            (self.peerId.distanceRank near.peerId) ≤
          Ring.gap Blake2Hash.maxPower targetBucket
            (self.peerId.distanceRank far.peerId) := by
  have hRank := hPacked.rank_eq
  apply Listing.pairwise_collected
    (pairwise_firstReadings hTarget)
  · intro rank
    apply List.pairwise_of_forall_mem_list
    intro near hNear far hFar
    rw [hRank rank near hNear, hRank rank far hFar]
  · intro rank rank' hBefore near hNear far hFar
    rw [hRank rank near hNear, hRank rank' far hFar]
    exact hBefore.gap_le

/- What is found covers the ring. -/
theorem coversRing_found
    (hPacked : self.Packed)
    (needle : PeerId)
    (count : Nat) :
    self.CoversRing needle count
      (self.found count
        (self.peerId.distanceRank needle)) := by
  have hTarget := self.peerId.distanceRank_lt needle
  have hFound := mem_found_iff hPacked count hTarget
  have hStored :=
    mem_collected_firstReadings_iff hPacked hTarget
  have hLength :
      (Listing.collected self.contactsAt
        (firstReadings
          (self.peerId.distanceRank needle))).length =
        self.count :=
    length_collected_firstReadings hPacked hTarget
  have hRank := hPacked.rank_eq
  constructor
  case stored =>
    intro contact hContact
    rw [hFound] at hContact
    exact (hStored contact).mp (List.mem_of_mem_take hContact)
  case complete =>
    intro hAll contact hContact
    rw [hFound, List.take_of_length_le (by omega)]
    exact (hStored contact).mpr hContact
  case length_eq =>
    intro hCount
    rw [self.found_eq_take count hTarget,
      readings_eq_append, Listing.collected_append,
      List.take_append_of_le_length (by omega),
      List.length_take]
    omega
  case nodup =>
    intro hCount
    exact
      ((namesOnce_found_iff hPacked count hTarget).mpr
        (Or.inl hCount)).nodup
  case nearest =>
    intro hCount rank rank' near far hNear hAt hFar hAt'
    rw [hFound] at hNear hFar
    rw [← hRank rank near hAt, ← hRank rank' far hAt']
    apply Listing.rel_of_not_mem_take
      (pairwise_collected_firstReadings hPacked hTarget)
      hNear ?_ hFar
    rw [hStored, mem_contacts_iff hPacked]
    exact ⟨rank', hAt'⟩

end FlatPeerMap

end WorldDat
