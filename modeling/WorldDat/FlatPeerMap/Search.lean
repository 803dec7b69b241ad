import WorldDat.FlatPeerMap.Packed
import WorldDat.Listing.Outward
import WorldDat.Listing.Readings

/-
  The widening search of the flat routing table (`types.rs`,
  `FlatPeerMap::find_closest_peers` and `lookup`).

  The search steps outward around the ring of all buckets,
  for up to 255 widths.  After 128 of them every bucket has
  been collected once, and all but the first are collected
  again.

  Main declarations:
    * `FlatPeerMap.findClosestPeers` and `lookup`
    * `FlatPeerMap.findClosestPeers_eq_ok`
    * `FlatPeerMap.readings_eq_append`
    * `FlatPeerMap.ids_found`
    * `FlatPeerMap.findClosestPeers_namesOnce_iff`
-/

------------------------------------------------------------
-- Wrapping Arithmetic
------------------------------------------------------------

namespace Rust

/- The number of values of a `usize`. -/
def usizeModulus : Nat := 2 ^ 64

/- `usize::wrapping_add`. -/
def wrappingAdd (a b : Nat) : Nat :=
  (a + b) % usizeModulus

/- `usize::wrapping_sub`, for values of a `usize`. -/
def wrappingSub (a b : Nat) : Nat :=
  (a + usizeModulus - b) % usizeModulus

end Rust

------------------------------------------------------------
-- Searching
------------------------------------------------------------

namespace WorldDat

open Rust

namespace FlatPeerMap

/- The slice of the bucket at an index. -/
def bucketSlice
    (self : FlatPeerMap)
    (target : Nat) :
    Except Panic (List (Option Contact)) :=
  let bucketStart := target * self.bucketSize
  let bucketEnd := bucketStart + self.bucketSize
  slice self.contacts bucketStart bucketEnd

/-
  The loop of `find_closest_peers`.  `fuel` bounds the passes
  that remain; `maxPower` of them are enough, since each pass
  widens the search by one.
-/
def searchLoop
    (self : FlatPeerMap)
    (count targetBucket : Nat) :
    (fuel searchWidth : Nat) →
      List Contact → Except Panic (List Contact)
| 0, _, results => .ok results
| fuel + 1, searchWidth, results =>
    if results.length < count ∧
        searchWidth < Blake2Hash.maxPower then do
      -- Add bucket ahead of target
      let bucket ← self.bucketSlice
        (wrappingAdd targetBucket searchWidth %
          Blake2Hash.maxPower)
      let results := results ++ bucket.filterMap id
      -- Add bucket behind target
      let bucket ← self.bucketSlice
        (wrappingSub targetBucket searchWidth %
          Blake2Hash.maxPower)
      let results := results ++ bucket.filterMap id
      searchLoop self count targetBucket fuel
        (searchWidth + 1) results
    else
      .ok results

/- The contacts that the search for a needle finds. -/
def findClosestPeers
    (self : FlatPeerMap)
    (needle : PeerId)
    (count : Nat) : Except Panic (List Contact) :=
  -- "Good luck with that buddy"
  if count ≤ self.contacts.length then do
    let bucket ← self.bucketFor needle
    let targetBucket := self.peerId.distanceRank needle
    let results ←
      self.searchLoop count targetBucket
        Blake2Hash.maxPower 1 (bucket.filterMap id)
    -- Trim our results down to the desired count
    return results.take count
  else
    .error .assertionFailed

/-
  Look up a peer.  The inner result is `ok` with its contact
  or `error` with the contacts found in its place.
-/
def lookup
    (self : FlatPeerMap)
    (peerId : PeerId) :
    Except Panic (Except (List Contact) Contact) := do
  match ← self.contains peerId with
  | some res => return .ok res
  | none =>
      return .error
        (← self.findClosestPeers peerId self.bucketSize)

end FlatPeerMap

end WorldDat

------------------------------------------------------------
-- Searches Without Panics
------------------------------------------------------------

namespace WorldDat

open Rust

namespace FlatPeerMap

/- The bucket ahead, by its offset on the ring. -/
theorem ahead_eq_turn
    (targetBucket searchWidth : Nat) :
    wrappingAdd targetBucket searchWidth %
        Blake2Hash.maxPower =
      Ring.turn Blake2Hash.maxPower targetBucket
        searchWidth := by
  have hPower : Blake2Hash.maxPower = 256 := rfl
  unfold wrappingAdd usizeModulus Ring.turn
  rw [hPower]
  omega

/- The bucket behind, by its offset on the ring. -/
theorem behind_eq_turn
    {targetBucket searchWidth : Nat}
    (hTarget : targetBucket < Blake2Hash.maxPower)
    (hWidth : searchWidth < Blake2Hash.maxPower) :
    wrappingSub targetBucket searchWidth %
        Blake2Hash.maxPower =
      Ring.turn Blake2Hash.maxPower targetBucket
        (Blake2Hash.maxPower - searchWidth) := by
  have hPower : Blake2Hash.maxPower = 256 := rfl
  unfold wrappingSub usizeModulus Ring.turn
  rw [hPower] at hTarget hWidth ⊢
  omega

/- What a pass of the search adds. -/
def searchPass
    (self : FlatPeerMap)
    (targetBucket searchWidth : Nat) : List Contact :=
  Listing.collected self.contactsAt
    ((Ring.bothWays Blake2Hash.maxPower searchWidth).map
      (Ring.turn Blake2Hash.maxPower targetBucket))

/- The contacts found when the search starts from a bucket. -/
def found
    (self : FlatPeerMap)
    (count targetBucket : Nat) : List Contact :=
  (Listing.before (self.contactsAt targetBucket)
    (self.searchPass targetBucket)
    Blake2Hash.maxPower).take count

variable {self : FlatPeerMap}

/- Reading a bucket by its index gives its slots. -/
theorem bucketSlice_eq_ok
    (hPacked : self.Packed)
    {target : Nat}
    (hTarget : target < Blake2Hash.maxPower) :
    self.bucketSlice target =
      .ok (self.bucketAt target) := by
  unfold bucketSlice
  rw [slice_of_le (Nat.le_add_right _ _)
    (hPacked.fits hTarget), Nat.add_sub_cancel_left]
  rfl

/- The loop gathers what its passes add. -/
theorem searchLoop_eq_ok
    (hPacked : self.Packed)
    (count : Nat)
    {targetBucket : Nat}
    (hTarget : targetBucket < Blake2Hash.maxPower)
    (fuel searchWidth : Nat)
    (results : List Contact) :
    self.searchLoop count targetBucket fuel searchWidth
        results =
      .ok
        (Listing.gather (self.searchPass targetBucket) count
          Blake2Hash.maxPower fuel searchWidth
          results) := by
  induction fuel generalizing searchWidth results with
  | zero => rfl
  | succ fuel ih =>
      rw [searchLoop, Listing.gather]
      by_cases hMore :
          results.length < count ∧
            searchWidth < Blake2Hash.maxPower
      · have hAhead := ahead_eq_turn targetBucket searchWidth
        have hBehind := behind_eq_turn hTarget hMore.2
        have hInside : ∀ offset,
            Ring.turn Blake2Hash.maxPower targetBucket
                offset <
              Blake2Hash.maxPower := by
          intro offset
          exact Nat.mod_lt _ (by decide)
        have hPass :
            self.searchPass targetBucket searchWidth =
              self.contactsAt
                  (Ring.turn Blake2Hash.maxPower
                    targetBucket searchWidth) ++
                self.contactsAt
                  (Ring.turn Blake2Hash.maxPower
                    targetBucket
                    (Blake2Hash.maxPower -
                      searchWidth)) := by
          simp [searchPass, Listing.collected,
            Ring.bothWays]
        rw [if_pos hMore, if_pos hMore, hAhead, hBehind,
          bucketSlice_eq_ok hPacked (hInside _),
          bucketSlice_eq_ok hPacked (hInside _), hPass,
          ← List.append_assoc]
        exact ih (searchWidth + 1) _
      · rw [if_neg hMore, if_neg hMore]

/- The search never panics and returns what it found. -/
theorem findClosestPeers_eq_ok
    (hPacked : self.Packed)
    (needle : PeerId)
    {count : Nat}
    (hCount : count ≤ self.contacts.length) :
    self.findClosestPeers needle count =
      .ok
        (self.found count
          (self.peerId.distanceRank needle)) := by
  have hTake :=
    Listing.take_gather
      (self.contactsAt (self.peerId.distanceRank needle))
      (self.searchPass (self.peerId.distanceRank needle))
      count Blake2Hash.maxPower 1 (Nat.le_refl 1)
      (by decide) (Nat.le_add_left _ 1)
  rw [Listing.before_one] at hTake
  unfold findClosestPeers
  rw [if_pos hCount, bucketFor_eq_ok hPacked]
  simp only [bind, Except.bind, filterMap_pack, pure,
    Except.pure]
  rw [searchLoop_eq_ok hPacked count
    (self.peerId.distanceRank_lt needle)]
  simp only [hTake, found]

/- Looking up a peer never panics. -/
theorem lookup_eq_ok
    (hPacked : self.Packed)
    (peerId : PeerId) :
    self.lookup peerId =
      .ok
        (match (self.contactsAt
            (self.peerId.distanceRank peerId)).find?
              fun contact => contact.peerId = peerId with
        | some contact => .ok contact
        | none =>
            .error
              (self.found self.bucketSize
                (self.peerId.distanceRank peerId))) := by
  have hCount : self.bucketSize ≤ self.contacts.length := by
    have hFits := hPacked.fits
      (self.peerId.distanceRank_lt peerId)
    omega
  unfold lookup
  rw [contains_eq_ok hPacked,
    findClosestPeers_eq_ok hPacked peerId hCount]
  simp only [bind, Except.bind, pure, Except.pure]
  split
  · rfl
  · rfl

end FlatPeerMap

end WorldDat

------------------------------------------------------------
-- Readings Of The Search
------------------------------------------------------------

namespace WorldDat

open Rust

namespace FlatPeerMap

/- The ids in the bucket at a rank. -/
def idsAt
    (self : FlatPeerMap)
    (rank : Nat) : List PeerId :=
  (self.contactsAt rank).map Contact.peerId

/- The buckets that are read in a whole turn of the ring. -/
def readings
    (targetBucket : Nat) : List Nat :=
  (Ring.outward Blake2Hash.maxPower
      Blake2Hash.maxPower).map
    (Ring.turn Blake2Hash.maxPower targetBucket)

/- The buckets in the order in which they are first read. -/
def firstReadings (targetBucket : Nat) : List Nat :=
  (Ring.once 128).map
    (Ring.turn Blake2Hash.maxPower targetBucket)

/- The buckets that are read after that. -/
def laterReadings (targetBucket : Nat) : List Nat :=
  (Ring.again 128).map
    (Ring.turn Blake2Hash.maxPower targetBucket)

/- Both directions together read the ring twice. -/
theorem readings_eq_append (targetBucket : Nat) :
    readings targetBucket =
      firstReadings targetBucket ++
        laterReadings targetBucket := by
  have hHalf : 1 ≤ 128 := by decide
  have hTurns :
      Ring.outward Blake2Hash.maxPower Blake2Hash.maxPower =
        Ring.once 128 ++ Ring.again 128 :=
    Ring.outward_eq hHalf
  unfold readings firstReadings laterReadings
  rw [hTurns, List.map_append]

variable {self : FlatPeerMap}

/- The search keeps the first contacts that it reads. -/
theorem found_eq_take
    (self : FlatPeerMap)
    (count : Nat)
    {targetBucket : Nat}
    (hTarget : targetBucket < Blake2Hash.maxPower) :
    self.found count targetBucket =
      (Listing.collected self.contactsAt
        (readings targetBucket)).take count := by
  have hStart :
      Ring.turn Blake2Hash.maxPower targetBucket 0 =
        targetBucket :=
    Nat.mod_eq_of_lt hTarget
  unfold found readings Ring.outward searchPass
  rw [Listing.map_before, Listing.collected_before,
    List.map_singleton, hStart]
  simp [Listing.collected]

/- There are no contacts beyond the last bucket. -/
theorem contactsAt_of_le
    (hPacked : self.Packed)
    {rank : Nat}
    (hRank : Blake2Hash.maxPower ≤ rank) :
    self.contactsAt rank = [] := by
  have hBeyond :
      self.contacts.length ≤ rank * self.bucketSize := by
    rw [hPacked.length_contacts]
    exact Nat.mul_le_mul_right self.bucketSize hRank
  unfold contactsAt bucketAt Listing.block
  rw [List.drop_eq_nil_of_le hBeyond, List.take_nil]
  rfl

/- A bucket that holds an id is the bucket of its rank. -/
theorem rank_of_mem_idsAt
    (hPacked : self.Packed)
    {rank : Nat}
    {peerId : PeerId}
    (hId : peerId ∈ self.idsAt rank) :
    rank < Blake2Hash.maxPower ∧
      self.peerId.distanceRank peerId = rank := by
  rcases List.mem_map.mp hId with
    ⟨contact, hContact, hSame⟩
  have hRank : rank < Blake2Hash.maxPower := by
    by_contra hNot
    rw [contactsAt_of_le hPacked (Nat.le_of_not_lt hNot)]
      at hContact
    cases hContact
  refine ⟨hRank, ?_⟩
  rw [← hSame]
  exact hPacked.ranked rank hRank contact hContact

/- A bucket holds contacts of its rank only. -/
theorem Packed.rank_eq
    (hPacked : self.Packed)
    (rank : Nat)
    (contact : Contact)
    (hContact : contact ∈ self.contactsAt rank) :
    self.peerId.distanceRank contact.peerId = rank := by
  have hId : contact.peerId ∈ self.idsAt rank :=
    List.mem_map_of_mem hContact
  exact (rank_of_mem_idsAt hPacked hId).2

/- No two buckets hold the same peer. -/
theorem Packed.separate
    (hPacked : self.Packed) :
    Listing.Separate self.idsAt where
  nodup := by
    intro rank
    rcases Nat.lt_or_ge rank Blake2Hash.maxPower with
      hInside | hBeyond
    · exact hPacked.nodup rank hInside
    · rw [idsAt, contactsAt_of_le hPacked hBeyond]
      exact List.nodup_nil
  apart := by
    intro i j peerId hLeft hRight
    rw [← (rank_of_mem_idsAt hPacked hLeft).2,
      (rank_of_mem_idsAt hPacked hRight).2]

/- Every contact that is stored is in the bucket of its rank. -/
theorem mem_contacts_iff
    (hPacked : self.Packed)
    (contact : Contact) :
    some contact ∈ self.contacts ↔
      ∃ rank, contact ∈ self.contactsAt rank := by
  have hBlocks :=
    Listing.flatMap_block hPacked.length_contacts
  constructor
  · intro hStored
    rw [← hBlocks, List.mem_flatMap] at hStored
    rcases hStored with ⟨rank, _, hBlock⟩
    refine ⟨rank, ?_⟩
    unfold contactsAt bucketAt
    rw [List.mem_filterMap]
    exact ⟨some contact, hBlock, rfl⟩
  · intro hBucket
    rcases hBucket with ⟨rank, hContact⟩
    have hRank : rank < Blake2Hash.maxPower := by
      by_contra hNot
      rw [contactsAt_of_le hPacked (Nat.le_of_not_lt hNot)]
        at hContact
      cases hContact
    unfold contactsAt bucketAt at hContact
    rcases List.mem_filterMap.mp hContact with
      ⟨slot, hSlot, hSome⟩
    cases hSome
    rw [← hBlocks, List.mem_flatMap]
    exact ⟨rank, List.mem_range.mpr hRank, hSlot⟩

/- No bucket is read twice at first ... -/
theorem nodup_firstReadings (targetBucket : Nat) :
    (firstReadings targetBucket).Nodup := by
  have hPower : Blake2Hash.maxPower = 2 * 128 := rfl
  unfold firstReadings
  apply List.Nodup.map_on ?_ (Ring.nodup_once (by decide))
  intro offset hOffset offset' hOffset' hSame
  rw [Ring.mem_once_iff (by decide), ← hPower]
    at hOffset hOffset'
  exact Ring.turn_inj hOffset hOffset' hSame

/- ... and every bucket is read. -/
theorem mem_firstReadings_iff
    {targetBucket : Nat}
    (hTarget : targetBucket < Blake2Hash.maxPower)
    (rank : Nat) :
    rank ∈ firstReadings targetBucket ↔
      rank < Blake2Hash.maxPower := by
  have hPower : Blake2Hash.maxPower = 2 * 128 := rfl
  unfold firstReadings
  rw [List.mem_map]
  constructor
  · intro hRead
    rcases hRead with ⟨offset, _, hTurn⟩
    rw [← hTurn]
    exact Nat.mod_lt _ (by decide)
  · intro hRank
    rcases Ring.exists_turn_eq hTarget hRank with
      ⟨offset, hOffset, hTurn⟩
    refine ⟨offset, ?_, hTurn⟩
    rw [Ring.mem_once_iff (by decide), ← hPower]
    exact hOffset

/- The buckets that are first read are all there are. -/
theorem firstReadings_perm_range
    {targetBucket : Nat}
    (hTarget : targetBucket < Blake2Hash.maxPower) :
    (firstReadings targetBucket).Perm
      (List.range Blake2Hash.maxPower) := by
  rw [List.perm_ext_iff_of_nodup
    (nodup_firstReadings targetBucket) List.nodup_range]
  intro rank
  rw [mem_firstReadings_iff hTarget, List.mem_range]

/- The first readings collect every contact that is stored. -/
theorem length_collected_firstReadings
    (hPacked : self.Packed)
    {targetBucket : Nat}
    (hTarget : targetBucket < Blake2Hash.maxPower) :
    (Listing.collected self.contactsAt
        (firstReadings targetBucket)).length =
      self.count := by
  have hBlocks :=
    Listing.flatMap_block hPacked.length_contacts
  have hPerm :=
    (firstReadings_perm_range hTarget).flatMap_right
      self.contactsAt
  have hAll :
      (List.range Blake2Hash.maxPower).flatMap
          self.contactsAt =
        self.contacts.filterMap id := by
    calc
      (List.range Blake2Hash.maxPower).flatMap
            self.contactsAt =
          ((List.range Blake2Hash.maxPower).flatMap
            self.bucketAt).filterMap id := by
        rw [List.filterMap_flatMap]
        rfl
      _ = self.contacts.filterMap id :=
        congrArg (List.filterMap id) hBlocks
  unfold Listing.collected
  rw [hPerm.length_eq, hAll, hPacked.count_eq,
    List.length_filterMap_eq_countP]
  rfl

end FlatPeerMap

end WorldDat

------------------------------------------------------------
-- Naming Each Peer Once
------------------------------------------------------------

namespace WorldDat

open Rust

namespace FlatPeerMap

variable {self : FlatPeerMap}

/- Each peer is named once, so no more are than there are. -/
structure NamesOnce
    (map : FlatPeerMap)
    (results : List Contact) : Prop where
  nodup : (results.map Contact.peerId).Nodup
  length_le : results.length ≤ map.count

/- Every contact that is stored has the rank of the needle. -/
def AllRanked
    (self : FlatPeerMap)
    (rank : Nat) : Prop :=
  ∀ contact, some contact ∈ self.contacts →
    self.peerId.distanceRank contact.peerId = rank

/-
  Only the starting bucket is not read again, so reading on
  adds nothing just when all contacts are there.
-/
theorem collected_laterReadings_eq_nil_iff
    (hPacked : self.Packed)
    {targetBucket : Nat}
    (hTarget : targetBucket < Blake2Hash.maxPower) :
    Listing.collected self.idsAt
        (laterReadings targetBucket) = [] ↔
      self.AllRanked targetBucket := by
  have hPower : Blake2Hash.maxPower = 2 * 128 := rfl
  have hStart :
      Ring.turn Blake2Hash.maxPower targetBucket 0 =
        targetBucket :=
    Nat.mod_eq_of_lt hTarget
  rw [List.eq_nil_iff_forall_not_mem]
  constructor
  · intro hNobody contact hStored
    rcases (mem_contacts_iff hPacked contact).mp hStored with
      ⟨rank, hContact⟩
    have hId : contact.peerId ∈ self.idsAt rank :=
      List.mem_map_of_mem hContact
    rcases rank_of_mem_idsAt hPacked hId with
      ⟨hRank, hSame⟩
    rcases Ring.exists_turn_eq hTarget hRank with
      ⟨offset, hOffset, hTurn⟩
    rcases Nat.eq_zero_or_pos offset with hZero | hPositive
    · rw [hSame, ← hTurn, hZero, hStart]
    · have hAgain : offset ∈ Ring.again 128 := by
        rw [Ring.mem_again_iff (by decide), ← hPower]
        exact ⟨hPositive, hOffset⟩
      apply absurd _ (hNobody contact.peerId)
      rw [Listing.mem_collected_iff]
      refine ⟨rank, ?_, hId⟩
      rw [← hTurn]
      exact List.mem_map_of_mem hAgain
  · intro hAll peerId hAgain
    rw [Listing.mem_collected_iff] at hAgain
    rcases hAgain with ⟨rank, hRead, hId⟩
    rcases List.mem_map.mp hRead with
      ⟨offset, hOffset, hTurn⟩
    rw [Ring.mem_again_iff (by decide), ← hPower] at hOffset
    rcases List.mem_map.mp hId with
      ⟨contact, hContact, hSame⟩
    have hStored :=
      (mem_contacts_iff hPacked contact).mpr
        ⟨rank, hContact⟩
    have hRank := (rank_of_mem_idsAt hPacked hId).2
    rw [← hSame, hAll contact hStored, ← hStart,
      ← hTurn] at hRank
    have hOffsets :=
      Ring.turn_inj (by decide) hOffset.2 hRank
    omega

/- The ids found are the first that the readings collect. -/
theorem ids_found
    (self : FlatPeerMap)
    (count : Nat)
    {targetBucket : Nat}
    (hTarget : targetBucket < Blake2Hash.maxPower) :
    (self.found count targetBucket).map Contact.peerId =
      (Listing.collected self.idsAt
        (firstReadings targetBucket ++
          laterReadings targetBucket)).take count := by
  rw [self.found_eq_take count hTarget, readings_eq_append,
    List.map_take, Listing.map_collected]
  rfl

/- What the search finds names each peer once, or does not. -/
theorem namesOnce_found_iff
    (hPacked : self.Packed)
    (count : Nat)
    {targetBucket : Nat}
    (hTarget : targetBucket < Blake2Hash.maxPower) :
    self.NamesOnce (self.found count targetBucket) ↔
      count ≤ self.count ∨ self.AllRanked targetBucket := by
  have hSeparate := hPacked.separate
  have hOnce := nodup_firstReadings targetBucket
  have hRead : ∀ rank peerId, peerId ∈ self.idsAt rank →
      rank ∈ firstReadings targetBucket := by
    intro rank peerId hId
    rw [mem_firstReadings_iff hTarget]
    exact (rank_of_mem_idsAt hPacked hId).1
  have hLength :
      (Listing.collected self.idsAt
          (firstReadings targetBucket)).length =
        self.count := by
    rw [← length_collected_firstReadings hPacked hTarget,
      ← List.length_map Contact.peerId,
      Listing.map_collected]
    rfl
  have hNodup :
      ((self.found count targetBucket).map
            Contact.peerId).Nodup ↔
        count ≤ self.count ∨
          self.AllRanked targetBucket := by
    rw [self.ids_found count hTarget,
      Listing.nodup_take_collected_iff hSeparate hOnce,
      hLength,
      collected_laterReadings_eq_nil_iff hPacked hTarget]
    intro peerId hHead
    rcases (Listing.mem_collected_iff _ _ _).mp
        (List.mem_of_mem_head? hHead) with
      ⟨rank, _, hId⟩
    exact ⟨rank, hRead rank peerId hId, hId⟩
  constructor
  · intro hNames
    exact hNodup.mp hNames.nodup
  · intro hWhen
    have hIds := hNodup.mpr hWhen
    refine ⟨hIds, ?_⟩
    -- different ids that have all been read once
    rw [← hLength, ← List.length_map Contact.peerId]
    apply List.Subperm.length_le
    apply hIds.subperm
    intro peerId hId
    rw [self.ids_found count hTarget] at hId
    rcases (Listing.mem_collected_iff _ _ _).mp
        (List.mem_of_mem_take hId) with
      ⟨rank, _, hRank⟩
    rw [Listing.mem_collected_iff]
    exact ⟨rank, hRead rank peerId hRank, hRank⟩

/-
  The search names each peer at most once exactly when it is
  asked for no more peers than are known, or all that are
  known have the rank of the needle.
-/
theorem findClosestPeers_namesOnce_iff
    (owner : PeerId)
    {size : Nat}
    (hSize : 1 ≤ size)
    (inserts : List Contact)
    {map : FlatPeerMap}
    (hMap : (new owner size).insertAll inserts = .ok map)
    (needle : PeerId)
    {count : Nat}
    (hCount : count ≤ map.contacts.length) :
    ∃ results,
      map.findClosestPeers needle count = .ok results ∧
        (map.NamesOnce results ↔
          count ≤ map.count ∨
            map.AllRanked
              (map.peerId.distanceRank needle)) := by
  have hPacked := packed_of_insertAll hSize hMap
  refine
    ⟨_, findClosestPeers_eq_ok hPacked needle hCount, ?_⟩
  exact
    namesOnce_found_iff hPacked count
      (PeerId.distanceRank_lt _ needle)

theorem findClosestPeers_namesOnce_iff_rivals :
    ∃ results,
      ((new zeroOwner 2).putAll rivals).findClosestPeers
          zeroOwner 2 = .ok results ∧
        (((new zeroOwner 2).putAll rivals).NamesOnce
            results ↔
          2 ≤ ((new zeroOwner 2).putAll rivals).count ∨
            ((new zeroOwner 2).putAll rivals).AllRanked
              (((new zeroOwner 2).putAll
                rivals).peerId.distanceRank zeroOwner)) := by
  have hSize : 1 ≤ 2 := by decide
  have hNew := packed_new zeroOwner hSize
  exact
    findClosestPeers_namesOnce_iff zeroOwner hSize rivals
      (insertAll_eq_ok hNew rivals) zeroOwner
      (by decide +kernel)

/- The only peers of a map may be named twice. -/
theorem findClosestPeers_names_twice :
    ¬ ∀ (owner : PeerId)
        (size : Nat)
        (inserts : List Contact)
        (map : FlatPeerMap)
        (needle : PeerId)
        (count : Nat)
        (results : List Contact),
      1 ≤ size →
        (new owner size).insertAll inserts = .ok map →
          count ≤ map.contacts.length →
            map.findClosestPeers needle count =
                .ok results →
              map.NamesOnce results := by
  intro hClaim
  have hSize : 1 ≤ 2 := by decide
  have hNew := packed_new zeroOwner hSize
  have hPacked := hNew.putAll rivals
  have hCount :
      3 ≤ ((new zeroOwner 2).putAll
        rivals).contacts.length := by
    decide +kernel
  have hNames :=
    hClaim zeroOwner 2 rivals _ zeroOwner 3 _ hSize
      (insertAll_eq_ok hNew rivals) hCount
      (findClosestPeers_eq_ok hPacked zeroOwner hCount)
  rw [namesOnce_found_iff hPacked 3
    (PeerId.distanceRank_lt _ _)] at hNames
  have hKnown :
      ((new zeroOwner 2).putAll rivals).count = 2 := by
    decide +kernel
  rcases hNames with hFew | hAll
  · omega
  · -- the rivals do not share a bucket with the owner
    have hRank :=
      hAll
        { peerId := PeerId.repeating 254
          address := .v4 0x0A000002 4433 }
        (by decide +kernel)
    exact absurd hRank (by decide +kernel)

end FlatPeerMap

end WorldDat
