import WorldDat.PeerMap.Coverage

/-
  How close the peers are that a peer map returns.

  A bucket gathers peers by their distance to the owner of
  the map.  The search lists a share of each bucket, in the
  order of the hash map, and never compares a peer with the
  target.

  Main declarations:
    * `PeerMap.share`
    * `PeerMap.mem_ids_found_iff`
    * `PeerMap.findClosestPeers_closest_iff`
-/

------------------------------------------------------------
-- Shares Of The Buckets
------------------------------------------------------------

namespace WorldDat

namespace PeerMap

instance decidableVisits
    (searchBucket rank : Nat) :
    Decidable (Visits searchBucket rank) :=
  inferInstanceAs (Decidable (_ ∨ _))

/- How many entries of a bucket the search has room for. -/
def share
    (self : PeerMap)
    (searchBucket rank : Nat) : Nat :=
  if Visits searchBucket rank then
    self.bucketSize - self.searchOffset searchBucket rank
  else
    0

/- A place within the share is one that the search reaches. -/
theorem lt_share_iff
    (self : PeerMap)
    (searchBucket rank position : Nat) :
    position < self.share searchBucket rank ↔
      Visits searchBucket rank ∧
        self.searchOffset searchBucket rank + position <
          self.bucketSize := by
  unfold share
  by_cases hVisits : Visits searchBucket rank
  · rw [if_pos hVisits]
    constructor
    · intro hPosition
      exact ⟨hVisits, by omega⟩
    · intro hPlace
      rcases hPlace with ⟨_, hOffset⟩
      omega
  · rw [if_neg hVisits]
    constructor
    · intro hPosition
      omega
    · intro hPlace
      exact absurd hPlace.1 hVisits

/- A peer is found in the share of its bucket. -/
theorem mem_ids_found_iff
    (self : PeerMap)
    (searchBucket : Nat)
    (peerId : PeerId) :
    peerId ∈ (self.found searchBucket).map Prod.fst ↔
      ∃ rank, peerId ∈
        (self.idsAt rank).take
          (self.share searchBucket rank) := by
  rw [List.mem_map]
  constructor
  · intro hFound
    rcases hFound with ⟨entry, hEntry, hId⟩
    rcases (self.mem_found_iff _ _).mp hEntry with
      ⟨rank, position, hVisits, hOffset, hPlace⟩
    refine ⟨rank, ?_⟩
    rw [Listing.mem_take_iff_exists_getElem?]
    refine ⟨position, ?_, ?_⟩
    · rw [lt_share_iff]
      exact ⟨hVisits, hOffset⟩
    · rw [idsAt, List.getElem?_map, hPlace, ← hId]
      rfl
  · intro hShare
    rcases hShare with ⟨rank, hTake⟩
    rw [Listing.mem_take_iff_exists_getElem?] at hTake
    rcases hTake with ⟨position, hPosition, hPlace⟩
    rw [lt_share_iff] at hPosition
    rw [idsAt, List.getElem?_map, Option.map_eq_some_iff]
      at hPlace
    rcases hPlace with ⟨entry, hEntry, hId⟩
    refine ⟨entry, ?_, hId⟩
    exact
      self.mem_found_of_visits hPosition.1 hPosition.2
        hEntry

/- The ids of the known peers are those of the buckets. -/
theorem mem_ids_iff
    (self : PeerMap)
    (peerId : PeerId) :
    peerId ∈ self.entries.map Prod.fst ↔
      ∃ rank, peerId ∈ self.idsAt rank := by
  rw [List.mem_map]
  constructor
  · intro hKnown
    rcases hKnown with ⟨⟨id, addr⟩, hEntry, hId⟩
    rcases (self.mem_entries_iff id addr).mp hEntry with
      ⟨rank, hGet⟩
    refine ⟨rank, ?_⟩
    rw [mem_idsAt_iff, ← hId, hGet]
    rfl
  · intro hBucket
    rcases hBucket with ⟨rank, hId⟩
    rw [mem_idsAt_iff, Option.isSome_iff_exists] at hId
    rcases hId with ⟨addr, hGet⟩
    refine ⟨(peerId, addr), ?_, rfl⟩
    exact (self.mem_entries_iff peerId addr).mpr ⟨rank, hGet⟩

/- A known peer is not found beyond the share of its bucket. -/
theorem not_found_iff
    {self : PeerMap}
    {selfId : PeerId}
    (hFiled : self.FiledBy selfId)
    (searchBucket : Nat)
    (peerId : PeerId) :
    peerId ∈ self.entries.map Prod.fst ∧
        peerId ∉ (self.found searchBucket).map Prod.fst ↔
      ∃ rank, peerId ∈
        (self.idsAt rank).drop
          (self.share searchBucket rank) := by
  rw [mem_ids_iff, mem_ids_found_iff]
  exact
    Listing.not_shared_iff hFiled.separate
      (self.share searchBucket) peerId

end PeerMap

end WorldDat

------------------------------------------------------------
-- The Closest Peers
------------------------------------------------------------

namespace WorldDat

open Rust

namespace PeerMap

/-
  Each peer returned is closer to the target than each known
  peer that is not.
-/
def ReturnsClosest
    (self : PeerMap)
    (target : PeerId)
    (results : List (PeerId × SocketAddr)) : Prop :=
  ∀ near ∈ results.map Prod.fst,
    ∀ far ∈ self.entries.map Prod.fst,
      far ∉ results.map Prod.fst →
        near.distance target < far.distance target

/-
  The peers in the shares of the buckets are closer to the
  target than those beyond them.
-/
def SharesClosest
    (self : PeerMap)
    (target : PeerId)
    (searchBucket : Nat) : Prop :=
  ∀ rank rank',
    ∀ near ∈
      (self.idsAt rank).take (self.share searchBucket rank),
    ∀ far ∈
      (self.idsAt rank').drop
        (self.share searchBucket rank'),
      near.distance target < far.distance target

/- What is found is closest when the shares are. -/
theorem found_closest_iff
    {self : PeerMap}
    {selfId : PeerId}
    (hFiled : self.FiledBy selfId)
    (target : PeerId)
    (searchBucket : Nat) :
    self.ReturnsClosest target (self.found searchBucket) ↔
      self.SharesClosest target searchBucket := by
  exact
    Listing.forall_shared_iff
      (self.mem_ids_found_iff searchBucket)
      (not_found_iff hFiled searchBucket)

/-
  In every map built by inserts, the search returns the
  closest peers exactly when the shares that it takes of the
  buckets hold them.
-/
theorem findClosestPeers_closest_iff
    (hasher : PeerHasher)
    (selfId : PeerId)
    (inserts : List Contact)
    (target : PeerId) :
    ∃ self results,
      (default hasher).insertAll selfId inserts = .ok self ∧
        self.findClosestPeers selfId target = .ok results ∧
        (self.ReturnsClosest target results ↔
          self.SharesClosest target
            (selfId.distanceRank target)) := by
  have hFiled : ((default hasher).putAll selfId
      inserts).FiledBy selfId :=
    (filedBy_default hasher selfId).putAll inserts
  refine
    ⟨_, _, insertAll_eq_ok _ selfId inserts,
      findClosestPeers_eq_ok _ selfId target, ?_⟩
  exact found_closest_iff hFiled target _

/- The farther one of two known peers may be returned. -/
theorem findClosestPeers_returns_farthest :
    ¬ ∀ (hasher : PeerHasher)
        (selfId : PeerId)
        (inserts : List Contact)
        (target : PeerId)
        (self : PeerMap)
        (results : List (PeerId × SocketAddr)),
      (default hasher).insertAll selfId inserts =
          .ok self →
        self.findClosestPeers selfId target = .ok results →
          self.ReturnsClosest target results := by
  intro hClaim
  let hasher :=
    RandomState.insertionOrder PeerId SocketAddr
  let selfId := PeerId.repeating 0
  let closer :=
    PeerId.raw (0xFF :: 2 :: List.replicate 30 0) rfl
  let target :=
    PeerId.raw (0xFF :: 1 :: List.replicate 30 0) rfl
  let inserts : List Contact :=
    [{ peerId := selfId
       address := .v4 0x0A000001 4433 },
     { peerId := closer
       address := .v4 0x0A000002 4433 }]
  have hClosest :=
    hClaim hasher selfId inserts target _ _
      (insertAll_eq_ok _ selfId inserts)
      (findClosestPeers_eq_ok _ selfId target)
      selfId (by decide +kernel) closer (by decide +kernel)
      (by decide +kernel)
  exact absurd hClosest (by decide +kernel)

end PeerMap

end WorldDat
