import WorldDat.Listing.LatestWrite
import WorldDat.Listing.Reordered
import WorldDat.PeerMap.Coverage

/-
  What can be told about a peer map from outside.

  The hasher of a map and the order of its inserts decide in
  which order buckets are iterated, and nothing else.  All
  that shows is which peers of the last bucket read by a
  search still fit into its result.

  Main declarations:
    * `PeerMap.Alike` and `PeerMap.alike_of_inserts`
    * `PeerMap.SameReach` and `PeerMap.Alike.found`
    * `PeerMap.Indistinct`
    * `PeerMap.indistinct_of_inserts`
    * `PeerMap.count_of_inserts`
-/

------------------------------------------------------------
-- Maps That Know The Same
------------------------------------------------------------

namespace WorldDat

open Rust

namespace PeerMap

/- Two maps of a peer find everybody at the same address. -/
structure Alike
    (selfId : PeerId)
    (left right : PeerMap) : Prop where
  left_filed : left.FiledBy selfId
  right_filed : right.FiledBy selfId
  size : left.bucketSize = right.bucketSize
  finds : ∀ id, left.find selfId id = right.find selfId id

variable {selfId : PeerId}
variable {left right : PeerMap}

/- A bucket holds nobody but peers of its own rank. -/
theorem FiledBy.getAt_eq
    {self : PeerMap}
    (hFiled : self.FiledBy selfId)
    (rank : Nat)
    (id : PeerId) :
    self.getAt rank id =
      if rank = selfId.distanceRank id then
        self.find selfId id
      else
        none := by
  by_cases hRank : rank = selfId.distanceRank id
  · rw [if_pos hRank, hRank]
    rfl
  · rw [if_neg hRank]
    cases hGet : self.getAt rank id with
    | none => rfl
    | some addr =>
        exact absurd (hFiled rank id addr hGet) hRank

/- Alike maps hold the same in each bucket. -/
theorem Alike.entriesAt_perm
    (hAlike : left.Alike selfId right)
    (rank : Nat) :
    (left.entriesAt rank).Perm (right.entriesAt rank) := by
  have hNodup : ∀ map : PeerMap,
      (map.entriesAt rank).Nodup :=
    fun map => (map.nodup_idsAt rank).of_map
  rw [List.perm_ext_iff_of_nodup (hNodup left)
    (hNodup right)]
  intro entry
  rcases entry with ⟨id, addr⟩
  rw [mem_entriesAt_iff, mem_entriesAt_iff,
    hAlike.left_filed.getAt_eq, hAlike.right_filed.getAt_eq,
    hAlike.finds]

/- An entry tells by its id which bucket it comes from. -/
theorem FiledBy.rank_of_mem_entriesAt
    {self : PeerMap}
    (hFiled : self.FiledBy selfId)
    (rank : Nat)
    (entry : PeerId × SocketAddr)
    (hEntry : entry ∈ self.entriesAt rank) :
    selfId.distanceRank entry.1 = rank := by
  have hGet :=
    (self.mem_entriesAt_iff rank entry.1 entry.2).mp hEntry
  exact (hFiled rank entry.1 entry.2 hGet).symm

/- Inserting in both keeps maps alike. -/
theorem Alike.put
    (hAlike : left.Alike selfId right)
    (address : SocketAddr)
    (peerId : PeerId) :
    (left.put selfId address peerId).Alike selfId
      (right.put selfId address peerId) where
  left_filed := hAlike.left_filed.put address peerId
  right_filed := hAlike.right_filed.put address peerId
  size := hAlike.size
  finds := by
    intro id
    rw [find_put, find_put, hAlike.finds]

theorem alike_default
    (hasher₁ hasher₂ : PeerHasher)
    (selfId : PeerId) :
    (default hasher₁).Alike selfId (default hasher₂) where
  left_filed := filedBy_default hasher₁ selfId
  right_filed := filedBy_default hasher₂ selfId
  size := rfl
  finds := by
    intro id
    unfold find
    rw [getAt_default, getAt_default]

/- The address that each insert writes for its peer. -/
def writes
    (inserts : List Contact) : List (PeerId × SocketAddr) :=
  inserts.map fun newPeer => (newPeer.peerId, newPeer.address)

/- A map finds what was written last. -/
theorem find_putAll
    (hasher : PeerHasher)
    (selfId : PeerId)
    (inserts : List Contact)
    (id : PeerId) :
    ((default hasher).putAll selfId inserts).find selfId id =
      Listing.latest id (writes inserts) := by
  induction inserts using List.reverseRecOn with
  | nil => exact getAt_default hasher _ id
  | append_singleton inserts newPeer ih =>
      unfold putAll at ih ⊢
      rw [List.foldl_append, List.foldl_cons,
        List.foldl_nil, find_put, ih]
      unfold writes
      rw [List.map_append, List.map_cons, List.map_nil,
        Listing.latest_concat]
      simp only [eq_comm]

@[simp] theorem bucketSize_putAll
    (self : PeerMap)
    (selfId : PeerId)
    (inserts : List Contact) :
    (self.putAll selfId inserts).bucketSize =
      self.bucketSize := by
  induction inserts generalizing self with
  | nil => rfl
  | cons newPeer rest ih => exact ih _

/- Maps are alike when the latest inserts are the same. -/
theorem alike_of_inserts
    {hasher₁ hasher₂ : PeerHasher}
    {inserts₁ inserts₂ : List Contact}
    (hSame : ∀ id,
      Listing.latest id (writes inserts₁) =
        Listing.latest id (writes inserts₂)) :
    ((default hasher₁).putAll selfId inserts₁).Alike selfId
      ((default hasher₂).putAll selfId inserts₂) where
  left_filed :=
    (filedBy_default hasher₁ selfId).putAll inserts₁
  right_filed :=
    (filedBy_default hasher₂ selfId).putAll inserts₂
  size := by
    rw [bucketSize_putAll, bucketSize_putAll]
    rfl
  finds := by
    intro id
    rw [find_putAll, find_putAll, hSame]

end PeerMap

end WorldDat

------------------------------------------------------------
-- What Searches Show
------------------------------------------------------------

namespace WorldDat

open Rust

namespace PeerMap

/-
  Two results of a search by a peer: they list peers of the
  same ranks at the same positions, name the same peers at
  all ranks but one, and are the same but for their order
  unless they are full.
-/
structure SameReach
    (selfId : PeerId)
    (bucketSize : Nat)
    (left right : List (PeerId × SocketAddr)) : Prop where
  ranks :
    left.map (fun entry => selfId.distanceRank entry.1) =
      right.map fun entry => selfId.distanceRank entry.1
  apart : ∃ rank, ∀ entry,
    (entry ∈ left ↔ entry ∈ right) ∨
      selfId.distanceRank entry.1 = rank
  short : left.length < bucketSize → left.Perm right

variable {selfId : PeerId}
variable {left right : PeerMap}

theorem SameReach.length_eq
    {bucketSize : Nat}
    {left right : List (PeerId × SocketAddr)}
    (hReach : SameReach selfId bucketSize left right) :
    left.length = right.length := by
  have hRanks := congrArg List.length hReach.ranks
  rw [List.length_map, List.length_map] at hRanks
  exact hRanks

/- What a search finds comes from the buckets that it reads. -/
theorem found_eq_take_collected
    (self : PeerMap)
    (searchBucket : Nat) :
    self.found searchBucket =
      (Listing.collected self.entriesAt
        (readings searchBucket Blake2Hash.maxPower)).take
          self.bucketSize := by
  have hPasses :
      self.searchPass searchBucket =
        fun v =>
          Listing.collected self.entriesAt
            (passReadings searchBucket v) := by
    funext width
    unfold searchPass searchBehind passReadings
    by_cases hWide : width > searchBucket
    · have hZero : searchBucket - width = 0 := by omega
      rw [if_pos hWide, if_pos hWide, hZero]
      simp [Listing.collected]
    · rw [if_neg hWide, if_neg hWide]
      simp [Listing.collected]
  unfold found readings
  rw [Listing.collected_before, hPasses]
  simp [Listing.collected]

/- Searches in alike maps reach equally far. -/
theorem Alike.found
    (hAlike : left.Alike selfId right)
    (searchBucket : Nat) :
    SameReach selfId left.bucketSize
      (left.found searchBucket)
      (right.found searchBucket) := by
  have hPerm := hAlike.entriesAt_perm
  have hTag := hAlike.left_filed.rank_of_mem_entriesAt
  rw [found_eq_take_collected, found_eq_take_collected,
    ← hAlike.size]
  refine ⟨?_, ?_, ?_⟩
  · exact Listing.map_take_collected hPerm hTag _ _
  · rcases Listing.mem_take_collected_cases hPerm
        (readings searchBucket Blake2Hash.maxPower)
        left.bucketSize with
      hAll | ⟨rank, _, hOther⟩
    · exact ⟨0, fun entry => Or.inl (hAll entry)⟩
    · refine ⟨rank, ?_⟩
      intro entry
      rcases hOther entry with hSame | hHere
      · exact Or.inl hSame
      · exact Or.inr (hTag rank entry hHere)
  · intro hShort
    have hWhole :=
      Listing.collected_perm hPerm
        (readings searchBucket Blake2Hash.maxPower)
    rw [List.length_take] at hShort
    rw [List.take_of_length_le (by omega),
      List.take_of_length_le]
    · exact hWhole
    · rw [← hWhole.length_eq]
      omega

end PeerMap

end WorldDat

------------------------------------------------------------
-- Counting Peers
------------------------------------------------------------

namespace WorldDat

open Rust

namespace PeerMap

variable {selfId : PeerId}
variable {left right : PeerMap}

/- The sizes of the buckets, by rank. -/
theorem map_len_buckets (self : PeerMap) :
    self.buckets.map (fun bucket => bucket.knownPeers.len) =
      (List.range Blake2Hash.maxPower).map fun rank =>
        (self.entriesAt rank).length := by
  apply List.ext_getElem
  · rw [List.length_map, List.length_map,
      List.length_range, self.length_buckets]
  · intro rank hLeft hRight
    rw [List.length_map] at hLeft
    simp [entriesAt, hLeft, HashMap.length_iter]

/- Adding up in 32 bits keeps what fits into them. -/
theorem foldl_add_len
    (buckets : List Bucket)
    (acc : Nat) :
    buckets.foldl
        (fun acc bucket =>
          acc + UInt32.ofNat bucket.knownPeers.len)
        (UInt32.ofNat acc) =
      UInt32.ofNat
        (acc +
          (buckets.map fun bucket =>
            bucket.knownPeers.len).sum) := by
  induction buckets generalizing acc with
  | nil => rfl
  | cons bucket rest ih =>
      rw [List.foldl_cons, ← UInt32.ofNat_add, ih,
        List.map_cons, List.sum_cons, Nat.add_assoc]

/- The count is the number of ids in all buckets. -/
theorem count_eq_ofNat (self : PeerMap) :
    self.count =
      UInt32.ofNat
        (Listing.collected self.idsAt
          (List.range Blake2Hash.maxPower)).length := by
  have hSum := foldl_add_len self.buckets 0
  unfold count
  rw [Nat.zero_add, self.map_len_buckets] at hSum
  unfold Listing.collected
  rw [List.length_flatMap]
  unfold idsAt
  simp only [List.length_map]
  exact hSum

/- Alike maps count the same. -/
theorem Alike.count_eq
    (hAlike : left.Alike selfId right) :
    left.count = right.count := by
  have hPerm : ∀ rank,
      (left.idsAt rank).Perm (right.idsAt rank) :=
    fun rank => (hAlike.entriesAt_perm rank).map Prod.fst
  rw [count_eq_ofNat, count_eq_ofNat,
    (Listing.collected_perm hPerm _).length_eq]

/-
  After any sequence of inserts, the count is the number of
  different peers inserted, as far as 32 bits can tell.
-/
theorem count_of_inserts
    (hasher : PeerHasher)
    (selfId : PeerId)
    (inserts : List Contact)
    {map : PeerMap}
    (hMap :
      (default hasher).insertAll selfId inserts = .ok map) :
    map.count =
      UInt32.ofNat
        (inserts.map Contact.peerId).dedup.length := by
  rw [insertAll_eq_ok, Except.ok.injEq] at hMap
  have hFiled :=
    (filedBy_default hasher selfId).putAll inserts
  have hKnows :=
    (default hasher).isSome_getAt_putAll selfId inserts
  rw [hMap] at hFiled hKnows
  have hNodup :
      (Listing.collected map.idsAt
        (List.range Blake2Hash.maxPower)).Nodup :=
    Listing.nodup_collected hFiled.separate List.nodup_range
  have hPerm :
      (Listing.collected map.idsAt
        (List.range Blake2Hash.maxPower)).Perm
          (inserts.map Contact.peerId).dedup := by
    rw [List.perm_ext_iff_of_nodup hNodup
      (List.nodup_dedup _)]
    intro id
    rw [Listing.mem_collected_iff, List.mem_dedup]
    constructor
    · intro hId
      rcases hId with ⟨rank, _, hRank⟩
      rw [mem_idsAt_iff, hKnows, getAt_default] at hRank
      rcases hRank with hNever | hInserted
      · cases hNever
      · exact hInserted.2
    · intro hInserted
      refine ⟨selfId.distanceRank id, ?_, ?_⟩
      · rw [List.mem_range]
        exact PeerId.distanceRank_lt selfId id
      · rw [mem_idsAt_iff, hKnows]
        exact Or.inr ⟨rfl, hInserted⟩
  rw [count_eq_ofNat, hPerm.length_eq]

theorem count_of_inserts_twice :
    ∃ map,
      (default
          (RandomState.insertionOrder PeerId
            SocketAddr)).insertAll
        (PeerId.repeating 0)
        [ { peerId := PeerId.repeating 1
            address := .v4 0x0A000002 4433 }
        , { peerId := PeerId.repeating 1
            address := .v4 0x0A000003 4433 } ] = .ok map ∧
      map.count =
        UInt32.ofNat
          [PeerId.repeating 1, PeerId.repeating 1].dedup.length :=
  ⟨_, insertAll_eq_ok _ _ _,
    count_of_inserts _ _ _ (insertAll_eq_ok _ _ _)⟩

end PeerMap

end WorldDat

------------------------------------------------------------
-- Maps That Cannot Be Told Apart
------------------------------------------------------------

namespace WorldDat

open Rust

namespace PeerMap

/-
  All that the operations of two maps show is the same, but
  for the peers that a full search result has cut off.
-/
structure Indistinct
    (selfId : PeerId)
    (left right : PeerMap) : Prop where
  contains : ∀ id,
    left.contains selfId id = right.contains selfId id
  count : left.count = right.count
  searches : ∀ id, ∃ found₁ found₂,
    left.findClosestPeers selfId id = .ok found₁ ∧
      right.findClosestPeers selfId id = .ok found₂ ∧
      SameReach selfId left.bucketSize found₁ found₂
  lookups : ∀ id,
    (∃ peer, left.lookup selfId id = .ok (.ok peer) ∧
        right.lookup selfId id = .ok (.ok peer)) ∨
      ∃ found₁ found₂,
        left.lookup selfId id = .ok (.error found₁) ∧
          right.lookup selfId id = .ok (.error found₂) ∧
          SameReach selfId left.bucketSize found₁ found₂

/-
  Whatever the hashers and the orders of insertion: if each
  peer was last inserted with the same address into two maps,
  then they cannot be told apart.
-/
theorem indistinct_of_inserts
    {hasher₁ hasher₂ : PeerHasher}
    {selfId : PeerId}
    {inserts₁ inserts₂ : List Contact}
    (hSame : ∀ id,
      Listing.latest id (writes inserts₁) =
        Listing.latest id (writes inserts₂))
    {left right : PeerMap}
    (hLeft :
      (default hasher₁).insertAll selfId inserts₁ = .ok left)
    (hRight :
      (default hasher₂).insertAll selfId inserts₂ =
        .ok right) :
    left.Indistinct selfId right := by
  have hAlike : left.Alike selfId right := by
    rw [insertAll_eq_ok, Except.ok.injEq] at hLeft hRight
    rw [← hLeft, ← hRight]
    exact alike_of_inserts hSame
  refine ⟨?_, hAlike.count_eq, ?_, ?_⟩
  · intro id
    rw [contains_eq_ok, contains_eq_ok, hAlike.finds]
  · intro id
    exact
      ⟨_, _, left.findClosestPeers_eq_ok selfId id,
        right.findClosestPeers_eq_ok selfId id,
        hAlike.found _⟩
  · intro id
    have hFinds := hAlike.finds id
    cases hFind : left.find selfId id with
    | some addr =>
        rw [hFind] at hFinds
        exact
          Or.inl
            ⟨(id, addr), left.lookup_eq_ok_of_find hFind,
              right.lookup_eq_ok_of_find hFinds.symm⟩
    | none =>
        rw [hFind] at hFinds
        exact
          Or.inr
            ⟨_, _, left.lookup_eq_ok_of_find_none hFind,
              right.lookup_eq_ok_of_find_none hFinds.symm,
              hAlike.found _⟩

/- A hasher that iterates against the order of insertion. -/
def reversing : PeerHasher where
  order := List.reverse
  order_perm := List.reverse_perm

/- Two peers that are close to each other. -/
def neighbors : List Contact :=
  [ { peerId := PeerId.repeating 254
      address := .v4 0x0A000002 4433 }
  , { peerId := PeerId.repeating 255
      address := .v4 0x0A000003 4433 } ]

/- The same, but one of them has moved. -/
def movedNeighbors : List Contact :=
  [ { peerId := PeerId.repeating 255
      address := .v4 0x0A000009 4433 } ] ++
    neighbors.reverse

theorem indistinct_of_inserts_neighbors :
    ∃ left right,
      (default
          (RandomState.insertionOrder PeerId
            SocketAddr)).insertAll
        (PeerId.repeating 0) neighbors = .ok left ∧
      (default reversing).insertAll (PeerId.repeating 0)
        movedNeighbors = .ok right ∧
      left.Indistinct (PeerId.repeating 0) right := by
  have hSame : ∀ id,
      Listing.latest id (writes neighbors) =
        Listing.latest id (writes movedNeighbors) := by
    intro id
    by_cases hFirst : PeerId.repeating 254 = id
    · subst hFirst
      decide +kernel
    · by_cases hSecond : PeerId.repeating 255 = id
      · subst hSecond
        decide +kernel
      · simp [writes, movedNeighbors, neighbors,
          Listing.latest, hFirst, hSecond]
  exact
    ⟨_, _, insertAll_eq_ok _ _ _, insertAll_eq_ok _ _ _,
      indistinct_of_inserts hSame (insertAll_eq_ok _ _ _)
        (insertAll_eq_ok _ _ _)⟩

end PeerMap

end WorldDat
