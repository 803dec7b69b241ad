import WorldDat.Rust.HashMap
import WorldDat.Rust.Panic
import WorldDat.Types

/-
  The bucketed routing table of a worker (`types.rs`,
  `Bucket` and `PeerMap`).

  The operations index the bucket vector the way the source
  does, so each of them may panic.  `PeerMap.bucketAt` and
  `PeerMap.find` describe the table without panics, and each
  operation has a lemma that gives its result in their terms.

  Main declarations:
    * `Bucket` and `PeerMap`
    * `PeerMap.insert`, `contains`, `findClosestPeers`, `lookup`
    * `PeerMap.insert_eq_ok` and `PeerMap.contains_eq_ok`
    * `PeerMap.find_put`
-/

------------------------------------------------------------
-- Buckets
------------------------------------------------------------

namespace WorldDat

open Rust

/- The hasher keys of a bucket's map. -/
abbrev PeerHasher := RandomState PeerId SocketAddr

/- A collection of contacts. -/
structure Bucket where
  knownPeers : HashMap PeerId SocketAddr

namespace Bucket

def new (hasher : PeerHasher) : Bucket where
  knownPeers := HashMap.new hasher

/- Add the new peer to the bucket. -/
def insert (self : Bucket) (peer : Contact) : Bucket where
  knownPeers :=
    self.knownPeers.insert peer.peerId peer.address

def contains
    (self : Bucket)
    (peer : PeerId) : Option (PeerId × SocketAddr) :=
  (self.knownPeers.get peer).map fun addr => (peer, addr)

end Bucket

end WorldDat

------------------------------------------------------------
-- Peer Maps
------------------------------------------------------------

namespace WorldDat

open Rust

/-
  One bucket for each rank.  The vector is built with
  `maxPower` buckets and never resized.
-/
structure PeerMap where
  buckets : List Bucket
  bucketSize : Nat
  length_buckets : buckets.length = Blake2Hash.maxPower

namespace PeerMap

/-
  `Default::default`.  Cloning the initial bucket also clones
  its hasher, so one hasher serves all buckets.
-/
def default (hasher : PeerHasher) : PeerMap where
  buckets :=
    List.replicate Blake2Hash.maxPower (Bucket.new hasher)
  bucketSize := 16
  length_buckets := List.length_replicate

/- Replace the bucket at a rank. -/
def setBucket
    (self : PeerMap)
    (rank : Nat)
    (bucket : Bucket) : PeerMap where
  buckets := self.buckets.set rank bucket
  bucketSize := self.bucketSize
  length_buckets := by
    rw [List.length_set]
    exact self.length_buckets

/- Insert a new peer into the map. -/
def insert
    (self : PeerMap)
    (selfId : PeerId)
    (address : SocketAddr)
    (peerId : PeerId) : Except Panic PeerMap := do
  let newPeer : Contact := { peerId, address }
  let distanceRank := selfId.distanceRank peerId
  let bucket ← index self.buckets distanceRank
  return self.setBucket distanceRank (bucket.insert newPeer)

/-
  The loop of `find_closest_peers`.  `fuel` bounds the passes
  that remain; `maxPower` of them are enough, since each pass
  widens the search by one.
-/
def searchLoop
    (self : PeerMap)
    (searchBucket : Nat) :
    (fuel searchWidth : Nat) →
      List (PeerId × SocketAddr) →
        Except Panic (List (PeerId × SocketAddr))
| 0, _, searchResults => .ok searchResults
| fuel + 1, searchWidth, searchResults =>
    if searchResults.length < self.bucketSize ∧
        searchWidth < Blake2Hash.maxPower then do
      -- `saturating_sub`, as the subtraction of `Nat` is
      let targetBehind := searchBucket - searchWidth
      let targetAhead := searchBucket + searchWidth
      -- the guard lets only the saturated index through
      let searchResults ←
        if searchWidth > searchBucket then do
          let bucket ← index self.buckets targetBehind
          pure (searchResults ++ bucket.knownPeers.iter)
        else
          pure searchResults
      let searchResults ←
        if targetAhead < Blake2Hash.maxPower then do
          let bucket ← index self.buckets targetAhead
          pure (searchResults ++ bucket.knownPeers.iter)
        else
          pure searchResults
      searchLoop self searchBucket fuel (searchWidth + 1)
        searchResults
    else
      .ok searchResults

/- The peers that the search from a target's bucket finds. -/
def findClosestPeers
    (self : PeerMap)
    (selfId peerId : PeerId) :
    Except Panic (List (PeerId × SocketAddr)) := do
  let searchBucket := selfId.distanceRank peerId
  let bucket ← index self.buckets searchBucket
  let searchResults ←
    self.searchLoop searchBucket Blake2Hash.maxPower 1
      bucket.knownPeers.iter
  return searchResults.take self.bucketSize

/- Check whether we know about the given peer. -/
def contains
    (self : PeerMap)
    (selfId peerId : PeerId) :
    Except Panic (Option (PeerId × SocketAddr)) := do
  let searchBucket := selfId.distanceRank peerId
  let bucket ← index self.buckets searchBucket
  return bucket.contains peerId

/-
  Look up a peer.  The inner result is `ok` with its address
  or `error` with the peers found in its place.
-/
def lookup
    (self : PeerMap)
    (selfId peerId : PeerId) :
    Except Panic
      (Except (List (PeerId × SocketAddr))
        (PeerId × SocketAddr)) := do
  match ← self.contains selfId peerId with
  | some res => return .ok res
  | none => return .error (← self.findClosestPeers selfId peerId)

/- The number of peers known, counted in a `u32`. -/
def count (self : PeerMap) : UInt32 :=
  self.buckets.foldl
    (fun acc bucket =>
      acc + UInt32.ofNat bucket.knownPeers.len) 0

end PeerMap

end WorldDat

------------------------------------------------------------
-- Buckets Without Panics
------------------------------------------------------------

namespace WorldDat

open Rust

namespace PeerMap

/- The entries filed at a rank; none beyond the last bucket. -/
def entriesAt
    (self : PeerMap)
    (rank : Nat) : List (PeerId × SocketAddr) :=
  match self.buckets[rank]? with
  | some bucket => bucket.knownPeers.iter
  | none => []

/- The address that a bucket holds for a peer. -/
def getAt
    (self : PeerMap)
    (rank : Nat)
    (peerId : PeerId) : Option SocketAddr :=
  self.buckets[rank]?.bind fun bucket =>
    bucket.knownPeers.get peerId

/- The address known for a peer. -/
def find
    (self : PeerMap)
    (selfId peerId : PeerId) : Option SocketAddr :=
  self.getAt (selfId.distanceRank peerId) peerId

/- The map after filing a peer at its rank. -/
def put
    (self : PeerMap)
    (selfId : PeerId)
    (address : SocketAddr)
    (peerId : PeerId) : PeerMap where
  buckets :=
    self.buckets.modify (selfId.distanceRank peerId)
      fun bucket => bucket.insert { peerId, address }
  bucketSize := self.bucketSize
  length_buckets := by
    rw [List.length_modify]
    exact self.length_buckets

/- All entries, bucket by bucket. -/
def entries (self : PeerMap) : List (PeerId × SocketAddr) :=
  self.buckets.flatMap fun bucket => bucket.knownPeers.iter

/- Every entry is in the bucket of its own rank. -/
def FiledBy
    (self : PeerMap)
    (selfId : PeerId) : Prop :=
  ∀ rank peerId addr,
    self.getAt rank peerId = some addr →
      rank = selfId.distanceRank peerId

/- A rank indexes the bucket vector. -/
theorem distanceRank_lt_length
    (self : PeerMap)
    (selfId peerId : PeerId) :
    selfId.distanceRank peerId < self.buckets.length := by
  rw [self.length_buckets]
  exact PeerId.distanceRank_lt selfId peerId

/- Insertion never panics. -/
theorem insert_eq_ok
    (self : PeerMap)
    (selfId : PeerId)
    (address : SocketAddr)
    (peerId : PeerId) :
    self.insert selfId address peerId =
      .ok (self.put selfId address peerId) := by
  have hRank := self.distanceRank_lt_length selfId peerId
  have hBuckets :
      self.buckets.set (selfId.distanceRank peerId)
          (self.buckets[selfId.distanceRank peerId].insert
            { peerId, address }) =
        self.buckets.modify (selfId.distanceRank peerId)
          fun bucket => bucket.insert { peerId, address } := by
    rw [List.modify_eq_set_getElem?]
    simp [hRank]
  simp only [insert, index_of_lt hRank, setBucket, put,
    hBuckets, bind, Except.bind, pure, Except.pure]

/- Membership is decided in the bucket of the peer's rank. -/
theorem contains_eq_ok
    (self : PeerMap)
    (selfId peerId : PeerId) :
    self.contains selfId peerId =
      .ok ((self.find selfId peerId).map
        fun addr => (peerId, addr)) := by
  have hRank := self.distanceRank_lt_length selfId peerId
  simp [contains, index_of_lt hRank, find, getAt, hRank,
    Bucket.contains, bind, Except.bind, pure, Except.pure]

/- A map reports a peer as unknown when it finds no address. -/
theorem contains_eq_none_iff
    (self : PeerMap)
    (selfId peerId : PeerId) :
    self.contains selfId peerId = .ok none ↔
      self.find selfId peerId = none := by
  rw [contains_eq_ok]
  cases self.find selfId peerId <;> simp

/- A new map holds nobody. -/
@[simp] theorem getAt_default
    (hasher : PeerHasher)
    (rank : Nat)
    (peerId : PeerId) :
    (default hasher).getAt rank peerId = none := by
  by_cases hRank : rank < Blake2Hash.maxPower
  · simp [getAt, default, hRank, Bucket.new]
  · simp [getAt, default, hRank]

/- Filing a peer changes the entry of that peer only. -/
theorem getAt_put
    (self : PeerMap)
    (selfId : PeerId)
    (address : SocketAddr)
    (peerId : PeerId)
    (rank : Nat)
    (other : PeerId) :
    (self.put selfId address peerId).getAt rank other =
      if rank = selfId.distanceRank peerId ∧
          other = peerId then
        some address
      else
        self.getAt rank other := by
  have hLength :=
    self.distanceRank_lt_length selfId peerId
  by_cases hRank : rank = selfId.distanceRank peerId
  · subst hRank
    simp [getAt, put, hLength, Bucket.insert,
      HashMap.get_insert]
  · have hNe : selfId.distanceRank peerId ≠ rank := fun h =>
      hRank h.symm
    simp [getAt, put, hRank, hNe]

/- The address last filed for a peer is the one found. -/
theorem find_put
    (self : PeerMap)
    (selfId : PeerId)
    (address : SocketAddr)
    (peerId other : PeerId) :
    (self.put selfId address peerId).find selfId other =
      if other = peerId then
        some address
      else
        self.find selfId other := by
  unfold find
  rw [getAt_put]
  by_cases hOther : other = peerId
  · subst hOther
    simp
  · simp [hOther]

@[simp] theorem bucketSize_put
    (self : PeerMap)
    (selfId : PeerId)
    (address : SocketAddr)
    (peerId : PeerId) :
    (self.put selfId address peerId).bucketSize =
      self.bucketSize := rfl

/- A new map files its entries correctly. -/
theorem filedBy_default
    (hasher : PeerHasher)
    (selfId : PeerId) :
    (default hasher).FiledBy selfId := by
  intro rank peerId addr hGet
  simp at hGet

/- Filing a peer at its rank keeps entries in place. -/
theorem FiledBy.put
    {self : PeerMap}
    {selfId : PeerId}
    (hFiled : self.FiledBy selfId)
    (address : SocketAddr)
    (peerId : PeerId) :
    (self.put selfId address peerId).FiledBy selfId := by
  intro rank other addr hGet
  rw [getAt_put] at hGet
  by_cases hNew :
      rank = selfId.distanceRank peerId ∧ other = peerId
  · rcases hNew with ⟨hRank, rfl⟩
    exact hRank
  · rw [if_neg hNew] at hGet
    exact hFiled rank other addr hGet

/- The entries of a bucket are those that it holds. -/
theorem mem_entriesAt_iff
    (self : PeerMap)
    (rank : Nat)
    (peerId : PeerId)
    (addr : SocketAddr) :
    (peerId, addr) ∈ self.entriesAt rank ↔
      self.getAt rank peerId = some addr := by
  cases hBucket : self.buckets[rank]? with
  | none => simp [entriesAt, getAt, hBucket]
  | some bucket =>
      simp [entriesAt, getAt, hBucket, HashMap.mem_iter_iff]

/- The entries of a map are those of its buckets. -/
theorem mem_entries_iff
    (self : PeerMap)
    (peerId : PeerId)
    (addr : SocketAddr) :
    (peerId, addr) ∈ self.entries ↔
      ∃ rank, self.getAt rank peerId = some addr := by
  unfold entries getAt
  rw [List.mem_flatMap]
  constructor
  · rintro ⟨bucket, hBucket, hEntry⟩
    rcases List.mem_iff_getElem?.mp hBucket with
      ⟨rank, hRank⟩
    refine ⟨rank, ?_⟩
    rw [hRank]
    exact (bucket.knownPeers.mem_iter_iff _ _).mp hEntry
  · rintro ⟨rank, hGet⟩
    rcases Option.bind_eq_some_iff.mp hGet with
      ⟨bucket, hRank, hFound⟩
    exact
      ⟨bucket, List.mem_of_getElem? hRank,
        (bucket.knownPeers.mem_iter_iff _ _).mpr hFound⟩

/- With every entry in place, the entries are what is found. -/
theorem FiledBy.mem_entries_iff_find
    {self : PeerMap}
    {selfId : PeerId}
    (hFiled : self.FiledBy selfId)
    (peerId : PeerId)
    (addr : SocketAddr) :
    (peerId, addr) ∈ self.entries ↔
      self.find selfId peerId = some addr := by
  rw [mem_entries_iff]
  constructor
  · rintro ⟨rank, hGet⟩
    rw [hFiled rank peerId addr hGet] at hGet
    exact hGet
  · intro hFind
    exact ⟨_, hFind⟩

end PeerMap

end WorldDat

------------------------------------------------------------
-- Sequences Of Inserts
------------------------------------------------------------

namespace WorldDat

open Rust

namespace PeerMap

/- Insert a sequence of peers. -/
def insertAll
    (self : PeerMap)
    (selfId : PeerId) :
    List Contact → Except Panic PeerMap
| [] => return self
| newPeer :: rest => do
    let self ←
      self.insert selfId newPeer.address newPeer.peerId
    self.insertAll selfId rest

/- The map after filing a sequence of peers. -/
def putAll
    (self : PeerMap)
    (selfId : PeerId)
    (inserts : List Contact) : PeerMap :=
  inserts.foldl
    (fun self newPeer =>
      self.put selfId newPeer.address newPeer.peerId)
    self

/- Inserting a sequence never panics. -/
theorem insertAll_eq_ok
    (self : PeerMap)
    (selfId : PeerId)
    (inserts : List Contact) :
    self.insertAll selfId inserts =
      .ok (self.putAll selfId inserts) := by
  induction inserts generalizing self with
  | nil => rfl
  | cons newPeer rest ih =>
      rw [insertAll, insert_eq_ok]
      exact ih _

/- Filing a sequence keeps entries in place. -/
theorem FiledBy.putAll
    {self : PeerMap}
    {selfId : PeerId}
    (hFiled : self.FiledBy selfId)
    (inserts : List Contact) :
    (self.putAll selfId inserts).FiledBy selfId := by
  induction inserts generalizing self with
  | nil => exact hFiled
  | cons newPeer rest ih =>
      apply ih
      exact hFiled.put newPeer.address newPeer.peerId

/- The ids in the bucket at a rank. -/
def idsAt
    (self : PeerMap)
    (rank : Nat) : List PeerId :=
  (self.entriesAt rank).map Prod.fst

theorem mem_idsAt_iff
    (self : PeerMap)
    (rank : Nat)
    (peerId : PeerId) :
    peerId ∈ self.idsAt rank ↔
      (self.getAt rank peerId).isSome := by
  unfold idsAt
  rw [List.mem_map, Option.isSome_iff_exists]
  constructor
  · intro hId
    rcases hId with ⟨⟨id, addr⟩, hEntry, hSame⟩
    refine ⟨addr, ?_⟩
    rw [← hSame]
    exact (self.mem_entriesAt_iff rank id addr).mp hEntry
  · intro hGet
    rcases hGet with ⟨addr, hAddr⟩
    exact
      ⟨(peerId, addr),
        (self.mem_entriesAt_iff rank peerId addr).mpr hAddr,
        rfl⟩

/- A bucket holds every id once. -/
theorem nodup_idsAt
    (self : PeerMap)
    (rank : Nat) :
    (self.idsAt rank).Nodup := by
  unfold idsAt entriesAt
  cases self.buckets[rank]? with
  | none => exact List.nodup_nil
  | some bucket => exact bucket.knownPeers.nodup_keys_iter

/- A bucket grows when a new peer of its rank is filed. -/
theorem length_entriesAt_put
    (self : PeerMap)
    (selfId : PeerId)
    (address : SocketAddr)
    (peerId : PeerId)
    (rank : Nat) :
    ((self.put selfId address peerId).entriesAt
        rank).length =
      if rank = selfId.distanceRank peerId ∧
          self.getAt rank peerId = none then
        (self.entriesAt rank).length + 1
      else
        (self.entriesAt rank).length := by
  have hLength :=
    self.distanceRank_lt_length selfId peerId
  by_cases hRank : rank = selfId.distanceRank peerId
  · subst hRank
    cases hGet :
        self.getAt (selfId.distanceRank peerId) peerId with
    | none =>
        have hNone :
            (self.buckets[selfId.distanceRank
              peerId]).knownPeers.get peerId = none := by
          simpa [getAt, hLength] using hGet
        simp [entriesAt, put, hLength, Bucket.insert,
          HashMap.length_iter,
          HashMap.len_insert_of_get_none _ hNone]
    | some old =>
        have hSome :
            (self.buckets[selfId.distanceRank
              peerId]).knownPeers.get peerId = some old := by
          simpa [getAt, hLength] using hGet
        simp [entriesAt, put, hLength, Bucket.insert,
          HashMap.length_iter,
          HashMap.len_insert_of_get _ hSome]
  · have hNe : selfId.distanceRank peerId ≠ rank := fun h =>
      hRank h.symm
    simp [entriesAt, put, hRank, hNe]

/- A sequence files exactly the peers that it names. -/
theorem isSome_getAt_putAll
    (self : PeerMap)
    (selfId : PeerId)
    (inserts : List Contact)
    (rank : Nat)
    (peerId : PeerId) :
    ((self.putAll selfId inserts).getAt rank
        peerId).isSome ↔
      (self.getAt rank peerId).isSome ∨
        rank = selfId.distanceRank peerId ∧
          peerId ∈ inserts.map Contact.peerId := by
  induction inserts generalizing self with
  | nil => simp [putAll]
  | cons newPeer rest ih =>
      have hRest :=
        ih (self.put selfId newPeer.address newPeer.peerId)
      rw [getAt_put] at hRest
      rw [putAll, List.foldl_cons, ← putAll, hRest,
        List.map_cons, List.mem_cons]
      by_cases hSame : peerId = newPeer.peerId
      · subst hSame
        by_cases hRank :
            rank = selfId.distanceRank newPeer.peerId
        · simp [hRank]
        · simp [hRank]
      · simp [hSame]

end PeerMap

end WorldDat
