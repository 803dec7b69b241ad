import Mathlib.Algebra.BigOperators.Intervals
import Mathlib.Algebra.Order.BigOperators.Group.Finset
import WorldDat.Listing.Passes
import WorldDat.PeerMap.Basic

/-
  What the widening search of a peer map finds.

  A pass of the search at width `w` from bucket `r` adds the
  bucket `r + w` when there is one.  The test on the other
  side adds bucket 0 in every pass with `w > r` and nothing
  before, so the buckets between 0 and `r` are never read.

  Main declarations:
    * `PeerMap.findClosestPeers_eq_ok`
    * `PeerMap.searchOffset` and `PeerMap.Visits`
    * `PeerMap.mem_found_iff`
-/

------------------------------------------------------------
-- Passes Of The Search
------------------------------------------------------------

namespace WorldDat

open Rust

namespace PeerMap

/- What a pass of the search adds behind the target. -/
def searchBehind
    (self : PeerMap)
    (searchBucket searchWidth : Nat) :
    List (PeerId × SocketAddr) :=
  if searchWidth > searchBucket then
    self.entriesAt (searchBucket - searchWidth)
  else
    []

/- What a pass of the search adds. -/
def searchPass
    (self : PeerMap)
    (searchBucket searchWidth : Nat) :
    List (PeerId × SocketAddr) :=
  self.searchBehind searchBucket searchWidth ++
    self.entriesAt (searchBucket + searchWidth)

/- The peers found when the search starts from a bucket. -/
def found
    (self : PeerMap)
    (searchBucket : Nat) : List (PeerId × SocketAddr) :=
  (Listing.before (self.entriesAt searchBucket)
    (self.searchPass searchBucket)
    Blake2Hash.maxPower).take self.bucketSize

/- There are no entries beyond the last bucket. -/
theorem entriesAt_of_le
    (self : PeerMap)
    {rank : Nat}
    (hRank : Blake2Hash.maxPower ≤ rank) :
    self.entriesAt rank = [] := by
  have hNone : self.buckets[rank]? = none := by
    rw [List.getElem?_eq_none_iff, self.length_buckets]
    exact hRank
  simp [entriesAt, hNone]

/- Reading a bucket by its index gives its entries. -/
theorem index_buckets_eq_ok
    (self : PeerMap)
    {rank : Nat}
    (hRank : rank < Blake2Hash.maxPower) :
    ∃ bucket, index self.buckets rank = .ok bucket ∧
      bucket.knownPeers.iter = self.entriesAt rank := by
  have hLength : rank < self.buckets.length := by
    rw [self.length_buckets]
    exact hRank
  refine ⟨_, index_of_lt hLength, ?_⟩
  simp [entriesAt, hLength]

/- One pass of the loop never panics. -/
theorem searchLoop_succ
    (self : PeerMap)
    {searchBucket : Nat}
    (hBucket : searchBucket < Blake2Hash.maxPower)
    (fuel searchWidth : Nat)
    (results : List (PeerId × SocketAddr)) :
    self.searchLoop searchBucket (fuel + 1) searchWidth
        results =
      if results.length < self.bucketSize ∧
          searchWidth < Blake2Hash.maxPower then
        self.searchLoop searchBucket fuel (searchWidth + 1)
          (results ++
            self.searchPass searchBucket searchWidth)
      else
        .ok results := by
  by_cases hLoop :
      results.length < self.bucketSize ∧
        searchWidth < Blake2Hash.maxPower
  · have hBehind :
        searchBucket - searchWidth <
          Blake2Hash.maxPower := by
      omega
    rcases self.index_buckets_eq_ok hBehind with
      ⟨behind, hIndexBehind, hBehindEntries⟩
    by_cases hAhead :
        searchBucket + searchWidth < Blake2Hash.maxPower
    · rcases self.index_buckets_eq_ok hAhead with
        ⟨ahead, hIndexAhead, hAheadEntries⟩
      by_cases hWide : searchWidth > searchBucket
      · simp [searchLoop, hLoop, hWide, hAhead,
          hIndexBehind, hIndexAhead, hBehindEntries,
          hAheadEntries, searchPass, searchBehind, bind,
          Except.bind, pure, Except.pure]
      · simp [searchLoop, hLoop, hWide, hAhead,
          hIndexAhead, hAheadEntries, searchPass,
          searchBehind, bind, Except.bind, pure,
          Except.pure]
    · have hNone :=
        self.entriesAt_of_le (Nat.le_of_not_lt hAhead)
      by_cases hWide : searchWidth > searchBucket
      · simp [searchLoop, hLoop, hWide, hAhead,
          hIndexBehind, hBehindEntries, hNone, searchPass,
          searchBehind, bind, Except.bind, pure,
          Except.pure]
      · simp [searchLoop, hLoop, hWide, hAhead, hNone,
          searchPass, searchBehind, bind, Except.bind,
          pure, Except.pure]
  · simp [searchLoop, hLoop]

/- The loop gathers what its passes add. -/
theorem searchLoop_eq_ok
    (self : PeerMap)
    {searchBucket : Nat}
    (hBucket : searchBucket < Blake2Hash.maxPower)
    (fuel searchWidth : Nat)
    (results : List (PeerId × SocketAddr)) :
    self.searchLoop searchBucket fuel searchWidth results =
      .ok
        (Listing.gather (self.searchPass searchBucket)
          self.bucketSize Blake2Hash.maxPower fuel
          searchWidth results) := by
  induction fuel generalizing searchWidth results with
  | zero => rfl
  | succ fuel ih =>
      rw [self.searchLoop_succ hBucket, Listing.gather]
      split
      · exact ih (searchWidth + 1) _
      · rfl

/- The search never panics and returns what it found. -/
theorem findClosestPeers_eq_ok
    (self : PeerMap)
    (selfId peerId : PeerId) :
    self.findClosestPeers selfId peerId =
      .ok (self.found (selfId.distanceRank peerId)) := by
  have hRank := PeerId.distanceRank_lt selfId peerId
  rcases self.index_buckets_eq_ok hRank with
    ⟨bucket, hIndex, hEntries⟩
  have hTake :=
    Listing.take_gather
      (self.entriesAt (selfId.distanceRank peerId))
      (self.searchPass (selfId.distanceRank peerId))
      self.bucketSize Blake2Hash.maxPower 1 (Nat.le_refl 1)
      (by decide) (Nat.le_add_left _ 1)
  rw [Listing.before_one] at hTake
  simp [findClosestPeers, hIndex, hEntries,
    self.searchLoop_eq_ok hRank, hTake, found, bind,
    Except.bind, pure, Except.pure]

/- Looking up a known peer gives its address. -/
theorem lookup_eq_ok_of_find
    (self : PeerMap)
    {selfId peerId : PeerId}
    {addr : SocketAddr}
    (hFind : self.find selfId peerId = some addr) :
    self.lookup selfId peerId = .ok (.ok (peerId, addr)) := by
  simp [lookup, contains_eq_ok, hFind, bind, Except.bind,
    pure, Except.pure]

/- Looking up an unknown peer gives what the search found. -/
theorem lookup_eq_ok_of_find_none
    (self : PeerMap)
    {selfId peerId : PeerId}
    (hFind : self.find selfId peerId = none) :
    self.lookup selfId peerId =
      .ok (.error
        (self.found (selfId.distanceRank peerId))) := by
  simp [lookup, contains_eq_ok, findClosestPeers_eq_ok,
    hFind, bind, Except.bind, pure, Except.pure]

end PeerMap

end WorldDat

------------------------------------------------------------
-- Offsets Of The Buckets
------------------------------------------------------------

namespace WorldDat

namespace PeerMap

/- The number of entries filed at a rank. -/
def population
    (self : PeerMap)
    (rank : Nat) : Nat :=
  (self.entriesAt rank).length

/- The search from a bucket reads the bucket of a rank. -/
def Visits (searchBucket rank : Nat) : Prop :=
  searchBucket ≤ rank ∨
    rank = 0 ∧ searchBucket + 1 < Blake2Hash.maxPower

/-
  The number of entries collected before the bucket of a
  rank is read for the first time.  Bucket 0 is collected
  again in each pass wider than the starting index.
-/
def searchOffset
    (self : PeerMap)
    (searchBucket rank : Nat) : Nat :=
  if searchBucket ≤ rank then
    ∑ k ∈ Finset.Ico searchBucket rank, self.population k +
      (rank - 2 * searchBucket) * self.population 0
  else
    ∑ k ∈ Finset.Ico searchBucket (2 * searchBucket + 1),
      self.population k

/- The passes wider than the start each read bucket 0. -/
theorem length_searchBehind_add
    (self : PeerMap)
    (searchBucket width : Nat) :
    (self.searchBehind searchBucket width).length +
        (width - 1 - searchBucket) * self.population 0 =
      (width - searchBucket) * self.population 0 := by
  by_cases hWide : width > searchBucket
  · have hZero : searchBucket - width = 0 := by omega
    have hCount :
        width - searchBucket =
          (width - 1 - searchBucket) + 1 := by
      omega
    rw [searchBehind, if_pos hWide, hZero, hCount,
      Nat.succ_mul, Nat.add_comm, population]
  · have hBefore : width - 1 - searchBucket = 0 := by omega
    have hAfter : width - searchBucket = 0 := by omega
    simp [searchBehind, hWide, hBefore, hAfter]

/- The size of what has been collected before a pass. -/
theorem length_before_searchPass
    (self : PeerMap)
    (searchBucket : Nat)
    {width : Nat}
    (hWidth : 1 ≤ width) :
    (Listing.before (self.entriesAt searchBucket)
        (self.searchPass searchBucket) width).length =
      ∑ k ∈ Finset.Ico searchBucket (searchBucket + width),
          self.population k +
        (width - 1 - searchBucket) * self.population 0 := by
  induction width, hWidth using Nat.le_induction with
  | base => simp [population]
  | succ width hWidth ih =>
      have hBehind :=
        self.length_searchBehind_add searchBucket width
      rw [Listing.before_succ _ _ hWidth, List.length_append,
        ih, ← Nat.add_assoc searchBucket width 1,
        Finset.sum_Ico_succ_top (by omega),
        Nat.add_sub_cancel, ← hBehind]
      simp only [searchPass, List.length_append, population]
      omega

/- An entry is found where its bucket is first read. -/
theorem mem_found_of_visits
    (self : PeerMap)
    {searchBucket rank position : Nat}
    {entry : PeerId × SocketAddr}
    (hVisits : Visits searchBucket rank)
    (hOffset :
      self.searchOffset searchBucket rank + position <
        self.bucketSize)
    (hEntry :
      (self.entriesAt rank)[position]? = some entry) :
    entry ∈ self.found searchBucket := by
  have hRank : rank < Blake2Hash.maxPower := by
    by_contra hNot
    rw [self.entriesAt_of_le (Nat.le_of_not_lt hNot)]
      at hEntry
    cases hEntry
  unfold found
  rw [Listing.mem_take_before_iff _ _ (by decide)]
  rcases Nat.lt_or_ge rank searchBucket with hLt | hLe
  · -- bucket 0, read by the first pass that is wide enough
    rcases hVisits with hLe | ⟨hZero, hPasses⟩
    · omega
    · subst hZero
      have hLength : position < (self.entriesAt 0).length :=
        (List.getElem?_eq_some_iff.mp hEntry).1
      have hSum :
          searchBucket + (searchBucket + 1) =
            2 * searchBucket + 1 := by
        omega
      refine
        Or.inr
          ⟨searchBucket + 1, position, by omega, by omega,
            ?_, ?_⟩
      · rw [searchOffset, if_neg (by omega)] at hOffset
        rw [self.length_before_searchPass _ (by omega), hSum]
        simpa using hOffset
      · simp [searchPass, searchBehind,
          List.getElem?_append_left, hLength, ← hEntry]
  · rcases Nat.eq_or_lt_of_le hLe with hStart | hAhead
    · subst hStart
      exact Or.inl ⟨position, by omega, hEntry⟩
    · -- a bucket ahead, read by the pass of its distance
      rcases Nat.exists_eq_add_of_lt hAhead with ⟨k, hWidth⟩
      rw [Nat.add_assoc] at hWidth
      subst hWidth
      have hBehind :=
        self.length_searchBehind_add searchBucket (k + 1)
      have hTwice :
          searchBucket + (k + 1) - 2 * searchBucket =
            k + 1 - searchBucket := by
        omega
      refine
        Or.inr
          ⟨k + 1,
            (self.searchBehind searchBucket (k + 1)).length +
              position,
            by omega, by omega, ?_, ?_⟩
      · rw [searchOffset, if_pos hLe, hTwice, ← hBehind]
          at hOffset
        rw [self.length_before_searchPass _ (by omega)]
        omega
      · rw [searchPass,
          List.getElem?_append_right (by omega),
          Nat.add_sub_cancel_left, hEntry]

/- What is found sits in a bucket that the search reads. -/
theorem exists_visits_of_mem_found
    (self : PeerMap)
    {searchBucket : Nat}
    {entry : PeerId × SocketAddr}
    (hFound : entry ∈ self.found searchBucket) :
    ∃ rank position,
      Visits searchBucket rank ∧
        self.searchOffset searchBucket rank + position <
          self.bucketSize ∧
        (self.entriesAt rank)[position]? = some entry := by
  unfold found at hFound
  rw [Listing.mem_take_before_iff _ _ (by decide)] at hFound
  rcases hFound with
    ⟨position, hBound, hEntry⟩ |
      ⟨width, position, hLow, hHigh, hBound, hEntry⟩
  · refine
      ⟨searchBucket, position, Or.inl (Nat.le_refl _),
        ?_, hEntry⟩
    have hZero :
        searchBucket - 2 * searchBucket = 0 := by
      omega
    simpa [searchOffset, hZero] using hBound
  · have hBehind :=
      self.length_searchBehind_add searchBucket width
    rw [self.length_before_searchPass _ hLow] at hBound
    rw [searchPass, List.getElem?_append] at hEntry
    by_cases hSide :
        position <
          (self.searchBehind searchBucket width).length
    · -- behind the target only bucket 0 is ever read
      rw [if_pos hSide] at hEntry
      have hWide : width > searchBucket := by
        by_contra hNot
        simp [searchBehind, hNot] at hSide
      have hZero : searchBucket - width = 0 := by omega
      rw [searchBehind, if_pos hWide, hZero] at hEntry
      refine ⟨0, position, ?_, ?_, hEntry⟩
      · rcases Nat.eq_zero_or_pos searchBucket with
          hStart | hStart
        · exact Or.inl (by omega)
        · exact Or.inr ⟨rfl, by omega⟩
      · rcases Nat.eq_zero_or_pos searchBucket with
          hStart | hStart
        · subst hStart
          simp only [searchOffset, Nat.le_refl, if_true,
            Finset.Ico_self, Finset.sum_empty, Nat.mul_zero,
            Nat.sub_self, Nat.zero_mul]
          omega
        · rw [searchOffset, if_neg (by omega)]
          have hMono :
              ∑ k ∈ Finset.Ico searchBucket
                    (2 * searchBucket + 1),
                  self.population k ≤
                ∑ k ∈ Finset.Ico searchBucket
                    (searchBucket + width),
                  self.population k := by
            apply Finset.sum_le_sum_of_subset
            apply Finset.Ico_subset_Ico_right
            omega
          omega
    · rw [if_neg hSide] at hEntry
      refine
        ⟨searchBucket + width, _, Or.inl (by omega), ?_,
          hEntry⟩
      have hTwice :
          searchBucket + width - 2 * searchBucket =
            width - searchBucket := by
        omega
      rw [searchOffset, if_pos (by omega), hTwice, ← hBehind]
      omega

/-
  The search finds exactly the entries that stand before
  position `bucketSize`, counted from the first reading of
  their bucket.
-/
theorem mem_found_iff
    (self : PeerMap)
    (searchBucket : Nat)
    (entry : PeerId × SocketAddr) :
    entry ∈ self.found searchBucket ↔
      ∃ rank position,
        Visits searchBucket rank ∧
          self.searchOffset searchBucket rank + position <
            self.bucketSize ∧
          (self.entriesAt rank)[position]? =
            some entry := by
  constructor
  · intro hFound
    exact self.exists_visits_of_mem_found hFound
  · intro hPlace
    rcases hPlace with
      ⟨rank, position, hVisits, hOffset, hEntry⟩
    exact self.mem_found_of_visits hVisits hOffset hEntry

end PeerMap

end WorldDat
