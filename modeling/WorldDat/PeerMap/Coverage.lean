import WorldDat.Listing.Readings
import WorldDat.PeerMap.Search

/-
  Whom the widening search of a peer map lists twice, and
  whom it loses.

  The guard of the search lets the saturated index through
  and nothing else.  So the search reads bucket 0 again and
  again once it is wider than its starting index, and never
  reads the buckets between bucket 0 and the one it starts
  from.

  Main declarations:
    * `PeerMap.readings`
    * `PeerMap.ReadsOnce` and `PeerMap.nodup_ids_found_iff`
    * `PeerMap.findClosestPeers_nodup_iff`
    * `PeerMap.findClosestPeers_losesNobody_iff`
-/

------------------------------------------------------------
-- Peer Maps Built By Inserts
------------------------------------------------------------

namespace WorldDat

open Rust

namespace PeerMap

/- No two buckets hold the same peer. -/
theorem FiledBy.separate
    {self : PeerMap}
    {selfId : PeerId}
    (hFiled : self.FiledBy selfId) :
    Listing.Separate self.idsAt where
  nodup := self.nodup_idsAt
  apart := by
    intro i j peerId hLeft hRight
    rw [mem_idsAt_iff, Option.isSome_iff_exists]
      at hLeft hRight
    rcases hLeft with ⟨left, hLeft⟩
    rcases hRight with ⟨right, hRight⟩
    rw [hFiled i peerId left hLeft,
      hFiled j peerId right hRight]

end PeerMap

end WorldDat

------------------------------------------------------------
-- Readings Of The Search
------------------------------------------------------------

namespace WorldDat

namespace PeerMap

/- The buckets that a pass of the search reads. -/
def passReadings
    (searchBucket searchWidth : Nat) : List Nat :=
  (if searchWidth > searchBucket then [0] else []) ++
    [searchBucket + searchWidth]

/- The buckets that are read before a pass of the search. -/
def readings
    (searchBucket searchWidth : Nat) : List Nat :=
  Listing.before [searchBucket] (passReadings searchBucket)
    searchWidth

/- A pass adds the peers of the buckets that it reads. -/
theorem map_fst_searchPass
    (self : PeerMap)
    (searchBucket searchWidth : Nat) :
    (self.searchPass searchBucket searchWidth).map Prod.fst =
      Listing.collected self.idsAt
        (passReadings searchBucket searchWidth) := by
  unfold searchPass searchBehind passReadings
  by_cases hWide : searchWidth > searchBucket
  · have hZero : searchBucket - searchWidth = 0 := by omega
    rw [if_pos hWide, if_pos hWide, hZero]
    simp [Listing.collected, idsAt]
  · rw [if_neg hWide, if_neg hWide]
    simp [Listing.collected, idsAt]

/- What is collected before a pass, by the buckets read. -/
theorem map_fst_before
    (self : PeerMap)
    (searchBucket width : Nat) :
    (Listing.before (self.entriesAt searchBucket)
        (self.searchPass searchBucket) width).map Prod.fst =
      Listing.collected self.idsAt
        (readings searchBucket width) := by
  have hPasses :
      (fun v =>
          (self.searchPass searchBucket v).map Prod.fst) =
        fun v =>
          Listing.collected self.idsAt
            (passReadings searchBucket v) := by
    funext width
    exact self.map_fst_searchPass searchBucket width
  unfold readings
  rw [Listing.map_before, Listing.collected_before, hPasses]
  simp [Listing.collected, idsAt]

/- The search first reads the buckets ahead, one by one. -/
theorem readings_of_le
    {searchBucket width : Nat}
    (hPositive : 1 ≤ width)
    (hWidth : width ≤ searchBucket + 1) :
    readings searchBucket width =
      List.range' searchBucket width := by
  unfold readings
  induction width, hPositive using Nat.le_induction with
  | base => simp
  | succ width hPositive ih =>
      rw [Listing.before_succ _ _ hPositive, ih (by omega),
        passReadings, if_neg (by omega), List.nil_append,
        List.range'_concat, Nat.one_mul]

/- The first pass that is wide enough reads bucket 0. -/
theorem readings_add_two (searchBucket : Nat) :
    readings searchBucket (searchBucket + 2) =
      List.range' searchBucket (searchBucket + 1) ++
        [0, 2 * searchBucket + 1] := by
  have hBefore :=
    readings_of_le (Nat.le_add_left 1 searchBucket)
      (Nat.le_refl _)
  unfold readings at hBefore ⊢
  rw [Listing.before_succ _ _ (by omega), hBefore,
    passReadings, if_pos (by omega)]
  have hAhead :
      searchBucket + (searchBucket + 1) =
        2 * searchBucket + 1 := by
    omega
  rw [hAhead]
  rfl

/- Up to then no bucket is read twice. -/
theorem nodup_readings
    {searchBucket width : Nat}
    (hPositive : 1 ≤ width)
    (hWidth :
      width ≤ searchBucket + 1 ∨
        0 < searchBucket ∧ width = searchBucket + 2) :
    (readings searchBucket width).Nodup := by
  rcases hWidth with hWidth | ⟨hStart, hWidth⟩
  · rw [readings_of_le hPositive hWidth]
    exact List.nodup_range'
  · rw [hWidth, readings_add_two, List.nodup_append]
    refine ⟨List.nodup_range', ?_, ?_⟩
    · simp
    · intro ahead hAhead last hLast hSame
      rw [List.mem_range'_1] at hAhead
      simp only [List.mem_cons, List.not_mem_nil,
        or_false] at hLast
      omega

/- The pass at which bucket 0 is read for the second time. -/
def secondPass (searchBucket : Nat) : Nat :=
  if searchBucket = 0 then 1 else searchBucket + 2

/- No bucket is read twice before the second pass. -/
theorem nodup_readings_secondPass (searchBucket : Nat) :
    (readings searchBucket
      (secondPass searchBucket)).Nodup := by
  unfold secondPass
  split
  · apply nodup_readings
    · omega
    · omega
  · apply nodup_readings
    · omega
    · omega

/- The second pass reads bucket 0 first. -/
theorem readings_eq_append
    {searchBucket width : Nat}
    (hWidth : secondPass searchBucket < width) :
    ∃ later,
      readings searchBucket width =
          readings searchBucket (secondPass searchBucket) ++
            0 :: later ∧
        0 ∈ readings searchBucket
          (secondPass searchBucket) := by
  have hPositive : 1 ≤ secondPass searchBucket := by
    unfold secondPass
    split <;> omega
  have hWide : secondPass searchBucket > searchBucket := by
    unfold secondPass
    split <;> omega
  have hCount :
      width - secondPass searchBucket =
        (width - secondPass searchBucket - 1) + 1 := by
    omega
  have hZero :
      0 ∈ readings searchBucket
        (secondPass searchBucket) := by
    unfold secondPass
    by_cases hStart : searchBucket = 0
    · rw [if_pos hStart, hStart]
      simp [readings]
    · rw [if_neg hStart, readings_add_two]
      simp
  unfold readings at hZero ⊢
  rw [Listing.before_eq_append _ _ hPositive
    (Nat.le_of_lt hWidth), hCount, List.range'_succ,
    List.flatMap_cons]
  rw [passReadings, if_pos hWide, List.append_assoc]
  exact ⟨_, rfl, hZero⟩

/- Without peers in bucket 0 only the buckets ahead count. -/
theorem collected_readings_of_empty
    {self : PeerMap}
    (hEmpty : self.idsAt 0 = [])
    (searchBucket : Nat)
    {width : Nat}
    (hPositive : 1 ≤ width) :
    Listing.collected self.idsAt
        (readings searchBucket width) =
      Listing.collected self.idsAt
        (List.range' searchBucket width) := by
  unfold readings
  induction width, hPositive using Nat.le_induction with
  | base => simp
  | succ width hPositive ih =>
      have hPass :
          Listing.collected self.idsAt
              (passReadings searchBucket width) =
            self.idsAt (searchBucket + width) := by
        unfold passReadings Listing.collected
        by_cases hWide : width > searchBucket
        · simp [hWide, hEmpty]
        · simp [hWide]
      rw [Listing.before_succ _ _ hPositive,
        Listing.collected_append, ih, hPass,
        List.range'_concat, Listing.collected_append,
        Nat.one_mul]
      simp [Listing.collected]

end PeerMap

end WorldDat

------------------------------------------------------------
-- Duplicates
------------------------------------------------------------

namespace WorldDat

open Rust

namespace PeerMap

/-
  The number of entries collected before bucket 0 is read for
  the second time.
-/
def secondReading
    (self : PeerMap)
    (searchBucket : Nat) : Nat :=
  if searchBucket = 0 then
    self.population 0
  else
    ∑ k ∈ Finset.Ico searchBucket (2 * searchBucket + 2),
      self.population k + self.population 0

/-
  Bucket 0 is empty, or there are not enough passes to read
  it twice, or enough has been collected by then.
-/
def ReadsOnce
    (self : PeerMap)
    (searchBucket : Nat) : Prop :=
  self.population 0 = 0 ∨
    Blake2Hash.maxPower ≤ searchBucket + 2 ∨
      self.bucketSize ≤ self.secondReading searchBucket

@[simp] theorem length_idsAt
    (self : PeerMap)
    (rank : Nat) :
    (self.idsAt rank).length = self.population rank := by
  unfold idsAt population
  exact List.length_map _

/- A bucket with entries holds the id of somebody. -/
theorem idsAt_ne_nil
    (self : PeerMap)
    {rank : Nat}
    (hPopulation : self.population rank ≠ 0) :
    self.idsAt rank ≠ [] := by
  rw [← List.length_pos_iff, length_idsAt]
  exact Nat.pos_of_ne_zero hPopulation

/- What is collected before the second reading. -/
theorem length_collected_secondPass
    (self : PeerMap)
    (searchBucket : Nat) :
    (Listing.collected self.idsAt
        (readings searchBucket
          (secondPass searchBucket))).length =
      self.secondReading searchBucket := by
  have hPositive : 1 ≤ secondPass searchBucket := by
    unfold secondPass
    split <;> omega
  rw [← self.map_fst_before, List.length_map]
  unfold secondPass secondReading
  by_cases hStart : searchBucket = 0
  · rw [if_pos hStart, if_pos hStart, hStart,
      Listing.before_one, population]
  · have hOnce :
        searchBucket + 2 - 1 - searchBucket = 1 := by
      omega
    have hEnd :
        searchBucket + (searchBucket + 2) =
          2 * searchBucket + 2 := by
      omega
    rw [if_neg hStart, if_neg hStart,
      self.length_before_searchPass _ (by omega), hOnce,
      hEnd, Nat.one_mul]

/- The ids found are an initial part of those collected. -/
theorem ids_found
    (self : PeerMap)
    (searchBucket : Nat) :
    (self.found searchBucket).map Prod.fst =
      (Listing.collected self.idsAt
        (readings searchBucket
          Blake2Hash.maxPower)).take self.bucketSize := by
  unfold found
  rw [List.map_take, self.map_fst_before]

/-
  Nobody is found twice exactly when bucket 0 is not read
  again before enough has been collected.
-/
theorem nodup_ids_found_iff
    {self : PeerMap}
    {selfId : PeerId}
    (hFiled : self.FiledBy selfId)
    {searchBucket : Nat}
    (hBucket : searchBucket < Blake2Hash.maxPower) :
    ((self.found searchBucket).map Prod.fst).Nodup ↔
      self.ReadsOnce searchBucket := by
  have hSeparate := hFiled.separate
  unfold ReadsOnce
  rw [ids_found]
  by_cases hEmpty : self.population 0 = 0
  · have hNobody : self.idsAt 0 = [] := by
      apply List.eq_nil_of_length_eq_zero
      rw [length_idsAt]
      exact hEmpty
    rw [collected_readings_of_empty hNobody _ (by decide)]
    refine iff_of_true ?_ (Or.inl hEmpty)
    apply (List.take_sublist _ _).nodup
    exact
      Listing.nodup_collected hSeparate List.nodup_range'
  · by_cases hLast :
        Blake2Hash.maxPower ≤ searchBucket + 2
    · refine iff_of_true ?_ (Or.inr (Or.inl hLast))
      apply (List.take_sublist _ _).nodup
      apply Listing.nodup_collected hSeparate
      have hPower : Blake2Hash.maxPower = 256 := rfl
      apply nodup_readings (by decide)
      omega
    · have hPower : Blake2Hash.maxPower = 256 := rfl
      have hSecond :
          secondPass searchBucket < Blake2Hash.maxPower := by
        unfold secondPass
        split <;> omega
      rcases readings_eq_append hSecond with
        ⟨later, hReadings, hZero⟩
      rcases List.exists_cons_of_ne_nil
          (self.idsAt_ne_nil hEmpty) with
        ⟨peerId, rest, hIds⟩
      have hAgain : ∀ x ∈
          (Listing.collected self.idsAt (0 :: later)).head?,
            ∃ i ∈ readings searchBucket
              (secondPass searchBucket),
              x ∈ self.idsAt i := by
        intro x hHead
        refine ⟨0, hZero, ?_⟩
        rw [Listing.collected, List.flatMap_cons,
          hIds] at hHead
        cases hHead
        rw [hIds]
        exact List.mem_cons_self
      have hMore :
          Listing.collected self.idsAt (0 :: later) ≠ [] := by
        rw [Listing.collected, List.flatMap_cons, hIds]
        exact List.cons_ne_nil _ _
      rw [hReadings,
        Listing.nodup_take_collected_iff hSeparate
          (nodup_readings_secondPass searchBucket) hAgain,
        self.length_collected_secondPass]
      constructor
      · intro hEnd
        rcases hEnd with hEnough | hNothing
        · exact Or.inr (Or.inr hEnough)
        · exact absurd hNothing hMore
      · intro hOnce
        rcases hOnce with hNobody | hFew | hEnough
        · exact absurd hNobody hEmpty
        · exact absurd hFew hLast
        · exact Or.inl hEnough

/-
  In every map built by inserts, the search names nobody
  twice exactly when bucket 0 is not read again before enough
  has been collected.
-/
theorem findClosestPeers_nodup_iff
    (hasher : PeerHasher)
    (selfId : PeerId)
    (inserts : List Contact)
    (target : PeerId) :
    ∃ self results,
      (default hasher).insertAll selfId inserts = .ok self ∧
        self.findClosestPeers selfId target = .ok results ∧
        ((results.map Prod.fst).Nodup ↔
          self.ReadsOnce (selfId.distanceRank target)) := by
  have hFiled : ((default hasher).putAll selfId
      inserts).FiledBy selfId :=
    (filedBy_default hasher selfId).putAll inserts
  refine
    ⟨_, _, insertAll_eq_ok _ selfId inserts,
      findClosestPeers_eq_ok _ selfId target, ?_⟩
  apply nodup_ids_found_iff hFiled
  exact PeerId.distanceRank_lt selfId target

/- A peer may be found many times over. -/
theorem findClosestPeers_duplicates :
    ¬ ∀ (hasher : PeerHasher)
        (selfId : PeerId)
        (inserts : List Contact)
        (target : PeerId)
        (self : PeerMap)
        (results : List (PeerId × SocketAddr)),
      (default hasher).insertAll selfId inserts =
          .ok self →
        self.findClosestPeers selfId target = .ok results →
          (results.map Prod.fst).Nodup := by
  intro hClaim
  let hasher :=
    RandomState.insertionOrder PeerId SocketAddr
  let selfId := PeerId.repeating 0
  let target :=
    PeerId.raw (0xC0 :: List.replicate 31 0) rfl
  let inserts : List Contact :=
    [{ peerId :=
         PeerId.raw (0x80 :: List.replicate 31 0) rfl
       address := .v4 0x0A000002 4433 }]
  have hNodup :=
    hClaim hasher selfId inserts target _ _
      (insertAll_eq_ok _ selfId inserts)
      (findClosestPeers_eq_ok _ selfId target)
  have hRank : selfId.distanceRank target = 0 := by
    decide +kernel
  have hFiled : ((default hasher).putAll selfId
      inserts).FiledBy selfId :=
    (filedBy_default hasher selfId).putAll inserts
  rw [hRank, nodup_ids_found_iff hFiled (by decide)]
    at hNodup
  have hOne :
      ((default hasher).putAll selfId inserts).population
        0 = 1 := by
    decide +kernel
  rcases hNodup with hNobody | hFew | hEnough
  · omega
  · exact absurd hFew (by decide)
  · rw [secondReading, if_pos rfl, hOne] at hEnough
    exact absurd hEnough (by decide +kernel)

end PeerMap

end WorldDat

------------------------------------------------------------
-- Losses
------------------------------------------------------------

namespace WorldDat

open Rust

namespace PeerMap

/-
  All known peers are listed if they are few, and otherwise
  as many different ones as fit into a bucket.
-/
structure LosesNobody
    (map : PeerMap)
    (results : List (PeerId × SocketAddr)) : Prop where
  few : map.entries.length ≤ map.bucketSize →
    ∀ entry ∈ map.entries, entry ∈ results
  many : map.bucketSize < map.entries.length →
    map.bucketSize ≤ (results.map Prod.fst).dedup.length

/- The number of entries in the buckets that are ever read. -/
def readable
    (self : PeerMap)
    (searchBucket : Nat) : Nat :=
  ∑ k ∈ Finset.Ico searchBucket Blake2Hash.maxPower,
      self.population k +
    if 0 < searchBucket ∧
        searchBucket + 1 < Blake2Hash.maxPower then
      self.population 0
    else
      0

/-
  If there are few peers, every bucket that holds any is read
  to its end before the search has collected enough.  If
  there are many, the buckets that are read hold enough, and
  bucket 0 is not read again before that.
-/
structure ReadsEnough
    (map : PeerMap)
    (searchBucket : Nat) : Prop where
  few : map.entries.length ≤ map.bucketSize →
    ∀ rank, 0 < map.population rank →
      Visits searchBucket rank ∧
        map.searchOffset searchBucket rank +
            map.population rank ≤
          map.bucketSize
  many : map.bucketSize < map.entries.length →
    map.ReadsOnce searchBucket ∧
      map.bucketSize ≤ map.readable searchBucket

/- An entry stands at one place only. -/
theorem FiledBy.place_unique
    {self : PeerMap}
    {selfId : PeerId}
    (hFiled : self.FiledBy selfId)
    {entry : PeerId × SocketAddr}
    {rank rank' position position' : Nat}
    (hEntry :
      (self.entriesAt rank)[position]? = some entry)
    (hEntry' :
      (self.entriesAt rank')[position']? = some entry) :
    rank' = rank ∧ position' = position := by
  have hId :
      (self.idsAt rank)[position]? = some entry.1 := by
    rw [idsAt, List.getElem?_map, hEntry]
    rfl
  have hId' :
      (self.idsAt rank')[position']? = some entry.1 := by
    rw [idsAt, List.getElem?_map, hEntry']
    rfl
  have hRank : rank' = rank :=
    hFiled.separate.apart rank' rank entry.1
      (List.mem_of_getElem? hId')
      (List.mem_of_getElem? hId)
  refine ⟨hRank, ?_⟩
  rw [hRank, ← hId] at hId'
  have hLength : position < (self.idsAt rank).length :=
    (List.getElem?_eq_some_iff.mp hId).1
  exact
    ((List.getElem?_inj hLength (self.nodup_idsAt rank)).mp
      hId'.symm).symm

/- Everybody is found when every bucket is read to its end. -/
theorem all_found_iff
    {self : PeerMap}
    {selfId : PeerId}
    (hFiled : self.FiledBy selfId)
    (searchBucket : Nat) :
    (∀ entry ∈ self.entries,
        entry ∈ self.found searchBucket) ↔
      ∀ rank, 0 < self.population rank →
        Visits searchBucket rank ∧
          self.searchOffset searchBucket rank +
              self.population rank ≤
            self.bucketSize := by
  constructor
  · intro hAll rank hPopulation
    have hLast :
        self.population rank - 1 <
          (self.entriesAt rank).length := by
      unfold population
      unfold population at hPopulation
      omega
    have hEntry := List.getElem?_eq_getElem hLast
    have hKnown :
        (self.entriesAt rank)[self.population rank - 1] ∈
          self.entries := by
      rw [mem_entries_iff]
      refine ⟨rank, ?_⟩
      rw [← mem_entriesAt_iff]
      exact List.getElem_mem hLast
    rcases (self.mem_found_iff _ _).mp (hAll _ hKnown) with
      ⟨rank', position, hVisits, hOffset, hEntry'⟩
    rcases hFiled.place_unique hEntry hEntry' with
      ⟨hRank, hPosition⟩
    rw [hRank] at hVisits hOffset
    refine ⟨hVisits, ?_⟩
    omega
  · intro hRead entry hEntry
    rcases entry with ⟨peerId, addr⟩
    rw [mem_entries_iff] at hEntry
    rcases hEntry with ⟨rank, hGet⟩
    rw [← mem_entriesAt_iff] at hGet
    rcases List.mem_iff_getElem?.mp hGet with
      ⟨position, hPlace⟩
    have hPosition : position < self.population rank :=
      (List.getElem?_eq_some_iff.mp hPlace).1
    rcases hRead rank (by omega) with ⟨hVisits, hOffset⟩
    apply self.mem_found_of_visits hVisits ?_ hPlace
    omega

/- Only the buckets there are count. -/
theorem sum_population_le
    (self : PeerMap)
    (searchBucket last : Nat) :
    ∑ k ∈ Finset.Ico searchBucket last,
        self.population k ≤
      ∑ k ∈ Finset.Ico searchBucket Blake2Hash.maxPower,
        self.population k := by
  apply Finset.sum_le_sum_of_ne_zero
  intro k hRange hPopulation
  rw [Finset.mem_Ico] at hRange ⊢
  refine ⟨hRange.1, ?_⟩
  by_contra hNot
  apply hPopulation
  rw [population, self.entriesAt_of_le (Nat.le_of_not_lt hNot)]
  rfl

/-
  If bucket 0 is not read again too early, what the search
  collects reaches the bucket size just when the buckets that
  are ever read do.
-/
theorem le_length_collected_iff
    {self : PeerMap}
    {searchBucket : Nat}
    (hBucket : searchBucket < Blake2Hash.maxPower)
    (hOnce : self.ReadsOnce searchBucket) :
    self.bucketSize ≤
        (Listing.collected self.idsAt
          (readings searchBucket
            Blake2Hash.maxPower)).length ↔
      self.bucketSize ≤ self.readable searchBucket := by
  have hPower : Blake2Hash.maxPower = 256 := rfl
  have hAll :
      ∑ k ∈ Finset.Ico searchBucket
            (searchBucket + Blake2Hash.maxPower),
          self.population k =
        ∑ k ∈ Finset.Ico searchBucket Blake2Hash.maxPower,
          self.population k := by
    apply Nat.le_antisymm
    · exact self.sum_population_le _ _
    · apply Finset.sum_le_sum_of_subset
      apply Finset.Ico_subset_Ico_right
      omega
  rw [← self.map_fst_before, List.length_map,
    self.length_before_searchPass _ (by decide), hAll,
    readable]
  rcases hOnce with hNobody | hLast | hEnough
  · rw [hNobody]
    simp
  · rcases Nat.lt_or_ge (searchBucket + 1)
        Blake2Hash.maxPower with hOne | hNone
    · -- one pass is wide enough
      have hCount :
          Blake2Hash.maxPower - 1 - searchBucket = 1 := by
        omega
      rw [if_pos ⟨by omega, hOne⟩, hCount, Nat.one_mul]
    · have hCount :
          Blake2Hash.maxPower - 1 - searchBucket = 0 := by
        omega
      rw [if_neg (by omega), hCount, Nat.zero_mul]
  · -- enough has been collected by the first reading
    have hAhead :=
      self.sum_population_le searchBucket
        (2 * searchBucket + 2)
    unfold secondReading at hEnough
    by_cases hStart : searchBucket = 0
    · have hZero :
          self.population 0 ≤
            ∑ k ∈ Finset.Ico searchBucket
              Blake2Hash.maxPower, self.population k := by
        apply Finset.single_le_sum
          (f := self.population)
        · intro k _
          exact Nat.zero_le _
        · rw [Finset.mem_Ico]
          omega
      rw [if_pos hStart] at hEnough
      omega
    · rw [if_neg hStart] at hEnough
      rcases Nat.lt_or_ge (searchBucket + 1)
          Blake2Hash.maxPower with hOne | hNone
      · have hCount :
            1 ≤ Blake2Hash.maxPower - 1 - searchBucket := by
          omega
        have hAgain :=
          Nat.mul_le_mul_right (self.population 0) hCount
        rw [if_pos ⟨by omega, hOne⟩]
        omega
      · have hCount :
            Blake2Hash.maxPower - 1 - searchBucket = 0 := by
          omega
        rw [if_neg (by omega), hCount, Nat.zero_mul]

/- As many different peers are found as fit into a bucket. -/
theorem le_length_dedup_found_iff
    {self : PeerMap}
    {selfId : PeerId}
    (hFiled : self.FiledBy selfId)
    {searchBucket : Nat}
    (hBucket : searchBucket < Blake2Hash.maxPower) :
    self.bucketSize ≤
        ((self.found searchBucket).map
          Prod.fst).dedup.length ↔
      self.ReadsOnce searchBucket ∧
        self.bucketSize ≤ self.readable searchBucket := by
  have hLength :
      ((self.found searchBucket).map Prod.fst).length ≤
        self.bucketSize := by
    rw [ids_found]
    exact List.length_take_le _ _
  rw [Listing.le_length_dedup_iff hLength,
    nodup_ids_found_iff hFiled hBucket]
  apply and_congr_right
  intro hOnce
  rw [← le_length_collected_iff hBucket hOnce, ids_found,
    List.length_take, Nat.le_min]
  exact and_iff_right (Nat.le_refl _)

/-
  In every map built by inserts, the search loses nobody
  exactly when it reads enough.
-/
theorem findClosestPeers_losesNobody_iff
    (hasher : PeerHasher)
    (selfId : PeerId)
    (inserts : List Contact)
    (target : PeerId) :
    ∃ self results,
      (default hasher).insertAll selfId inserts = .ok self ∧
        self.findClosestPeers selfId target = .ok results ∧
        (self.LosesNobody results ↔
          self.ReadsEnough
            (selfId.distanceRank target)) := by
  have hFiled : ((default hasher).putAll selfId
      inserts).FiledBy selfId :=
    (filedBy_default hasher selfId).putAll inserts
  have hBucket := PeerId.distanceRank_lt selfId target
  refine
    ⟨_, _, insertAll_eq_ok _ selfId inserts,
      findClosestPeers_eq_ok _ selfId target, ?_⟩
  constructor
  · intro hNobody
    constructor
    · intro hFew
      exact
        (all_found_iff hFiled _).mp (hNobody.few hFew)
    · intro hMany
      exact
        (le_length_dedup_found_iff hFiled hBucket).mp
          (hNobody.many hMany)
  · intro hEnough
    constructor
    · intro hFew
      exact
        (all_found_iff hFiled _).mpr (hEnough.few hFew)
    · intro hMany
      exact
        (le_length_dedup_found_iff hFiled hBucket).mpr
          (hEnough.many hMany)

/- The only known peer may be lost. -/
theorem findClosestPeers_losesSomebody :
    ¬ ∀ (hasher : PeerHasher)
        (selfId : PeerId)
        (inserts : List Contact)
        (target : PeerId)
        (self : PeerMap)
        (results : List (PeerId × SocketAddr)),
      (default hasher).insertAll selfId inserts =
          .ok self →
        self.findClosestPeers selfId target = .ok results →
          self.LosesNobody results := by
  intro hClaim
  let hasher :=
    RandomState.insertionOrder PeerId SocketAddr
  let selfId := PeerId.repeating 0
  let target :=
    PeerId.raw (0 :: 1 :: List.replicate 30 0) rfl
  let inserts : List Contact :=
    [{ peerId :=
         PeerId.raw (2 :: List.replicate 31 0) rfl
       address := .v4 0x0A000002 4433 }]
  have hNobody :=
    hClaim hasher selfId inserts target _ _
      (insertAll_eq_ok _ selfId inserts)
      (findClosestPeers_eq_ok _ selfId target)
  have hRank : selfId.distanceRank target = 14 := by
    decide +kernel
  have hFew :
      ((default hasher).putAll selfId inserts).entries.length
        ≤ ((default hasher).putAll selfId
          inserts).bucketSize := by
    decide +kernel
  have hFiled : ((default hasher).putAll selfId
      inserts).FiledBy selfId :=
    (filedBy_default hasher selfId).putAll inserts
  have hOne :
      ((default hasher).putAll selfId inserts).population
        5 = 1 := by
    decide +kernel
  have hAll := hNobody.few hFew
  rw [all_found_iff hFiled, hRank] at hAll
  rcases (hAll 5 (by omega)).1 with hAhead | hZero
  · omega
  · omega

end PeerMap

end WorldDat
