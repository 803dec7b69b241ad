import WorldDat.FlatPeerMap.Search

/-
  When the operations of a flat peer map panic.

  A map whose buckets have slots never panics, unless a
  search is asked for more contacts than there are slots.  A
  map whose buckets have no slots can be searched for nothing
  and panics as soon as a peer is inserted.

  Main declarations:
    * `FlatPeerMap.Robust`
    * `FlatPeerMap.robust_of_packed`
    * `FlatPeerMap.robust_slotless`
    * `FlatPeerMap.panics_exactly`
-/

------------------------------------------------------------
-- Maps With And Without Slots
------------------------------------------------------------

namespace WorldDat

open Rust

namespace FlatPeerMap

/-
  What can be done with a map whose buckets have `size` slots
  without a panic.  The bounds of the buckets and the number
  of peers are computed without an overflow.
-/
structure Robust
    (map : FlatPeerMap)
    (size : Nat) : Prop where
  bounds : ∀ rank, rank < Blake2Hash.maxPower →
    rank * size + size < usizeModulus
  count : map.count < usizeModulus
  contains : ∀ peerId, ∃ found,
    map.contains peerId = .ok found
  lookup : ∀ peerId, ∃ result,
    map.lookup peerId = .ok result
  searches : ∀ needle count,
    (∃ results,
        map.findClosestPeers needle count = .ok results) ↔
      count ≤ Blake2Hash.maxPower * size
  inserts : ∀ newPeer,
    (∃ next, map.insert newPeer = .ok next) ↔ 1 ≤ size

/- A search must not ask for more than there are slots. -/
theorem findClosestPeers_of_lt
    (self : FlatPeerMap)
    (needle : PeerId)
    {count : Nat}
    (hCount : self.contacts.length < count) :
    self.findClosestPeers needle count =
      .error .assertionFailed := by
  unfold findClosestPeers
  rw [if_neg (Nat.not_le.mpr hCount)]

/- No bucket ends behind the last slot. -/
theorem bounds_lt
    {size : Nat}
    (hFits : Blake2Hash.maxPower * size < usizeModulus)
    {rank : Nat}
    (hRank : rank < Blake2Hash.maxPower) :
    rank * size + size < usizeModulus := by
  have hEnd : (rank + 1) * size ≤ Blake2Hash.maxPower * size :=
    Nat.mul_le_mul_right size hRank
  rw [Nat.succ_mul] at hEnd
  exact Nat.lt_of_le_of_lt hEnd hFits

/- Packed maps panic in greedy searches only. -/
theorem robust_of_packed
    {self : FlatPeerMap}
    (hPacked : self.Packed)
    (hFits :
      Blake2Hash.maxPower * self.bucketSize <
        usizeModulus) :
    self.Robust self.bucketSize where
  bounds := by
    intro rank hRank
    exact bounds_lt hFits hRank
  count := by
    have hSlots :=
      List.countP_le_length
        (p := Option.isSome) (l := self.contacts)
    rw [← hPacked.count_eq, hPacked.length_contacts] at hSlots
    exact Nat.lt_of_le_of_lt hSlots hFits
  contains := by
    intro peerId
    exact ⟨_, contains_eq_ok hPacked peerId⟩
  lookup := by
    intro peerId
    exact ⟨_, lookup_eq_ok hPacked peerId⟩
  searches := by
    intro needle count
    rw [← hPacked.length_contacts]
    constructor
    · intro hFound
      rcases hFound with ⟨results, hResults⟩
      by_contra hMany
      rw [self.findClosestPeers_of_lt needle
        (Nat.lt_of_not_le hMany)] at hResults
      cases hResults
    · intro hCount
      exact
        ⟨_, findClosestPeers_eq_ok hPacked needle hCount⟩
  inserts := by
    intro newPeer
    apply iff_of_true
    · exact ⟨_, insert_eq_ok hPacked newPeer⟩
    · exact hPacked.bucketSize_pos

/- All buckets of a map without slots are empty. -/
theorem bucketFor_slotless
    (owner peerId : PeerId) :
    (new owner 0).bucketFor peerId = .ok [] := by
  unfold bucketFor new
  dsimp only
  rw [Nat.mul_zero, Nat.mul_zero]
  rfl

/- The first peer to be inserted has no slot to go to. -/
theorem insert_slotless
    (owner : PeerId)
    (newPeer : Contact) :
    (new owner 0).insert newPeer =
      .error (.indexOutOfBounds 0 0) := by
  unfold insert
  rw [bucketFor_slotless]
  rfl

theorem contains_slotless
    (owner peerId : PeerId) :
    (new owner 0).contains peerId = .ok none := by
  unfold contains
  rw [bucketFor_slotless]
  rfl

/- A search for nothing finds nothing. -/
theorem findClosestPeers_slotless
    (owner needle : PeerId) :
    (new owner 0).findClosestPeers needle 0 = .ok [] := by
  unfold findClosestPeers
  rw [bucketFor_slotless]
  rfl

theorem lookup_slotless
    (owner peerId : PeerId) :
    (new owner 0).lookup peerId = .ok (.error []) := by
  have hSearch := findClosestPeers_slotless owner peerId
  have hSize : (new owner 0).bucketSize = 0 := rfl
  unfold lookup
  rw [contains_slotless, hSize, hSearch]
  rfl

/- Maps without slots panic as soon as they are used. -/
theorem robust_slotless (owner : PeerId) :
    (new owner 0).Robust 0 where
  bounds := by
    intro rank _
    rw [Nat.mul_zero]
    exact Nat.two_pow_pos 64
  count := Nat.two_pow_pos 64
  contains := by
    intro peerId
    exact ⟨_, contains_slotless owner peerId⟩
  lookup := by
    intro peerId
    exact ⟨_, lookup_slotless owner peerId⟩
  searches := by
    intro needle count
    rw [Nat.mul_zero, Nat.le_zero]
    constructor
    · intro hFound
      rcases hFound with ⟨results, hResults⟩
      by_contra hSome
      have hLength : (new owner 0).contacts.length < count :=
        Nat.pos_of_ne_zero hSome
      rw [findClosestPeers_of_lt _ needle hLength] at hResults
      cases hResults
    · intro hNone
      rw [hNone]
      exact ⟨_, findClosestPeers_slotless owner needle⟩
  inserts := by
    intro newPeer
    apply iff_of_false
    · intro hInserted
      rcases hInserted with ⟨next, hNext⟩
      rw [insert_slotless] at hNext
      cases hNext
    · exact Nat.not_succ_le_zero 0

/-
  For every bucket size with which the number of slots does
  not overflow and every sequence of inserts: the sequence
  panics exactly when it inserts somebody into a map without
  slots, and after it the operations panic exactly when they
  ask for what is not there.
-/
theorem panics_exactly
    (owner : PeerId)
    (size : Nat)
    (hFits : Blake2Hash.maxPower * size < usizeModulus)
    (inserts : List Contact) :
    ((∃ map, (new owner size).insertAll inserts = .ok map) ↔
        1 ≤ size ∨ inserts = []) ∧
      ∀ map, (new owner size).insertAll inserts = .ok map →
        map.Robust size := by
  rcases Nat.eq_zero_or_pos size with hNone | hSome
  · rw [hNone]
    cases inserts with
    | nil =>
        refine ⟨?_, ?_⟩
        · apply iff_of_true
          · exact ⟨_, rfl⟩
          · exact Or.inr rfl
        · intro map hMap
          cases hMap
          exact robust_slotless owner
    | cons newPeer rest =>
        have hPanics :
            (new owner 0).insertAll (newPeer :: rest) =
              .error (.indexOutOfBounds 0 0) := by
          rw [insertAll, insert_slotless]
          rfl
        rw [hPanics]
        refine ⟨?_, ?_⟩
        · apply iff_of_false
          · intro hInserted
            rcases hInserted with ⟨map, hMap⟩
            cases hMap
          · intro hEither
            rcases hEither with hSlots | hNobody
            · omega
            · cases hNobody
        · intro map hMap
          cases hMap
  · refine ⟨?_, ?_⟩
    · apply iff_of_true
      · exact
          ⟨_, insertAll_eq_ok (packed_new owner hSome)
            inserts⟩
      · exact Or.inl hSome
    · intro map hMap
      have hSize := bucketSize_insertAll hMap
      have hRobust :=
        robust_of_packed (packed_of_insertAll hSome hMap)
      rw [hSize] at hRobust
      exact hRobust hFits

/- The default map takes two peers. -/
theorem panics_exactly_default :
    ∃ map,
      (default (.repeating 0)).insertAll
          [ { peerId := .repeating 1
              address := .v4 0x0A000001 4433 }
          , { peerId := .repeating 2
              address := .v4 0x0A000002 4433 } ] =
        .ok map ∧
        map.Robust 16 := by
  rcases panics_exactly (.repeating 0) 16 (by decide)
      [ { peerId := .repeating 1
          address := .v4 0x0A000001 4433 }
      , { peerId := .repeating 2
          address := .v4 0x0A000002 4433 } ] with
    ⟨hInserts, hRobust⟩
  rcases hInserts.mpr (Or.inl (by decide)) with ⟨map, hMap⟩
  exact ⟨map, hMap, hRobust map hMap⟩

end FlatPeerMap

end WorldDat
