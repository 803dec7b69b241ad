import WorldDat.Rank
import WorldDat.Worker.Contacts
import WorldDat.Worker.Lookup

/-
  What a worker answers to a request for an unknown peer.

  A worker is the only peer in the last bucket of its table.
  From wherever the search starts, its forward half ends
  there, so it never returns without any neighbors.

  Main declarations:
    * `PeerMap.found_ne_nil`
    * `WorkerState.Stocked`
    * `WorkerState.Usable`
    * `WorkerState.neighbors_usable`
-/

------------------------------------------------------------
-- Searches That Find Somebody
------------------------------------------------------------

namespace WorldDat

namespace PeerMap

/- A peer at a higher rank is collected unless others are. -/
theorem found_ne_nil
    {self : PeerMap}
    (hSize : 0 < self.bucketSize)
    {searchBucket rank : Nat}
    (hRank : searchBucket ≤ rank)
    {entry : PeerId × SocketAddr}
    (hEntry : entry ∈ self.entriesAt rank) :
    self.found searchBucket ≠ [] := by
  have hInside : rank < Blake2Hash.maxPower := by
    by_contra hNot
    rw [self.entriesAt_of_le (Nat.le_of_not_lt hNot)]
      at hEntry
    cases hEntry
  have hCollected :
      entry ∈
        Listing.before (self.entriesAt searchBucket)
          (self.searchPass searchBucket)
          Blake2Hash.maxPower := by
    rw [Listing.mem_before_iff]
    rcases Nat.eq_or_lt_of_le hRank with hSame | hAhead
    · rw [hSame]
      exact Or.inl hEntry
    · apply Or.inr
      refine ⟨rank - searchBucket, by omega, by omega, ?_⟩
      unfold searchPass
      rw [Nat.add_sub_cancel' hRank]
      exact List.mem_append_right _ hEntry
  unfold found
  intro hNobody
  rcases List.take_eq_nil_iff.mp hNobody with hZero | hNone
  · omega
  · rw [hNone] at hCollected
    cases hCollected

/- No more peers are found than fit in a bucket. -/
theorem length_found_le
    (self : PeerMap)
    (searchBucket : Nat) :
    (self.found searchBucket).length ≤ self.bucketSize :=
  List.length_take_le _ _

end PeerMap

end WorldDat

------------------------------------------------------------
-- Usable Answers
------------------------------------------------------------

namespace WorldDat

open Rust

namespace WorkerState

/-
  The table of a worker has room for neighbors, holds every
  peer at its rank and holds the worker itself.
-/
structure Stocked (worker : WorkerState) : Prop where
  bucketSize_pos : 0 < worker.peerMap.bucketSize
  filed : worker.peerMap.FiledBy worker.peerId
  knows_self : worker.Knows worker.peerId

theorem stocked_fresh
    (hasher : PeerHasher)
    (peerId : PeerId)
    (addr : SocketAddr) :
    (fresh hasher peerId addr).Stocked where
  bucketSize_pos := by
    change 0 < 16
    decide
  filed := filedBy_fresh hasher peerId addr
  knows_self := knows_fresh hasher peerId addr

variable {self : WorkerState}

/- Every message keeps the table stocked. -/
theorem Stocked.after
    (hStocked : self.Stocked)
    (msg : Incoming) :
    (self.after msg).Stocked where
  bucketSize_pos := by
    rw [bucketSize_after]
    exact hStocked.bucketSize_pos
  filed := filedBy_after hStocked.filed msg
  knows_self := by
    rw [peerId_after]
    exact isSome_known_after self msg hStocked.knows_self

/- So does every sequence of messages. -/
theorem Stocked.afterAll
    (hStocked : self.Stocked)
    (history : List Incoming) :
    (self.afterAll history).Stocked := by
  induction history generalizing self with
  | nil => exact hStocked
  | cons msg history ih => exact ih (hStocked.after msg)

/- The worker itself is in the last bucket. -/
theorem Stocked.exists_own_entry
    (hStocked : self.Stocked) :
    ∃ addr,
      (self.peerId, addr) ∈
        self.peerMap.entriesAt (Blake2Hash.maxPower - 1) := by
  have hRank :=
    (self.peerId.distanceRank_eq_top_iff self.peerId).mpr rfl
  rcases Option.isSome_iff_exists.mp hStocked.knows_self with
    ⟨addr, hKnown⟩
  refine ⟨addr, ?_⟩
  rw [PeerMap.mem_entriesAt_iff, ← hRank]
  exact hKnown

/-
  Neighbors that a peer can use: some, no more than fit in a
  bucket, and each as the worker knows it.
-/
structure Usable
    (worker : WorkerState)
    (neighbors : List (PeerId × SocketAddr)) : Prop where
  length_pos : 1 ≤ neighbors.length
  length_le : neighbors.length ≤ worker.peerMap.bucketSize
  known : ∀ entry ∈ neighbors,
    worker.peerMap.contains worker.peerId entry.1 =
      .ok (some entry)

/- What a stocked worker finds can be used. -/
theorem Stocked.usable_found
    (hStocked : self.Stocked)
    (target : PeerId) :
    self.Usable
      (self.peerMap.found
        (self.peerId.distanceRank target)) := by
  have hRank :
      self.peerId.distanceRank target ≤
        Blake2Hash.maxPower - 1 :=
    Nat.le_sub_one_of_lt (self.peerId.distanceRank_lt target)
  rcases hStocked.exists_own_entry with ⟨addr, hOwn⟩
  constructor
  case length_pos =>
    exact
      List.length_pos_of_ne_nil
        (PeerMap.found_ne_nil hStocked.bucketSize_pos hRank
          hOwn)
  case length_le => exact self.peerMap.length_found_le _
  case known =>
    intro entry hEntry
    rcases entry with ⟨peerId, found⟩
    have hKnown :=
      (hStocked.filed.mem_entries_iff_find peerId found).mp
        (PeerMap.mem_entries_of_mem_found hEntry)
    rw [PeerMap.contains_eq_ok, hKnown]
    rfl

/-
  Whatever messages a worker has handled, a request for a
  peer that it does not know is answered with neighbors that
  can be used.
-/
theorem neighbors_usable
    (hasher : PeerHasher)
    (selfId : PeerId)
    (selfAddr : SocketAddr)
    (history : List Incoming)
    {self : WorkerState}
    {sent : List Outgoing}
    (hRun :
      runFrom hasher selfId selfAddr history =
        .ok (self, sent))
    (source : SocketAddr)
    {id : PeerId}
    (hUnknown :
      self.peerMap.contains self.peerId id = .ok none) :
    ∃ neighbors,
      self.handle source (.findPeer id) =
          .ok (self,
            [(source,
              .findPeerResponsePeerNotFound id
                neighbors)]) ∧
        self.Usable neighbors := by
  rw [runFrom_eq_ok] at hRun
  cases hRun
  have hStocked :=
    (stocked_fresh hasher selfId selfAddr).afterAll history
  rw [PeerMap.contains_eq_none_iff] at hUnknown
  exact
    ⟨_, handle_findPeer_of_unknown _ source hUnknown,
      hStocked.usable_found id⟩

/- Pongs of three peers, two of them in one bucket. -/
def threePongs : List Incoming :=
  [ (.v4 0x0A000002 4433, .pong (PeerId.repeating 1))
  , (.v4 0x0A000003 4433, .pong (PeerId.repeating 2))
  , (.v4 0x0A000004 4433, .pong (PeerId.repeating 3)) ]

/- The three peers and the worker itself are the neighbors. -/
theorem neighbors_usable_threePongs :
    ∃ self sent neighbors,
      runFrom (RandomState.insertionOrder PeerId SocketAddr)
          (PeerId.repeating 0) (.v4 0x0A000001 4433)
          threePongs =
          .ok (self, sent) ∧
        self.handle (.v4 0x0A000005 4433)
            (.findPeer (PeerId.repeating 4)) =
          .ok (self,
            [(.v4 0x0A000005 4433,
              .findPeerResponsePeerNotFound
                (PeerId.repeating 4) neighbors)]) ∧
        self.Usable neighbors ∧
        neighbors.length = 4 := by
  have hUnknown :
      ((fresh (RandomState.insertionOrder PeerId SocketAddr)
            (PeerId.repeating 0)
            (.v4 0x0A000001 4433)).afterAll
          threePongs).known (PeerId.repeating 4) =
        none := by
    decide +kernel
  rcases neighbors_usable
      (RandomState.insertionOrder PeerId SocketAddr)
      (PeerId.repeating 0) (.v4 0x0A000001 4433) threePongs
      (runFrom_eq_ok _ _ _ _) (.v4 0x0A000005 4433)
      ((PeerMap.contains_eq_none_iff _ _ _).mpr hUnknown) with
    ⟨neighbors, hHandle, hUsable⟩
  refine
    ⟨_, _, neighbors, runFrom_eq_ok _ _ _ _, hHandle,
      hUsable, ?_⟩
  rw [handle_findPeer_of_unknown _ _ hUnknown] at hHandle
  simp only [Except.ok.injEq, Prod.mk.injEq, List.cons.injEq,
    Message.findPeerResponsePeerNotFound.injEq] at hHandle
  rw [← hHandle.2.1.2.2]
  decide +kernel

end WorkerState

end WorldDat
