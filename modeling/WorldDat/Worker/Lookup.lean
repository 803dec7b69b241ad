import WorldDat.Worker.Basic

/-
  Progress of a lookup: whether a negative answer lists a
  peer that is closer to the target than the worker is.

  Main declarations:
    * `WorkerState.LookupProgress`
    * `WorkerState.CloserPeerWithinReach`
    * `WorkerState.lookupProgress_iff`
-/

------------------------------------------------------------
-- Progress
------------------------------------------------------------

namespace WorldDat

open Rust

namespace WorkerState

/- A peer is strictly closer to the target than the worker. -/
def Closer
    (self : WorkerState)
    (target peerId : PeerId) : Prop :=
  peerId.distance target < self.peerId.distance target

instance
    (self : WorkerState)
    (target peerId : PeerId) :
    Decidable (self.Closer target peerId) := by
  unfold Closer
  infer_instance

/- The worker's table holds a closer peer. -/
def KnowsCloser
    (self : WorkerState)
    (target : PeerId) : Prop :=
  ∃ peerId addr,
    (peerId, addr) ∈ self.peerMap.entries ∧
      self.Closer target peerId

/-
  When a closer peer is known, every negative answer to a
  request for the target lists a closer peer.
-/
def LookupProgress
    (self : WorkerState)
    (target : PeerId) : Prop :=
  self.KnowsCloser target →
    ∀ source next neighbors,
      self.handle source (.findPeer target) =
          .ok (next,
            [(source,
              .findPeerResponsePeerNotFound target
                neighbors)]) →
        ∃ peerId addr,
          (peerId, addr) ∈ neighbors ∧
            self.Closer target peerId

/-
  A closer peer stands, in a bucket that the search from the
  target's bucket reads, before the place at which the search
  has collected enough.
-/
def CloserPeerWithinReach
    (self : WorkerState)
    (target : PeerId) : Prop :=
  let searchBucket := self.peerId.distanceRank target
  ∃ rank position peerId addr,
    PeerMap.Visits searchBucket rank ∧
      self.peerMap.searchOffset searchBucket rank +
          position < self.peerMap.bucketSize ∧
      (self.peerMap.entriesAt rank)[position]? =
        some (peerId, addr) ∧
      self.Closer target peerId

/- A request for an unknown peer gets what the search found. -/
theorem handle_findPeer_of_unknown
    (self : WorkerState)
    (source : SocketAddr)
    {target : PeerId}
    (hUnknown : self.known target = none) :
    self.handle source (.findPeer target) =
      .ok (self,
        [(source,
          .findPeerResponsePeerNotFound target
            (self.peerMap.found
              (self.peerId.distanceRank target)))]) := by
  simp [handle_eq_ok, after, replies, answer, hUnknown]

/- What the search found includes a peer that is in reach. -/
theorem exists_closer_found_iff
    (self : WorkerState)
    (target : PeerId) :
    (∃ peerId addr,
      (peerId, addr) ∈
          self.peerMap.found
            (self.peerId.distanceRank target) ∧
        self.Closer target peerId) ↔
      self.CloserPeerWithinReach target := by
  constructor
  · intro hCloserFound
    rcases hCloserFound with
      ⟨peerId, addr, hFound, hCloser⟩
    rcases (self.peerMap.mem_found_iff _ _).mp hFound with
      ⟨rank, position, hVisits, hOffset, hEntry⟩
    exact
      ⟨rank, position, peerId, addr, hVisits, hOffset,
        hEntry, hCloser⟩
  · intro hReach
    rcases hReach with
      ⟨rank, position, peerId, addr, hVisits, hOffset,
        hEntry, hCloser⟩
    refine ⟨peerId, addr, ?_, hCloser⟩
    apply self.peerMap.mem_found_of_visits hVisits hOffset
    exact hEntry

/-
  Lookups for an unknown peer make progress exactly when no
  closer peer is known or one of them is within the reach of
  the search.
-/
theorem lookupProgress_iff
    (self : WorkerState)
    (target : PeerId)
    (hUnknown :
      self.peerMap.contains self.peerId target = .ok none) :
    self.LookupProgress target ↔
      ¬ self.KnowsCloser target ∨
        self.CloserPeerWithinReach target := by
  have hFind : self.known target = none :=
    (self.peerMap.contains_eq_none_iff _ _).mp hUnknown
  rw [← self.exists_closer_found_iff target]
  constructor
  · intro hProgress
    by_cases hKnows : self.KnowsCloser target
    · apply Or.inr
      apply hProgress hKnows (.v4 0 0)
      exact self.handle_findPeer_of_unknown _ hFind
    · exact Or.inl hKnows
  · intro hReach hKnows source next neighbors hHandle
    rcases hReach with hNone | hFound
    · exact absurd hKnows hNone
    · rw [self.handle_findPeer_of_unknown source hFind]
        at hHandle
      have hNeighbors :
          self.peerMap.found
              (self.peerId.distanceRank target) =
            neighbors := by
        simp only [Except.ok.injEq, Prod.mk.injEq,
          List.cons.injEq,
          Message.findPeerResponsePeerNotFound.injEq]
          at hHandle
        exact hHandle.2.1.2.2
      rw [← hNeighbors]
      exact hFound

end WorkerState

end WorldDat

------------------------------------------------------------
-- A Lookup Without Progress
------------------------------------------------------------

namespace WorldDat

open Rust

namespace WorkerState

/- An identifier of two given bytes and thirty zero bytes. -/
def twoByteId (first second : UInt8) : PeerId :=
  PeerId.raw (first :: second :: List.replicate 30 0) rfl

/- A worker that has learned one peer from a pong. -/
def onePeerWorker : WorkerState :=
  (fresh (RandomState.insertionOrder PeerId SocketAddr)
      (twoByteId 0 0) (.v4 0x0A000001 4433)).learn
    (.v4 0x0A000002 4433) (twoByteId 0xFF 2)

/- The peer that is looked up in vain. -/
def unreachedTarget : PeerId := twoByteId 0xFF 1

/- The worker does not know the target. -/
theorem contains_unreachedTarget :
    onePeerWorker.peerMap.contains onePeerWorker.peerId
        unreachedTarget =
      .ok none := by
  rw [PeerMap.contains_eq_none_iff]
  decide +kernel

/-
  The target shares its first byte with the known peer.  The
  rank of that peer, 13, lies behind the rank of the target,
  14, so the search finds the worker itself and nobody else.
-/
theorem found_unreachedTarget :
    onePeerWorker.peerMap.found
        (onePeerWorker.peerId.distanceRank
          unreachedTarget) =
      [(onePeerWorker.peerId, .v4 0x0A000001 4433)] := by
  decide +kernel

/- The known peer is closer to the target than the worker. -/
theorem knowsCloser_unreachedTarget :
    onePeerWorker.KnowsCloser unreachedTarget := by
  refine
    ⟨twoByteId 0xFF 2, .v4 0x0A000002 4433, ?_, ?_⟩
  · rw [PeerMap.mem_entries_iff]
    exact
      ⟨_, by
        rw [onePeerWorker, learn, PeerMap.getAt_put,
          if_pos ⟨rfl, rfl⟩]⟩
  · decide +kernel

theorem lookupProgress_iff_unreachedTarget :
    onePeerWorker.LookupProgress unreachedTarget ↔
      ¬ onePeerWorker.KnowsCloser unreachedTarget ∨
        onePeerWorker.CloserPeerWithinReach
          unreachedTarget :=
  lookupProgress_iff onePeerWorker unreachedTarget
    contains_unreachedTarget

/- One pong is enough for a lookup without progress. -/
theorem lookup_without_progress :
    ¬ ∀ (hasher : PeerHasher)
        (selfId : PeerId)
        (selfAddr : SocketAddr)
        (history : List Incoming)
        (self : WorkerState)
        (sent : List Outgoing)
        (target : PeerId),
      runFrom hasher selfId selfAddr history =
          .ok (self, sent) →
        self.peerMap.contains self.peerId target =
          .ok none →
        self.LookupProgress target := by
  intro hClaim
  have hProgress : onePeerWorker.LookupProgress
      unreachedTarget :=
    hClaim (RandomState.insertionOrder PeerId SocketAddr)
      (twoByteId 0 0) (.v4 0x0A000001 4433)
      [(.v4 0x0A000002 4433, .pong (twoByteId 0xFF 2))]
      onePeerWorker _ unreachedTarget
      (runFrom_eq_ok _ _ _ _) contains_unreachedTarget
  have hUnknown :
      onePeerWorker.known unreachedTarget = none :=
    (PeerMap.contains_eq_none_iff _ _ _).mp
      contains_unreachedTarget
  rcases hProgress knowsCloser_unreachedTarget (.v4 0 0)
      _ _ (handle_findPeer_of_unknown _ _ hUnknown) with
    ⟨peerId, addr, hFound, hCloser⟩
  rw [found_unreachedTarget, List.mem_singleton] at hFound
  cases hFound
  exact absurd hCloser (Nat.lt_irrefl _)

end WorkerState

end WorldDat
