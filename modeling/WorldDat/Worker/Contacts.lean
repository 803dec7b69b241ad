import WorldDat.Worker.Basic

/-
  The contacts that a worker learns and hands out.

  A worker files nobody but itself and the senders of pongs,
  and it hands out nobody but those that it has filed.

  Main declarations:
    * `WorkerState.entries_after_cases`
    * `WorkerState.mem_entries_fresh`
    * `WorkerState.mem_entries_of_mem_contacts`
    * `WorkerState.id_of_mem_replies`
-/

------------------------------------------------------------
-- Contacts That Workers Learn And Hand Out
------------------------------------------------------------

namespace WorldDat

/- The contacts that a message hands out. -/
def Message.contacts :
    Message → List (PeerId × SocketAddr)
| .findPeerResponsePeerFound id addr => [(id, addr)]
| .findPeerResponsePeerNotFound _ neighbors => neighbors
| .ping _ => []
| .pong _ => []
| .findPeer _ => []

/- What a search finds is in the table. -/
theorem PeerMap.mem_entries_of_mem_found
    {self : PeerMap}
    {searchBucket : Nat}
    {id : PeerId}
    {addr : SocketAddr}
    (hFound : (id, addr) ∈ self.found searchBucket) :
    (id, addr) ∈ self.entries := by
  rcases (self.mem_found_iff _ _).mp hFound with
    ⟨rank, position, _, _, hEntry⟩
  rw [PeerMap.mem_entries_iff]
  exact
    ⟨rank,
      (self.mem_entriesAt_iff rank id addr).mp
        (List.mem_of_getElem? hEntry)⟩

namespace WorkerState

/- A message adds at most the sender of a pong to the table. -/
theorem entries_after_cases
    {self : WorkerState}
    {source : SocketAddr}
    {msg : Message}
    {id : PeerId}
    {addr : SocketAddr}
    (hEntry :
      (id, addr) ∈
        (self.after (source, msg)).peerMap.entries) :
    (id, addr) ∈ self.peerMap.entries ∨
      msg = .pong id ∧ addr = source := by
  cases msg with
  | pong otherId =>
      simp only [after, learn, PeerMap.mem_entries_iff,
        PeerMap.getAt_put] at hEntry
      rcases hEntry with ⟨rank, hGet⟩
      by_cases hNew :
          rank = self.peerId.distanceRank otherId ∧
            id = otherId
      · rw [if_pos hNew] at hGet
        rw [hNew.2]
        apply Or.inr
        exact ⟨rfl, (Option.some.inj hGet).symm⟩
      · rw [if_neg hNew] at hGet
        exact
          Or.inl
            ((self.peerMap.mem_entries_iff id addr).mpr
              ⟨rank, hGet⟩)
  | ping otherId => exact Or.inl hEntry
  | findPeer desiredId => exact Or.inl hEntry
  | findPeerResponsePeerFound found foundAddr =>
      exact Or.inl hEntry
  | findPeerResponsePeerNotFound missing neighbors =>
      exact Or.inl hEntry

/- A fresh worker has filed nobody but itself. -/
theorem mem_entries_fresh
    {hasher : PeerHasher}
    {peerId id : PeerId}
    {self addr : SocketAddr}
    (hEntry :
      (id, addr) ∈
        (fresh hasher peerId self).peerMap.entries) :
    id = peerId ∧ addr = self := by
  simp only [fresh, PeerMap.mem_entries_iff,
    PeerMap.getAt_put, PeerMap.getAt_default] at hEntry
  rcases hEntry with ⟨rank, hGet⟩
  by_cases hNew :
      rank = peerId.distanceRank peerId ∧ id = peerId
  · rw [if_pos hNew] at hGet
    exact ⟨hNew.2, (Option.some.inj hGet).symm⟩
  · rw [if_neg hNew] at hGet
    cases hGet

/- A known address is an entry of the table. -/
theorem mem_entries_of_known
    {self : WorkerState}
    {id : PeerId}
    {addr : SocketAddr}
    (hKnown : self.known id = some addr) :
    (id, addr) ∈ self.peerMap.entries :=
  (self.peerMap.mem_entries_iff id addr).mpr ⟨_, hKnown⟩

/- A worker hands out contacts from its table. -/
theorem mem_entries_of_mem_contacts
    {self : WorkerState}
    {msg : Incoming}
    {out : Outgoing}
    (hOut : out ∈ self.replies msg)
    {id : PeerId}
    {addr : SocketAddr}
    (hContact : (id, addr) ∈ out.2.contacts) :
    (id, addr) ∈ self.peerMap.entries := by
  cases reply_of_mem_replies hOut with
  | pong => cases hContact
  | ping => cases hContact
  | answer source desiredId =>
      cases hKnown : self.known desiredId with
      | none =>
          simp only [answer, hKnown,
            Message.contacts] at hContact
          exact PeerMap.mem_entries_of_mem_found hContact
      | some known =>
          simp only [answer, hKnown, Message.contacts,
            List.mem_singleton, Prod.mk.injEq] at hContact
          rw [hContact.1, hContact.2]
          exact mem_entries_of_known hKnown

/- The pongs and pings of a worker carry its own id. -/
theorem id_of_mem_replies
    {self : WorkerState}
    {msg : Incoming}
    {out : Outgoing}
    (hOut : out ∈ self.replies msg)
    {id : PeerId}
    (hId : out.2 = .pong id ∨ out.2 = .ping id) :
    id = self.peerId := by
  cases reply_of_mem_replies hOut with
  | pong => simpa [eq_comm] using hId
  | ping => simpa [eq_comm] using hId
  | answer source desiredId =>
      cases hKnown : self.known desiredId with
      | none => simp [answer, hKnown] at hId
      | some known => simp [answer, hKnown] at hId

end WorkerState

end WorldDat
