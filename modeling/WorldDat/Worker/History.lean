import WorldDat.Listing.LatestWrite
import WorldDat.Worker.Basic

/-
  A worker as a last-writer directory over its history.

  The directory of a worker maps its own id to its own
  address until a pong says otherwise, and every id to the
  source of the latest pong with that id.  The replies of a
  worker are those that the directory gives.

  Main declarations:
    * `directory` and `WorkerState.known_afterAll`
    * `expectedOutput`
    * `WorkerState.runFrom_refines_directory`
    * `WorkerState.own_entry_kept_iff`
-/

------------------------------------------------------------
-- The Directory Of A History
------------------------------------------------------------

namespace WorldDat

/- The write that a message makes, if it is a pong. -/
def pongWrite? : Incoming → Option (PeerId × SocketAddr)
| (addr, .pong id) => some (id, addr)
| (_, .ping _) => none
| (_, .findPeer _) => none
| (_, .findPeerResponsePeerFound _ _) => none
| (_, .findPeerResponsePeerNotFound _ _) => none

/- A message is a pong. -/
def isPong (msg : Incoming) : Bool :=
  (pongWrite? msg).isSome

/- The source of the latest pong with a given id. -/
def latestPong
    (history : List Incoming)
    (id : PeerId) : Option SocketAddr :=
  Listing.latest id (history.filterMap pongWrite?)

/-
  The address of a peer after a history: the source of its
  latest pong, or else the address the worker started with
  when the peer is the worker itself.
-/
def directory
    (selfId : PeerId)
    (selfAddr : SocketAddr)
    (history : List Incoming)
    (id : PeerId) : Option SocketAddr :=
  (latestPong history id).or
    (if id = selfId then some selfAddr else none)

/- What the directory makes a worker reply to a message. -/
def expectedReplies
    (selfId : PeerId)
    (selfAddr : SocketAddr)
    (history : List Incoming) :
    Incoming → List Outgoing
| (source, .ping id) =>
    if id = selfId ∨ ∃ msg ∈ history, msg.2 = .pong id then
      [(source, .pong selfId)]
    else
      [(source, .pong selfId), (source, .ping selfId)]
| (source, .findPeer id) =>
    match directory selfId selfAddr history id with
    | some addr =>
        [(source, .findPeerResponsePeerFound id addr)]
    | none =>
        [(source, .findPeerResponsePeerNotFound id [])]
| (_, .pong _) => []
| (_, .findPeerResponsePeerFound _ _) => []
| (_, .findPeerResponsePeerNotFound _ _) => []

/- The replies to a sequence that follows a history. -/
def expectedOutput
    (selfId : PeerId)
    (selfAddr : SocketAddr)
    (history : List Incoming) :
    List Incoming → List Outgoing
| [] => []
| msg :: rest =>
    expectedReplies selfId selfAddr history msg ++
      expectedOutput selfId selfAddr (history ++ [msg]) rest

/- Forget which neighbors a negative answer lists. -/
def Message.withoutNeighbors : Message → Message
| .findPeerResponsePeerNotFound id _ =>
    .findPeerResponsePeerNotFound id []
| .ping id => .ping id
| .pong id => .pong id
| .findPeer id => .findPeer id
| .findPeerResponsePeerFound id addr =>
    .findPeerResponsePeerFound id addr

def Outgoing.withoutNeighbors
    (out : Outgoing) : Outgoing :=
  (out.1, out.2.withoutNeighbors)

end WorldDat

------------------------------------------------------------
-- Refinement Of The Directory
------------------------------------------------------------

namespace WorldDat

/- A pong is seen at its id and hides the earlier ones. -/
theorem latestPong_concat
    (history : List Incoming)
    (addr : SocketAddr)
    (msg : Message)
    (id : PeerId) :
    latestPong (history ++ [(addr, msg)]) id =
      if msg = .pong id then
        some addr
      else
        latestPong history id := by
  cases msg with
  | pong otherId =>
      simp [latestPong, pongWrite?, Listing.latest_concat]
  | ping otherId =>
      simp [latestPong, List.filterMap_cons, pongWrite?]
  | findPeer desiredId =>
      simp [latestPong, List.filterMap_cons, pongWrite?]
  | findPeerResponsePeerFound id found =>
      simp [latestPong, List.filterMap_cons, pongWrite?]
  | findPeerResponsePeerNotFound id neighbors =>
      simp [latestPong, List.filterMap_cons, pongWrite?]

/- A pong writes its source at its id. -/
theorem pongWrite?_eq_some_iff
    (msg : Incoming)
    (id : PeerId)
    (addr : SocketAddr) :
    pongWrite? msg = some (id, addr) ↔
      msg = (addr, .pong id) := by
  rcases msg with ⟨source, msg⟩
  cases msg with
  | pong otherId =>
      simp [pongWrite?, and_comm]
  | ping otherId => simp [pongWrite?]
  | findPeer desiredId => simp [pongWrite?]
  | findPeerResponsePeerFound found foundAddr =>
      simp [pongWrite?]
  | findPeerResponsePeerNotFound missing neighbors =>
      simp [pongWrite?]

/- There is a latest pong when there is any. -/
theorem isSome_latestPong_iff
    (history : List Incoming)
    (id : PeerId) :
    (latestPong history id).isSome ↔
      ∃ msg ∈ history, msg.2 = .pong id := by
  unfold latestPong
  rw [Listing.isSome_latest_iff]
  constructor
  · intro hWrite
    rcases hWrite with ⟨addr, hWrite⟩
    rcases List.mem_filterMap.mp hWrite with
      ⟨msg, hMsg, hPong⟩
    rw [pongWrite?_eq_some_iff] at hPong
    exact ⟨msg, hMsg, by rw [hPong]⟩
  · intro hPong
    rcases hPong with ⟨⟨addr, msg⟩, hMsg, hPong⟩
    refine ⟨addr, List.mem_filterMap.mpr ⟨_, hMsg, ?_⟩⟩
    rw [pongWrite?_eq_some_iff]
    exact congrArg (Prod.mk addr) hPong

/- The directory changes like the table of a worker. -/
theorem directory_concat
    (selfId : PeerId)
    (selfAddr : SocketAddr)
    (history : List Incoming)
    (addr : SocketAddr)
    (msg : Message)
    (id : PeerId) :
    directory selfId selfAddr (history ++ [(addr, msg)]) id =
      if msg = .pong id then
        some addr
      else
        directory selfId selfAddr history id := by
  by_cases hPong : msg = .pong id
  · simp [directory, latestPong_concat, hPong]
  · simp [directory, latestPong_concat, hPong]

/- The peers of the directory: self and the senders of pongs. -/
theorem directory_eq_none_iff
    (selfId : PeerId)
    (selfAddr : SocketAddr)
    (history : List Incoming)
    (id : PeerId) :
    directory selfId selfAddr history id = none ↔
      ¬ (id = selfId ∨ ∃ msg ∈ history, msg.2 = .pong id) := by
  rw [← isSome_latestPong_iff]
  by_cases hSelf : id = selfId
  · simp [directory, hSelf]
  · simp [directory, hSelf]

namespace WorkerState

/- A worker's table is the directory of its history. -/
theorem known_afterAll
    (hasher : Rust.RandomState PeerId SocketAddr)
    (selfId : PeerId)
    (selfAddr : SocketAddr)
    (history : List Incoming)
    (id : PeerId) :
    ((fresh hasher selfId selfAddr).afterAll history).known
        id =
      directory selfId selfAddr history id := by
  induction history using List.reverseRecOn with
  | nil =>
      simp [afterAll, known_fresh, directory, latestPong,
        Listing.latest]
  | append_singleton history msg ih =>
      rcases msg with ⟨addr, msg⟩
      rw [afterAll_concat, known_after, ih,
        directory_concat]

/- One message gets the replies that the directory expects. -/
theorem replies_withoutNeighbors
    (self : WorkerState)
    (selfAddr : SocketAddr)
    (history : List Incoming)
    (hKnown : ∀ id,
      self.known id =
        directory self.peerId selfAddr history id)
    (msg : Incoming) :
    (self.replies msg).map Outgoing.withoutNeighbors =
      expectedReplies self.peerId selfAddr history msg := by
  rcases msg with ⟨source, msg⟩
  cases msg with
  | ping id =>
      cases hId : self.known id with
      | none =>
          have hUnknown := hId
          rw [hKnown, directory_eq_none_iff] at hUnknown
          rw [expectedReplies, if_neg hUnknown]
          simp [replies, hId, Outgoing.withoutNeighbors,
            Message.withoutNeighbors]
      | some addr =>
          have hMember :
              id = self.peerId ∨
                ∃ msg ∈ history, msg.2 = .pong id := by
            by_contra hNot
            rw [← directory_eq_none_iff self.peerId selfAddr,
              ← hKnown, hId] at hNot
            cases hNot
          rw [expectedReplies, if_pos hMember]
          simp [replies, hId, Outgoing.withoutNeighbors,
            Message.withoutNeighbors]
  | findPeer id =>
      have hId := hKnown id
      cases hDirectory :
          directory self.peerId selfAddr history id with
      | none =>
          rw [hDirectory] at hId
          simp [replies, answer, expectedReplies, hId,
            hDirectory, Outgoing.withoutNeighbors,
            Message.withoutNeighbors]
      | some addr =>
          rw [hDirectory] at hId
          simp [replies, answer, expectedReplies, hId,
            hDirectory, Outgoing.withoutNeighbors,
            Message.withoutNeighbors]
  | pong id => rfl
  | findPeerResponsePeerFound id found => rfl
  | findPeerResponsePeerNotFound id neighbors => rfl

/- A sequence of messages gets the expected replies. -/
theorem repliesTo_withoutNeighbors
    (hasher : Rust.RandomState PeerId SocketAddr)
    (selfId : PeerId)
    (selfAddr : SocketAddr)
    (history later : List Incoming) :
    ((((fresh hasher selfId selfAddr).afterAll
        history).repliesTo later).map
          Outgoing.withoutNeighbors) =
      expectedOutput selfId selfAddr history later := by
  induction later generalizing history with
  | nil => rfl
  | cons msg later ih =>
      have hKnown : ∀ id,
          ((fresh hasher selfId selfAddr).afterAll
              history).known id =
            directory
              ((fresh hasher selfId selfAddr).afterAll
                history).peerId
              selfAddr history id := by
        intro id
        rw [peerId_afterAll, peerId_fresh]
        apply known_afterAll
      have hHead :=
        replies_withoutNeighbors _ selfAddr history hKnown
          msg
      have hTail := ih (history ++ [msg])
      rw [afterAll_concat] at hTail
      simp only [peerId_afterAll, peerId_fresh] at hHead
      rw [repliesTo, List.map_append, hHead, hTail,
        expectedOutput]

/- Only pongs change the state of a worker. -/
theorem afterAll_filter_isPong
    (self : WorkerState)
    (history : List Incoming) :
    self.afterAll (history.filter isPong) =
      self.afterAll history := by
  induction history generalizing self with
  | nil => rfl
  | cons msg rest ih =>
      rcases msg with ⟨addr, msg⟩
      cases msg with
      | pong id =>
          exact ih (self.after (addr, .pong id))
      | ping id => exact ih self
      | findPeer id => exact ih self
      | findPeerResponsePeerFound id found => exact ih self
      | findPeerResponsePeerNotFound id neighbors =>
          exact ih self

/- A worker does not answer pongs. -/
theorem repliesTo_filter_isPong
    (self : WorkerState)
    (history : List Incoming) :
    self.repliesTo (history.filter isPong) = [] := by
  induction history generalizing self with
  | nil => rfl
  | cons msg rest ih =>
      rcases msg with ⟨addr, msg⟩
      cases msg with
      | pong id => exact ih (self.after (addr, .pong id))
      | ping id => exact ih self
      | findPeer id => exact ih self
      | findPeerResponsePeerFound id found => exact ih self
      | findPeerResponsePeerNotFound id neighbors =>
          exact ih self

/-
  A worker is the directory of its history: it sends the
  expected replies in the order of the requests, and pongs
  alone lead to the very same state.
-/
theorem runFrom_refines_directory
    (hasher : Rust.RandomState PeerId SocketAddr)
    (selfId : PeerId)
    (selfAddr : SocketAddr)
    (history : List Incoming) :
    ∃ self sent,
      runFrom hasher selfId selfAddr history =
          .ok (self, sent) ∧
        sent.map Outgoing.withoutNeighbors =
          expectedOutput selfId selfAddr [] history ∧
        runFrom hasher selfId selfAddr
            (history.filter isPong) =
          .ok (self, []) := by
  refine
    ⟨_, _, runFrom_eq_ok hasher selfId selfAddr history,
      ?_, ?_⟩
  · exact
      repliesTo_withoutNeighbors hasher selfId selfAddr []
        history
  · rw [runFrom_eq_ok, afterAll_filter_isPong,
      repliesTo_filter_isPong]

end WorkerState

end WorldDat

------------------------------------------------------------
-- The Worker's Own Entry
------------------------------------------------------------

namespace WorldDat

namespace WorkerState

/-
  The handler of pongs has no check for the worker's own id,
  so the worker keeps its own entry, and answers with it,
  exactly as long as the latest pong with its own id, if any,
  came from its own address.
-/
theorem own_entry_kept_iff
    (hasher : Rust.RandomState PeerId SocketAddr)
    (selfId : PeerId)
    (selfAddr : SocketAddr)
    (history : List Incoming) :
    ∃ self sent,
      runFrom hasher selfId selfAddr history =
          .ok (self, sent) ∧
        ((self.peerMap.contains selfId selfId =
              .ok (some (selfId, selfAddr)) ∧
            ∀ source,
              self.handle source (.findPeer selfId) =
                .ok (self,
                  [(source,
                    .findPeerResponsePeerFound selfId
                      selfAddr)])) ↔
          ∀ addr, latestPong history selfId = some addr →
            addr = selfAddr) := by
  let self :=
    (fresh hasher selfId selfAddr).afterAll history
  have hSelf : self.peerId = selfId := by
    simp [self]
  have hKnown :
      self.known selfId =
        (latestPong history selfId).or (some selfAddr) := by
    dsimp only [self]
    rw [known_afterAll, directory, if_pos rfl]
  have hContains :
      self.peerMap.contains selfId selfId =
        .ok ((self.known selfId).map
          fun addr => (selfId, addr)) := by
    rw [PeerMap.contains_eq_ok, known, hSelf]
  refine
    ⟨self, _, runFrom_eq_ok hasher selfId selfAddr history,
      ?_⟩
  cases hLatest : latestPong history selfId with
  | none =>
      rw [hLatest] at hKnown
      have hAnswer :
          self.answer selfId =
            .findPeerResponsePeerFound selfId selfAddr := by
        simp [answer, hKnown]
      simp [hContains, hKnown, handle_eq_ok, after, replies,
        hAnswer]
  | some addr =>
      rw [hLatest] at hKnown
      have hAnswer :
          self.answer selfId =
            .findPeerResponsePeerFound selfId addr := by
        simp [answer, hKnown]
      constructor
      · intro hKept other hOther
        have hOwn := hKept.1
        have hAddr : addr = selfAddr := by
          simpa [hContains, hKnown] using hOwn
        rw [← Option.some.inj hOther]
        exact hAddr
      · intro hSource
        have hAddr : addr = selfAddr := hSource addr rfl
        subst hAddr
        simp [hContains, hKnown, handle_eq_ok, after,
          replies, hAnswer]

/-
  A pong with the worker's id from a stranger replaces the
  worker's own entry.
-/
theorem own_entry_taken_over :
    ¬ ∀ (hasher : Rust.RandomState PeerId SocketAddr)
        (selfId : PeerId)
        (selfAddr : SocketAddr)
        (history : List Incoming)
        (self : WorkerState)
        (sent : List Outgoing),
      runFrom hasher selfId selfAddr history =
          .ok (self, sent) →
        self.peerMap.contains selfId selfId =
          .ok (some (selfId, selfAddr)) := by
  intro hClaim
  let hasher := Rust.RandomState.insertionOrder
    PeerId SocketAddr
  let selfId := PeerId.repeating 0
  let selfAddr := SocketAddr.v4 0x0A000001 4433
  let stranger := SocketAddr.v4 0x0A000002 4433
  let history : List Incoming := [(stranger, .pong selfId)]
  have hContains :=
    hClaim hasher selfId selfAddr history _ _
      (runFrom_eq_ok hasher selfId selfAddr history)
  have hKnown := known_afterAll hasher selfId selfAddr
    history selfId
  have hDirectory :
      directory selfId selfAddr history selfId =
        some stranger := by
    decide
  rw [hDirectory, known, peerId_afterAll,
    peerId_fresh] at hKnown
  rw [PeerMap.contains_eq_ok, hKnown] at hContains
  have hSame : stranger = selfAddr := by
    simpa using hContains
  exact absurd hSame (by decide)

end WorkerState

end WorldDat
