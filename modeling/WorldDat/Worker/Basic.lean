import WorldDat.PeerMap.Search

/-
  The worker that makes the decisions of a peer
  (`worker.rs`).

  `WorkerState.handle` is the body of the loop for one
  incoming message and `WorkerState.run` the loop itself.
  What the worker sends is listed in the order of the calls
  to `send`.  Neither panics: `WorkerState.after` and
  `WorkerState.replies` give their results.

  Main declarations:
    * `WorkerState.start`, `handle` and `run`
    * `WorkerState.handle_eq_ok`
    * `WorkerState.run_incoming_eq_ok`
    * `WorkerState.filedBy_afterAll`
-/

------------------------------------------------------------
-- Worker States
------------------------------------------------------------

namespace WorldDat

open Rust

/- What comes out of the control channel of a worker. -/
inductive WorkerMessage where
| quit
| incoming (source : SocketAddr) (message : Message)
deriving DecidableEq

/- A message with the address that it came from. -/
abbrev Incoming := SocketAddr × Message

/- A message with the address that it is sent to. -/
abbrev Outgoing := SocketAddr × Message

structure WorkerState where
  peerId : PeerId
  peerMap : PeerMap

namespace WorkerState

/- The state in which a worker's thread starts. -/
def start
    (hasher : PeerHasher)
    (peerId : PeerId)
    (addr : SocketAddr) : Except Panic WorkerState := do
  -- Add self to peer map
  let peerMap ←
    (PeerMap.default hasher).insert peerId addr peerId
  return { peerId, peerMap }

/- Handle one incoming message. -/
def handle
    (self : WorkerState)
    (addr : SocketAddr)
    (msg : Message) :
    Except Panic (WorkerState × List Outgoing) :=
  match msg with
  | .ping otherId => do
      let pong := (addr, Message.pong self.peerId)
      -- If we don't know about this peer, ping it back
      match ← self.peerMap.contains self.peerId otherId with
      | none =>
          return (self, [pong, (addr, .ping self.peerId)])
      | some _ => return (self, [pong])
  | .pong otherId => do
      let peerMap ←
        self.peerMap.insert self.peerId addr otherId
      return ({ self with peerMap }, [])
  | .findPeer desiredId => do
      match ← self.peerMap.lookup self.peerId desiredId with
      | .ok (peerId, socketAddr) =>
          return (self,
            [(addr,
              .findPeerResponsePeerFound peerId socketAddr)])
      | .error neighbors =>
          return (self,
            [(addr,
              .findPeerResponsePeerNotFound desiredId
                neighbors)])
  | .findPeerResponsePeerFound _ _ => return (self, [])
  | .findPeerResponsePeerNotFound _ _ => return (self, [])

/-
  The loop, on everything that the control channel delivers
  before it is disconnected.
-/
def run
    (self : WorkerState) :
    List WorkerMessage →
      Except Panic (WorkerState × List Outgoing)
| [] => return (self, [])
| .quit :: _ => return (self, [])
| .incoming addr msg :: rest => do
    let (self, sent) ← self.handle addr msg
    let (self, later) ← run self rest
    return (self, sent ++ later)

/-
  Start a worker and let it process a sequence of incoming
  messages.
-/
def runFrom
    (hasher : PeerHasher)
    (peerId : PeerId)
    (addr : SocketAddr)
    (history : List Incoming) :
    Except Panic (WorkerState × List Outgoing) := do
  let self ← start hasher peerId addr
  self.run (history.map fun (source, msg) =>
    .incoming source msg)

end WorkerState

end WorldDat

------------------------------------------------------------
-- Workers Without Panics
------------------------------------------------------------

namespace WorldDat

open Rust

/- A message that nobody answers. -/
def Message.isResponse : Message → Bool
| .ping _ => false
| .pong _ => true
| .findPeer _ => false
| .findPeerResponsePeerFound _ _ => true
| .findPeerResponsePeerNotFound _ _ => true

namespace WorkerState

/- The address that a worker knows for a peer. -/
def known
    (self : WorkerState)
    (peerId : PeerId) : Option SocketAddr :=
  self.peerMap.find self.peerId peerId

/- File a peer under an address. -/
def learn
    (self : WorkerState)
    (addr : SocketAddr)
    (peerId : PeerId) : WorkerState where
  peerId := self.peerId
  peerMap := self.peerMap.put self.peerId addr peerId

/- A fresh worker knows itself. -/
def fresh
    (hasher : PeerHasher)
    (peerId : PeerId)
    (addr : SocketAddr) : WorkerState where
  peerId := peerId
  peerMap := (PeerMap.default hasher).put peerId addr peerId

/- The state after a message. -/
def after
    (self : WorkerState) :
    Incoming → WorkerState
| (addr, .pong otherId) => self.learn addr otherId
| (_, .ping _) => self
| (_, .findPeer _) => self
| (_, .findPeerResponsePeerFound _ _) => self
| (_, .findPeerResponsePeerNotFound _ _) => self

/- The answer to a request for a peer. -/
def answer
    (self : WorkerState)
    (peerId : PeerId) : Message :=
  match self.known peerId with
  | some addr => .findPeerResponsePeerFound peerId addr
  | none =>
      .findPeerResponsePeerNotFound peerId
        (self.peerMap.found
          (self.peerId.distanceRank peerId))

/- What a worker sends in reply to a message. -/
def replies
    (self : WorkerState) :
    Incoming → List Outgoing
| (addr, .ping otherId) =>
    (addr, .pong self.peerId) ::
      match self.known otherId with
      | some _ => []
      | none => [(addr, .ping self.peerId)]
| (addr, .findPeer peerId) => [(addr, self.answer peerId)]
| (_, .pong _) => []
| (_, .findPeerResponsePeerFound _ _) => []
| (_, .findPeerResponsePeerNotFound _ _) => []

/- The state after a sequence of messages. -/
def afterAll
    (self : WorkerState)
    (history : List Incoming) : WorkerState :=
  history.foldl after self

/- What a worker sends in reply to a sequence of messages. -/
def repliesTo
    (self : WorkerState) :
    List Incoming → List Outgoing
| [] => []
| msg :: rest =>
    self.replies msg ++ repliesTo (self.after msg) rest

/- The state after one more message. -/
theorem afterAll_concat
    (self : WorkerState)
    (history : List Incoming)
    (msg : Incoming) :
    self.afterAll (history ++ [msg]) =
      (self.afterAll history).after msg := by
  unfold afterAll
  rw [List.foldl_append]
  rfl

/- The replies to one more message. -/
theorem repliesTo_concat
    (self : WorkerState)
    (history : List Incoming)
    (msg : Incoming) :
    self.repliesTo (history ++ [msg]) =
      self.repliesTo history ++
        (self.afterAll history).replies msg := by
  induction history generalizing self with
  | nil => simp [repliesTo, afterAll]
  | cons first history ih =>
      rw [List.cons_append, repliesTo, ih (self.after first),
        repliesTo, List.append_assoc]
      rfl

/- Exactly the responses get no reply. -/
theorem replies_eq_nil_iff
    (self : WorkerState)
    (source : SocketAddr)
    (msg : Message) :
    self.replies (source, msg) = [] ↔
      msg.isResponse = true := by
  cases msg with
  | ping id => simp [replies, Message.isResponse]
  | findPeer id => simp [replies, Message.isResponse]
  | pong id => exact iff_of_true rfl rfl
  | findPeerResponsePeerFound id addr =>
      exact iff_of_true rfl rfl
  | findPeerResponsePeerNotFound id neighbors =>
      exact iff_of_true rfl rfl

/- The three ways in which a message gets a reply. -/
inductive Reply (self : WorkerState) :
    Incoming → Outgoing → Prop where
| pong
    (source : SocketAddr)
    (id : PeerId) :
    Reply self (source, .ping id) (source, .pong self.peerId)
| ping
    (source : SocketAddr)
    (id : PeerId)
    (hKnown : self.known id = none) :
    Reply self (source, .ping id) (source, .ping self.peerId)
| answer
    (source : SocketAddr)
    (id : PeerId) :
    Reply self (source, .findPeer id) (source, self.answer id)

/- Every reply is made in one of these ways. -/
theorem reply_of_mem_replies
    {self : WorkerState}
    {msg : Incoming}
    {out : Outgoing}
    (hOut : out ∈ self.replies msg) :
    self.Reply msg out := by
  rcases msg with ⟨source, msg⟩
  cases msg with
  | ping id =>
      rcases List.mem_cons.mp hOut with hPong | hPing
      · rw [hPong]
        exact .pong source id
      · cases hKnown : self.known id with
        | none =>
            rw [hKnown, List.mem_singleton] at hPing
            rw [hPing]
            exact .ping source id hKnown
        | some addr =>
            rw [hKnown] at hPing
            cases hPing
  | findPeer id =>
      rw [List.mem_singleton.mp hOut]
      exact .answer source id
  | pong id => cases hOut
  | findPeerResponsePeerFound id addr => cases hOut
  | findPeerResponsePeerNotFound id neighbors => cases hOut

/- No message gets more than two replies. -/
theorem length_replies_le
    (self : WorkerState)
    (msg : Incoming) :
    (self.replies msg).length ≤ 2 := by
  rcases msg with ⟨source, msg⟩
  cases msg with
  | ping id =>
      unfold replies
      dsimp only
      split <;> simp
  | findPeer id => simp [replies]
  | pong id => exact Nat.zero_le 2
  | findPeerResponsePeerFound id addr => exact Nat.zero_le 2
  | findPeerResponsePeerNotFound id neighbors =>
      exact Nat.zero_le 2

/- Starting a worker never panics. -/
theorem start_eq_ok
    (hasher : PeerHasher)
    (peerId : PeerId)
    (addr : SocketAddr) :
    start hasher peerId addr =
      .ok (fresh hasher peerId addr) := by
  simp [start, PeerMap.insert_eq_ok, fresh, bind,
    Except.bind, pure, Except.pure]

/- Handling a message never panics. -/
theorem handle_eq_ok
    (self : WorkerState)
    (addr : SocketAddr)
    (msg : Message) :
    self.handle addr msg =
      .ok (self.after (addr, msg),
        self.replies (addr, msg)) := by
  cases msg with
  | ping otherId =>
      cases hKnown : self.known otherId with
      | none =>
          have hFind :
              self.peerMap.find self.peerId otherId =
                none := hKnown
          simp [handle, PeerMap.contains_eq_ok, hFind,
            hKnown, after, replies, bind, Except.bind, pure,
            Except.pure]
      | some known =>
          have hFind :
              self.peerMap.find self.peerId otherId =
                some known := hKnown
          simp [handle, PeerMap.contains_eq_ok, hFind,
            hKnown, after, replies, bind, Except.bind, pure,
            Except.pure]
  | pong otherId =>
      simp [handle, PeerMap.insert_eq_ok, after, replies,
        learn, bind, Except.bind, pure, Except.pure]
  | findPeer desiredId =>
      cases hKnown : self.known desiredId with
      | none =>
          simp [handle,
            self.peerMap.lookup_eq_ok_of_find_none hKnown,
            after, replies, answer, hKnown, bind,
            Except.bind, pure, Except.pure]
      | some known =>
          simp [handle,
            self.peerMap.lookup_eq_ok_of_find hKnown,
            after, replies, answer, hKnown, bind,
            Except.bind, pure, Except.pure]
  | findPeerResponsePeerFound id found => rfl
  | findPeerResponsePeerNotFound id neighbors => rfl

/- The loop never panics on incoming messages. -/
theorem run_incoming_eq_ok
    (self : WorkerState)
    (history : List Incoming) :
    self.run (history.map fun (source, msg) =>
        .incoming source msg) =
      .ok (self.afterAll history,
        self.repliesTo history) := by
  induction history generalizing self with
  | nil => rfl
  | cons msg rest ih =>
      rcases msg with ⟨addr, msg⟩
      simp [run, handle_eq_ok, ih, afterAll, repliesTo,
        bind, Except.bind, pure, Except.pure]

/- A started worker never panics on incoming messages. -/
theorem runFrom_eq_ok
    (hasher : PeerHasher)
    (peerId : PeerId)
    (addr : SocketAddr)
    (history : List Incoming) :
    runFrom hasher peerId addr history =
      .ok ((fresh hasher peerId addr).afterAll history,
        (fresh hasher peerId addr).repliesTo history) := by
  have hRun :=
    (fresh hasher peerId addr).run_incoming_eq_ok history
  simpa [runFrom, start_eq_ok, bind, Except.bind] using hRun

@[simp] theorem peerId_after
    (self : WorkerState)
    (msg : Incoming) :
    (self.after msg).peerId = self.peerId := by
  rcases msg with ⟨addr, msg⟩
  cases msg <;> rfl

@[simp] theorem peerId_fresh
    (hasher : PeerHasher)
    (peerId : PeerId)
    (addr : SocketAddr) :
    (fresh hasher peerId addr).peerId = peerId := rfl

/- Messages do not change who a worker is. -/
@[simp] theorem peerId_afterAll
    (self : WorkerState)
    (history : List Incoming) :
    (self.afterAll history).peerId = self.peerId := by
  induction history generalizing self with
  | nil => rfl
  | cons msg rest ih =>
      change ((self.after msg).afterAll rest).peerId = _
      rw [ih, peerId_after]

/- A pong files its sender; other messages change nothing. -/
theorem known_after
    (self : WorkerState)
    (addr : SocketAddr)
    (msg : Message)
    (peerId : PeerId) :
    (self.after (addr, msg)).known peerId =
      if msg = .pong peerId then
        some addr
      else
        self.known peerId := by
  cases msg with
  | pong otherId =>
      by_cases hSame : otherId = peerId
      · subst hSame
        simp [after, learn, known, PeerMap.find_put]
      · have hOther : peerId ≠ otherId := fun h =>
          hSame h.symm
        simp [after, learn, known, PeerMap.find_put, hSame,
          hOther]
  | ping otherId => simp [after]
  | findPeer desiredId => simp [after]
  | findPeerResponsePeerFound id found => simp [after]
  | findPeerResponsePeerNotFound id neighbors => simp [after]

/- A fresh worker knows its own address and no other. -/
theorem known_fresh
    (hasher : PeerHasher)
    (peerId other : PeerId)
    (addr : SocketAddr) :
    (fresh hasher peerId addr).known other =
      if other = peerId then some addr else none := by
  have hEmpty :
      (PeerMap.default hasher).find peerId other = none := by
    simp [PeerMap.find]
  rw [known, fresh, PeerMap.find_put, hEmpty]

/- What a worker knows, it never forgets. -/
theorem isSome_known_after
    (self : WorkerState)
    (msg : Incoming)
    {peerId : PeerId}
    (hKnown : (self.known peerId).isSome) :
    ((self.after msg).known peerId).isSome := by
  rcases msg with ⟨addr, msg⟩
  rw [known_after]
  by_cases hPong : msg = .pong peerId
  · simp [hPong]
  · simpa [hPong] using hKnown

/- The peers of which a worker has an address. -/
def Knows
    (self : WorkerState)
    (peerId : PeerId) : Prop :=
  (self.known peerId).isSome

/- A worker also knows the peer that a pong comes from. -/
theorem knows_after
    {self : WorkerState}
    {addr : SocketAddr}
    {msg : Message}
    {peerId : PeerId}
    (hKnows : self.Knows peerId ∨ msg = .pong peerId) :
    (self.after (addr, msg)).Knows peerId := by
  unfold Knows
  rcases hKnows with hOld | hNew
  · exact isSome_known_after self _ hOld
  · rw [known_after, if_pos hNew]
    rfl

/- A fresh worker knows itself. -/
theorem knows_fresh
    (hasher : PeerHasher)
    (peerId : PeerId)
    (addr : SocketAddr) :
    (fresh hasher peerId addr).Knows peerId := by
  rw [Knows, known_fresh, if_pos rfl]
  rfl

end WorkerState

end WorldDat

------------------------------------------------------------
-- Tables Of Workers
------------------------------------------------------------

namespace WorldDat

namespace WorkerState

/- A message changes the table by a pong at most. -/
theorem filedBy_after
    {self : WorkerState}
    (hFiled : self.peerMap.FiledBy self.peerId)
    (msg : Incoming) :
    (self.after msg).peerMap.FiledBy
      (self.after msg).peerId := by
  rw [peerId_after]
  rcases msg with ⟨source, msg⟩
  cases msg with
  | pong otherId => exact hFiled.put source otherId
  | ping otherId => exact hFiled
  | findPeer desiredId => exact hFiled
  | findPeerResponsePeerFound found addr => exact hFiled
  | findPeerResponsePeerNotFound missing neighbors =>
      exact hFiled

/- A fresh worker files itself at its rank. -/
theorem filedBy_fresh
    (hasher : PeerHasher)
    (peerId : PeerId)
    (addr : SocketAddr) :
    (fresh hasher peerId addr).peerMap.FiledBy
      (fresh hasher peerId addr).peerId :=
  (PeerMap.filedBy_default hasher peerId).put addr peerId

/- A worker files every peer at its rank. -/
theorem filedBy_afterAll
    {self : WorkerState}
    (hFiled : self.peerMap.FiledBy self.peerId)
    (history : List Incoming) :
    (self.afterAll history).peerMap.FiledBy self.peerId := by
  induction history generalizing self with
  | nil => exact hFiled
  | cons msg history ih =>
      have hRest := ih (filedBy_after hFiled msg)
      rw [peerId_after] at hRest
      exact hRest

/- No message changes the size of the buckets. -/
@[simp] theorem bucketSize_after
    (self : WorkerState)
    (msg : Incoming) :
    (self.after msg).peerMap.bucketSize =
      self.peerMap.bucketSize := by
  rcases msg with ⟨source, msg⟩
  cases msg with
  | pong otherId =>
      exact self.peerMap.bucketSize_put _ source otherId
  | ping otherId => rfl
  | findPeer desiredId => rfl
  | findPeerResponsePeerFound found addr => rfl
  | findPeerResponsePeerNotFound missing neighbors => rfl

end WorkerState

end WorldDat
