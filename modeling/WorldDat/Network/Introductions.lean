import WorldDat.Network.Choices
import WorldDat.Network.Discovery
import WorldDat.Network.PingStorm

/-
  Who can get to know whom.

  Workers ignore the answers to FindPeer and ping nobody but
  whoever has pinged them.  So a worker only ever learns of a
  peer when a ping from outside has come between the two, and
  what it tells others never spreads any further.

  Main declarations:
    * `Discipline.closed` and `Network.step_closed`
    * `Network.Met` and `Network.Reserved`
    * `Network.reserved_step` and `Network.reserved_inject`
    * `Network.Discreet` and `Network.discreet_of_exec`
-/

------------------------------------------------------------
-- Closed Networks
------------------------------------------------------------

namespace WorldDat

open Rust

/- The same discipline, but nothing comes from outside. -/
def Discipline.closed (d : Discipline) : Discipline :=
  { d with admits := fun _ => false }

namespace Network

/- What is admitted matters to injections only. -/
theorem step_closed
    (d : Discipline)
    (net : Network)
    {choice : Choice}
    (hInner : choice.isInject = false) :
    step d.closed net choice = step d net choice := by
  cases choice with
  | inject => cases hInner
  | handle => rfl
  | deliver => rfl
  | lose => rfl
  | duplicate => rfl

/- An injected packet joins those that are pending. -/
theorem mem_pending_inject
    {net : Network}
    {source destination : SocketAddr}
    {message : Message}
    {node : Node}
    (hNode : net.nodes.get destination = some node)
    {packet : Packet}
    (hPacket :
      packet ∈
        { net.accept node
            (net.injection source destination message)
          with injections := net.injections + 1 }.pending) :
    packet = net.injection source destination message ∨
      packet ∈ net.pending := by
  have hQueued :=
    queued_accept
      (show net.nodes.get
        (net.injection source destination
          message).destination = some node from hNode)
  rcases List.mem_append.mp hPacket with hFlight | hNext
  · apply Or.inr
    apply List.mem_append_left
    exact hFlight
  · rcases List.mem_cons.mp (hQueued.mem_iff.mp hNext) with
      hNew | hOld
    · exact Or.inl hNew
    · apply Or.inr
      apply List.mem_append_right
      exact hOld

/- An injection that is enabled has a worker to go to. -/
theorem step_inject_sound
    {d : Discipline}
    {net next : Network}
    {source destination : SocketAddr}
    {message : Message}
    (hStep :
      step d net (.inject source destination message) =
        some next) :
    ∃ node,
      net.nodes.get destination = some node ∧
        d.admits message = true ∧
        next =
          { net.accept node
              (net.injection source destination message)
            with injections := net.injections + 1 } := by
  simp only [step] at hStep
  split at hStep
  · cases hStep
  · rename_i node hNode
    split at hStep
    · rename_i hAdmits
      cases hStep
      exact ⟨node, hNode, hAdmits, rfl⟩
    · cases hStep

end Network

end WorldDat

------------------------------------------------------------
-- Reserved Networks
------------------------------------------------------------

namespace WorldDat

open Rust

namespace Network

/-
  Pings and pongs are between those who have met, and a
  worker knows and names nobody else but itself.
-/
structure Reserved
    (met : SocketAddr → SocketAddr → Prop)
    (net : Network) : Prop where
  true_tables : net.TruthfulTables
  routed : net.Routed
  packets : ∀ packet ∈ net.pending, ∀ id,
    packet.message = .ping id ∨ packet.message = .pong id →
      met packet.source packet.destination
  tables : ∀ addr node, net.nodes.get addr = some node →
    ∀ id contact,
      (id, contact) ∈ node.state.peerMap.entries →
        contact = addr ∨ met addr contact
  answers : ∀ packet ∈ net.pending,
    packet.injected = false →
      ∀ id contact, (id, contact) ∈ packet.message.contacts →
        net.Runs id contact ∧
          (contact = packet.source ∨
            met packet.source contact)

variable {met : SocketAddr → SocketAddr → Prop}
variable {d : Discipline}
variable {net next : Network}

/- A reply to a ping goes back to where the ping came from. -/
theorem Reserved.reply
    (hReserved : net.Reserved met)
    (hSymm : ∀ a b, met a b → met b a)
    {worker : SocketAddr}
    {node : Node}
    (hNode : net.nodes.get worker = some node)
    {cause : Packet}
    (hCause : cause ∈ node.control)
    {out : Outgoing}
    (hOut :
      out ∈ node.state.replies (cause.source, cause.message))
    {id : PeerId}
    (hMessage : out.2 = .ping id ∨ out.2 = .pong id) :
    met worker out.1 := by
  have hPending : cause ∈ net.pending := by
    apply List.mem_append_right
    rw [mem_queued_iff]
    exact ⟨worker, node, hNode, hCause⟩
  have hHere := hReserved.routed worker node hNode cause hCause
  have hPinged : ∀ asked, cause.message = .ping asked →
      met worker cause.source := by
    intro asked hPing
    apply hSymm
    rw [← hHere]
    exact
      hReserved.packets cause hPending asked (Or.inl hPing)
  have hBack := WorkerState.destination_of_mem_replies hOut
  rw [hBack]
  cases hAsked : cause.message with
  | ping asked => exact hPinged asked hAsked
  | findPeer desired =>
      rw [hAsked] at hOut
      have hAnswer := List.mem_singleton.mp hOut
      rw [hAnswer] at hMessage
      unfold WorkerState.answer at hMessage
      split at hMessage
      · simp at hMessage
      · simp at hMessage
  | pong =>
      rw [hAsked] at hOut
      cases hOut
  | findPeerResponsePeerFound =>
      rw [hAsked] at hOut
      cases hOut
  | findPeerResponsePeerNotFound =>
      rw [hAsked] at hOut
      cases hOut

/- Without injections, nobody new is met. -/
theorem reserved_step
    (hSymm : ∀ a b, met a b → met b a)
    (hReserved : net.Reserved met)
    (hStep : Step d.closed net next) :
    next.Reserved met where
  true_tables :=
    hReserved.true_tables.step (fun _ => rfl) hStep
  routed := routed_step hReserved.routed hStep
  packets := by
    intro packet hPacket id hMessage
    rcases hStep.pending_cases hPacket with
      hOld | hNew | ⟨worker, node, cause, out, hNode, hCause,
        hOut, hReply⟩
    · exact hReserved.packets packet hOld id hMessage
    · cases hNew
    · rw [hReply] at hMessage ⊢
      exact hReserved.reply hSymm hNode hCause hOut hMessage
  tables := by
    intro addr node hNode id contact hEntry
    rcases hStep.state_cases hNode with
      ⟨old, hOld, hSame | ⟨packet, hPacket, hAfter⟩⟩
    · rw [hSame] at hEntry
      exact hReserved.tables addr old hOld id contact hEntry
    · rw [hAfter] at hEntry
      rcases WorkerState.entries_after_cases hEntry with
        hBefore | ⟨hPong, hSource⟩
      · exact
          hReserved.tables addr old hOld id contact hBefore
      · have hPending : packet ∈ net.pending := by
          apply List.mem_append_right
          rw [mem_queued_iff]
          exact ⟨addr, old, hOld, hPacket⟩
        have hHere :=
          hReserved.routed addr old hOld packet hPacket
        apply Or.inr
        apply hSymm
        rw [hSource, ← hHere]
        exact
          hReserved.packets packet hPending id (Or.inr hPong)
  answers := by
    intro packet hPacket hRelayed id contact hContact
    rw [hStep.runs_iff]
    rcases hStep.pending_cases hPacket with
      hOld | hNew | ⟨worker, node, cause, out, hNode, hCause,
        hOut, hReply⟩
    · exact
        hReserved.answers packet hOld hRelayed id contact
          hContact
    · cases hNew
    · rw [hReply] at hContact ⊢
      have hEntry :=
        WorkerState.mem_entries_of_mem_contacts hOut hContact
      exact
        ⟨hReserved.true_tables.tables worker node hNode id
            contact hEntry,
          hReserved.tables worker node hNode id contact
            hEntry⟩

/- An injected ping is between those who meet by it. -/
theorem reserved_inject
    (hPongs : ∀ id, d.admits (.pong id) = false)
    (hReserved : net.Reserved met)
    {source destination : SocketAddr}
    {message : Message}
    (hMet : ∀ id, message = .ping id →
      met source destination)
    (hStep :
      step d net (.inject source destination message) =
        some next) :
    next.Reserved met := by
  have hAny := step_sound hStep
  have hRuns := hAny.runs_iff
  have hTrue := hReserved.true_tables.step hPongs hAny
  have hRouted := routed_step hReserved.routed hAny
  rcases step_inject_sound hStep with
    ⟨node, hNode, hAdmits, hNext⟩
  have hPending : ∀ packet ∈ next.pending,
      packet = net.injection source destination message ∨
        packet ∈ net.pending := by
    intro packet hPacket
    rw [hNext] at hPacket
    exact mem_pending_inject hNode hPacket
  refine ⟨hTrue, hRouted, ?_, ?_, ?_⟩
  · intro packet hPacket id hMessage
    rcases hPending packet hPacket with hNew | hOld
    · rw [hNew] at hMessage ⊢
      rcases hMessage with hPing | hPong
      · exact hMet id hPing
      · change message = .pong id at hPong
        rw [hPong, hPongs] at hAdmits
        cases hAdmits
    · exact hReserved.packets packet hOld id hMessage
  · intro addr other hOther id contact hEntry
    rw [hNext] at hOther
    rcases HashMap.get_insert_cases hOther with
      ⟨hAddr, hHere⟩ | ⟨_, hElse⟩
    · rw [hHere] at hEntry
      rw [hAddr]
      exact
        hReserved.tables destination node hNode id contact
          hEntry
    · exact
        hReserved.tables addr other hElse id contact hEntry
  · intro packet hPacket hRelayed id contact hContact
    rw [hRuns]
    rcases hPending packet hPacket with hNew | hOld
    · rw [hNew] at hRelayed
      cases hRelayed
    · exact
        hReserved.answers packet hOld hRelayed id contact
          hContact

/- Freshly started workers know nobody but themselves. -/
theorem reserved_start
    (met : SocketAddr → SocketAddr → Prop)
    (hasher : RandomState SocketAddr Node)
    (peers : List Peer) :
    (start hasher peers).Reserved met where
  true_tables := truthfulTables_start hasher peers
  routed := (acquainted_start hasher peers).routed
  packets := by
    intro packet hPacket
    rw [pending_start] at hPacket
    cases hPacket
  tables := by
    intro addr node hNode id contact hEntry
    rcases exists_peer_of_get_start hNode with
      ⟨peer, _, hAddr, hFresh⟩
    rw [hFresh] at hEntry
    apply Or.inl
    rw [← hAddr]
    exact (WorkerState.mem_entries_fresh hEntry).2
  answers := by
    intro packet hPacket
    rw [pending_start] at hPacket
    cases hPacket

end Network

end WorldDat

------------------------------------------------------------
-- Discretion
------------------------------------------------------------

namespace WorldDat

open Rust

namespace Network

/- A ping has come from outside between two addresses. -/
def Met
    (choices : List Choice)
    (a b : SocketAddr) : Prop :=
  ∃ id,
    .inject a b (.ping id) ∈ choices ∨
      .inject b a (.ping id) ∈ choices

theorem Met.symm
    {choices : List Choice}
    (a b : SocketAddr)
    (hMet : Met choices a b) :
    Met choices b a := by
  rcases hMet with ⟨id, hForth | hBack⟩
  · exact ⟨id, Or.inr hForth⟩
  · exact ⟨id, Or.inl hBack⟩

/- No run makes two workers meet that were never introduced. -/
theorem reserved_of_exec
    {d : Discipline}
    (hPongs : ∀ id, d.admits (.pong id) = false)
    (hasher : RandomState SocketAddr Node)
    (peers : List Peer)
    {choices : List Choice}
    {net : Network}
    (hExec :
      exec d (start hasher peers) choices = some net) :
    net.Reserved (Met choices) := by
  apply Machine.exec_invariant_of_mem ?_ hExec
  · exact reserved_start _ hasher peers
  · intro before after choice hChoice hBefore hStep
    have hInner : choice.isInject = false →
        after.Reserved (Met choices) := by
      intro hInner
      rw [← step_closed d before hInner] at hStep
      exact reserved_step Met.symm hBefore (step_sound hStep)
    cases choice with
    | inject source destination message =>
        apply reserved_inject hPongs hBefore ?_ hStep
        intro id hPing
        rw [hPing] at hChoice
        exact ⟨id, Or.inl hChoice⟩
    | handle => exact hInner rfl
    | deliver => exact hInner rfl
    | lose => exact hInner rfl
    | duplicate => exact hInner rfl

/- The workers of a network are those that it was given. -/
theorem exists_peer_of_runs
    {d : Discipline}
    {hasher : RandomState SocketAddr Node}
    {peers : List Peer}
    {choices : List Choice}
    {net : Network}
    (hExec :
      exec d (start hasher peers) choices = some net)
    {id : PeerId}
    {addr : SocketAddr}
    (hRuns : net.Runs id addr) :
    ∃ peer ∈ peers, peer.peerId = id ∧ peer.address = addr := by
  have hSame :
      net.Runs id addr ↔ (start hasher peers).Runs id addr := by
    apply exec_invariant
      (fun net =>
        net.Runs id addr ↔ (start hasher peers).Runs id addr)
      ?_ hExec Iff.rfl
    intro before after hBefore hStep
    rw [hStep.runs_iff]
    exact hBefore
  rcases hSame.mp hRuns with ⟨node, hNode, hId⟩
  rcases exists_peer_of_get_start hNode with
    ⟨peer, hPeer, hAddr, hFresh⟩
  rw [hFresh] at hId
  exact ⟨peer, hPeer, hId, hAddr⟩

/-
  A worker knows nobody but itself and the workers with which
  it has exchanged a ping from outside, and it tells others
  of nobody else.
-/
structure Discreet
    (peers : List Peer)
    (choices : List Choice)
    (net : Network) : Prop where
  tables : ∀ addr node, net.nodes.get addr = some node →
    ∀ id contact, node.state.known id = some contact →
      ∃ peer ∈ peers,
        peer.peerId = id ∧ peer.address = contact ∧
          (contact = addr ∨ Met choices addr contact)
  answers : ∀ packet ∈ net.pending,
    packet.injected = false →
      ∀ id contact, (id, contact) ∈ packet.message.contacts →
        ∃ peer ∈ peers,
          peer.peerId = id ∧ peer.address = contact ∧
            (contact = packet.source ∨
              Met choices packet.source contact)

/-
  In every run of a network into which no pong is injected,
  workers are discreet, whatever else is injected and however
  messages are lost, duplicated and reordered.
-/
theorem discreet_of_exec
    {d : Discipline}
    (hPongs : ∀ id, d.admits (.pong id) = false)
    (hasher : RandomState SocketAddr Node)
    (peers : List Peer)
    {choices : List Choice}
    {net : Network}
    (hExec :
      exec d (start hasher peers) choices = some net) :
    net.Discreet peers choices := by
  have hReserved :=
    reserved_of_exec hPongs hasher peers hExec
  refine ⟨?_, ?_⟩
  · intro addr node hNode id contact hKnown
    have hEntry := WorkerState.mem_entries_of_known hKnown
    have hRuns :=
      hReserved.true_tables.tables addr node hNode id contact
        hEntry
    rcases exists_peer_of_runs hExec hRuns with
      ⟨peer, hPeer, hId, hAddr⟩
    exact
      ⟨peer, hPeer, hId, hAddr,
        hReserved.tables addr node hNode id contact hEntry⟩
  · intro packet hPacket hRelayed id contact hContact
    rcases hReserved.answers packet hPacket hRelayed id
        contact hContact with
      ⟨hRuns, hWho⟩
    rcases exists_peer_of_runs hExec hRuns with
      ⟨peer, hPeer, hId, hAddr⟩
    exact ⟨peer, hPeer, hId, hAddr, hWho⟩

theorem discreet_of_exec_handshake :
    ∃ net,
      exec hostile pair handshake = some net ∧
        net.Discreet [firstPeer, secondPeer] handshake := by
  have hRuns :
      (exec hostile pair handshake).isSome = true := by
    decide +kernel
  rcases Option.isSome_iff_exists.mp hRuns with
    ⟨net, hExec⟩
  exact
    ⟨net, hExec,
      discreet_of_exec (fun _ => rfl) _ _ hExec⟩

end Network

end WorldDat
