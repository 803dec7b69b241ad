import WorldDat.Network.Basic
import WorldDat.Worker.Contacts

/-
  Truthful networks: whatever a worker has filed and whatever
  an answer hands out names an address at which the peer
  really runs.

  Forged pings do no harm, because a worker files peers from
  pongs only and puts nobody's id but its own in a pong.

  Main declarations:
    * `Network.TruthfulTables`
    * `Network.Truthful`
    * `Network.truthful_of_exec`
-/

------------------------------------------------------------
-- Truthful Tables
------------------------------------------------------------

namespace WorldDat

namespace Network

/-
  Every entry of every table is true, and so is every pong
  that is pending: a peer with the pong's id runs at the
  pong's source.
-/
structure TruthfulTables (net : Network) : Prop where
  tables : ∀ addr node,
    net.nodes.get addr = some node →
      ∀ id contact,
        (id, contact) ∈ node.state.peerMap.entries →
          net.Runs id contact
  pongs : ∀ packet ∈ net.pending, ∀ id,
    packet.message = .pong id → net.Runs id packet.source

/- Freshly started workers have true tables. -/
theorem truthfulTables_start
    (hasher : Rust.RandomState SocketAddr Node)
    (peers : List Peer) :
    (start hasher peers).TruthfulTables where
  tables := by
    intro addr node hNode id contact hEntry
    rcases exists_peer_of_get_start hNode with
      ⟨peer, _, hAddr, hFresh⟩
    have hPeer :
        (id, contact) ∈
          (freshNode peer).state.peerMap.entries := by
      rw [← hFresh]
      exact hEntry
    rcases WorkerState.mem_entries_fresh hPeer with
      ⟨hId, hContact⟩
    refine ⟨node, ?_, ?_⟩
    · rw [hContact, hAddr]
      exact hNode
    · rw [hFresh, hId]
      rfl
  pongs := by
    intro packet hPacket
    rw [pending_start] at hPacket
    cases hPacket

/- If no pongs come from outside, tables stay true. -/
theorem TruthfulTables.step
    {d : Discipline}
    (hAdmits : ∀ id, d.admits (.pong id) = false)
    {net next : Network}
    (hTrue : net.TruthfulTables)
    (hStep : Step d net next) :
    next.TruthfulTables where
  tables := by
    intro addr node hNode id contact hEntry
    rw [hStep.runs_iff]
    rcases hStep.state_cases hNode with
      ⟨old, hOld, hSame | ⟨packet, hPacket, hAfter⟩⟩
    · rw [hSame] at hEntry
      exact hTrue.tables addr old hOld id contact hEntry
    · rw [hAfter] at hEntry
      rcases WorkerState.entries_after_cases hEntry with
        hEntry | ⟨hPong, hSource⟩
      · exact hTrue.tables addr old hOld id contact hEntry
      · have hQueued : packet ∈ net.queued :=
          (mem_queued_iff net packet).mpr
            ⟨addr, old, hOld, hPacket⟩
        rw [hSource]
        exact
          hTrue.pongs packet
            (List.mem_append_right _ hQueued) id hPong
  pongs := by
    intro packet hPacket id hPong
    rw [hStep.runs_iff]
    rcases hStep.pending_cases hPacket with
      hOld | hNew | ⟨worker, node, cause, out, hNode, _,
        hOut, hReply⟩
    · exact hTrue.pongs packet hOld id hPong
    · rw [hPong, hAdmits] at hNew
      cases hNew
    · rw [hReply] at hPong ⊢
      exact
        ⟨node, hNode,
          (WorkerState.id_of_mem_replies hOut
            (Or.inl hPong)).symm⟩

end Network

end WorldDat

------------------------------------------------------------
-- Truthful Answers
------------------------------------------------------------

namespace WorldDat

namespace Network

/-
  The discipline of a hostile network: requests with any
  source and any id may come from outside, and messages may
  be reordered, lost and duplicated.
-/
def hostile : Discipline where
  admits := fun msg =>
    match msg with
    | .ping _ => true
    | .findPeer _ => true
    | .pong _ => false
    | .findPeerResponsePeerFound _ _ => false
    | .findPeerResponsePeerNotFound _ _ => false
  fifo := false
  lossy := true
  duplicating := true

/-
  Every entry of every table and every contact in a pending
  answer names an address at which the peer runs.
-/
structure Truthful (net : Network) : Prop where
  tables : ∀ addr node,
    net.nodes.get addr = some node →
      ∀ id contact,
        (id, contact) ∈ node.state.peerMap.entries →
          net.Runs id contact
  answers : ∀ packet ∈ net.pending, ∀ id contact,
    (id, contact) ∈ packet.message.contacts →
      net.Runs id contact

/- True tables give true answers. -/
theorem truthful_step
    {net next : Network}
    (hTables : net.TruthfulTables)
    (hTrue : net.Truthful)
    (hStep : Step hostile net next) :
    next.Truthful where
  tables := (hTables.step (fun _ => rfl) hStep).tables
  answers := by
    intro packet hPacket id contact hContact
    rw [hStep.runs_iff]
    rcases hStep.pending_cases hPacket with
      hOld | hNew | ⟨worker, node, cause, out, hNode, _,
        hOut, hReply⟩
    · exact hTrue.answers packet hOld id contact hContact
    · cases hMessage : packet.message with
      | ping => simp [hMessage, Message.contacts] at hContact
      | pong => simp [hMessage, Message.contacts] at hContact
      | findPeer =>
          simp [hMessage, Message.contacts] at hContact
      | findPeerResponsePeerFound =>
          simp [hMessage, hostile] at hNew
      | findPeerResponsePeerNotFound =>
          simp [hMessage, hostile] at hNew
    · rw [hReply] at hContact
      exact
        hTrue.tables worker node hNode id contact
          (WorkerState.mem_entries_of_mem_contacts hOut
            hContact)

/-
  A network of workers that are started at their own
  addresses stays truthful, however hostile it is.
-/
theorem truthful_of_exec
    (hasher : Rust.RandomState SocketAddr Node)
    (peers : List Peer)
    {choices : List Choice}
    {net : Network}
    (hExec :
      exec hostile (start hasher peers) choices =
        some net) :
    net.Truthful := by
  have hStart := truthfulTables_start hasher peers
  have hInit : (start hasher peers).Truthful :=
    { tables := hStart.tables
      answers := by
        intro packet hPacket
        rw [pending_start] at hPacket
        cases hPacket }
  have hBoth : net.TruthfulTables ∧ net.Truthful := by
    apply exec_invariant
      (fun net => net.TruthfulTables ∧ net.Truthful)
      ?_ hExec ⟨hStart, hInit⟩
    intro net next hInv hStep
    rcases hInv with ⟨hTables, hTrue⟩
    constructor
    · apply hTables.step _ hStep
      intro id
      rfl
    · exact truthful_step hTables hTrue hStep
  exact hBoth.2

theorem truthful_of_exec_handshake :
    ∃ net,
      exec hostile pair handshake = some net ∧
        net.Truthful := by
  have hRuns :
      (exec hostile pair handshake).isSome = true := by
    decide +kernel
  rcases Option.isSome_iff_exists.mp hRuns with
    ⟨net, hExec⟩
  exact ⟨net, hExec, truthful_of_exec _ _ hExec⟩

end Network

end WorldDat
