import WorldDat.Network.Convergence

/-
  Whatever workers know and tell each other fits together.

  As long as no pongs come from outside, nobody is known at
  a wrong address.  So two workers never disagree about where
  a peer is, not even at different times, and what a worker
  has learned once it knows forever.

  Main declarations:
    * `Network.Cites`
    * `Network.runs_of_cites`
    * `Network.Consistent` and `Network.consistent_of_exec`
-/

------------------------------------------------------------
-- What A Network Says About A Peer
------------------------------------------------------------

namespace WorldDat

open Rust

namespace Network

/-
  A worker knows a peer at a contact, or an answer that names
  this contact is pending.
-/
def Cites
    (net : Network)
    (id : PeerId)
    (contact : SocketAddr) : Prop :=
  (∃ addr node, net.nodes.get addr = some node ∧
      node.state.known id = some contact) ∨
    ∃ packet ∈ net.pending,
      packet.injected = false ∧
        (id, contact) ∈ packet.message.contacts

/- Whoever is cited runs where it is said to run. -/
theorem runs_of_cites
    {met : SocketAddr → SocketAddr → Prop}
    {net : Network}
    (hReserved : net.Reserved met)
    {id : PeerId}
    {contact : SocketAddr}
    (hCites : net.Cites id contact) :
    net.Runs id contact := by
  rcases hCites with
    ⟨addr, node, hNode, hKnown⟩ |
      ⟨packet, hPacket, hRelayed, hContact⟩
  · have hEntry := WorkerState.mem_entries_of_known hKnown
    exact
      hReserved.true_tables.tables addr node hNode id contact
        hEntry
  · exact
      (hReserved.answers packet hPacket hRelayed id contact
        hContact).1

/- The workers of a network are there in all its runs. -/
theorem runs_exec_iff
    {d : Discipline}
    {net last : Network}
    {choices : List Choice}
    (hExec : exec d net choices = some last)
    (id : PeerId)
    (addr : SocketAddr) :
    last.Runs id addr ↔ net.Runs id addr := by
  apply exec_invariant
    (fun run => run.Runs id addr ↔ net.Runs id addr)
    ?_ hExec Iff.rfl
  intro before after hBefore hStep
  rw [hStep.runs_iff]
  exact hBefore

end Network

end WorldDat

------------------------------------------------------------
-- Consistent Answers
------------------------------------------------------------

namespace WorldDat

open Rust

namespace Network

/-
  What holds between a network and the same network later:
  what either says about a peer is the same, and whoever was
  known to a worker is still found there.
-/
structure Consistent (net later : Network) : Prop where
  agrees : ∀ id contact contact',
    net.Cites id contact → later.Cites id contact' →
      contact = contact'
  keeps : ∀ addr node, net.nodes.get addr = some node →
    ∃ node', later.nodes.get addr = some node' ∧
      ∀ id contact, node.state.known id = some contact →
        node'.state.answer id =
          .findPeerResponsePeerFound id contact

variable {d : Discipline}
variable {hasher : RandomState SocketAddr Node}
variable {peers : List Peer}
variable {choices more : List Choice}
variable {net later : Network}

/-
  In every run of a network of workers with distinct ids into
  which no pong is injected, whatever is said about a peer is
  the same everywhere and at all times, and nothing that has
  been learned is forgotten or changed.
-/
theorem consistent_of_exec
    (hPongs : ∀ id, d.admits (.pong id) = false)
    (hIds : (peers.map Peer.peerId).Nodup)
    (hExec :
      exec d (start hasher peers) choices = some net)
    (hMore : exec d net more = some later) :
    net.Consistent later := by
  have hAll :
      exec d (start hasher peers) (choices ++ more) =
        some later := by
    unfold exec
    rw [Machine.exec_append_eq_some_iff]
    exact ⟨net, hExec, hMore⟩
  have hEarly := reserved_of_exec hPongs hasher peers hExec
  have hLate := reserved_of_exec hPongs hasher peers hAll
  have hDistinct : later.Distinct := by
    apply exec_invariant Distinct ?_ hAll
    · exact distinct_start hasher hIds
    · intro before after hBefore hStep
      exact distinct_step hBefore hStep
  refine ⟨?_, ?_⟩
  · intro id contact contact' hCites hCites'
    have hRuns :=
      (runs_exec_iff hMore id contact).mpr
        (runs_of_cites hEarly hCites)
    have hRuns' := runs_of_cites hLate hCites'
    exact hDistinct id contact contact' hRuns hRuns'
  · intro addr node hNode
    have hHere : later.Runs node.state.peerId addr := by
      rw [runs_exec_iff hMore]
      exact ⟨node, hNode, rfl⟩
    rcases hHere with ⟨node', hNode', _⟩
    refine ⟨node', hNode', ?_⟩
    intro id contact hKnown
    have hKnows : later.KnowsAt addr id := by
      apply exec_invariant (fun run => run.KnowsAt addr id)
        ?_ hMore
      · refine ⟨node, hNode, ?_⟩
        exact Option.isSome_of_eq_some hKnown
      · intro before after hBefore hStep
        exact knowsAt_step hStep hBefore
    have hRuns : later.Runs id contact := by
      rw [runs_exec_iff hMore]
      apply runs_of_cites hEarly
      exact Or.inl ⟨addr, node, hNode, hKnown⟩
    have hStill :=
      known_of_knowsAt hLate.true_tables hDistinct hNode'
        hKnows hRuns
    simp only [WorkerState.answer, hStill]

/- The two halves of a handshake. -/
theorem consistent_of_exec_handshake :
    ∃ net later,
      exec hostile pair (handshake.take 3) = some net ∧
        exec hostile net (handshake.drop 3) = some later ∧
        net.Consistent later := by
  have hRuns :
      (exec hostile pair (handshake.take 3)).any fun net =>
        (exec hostile net (handshake.drop 3)).isSome := by
    decide +kernel
  rcases (Option.any_eq_true _ _).mp hRuns with
    ⟨net, hExec, hRest⟩
  rcases Option.isSome_iff_exists.mp hRest with
    ⟨later, hMore⟩
  exact
    ⟨net, later, hExec, hMore,
      consistent_of_exec (fun _ => rfl) (by decide) hExec
        hMore⟩

end Network

end WorldDat
