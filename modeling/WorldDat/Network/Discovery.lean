import WorldDat.Network.Truthful

/-
  Mutual discovery.

  If nothing is lost, a worker that has handled a ping and
  the worker that the ping names get to know each other: as
  long as one of them does not know the other, a message of
  their handshake is pending.

  Main declarations:
    * `Network.Routed` and `Network.Step.pending_forward`
    * `Network.lossless`
    * `Network.Introduced` and `Network.introduced_step`
    * `Network.mutual_discovery`
-/

------------------------------------------------------------
-- Where States And Packets Go
------------------------------------------------------------

namespace WorldDat

open Rust

namespace Network

/- Queued packets are where they were sent to. -/
def Routed (net : Network) : Prop :=
  ∀ addr node, net.nodes.get addr = some node →
    ∀ packet ∈ node.control, packet.destination = addr

/- No step misroutes a packet. -/
theorem routed_step
    {d : Discipline}
    {net next : Network}
    (hRouted : net.Routed)
    (hStep : Step d net next) :
    next.Routed := by
  intro addr node hNode packet hPacket
  cases hStep with
  | inject source destination message old hOld hAdmits =>
      rcases HashMap.get_insert_cases hNode with
        ⟨hAddr, hNew⟩ | ⟨_, hSame⟩
      · rw [hNew] at hPacket
        rcases List.mem_append.mp hPacket with hIn | hNext
        · rw [hAddr]
          exact hRouted destination old hOld packet hIn
        · rw [List.mem_singleton.mp hNext, hAddr]
      · exact hRouted addr node hSame packet hPacket
  | handle worker state first rest hWorker =>
      rcases HashMap.get_insert_cases hNode with
        ⟨hAddr, hNew⟩ | ⟨_, hSame⟩
      · rw [hNew] at hPacket
        rw [hAddr]
        exact
          hRouted worker _ hWorker packet
            (List.mem_cons_of_mem _ hPacket)
      · exact hRouted addr node hSame packet hPacket
  | deliver front moved back old hFlight hFifo hOld =>
      rcases HashMap.get_insert_cases hNode with
        ⟨hAddr, hNew⟩ | ⟨_, hSame⟩
      · rw [hNew] at hPacket
        rw [hAddr]
        rcases List.mem_append.mp hPacket with hIn | hNext
        · exact hRouted _ old hOld packet hIn
        · rw [List.mem_singleton.mp hNext]
      · exact hRouted addr node hSame packet hPacket
  | vanish => exact hRouted addr node hNode packet hPacket
  | lose => exact hRouted addr node hNode packet hPacket
  | duplicate =>
      exact hRouted addr node hNode packet hPacket

/- What a step makes of the state of a worker. -/
theorem Step.state_forward
    {d : Discipline}
    {net next : Network}
    (hStep : Step d net next)
    {addr : SocketAddr}
    {node : Node}
    (hNode : net.nodes.get addr = some node) :
    ∃ new, next.nodes.get addr = some new ∧
      (new.state = node.state ∨
        ∃ packet ∈ node.control,
          new.state =
            node.state.after
              (packet.source, packet.message)) := by
  have hRuns : next.Runs node.state.peerId addr := by
    rw [hStep.runs_iff]
    exact ⟨node, hNode, rfl⟩
  rcases hRuns with ⟨new, hNew, _⟩
  rcases hStep.state_cases hNew with ⟨old, hOld, hCases⟩
  rw [hNode, Option.some.injEq] at hOld
  rw [← hOld] at hCases
  exact ⟨new, hNew, hCases⟩

/-
  If nothing is lost, a packet to a worker stays pending
  until that worker handles it.
-/
theorem Step.pending_forward
    {d : Discipline}
    (hLossless : d.lossy = false)
    {net next : Network}
    (hRouted : net.Routed)
    (hStep : Step d net next)
    {packet : Packet}
    (hPending : packet ∈ net.pending)
    {target : Node}
    (hTarget :
      net.nodes.get packet.destination = some target) :
    packet ∈ next.pending ∨
      ∃ rest,
        target.control = packet :: rest ∧
          next =
            net.worked packet.destination
              (target.state.after
                (packet.source, packet.message))
              packet rest
              (target.state.replies
                (packet.source, packet.message)) := by
  cases hStep with
  | inject source destination message node hNode hAdmits =>
      have hQueued :=
        queued_accept
          (show net.nodes.get
            (net.injection source destination
              message).destination = some node from hNode)
      rcases List.mem_append.mp hPending with
        hFlight | hQueue
      · apply Or.inl
        apply List.mem_append_left
        exact hFlight
      · apply Or.inl
        apply List.mem_append_right
        apply hQueued.mem_iff.mpr
        apply List.mem_cons_of_mem
        exact hQueue
  | handle worker state cause rest hNode =>
      have hQueued :=
        queued_worked hNode
          (state.after (cause.source, cause.message))
          (state.replies (cause.source, cause.message))
      rcases List.mem_append.mp hPending with
        hFlight | hQueue
      · apply Or.inl
        apply List.mem_append_left
        apply List.mem_append_left
        exact hFlight
      · rcases List.mem_cons.mp (hQueued.mem_iff.mp hQueue)
          with hCause | hRest
        · have hWorker : packet.destination = worker := by
            rw [hCause]
            exact
              hRouted worker _ hNode cause
                List.mem_cons_self
          rw [hWorker, hNode, Option.some.injEq] at hTarget
          rw [hWorker, ← hTarget, hCause]
          exact Or.inr ⟨rest, rfl, rfl⟩
        · apply Or.inl
          apply List.mem_append_right
          exact hRest
  | deliver front moved back node hFlight hFifo hNode =>
      have hQueued :=
        queued_accept
          (show { net with flight := front ++ back }.nodes.get
            moved.destination = some node from hNode)
      refine Or.inl ?_
      rcases List.mem_append.mp hPending with hOld | hQueue
      · rw [hFlight] at hOld
        by_cases hMoved : packet = moved
        · rw [hMoved]
          apply List.mem_append_right
          apply hQueued.mem_iff.mpr
          exact List.mem_cons_self
        · have hRest : packet ∈ front ++ back := by
            simpa [hMoved] using hOld
          exact List.mem_append_left _ hRest
      · apply List.mem_append_right
        apply hQueued.mem_iff.mpr
        apply List.mem_cons_of_mem
        exact hQueue
  | vanish front moved back hFlight hGone =>
      refine Or.inl ?_
      rcases List.mem_append.mp hPending with hOld | hQueue
      · rw [hFlight] at hOld
        have hOther : packet ≠ moved := by
          intro hMoved
          rw [hMoved, hGone] at hTarget
          cases hTarget
        refine List.mem_append_left _ ?_
        simpa [hOther] using hOld
      · exact List.mem_append_right _ hQueue
  | lose front moved back hFlight hLossy =>
      rw [hLossless] at hLossy
      cases hLossy
  | duplicate copied hCopied hDuplicating =>
      rcases List.mem_append.mp hPending with hOld | hQueue
      · apply Or.inl
        apply List.mem_append_left
        apply List.mem_append_left
        exact hOld
      · apply Or.inl
        apply List.mem_append_right
        exact hQueue

end Network

end WorldDat

------------------------------------------------------------
-- Introductions
------------------------------------------------------------

namespace WorldDat

open Rust

namespace Network

/-
  The discipline of a network without loss: everything but
  pongs may come from outside, and messages may be reordered
  and duplicated.
-/
def lossless : Discipline where
  admits := fun msg =>
    match msg with
    | .ping _ => true
    | .findPeer _ => true
    | .pong _ => false
    | .findPeerResponsePeerFound _ _ => true
    | .findPeerResponsePeerNotFound _ _ => true
  fifo := false
  lossy := false
  duplicating := true

/- The worker at an address knows a peer. -/
def KnowsAt
    (net : Network)
    (addr : SocketAddr)
    (peerId : PeerId) : Prop :=
  ∃ node, net.nodes.get addr = some node ∧
    node.state.Knows peerId

/- A message from one worker to another is pending. -/
def OnTheWay
    (net : Network)
    (source destination : SocketAddr)
    (message : Message) : Prop :=
  ∃ packet ∈ net.pending,
    packet.Between source destination ∧
      packet.message = message

/-
  The worker at `a` has handled a ping of the worker at `b`:
  whoever does not know the other is about to be told.
-/
structure Introduced
    (net : Network)
    (a b : SocketAddr)
    (idA idB : PeerId) : Prop where
  forth : net.KnowsAt b idA ∨ net.OnTheWay a b (.pong idA)
  back :
    net.KnowsAt a idB ∨
      net.OnTheWay a b (.ping idA) ∨
        net.OnTheWay b a (.pong idB)

/- Workers do not forget. -/
theorem knowsAt_step
    {d : Discipline}
    {net next : Network}
    (hStep : Step d net next)
    {addr : SocketAddr}
    {peerId : PeerId}
    (hKnows : net.KnowsAt addr peerId) :
    next.KnowsAt addr peerId := by
  rcases hKnows with ⟨node, hNode, hKnown⟩
  rcases hStep.state_forward hNode with
    ⟨new, hNew, hSame | ⟨packet, _, hAfter⟩⟩
  · refine ⟨new, hNew, ?_⟩
    rw [hSame]
    exact hKnown
  · refine ⟨new, hNew, ?_⟩
    rw [hAfter]
    apply WorkerState.knows_after
    apply Or.inl
    exact hKnown

/- A worker that handles a pong knows its sender. -/
theorem pong_step
    {net next : Network}
    (hRouted : net.Routed)
    (hStep : Step lossless net next)
    {source destination : SocketAddr}
    {peerId : PeerId}
    {node : Node}
    (hNode : net.nodes.get destination = some node)
    (hPong :
      net.OnTheWay source destination (.pong peerId)) :
    next.KnowsAt destination peerId ∨
      next.OnTheWay source destination (.pong peerId) := by
  rcases hPong with ⟨packet, hPending, hBetween, hMessage⟩
  rw [← hBetween.2] at hNode ⊢
  rcases hStep.pending_forward rfl hRouted hPending hNode
    with hStill | ⟨rest, hControl, hNext⟩
  · apply Or.inr
    exact ⟨packet, hStill, ⟨hBetween.1, rfl⟩, hMessage⟩
  · refine Or.inl ?_
    rw [hNext]
    exact
      ⟨_, HashMap.get_insert_self _ _ _,
        WorkerState.knows_after (Or.inr hMessage)⟩

/- What a worker sends is on its way. -/
theorem onTheWay_worked
    {net : Network}
    (worker : SocketAddr)
    (state : WorkerState)
    (packet : Packet)
    (rest : List Packet)
    {outgoing : List Outgoing}
    {destination : SocketAddr}
    {message : Message}
    (hOut : (destination, message) ∈ outgoing) :
    (net.worked worker state packet rest outgoing).OnTheWay
      worker destination message := by
  refine
    ⟨packet.reply worker (destination, message), ?_,
      ⟨rfl, rfl⟩, rfl⟩
  apply List.mem_append_left
  apply List.mem_append_right
  apply List.mem_map_of_mem
  exact hOut

/- A worker that handles a ping sends a pong. -/
theorem ping_step
    {net next : Network}
    (hRouted : net.Routed)
    (hStep : Step lossless net next)
    {source destination : SocketAddr}
    {peerId : PeerId}
    {node : Node}
    (hNode : net.nodes.get destination = some node)
    (hPing :
      net.OnTheWay source destination (.ping peerId)) :
    next.OnTheWay source destination (.ping peerId) ∨
      next.OnTheWay destination source
        (.pong node.state.peerId) := by
  rcases hPing with ⟨packet, hPending, hBetween, hMessage⟩
  rw [← hBetween.2] at hNode
  rcases hStep.pending_forward rfl hRouted hPending hNode
    with hStill | ⟨rest, hControl, hNext⟩
  · exact Or.inl ⟨packet, hStill, hBetween, hMessage⟩
  · refine Or.inr ?_
    rw [hNext, ← hBetween.1, ← hBetween.2]
    refine onTheWay_worked _ _ _ _ ?_
    rw [hMessage]
    exact List.mem_cons_self

/- An introduction goes on until both know each other. -/
theorem introduced_step
    {net next : Network}
    (hRouted : net.Routed)
    (hStep : Step lossless net next)
    {a b : SocketAddr}
    {idA idB : PeerId}
    (hA : net.Runs idA a)
    (hB : net.Runs idB b)
    (hIntroduced : net.Introduced a b idA idB) :
    next.Introduced a b idA idB := by
  rcases hA with ⟨nodeA, hNodeA, hIdA⟩
  rcases hB with ⟨nodeB, hNodeB, hIdB⟩
  constructor
  · rcases hIntroduced.forth with hKnows | hPong
    · exact Or.inl (knowsAt_step hStep hKnows)
    · exact pong_step hRouted hStep hNodeB hPong
  · rcases hIntroduced.back with hKnows | hPing | hPong
    · exact Or.inl (knowsAt_step hStep hKnows)
    · rw [← hIdB]
      apply Or.inr
      exact ping_step hRouted hStep hNodeB hPing
    · rcases pong_step hRouted hStep hNodeA hPong with
        hKnows | hStill
      · exact Or.inl hKnows
      · apply Or.inr
        apply Or.inr
        exact hStill

/- Handling a ping is an introduction. -/
theorem introduced_worked
    (net : Network)
    (worker : SocketAddr)
    (state : WorkerState)
    (packet : Packet)
    (rest : List Packet)
    {peerId : PeerId}
    (hPing : packet.message = .ping peerId) :
    (net.worked worker
        (state.after (packet.source, packet.message)) packet
        rest
        (state.replies
          (packet.source, packet.message))).Introduced
      worker packet.source state.peerId peerId := by
  rw [hPing]
  constructor
  · refine Or.inr (onTheWay_worked _ _ _ _ ?_)
    exact List.mem_cons_self
  · cases hKnown : state.known peerId with
    | some addr =>
        refine Or.inl ⟨_, HashMap.get_insert_self _ _ _, ?_⟩
        have hKnows : state.Knows peerId := by
          rw [WorkerState.Knows, hKnown]
          rfl
        exact hKnows
    | none =>
        refine
          Or.inr (Or.inl (onTheWay_worked _ _ _ _ ?_))
        simp [WorkerState.replies, hKnown]

end Network

end WorldDat

------------------------------------------------------------
-- Mutual Discovery
------------------------------------------------------------

namespace WorldDat

open Rust

namespace Network

/- Whoever pings a worker is introduced to it. -/
structure Acquainted (net : Network) : Prop where
  truthful : net.TruthfulTables
  routed : net.Routed
  introduced : ∀ handled ∈ net.log, ∀ idA idB,
    net.Runs idA handled.worker →
      net.Runs idB handled.packet.source →
        handled.packet.message = .ping idB →
          net.Introduced handled.worker
            handled.packet.source idA idB

/- No step leaves out an introduction. -/
theorem acquainted_step
    {net next : Network}
    (hAcquainted : net.Acquainted)
    (hStep : Step lossless net next) :
    next.Acquainted where
  truthful :=
    hAcquainted.truthful.step (fun _ => rfl) hStep
  routed := routed_step hAcquainted.routed hStep
  introduced := by
    intro handled hHandled idA idB hA hB hPing
    have hA' := (hStep.runs_iff _ _).mp hA
    have hB' := (hStep.runs_iff _ _).mp hB
    have hOld : handled ∈ net.log →
        next.Introduced handled.worker
          handled.packet.source idA idB := by
      intro hLogged
      exact
        introduced_step hAcquainted.routed hStep hA' hB'
          (hAcquainted.introduced handled hLogged idA idB
            hA' hB' hPing)
    cases hStep with
    | handle worker state packet rest hNode =>
        rcases List.mem_append.mp hHandled with
          hLogged | hNew
        · exact hOld hLogged
        · rw [List.mem_singleton.mp hNew] at hA' hPing ⊢
          rcases hA' with ⟨node, hSame, hId⟩
          rw [hNode, Option.some.injEq] at hSame
          rw [← hId, ← hSame]
          exact
            introduced_worked net worker state packet rest
              hPing
    | inject => exact hOld hHandled
    | deliver => exact hOld hHandled
    | vanish => exact hOld hHandled
    | lose => exact hOld hHandled
    | duplicate => exact hOld hHandled

/- Freshly started workers have nothing to catch up on. -/
theorem acquainted_start
    (hasher : RandomState SocketAddr Node)
    (peers : List Peer) :
    (start hasher peers).Acquainted where
  truthful := truthfulTables_start hasher peers
  routed := by
    intro addr node hNode packet hPacket
    rcases exists_peer_of_get_start hNode with
      ⟨peer, _, _, hFresh⟩
    rw [hFresh] at hPacket
    cases hPacket
  introduced := by
    intro handled hHandled
    cases hHandled

/- No id runs at two addresses. -/
def Distinct (net : Network) : Prop :=
  ∀ peerId a b,
    net.Runs peerId a → net.Runs peerId b → a = b

theorem distinct_step
    {d : Discipline}
    {net next : Network}
    (hDistinct : net.Distinct)
    (hStep : Step d net next) :
    next.Distinct := by
  intro peerId a b hA hB
  exact
    hDistinct peerId a b ((hStep.runs_iff _ _).mp hA)
      ((hStep.runs_iff _ _).mp hB)

/- Workers with distinct ids run at distinct addresses. -/
theorem distinct_start
    (hasher : RandomState SocketAddr Node)
    {peers : List Peer}
    (hIds : (peers.map Peer.peerId).Nodup) :
    (start hasher peers).Distinct := by
  intro peerId a b hRunsA hRunsB
  rcases hRunsA with ⟨nodeA, hA, hIdA⟩
  rcases hRunsB with ⟨nodeB, hB, hIdB⟩
  rcases exists_peer_of_get_start hA with
    ⟨peerA, hPeerA, hAddrA, hFreshA⟩
  rcases exists_peer_of_get_start hB with
    ⟨peerB, hPeerB, hAddrB, hFreshB⟩
  have hId : peerA.peerId = peerB.peerId := by
    rw [hFreshA] at hIdA
    rw [hFreshB, ← hIdA] at hIdB
    exact hIdB.symm
  have hPeer : peerA = peerB :=
    List.inj_on_of_nodup_map hIds hPeerA hPeerB hId
  rw [← hAddrA, ← hAddrB, hPeer]

/- A true table that knows a peer knows where it is. -/
theorem contains_of_knowsAt
    {net : Network}
    (hTrue : net.TruthfulTables)
    (hDistinct : net.Distinct)
    {a b : SocketAddr}
    {nodeA nodeB : Node}
    (hA : net.nodes.get a = some nodeA)
    (hB : net.nodes.get b = some nodeB)
    (hKnows : net.KnowsAt a nodeB.state.peerId) :
    nodeA.state.peerMap.contains nodeA.state.peerId
        nodeB.state.peerId =
      .ok (some (nodeB.state.peerId, b)) := by
  rcases hKnows with ⟨node, hNode, hKnown⟩
  rw [hA, Option.some.injEq] at hNode
  rw [← hNode] at hKnown
  rcases Option.isSome_iff_exists.mp hKnown with
    ⟨addr, hAddr⟩
  have hEntry := WorkerState.mem_entries_of_known hAddr
  have hRuns :=
    hTrue.tables a nodeA hA nodeB.state.peerId addr hEntry
  have hSame : addr = b :=
    hDistinct nodeB.state.peerId addr b hRuns
      ⟨nodeB, hB, rfl⟩
  have hFind :
      nodeA.state.peerMap.find nodeA.state.peerId
          nodeB.state.peerId =
        some addr := hAddr
  rw [PeerMap.contains_eq_ok, hFind, hSame]
  rfl

/-
  Once nothing is pending in a network without loss, a worker
  that has handled a ping of another worker and that other
  worker know each other's addresses.
-/
theorem mutual_discovery
    (hasher : RandomState SocketAddr Node)
    {peers : List Peer}
    (hIds : (peers.map Peer.peerId).Nodup)
    {choices : List Choice}
    {net : Network}
    (hExec :
      exec lossless (start hasher peers) choices = some net)
    (hQuiet : net.pending = [])
    {a b : SocketAddr}
    {nodeA nodeB : Node}
    (hA : net.nodes.get a = some nodeA)
    (hB : net.nodes.get b = some nodeB)
    {handled : Handled}
    (hHandled : handled ∈ net.log)
    (hWorker : handled.worker = a)
    (hSource : handled.packet.source = b)
    (hPing :
      handled.packet.message = .ping nodeB.state.peerId) :
    nodeA.state.peerMap.contains nodeA.state.peerId
        nodeB.state.peerId =
      .ok (some (nodeB.state.peerId, b)) ∧
    nodeB.state.peerMap.contains nodeB.state.peerId
        nodeA.state.peerId =
      .ok (some (nodeA.state.peerId, a)) := by
  have hInv : net.Acquainted ∧ net.Distinct := by
    apply exec_invariant
      (fun net => net.Acquainted ∧ net.Distinct) ?_ hExec
    · constructor
      · exact acquainted_start hasher peers
      · exact distinct_start hasher hIds
    · intro net next hBefore hStep
      constructor
      · exact acquainted_step hBefore.1 hStep
      · exact distinct_step hBefore.2 hStep
  rcases hInv with ⟨hAcquainted, hDistinct⟩
  have hNothing : ∀ source destination message,
      ¬ net.OnTheWay source destination message := by
    intro source destination message hWay
    rcases hWay with ⟨packet, hPending, _⟩
    rw [hQuiet] at hPending
    cases hPending
  have hIntroduced :=
    hAcquainted.introduced handled hHandled
      nodeA.state.peerId nodeB.state.peerId
      ⟨nodeA, hWorker ▸ hA, rfl⟩
      ⟨nodeB, hSource ▸ hB, rfl⟩ hPing
  rw [hWorker, hSource] at hIntroduced
  constructor
  · rcases hIntroduced.back with hKnows | hPing' | hPong
    · exact
        contains_of_knowsAt hAcquainted.truthful hDistinct
          hA hB hKnows
    · exact absurd hPing' (hNothing _ _ _)
    · exact absurd hPong (hNothing _ _ _)
  · rcases hIntroduced.forth with hKnows | hPong
    · exact
        contains_of_knowsAt hAcquainted.truthful hDistinct
          hB hA hKnows
    · exact absurd hPong (hNothing _ _ _)

theorem mutual_discovery_handshake :
    ∃ (net : Network) (nodeA nodeB : Node),
      exec lossless pair handshake = some net ∧
        nodeA.state.peerMap.contains nodeA.state.peerId
            nodeB.state.peerId =
          .ok
            (some
              (nodeB.state.peerId, secondPeer.address)) ∧
        nodeB.state.peerMap.contains nodeB.state.peerId
            nodeA.state.peerId =
          .ok
            (some
              (nodeA.state.peerId, firstPeer.address)) := by
  let idAt := fun (net : Network) (addr : SocketAddr) =>
    (net.nodes.get addr).map fun node => node.state.peerId
  let ping := (firstPeer.address, secondPeer.address,
    Message.ping secondPeer.peerId)
  let events := fun (net : Network) =>
    net.log.map fun handled =>
      (handled.worker, handled.packet.source,
        handled.packet.message)
  have hRun :
      (exec lossless pair handshake).map
          (fun net =>
            (net.pending, decide (ping ∈ events net),
              idAt net firstPeer.address,
              idAt net secondPeer.address)) =
        some
          ([], true, some firstPeer.peerId,
            some secondPeer.peerId) := by
    decide +kernel
  rcases Option.map_eq_some_iff.mp hRun with
    ⟨net, hExec, hNet⟩
  simp only [Prod.mk.injEq, idAt, decide_eq_true_eq,
    Option.map_eq_some_iff] at hNet
  rcases hNet with
    ⟨hQuiet, hPinged, ⟨nodeA, hA, _⟩, ⟨nodeB, hB, hId⟩⟩
  rcases List.mem_map.mp hPinged with
    ⟨handled, hHandled, hSame⟩
  simp only [ping, Prod.mk.injEq] at hSame
  rw [← hId] at hSame
  exact
    ⟨net, nodeA, nodeB, hExec,
      mutual_discovery _ (by decide) hExec hQuiet hA hB
        hHandled hSame.1 hSame.2.1 hSame.2.2⟩

end Network

end WorldDat
