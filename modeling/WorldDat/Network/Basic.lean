import WorldDat.Listing.Positions
import WorldDat.Machine.Execution
import WorldDat.Worker.Basic

/-
  Networks of workers.

  Every worker has a control queue.  What a worker sends is
  in flight, tagged with the sender's address, until the
  network delivers it to the control queue of its
  destination.  A discipline says how the network may treat
  messages in flight and what may be put into control queues
  from outside.

  Packets carry the number of the injected message that they
  go back to, and the network keeps a log of what has been
  handled.  No step depends on either.

  Main declarations:
    * `Network`, `Discipline` and `Network.step`
    * `Network.Step` and `Network.step_sound`
    * `Network.start`, `Network.pair` and `Network.handshake`
-/

------------------------------------------------------------
-- Networks
------------------------------------------------------------

namespace WorldDat

open Rust

/- A message on its way to a worker. -/
structure Packet where
  source : SocketAddr
  destination : SocketAddr
  message : Message
  origin : Nat
  injected : Bool
deriving DecidableEq

/- A worker and its control queue, oldest message first. -/
structure Node where
  state : WorkerState
  control : List Packet

/- One handled message and what the worker sent for it. -/
structure Handled where
  worker : SocketAddr
  packet : Packet
  sent : List Packet

structure Network where
  nodes : HashMap SocketAddr Node
  flight : List Packet
  log : List Handled
  injections : Nat

/- What a network may do, and what it admits from outside. -/
structure Discipline where
  admits : Message → Bool
  fifo : Bool
  lossy : Bool
  duplicating : Bool

/-
  The choices that a run makes.  Messages in flight are
  chosen by their position, in the order of sending.
-/
inductive Choice where
| inject
    (source destination : SocketAddr)
    (message : Message)
| handle (worker : SocketAddr)
| deliver (position : Nat)
| lose (position : Nat)
| duplicate (position : Nat)
deriving DecidableEq

namespace Packet

/- The packets from one address to another. -/
def Between
    (source destination : SocketAddr)
    (packet : Packet) : Prop :=
  packet.source = source ∧ packet.destination = destination

instance
    (source destination : SocketAddr)
    (packet : Packet) :
    Decidable (packet.Between source destination) := by
  unfold Between
  infer_instance

/- A reply of a worker, on its way because of a packet. -/
def reply
    (cause : Packet)
    (worker : SocketAddr)
    (out : Outgoing) : Packet where
  source := worker
  destination := out.1
  message := out.2
  origin := cause.origin
  injected := false

end Packet

namespace Network

/- Put a packet into the control queue of a worker. -/
def accept
    (net : Network)
    (node : Node)
    (packet : Packet) : Network :=
  { net with
    nodes := net.nodes.insert packet.destination
      { node with control := node.control ++ [packet] } }

/- The packet that an injected message becomes. -/
def injection
    (net : Network)
    (source destination : SocketAddr)
    (message : Message) : Packet where
  source := source
  destination := destination
  message := message
  origin := net.injections
  injected := true

/- A worker has handled the first packet of its queue. -/
def worked
    (net : Network)
    (worker : SocketAddr)
    (state : WorkerState)
    (packet : Packet)
    (rest : List Packet)
    (outgoing : List Outgoing) : Network :=
  let sent := outgoing.map (packet.reply worker)
  { net with
    nodes := net.nodes.insert worker
      { state, control := rest }
    flight := net.flight ++ sent
    log := net.log ++ [{ worker, packet, sent }] }

/- Deliver a packet; it vanishes if nobody is there. -/
def deliver
    (net : Network)
    (packet : Packet) : Network :=
  match net.nodes.get packet.destination with
  | some node => net.accept node packet
  | none => net

/- The step that a choice leads to, if it is enabled. -/
def step
    (d : Discipline)
    (net : Network) :
    Choice → Option Network
| .inject source destination message =>
    match net.nodes.get destination with
    | none => none
    | some node =>
        if d.admits message then
          some
            { net.accept node
                (net.injection source destination message)
              with injections := net.injections + 1 }
        else
          none
| .handle worker =>
    match net.nodes.get worker with
    | none => none
    | some node =>
        match node.control with
        | [] => none
        | packet :: rest =>
            match
              node.state.handle packet.source
                packet.message with
            | .error _ => none
            | .ok (state, outgoing) =>
                some
                  (net.worked worker state packet rest
                    outgoing)
| .deliver position =>
    match net.flight[position]? with
    | none => none
    | some packet =>
        if d.fifo ∧
            ∃ earlier ∈ net.flight.take position,
              earlier.Between packet.source
                packet.destination then
          none
        else
          some
            ({ net with
                flight :=
                  net.flight.eraseIdx position }.deliver
              packet)
| .lose position =>
    if d.lossy ∧ position < net.flight.length then
      some
        { net with flight := net.flight.eraseIdx position }
    else
      none
| .duplicate position =>
    match net.flight[position]? with
    | none => none
    | some packet =>
        if d.duplicating then
          some { net with flight := net.flight ++ [packet] }
        else
          none

/- Run a network through a list of choices. -/
def exec
    (d : Discipline)
    (net : Network)
    (choices : List Choice) : Option Network :=
  Machine.exec (step d) net choices

end Network

end WorldDat

------------------------------------------------------------
-- What A Step Does
------------------------------------------------------------

namespace WorldDat

open Rust

namespace Network

/- The six things that a step can do. -/
inductive Step
    (d : Discipline)
    (net : Network) : Network → Prop where
| inject
    (source destination : SocketAddr)
    (message : Message)
    (node : Node)
    (hNode : net.nodes.get destination = some node)
    (hAdmits : d.admits message = true) :
    Step d net
      { net.accept node
          (net.injection source destination message)
        with injections := net.injections + 1 }
| handle
    (worker : SocketAddr)
    (state : WorkerState)
    (packet : Packet)
    (rest : List Packet)
    (hNode :
      net.nodes.get worker =
        some { state, control := packet :: rest }) :
    Step d net
      (net.worked worker
        (state.after (packet.source, packet.message)) packet
        rest (state.replies (packet.source, packet.message)))
| deliver
    (front : List Packet)
    (packet : Packet)
    (back : List Packet)
    (node : Node)
    (hFlight : net.flight = front ++ packet :: back)
    (hFifo : d.fifo = true →
      ∀ earlier ∈ front,
        ¬ earlier.Between packet.source packet.destination)
    (hNode :
      net.nodes.get packet.destination = some node) :
    Step d net
      ({ net with flight := front ++ back }.accept node
        packet)
| vanish
    (front : List Packet)
    (packet : Packet)
    (back : List Packet)
    (hFlight : net.flight = front ++ packet :: back)
    (hNode : net.nodes.get packet.destination = none) :
    Step d net { net with flight := front ++ back }
| lose
    (front : List Packet)
    (packet : Packet)
    (back : List Packet)
    (hFlight : net.flight = front ++ packet :: back)
    (hLossy : d.lossy = true) :
    Step d net { net with flight := front ++ back }
| duplicate
    (packet : Packet)
    (hPacket : packet ∈ net.flight)
    (hDuplicating : d.duplicating = true) :
    Step d net { net with flight := net.flight ++ [packet] }

/- A step of the network does one of the six things. -/
theorem step_sound
    {d : Discipline}
    {net next : Network}
    {choice : Choice}
    (hStep : step d net choice = some next) :
    Step d net next := by
  cases choice with
  | inject source destination message =>
      simp only [step] at hStep
      cases hNode : net.nodes.get destination with
      | none => simp [hNode] at hStep
      | some node =>
          by_cases hAdmits : d.admits message = true
          · simp only [hNode, hAdmits, if_true,
              Option.some.injEq] at hStep
            rw [← hStep]
            exact
              .inject source destination message node hNode
                hAdmits
          · simp [hNode, hAdmits] at hStep
  | handle worker =>
      simp only [step] at hStep
      cases hNode : net.nodes.get worker with
      | none => simp [hNode] at hStep
      | some node =>
          rcases node with ⟨state, control⟩
          cases control with
          | nil => simp [hNode] at hStep
          | cons packet rest =>
              simp only [hNode, WorkerState.handle_eq_ok,
                Option.some.injEq] at hStep
              rw [← hStep]
              exact .handle worker state packet rest hNode
  | deliver position =>
      simp only [step] at hStep
      cases hPacket : net.flight[position]? with
      | none => simp [hPacket] at hStep
      | some packet =>
          rcases Listing.exists_split_of_getElem? hPacket with
            ⟨front, back, hSplit, hFront, _, hErase, _⟩
          simp only [hPacket] at hStep
          split at hStep
          · cases hStep
          · rename_i hFirst
            have hFifo : d.fifo = true →
                ∀ earlier ∈ front,
                  ¬ earlier.Between packet.source
                    packet.destination := by
              intro hFifo earlier hEarlier hBetween
              rw [hFront] at hEarlier
              exact
                hFirst ⟨hFifo, earlier, hEarlier, hBetween⟩
            rw [Option.some.injEq, hErase] at hStep
            rw [← hStep]
            cases hNode : net.nodes.get packet.destination with
            | none =>
                simpa [Network.deliver, hNode] using
                  Step.vanish (d := d) _ packet _ hSplit hNode
            | some node =>
                simpa [Network.deliver, hNode] using
                  Step.deliver _ packet _ node hSplit hFifo
                    hNode
  | lose position =>
      simp only [step] at hStep
      by_cases hLose :
          d.lossy = true ∧ position < net.flight.length
      · rcases Listing.exists_split_of_getElem?
            (List.getElem?_eq_getElem hLose.2) with
          ⟨front, back, hSplit, _, _, hErase, _⟩
        rw [if_pos hLose, Option.some.injEq, hErase] at hStep
        rw [← hStep]
        exact .lose _ _ _ hSplit hLose.1
      · simp [hLose] at hStep
  | duplicate position =>
      simp only [step] at hStep
      cases hPacket : net.flight[position]? with
      | none => simp [hPacket] at hStep
      | some packet =>
          by_cases hDuplicating : d.duplicating = true
          · simp only [hPacket, hDuplicating, if_true,
              Option.some.injEq] at hStep
            rw [← hStep]
            exact
              .duplicate packet
                (List.mem_of_getElem? hPacket) hDuplicating
          · simp [hPacket, hDuplicating] at hStep

/- What every step preserves holds after every run. -/
theorem exec_invariant
    {d : Discipline}
    (Inv : Network → Prop)
    (hStep : ∀ net next,
      Inv net → Step d net next → Inv next)
    {net final : Network}
    {choices : List Choice}
    (hExec : exec d net choices = some final)
    (hInit : Inv net) :
    Inv final :=
  Machine.exec_invariant
    (fun net _ next hInv hNext =>
      hStep net next hInv (step_sound hNext))
    hExec hInit

end Network

end WorldDat

------------------------------------------------------------
-- Pending Packets
------------------------------------------------------------

namespace WorldDat

open Rust

namespace Network

/- The packets in the control queues. -/
def queued (net : Network) : List Packet :=
  net.nodes.entries.flatMap fun entry => entry.2.control

/- The packets in flight or in a control queue. -/
def pending (net : Network) : List Packet :=
  net.flight ++ net.queued

/- The workers that run in a network, and who they are. -/
def Runs
    (net : Network)
    (peerId : PeerId)
    (addr : SocketAddr) : Prop :=
  ∃ node, net.nodes.get addr = some node ∧
    node.state.peerId = peerId

/- A queued packet is in the control queue of some worker. -/
theorem mem_queued_iff
    (net : Network)
    (packet : Packet) :
    packet ∈ net.queued ↔
      ∃ addr node, net.nodes.get addr = some node ∧
        packet ∈ node.control := by
  unfold queued
  rw [List.mem_flatMap]
  constructor
  · rintro ⟨⟨addr, node⟩, hEntry, hPacket⟩
    exact
      ⟨addr, node,
        (net.nodes.mem_entries_iff addr node).mp hEntry,
        hPacket⟩
  · rintro ⟨addr, node, hNode, hPacket⟩
    exact
      ⟨(addr, node),
        (net.nodes.mem_entries_iff addr node).mpr hNode,
        hPacket⟩

/- Accepting a packet queues it. -/
theorem queued_accept
    {net : Network}
    {node : Node}
    {packet : Packet}
    (hNode :
      net.nodes.get packet.destination = some node) :
    (net.accept node packet).queued.Perm
      (packet :: net.queued) := by
  rcases HashMap.exists_split_of_get hNode with
    ⟨front, back, hEntries, hInsert⟩
  simp only [queued, accept, hInsert, hEntries,
    List.flatMap_append, List.flatMap_cons,
    List.append_assoc, List.singleton_append]
  rw [← List.append_assoc, ← List.append_assoc]
  exact List.perm_middle

/- Handling a packet takes it out of its queue. -/
theorem queued_worked
    {net : Network}
    {worker : SocketAddr}
    {state : WorkerState}
    {packet : Packet}
    {rest : List Packet}
    (hNode :
      net.nodes.get worker =
        some { state, control := packet :: rest })
    (after : WorkerState)
    (outgoing : List Outgoing) :
    net.queued.Perm
      (packet ::
        (net.worked worker after packet rest
          outgoing).queued) := by
  rcases HashMap.exists_split_of_get hNode with
    ⟨front, back, hEntries, hInsert⟩
  simp only [queued, worked, hInsert, hEntries,
    List.flatMap_append, List.flatMap_cons,
    List.cons_append]
  exact List.perm_middle

/- A step leaves every worker in place and who it is. -/
theorem Step.runs_iff
    {d : Discipline}
    {net next : Network}
    (hStep : Step d net next)
    (peerId : PeerId)
    (addr : SocketAddr) :
    next.Runs peerId addr ↔ net.Runs peerId addr := by
  have hReplace :
      ∀ (place : SocketAddr) (old new : Node),
        net.nodes.get place = some old →
        new.state.peerId = old.state.peerId →
        next.nodes = net.nodes.insert place new →
        (next.Runs peerId addr ↔
          net.Runs peerId addr) := by
    intro place old new hOld hId hNodes
    unfold Runs
    rw [hNodes]
    by_cases hPlace : addr = place
    · subst hPlace
      simp [hOld, hId]
    · simp [HashMap.get_insert, hPlace]
  cases hStep with
  | inject source destination message node hNode hAdmits =>
      exact
        hReplace destination node
          { node with
            control := node.control ++
              [net.injection source destination message] }
          hNode rfl rfl
  | handle worker state packet rest hNode =>
      exact
        hReplace worker _ _ hNode
          (WorkerState.peerId_after state _) rfl
  | deliver front packet back node hFlight hFifo hNode =>
      exact
        hReplace packet.destination node
          { node with control := node.control ++ [packet] }
          hNode rfl rfl
  | vanish => exact Iff.rfl
  | lose => exact Iff.rfl
  | duplicate => exact Iff.rfl

end Network

end WorldDat

------------------------------------------------------------
-- Where States And Packets Come From
------------------------------------------------------------

namespace WorldDat

open Rust

namespace Network

/-
  After a step a worker is in its old state, or in the state
  that a packet of its control queue led to.
-/
theorem Step.state_cases
    {d : Discipline}
    {net next : Network}
    (hStep : Step d net next)
    {addr : SocketAddr}
    {node : Node}
    (hNode : next.nodes.get addr = some node) :
    ∃ old, net.nodes.get addr = some old ∧
      (node.state = old.state ∨
        ∃ packet ∈ old.control,
          node.state =
            old.state.after
              (packet.source, packet.message)) := by
  cases hStep with
  | inject source destination message target hTarget
      hAdmits =>
      rcases HashMap.get_insert_cases hNode with
        ⟨hAddr, hNew⟩ | ⟨_, hOld⟩
      · subst hAddr
        exact ⟨target, hTarget, Or.inl (by rw [hNew])⟩
      · exact ⟨node, hOld, Or.inl rfl⟩
  | handle worker state packet rest hWorker =>
      rcases HashMap.get_insert_cases hNode with
        ⟨hAddr, hNew⟩ | ⟨_, hOld⟩
      · subst hAddr
        refine ⟨_, hWorker, Or.inr ⟨packet, ?_, ?_⟩⟩
        · exact List.mem_cons_self
        · rw [hNew]
      · exact ⟨node, hOld, Or.inl rfl⟩
  | deliver front packet back target hFlight hFifo hTarget =>
      rcases HashMap.get_insert_cases hNode with
        ⟨hAddr, hNew⟩ | ⟨_, hOld⟩
      · subst hAddr
        exact ⟨target, hTarget, Or.inl (by rw [hNew])⟩
      · exact ⟨node, hOld, Or.inl rfl⟩
  | vanish => exact ⟨node, hNode, Or.inl rfl⟩
  | lose => exact ⟨node, hNode, Or.inl rfl⟩
  | duplicate => exact ⟨node, hNode, Or.inl rfl⟩

/- Taking a packet out of flight brings no other. -/
theorem mem_pending_of_removed
    {net : Network}
    {front back : List Packet}
    {moved packet : Packet}
    (hFlight : net.flight = front ++ moved :: back)
    (hPacket :
      packet ∈ { net with flight := front ++ back }.pending) :
    packet ∈ net.pending := by
  rcases List.mem_append.mp hPacket with hRest | hQueued
  · apply List.mem_append_left
    rw [hFlight]
    exact Listing.mem_append_cons hRest
  · apply List.mem_append_right
    exact hQueued

/-
  A packet that is pending after a step was pending before,
  or has just been injected, or replies to a packet of the
  worker that made the step.
-/
theorem Step.pending_cases
    {d : Discipline}
    {net next : Network}
    (hStep : Step d net next)
    {packet : Packet}
    (hPacket : packet ∈ next.pending) :
    packet ∈ net.pending ∨
      d.admits packet.message = true ∨
        ∃ worker node cause out,
          net.nodes.get worker = some node ∧
            cause ∈ node.control ∧
            out ∈ node.state.replies
              (cause.source, cause.message) ∧
            packet = cause.reply worker out := by
  cases hStep with
  | inject source destination message node hNode hAdmits =>
      have hQueued :=
        queued_accept
          (show net.nodes.get
            (net.injection source destination
              message).destination = some node from hNode)
      rcases List.mem_append.mp hPacket with
        hFlight | hNext
      · apply Or.inl
        apply List.mem_append_left
        exact hFlight
      · rcases List.mem_cons.mp (hQueued.mem_iff.mp hNext)
          with hNew | hOld
        · rw [hNew]
          apply Or.inr
          apply Or.inl
          exact hAdmits
        · apply Or.inl
          apply List.mem_append_right
          exact hOld
  | handle worker state cause rest hNode =>
      have hQueued :=
        queued_worked hNode
          (state.after (cause.source, cause.message))
          (state.replies (cause.source, cause.message))
      rcases List.mem_append.mp hPacket with
        hFlight | hNext
      · rcases List.mem_append.mp hFlight with hOld | hSent
        · apply Or.inl
          apply List.mem_append_left
          exact hOld
        · rcases List.mem_map.mp hSent with
            ⟨out, hOut, hReply⟩
          exact
            Or.inr
              (Or.inr
                ⟨worker, _, cause, out, hNode,
                  List.mem_cons_self, hOut, hReply.symm⟩)
      · apply Or.inl
        apply List.mem_append_right
        apply hQueued.mem_iff.mpr
        apply List.mem_cons_of_mem
        exact hNext
  | deliver front moved back node hFlight hFifo hNode =>
      have hQueued :=
        queued_accept
          (show { net with flight := front ++ back }.nodes.get
            moved.destination = some node from hNode)
      rcases List.mem_append.mp hPacket with hRest | hNext
      · refine Or.inl (List.mem_append_left _ ?_)
        rw [hFlight]
        exact Listing.mem_append_cons hRest
      · rcases List.mem_cons.mp (hQueued.mem_iff.mp hNext)
          with hNew | hOld
        · refine Or.inl (List.mem_append_left _ ?_)
          rw [hNew, hFlight]
          simp
        · apply Or.inl
          apply List.mem_append_right
          exact hOld
  | vanish front moved back hFlight hNode =>
      exact Or.inl (mem_pending_of_removed hFlight hPacket)
  | lose front moved back hFlight hLossy =>
      exact Or.inl (mem_pending_of_removed hFlight hPacket)
  | duplicate copied hCopied hDuplicating =>
      rcases List.mem_append.mp hPacket with
        hFlight | hNext
      · rcases List.mem_append.mp hFlight with hOld | hNew
        · apply Or.inl
          apply List.mem_append_left
          exact hOld
        · rw [List.mem_singleton.mp hNew]
          apply Or.inl
          apply List.mem_append_left
          exact hCopied
      · apply Or.inl
        apply List.mem_append_right
        exact hNext

end Network

end WorldDat

------------------------------------------------------------
-- Networks Of Fresh Workers
------------------------------------------------------------

namespace WorldDat

open Rust

/- A worker to be started, with the hasher of its table. -/
structure Peer where
  address : SocketAddr
  peerId : PeerId
  hasher : PeerHasher

namespace Network

/- A worker that has just been started. -/
def freshNode (peer : Peer) : Node where
  state :=
    WorkerState.fresh peer.hasher peer.peerId peer.address
  control := []

/- A network of workers that have just been started. -/
def start
    (hasher : RandomState SocketAddr Node)
    (peers : List Peer) : Network where
  nodes :=
    peers.foldl
      (fun nodes peer =>
        nodes.insert peer.address (freshNode peer))
      (HashMap.new hasher)
  flight := []
  log := []
  injections := 0

/- The workers of a new network are those that it was given. -/
theorem exists_peer_of_get_start
    {hasher : RandomState SocketAddr Node}
    {peers : List Peer}
    {addr : SocketAddr}
    {node : Node}
    (hNode : (start hasher peers).nodes.get addr = some node) :
    ∃ peer ∈ peers,
      peer.address = addr ∧ node = freshNode peer := by
  unfold start at hNode
  dsimp only at hNode
  induction peers using List.reverseRecOn with
  | nil => simp at hNode
  | append_singleton peers peer ih =>
      rw [List.foldl_append, List.foldl_cons,
        List.foldl_nil, HashMap.get_insert] at hNode
      by_cases hAddr : addr = peer.address
      · rw [if_pos hAddr] at hNode
        exact
          ⟨peer, by simp, hAddr.symm,
            (Option.some.inj hNode).symm⟩
      · rw [if_neg hAddr] at hNode
        rcases ih hNode with ⟨other, hOther, hRest⟩
        exact
          ⟨other, List.mem_append_left _ hOther, hRest⟩

/- Nothing is pending in a new network. -/
theorem pending_start
    (hasher : RandomState SocketAddr Node)
    (peers : List Peer) :
    (start hasher peers).pending = [] := by
  have hQueued : (start hasher peers).queued = [] := by
    rw [List.eq_nil_iff_forall_not_mem]
    intro packet hPacket
    rcases (mem_queued_iff _ packet).mp hPacket with
      ⟨addr, node, hNode, hControl⟩
    rcases exists_peer_of_get_start hNode with
      ⟨peer, _, _, hFresh⟩
    rw [hFresh] at hControl
    simp [freshNode] at hControl
  rw [pending, hQueued]
  rfl

end Network

end WorldDat

------------------------------------------------------------
-- A Handshake
------------------------------------------------------------

namespace WorldDat

open Rust

namespace Network

/- The worker that is pinged. -/
def firstPeer : Peer where
  address := .v4 0x0A000001 4433
  peerId := PeerId.repeating 0
  hasher := RandomState.insertionOrder PeerId SocketAddr

/- The worker in whose name it is pinged. -/
def secondPeer : Peer where
  address := .v4 0x0A000002 4433
  peerId := PeerId.repeating 1
  hasher := RandomState.insertionOrder PeerId SocketAddr

/- A network of the two workers. -/
def pair : Network :=
  start (RandomState.insertionOrder SocketAddr Node)
    [firstPeer, secondPeer]

/-
  One injected ping and everything that follows from it: a
  pong and a ping, and the pong that answers the latter.
-/
def handshake : List Choice :=
  [ .inject secondPeer.address firstPeer.address
      (.ping secondPeer.peerId)
  , .handle firstPeer.address
  , .deliver 0
  , .deliver 0
  , .handle secondPeer.address
  , .handle secondPeer.address
  , .deliver 0
  , .handle firstPeer.address ]

end Network

end WorldDat
