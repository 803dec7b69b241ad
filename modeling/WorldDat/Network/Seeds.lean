import WorldDat.Machine.Refinement
import WorldDat.Network.Introductions
import WorldDat.PeerMap.Alike

/-
  Networks whose hash maps are seeded differently.

  The seeds of the hashers decide in which order a worker
  iterates its buckets.  No worker ever looks at the peers
  that another one lists, so whatever a network can do it can
  do with other seeds as well, and all that differs are those
  lists.

  Main declarations:
    * `Message.Alike` and `WorkerState.Alike`
    * `WorkerState.Alike.after` and `WorkerState.Alike.replies`
    * `Network.Alike` and `Network.alike_step`
    * `Network.exists_exec_of_seeds`
-/

------------------------------------------------------------
-- Workers With Different Seeds
------------------------------------------------------------

namespace WorldDat

open Rust

/-
  Two messages of a worker that say the same, but for the
  peers that a full list of neighbors has cut off.
-/
inductive Message.Alike
    (owner : PeerId) : Message → Message → Prop
| same (message : Message) : Alike owner message message
| neighbors
    (id : PeerId)
    (left right : List (PeerId × SocketAddr))
    (hReach : PeerMap.SameReach owner 16 left right) :
    Alike owner (.findPeerResponsePeerNotFound id left)
      (.findPeerResponsePeerNotFound id right)

namespace WorkerState

/- Two states of a worker that knows the same in both. -/
structure Alike (left right : WorkerState) : Prop where
  peerId : left.peerId = right.peerId
  peerMap : left.peerMap.Alike left.peerId right.peerMap
  size : left.peerMap.bucketSize = 16

variable {left right : WorkerState}

theorem Alike.known
    (hAlike : left.Alike right) :
    left.known = right.known := by
  funext id
  unfold WorkerState.known
  rw [← hAlike.peerId]
  exact hAlike.peerMap.finds id

/- Freshly started workers are alike whatever their seeds. -/
theorem alike_fresh
    (hasher₁ hasher₂ : PeerHasher)
    (peerId : PeerId)
    (addr : SocketAddr) :
    (fresh hasher₁ peerId addr).Alike
      (fresh hasher₂ peerId addr) where
  peerId := rfl
  peerMap :=
    (PeerMap.alike_default hasher₁ hasher₂ peerId).put addr
      peerId
  size := rfl

theorem Alike.learn
    (hAlike : left.Alike right)
    (addr : SocketAddr)
    (peerId : PeerId) :
    (left.learn addr peerId).Alike
      (right.learn addr peerId) where
  peerId := hAlike.peerId
  peerMap := by
    have hPut := hAlike.peerMap.put addr peerId
    unfold WorkerState.learn
    rw [← hAlike.peerId]
    exact hPut
  size := hAlike.size

/- Alike messages leave alike workers alike. -/
theorem Alike.after
    (hAlike : left.Alike right)
    {owner : PeerId}
    {message message' : Message}
    (hMessage : message.Alike owner message')
    (source : SocketAddr) :
    (left.after (source, message)).Alike
      (right.after (source, message')) := by
  cases hMessage with
  | neighbors => exact hAlike
  | same =>
      cases message with
      | pong id => exact hAlike.learn source id
      | ping => exact hAlike
      | findPeer => exact hAlike
      | findPeerResponsePeerFound => exact hAlike
      | findPeerResponsePeerNotFound => exact hAlike

/- Alike workers give alike answers. -/
theorem Alike.answer
    (hAlike : left.Alike right)
    (id : PeerId) :
    (left.answer id).Alike left.peerId (right.answer id) := by
  unfold WorkerState.answer
  rw [← hAlike.known]
  cases left.known id with
  | some addr => exact Message.Alike.same _
  | none =>
      have hReach :=
        hAlike.peerMap.found (left.peerId.distanceRank id)
      rw [hAlike.size] at hReach
      rw [← hAlike.peerId]
      exact Message.Alike.neighbors id _ _ hReach

/- Alike workers reply alike to alike messages. -/
theorem Alike.replies
    (hAlike : left.Alike right)
    {owner : PeerId}
    {message message' : Message}
    (hMessage : message.Alike owner message')
    (source : SocketAddr) :
    List.Forall₂
      (fun out out' : Outgoing =>
        out.1 = out'.1 ∧
          out.2.Alike left.peerId out'.2)
      (left.replies (source, message))
      (right.replies (source, message')) := by
  cases hMessage with
  | neighbors => exact List.Forall₂.nil
  | same =>
      cases message with
      | ping id =>
          unfold WorkerState.replies
          rw [← hAlike.known, ← hAlike.peerId]
          apply List.Forall₂.cons
          · exact ⟨rfl, Message.Alike.same _⟩
          · cases left.known id with
            | some addr => exact List.Forall₂.nil
            | none =>
                apply List.Forall₂.cons
                · exact ⟨rfl, Message.Alike.same _⟩
                · exact List.Forall₂.nil
      | findPeer id =>
          apply List.Forall₂.cons
          · exact ⟨rfl, hAlike.answer id⟩
          · exact List.Forall₂.nil
      | pong => exact List.Forall₂.nil
      | findPeerResponsePeerFound => exact List.Forall₂.nil
      | findPeerResponsePeerNotFound =>
          exact List.Forall₂.nil

end WorkerState

end WorldDat

------------------------------------------------------------
-- Networks With Different Seeds
------------------------------------------------------------

namespace WorldDat

open Rust

/-
  Two packets that take the same way, with alike messages of
  the worker that runs at their source.
-/
structure Packet.Alike
    (runs : PeerId → SocketAddr → Prop)
    (left right : Packet) : Prop where
  source : left.source = right.source
  destination : left.destination = right.destination
  origin : left.origin = right.origin
  injected : left.injected = right.injected
  message : left.message = right.message ∨
    ∃ owner, runs owner left.source ∧
      left.message.Alike owner right.message

/- Two logs' entries of the same event. -/
structure Handled.Alike
    (runs : PeerId → SocketAddr → Prop)
    (left right : Handled) : Prop where
  worker : left.worker = right.worker
  packet : left.packet.Alike runs right.packet
  sent : List.Forall₂ (Packet.Alike runs) left.sent right.sent

/- Two workers at an address, with alike control queues. -/
structure Node.Alike
    (runs : PeerId → SocketAddr → Prop)
    (addr : SocketAddr)
    (left right : Node) : Prop where
  hosted : runs left.state.peerId addr
  state : left.state.Alike right.state
  control :
    List.Forall₂ (Packet.Alike runs) left.control
      right.control

namespace Network

/- Two networks that differ in nothing but lists of peers. -/
structure Alike
    (runs : PeerId → SocketAddr → Prop)
    (left right : Network) : Prop where
  nodes : ∀ addr,
    Option.Rel (Node.Alike runs addr) (left.nodes.get addr)
      (right.nodes.get addr)
  flight :
    List.Forall₂ (Packet.Alike runs) left.flight right.flight
  log : List.Forall₂ (Handled.Alike runs) left.log right.log
  injections : left.injections = right.injections

variable {runs : PeerId → SocketAddr → Prop}
variable {left right : Network}

/- A packet says the same to whoever handles it. -/
theorem alike_message
    {packet packet' : Packet}
    (hPacket : packet.Alike runs packet') :
    ∃ owner, packet.message.Alike owner packet'.message := by
  rcases hPacket.message with hSame | ⟨owner, _, hMessage⟩
  · rw [← hSame]
    exact ⟨PeerId.repeating 0, Message.Alike.same _⟩
  · exact ⟨owner, hMessage⟩

/- Where a worker runs in one, it runs in the other. -/
theorem Alike.get
    (hAlike : left.Alike runs right)
    {addr : SocketAddr}
    {node : Node}
    (hNode : left.nodes.get addr = some node) :
    ∃ node', right.nodes.get addr = some node' ∧
      node.Alike runs addr node' := by
  have hThere := hAlike.nodes addr
  rw [hNode] at hThere
  generalize right.nodes.get addr = found' at hThere ⊢
  cases hThere with
  | some hNodes => exact ⟨_, rfl, hNodes⟩

/- A worker can be replaced by an alike one in both. -/
theorem Alike.nodes_insert
    (hAlike : left.Alike runs right)
    {addr : SocketAddr}
    {node node' : Node}
    (hNode : node.Alike runs addr node')
    (other : SocketAddr) :
    Option.Rel (Node.Alike runs other)
      ((left.nodes.insert addr node).get other)
      ((right.nodes.insert addr node').get other) := by
  rw [HashMap.get_insert, HashMap.get_insert]
  by_cases hOther : other = addr
  · rw [if_pos hOther, if_pos hOther, hOther]
    exact Option.Rel.some hNode
  · rw [if_neg hOther, if_neg hOther]
    exact hAlike.nodes other

/- Accepting alike packets keeps networks alike. -/
theorem Alike.accept
    (hAlike : left.Alike runs right)
    {packet packet' : Packet}
    (hPacket : packet.Alike runs packet')
    {node node' : Node}
    (hNode : node.Alike runs packet.destination node') :
    (left.accept node packet).Alike runs
      (right.accept node' packet') := by
  refine ⟨?_, hAlike.flight, hAlike.log, hAlike.injections⟩
  intro addr
  unfold Network.accept
  rw [← hPacket.destination]
  apply hAlike.nodes_insert
  refine ⟨hNode.hosted, hNode.state, ?_⟩
  exact
    List.rel_append hNode.control
      (List.Forall₂.cons hPacket List.Forall₂.nil)

theorem Alike.deliver
    (hAlike : left.Alike runs right)
    {packet packet' : Packet}
    (hPacket : packet.Alike runs packet') :
    (left.deliver packet).Alike runs
      (right.deliver packet') := by
  unfold Network.deliver
  rw [← hPacket.destination]
  have hThere := hAlike.nodes packet.destination
  generalize left.nodes.get packet.destination = found
    at hThere ⊢
  generalize right.nodes.get packet.destination = found'
    at hThere ⊢
  cases hThere with
  | none => exact hAlike
  | some hNodes => exact hAlike.accept hPacket hNodes

/- The replies of alike workers are alike packets. -/
theorem alike_sent
    {worker : SocketAddr}
    {node node' : Node}
    (hNode : node.Alike runs worker node')
    {packet packet' : Packet}
    (hPacket : packet.Alike runs packet') :
    List.Forall₂ (Packet.Alike runs)
      ((node.state.replies
          (packet.source, packet.message)).map
        (packet.reply worker))
      ((node'.state.replies
          (packet'.source, packet'.message)).map
        (packet'.reply worker)) := by
  rcases alike_message hPacket with ⟨owner, hMessage⟩
  have hReplies :=
    hNode.state.replies hMessage packet.source
  rw [hPacket.source] at hReplies ⊢
  rw [List.forall₂_map_left_iff, List.forall₂_map_right_iff]
  apply hReplies.imp
  intro out out' hOut
  refine ⟨rfl, hOut.1, hPacket.origin, rfl, ?_⟩
  exact Or.inr ⟨node.state.peerId, hNode.hosted, hOut.2⟩

/- Alike workers handle alike packets alike. -/
theorem Alike.worked
    (hAlike : left.Alike runs right)
    {worker : SocketAddr}
    {node node' : Node}
    (hNode : node.Alike runs worker node')
    {packet packet' : Packet}
    (hPacket : packet.Alike runs packet')
    {rest rest' : List Packet}
    (hRest : List.Forall₂ (Packet.Alike runs) rest rest') :
    (left.worked worker
        (node.state.after (packet.source, packet.message))
        packet rest
        (node.state.replies
          (packet.source, packet.message))).Alike runs
      (right.worked worker
        (node'.state.after
          (packet'.source, packet'.message))
        packet' rest'
        (node'.state.replies
          (packet'.source, packet'.message))) := by
  have hSent := alike_sent hNode hPacket
  rcases alike_message hPacket with ⟨owner, hMessage⟩
  have hAfter := hNode.state.after hMessage packet.source
  rw [hPacket.source] at hAfter
  refine ⟨?_, ?_, ?_, hAlike.injections⟩
  · intro addr
    apply hAlike.nodes_insert
    refine ⟨?_, ?_, hRest⟩
    · rw [WorkerState.peerId_after]
      exact hNode.hosted
    · rw [hPacket.source]
      exact hAfter
  · exact List.rel_append hAlike.flight hSent
  · exact
      List.rel_append hAlike.log
        (List.Forall₂.cons ⟨rfl, hPacket, hSent⟩
          List.Forall₂.nil)

end Network

end WorldDat

------------------------------------------------------------
-- Steps With Different Seeds
------------------------------------------------------------

namespace WorldDat

open Rust

namespace Network

variable {d : Discipline}
variable {runs : PeerId → SocketAddr → Prop}
variable {left right next : Network}

/- Alike packets go between the same addresses. -/
theorem between_iff_of_alike
    {packet packet' : Packet}
    (hPacket : packet.Alike runs packet')
    (source destination : SocketAddr) :
    packet.Between source destination ↔
      packet'.Between source destination := by
  unfold Packet.Between
  rw [hPacket.source, hPacket.destination]

/- What one network can do, an alike one can do as well. -/
theorem alike_step
    {choice : Choice}
    (hAlike : left.Alike runs right)
    (hStep : step d left choice = some next) :
    ∃ next', step d right choice = some next' ∧
      next.Alike runs next' := by
  cases choice with
  | inject source destination message =>
      rcases step_inject_sound hStep with
        ⟨node, hNode, hAdmits, hNext⟩
      rcases hAlike.get hNode with ⟨node', hNode', hNodes⟩
      have hPacket :
          (left.injection source destination message).Alike
            runs
            (right.injection source destination message) :=
        ⟨rfl, rfl, hAlike.injections, rfl, Or.inl rfl⟩
      have hAccept := hAlike.accept hPacket hNodes
      refine ⟨_, step_inject hNode' hAdmits, ?_⟩
      rw [hNext]
      refine
        ⟨hAccept.nodes, hAccept.flight, hAccept.log, ?_⟩
      exact congrArg (· + 1) hAlike.injections
  | handle worker =>
      simp only [step] at hStep
      split at hStep
      · cases hStep
      · rename_i node hNode
        split at hStep
        · cases hStep
        · rename_i packet rest hControl
          rw [WorkerState.handle_eq_ok] at hStep
          cases hStep
          rcases hAlike.get hNode with
            ⟨node', hNode', hNodes⟩
          have hQueue := hNodes.control
          rw [hControl] at hQueue
          rcases List.forall₂_cons_left_iff.mp hQueue with
            ⟨packet', rest', hPacket, hRest, hControl'⟩
          have hThere :
              right.nodes.get worker =
                some
                  { state := node'.state
                    control := packet' :: rest' } := by
            rw [hNode', ← hControl']
          refine ⟨_, step_handle hThere, ?_⟩
          exact hAlike.worked hNodes hPacket hRest
  | deliver position =>
      simp only [step] at hStep
      split at hStep
      · cases hStep
      · rename_i packet hGet
        split at hStep
        · cases hStep
        · rename_i hFirst
          cases hStep
          rcases Listing.forall₂_getElem? hAlike.flight
              hGet with
            ⟨packet', hGet', hPacket⟩
          have hFirst' :
              ¬ (d.fifo ∧
                ∃ earlier ∈ right.flight.take position,
                  earlier.Between packet'.source
                    packet'.destination) := by
            intro hBoth
            rcases hBoth with
              ⟨hFifo, earlier', hTaken', hBetween'⟩
            have hFront :=
              List.forall₂_take position hAlike.flight
            rcases Listing.exists_of_mem_forall₂ hFront
                hTaken' with
              ⟨earlier, hTaken, hEarlier⟩
            apply hFirst
            refine ⟨hFifo, earlier, hTaken, ?_⟩
            rw [between_iff_of_alike hEarlier,
              hPacket.source, hPacket.destination]
            exact hBetween'
          have hErased :
              ({ left with
                  flight :=
                    left.flight.eraseIdx position } :
                Network).Alike runs
                { right with
                  flight :=
                    right.flight.eraseIdx position } :=
            ⟨hAlike.nodes,
              Listing.forall₂_eraseIdx hAlike.flight
                position,
              hAlike.log, hAlike.injections⟩
          refine
            ⟨({ right with
                flight :=
                  right.flight.eraseIdx position }
                ).deliver packet', ?_,
              hErased.deliver hPacket⟩
          simp only [step, hGet', if_neg hFirst']
  | lose position =>
      simp only [step] at hStep
      split at hStep
      · rename_i hLose
        cases hStep
        rw [hAlike.flight.length_eq] at hLose
        refine
          ⟨{ right with
              flight := right.flight.eraseIdx position },
            ?_, hAlike.nodes, ?_, hAlike.log,
            hAlike.injections⟩
        · simp only [step, if_pos hLose]
        · exact
            Listing.forall₂_eraseIdx hAlike.flight position
      · cases hStep
  | duplicate position =>
      simp only [step] at hStep
      split at hStep
      · cases hStep
      · rename_i packet hGet
        split at hStep
        · rename_i hDuplicating
          cases hStep
          rcases Listing.forall₂_getElem? hAlike.flight
              hGet with
            ⟨packet', hGet', hPacket⟩
          refine
            ⟨{ right with
                flight := right.flight ++ [packet'] },
              ?_, hAlike.nodes, ?_, hAlike.log,
              hAlike.injections⟩
          · simp only [step, hGet', if_pos hDuplicating]
          · exact
              List.rel_append hAlike.flight
                (List.Forall₂.cons hPacket
                  List.Forall₂.nil)
        · cases hStep

end Network

end WorldDat

------------------------------------------------------------
-- Runs With Different Seeds
------------------------------------------------------------

namespace WorldDat

open Rust

namespace Network

/- The workers that are given, without their seeds. -/
def seedless
    (peers : List Peer) : List (SocketAddr × PeerId) :=
  peers.map fun peer => (peer.address, peer.peerId)

/- Networks of the same workers start alike. -/
theorem alike_start
    {hasher₁ hasher₂ : RandomState SocketAddr Node}
    {peers₁ peers₂ : List Peer}
    (hPeers : seedless peers₁ = seedless peers₂) :
    (start hasher₁ peers₁).Alike
      (start hasher₁ peers₁).Runs
      (start hasher₂ peers₂) := by
  have hNodes : ∀ addr,
      Option.Rel
        (fun node node' : Node =>
          node.state.Alike node'.state ∧
            node.control = [] ∧ node'.control = [])
        ((start hasher₁ peers₁).nodes.get addr)
        ((start hasher₂ peers₂).nodes.get addr) := by
    intro addr
    unfold start
    dsimp only
    induction peers₁ using List.reverseRecOn
      generalizing peers₂ with
    | nil =>
        have hNone : peers₂ = [] :=
          List.map_eq_nil_iff.mp hPeers.symm
        rw [hNone]
        exact Option.Rel.none
    | append_singleton front peer ih =>
        unfold seedless at hPeers
        rw [List.map_append, List.map_cons,
          List.map_nil] at hPeers
        rcases List.map_eq_append_iff.mp hPeers.symm with
          ⟨front', back', hSplit, hFront, hBack⟩
        rcases List.map_eq_singleton_iff.mp hBack with
          ⟨peer', hLast, hSame⟩
        rw [Prod.mk.injEq] at hSame
        rw [hSplit, hLast, List.foldl_append,
          List.foldl_append, List.foldl_cons,
          List.foldl_cons, List.foldl_nil, List.foldl_nil,
          HashMap.get_insert, HashMap.get_insert,
          hSame.1]
        by_cases hAddr : addr = peer.address
        · rw [if_pos hAddr, if_pos hAddr]
          refine Option.Rel.some ⟨?_, rfl, rfl⟩
          unfold freshNode
          rw [hSame.1, hSame.2]
          exact WorkerState.alike_fresh _ _ _ _
        · rw [if_neg hAddr, if_neg hAddr]
          exact ih hFront.symm
  refine
    ⟨?_, List.Forall₂.nil, List.Forall₂.nil, rfl⟩
  intro addr
  have hThere := hNodes addr
  generalize hNode :
    (start hasher₁ peers₁).nodes.get addr = found
      at hThere ⊢
  generalize (start hasher₂ peers₂).nodes.get addr = found'
    at hThere ⊢
  cases hThere with
  | none => exact Option.Rel.none
  | some hBoth =>
      apply Option.Rel.some
      refine ⟨⟨_, hNode, rfl⟩, hBoth.1, ?_⟩
      rw [hBoth.2.1, hBoth.2.2]
      exact List.Forall₂.nil

/-
  Whatever a network of workers can do under a discipline, it
  can do with any other seeds of its hash maps.  Everybody
  then knows the same, and what has been sent and handled is
  the same but for lists of neighbors.
-/
theorem exists_exec_of_seeds
    {d : Discipline}
    {hasher₁ : RandomState SocketAddr Node}
    (hasher₂ : RandomState SocketAddr Node)
    {peers₁ peers₂ : List Peer}
    (hPeers : seedless peers₁ = seedless peers₂)
    {choices : List Choice}
    {left : Network}
    (hExec :
      exec d (start hasher₁ peers₁) choices = some left) :
    ∃ right,
      exec d (start hasher₂ peers₂) choices = some right ∧
        left.Alike left.Runs right := by
  have hStep : ∀ s choice s' t,
      s.Alike (start hasher₁ peers₁).Runs t →
        step d s choice = some s' →
          ∃ t', step d t choice = some t' ∧
            s'.Alike (start hasher₁ peers₁).Runs t' :=
    fun _ _ _ _ hAlike hNext => alike_step hAlike hNext
  rcases Machine.exists_exec_of_lockstep hStep hExec
      (alike_start hPeers) with
    ⟨right, hRight, hAlike⟩
  have hRuns :
      (start hasher₁ peers₁).Runs = left.Runs := by
    funext id addr
    apply propext
    apply exec_invariant
      (fun run =>
        (start hasher₁ peers₁).Runs id addr ↔
          run.Runs id addr)
      ?_ hExec Iff.rfl
    intro before after hBefore hStep
    rw [hBefore, hStep.runs_iff]
  rw [hRuns] at hAlike
  exact ⟨right, hRight, hAlike⟩

/- The same two workers, with other seeds. -/
def reseededPair : List Peer :=
  [ { firstPeer with hasher := PeerMap.reversing }
  , { secondPeer with hasher := PeerMap.reversing } ]

theorem exists_exec_of_seeds_handshake :
    ∃ left right,
      exec hostile pair handshake = some left ∧
        exec hostile
            (start
              (RandomState.insertionOrder SocketAddr Node)
              reseededPair)
            handshake = some right ∧
        left.Alike left.Runs right := by
  have hRuns :
      (exec hostile pair handshake).isSome = true := by
    decide +kernel
  rcases Option.isSome_iff_exists.mp hRuns with
    ⟨left, hExec⟩
  rcases exists_exec_of_seeds
      (RandomState.insertionOrder SocketAddr Node)
      (show seedless [firstPeer, secondPeer] =
        seedless reseededPair from rfl)
      hExec with
    ⟨right, hRight, hAlike⟩
  exact ⟨left, right, hExec, hRight, hAlike⟩

end Network

end WorldDat
