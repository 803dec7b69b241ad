import WorldDat.Machine.Refinement
import WorldDat.Network.Choices
import WorldDat.Network.PingStorm
import WorldDat.Network.Truthful
import WorldDat.Sim.Bootstrap
import WorldDat.Sim.Delivery
import WorldDat.Sim.Joining

/-
  The simulator refines a network of workers.

  A worker of the network is a worker of the simulator, added
  or not.  What is in flight from it is what the simulator
  has collected from it, then what waits in its channel, then
  what its thread has not sent yet.  Routing a message to a
  worker that is there delivers it, and routing a message to
  anybody else loses it.

  Main declarations:
    * `Network.assembling`
    * `Simulation.Mirrors` and `Simulation.refines_network`
    * `Simulation.Carries` and `Simulation.heckinSimulator`
    * `Simulation.prepared_refines_network`
-/

------------------------------------------------------------
-- Packets From One Address
------------------------------------------------------------

namespace WorldDat

namespace Packet

/- What the handler of a message sees of a packet. -/
def received (packet : Packet) : Incoming :=
  (packet.source, packet.message)

/- What an address has sent, of some packets. -/
def fromSource
    (src : SocketAddr)
    (packets : List Packet) : List Outgoing :=
  packets.filterMap fun packet =>
    if packet.source = src then
      some (packet.destination, packet.message)
    else
      none

/- The first thing that an address has sent can be taken. -/
theorem exists_split_of_fromSource
    {src : SocketAddr}
    {packets : List Packet}
    {out : Outgoing}
    {rest : List Outgoing}
    (hFirst : fromSource src packets = out :: rest) :
    ∃ front packet back,
      packets = front ++ packet :: back ∧
        packet.source = src ∧
        (packet.destination, packet.message) = out ∧
        (∀ earlier ∈ front, earlier.source ≠ src) ∧
        fromSource src (front ++ back) = rest ∧
        ∀ other, other ≠ src →
          fromSource other (front ++ back) =
            fromSource other packets := by
  unfold fromSource at hFirst
  rcases List.filterMap_eq_cons_iff.mp hFirst with
    ⟨front, packet, back, hPackets, hFront, hHere, hBack⟩
  have hSource : packet.source = src := by
    by_contra hOther
    rw [if_neg hOther] at hHere
    cases hHere
  have hEarlier : ∀ earlier ∈ front,
      earlier.source ≠ src := by
    intro earlier hIn hSame
    have hNone := hFront earlier hIn
    rw [if_pos hSame] at hNone
    cases hNone
  rw [if_pos hSource, Option.some.injEq] at hHere
  refine
    ⟨front, packet, back, hPackets, hSource, hHere, hEarlier,
      ?_, ?_⟩
  · have hNothing :
        front.filterMap (fun packet =>
          if packet.source = src then
            some (packet.destination, packet.message)
          else none) = [] :=
      List.filterMap_eq_nil_iff.mpr hFront
    unfold fromSource
    rw [List.filterMap_append, hNothing, List.nil_append,
      hBack]
  · intro other hOther
    have hElse : packet.source ≠ other := by
      rw [hSource]
      exact hOther.symm
    unfold fromSource
    rw [hPackets, List.filterMap_append,
      List.filterMap_append, List.filterMap_cons_none]
    exact if_neg hElse

/- All replies of a worker come from its address. -/
theorem fromSource_map_reply
    (src worker : SocketAddr)
    (cause : Packet)
    (outgoing : List Outgoing) :
    fromSource src (outgoing.map (cause.reply worker)) =
      if worker = src then outgoing else [] := by
  unfold fromSource
  rw [List.filterMap_map]
  by_cases hWorker : worker = src
  · rw [if_pos hWorker]
    simp [reply, hWorker]
  · rw [if_neg hWorker]
    simp [reply, hWorker]

end Packet

end WorldDat

------------------------------------------------------------
-- Simulations As Networks
------------------------------------------------------------

namespace WorldDat

open Rust

/-
  The discipline of a network that is still being assembled:
  messages between two addresses arrive in the order of
  sending, but messages to somebody who is not there yet are
  lost.  Only requests come from outside.
-/
def Network.assembling : Discipline where
  admits := Network.hostile.admits
  fifo := true
  lossy := true
  duplicating := false

namespace Simulation

variable {R : Type}

/-
  A network has the workers of a simulation, and in flight is
  what the simulation holds on its way.
-/
structure Mirrors
    (run : Simulation R)
    (net : Network) : Prop where
  nodes : ∀ addr worker, run.Hosts addr worker →
    ∃ node, net.nodes.get addr = some node ∧
      node.state = worker.thread ∧
      node.control.map Packet.received = worker.control
  hosted : ∀ addr node, net.nodes.get addr = some node →
    ∃ worker, run.Hosts addr worker
  flight : ∀ src worker, run.Hosts src worker →
    Packet.fromSource src net.flight =
      sentBy src run.messages ++
        (worker.messages ++ worker.unsent)
  senders : ∀ packet ∈ net.flight,
    ∃ worker, run.Hosts packet.source worker
  collected : ∀ envelope ∈ run.messages,
    ∃ worker, run.Hosts envelope.1 worker

variable {self next : Simulation R}
variable {net after : Network}

/- Workers are still where they were. -/
def KeepsHosts (self next : Simulation R) : Prop :=
  ∀ addr, (∃ worker, self.Hosts addr worker) →
    ∃ worker, next.Hosts addr worker

/- Nothing changes but which workers have been added. -/
theorem Mirrors.quiet
    (hMirrors : self.Mirrors net)
    (hKeeps : self.KeepsHosts next)
    (hHosts : ∀ addr worker, next.Hosts addr worker →
      self.Hosts addr worker)
    (hMessages : next.messages = self.messages) :
    next.Mirrors net where
  nodes := by
    intro addr worker hWorker
    exact hMirrors.nodes addr worker (hHosts _ _ hWorker)
  hosted := by
    intro addr node hNode
    exact hKeeps addr (hMirrors.hosted addr node hNode)
  flight := by
    intro src worker hWorker
    rw [hMessages]
    exact hMirrors.flight src worker (hHosts _ _ hWorker)
  senders := by
    intro packet hPacket
    exact hKeeps _ (hMirrors.senders packet hPacket)
  collected := by
    intro envelope hEnvelope
    rw [hMessages] at hEnvelope
    exact hKeeps _ (hMirrors.collected envelope hEnvelope)

/-
  One worker is replaced in the simulation and in the
  network.
-/
theorem Mirrors.replace
    (hMirrors : self.Mirrors net)
    (hKeeps : self.KeepsHosts next)
    {place : SocketAddr}
    {new : WorkerHandle}
    {node : Node}
    (hHosts : self.Replaces next place new)
    (hNode : after.nodes.get place = some node)
    (hState : node.state = new.thread)
    (hControl :
      node.control.map Packet.received = new.control)
    (hOthers : ∀ addr, addr ≠ place →
      after.nodes.get addr = net.nodes.get addr)
    (hFlight : ∀ src worker, next.Hosts src worker →
      Packet.fromSource src after.flight =
        sentBy src next.messages ++
          (worker.messages ++ worker.unsent))
    (hSenders : ∀ packet ∈ after.flight,
      ∃ worker, self.Hosts packet.source worker)
    (hCollected : ∀ envelope ∈ next.messages,
      ∃ worker, self.Hosts envelope.1 worker)
    (hPlace : ∃ worker, self.Hosts place worker) :
    next.Mirrors after where
  nodes := by
    intro addr worker hWorker
    rcases hHosts addr worker hWorker with
      ⟨hAddr, hNew⟩ | ⟨hOther, hSame⟩
    · rw [hAddr, hNew]
      exact ⟨node, hNode, hState, hControl⟩
    · rw [hOthers addr hOther]
      exact hMirrors.nodes addr worker hSame
  hosted := by
    intro addr found hFound
    by_cases hAddr : addr = place
    · rw [hAddr]
      exact hKeeps place hPlace
    · rw [hOthers addr hAddr] at hFound
      exact hKeeps addr (hMirrors.hosted addr found hFound)
  flight := hFlight
  senders := by
    intro packet hPacket
    exact hKeeps _ (hSenders packet hPacket)
  collected := by
    intro envelope hEnvelope
    exact hKeeps _ (hCollected envelope hEnvelope)

/- Sending a reply does not change what is in flight. -/
theorem Mirrors.send
    (hMirrors : self.Mirrors net)
    (hKeeps : self.KeepsHosts next)
    {place : SocketAddr}
    {old : WorkerHandle}
    {message : Outgoing}
    {rest : List Outgoing}
    (hOld : self.Hosts place old)
    (hUnsent : old.unsent = message :: rest)
    (hHosts :
      self.Replaces next place
        { old with
          unsent := rest
          messages := old.messages ++ [message]
          sent := old.sent ++ [message] })
    (hMessages : next.messages = self.messages) :
    next.Mirrors net := by
  rcases hMirrors.nodes place old hOld with
    ⟨node, hNode, hState, hControl⟩
  apply hMirrors.replace hKeeps hHosts hNode hState hControl
    (fun _ _ => rfl) ?_ hMirrors.senders ?_ ⟨old, hOld⟩
  · intro src worker hWorker
    rw [hMessages]
    rcases hHosts src worker hWorker with
      ⟨hAddr, hNew⟩ | ⟨_, hSame⟩
    · have hBefore := hMirrors.flight place old hOld
      rw [hUnsent] at hBefore
      rw [hAddr, hNew, hBefore]
      simp
    · exact hMirrors.flight src worker hSame
  · intro envelope hEnvelope
    rw [hMessages] at hEnvelope
    exact hMirrors.collected envelope hEnvelope

/- Collecting a message does not change what is in flight. -/
theorem Mirrors.collect
    (hMirrors : self.Mirrors net)
    (hKeeps : self.KeepsHosts next)
    {src : SocketAddr}
    {old : WorkerHandle}
    {out : Outgoing}
    {rest : List Outgoing}
    (hOld : self.Hosts src old)
    (hChannel : old.messages = out :: rest)
    (hHosts :
      self.Replaces next src { old with messages := rest })
    (hMessages :
      next.messages = self.messages ++ [(src, out)]) :
    next.Mirrors net := by
  rcases hMirrors.nodes src old hOld with
    ⟨node, hNode, hState, hControl⟩
  have hSentBy : ∀ other,
      sentBy other next.messages =
        sentBy other self.messages ++
          if src = other then [out] else [] := by
    intro other
    rw [hMessages]
    unfold sentBy
    rw [List.filterMap_append]
    by_cases hOther : src = other
    · simp [hOther]
    · simp [hOther]
  apply hMirrors.replace hKeeps hHosts hNode hState hControl
    (fun _ _ => rfl) ?_ hMirrors.senders ?_ ⟨old, hOld⟩
  · intro other worker hWorker
    rw [hSentBy]
    rcases hHosts other worker hWorker with
      ⟨hAddr, hNew⟩ | ⟨hOther, hSame⟩
    · have hBefore := hMirrors.flight src old hOld
      rw [hChannel] at hBefore
      rw [hAddr, hNew, hBefore, if_pos rfl]
      simp
    · rw [if_neg fun h => hOther h.symm, List.append_nil]
      exact hMirrors.flight other worker hSame
  · intro envelope hEnvelope
    rw [hMessages] at hEnvelope
    rcases List.mem_append.mp hEnvelope with hIn | hNew
    · exact hMirrors.collected envelope hIn
    · rw [List.mem_singleton.mp hNew]
      exact ⟨old, hOld⟩

/- Handling a message is a step of the network. -/
theorem Mirrors.handle
    (hMirrors : self.Mirrors net)
    (hKeeps : self.KeepsHosts next)
    {place source : SocketAddr}
    {old : WorkerHandle}
    {msg : Message}
    {rest : List Incoming}
    (hOld : self.Hosts place old)
    (hUnsent : old.unsent = [])
    (hControl : old.control = (source, msg) :: rest)
    (hHosts :
      self.Replaces next place
        { old with
          control := rest
          thread := old.thread.after (source, msg)
          unsent := old.thread.replies (source, msg) })
    (hMessages : next.messages = self.messages) :
    ∃ after,
      Network.step Network.assembling net
          (.handle place) =
          some after ∧
        next.Mirrors after := by
  rcases hMirrors.nodes place old hOld with
    ⟨node, hNode, hState, hQueue⟩
  rcases node with ⟨state, control⟩
  dsimp only at hState hQueue
  rw [hControl] at hQueue
  rcases List.map_eq_cons_iff.mp hQueue with
    ⟨packet, later, hPackets, hPacket, hLater⟩
  rw [hPackets] at hNode
  have hReceived :
      (packet.source, packet.message) = (source, msg) :=
    hPacket
  refine ⟨_, Network.step_handle hNode, ?_⟩
  rw [hReceived, hState]
  apply hMirrors.replace hKeeps hHosts
    (HashMap.get_insert_self _ _ _) rfl hLater
    (fun addr hAddr => HashMap.get_insert_ne _ _ hAddr)
    ?_ ?_ ?_ ⟨old, hOld⟩
  · intro src worker hWorker
    have hFlight :
        Packet.fromSource src
            (net.flight ++
              (old.thread.replies (source, msg)).map
                (packet.reply place)) =
          Packet.fromSource src net.flight ++
            if place = src then
              old.thread.replies (source, msg)
            else [] := by
      rw [← Packet.fromSource_map_reply src place packet]
      exact List.filterMap_append
    refine hFlight.trans ?_
    rw [hMessages]
    rcases hHosts src worker hWorker with
      ⟨hAddr, hNew⟩ | ⟨hOther, hSame⟩
    · have hBefore := hMirrors.flight place old hOld
      rw [hUnsent] at hBefore
      rw [hAddr, hNew, hBefore, if_pos rfl]
      simp
    · rw [if_neg fun h => hOther h.symm, List.append_nil]
      exact hMirrors.flight src worker hSame
  · intro sent hSent
    rcases List.mem_append.mp hSent with hIn | hNew
    · exact hMirrors.senders sent hIn
    · rcases List.mem_map.mp hNew with ⟨out, _, hReply⟩
      rw [← hReply]
      exact ⟨old, hOld⟩
  · intro envelope hEnvelope
    rw [hMessages] at hEnvelope
    exact hMirrors.collected envelope hEnvelope

/- The first collected message is the first in flight. -/
theorem Mirrors.exists_split
    (hMirrors : self.Mirrors net)
    {src dst : SocketAddr}
    {msg : Message}
    {rest : List Envelope}
    (hMessages : self.messages = (src, dst, msg) :: rest) :
    ∃ front packet back,
      net.flight = front ++ packet :: back ∧
        packet.source = src ∧
        packet.destination = dst ∧
        packet.message = msg ∧
        (∀ earlier ∈ front, earlier.source ≠ src) ∧
        ∀ other worker, self.Hosts other worker →
          Packet.fromSource other (front ++ back) =
            sentBy other rest ++
              (worker.messages ++ worker.unsent) := by
  have hIn : (src, dst, msg) ∈ self.messages := by
    rw [hMessages]
    exact List.mem_cons_self
  rcases hMirrors.collected _ hIn with ⟨sender, hSender⟩
  have hHere : sentBy src self.messages =
      (dst, msg) :: sentBy src rest := by
    rw [hMessages]
    simp [sentBy]
  have hFirst := hMirrors.flight src sender hSender
  rw [hHere, List.cons_append] at hFirst
  rcases Packet.exists_split_of_fromSource hFirst with
    ⟨front, packet, back, hFlight, hSource, hOut, hEarlier,
      hRest, hOthers⟩
  refine
    ⟨front, packet, back, hFlight, hSource,
      congrArg Prod.fst hOut, congrArg Prod.snd hOut,
      hEarlier, ?_⟩
  intro other worker hWorker
  by_cases hOther : other = src
  · have hBefore := hMirrors.flight src worker
      (hOther ▸ hWorker)
    rw [hHere, List.cons_append, hFirst,
      List.cons.injEq] at hBefore
    rw [hOther, hRest]
    exact hBefore.2
  · rw [hOthers other hOther,
      hMirrors.flight other worker hWorker, hMessages]
    have hElse : ¬ src = other := fun h => hOther h.symm
    simp [sentBy, hElse]

/- Routing a message to a worker delivers it. -/
theorem Mirrors.route
    (hMirrors : self.Mirrors net)
    (hKeeps : self.KeepsHosts next)
    {src dst : SocketAddr}
    {msg : Message}
    {old : WorkerHandle}
    (hOld : self.Hosts dst old)
    (hHosts : self.Replaces next dst (old.message src msg))
    (hMessages :
      self.messages = (src, dst, msg) :: next.messages) :
    ∃ position after,
      Network.step Network.assembling net
          (.deliver position) =
          some after ∧
        next.Mirrors after := by
  rcases hMirrors.exists_split hMessages with
    ⟨front, packet, back, hFlight, hSource, hDest, hMessage,
      hEarlier, hRest⟩
  rcases hMirrors.nodes dst old hOld with
    ⟨node, hNode, hState, hControl⟩
  have hFirst : ∀ earlier ∈ front,
      ¬ earlier.Between packet.source
        packet.destination := by
    intro earlier hIn hBetween
    exact hEarlier earlier hIn (hBetween.1.trans hSource)
  refine
    ⟨front.length, _, Network.step_deliver hFlight hFirst,
      ?_⟩
  have hDeliver :
      ({ net with flight := front ++ back } :
          Network).deliver packet =
        ({ net with flight := front ++ back } :
          Network).accept node packet := by
    unfold Network.deliver
    dsimp only
    rw [hDest, hNode]
  rw [hDeliver]
  have hKept : ∀ kept ∈ front ++ back, kept ∈ net.flight := by
    intro kept hKept
    rw [hFlight]
    exact Listing.mem_append_cons hKept
  have hAccepted :
      (({ net with flight := front ++ back } :
          Network).accept node packet).nodes.get dst =
        some
          { node with control := node.control ++ [packet] } := by
    unfold Network.accept
    dsimp only
    rw [hDest]
    exact HashMap.get_insert_self _ _ _
  apply hMirrors.replace hKeeps hHosts hAccepted hState
    ?_ ?_ ?_ ?_ ?_ ⟨old, hOld⟩
  · rw [List.map_append, hControl]
    unfold Packet.received
    simp [hSource, hMessage, WorkerHandle.message]
  · intro addr hAddr
    unfold Network.accept
    dsimp only
    rw [hDest]
    exact HashMap.get_insert_ne _ _ hAddr
  · intro other worker hWorker
    rcases hHosts other worker hWorker with
      ⟨hAddr, hNew⟩ | ⟨_, hSame⟩
    · rw [hAddr, hNew]
      exact hRest dst old hOld
    · exact hRest other worker hSame
  · intro kept hIn
    exact hMirrors.senders kept (hKept kept hIn)
  · intro envelope hEnvelope
    apply hMirrors.collected envelope
    rw [hMessages]
    exact List.mem_cons_of_mem _ hEnvelope

/- Routing a message to nobody loses it. -/
theorem Mirrors.ignore
    (hMirrors : self.Mirrors net)
    (hKeeps : self.KeepsHosts next)
    {envelope : Envelope}
    (hHosts : ∀ addr worker, next.Hosts addr worker →
      self.Hosts addr worker)
    (hMessages : self.messages = envelope :: next.messages) :
    ∃ position after,
      Network.step Network.assembling net
          (.lose position) =
          some after ∧
        next.Mirrors after := by
  rcases envelope with ⟨src, dst, msg⟩
  rcases hMirrors.exists_split hMessages with
    ⟨front, packet, back, hFlight, _, _, _, _, hRest⟩
  refine
    ⟨front.length, _, Network.step_lose rfl hFlight, ?_⟩
  constructor
  case nodes =>
    intro addr worker hWorker
    exact hMirrors.nodes addr worker (hHosts _ _ hWorker)
  case hosted =>
    intro addr node hNode
    exact hKeeps addr (hMirrors.hosted addr node hNode)
  case flight =>
    intro other worker hWorker
    exact hRest other worker (hHosts _ _ hWorker)
  case senders =>
    intro kept hKept
    apply hKeeps
    apply hMirrors.senders
    rw [hFlight]
    exact Listing.mem_append_cons hKept
  case collected =>
    intro envelope hEnvelope
    apply hKeeps
    apply hMirrors.collected
    rw [hMessages]
    exact List.mem_cons_of_mem _ hEnvelope

end Simulation

end WorldDat

------------------------------------------------------------
-- Runs Of The Simulator As Runs Of A Network
------------------------------------------------------------

namespace WorldDat

open Rust

namespace Simulation

variable {R : Type}

/- A choice that the network makes by itself. -/
def Unprompted (choice : Choice) : Prop :=
  choice.isInject = false

/- A tick is matched by at most one step of the network. -/
theorem mirrors_step
    {self next : Simulation R}
    {tick : Tick}
    {net : Network}
    (hPlaced : self.Placed)
    (hMirrors : self.Mirrors net)
    (hStep : Step self tick next) :
    ∃ choices after,
      Network.exec Network.assembling net choices =
          some after ∧
        (∀ choice ∈ choices, Unprompted choice) ∧
        next.Mirrors after := by
  have hKeeps : self.KeepsHosts next := fun _ hBefore =>
    hStep.exists_hosts hBefore
  have hNothing : next.Mirrors net →
      ∃ choices after,
        Network.exec Network.assembling net choices =
            some after ∧
          (∀ choice ∈ choices, Unprompted choice) ∧
          next.Mirrors after := by
    intro hSame
    refine ⟨[], net, rfl, ?_, hSame⟩
    intro choice hChoice
    cases hChoice
  have hOne : ∀ choice after,
      Unprompted choice →
        Network.step Network.assembling net choice =
          some after →
        next.Mirrors after →
          ∃ choices after,
            Network.exec Network.assembling net choices =
                some after ∧
              (∀ choice ∈ choices, Unprompted choice) ∧
              next.Mirrors after := by
    intro choice after hUnprompted hChoice hAfter
    refine ⟨[choice], after, ?_, ?_, hAfter⟩
    · unfold Network.exec
      rw [Machine.exec_cons_eq_some_iff]
      exact ⟨after, hChoice, rfl⟩
    · intro other hOther
      rw [List.mem_singleton.mp hOther]
      exact hUnprompted
  cases hStep.effect hPlaced with
  | quiet hHosts hMessages hForwarded =>
      exact hNothing (hMirrors.quiet hKeeps hHosts hMessages)
  | work place old new hOld hWork hHosts hMessages
      hForwarded =>
      rcases WorkerHandle.work_cases hWork with
        ⟨message, rest, hUnsent, hNew⟩ |
          ⟨source, msg, rest, hUnsent, hControl, hNew⟩
      · rw [hNew] at hHosts
        exact
          hNothing
            (hMirrors.send hKeeps hOld hUnsent hHosts
              hMessages)
      · rw [hNew] at hHosts
        rcases hMirrors.handle hKeeps hOld hUnsent hControl
            hHosts hMessages with
          ⟨after, hChoice, hAfter⟩
        exact hOne (.handle place) after rfl hChoice hAfter
  | collect src old out rest hOld hChannel hHosts hMessages
      hForwarded =>
      exact
        hNothing
          (hMirrors.collect hKeeps hOld hChannel hHosts
            hMessages)
  | route src dst msg old hOld hHosts hMessages
      hForwarded =>
      rcases hMirrors.route hKeeps hOld hHosts hMessages with
        ⟨position, after, hChoice, hAfter⟩
      exact
        hOne (.deliver position) after rfl hChoice hAfter
  | ignore envelope hHosts hMessages hForwarded =>
      rcases hMirrors.ignore hKeeps hHosts hMessages with
        ⟨position, after, hChoice, hAfter⟩
      exact hOne (.lose position) after rfl hChoice hAfter

/- The simulator refines a network of its workers. -/
theorem refines_network :
    Machine.Refines (step : Simulation R → _)
      (Network.step Network.assembling) Unprompted
      (fun run net => run.Placed ∧ run.Mirrors net) where
  step := by
    intro run tick next net hRelated hStep
    have hTick := step_sound hStep
    rcases mirrors_step hRelated.1 hRelated.2 hTick with
      ⟨choices, after, hExec, hUnprompted, hMirrors⟩
    exact
      ⟨choices, after, hExec, hUnprompted,
        placed_step hRelated.1 hTick, hMirrors⟩

end Simulation

end WorldDat

------------------------------------------------------------
-- Start-Up Messages
------------------------------------------------------------

namespace WorldDat

open Rust

namespace Network

/- The choices that put messages into control queues. -/
def injecting (envelopes : List Envelope) : List Choice :=
  envelopes.map fun envelope =>
    .inject envelope.1 envelope.2.1 envelope.2.2

/-
  The workers of a network have got some messages in their
  control queues, and nothing else has happened.
-/
structure Absorbed
    (net next : Network)
    (envelopes : List Envelope) : Prop where
  flight : next.flight = net.flight
  hosted : ∀ addr node, next.nodes.get addr = some node →
    ∃ old, net.nodes.get addr = some old
  nodes : ∀ addr node, net.nodes.get addr = some node →
    ∃ new, next.nodes.get addr = some new ∧
      new.state = node.state ∧
      new.control.map Packet.received =
        node.control.map Packet.received ++
          sentTo addr envelopes

/- Injecting one message queues it at its destination. -/
theorem absorbed_inject
    {net : Network}
    {src dst : SocketAddr}
    {msg : Message}
    {node : Node}
    (hNode : net.nodes.get dst = some node) :
    net.Absorbed
      { net.accept node (net.injection src dst msg) with
        injections := net.injections + 1 }
      [(src, dst, msg)] where
  flight := rfl
  hosted := by
    intro addr new hNew
    rcases HashMap.get_insert_cases hNew with
      ⟨hAddr, _⟩ | ⟨_, hSame⟩
    · rw [hAddr]
      exact ⟨node, hNode⟩
    · exact ⟨new, hSame⟩
  nodes := by
    intro addr old hOld
    by_cases hAddr : addr = dst
    · rw [hAddr, hNode, Option.some.injEq] at hOld
      rw [hAddr, ← hOld]
      refine ⟨_, HashMap.get_insert_self _ _ _, rfl, ?_⟩
      rw [List.map_append]
      simp [sentTo, Packet.received, injection]
    · have hNobody : ¬ dst = addr := fun h => hAddr h.symm
      refine
        ⟨old, (HashMap.get_insert_ne _ _ hAddr).trans hOld,
          rfl, ?_⟩
      simp [sentTo, hNobody]

/- Messages can be absorbed one after the other. -/
theorem Absorbed.trans
    {net mid next : Network}
    {first second : List Envelope}
    (hFirst : net.Absorbed mid first)
    (hSecond : mid.Absorbed next second) :
    net.Absorbed next (first ++ second) where
  flight := hSecond.flight.trans hFirst.flight
  hosted := by
    intro addr node hNode
    rcases hSecond.hosted addr node hNode with ⟨old, hOld⟩
    exact hFirst.hosted addr old hOld
  nodes := by
    intro addr node hNode
    rcases hFirst.nodes addr node hNode with
      ⟨old, hOld, hOldState, hOldControl⟩
    rcases hSecond.nodes addr old hOld with
      ⟨new, hNew, hState, hControl⟩
    refine ⟨new, hNew, hState.trans hOldState, ?_⟩
    rw [hControl, hOldControl, List.append_assoc]
    unfold sentTo
    rw [List.filterMap_append]

/- Admitted messages for workers can all be injected. -/
theorem exists_absorbed
    {d : Discipline}
    {net : Network}
    {envelopes : List Envelope}
    (hAdmits : ∀ envelope ∈ envelopes,
      d.admits envelope.2.2 = true)
    (hThere : ∀ envelope ∈ envelopes,
      ∃ node, net.nodes.get envelope.2.1 = some node) :
    ∃ next,
      exec d net (injecting envelopes) = some next ∧
        net.Absorbed next envelopes := by
  induction envelopes generalizing net with
  | nil =>
      refine ⟨net, rfl, rfl, ?_, ?_⟩
      · intro addr node hNode
        exact ⟨node, hNode⟩
      · intro addr node hNode
        refine ⟨node, hNode, rfl, ?_⟩
        simp [sentTo]
  | cons envelope rest ih =>
      rcases envelope with ⟨src, dst, msg⟩
      rcases hThere _ List.mem_cons_self with ⟨node, hNode⟩
      let mid : Network :=
        { net.accept node (net.injection src dst msg) with
          injections := net.injections + 1 }
      have hFirst : net.Absorbed mid [(src, dst, msg)] :=
        absorbed_inject hNode
      have hStep :
          step d net (.inject src dst msg) = some mid :=
        step_inject hNode (hAdmits _ List.mem_cons_self)
      have hRest : ∀ envelope ∈ rest,
          d.admits envelope.2.2 = true := by
        intro other hOther
        exact hAdmits other (List.mem_cons_of_mem _ hOther)
      have hStill : ∀ envelope ∈ rest,
          ∃ node, mid.nodes.get envelope.2.1 = some node := by
        intro other hOther
        rcases hThere other
            (List.mem_cons_of_mem _ hOther) with
          ⟨old, hOld⟩
        rcases hFirst.nodes _ old hOld with ⟨new, hNew, _⟩
        exact ⟨new, hNew⟩
      rcases ih hRest hStill with ⟨next, hExec, hAbsorbed⟩
      refine ⟨next, ?_, hFirst.trans hAbsorbed⟩
      unfold exec injecting
      rw [List.map_cons, Machine.exec_cons_eq_some_iff]
      exact ⟨_, hStep, hExec⟩

end Network

end WorldDat

------------------------------------------------------------
-- Prepared Simulations
------------------------------------------------------------

namespace WorldDat

open Rust

/-
  A worker to be created: what `add_new_worker` is given, the
  id that it draws and the bootstrap address at that time.
-/
structure Entrant where
  bootstrap : Option SocketAddr
  peerId : PeerId
  newcomer : Newcomer

namespace Entrant

/- The worker as it waits to be added. -/
def queued (self : Entrant) : QueuedWorker :=
  WorkerSim.queuedWorker self.bootstrap self.peerId
    self.newcomer

/- The worker as a worker of a network. -/
def peer (self : Entrant) : Peer where
  address := self.newcomer.address
  peerId := self.peerId
  hasher := self.newcomer.hasher

/- What waits in its control channel. -/
def startup (self : Entrant) : List Incoming :=
  match self.bootstrap with
  | none => []
  | some b => [(b, .ping self.peerId), (b, .findPeer self.peerId)]

/- Its start-up messages, with its address. -/
def greetings (self : Entrant) : List Envelope :=
  self.startup.map fun (src, msg) =>
    (src, self.newcomer.address, msg)

theorem control_queued (self : Entrant) :
    self.queued.2.1.control = self.startup := by
  rcases self with ⟨bootstrap, peerId, newcomer⟩
  cases bootstrap with
  | none => rfl
  | some b => rfl

theorem peerId_queued (self : Entrant) :
    self.queued.2.1.peerId = self.peerId := by
  rcases self with ⟨bootstrap, peerId, newcomer⟩
  cases bootstrap with
  | none => rfl
  | some b => rfl

theorem idle_queued (self : Entrant) :
    self.queued.2.1.thread =
        (Network.freshNode self.peer).state ∧
      self.queued.2.1.messages = [] ∧
      self.queued.2.1.unsent = [] ∧
      self.queued.2.1.sent = [] := by
  rcases self with ⟨bootstrap, peerId, newcomer⟩
  cases bootstrap with
  | none => exact ⟨rfl, rfl, rfl, rfl⟩
  | some b => exact ⟨rfl, rfl, rfl, rfl⟩

/- The start-up messages are requests. -/
theorem admits_of_mem_greetings
    {self : Entrant}
    {envelope : Envelope}
    (hEnvelope : envelope ∈ self.greetings) :
    Network.hostile.admits envelope.2.2 = true ∧
      envelope.2.1 = self.newcomer.address := by
  rcases self with ⟨bootstrap, peerId, newcomer⟩
  rcases List.mem_map.mp hEnvelope with
    ⟨⟨src, msg⟩, hIn, hSame⟩
  rw [← hSame]
  refine ⟨?_, rfl⟩
  cases bootstrap with
  | none => cases hIn
  | some b =>
      rcases List.mem_cons.mp hIn with hPing | hFind
      · cases hPing
        rfl
      · cases List.mem_singleton.mp hFind
        rfl

/- An entrant gets all of its own start-up messages. -/
theorem sentTo_greetings_self (self : Entrant) :
    sentTo self.newcomer.address self.greetings =
      self.startup := by
  unfold sentTo greetings
  rw [List.filterMap_map]
  simp

/- Nobody else gets any of them. -/
theorem sentTo_greetings_ne
    {self : Entrant}
    {addr : SocketAddr}
    (hOther : self.newcomer.address ≠ addr) :
    sentTo addr self.greetings = [] := by
  unfold sentTo
  rw [List.filterMap_eq_nil_iff]
  intro envelope hEnvelope
  apply if_neg
  rw [(admits_of_mem_greetings hEnvelope).2]
  exact hOther

/- Everybody gets exactly the own start-up messages. -/
theorem sentTo_flatMap_greetings
    {entrants : List Entrant}
    (hDistinct :
      (entrants.map fun entrant =>
        entrant.newcomer.address).Nodup)
    {entrant : Entrant}
    (hEntrant : entrant ∈ entrants) :
    sentTo entrant.newcomer.address
        (entrants.flatMap greetings) =
      entrant.startup := by
  induction entrants with
  | nil => cases hEntrant
  | cons first rest ih =>
      rw [List.map_cons, List.nodup_cons] at hDistinct
      have hSplit :
          sentTo entrant.newcomer.address
              ((first :: rest).flatMap greetings) =
            sentTo entrant.newcomer.address first.greetings ++
              sentTo entrant.newcomer.address
                (rest.flatMap greetings) := by
        unfold sentTo
        rw [List.flatMap_cons, List.filterMap_append]
      rw [hSplit]
      rcases List.mem_cons.mp hEntrant with hFirst | hRest
      · have hNobody :
            sentTo entrant.newcomer.address
              (rest.flatMap greetings) = [] := by
          unfold sentTo
          rw [List.filterMap_eq_nil_iff]
          intro envelope hEnvelope
          rcases List.mem_flatMap.mp hEnvelope with
            ⟨other, hOther, hGreeting⟩
          apply if_neg
          rw [(admits_of_mem_greetings hGreeting).2, hFirst]
          intro hSame
          apply hDistinct.1
          exact List.mem_map.mpr ⟨other, hOther, hSame⟩
        rw [hNobody, hFirst, sentTo_greetings_self,
          List.append_nil]
      · have hOther :
            first.newcomer.address ≠
              entrant.newcomer.address := by
          intro hSame
          apply hDistinct.1
          exact List.mem_map.mpr ⟨entrant, hRest, hSame.symm⟩
        rw [sentTo_greetings_ne hOther, ih hDistinct.2 hRest,
          List.nil_append]

end Entrant

/- What waits to be added has been created by the calls. -/
theorem WorkerSim.exists_entrants_prepare
    {R : Type}
    {newInsecureRandom : R → PeerId × R}
    {self sim : WorkerSim R}
    {calls : List WorkerSim.Call}
    (hSim : self.prepare newInsecureRandom calls = .ok sim) :
    ∃ entrants : List Entrant,
      sim.workerAddQueue =
        self.workerAddQueue ++
          entrants.map Entrant.queued := by
  induction calls generalizing self with
  | nil =>
      cases hSim
      exact ⟨[], (List.append_nil _).symm⟩
  | cons call calls ih =>
      cases call with
      | setBootstrap bootstrap =>
          rw [prepare] at hSim
          rcases ih hSim with ⟨entrants, hQueue⟩
          exact ⟨entrants, hQueue⟩
      | addNewWorker newcomer =>
          rw [prepare, addNewWorker_eq_ok] at hSim
          change
            (self.enqueue newInsecureRandom newcomer).prepare
              newInsecureRandom calls = .ok sim at hSim
          rcases ih hSim with ⟨entrants, hQueue⟩
          let entrant : Entrant :=
            { bootstrap := self.bootstrap
              peerId := (newInsecureRandom self.rng).1
              newcomer }
          refine ⟨entrant :: entrants, ?_⟩
          rw [hQueue, List.map_cons]
          exact List.append_assoc _ [entrant.queued] _

/- A prepared simulator has nobody but entrants that wait. -/
theorem WorkerSim.entrants_of_prepared
    {R : Type}
    {newInsecureRandom : R → PeerId × R}
    {hasher : RandomState SocketAddr WorkerHandle}
    {rng : R}
    {calls : List WorkerSim.Call}
    {sim : WorkerSim R}
    (hSim :
      (WorkerSim.new hasher rng).prepare newInsecureRandom
        calls = .ok sim) :
    ∃ entrants : List Entrant,
      (∀ addr, sim.workers.get addr = none) ∧
        sim.workerAddQueue =
          entrants.map Entrant.queued := by
  rcases exists_entrants_prepare hSim with
    ⟨entrants, hQueue⟩
  refine ⟨entrants, ?_, hQueue⟩
  intro addr
  rw [workers_prepare hSim]
  exact HashMap.get_new hasher addr

namespace Simulation

variable {R : Type}

/- The workers at the start are the entrants. -/
theorem hosts_start_iff
    {sim : WorkerSim R}
    {entrants : List Entrant}
    (hEmpty : ∀ addr, sim.workers.get addr = none)
    (hQueue :
      sim.workerAddQueue = entrants.map Entrant.queued)
    (addr : SocketAddr)
    (worker : WorkerHandle) :
    (start sim).Hosts addr worker ↔
      ∃ entrant ∈ entrants,
        entrant.newcomer.address = addr ∧
          entrant.queued.2.1 = worker := by
  have hSort : ∀ entry,
      entry ∈ WorkerSim.sortQueue sim.workerAddQueue ↔
        entry ∈ sim.workerAddQueue := by
    intro entry
    exact (List.perm_insertionSort _ _).mem_iff
  constructor
  · intro hHosts
    rcases hHosts with hGet | ⟨delay, hQueued⟩
    · change sim.workers.get addr = some worker at hGet
      rw [hEmpty] at hGet
      cases hGet
    · have hIn := (hSort _).mp hQueued
      rw [hQueue] at hIn
      rcases List.mem_map.mp hIn with
        ⟨entrant, hEntrant, hSame⟩
      exact
        ⟨entrant, hEntrant, congrArg Prod.fst hSame,
          congrArg (fun entry => entry.2.1) hSame⟩
  · intro hEntrant
    rcases hEntrant with ⟨entrant, hIn, hAddr, hWorker⟩
    refine Or.inr ⟨entrant.newcomer.delay, ?_⟩
    apply (hSort _).mpr
    rw [hQueue, ← hAddr, ← hWorker]
    exact List.mem_map_of_mem hIn

/-
  A simulation of entrants is a network whose workers have
  their start-up messages.
-/
theorem exists_mirrors_start
    {sim : WorkerSim R}
    {entrants : List Entrant}
    (hEmpty : ∀ addr, sim.workers.get addr = none)
    (hQueue :
      sim.workerAddQueue = entrants.map Entrant.queued)
    (hDistinct :
      (entrants.map fun entrant =>
        entrant.newcomer.address).Nodup)
    (hasher : RandomState SocketAddr Node) :
    ∃ net,
      Network.exec Network.assembling
          (Network.start hasher (entrants.map Entrant.peer))
          (Network.injecting
            (entrants.flatMap Entrant.greetings)) =
        some net ∧
      (start sim).Mirrors net := by
  have hHosts := hosts_start_iff hEmpty hQueue
  have hNodup :
      ((entrants.map Entrant.peer).map
        Peer.address).Nodup := by
    rw [List.map_map]
    exact hDistinct
  have hThere : ∀ entrant ∈ entrants,
      (Network.start hasher
          (entrants.map Entrant.peer)).nodes.get
          entrant.newcomer.address =
        some (Network.freshNode entrant.peer) := by
    intro entrant hEntrant
    exact
      Network.get_start hNodup (List.mem_map_of_mem hEntrant)
  have hAdmits :
      ∀ envelope ∈ entrants.flatMap Entrant.greetings,
        Network.assembling.admits envelope.2.2 = true := by
    intro envelope hEnvelope
    rcases List.mem_flatMap.mp hEnvelope with
      ⟨entrant, _, hIn⟩
    exact (Entrant.admits_of_mem_greetings hIn).1
  have hReceivers :
      ∀ envelope ∈ entrants.flatMap Entrant.greetings,
        ∃ node,
          (Network.start hasher
              (entrants.map Entrant.peer)).nodes.get
              envelope.2.1 =
            some node := by
    intro envelope hEnvelope
    rcases List.mem_flatMap.mp hEnvelope with
      ⟨entrant, hEntrant, hIn⟩
    rw [(Entrant.admits_of_mem_greetings hIn).2]
    exact ⟨_, hThere entrant hEntrant⟩
  rcases Network.exists_absorbed hAdmits hReceivers with
    ⟨net, hExec, hAbsorbed⟩
  refine ⟨net, hExec, ?_⟩
  constructor
  case nodes =>
    intro addr worker hWorker
    rcases (hHosts addr worker).mp hWorker with
      ⟨entrant, hEntrant, hAddr, hSame⟩
    rcases hAbsorbed.nodes _ _ (hThere entrant hEntrant) with
      ⟨node, hNode, hState, hControl⟩
    rw [← hAddr, ← hSame]
    refine ⟨node, hNode, ?_, ?_⟩
    · rw [hState, entrant.idle_queued.1]
    · rw [hControl, entrant.control_queued,
        Entrant.sentTo_flatMap_greetings hDistinct hEntrant]
      rfl
  case hosted =>
    intro addr node hNode
    rcases hAbsorbed.hosted addr node hNode with
      ⟨old, hOld⟩
    rcases Network.exists_peer_of_get_start hOld with
      ⟨peer, hPeer, hAddr, _⟩
    rcases List.mem_map.mp hPeer with
      ⟨entrant, hEntrant, hSame⟩
    rw [← hSame] at hAddr
    exact
      ⟨_, (hHosts addr _).mpr ⟨entrant, hEntrant, hAddr, rfl⟩⟩
  case flight =>
    intro src worker hWorker
    rcases (hHosts src worker).mp hWorker with
      ⟨entrant, _, _, hSame⟩
    rcases entrant.idle_queued with
      ⟨_, hChannel, hUnsent, _⟩
    rw [hAbsorbed.flight, ← hSame, hChannel, hUnsent]
    rfl
  case senders =>
    intro packet hPacket
    rw [hAbsorbed.flight] at hPacket
    cases hPacket
  case collected =>
    intro envelope hEnvelope
    cases hEnvelope

/- Entrants at distinct addresses are placed. -/
theorem placed_start_of_empty
    {sim : WorkerSim R}
    (hEmpty : ∀ addr, sim.workers.get addr = none)
    (hDistinct : (sim.workerAddQueue.map Prod.fst).Nodup) :
    (start sim).Placed where
  nodup := by
    have hSort :
        (WorkerSim.sortQueue sim.workerAddQueue).Perm
          sim.workerAddQueue :=
      List.perm_insertionSort _ _
    exact ((hSort.map Prod.fst).nodup_iff).mpr hDistinct
  apart := by
    intro entry _
    exact hEmpty entry.1

/-
  Every run of a prepared simulator is matched by a run of a
  network of its workers.
-/
theorem exists_network_of_prepared
    {newInsecureRandom : R → PeerId × R}
    {hasher : RandomState SocketAddr WorkerHandle}
    {rng : R}
    {calls : List WorkerSim.Call}
    {sim : WorkerSim R}
    (hSim :
      (WorkerSim.new hasher rng).prepare newInsecureRandom
        calls = .ok sim)
    (hDistinct : (sim.workerAddQueue.map Prod.fst).Nodup)
    {ticks : List Tick}
    {final : Simulation R}
    (hExec : (start sim).exec ticks = some final)
    (nodeHasher : RandomState SocketAddr Node) :
    ∃ (entrants : List Entrant) (choices : List Choice)
        (net : Network),
      sim.workerAddQueue = entrants.map Entrant.queued ∧
        Network.exec Network.assembling
            (Network.start nodeHasher
              (entrants.map Entrant.peer))
            (Network.injecting
                (entrants.flatMap Entrant.greetings) ++
              choices) =
          some net ∧
        (∀ choice ∈ choices, Unprompted choice) ∧
        final.Mirrors net := by
  rcases WorkerSim.entrants_of_prepared hSim with
    ⟨entrants, hEmpty, hQueue⟩
  have hAddresses :
      (entrants.map fun entrant =>
        entrant.newcomer.address).Nodup := by
    rw [hQueue, List.map_map] at hDistinct
    exact hDistinct
  rcases exists_mirrors_start hEmpty hQueue hAddresses
      nodeHasher with
    ⟨first, hFirst, hMirrors⟩
  rcases refines_network.exists_exec hExec
      ⟨placed_start_of_empty hEmpty hDistinct, hMirrors⟩ with
    ⟨choices, net, hRest, hUnprompted, _, hFinal⟩
  refine
    ⟨entrants, choices, net, hQueue, ?_, hUnprompted, hFinal⟩
  unfold Network.exec
  rw [Machine.exec_append_eq_some_iff]
  exact ⟨first, hFirst, hRest⟩

end Simulation

end WorldDat

------------------------------------------------------------
-- Messages Of A Simulation
------------------------------------------------------------

namespace WorldDat

open Rust

namespace Simulation

variable {R : Type}

/- A worker with the id is at the address. -/
def Runs
    (self : Simulation R)
    (id : PeerId)
    (addr : SocketAddr) : Prop :=
  ∃ worker, self.Hosts addr worker ∧
    worker.thread.peerId = id

/-
  A message is in one of the queues: collected, to be
  handled, in the channel of a worker or yet to be sent.
-/
inductive Carries
    (self : Simulation R)
    (msg : Message) : Prop where
| collected
    (src dst : SocketAddr)
    (hMessages : (src, dst, msg) ∈ self.messages)
| control
    (addr src : SocketAddr)
    (worker : WorkerHandle)
    (hHosts : self.Hosts addr worker)
    (hControl : (src, msg) ∈ worker.control)
| channel
    (addr dst : SocketAddr)
    (worker : WorkerHandle)
    (hHosts : self.Hosts addr worker)
    (hChannel : (dst, msg) ∈ worker.messages)
| unsent
    (addr dst : SocketAddr)
    (worker : WorkerHandle)
    (hHosts : self.Hosts addr worker)
    (hUnsent : (dst, msg) ∈ worker.unsent)

variable {run : Simulation R}
variable {net : Network}

/- The network runs the workers of the simulation. -/
theorem Mirrors.runs
    (hMirrors : run.Mirrors net)
    {id : PeerId}
    {addr : SocketAddr}
    (hRuns : net.Runs id addr) :
    run.Runs id addr := by
  rcases hRuns with ⟨node, hNode, hId⟩
  rcases hMirrors.hosted addr node hNode with
    ⟨worker, hWorker⟩
  rcases hMirrors.nodes addr worker hWorker with
    ⟨same, hSame, hState, _⟩
  rw [hNode, Option.some.injEq] at hSame
  refine ⟨worker, hWorker, ?_⟩
  rw [← hState, ← hSame, hId]

/- What an address has sent is what has it as its source. -/
theorem mem_fromSource_iff
    (src dst : SocketAddr)
    (msg : Message)
    (packets : List Packet) :
    (dst, msg) ∈ Packet.fromSource src packets ↔
      ∃ packet ∈ packets,
        packet.source = src ∧ packet.destination = dst ∧
          packet.message = msg := by
  unfold Packet.fromSource
  rw [List.mem_filterMap]
  constructor
  · intro hOut
    rcases hOut with ⟨packet, hPacket, hHere⟩
    by_cases hSource : packet.source = src
    · rw [if_pos hSource, Option.some.injEq,
        Prod.mk.injEq] at hHere
      exact ⟨packet, hPacket, hSource, hHere⟩
    · rw [if_neg hSource] at hHere
      cases hHere
  · intro hPacket
    rcases hPacket with
      ⟨packet, hPacket, hSource, hDest, hMessage⟩
    refine ⟨packet, hPacket, ?_⟩
    rw [if_pos hSource, hDest, hMessage]

/- Whatever is in a queue of the simulation is pending. -/
theorem Mirrors.exists_pending
    (hMirrors : run.Mirrors net)
    {msg : Message}
    (hCarries : run.Carries msg) :
    ∃ packet ∈ net.pending, packet.message = msg := by
  have hFlight : ∀ src worker dst,
      run.Hosts src worker →
        (dst, msg) ∈
          sentBy src run.messages ++
            (worker.messages ++ worker.unsent) →
          ∃ packet ∈ net.pending, packet.message = msg := by
    intro src worker dst hWorker hOut
    rw [← hMirrors.flight src worker hWorker] at hOut
    rcases (mem_fromSource_iff _ _ _ _).mp hOut with
      ⟨packet, hPacket, _, _, hMessage⟩
    exact
      ⟨packet, List.mem_append_left _ hPacket, hMessage⟩
  cases hCarries with
  | collected src dst hMessages =>
      rcases hMirrors.collected _ hMessages with
        ⟨worker, hWorker⟩
      apply hFlight src worker dst hWorker
      apply List.mem_append_left
      unfold sentBy
      rw [List.mem_filterMap]
      exact ⟨_, hMessages, if_pos rfl⟩
  | control addr src worker hHosts hControl =>
      rcases hMirrors.nodes addr worker hHosts with
        ⟨node, hNode, _, hQueue⟩
      rw [← hQueue] at hControl
      rcases List.mem_map.mp hControl with
        ⟨packet, hPacket, hReceived⟩
      refine ⟨packet, ?_, congrArg Prod.snd hReceived⟩
      apply List.mem_append_right
      rw [Network.mem_queued_iff]
      exact ⟨addr, node, hNode, hPacket⟩
  | channel addr dst worker hHosts hChannel =>
      apply hFlight addr worker dst hHosts
      apply List.mem_append_right
      exact List.mem_append_left _ hChannel
  | unsent addr dst worker hHosts hUnsent =>
      apply hFlight addr worker dst hHosts
      apply List.mem_append_right
      exact List.mem_append_right _ hUnsent

/- Whatever is pending is in a queue of the simulation. -/
theorem Mirrors.carries
    (hMirrors : run.Mirrors net)
    {packet : Packet}
    (hPending : packet ∈ net.pending) :
    run.Carries packet.message := by
  rcases List.mem_append.mp hPending with hFlight | hQueued
  · rcases hMirrors.senders packet hFlight with
      ⟨worker, hWorker⟩
    have hOut :
        (packet.destination, packet.message) ∈
          Packet.fromSource packet.source net.flight :=
      (mem_fromSource_iff _ _ _ _).mpr
        ⟨packet, hFlight, rfl, rfl, rfl⟩
    rw [hMirrors.flight _ worker hWorker] at hOut
    rcases List.mem_append.mp hOut with hIn | hOut
    · rcases List.mem_filterMap.mp hIn with
        ⟨⟨src, out⟩, hEnvelope, hHere⟩
      by_cases hSource : src = packet.source
      · rw [if_pos hSource, Option.some.injEq] at hHere
        have hOutgoing :
            out = (packet.destination, packet.message) :=
          hHere
        rw [hOutgoing] at hEnvelope
        exact .collected _ _ hEnvelope
      · rw [if_neg hSource] at hHere
        cases hHere
    · rcases List.mem_append.mp hOut with hChannel | hUnsent
      · exact .channel _ _ worker hWorker hChannel
      · exact .unsent _ _ worker hWorker hUnsent
  · rcases (Network.mem_queued_iff net packet).mp hQueued with
      ⟨addr, node, hNode, hControl⟩
    rcases hMirrors.hosted addr node hNode with
      ⟨worker, hWorker⟩
    rcases hMirrors.nodes addr worker hWorker with
      ⟨same, hSame, _, hQueue⟩
    rw [hNode, Option.some.injEq] at hSame
    rw [← hSame] at hQueue
    refine .control addr packet.source worker hWorker ?_
    rw [← hQueue]
    exact List.mem_map_of_mem hControl

end Simulation

end WorldDat

------------------------------------------------------------
-- The Simulator Program
------------------------------------------------------------

namespace WorldDat

open Rust

/- The calls of `heckin_simulator` before it calls `run`. -/
def heckinCalls
    (hasher : PeerHasher) : List WorkerSim.Call :=
  [ .setBootstrap (.v4 0x0A000001 4433)
  , .addNewWorker
      { address := .v4 0x0A000001 4433, delay := 0, hasher }
  , .addNewWorker
      { address := .v4 0x0A000002 4433
        delay := 2000000000
        hasher }
  , .addNewWorker
      { address := .v4 0x0A000003 4433
        delay := 10000000000
        hasher } ]

namespace Simulation

variable {R : Type}

/- `heckin_simulator`, up to the loop of `run`. -/
def heckinSimulator
    (newInsecureRandom : R → PeerId × R)
    (hasher : RandomState SocketAddr WorkerHandle)
    (peerHasher : PeerHasher)
    (rng : R) : Except Panic (Simulation R) := do
  let sim ←
    (WorkerSim.new hasher rng).prepare newInsecureRandom
      (heckinCalls peerHasher)
  return start sim

/-
  Every run of a prepared simulator is a run of a network of
  its workers, in which messages arrive in order or are lost
  and nothing but the start-up messages is injected.  The
  workers are in the same states, and what is pending is what
  is in the queues of the simulator.
-/
theorem prepared_refines_network
    (newInsecureRandom : R → PeerId × R)
    (hasher : RandomState SocketAddr WorkerHandle)
    (rng : R)
    (calls : List WorkerSim.Call)
    {sim : WorkerSim R}
    (hSim :
      (WorkerSim.new hasher rng).prepare newInsecureRandom
        calls = .ok sim)
    (hDistinct : (sim.workerAddQueue.map Prod.fst).Nodup)
    {ticks : List Tick}
    {final : Simulation R}
    (hExec : (start sim).exec ticks = some final)
    (nodeHasher : RandomState SocketAddr Node) :
    ∃ (entrants : List Entrant) (choices : List Choice)
        (net : Network),
      sim.workerAddQueue = entrants.map Entrant.queued ∧
        Network.exec Network.assembling
            (Network.start nodeHasher
              (entrants.map Entrant.peer))
            (Network.injecting
                (entrants.flatMap Entrant.greetings) ++
              choices) =
          some net ∧
        (∀ choice ∈ choices, Unprompted choice) ∧
        final.Mirrors net ∧
        ∀ msg, final.Carries msg ↔
          ∃ packet ∈ net.pending, packet.message = msg := by
  rcases exists_network_of_prepared hSim hDistinct hExec
      nodeHasher with
    ⟨entrants, choices, net, hQueue, hRun, hUnprompted,
      hMirrors⟩
  refine
    ⟨entrants, choices, net, hQueue, hRun, hUnprompted,
      hMirrors, ?_⟩
  intro msg
  constructor
  · intro hCarries
    exact hMirrors.exists_pending hCarries
  · intro hPending
    rcases hPending with ⟨packet, hPacket, hMessage⟩
    rw [← hMessage]
    exact hMirrors.carries hPacket

/-
  The three workers of the program are added, answer their
  start-up messages, and the first one handles the answers.
-/
def heckinTicks : List Tick :=
  let addr := fun last => SocketAddr.v4 (0x0A000000 + last) 4433
  List.replicate 4 (.workQueued 1) ++ [.clock 10000000] ++
    List.replicate 3 .advance ++ [.clock 2010000000] ++
    List.replicate 8 .advance ++ [.clock 10020000000] ++
    List.replicate 4 (.work (addr 1)) ++
    List.replicate 4 (.work (addr 3)) ++
    List.replicate 13 .advance ++
    List.replicate 6 (.work (addr 1))

/-
  The program runs its three workers until there is nothing
  to do.
-/
theorem exists_heckin_run :
    ∃ sim final,
      (WorkerSim.new
          (RandomState.insertionOrder SocketAddr WorkerHandle)
          0).prepare nextPeerId
            (heckinCalls
              (RandomState.insertionOrder PeerId
                SocketAddr)) = .ok sim ∧
        heckinSimulator nextPeerId
            (RandomState.insertionOrder SocketAddr
              WorkerHandle)
            (RandomState.insertionOrder PeerId SocketAddr)
            0 =
          .ok (start sim) ∧
        (sim.workerAddQueue.map Prod.fst).Nodup ∧
        (sim.workerAddQueue.map fun entry =>
          entry.2.1.peerId).Nodup ∧
        (start sim).exec heckinTicks = some final ∧
        final.Quiescent := by
  let idle := fun (entry : SocketAddr × WorkerHandle) =>
    decide (entry.2.control = [] ∧ entry.2.unsent = [] ∧
      entry.2.messages = [])
  have hRuns :
      ((WorkerSim.new
          (RandomState.insertionOrder SocketAddr WorkerHandle)
          0).prepare nextPeerId
            (heckinCalls
              (RandomState.insertionOrder PeerId
                SocketAddr))).toOption.any
        (fun sim =>
          decide
              ((sim.workerAddQueue.map Prod.fst).Nodup ∧
                (sim.workerAddQueue.map fun entry =>
                  entry.2.1.peerId).Nodup) &&
            ((start sim).exec heckinTicks).any fun final =>
              decide
                  (final.sim.workerAddQueue.length = 0 ∧
                    final.messages = []) &&
                final.sim.workers.iter.all idle) := by
    decide +kernel
  cases hSim :
      (WorkerSim.new
        (RandomState.insertionOrder SocketAddr WorkerHandle)
        0).prepare nextPeerId
          (heckinCalls
            (RandomState.insertionOrder PeerId
              SocketAddr)) with
  | error panic =>
      rw [hSim] at hRuns
      cases hRuns
  | ok sim =>
      rw [hSim] at hRuns
      simp only [Except.toOption, Option.any_some,
        Bool.and_eq_true, decide_eq_true_eq,
        Option.any_eq_true] at hRuns
      rcases hRuns with
        ⟨⟨hDistinct, hIds⟩, final, hExec,
          ⟨hQueue, hMessages⟩, hIdle⟩
      have hProgram :
          heckinSimulator nextPeerId
              (RandomState.insertionOrder SocketAddr
                WorkerHandle)
              (RandomState.insertionOrder PeerId SocketAddr)
              0 =
            .ok (start sim) := by
        unfold heckinSimulator
        rw [hSim]
        rfl
      refine
        ⟨sim, final, rfl, hProgram, hDistinct, hIds, hExec,
          ?_⟩
      refine
        ⟨List.eq_nil_of_length_eq_zero hQueue, hMessages, ?_⟩
      intro addr worker hGet
      have hEntry : (addr, worker) ∈ final.sim.workers.iter :=
        (HashMap.mem_iter_iff _ _ _).mpr hGet
      exact
        of_decide_eq_true
          (List.all_eq_true.mp hIdle _ hEntry)

theorem prepared_refines_network_heckin :
    ∃ (sim : WorkerSim Nat) (final : Simulation Nat)
        (entrants : List Entrant) (choices : List Choice)
        (net : Network),
      (start sim).exec heckinTicks = some final ∧
        sim.workerAddQueue = entrants.map Entrant.queued ∧
        Network.exec Network.assembling
            (Network.start
              (RandomState.insertionOrder SocketAddr Node)
              (entrants.map Entrant.peer))
            (Network.injecting
                (entrants.flatMap Entrant.greetings) ++
              choices) =
          some net ∧
        (∀ choice ∈ choices, Unprompted choice) ∧
        final.Mirrors net ∧
        ∀ msg, final.Carries msg ↔
          ∃ packet ∈ net.pending, packet.message = msg := by
  rcases exists_heckin_run with
    ⟨sim, final, hSim, _, hDistinct, _, hExec, _⟩
  rcases prepared_refines_network nextPeerId _ 0 _ hSim
      hDistinct hExec
      (RandomState.insertionOrder SocketAddr Node) with
    ⟨entrants, choices, net, hRefined⟩
  exact ⟨sim, final, entrants, choices, net, hExec, hRefined⟩

end Simulation

end WorldDat
