import WorldDat.Listing.Granted
import WorldDat.Network.Basic

/-
  No ping storms.

  A worker that pings back sends its pong first.  If messages
  between two workers arrive in the order of sending, the
  pong has told the receiver who is pinging, and the ping is
  answered by a pong alone.

  The potential of a packet bounds the number of messages
  that it leads to.

  Main declarations:
    * `Network.reliable`
    * `Network.Announced` and `Network.announced_step`
    * `Packet.potential` and `Network.potential_sent`
    * `Network.no_ping_storm`
-/

------------------------------------------------------------
-- Reliable Networks
------------------------------------------------------------

namespace WorldDat

open Rust

/- A message that asks its receiver for a pong. -/
def Message.isPing : Message → Bool
| .ping _ => true
| .pong _ => false
| .findPeer _ => false
| .findPeerResponsePeerFound _ _ => false
| .findPeerResponsePeerNotFound _ _ => false

/- A choice of the environment, not of the network. -/
def Choice.isInject : Choice → Bool
| .inject _ _ _ => true
| .handle _ => false
| .deliver _ => false
| .lose _ => false
| .duplicate _ => false

namespace Packet

/- Pings use the id of their sender. -/
def Asks (packet : Packet) (id : PeerId) : Prop :=
  packet.message = .ping id

/- Pongs grant the id of their sender. -/
def Tells (packet : Packet) (id : PeerId) : Prop :=
  packet.message = .pong id

/- A packet that the worker at an address has sent. -/
def sentBy
    (source : SocketAddr)
    (packet : Packet) : Bool :=
  !packet.injected && packet.source == source

/- A packet that one worker has sent to another. -/
def sentFromTo
    (source destination : SocketAddr)
    (packet : Packet) : Bool :=
  packet.sentBy source && packet.destination == destination

/- A packet from one worker to another is between them. -/
theorem between_of_sentFromTo
    {source destination : SocketAddr}
    {packet : Packet}
    (hSent : packet.sentFromTo source destination) :
    packet.Between source destination := by
  simp only [sentFromTo, sentBy, Bool.and_eq_true,
    beq_iff_eq] at hSent
  exact ⟨hSent.1.2, hSent.2⟩

end Packet

namespace Network

/-
  The discipline of a reliable network: anything may be put
  into control queues, nothing in flight is lost or
  duplicated, and packets between two addresses arrive in
  the order of sending.
-/
def reliable : Discipline where
  admits := fun _ => true
  fifo := true
  lossy := false
  duplicating := false

/- Nothing has happened and nothing is about to happen. -/
structure Idle (net : Network) : Prop where
  pending : net.pending = []
  log : net.log = []

/- Freshly started workers are idle. -/
theorem idle_start
    (hasher : RandomState SocketAddr Node)
    (peers : List Peer) :
    (start hasher peers).Idle where
  pending := pending_start hasher peers
  log := rfl

end Network

end WorldDat

------------------------------------------------------------
-- Announced Pings
------------------------------------------------------------

namespace WorldDat

open Rust

namespace WorkerState

/- Every reply goes back to where the message came from. -/
theorem destination_of_mem_replies
    {self : WorkerState}
    {source : SocketAddr}
    {msg : Message}
    {out : Outgoing}
    (hOut : out ∈ self.replies (source, msg)) :
    out.1 = source := by
  cases reply_of_mem_replies hOut with
  | pong => rfl
  | ping => rfl
  | answer => rfl

end WorkerState

namespace Network

/-
  What the worker at `source` has sent to `node`, in the
  order in which `node` is going to handle it.
-/
def stream
    (net : Network)
    (source destination : SocketAddr)
    (node : Node) : List Packet :=
  node.control.filter (Packet.sentBy source) ++
    net.flight.filter (Packet.sentFromTo source destination)

/-
  No worker pings a peer that will not have learned the
  worker's id by then.
-/
def Announced (net : Network) : Prop :=
  ∀ source destination node,
    net.nodes.get destination = some node →
      Listing.Granted Packet.Asks Packet.Tells
        node.state.Knows
        (net.stream source destination node)

/- A worker announces itself before it pings. -/
theorem granted_sent
    (self : WorkerState)
    (worker : SocketAddr)
    (packet : Packet) :
    Listing.Granted Packet.Asks Packet.Tells
      (fun _ => False)
      ((self.replies
          (packet.source, packet.message)).map
        (packet.reply worker)) := by
  cases hMessage : packet.message with
  | ping otherId =>
      cases hKnown : self.known otherId with
      | none =>
          simp [WorkerState.replies, hKnown, Packet.reply,
            Listing.Granted, Packet.Asks, Packet.Tells]
      | some addr =>
          simp [WorkerState.replies, hKnown, Packet.reply,
            Listing.Granted, Packet.Asks]
  | findPeer desiredId =>
      cases hKnown : self.known desiredId with
      | none =>
          simp [WorkerState.replies, WorkerState.answer,
            hKnown, Packet.reply, Listing.Granted,
            Packet.Asks]
      | some addr =>
          simp [WorkerState.replies, WorkerState.answer,
            hKnown, Packet.reply, Listing.Granted,
            Packet.Asks]
  | pong otherId => simp [WorkerState.replies]
  | findPeerResponsePeerFound id addr =>
      simp [WorkerState.replies]
  | findPeerResponsePeerNotFound id neighbors =>
      simp [WorkerState.replies]

/- What a worker sends at once, it sends to one receiver. -/
theorem granted_filter_sent
    (self : WorkerState)
    (worker source destination : SocketAddr)
    (packet : Packet) :
    Listing.Granted Packet.Asks Packet.Tells
      (fun _ => False)
      (((self.replies
          (packet.source, packet.message)).map
        (packet.reply worker)).filter
        (Packet.sentFromTo source destination)) := by
  have hAll : ∀ sent ∈
      (self.replies (packet.source, packet.message)).map
        (packet.reply worker),
      sent.sentFromTo source destination =
        (worker == source &&
          packet.source == destination) := by
    intro sent hSent
    rcases List.mem_map.mp hSent with ⟨out, hOut, hReply⟩
    rw [← hReply, ←
      WorkerState.destination_of_mem_replies hOut]
    rfl
  cases hSame :
      (worker == source && packet.source == destination) with
  | true =>
      rw [List.filter_eq_self.mpr]
      · exact granted_sent self worker packet
      · intro sent hSent
        rw [hAll sent hSent, hSame]
  | false =>
      rw [List.filter_eq_nil_iff.mpr]
      · exact Listing.granted_nil _
      · intro sent hSent
        rw [hAll sent hSent, hSame]
        exact Bool.false_ne_true

/- A reliable network keeps announcing pings. -/
theorem announced_step
    {net next : Network}
    (hAnnounced : net.Announced)
    (hStep : Step reliable net next) :
    next.Announced := by
  intro source destination node hNode
  cases hStep with
  | inject from' addr message old hOld hAdmits =>
      rcases HashMap.get_insert_cases hNode with
        ⟨hAddr, hNew⟩ | ⟨_, hSame⟩
      · have hStream :=
          hAnnounced source destination old (hAddr ▸ hOld)
        rw [hNew]
        simpa [stream, accept, injection, Packet.sentBy]
          using hStream
      · exact hAnnounced source destination node hSame
  | handle worker state packet rest hWorker =>
      have hSent :=
        granted_filter_sent state worker source destination
          packet
      rcases HashMap.get_insert_cases hNode with
        ⟨hAddr, hNew⟩ | ⟨_, hSame⟩
      · have hStream :=
          hAnnounced source destination _ (hAddr ▸ hWorker)
        have hRest :
            Listing.Granted Packet.Asks Packet.Tells
              (state.after
                (packet.source, packet.message)).Knows
              (rest.filter (Packet.sentBy source) ++
                net.flight.filter
                  (Packet.sentFromTo source
                    destination)) := by
          by_cases hKeep : packet.sentBy source
          · rw [stream, List.filter_cons_of_pos hKeep,
              List.cons_append] at hStream
            apply hStream.2.mono
            intro id
            exact WorkerState.knows_after
          · rw [stream,
              List.filter_cons_of_neg hKeep] at hStream
            apply hStream.mono
            intro id hKnows
            apply WorkerState.knows_after
            exact Or.inl hKnows
        rw [hNew]
        simpa [stream, worked] using hRest.append hSent
      · have hStream :=
          hAnnounced source destination node hSame
        simpa [stream, worked] using hStream.append hSent
  | deliver front packet back old hFlight hFifo hOld =>
      rcases HashMap.get_insert_cases hNode with
        ⟨hAddr, hNew⟩ | ⟨hOther, hSame⟩
      · have hStream :=
          hAnnounced source destination old (hAddr ▸ hOld)
        rw [stream, hFlight] at hStream
        rw [hNew]
        by_cases hKeep : packet.sentBy source
        · have hTo :
              packet.sentFromTo source destination := by
            simp [Packet.sentFromTo, hKeep, hAddr]
          have hPacket := Packet.between_of_sentFromTo hTo
          have hFirst : ∀ earlier ∈ front,
              ¬ earlier.sentFromTo source destination := by
            intro earlier hEarlier hSent
            have hBetween :=
              Packet.between_of_sentFromTo hSent
            rw [← hPacket.1, ← hPacket.2] at hBetween
            exact hFifo rfl earlier hEarlier hBetween
          rw [Listing.filter_append_cons_of_first hTo
            hFirst] at hStream
          simpa [stream, accept, hKeep] using hStream
        · have hDrop :
              ¬ packet.sentFromTo source destination := by
            simp [Packet.sentFromTo, hKeep]
          rw [Listing.filter_append_cons_of_neg hDrop] at hStream
          simpa [stream, accept, hKeep] using hStream
      · have hStream :=
          hAnnounced source destination node hSame
        have hDrop :
            ¬ packet.sentFromTo source destination := by
          intro hSent
          exact
            hOther
              (Packet.between_of_sentFromTo hSent).2.symm
        rw [stream, hFlight,
          Listing.filter_append_cons_of_neg hDrop] at hStream
        exact hStream
  | vanish front packet back hFlight hGone =>
      have hStream :=
        hAnnounced source destination node hNode
      have hDrop :
          ¬ packet.sentFromTo source destination := by
        intro hSent
        rw [(Packet.between_of_sentFromTo hSent).2,
          hNode] at hGone
        cases hGone
      rw [stream, hFlight,
        Listing.filter_append_cons_of_neg hDrop] at hStream
      exact hStream
  | lose front packet back hFlight hLossy => cases hLossy
  | duplicate packet hPacket hDuplicating =>
      cases hDuplicating

end Network

end WorldDat

------------------------------------------------------------
-- Quiet Receivers
------------------------------------------------------------

namespace WorldDat

open Rust

/- If the handled packet is another worker's ping, it led to
   no ping. -/
def Handled.Quiet (handled : Handled) : Prop :=
  handled.packet.injected = false →
    handled.packet.message.isPing = true →
      ∀ sent ∈ handled.sent, sent.message.isPing = false

namespace Network

/- A ping of another worker comes from a known peer. -/
theorem Announced.knows
    {net : Network}
    (hAnnounced : net.Announced)
    {worker : SocketAddr}
    {state : WorkerState}
    {packet : Packet}
    {rest : List Packet}
    (hNode :
      net.nodes.get worker =
        some { state, control := packet :: rest }) :
    packet.injected = false →
      ∀ id, packet.Asks id → state.Knows id := by
  intro hRelayed id hAsks
  have hStream := hAnnounced packet.source worker _ hNode
  have hKeep : packet.sentBy packet.source := by
    simp [Packet.sentBy, hRelayed]
  rw [stream, List.filter_cons_of_pos hKeep,
    List.cons_append] at hStream
  exact hStream.1 id hAsks

/- A ping of a known peer is answered by a pong alone. -/
theorem quiet_worked
    {worker : SocketAddr}
    {state : WorkerState}
    {packet : Packet}
    (hKnows :
      packet.injected = false →
        ∀ id, packet.Asks id → state.Knows id) :
    Handled.Quiet
      { worker
        packet
        sent :=
          (state.replies
            (packet.source, packet.message)).map
            (packet.reply worker) } := by
  intro hRelayed hPing sent hSent
  rcases List.mem_map.mp hSent with ⟨out, hOut, hReply⟩
  have hRelayed' : packet.injected = false := hRelayed
  cases hMessage : packet.message with
  | ping id =>
      have hKnown := hKnows hRelayed' id hMessage
      rcases Option.isSome_iff_exists.mp hKnown with
        ⟨addr, hAddr⟩
      simp only [hMessage, WorkerState.replies, hAddr,
        List.mem_singleton] at hOut
      rw [← hReply, hOut]
      rfl
  | pong id => simp [hMessage, Message.isPing] at hPing
  | findPeer id => simp [hMessage, Message.isPing] at hPing
  | findPeerResponsePeerFound id addr =>
      simp [hMessage, Message.isPing] at hPing
  | findPeerResponsePeerNotFound id neighbors =>
      simp [hMessage, Message.isPing] at hPing

/- A step logs at most one handled packet. -/
theorem quiet_step
    {net next : Network}
    (hAnnounced : net.Announced)
    (hQuiet : ∀ handled ∈ net.log, handled.Quiet)
    (hStep : Step reliable net next) :
    ∀ handled ∈ next.log, handled.Quiet := by
  cases hStep with
  | handle worker state packet rest hNode =>
      intro handled hHandled
      rcases List.mem_append.mp hHandled with hOld | hNew
      · exact hQuiet handled hOld
      · rw [List.mem_singleton.mp hNew]
        apply quiet_worked
        exact hAnnounced.knows hNode
  | inject => exact hQuiet
  | deliver => exact hQuiet
  | vanish => exact hQuiet
  | lose => exact hQuiet
  | duplicate => exact hQuiet

end Network

end WorldDat

------------------------------------------------------------
-- Potentials
------------------------------------------------------------

namespace WorldDat

open Rust

namespace Packet

/- The number of messages that a packet may still lead to. -/
def potential (packet : Packet) : Nat :=
  match packet.message with
  | .ping _ => if packet.injected then 3 else 1
  | .findPeer _ => 1
  | .pong _ => 0
  | .findPeerResponsePeerFound _ _ => 0
  | .findPeerResponsePeerNotFound _ _ => 0

theorem potential_le (packet : Packet) :
    packet.potential ≤ 3 := by
  unfold potential
  split
  · split <;> omega
  all_goals omega

/- The part of the potential that counts for one origin. -/
def share (origin : Nat) (packet : Packet) : Nat :=
  if packet.origin = origin then packet.potential else 0

end Packet

namespace Network

/- Each message that a worker sends uses up potential. -/
theorem potential_sent
    (worker : SocketAddr)
    {state : WorkerState}
    {packet : Packet}
    (hKnows :
      packet.injected = false →
        ∀ id, packet.Asks id → state.Knows id) :
    let sent :=
      (state.replies (packet.source, packet.message)).map
        (packet.reply worker)
    sent.length + (sent.map Packet.potential).sum ≤
      packet.potential := by
  cases hMessage : packet.message with
  | ping id =>
      cases hKnown : state.known id with
      | some addr =>
          cases hInjected : packet.injected with
          | false =>
              simp [WorkerState.replies, hKnown,
                Packet.reply, Packet.potential, hMessage,
                hInjected]
          | true =>
              simp [WorkerState.replies, hKnown,
                Packet.reply, Packet.potential, hMessage,
                hInjected]
      | none =>
          have hInjected : packet.injected = true := by
            by_contra hRelayed
            have hKnows' :=
              hKnows (Bool.not_eq_true _ ▸ hRelayed) id
                hMessage
            simp [WorkerState.Knows, hKnown] at hKnows'
          simp [WorkerState.replies, hKnown, Packet.reply,
            Packet.potential, hMessage, hInjected]
  | findPeer id =>
      cases hKnown : state.known id with
      | none =>
          simp [WorkerState.replies, WorkerState.answer,
            hKnown, Packet.reply, Packet.potential, hMessage]
      | some addr =>
          simp [WorkerState.replies, WorkerState.answer,
            hKnown, Packet.reply, Packet.potential, hMessage]
  | pong id => simp [WorkerState.replies]
  | findPeerResponsePeerFound id addr =>
      simp [WorkerState.replies]
  | findPeerResponsePeerNotFound id neighbors =>
      simp [WorkerState.replies]

/- The pending packets, weighed by where they are. -/
def weight
    (queueing flying : Packet → Nat)
    (net : Network) : Nat :=
  (net.queued.map queueing).sum +
    (net.flight.map flying).sum

variable (queueing flying : Packet → Nat)
variable {net : Network}

theorem weight_accept
    {packet : Packet}
    {node : Node}
    (hNode :
      net.nodes.get packet.destination = some node) :
    weight queueing flying (net.accept node packet) =
      weight queueing flying net + queueing packet := by
  have hQueued :=
    ((queued_accept hNode).map queueing).sum_nat
  have hFlight :
      (net.accept node packet).flight = net.flight := rfl
  simp only [weight, hQueued, hFlight, List.map_cons,
    List.sum_cons]
  omega

theorem weight_worked
    {worker : SocketAddr}
    {state : WorkerState}
    {packet : Packet}
    {rest : List Packet}
    (hNode :
      net.nodes.get worker =
        some { state, control := packet :: rest })
    (after : WorkerState)
    (outgoing : List Outgoing) :
    weight queueing flying
        (net.worked worker after packet rest outgoing) +
        queueing packet =
      weight queueing flying net +
        ((outgoing.map (packet.reply worker)).map
          flying).sum := by
  have hQueued :=
    ((queued_worked hNode after outgoing).map
      queueing).sum_nat
  have hFlight :
      (net.worked worker after packet rest
        outgoing).flight =
        net.flight ++
          outgoing.map (packet.reply worker) := rfl
  simp only [weight, hQueued, hFlight, List.map_cons,
    List.sum_cons, List.map_append, List.sum_append]
  omega

theorem weight_vanish
    {front back : List Packet}
    {packet : Packet}
    (hFlight : net.flight = front ++ packet :: back) :
    weight queueing flying
        { net with flight := front ++ back } +
        flying packet =
      weight queueing flying net := by
  have hSame :
      ({ net with
          flight := front ++ back : Network }).queued =
        net.queued := rfl
  simp only [weight, hSame, hFlight, List.map_append,
    List.map_cons, List.sum_append, List.sum_cons]
  omega

theorem weight_deliver
    {front back : List Packet}
    {packet : Packet}
    {node : Node}
    (hFlight : net.flight = front ++ packet :: back)
    (hNode :
      net.nodes.get packet.destination = some node) :
    weight queueing flying
        ({ net with flight := front ++ back }.accept node
          packet) +
        flying packet =
      weight queueing flying net + queueing packet := by
  have hVanish := weight_vanish queueing flying hFlight
  have hAccept :=
    weight_accept queueing flying
      (show ({ net with flight := front ++ back } :
        Network).nodes.get packet.destination = some node
        from hNode)
  rw [hAccept]
  omega

end Network

end WorldDat

------------------------------------------------------------
-- Budgets
------------------------------------------------------------

namespace WorldDat

open Rust

namespace Network

/- The messages that go back to one injected message. -/
def sentFor (net : Network) (origin : Nat) : List Packet :=
  (net.log.flatMap Handled.sent).filter
    fun packet => packet.origin = origin

/- What has been sent and may be sent for one origin. -/
def expense (net : Network) (origin : Nat) : Nat :=
  (net.sentFor origin).length +
    weight (Packet.share origin) (Packet.share origin) net

/- What may be sent for one origin. -/
def budget (net : Network) (origin : Nat) : Nat :=
  if origin < net.injections then 3 else 0

/- Sending for one origin uses up its share. -/
theorem share_sent
    (worker : SocketAddr)
    {state : WorkerState}
    {packet : Packet}
    (hKnows :
      packet.injected = false →
        ∀ id, packet.Asks id → state.Knows id)
    (origin : Nat) :
    let sent :=
      (state.replies (packet.source, packet.message)).map
        (packet.reply worker)
    (sent.filter fun packet =>
        packet.origin = origin).length +
        (sent.map (Packet.share origin)).sum ≤
      packet.share origin := by
  intro sent
  have hOrigin : ∀ reply ∈ sent,
      reply.origin = packet.origin := by
    intro reply hReply
    rcases List.mem_map.mp hReply with ⟨out, _, hSame⟩
    rw [← hSame]
    rfl
  by_cases hSame : packet.origin = origin
  · have hFilter :
        (sent.filter fun packet =>
          packet.origin = origin) = sent := by
      rw [List.filter_eq_self]
      intro reply hReply
      simp [hOrigin reply hReply, hSame]
    have hShare :
        sent.map (Packet.share origin) =
          sent.map Packet.potential := by
      refine List.map_congr_left ?_
      intro reply hReply
      simp [Packet.share, hOrigin reply hReply, hSame]
    rw [hFilter, hShare, Packet.share, if_pos hSame]
    exact potential_sent worker hKnows
  · have hFilter :
        (sent.filter fun packet =>
          packet.origin = origin) = [] := by
      rw [List.filter_eq_nil_iff]
      intro reply hReply
      simp [hOrigin reply hReply, hSame]
    have hShare :
        sent.map (Packet.share origin) =
          sent.map fun _ => 0 := by
      refine List.map_congr_left ?_
      intro reply hReply
      simp [Packet.share, hOrigin reply hReply, hSame]
    simp [hFilter, hShare]

/- No origin goes over its budget. -/
theorem expense_step
    {net next : Network}
    (hAnnounced : net.Announced)
    (hStep : Step reliable net next)
    {origin : Nat}
    (hBudget : net.expense origin ≤ net.budget origin) :
    next.expense origin ≤ next.budget origin := by
  unfold expense at hBudget ⊢
  cases hStep with
  | inject source destination message node hNode hAdmits =>
      let packet := net.injection source destination message
      have hWeight :
          weight (Packet.share origin) (Packet.share origin)
              { net.accept node packet with
                injections := net.injections + 1 } =
            weight (Packet.share origin)
                (Packet.share origin) net +
              packet.share origin :=
        weight_accept _ _ (show
          net.nodes.get packet.destination = some node from
            hNode)
      change (net.sentFor origin).length + weight _ _ _ ≤ _
      rw [hWeight]
      have hPotential := packet.potential_le
      unfold budget at hBudget ⊢
      dsimp only
      by_cases hNew : packet.origin = origin
      · have hOrigin : net.injections = origin := hNew
        rw [Packet.share, if_pos hNew, ← hOrigin,
          if_pos (Nat.lt_succ_self _)]
        rw [← hOrigin, if_neg (Nat.lt_irrefl _)] at hBudget
        omega
      · rw [Packet.share, if_neg hNew]
        split at hBudget
        · rw [if_pos (by omega)]
          omega
        · omega
  | handle worker state packet rest hNode =>
      have hWeight :=
        weight_worked (Packet.share origin)
          (Packet.share origin) hNode
          (state.after (packet.source, packet.message))
          (state.replies (packet.source, packet.message))
      have hShare :=
        share_sent worker (hAnnounced.knows hNode) origin
      dsimp only at hShare
      unfold budget at hBudget ⊢
      have hSent :
          (net.worked worker
              (state.after (packet.source, packet.message))
              packet rest
              (state.replies
                (packet.source, packet.message))).sentFor
              origin =
            net.sentFor origin ++
              ((state.replies
                  (packet.source, packet.message)).map
                (packet.reply worker)).filter
                fun packet => packet.origin = origin := by
        simp [sentFor, worked]
      rw [hSent, List.length_append]
      change _ ≤ if origin < net.injections then 3 else 0
      omega
  | deliver front packet back node hFlight hFifo hNode =>
      have hWeight :=
        weight_deliver (Packet.share origin)
          (Packet.share origin) hFlight hNode
      change (net.sentFor origin).length + weight _ _ _ ≤
        net.budget origin
      omega
  | vanish front packet back hFlight hGone =>
      have hWeight :=
        weight_vanish (Packet.share origin)
          (Packet.share origin) hFlight
      change (net.sentFor origin).length + weight _ _ _ ≤
        net.budget origin
      omega
  | lose front packet back hFlight hLossy => cases hLossy
  | duplicate packet hPacket hDuplicating =>
      cases hDuplicating

end Network

end WorldDat

------------------------------------------------------------
-- Finite Runs
------------------------------------------------------------

namespace WorldDat

open Rust

namespace Network

/-
  A bound on the number of steps that are left: a packet in
  flight has to be delivered, a packet in a queue has to be
  handled, and so has all that they may lead to.
-/
def workload (net : Network) : Nat :=
  weight (fun packet => 1 + 2 * packet.potential)
    (fun packet => 2 + 2 * packet.potential) net

/- Steps that an injected message may pay for. -/
def toll (choice : Choice) : Nat :=
  if choice.isInject then 8 else 0

theorem sum_map_toll (choices : List Choice) :
    (choices.map toll).sum =
      8 * choices.countP Choice.isInject := by
  induction choices with
  | nil => rfl
  | cons choice choices ih =>
      rw [List.map_cons, List.sum_cons, ih,
        List.countP_cons, toll]
      split <;> omega

/- Delivering a packet injects nothing. -/
theorem injections_deliver
    (net : Network)
    (packet : Packet) :
    (net.deliver packet).injections = net.injections := by
  unfold deliver
  split <;> rfl

/- A step counts the message that it injects. -/
theorem injections_of_step
    {d : Discipline}
    {net next : Network}
    {choice : Choice}
    (hStep : step d net choice = some next) :
    8 * next.injections =
      8 * net.injections + toll choice := by
  cases choice with
  | inject source destination message =>
      simp only [step] at hStep
      split at hStep
      · cases hStep
      · split at hStep
        · cases hStep
          simp [toll, Choice.isInject, Nat.mul_add]
        · cases hStep
  | handle worker =>
      simp only [step] at hStep
      split at hStep
      · cases hStep
      · split at hStep
        · cases hStep
        · split at hStep
          · cases hStep
          · cases hStep
            rfl
  | deliver position =>
      simp only [step] at hStep
      split at hStep
      · cases hStep
      · split at hStep
        · cases hStep
        · cases hStep
          rw [injections_deliver]
          rfl
  | lose position =>
      simp only [step] at hStep
      split at hStep
      · cases hStep
        rfl
      · cases hStep
  | duplicate position =>
      simp only [step] at hStep
      split at hStep
      · cases hStep
      · split at hStep
        · cases hStep
          rfl
        · cases hStep

/- The messages that packets lead to have to be delivered. -/
theorem sum_map_flying
    (packets : List Packet) :
    (packets.map
        fun packet => 2 + 2 * packet.potential).sum =
      2 * (packets.length +
        (packets.map Packet.potential).sum) := by
  induction packets with
  | nil => rfl
  | cons packet packets ih =>
      rw [List.map_cons, List.sum_cons, ih, List.map_cons,
        List.sum_cons, List.length_cons]
      omega

/- Every step takes its share of the workload. -/
theorem workload_step
    {net next : Network}
    (hAnnounced : net.Announced)
    (hStep : Step reliable net next) :
    next.workload + 1 + 8 * net.injections ≤
      net.workload + 8 * next.injections := by
  unfold workload
  cases hStep with
  | inject source destination message node hNode hAdmits =>
      let packet := net.injection source destination message
      have hWeight :
          weight (fun packet => 1 + 2 * packet.potential)
              (fun packet => 2 + 2 * packet.potential)
              { net.accept node packet with
                injections := net.injections + 1 } =
            weight (fun packet => 1 + 2 * packet.potential)
                (fun packet => 2 + 2 * packet.potential)
                net +
              (1 + 2 * packet.potential) :=
        weight_accept _ _ (show
          net.nodes.get packet.destination = some node from
            hNode)
      have hPotential := packet.potential_le
      change weight _ _ _ + 1 + 8 * net.injections ≤
        _ + 8 * (net.injections + 1)
      rw [hWeight]
      omega
  | handle worker state packet rest hNode =>
      have hWeight :=
        weight_worked
          (fun packet => 1 + 2 * packet.potential)
          (fun packet => 2 + 2 * packet.potential) hNode
          (state.after (packet.source, packet.message))
          (state.replies (packet.source, packet.message))
      have hSent :=
        potential_sent worker (hAnnounced.knows hNode)
      dsimp only at hSent
      rw [sum_map_flying] at hWeight
      change _ ≤ _ + 8 * net.injections
      omega
  | deliver front packet back node hFlight hFifo hNode =>
      have hWeight :=
        weight_deliver
          (fun packet => 1 + 2 * packet.potential)
          (fun packet => 2 + 2 * packet.potential)
          hFlight hNode
      change _ ≤ _ + 8 * net.injections
      omega
  | vanish front packet back hFlight hGone =>
      have hWeight :=
        weight_vanish
          (fun packet => 1 + 2 * packet.potential)
          (fun packet => 2 + 2 * packet.potential) hFlight
      change _ ≤ _ + 8 * net.injections
      omega
  | lose front packet back hFlight hLossy => cases hLossy
  | duplicate packet hPacket hDuplicating =>
      cases hDuplicating

end Network

end WorldDat

------------------------------------------------------------
-- No Ping Storm
------------------------------------------------------------

namespace WorldDat

open Rust

namespace Network

/- What holds throughout a run of a reliable network. -/
structure Calm (net : Network) : Prop where
  announced : net.Announced
  quiet : ∀ handled ∈ net.log, handled.Quiet
  budgets : ∀ origin,
    net.expense origin ≤ net.budget origin

/- An idle network is calm. -/
theorem Idle.calm
    {net : Network}
    (hIdle : net.Idle) :
    net.Calm := by
  have hPending := List.append_eq_nil_iff.mp hIdle.pending
  refine ⟨?_, ?_, ?_⟩
  · intro source destination node hNode
    have hControl : node.control = [] := by
      rw [List.eq_nil_iff_forall_not_mem]
      intro packet hPacket
      have hQueued : packet ∈ net.queued :=
        (mem_queued_iff net packet).mpr
          ⟨destination, node, hNode, hPacket⟩
      rw [hPending.2] at hQueued
      cases hQueued
    simp [stream, hControl, hPending.1]
  · simp [hIdle.log]
  · intro origin
    simp [expense, sentFor, weight, hIdle.log, hPending.1,
      hPending.2]

/- A reliable network stays calm. -/
theorem calm_step
    {net next : Network}
    (hCalm : net.Calm)
    (hStep : Step reliable net next) :
    next.Calm where
  announced := announced_step hCalm.announced hStep
  quiet := quiet_step hCalm.announced hCalm.quiet hStep
  budgets := by
    intro origin
    apply expense_step hCalm.announced hStep
    exact hCalm.budgets origin

/- A calm run is at most eight times as long as its input. -/
theorem length_exec_le
    {net final : Network}
    {choices : List Choice}
    (hExec : exec reliable net choices = some final)
    (hIdle : net.Idle) :
    choices.length ≤
      8 * choices.countP Choice.isInject := by
  have hInit : net.workload = 0 := by
    have hPending :=
      List.append_eq_nil_iff.mp hIdle.pending
    simp [workload, weight, hPending.1, hPending.2]
  have hLength :
      choices.length + final.workload ≤
        net.workload + (choices.map toll).sum := by
    apply Machine.length_exec_le workload toll ?_ ?_ hExec
      hIdle.calm
    · intro net choice next hCalm hStep
      exact calm_step hCalm (step_sound hStep)
    · intro net choice next hCalm hStep
      have hWork :=
        workload_step hCalm.announced (step_sound hStep)
      have hCount := injections_of_step hStep
      omega
  rw [sum_map_toll] at hLength
  omega

/-
  In a reliable network the ping of a worker never makes its
  receiver ping, every injected message leads to at most
  three messages, and every run ends.
-/
theorem no_ping_storm
    {net final : Network}
    {choices : List Choice}
    (hIdle : net.Idle)
    (hExec : exec reliable net choices = some final) :
    (∀ handled ∈ final.log,
      handled.packet.injected = false →
        handled.packet.message.isPing = true →
          ∀ sent ∈ handled.sent,
            sent.message.isPing = false) ∧
      (∀ origin, (final.sentFor origin).length ≤ 3) ∧
        choices.length ≤
          8 * choices.countP Choice.isInject := by
  have hCalm : final.Calm := by
    apply exec_invariant Calm ?_ hExec hIdle.calm
    intro net next hInv hStep
    exact calm_step hInv hStep
  refine ⟨hCalm.quiet, ?_, length_exec_le hExec hIdle⟩
  intro origin
  have hBudget := hCalm.budgets origin
  unfold expense budget at hBudget
  split at hBudget <;> omega

theorem no_ping_storm_handshake :
    ∃ final,
      exec reliable pair handshake = some final ∧
        (∀ handled ∈ final.log,
          handled.packet.injected = false →
            handled.packet.message.isPing = true →
              ∀ sent ∈ handled.sent,
                sent.message.isPing = false) ∧
          (∀ origin, (final.sentFor origin).length ≤ 3) ∧
            handshake.length ≤
              8 * handshake.countP Choice.isInject := by
  have hRuns :
      (exec reliable pair handshake).isSome = true := by
    decide +kernel
  rcases Option.isSome_iff_exists.mp hRuns with
    ⟨final, hExec⟩
  exact
    ⟨final, hExec,
      no_ping_storm (idle_start _ _) hExec⟩

end Network

end WorldDat
