import WorldDat.Network.Introductions

/-
  When a single ping can cause a storm.

  A worker that is pinged by somebody it does not know pings
  back, until it gets a pong.  If pongs can be lost or be
  overtaken, two workers can go on pinging each other forever
  because of one ping, and if they can be duplicated, as many
  copies as one likes are handled.  So it takes a reliable
  network to keep the work of the workers in bounds.

  Main declarations:
    * `Network.Poised` and `Network.exists_volley`
    * `Network.exists_long_exec`
    * `Network.exists_long_exec_of_duplicating`
    * `Network.Bounded`, `Network.Stormy` and
      `Network.bounded_iff_reliable`
-/

------------------------------------------------------------
-- Volleys Of Pings
------------------------------------------------------------

namespace WorldDat

open Rust

/- A choice by which a worker handles a message. -/
def Choice.isHandle : Choice → Bool
| .inject _ _ _ => false
| .handle _ => true
| .deliver _ => false
| .lose _ => false
| .duplicate _ => false

namespace Network

/-
  A worker is about to handle the ping of another worker, of
  which it knows nothing, and neither does the other of it.
  The network can keep pongs from getting through.
-/
structure Poised
    (d : Discipline)
    (net : Network)
    (pinged pinging : Peer) : Prop where
  addresses : pinged.address ≠ pinging.address
  unreliable : d.fifo = false ∨
    d.lossy = true ∧ net.flight = []
  here : ∃ state packet,
    net.nodes.get pinged.address =
        some { state, control := [packet] } ∧
      state.peerId = pinged.peerId ∧
      state.known pinging.peerId = none ∧
      packet.source = pinging.address ∧
      packet.message = .ping pinging.peerId
  there : ∃ state,
    net.nodes.get pinging.address =
        some { state, control := [] } ∧
      state.peerId = pinging.peerId ∧
      state.known pinged.peerId = none

variable {d : Discipline}
variable {net : Network}
variable {pinged pinging : Peer}

/- Whoever is pinged by a stranger answers and pings back. -/
theorem replies_to_stranger
    {state : WorkerState}
    {id : PeerId}
    (hUnknown : state.known id = none)
    (source : SocketAddr) :
    state.replies (source, .ping id) =
      [ (source, .pong state.peerId)
      , (source, .ping state.peerId) ] := by
  simp only [WorkerState.replies, hUnknown]

/-
  Handling the ping puts a pong and a ping in flight.  Once
  the ping is delivered, the parts are swapped, whatever has
  become of the pong.
-/
theorem exists_handled
    (hPoised : Poised d net pinged pinging) :
    ∃ worked pong ping,
      step d net (.handle pinged.address) = some worked ∧
        worked.flight = net.flight ++ [pong, ping] ∧
        ∀ flight : List Packet,
          (d.fifo = false ∨ d.lossy = true ∧ flight = []) →
            Poised d
              (({ worked with flight } : Network).deliver
                ping)
              pinging pinged := by
  rcases hPoised.here with
    ⟨state, cause, hHere, hId, hUnknown, hSource, hPing⟩
  rcases hPoised.there with
    ⟨other, hThere, hOtherId, hOtherUnknown⟩
  have hReplies :=
    replies_to_stranger hUnknown pinging.address
  have hHandle := step_handle (d := d) hHere
  rw [hPing, hSource, hReplies, hId] at hHandle
  refine
    ⟨_, cause.reply pinged.address
        (pinging.address, .pong pinged.peerId),
      cause.reply pinged.address
        (pinging.address, .ping pinged.peerId),
      hHandle, rfl, ?_⟩
  intro flight hUnreliable
  have hElse :
      (net.nodes.insert pinged.address
          ({ state := state, control := [] } : Node)).get
            pinging.address =
        some { state := other, control := [] } := by
    rw [HashMap.get_insert_ne _ _ hPoised.addresses.symm]
    exact hThere
  -- the ping reaches the other worker
  unfold deliver
  dsimp only [worked, Packet.reply, WorkerState.after]
  rw [hElse]
  refine
    ⟨hPoised.addresses.symm, hUnreliable,
      ⟨other, _, HashMap.get_insert_self _ _ _, hOtherId,
        hOtherUnknown, rfl, rfl⟩,
      ⟨state, ?_, hId, hUnknown⟩⟩
  unfold accept
  dsimp only
  rw [HashMap.get_insert_ne _ _ hPoised.addresses,
    HashMap.get_insert_self]

/- A ping overtakes the pong that was sent before it. -/
theorem step_overtake
    (hUnordered : d.fifo = false)
    {worked : Network}
    {flight : List Packet}
    {pong ping : Packet}
    (hFlight : worked.flight = flight ++ [pong, ping]) :
    step d worked (.deliver (flight ++ [pong]).length) =
      some
        (({ worked with flight := flight ++ [pong] } :
          Network).deliver ping) := by
  have hSplit :
      worked.flight = (flight ++ [pong]) ++ ping :: [] := by
    rw [hFlight, List.append_assoc]
    rfl
  have hGet :
      worked.flight[(flight ++ [pong]).length]? =
        some ping := by
    rw [hSplit]
    simp
  have hErase :
      worked.flight.eraseIdx (flight ++ [pong]).length =
        flight ++ [pong] := by
    rw [hSplit,
      List.eraseIdx_append_of_length_le (Nat.le_refl _)]
    simp
  have hFree :
      ¬ (d.fifo ∧
        ∃ earlier ∈
            worked.flight.take (flight ++ [pong]).length,
          earlier.Between ping.source ping.destination) := by
    intro hBoth
    rw [hUnordered] at hBoth
    cases hBoth.1
  simp only [step, hGet, if_neg hFree, hErase]

/-
  The ping that a worker sends back arrives, and the pong
  before it is lost or overtaken.
-/
theorem exists_volley
    (hPoised : Poised d net pinged pinging) :
    ∃ choices next,
      exec d net choices = some next ∧
        Poised d next pinging pinged ∧
        choices.countP Choice.isHandle = 1 ∧
        choices.countP Choice.isInject = 0 := by
  rcases exists_handled hPoised with
    ⟨worked, pong, ping, hHandle, hFlight, hSwapped⟩
  rcases hPoised.unreliable with hUnordered | ⟨hLossy, hNone⟩
  · refine
      ⟨[ .handle pinged.address
       , .deliver (net.flight ++ [pong]).length ],
        _, ?_, hSwapped (net.flight ++ [pong])
          (Or.inl hUnordered),
        rfl, rfl⟩
    unfold exec
    rw [Machine.exec_cons_eq_some_iff]
    refine ⟨worked, hHandle, ?_⟩
    rw [Machine.exec_cons_eq_some_iff]
    exact ⟨_, step_overtake hUnordered hFlight, rfl⟩
  · -- the pong is lost, and then the ping is first
    have hPong : worked.flight = [] ++ pong :: [ping] := by
      rw [hFlight, hNone]
    have hPing :
        ({ worked with flight := [ping] } : Network).flight =
          [] ++ ping :: [] := rfl
    have hFirst : ∀ earlier ∈ ([] : List Packet),
        ¬ earlier.Between ping.source ping.destination := by
      intro earlier hEarlier
      cases hEarlier
    refine
      ⟨[.handle pinged.address, .lose 0, .deliver 0],
        _, ?_, hSwapped [] (Or.inr ⟨hLossy, rfl⟩),
        rfl, rfl⟩
    unfold exec
    rw [Machine.exec_cons_eq_some_iff]
    refine ⟨worked, hHandle, ?_⟩
    rw [Machine.exec_cons_eq_some_iff]
    refine ⟨_, step_lose hLossy hPong, ?_⟩
    rw [Machine.exec_cons_eq_some_iff]
    exact ⟨_, step_deliver hPing hFirst, rfl⟩

/- Two workers ping each other as often as one likes. -/
theorem exists_long_exec
    (hPoised : Poised d net pinged pinging)
    (count : Nat) :
    ∃ choices last,
      exec d net choices = some last ∧
        count ≤ choices.countP Choice.isHandle ∧
        choices.countP Choice.isInject = 0 := by
  induction count generalizing net pinged pinging with
  | zero => exact ⟨[], net, rfl, Nat.le_refl 0, rfl⟩
  | succ count ih =>
      rcases exists_volley hPoised with
        ⟨first, next, hFirst, hNext, hSome, hInner⟩
      rcases ih hNext with
        ⟨more, last, hMore, hLong, hRest⟩
      refine ⟨first ++ more, last, ?_, ?_, ?_⟩
      · unfold exec
        rw [Machine.exec_append_eq_some_iff]
        exact ⟨next, hFirst, hMore⟩
      · rw [List.countP_append]
        omega
      · rw [List.countP_append, hInner, hRest]

end Network

end WorldDat

------------------------------------------------------------
-- Copies Of A Pong
------------------------------------------------------------

namespace WorldDat

open Rust

namespace Network

variable {d : Discipline}
variable {net : Network}
variable {addr : SocketAddr}
variable {state : WorkerState}

/- The first packet in flight can be copied many times. -/
theorem exists_exec_duplicates
    (hDuplicating : d.duplicating = true)
    {packet : Packet}
    {rest : List Packet}
    (hFlight : net.flight = packet :: rest)
    (count : Nat) :
    ∃ last,
      exec d net (List.replicate count (.duplicate 0)) =
          some last ∧
        last.nodes = net.nodes ∧
        last.flight =
          net.flight ++ List.replicate count packet := by
  -- the copies in flight and those to come make up the goal
  let Stage : Nat → Network → Prop := fun left net' =>
    net'.nodes = net.nodes ∧
      (∃ others, net'.flight = packet :: others) ∧
      net'.flight ++ List.replicate left packet =
        net.flight ++ List.replicate count packet
  have hStep : ∀ left net', Stage (left + 1) net' →
      ∃ next, step d net' (.duplicate 0) = some next ∧
        Stage left next := by
    intro left net' hStage
    rcases hStage with ⟨hNodes, ⟨others, hFirst⟩, hAll⟩
    have hSplit : net'.flight = [] ++ packet :: others :=
      hFirst
    refine
      ⟨_, step_duplicate hDuplicating hSplit, hNodes,
        ⟨others ++ [packet], ?_⟩, ?_⟩
    · rw [hFirst]
      rfl
    · rw [List.replicate_succ] at hAll
      rw [← hAll, List.append_assoc]
      rfl
  have hInit : Stage count net := ⟨rfl, ⟨rest, hFlight⟩, rfl⟩
  rcases Machine.exists_exec_countdown Stage hStep hInit with
    ⟨last, hLast, hNodes, _, hAll⟩
  rw [List.replicate_zero, List.append_nil] at hAll
  exact ⟨last, hLast, hNodes, hAll⟩

/- What is in flight to one worker can all be delivered. -/
theorem exists_exec_deliveries
    {flight control : List Packet}
    (hFlight : net.flight = flight)
    (hHere : ∀ packet ∈ flight, packet.destination = addr)
    (hNode :
      net.nodes.get addr = some { state, control }) :
    ∃ last,
      exec d net
          (List.replicate flight.length (.deliver 0)) =
          some last ∧
        last.nodes.get addr =
          some { state, control := control ++ flight } := by
  -- what has arrived and what is in flight make up the goal
  let Stage : Nat → Network → Prop := fun left net' =>
    net'.flight.length = left ∧
      (∀ packet ∈ net'.flight,
        packet.destination = addr) ∧
      ∃ arrived,
        net'.nodes.get addr =
            some { state, control := arrived } ∧
          arrived ++ net'.flight = control ++ flight
  have hStep : ∀ left net', Stage (left + 1) net' →
      ∃ next, step d net' (.deliver 0) = some next ∧
        Stage left next := by
    intro left net' hStage
    rcases hStage with
      ⟨hLength, hTo, arrived, hQueue, hAll⟩
    rcases List.exists_of_length_succ _ hLength with
      ⟨packet, rest, hSplit⟩
    have hFirst : net'.flight = [] ++ packet :: rest :=
      hSplit
    have hDeliver :=
      step_deliver (d := d) hFirst (List.forall_mem_nil _)
    rw [hSplit] at hLength hTo hAll
    have hAddr : packet.destination = addr :=
      hTo packet List.mem_cons_self
    unfold deliver at hDeliver
    dsimp only at hDeliver
    rw [hAddr, hQueue] at hDeliver
    refine
      ⟨_, hDeliver, Nat.succ.inj hLength, ?_,
        arrived ++ [packet], ?_, ?_⟩
    · intro other hOther
      exact hTo other (List.mem_cons_of_mem packet hOther)
    · unfold accept
      rw [hAddr]
      exact HashMap.get_insert_self _ _ _
    · rw [← hAll, List.append_assoc]
      rfl
  have hInit : Stage flight.length net := by
    refine ⟨?_, ?_, control, hNode, ?_⟩
    · rw [hFlight]
    · rw [hFlight]
      exact hHere
    · rw [hFlight]
  rcases Machine.exists_exec_countdown Stage hStep hInit with
    ⟨last, hLast, hEmpty, _, arrived, hQueue, hAll⟩
  rw [List.length_eq_zero_iff.mp hEmpty,
    List.append_nil] at hAll
  rw [hAll] at hQueue
  exact ⟨last, hLast, hQueue⟩

/- A worker can handle everything in its control queue. -/
theorem exists_exec_handles
    {control : List Packet}
    (hNode :
      net.nodes.get addr = some { state, control }) :
    ∃ last,
      exec d net
          (List.replicate control.length (.handle addr)) =
        some last := by
  let Stage : Nat → Network → Prop := fun left net' =>
    ∃ node, net'.nodes.get addr = some node ∧
      node.control.length = left
  have hStep : ∀ left net', Stage (left + 1) net' →
      ∃ next, step d net' (.handle addr) = some next ∧
        Stage left next := by
    intro left net' hStage
    rcases hStage with ⟨⟨state', queue⟩, hQueue, hLength⟩
    rcases List.exists_of_length_succ _ hLength with
      ⟨packet, rest, hSplit⟩
    dsimp only at hLength hSplit
    rw [hSplit] at hQueue hLength
    exact
      ⟨_, step_handle hQueue, _,
        HashMap.get_insert_self _ _ _,
        Nat.succ.inj hLength⟩
  have hInit : Stage control.length net :=
    ⟨_, hNode, rfl⟩
  rcases Machine.exists_exec_countdown Stage hStep hInit with
    ⟨last, hLast, _⟩
  exact ⟨last, hLast⟩

/-
  The pong for a stranger is copied, all copies arrive, and
  all of them are handled.
-/
theorem exists_long_exec_of_duplicating
    (hDuplicating : d.duplicating = true)
    (hFlight : net.flight = [])
    {packet : Packet}
    (hHere :
      net.nodes.get addr =
        some { state, control := [packet] })
    {id : PeerId}
    (hUnknown : state.known id = none)
    (hPing : packet.message = .ping id)
    (hApart : packet.source ≠ addr)
    {other : WorkerState}
    (hThere :
      net.nodes.get packet.source =
        some { state := other, control := [] })
    (count : Nat) :
    ∃ choices last,
      exec d net choices = some last ∧
        count ≤ choices.countP Choice.isHandle ∧
        choices.countP Choice.isInject = 0 := by
  have hHandle := step_handle (d := d) hHere
  rw [hPing, replies_to_stranger hUnknown] at hHandle
  generalize hWorked :
    net.worked _ _ _ _ _ = handled at hHandle
  have hSent :
      handled.flight =
        [ packet.reply addr
            (packet.source, .pong state.peerId)
        , packet.reply addr
            (packet.source, .ping state.peerId) ] := by
    rw [← hWorked]
    unfold worked
    dsimp only
    rw [hFlight]
    rfl
  have hOther :
      handled.nodes.get packet.source =
        some { state := other, control := [] } := by
    rw [← hWorked]
    unfold worked
    dsimp only
    rw [HashMap.get_insert_ne _ _ hApart]
    exact hThere
  rcases exists_exec_duplicates hDuplicating hSent count with
    ⟨copied, hCopied, hNodes, hCopies⟩
  have hTo : ∀ copy ∈ copied.flight,
      copy.destination = packet.source := by
    intro copy hCopy
    rw [hCopies, hSent, List.mem_append, List.mem_pair,
      List.mem_replicate] at hCopy
    rcases hCopy with (hPong | hPing) | hMore
    · rw [hPong]
      rfl
    · rw [hPing]
      rfl
    · rw [hMore.2]
      rfl
  rw [← hNodes] at hOther
  rcases exists_exec_deliveries (d := d) rfl hTo hOther with
    ⟨delivered, hDelivered, hQueue⟩
  rcases exists_exec_handles (d := d) hQueue with
    ⟨last, hLast⟩
  refine
    ⟨.handle addr ::
      (List.replicate count (.duplicate 0) ++
        (List.replicate copied.flight.length (.deliver 0) ++
          List.replicate ([] ++ copied.flight).length
            (.handle packet.source))),
      last, ?_, ?_, ?_⟩
  · unfold exec
    rw [Machine.exec_cons_eq_some_iff]
    refine ⟨handled, hHandle, ?_⟩
    rw [Machine.exec_append_eq_some_iff]
    refine ⟨copied, hCopied, ?_⟩
    rw [Machine.exec_append_eq_some_iff]
    exact ⟨delivered, hDelivered, hLast⟩
  · rw [List.countP_cons, List.countP_append,
      List.countP_append, List.countP_replicate,
      List.countP_replicate, List.countP_replicate,
      List.nil_append, hCopies, List.length_append,
      List.length_replicate]
    simp only [Choice.isHandle, if_true]
    omega
  · rw [List.countP_cons, List.countP_append,
      List.countP_append, List.countP_replicate,
      List.countP_replicate, List.countP_replicate]
    rfl

end Network

end WorldDat

------------------------------------------------------------
-- Bounded Runs
------------------------------------------------------------

namespace WorldDat

open Rust

/- Everything sent arrives once, in the order of sending. -/
def Discipline.Reliable (d : Discipline) : Prop :=
  d.fifo = true ∧ d.lossy = false ∧ d.duplicating = false

namespace Network

/- What is injected bounds how much the workers handle. -/
def Bounded
    (d : Discipline)
    (net : Network)
    (bound : Nat → Nat) : Prop :=
  ∀ choices last,
    exec d net choices = some last →
      choices.countP Choice.isHandle ≤
        bound (choices.countP Choice.isInject)

/-
  After one injected ping, and nothing else from outside, the
  workers may handle as many messages as one likes.
-/
def Stormy
    (d : Discipline)
    (net : Network) : Prop :=
  ∀ count, ∃ source destination id choices last,
    exec d net
        (.inject source destination (.ping id) :: choices) =
        some last ∧
      count ≤ choices.countP Choice.isHandle ∧
      choices.countP Choice.isInject = 0

variable {d : Discipline}
variable {hasher : RandomState SocketAddr Node}
variable {peers : List Peer}
variable {first second : Peer}

/- Workers that run nowhere else get a ping from outside. -/
theorem exists_injected
    (hPings : ∀ id, d.admits (.ping id) = true)
    (hAddresses : (peers.map Peer.address).Nodup)
    (hFirst : first ∈ peers)
    (hSecond : second ∈ peers)
    (hApart : first.address ≠ second.address) :
    ∃ net packet,
      step d (start hasher peers)
          (.inject second.address first.address
            (.ping second.peerId)) =
        some net ∧
      net.flight = [] ∧
      net.nodes.get first.address =
        some
          { state := (freshNode first).state
            control := [packet] } ∧
      packet.source = second.address ∧
      packet.message = .ping second.peerId ∧
      net.nodes.get second.address =
        some (freshNode second) := by
  have hHere :
      (start hasher peers).nodes.get first.address =
        some (freshNode first) :=
    get_start hAddresses hFirst
  have hThere :
      (start hasher peers).nodes.get second.address =
        some (freshNode second) :=
    get_start hAddresses hSecond
  refine
    ⟨_, _, step_inject hHere (hPings _), rfl,
      HashMap.get_insert_self _ _ _, rfl, rfl, ?_⟩
  unfold accept
  dsimp only [injection]
  rw [HashMap.get_insert_ne _ _ hApart.symm]
  exact hThere

/- One fault is enough for a storm. -/
theorem stormy_start
    (hPings : ∀ id, d.admits (.ping id) = true)
    (hAddresses : (peers.map Peer.address).Nodup)
    (hFirst : first ∈ peers)
    (hSecond : second ∈ peers)
    (hIds : first.peerId ≠ second.peerId)
    (hUnreliable : ¬ d.Reliable) :
    Stormy d (start hasher peers) := by
  intro count
  have hApart : first.address ≠ second.address := by
    intro hSame
    have hPeer :=
      List.inj_on_of_nodup_map hAddresses hFirst hSecond
        hSame
    exact hIds (congrArg Peer.peerId hPeer)
  rcases @exists_injected d hasher peers first second hPings
      hAddresses hFirst hSecond hApart with
    ⟨net, packet, hInject, hFlight, hHere, hSource, hPing,
      hThere⟩
  have hUnknown :
      (freshNode first).state.known second.peerId = none := by
    unfold freshNode
    rw [WorkerState.known_fresh, if_neg hIds.symm]
  have hTail : ∃ choices last,
      exec d net choices = some last ∧
        count ≤ choices.countP Choice.isHandle ∧
        choices.countP Choice.isInject = 0 := by
    cases hDuplicating : d.duplicating with
    | true =>
        rw [← hSource] at hThere hApart
        exact
          exists_long_exec_of_duplicating hDuplicating
            hFlight hHere hUnknown hPing hApart.symm hThere
            count
    | false =>
        have hStranger :
            (freshNode second).state.known first.peerId =
              none := by
          unfold freshNode
          rw [WorkerState.known_fresh, if_neg hIds]
        have hFault : d.fifo = false ∨
            d.lossy = true ∧ net.flight = [] := by
          by_contra hNeither
          rw [not_or, Bool.not_eq_false] at hNeither
          apply hUnreliable
          refine ⟨hNeither.1, ?_, hDuplicating⟩
          rw [← Bool.not_eq_true]
          intro hLossy
          exact hNeither.2 ⟨hLossy, hFlight⟩
        have hPoised : Poised d net first second :=
          ⟨hApart, hFault,
            ⟨_, packet, hHere, rfl, hUnknown, hSource,
              hPing⟩,
            ⟨_, hThere, rfl, hStranger⟩⟩
        exact exists_long_exec hPoised count
  rcases hTail with ⟨choices, last, hRest, hMany, hInner⟩
  refine
    ⟨second.address, first.address, second.peerId, choices,
      last, ?_, hMany, hInner⟩
  unfold exec
  rw [Machine.exec_cons_eq_some_iff]
  exact ⟨net, hInject, hRest⟩

/- Without a fault, runs are as short as their input. -/
theorem length_exec_of_reliable
    (hReliable : d.Reliable)
    {choices : List Choice}
    {last : Network}
    (hExec :
      exec d (start hasher peers) choices = some last) :
    choices.length ≤ 8 * choices.countP Choice.isInject := by
  rcases hReliable with ⟨hFifo, hLossless, hSingle⟩
  have hWithin : d.Within reliable := by
    refine ⟨fun _ _ => rfl, fun _ => hFifo, ?_, ?_⟩
    · intro hLossy
      rw [hLossless] at hLossy
      cases hLossy
    · intro hTwice
      rw [hSingle] at hTwice
      cases hTwice
  exact
    length_exec_le (exec_of_within hWithin hExec)
      (idle_start hasher peers)

/-
  Where workers can be pinged from outside, it takes exactly
  a network that neither loses nor duplicates nor reorders
  messages to keep what workers handle in bounds.  Without a
  fault whole runs are in bounds; with a fault a single ping
  is enough to break all bounds.
-/
theorem bounded_iff_reliable
    (hPings : ∀ id, d.admits (.ping id) = true)
    (hasher : RandomState SocketAddr Node)
    (hAddresses : (peers.map Peer.address).Nodup)
    (hFirst : first ∈ peers)
    (hSecond : second ∈ peers)
    (hIds : first.peerId ≠ second.peerId) :
    ((∃ bound, Bounded d (start hasher peers) bound) ↔
        d.Reliable) ∧
      (d.Reliable → ∀ choices last,
        exec d (start hasher peers) choices = some last →
          choices.length ≤
            8 * choices.countP Choice.isInject) ∧
      (¬ d.Reliable → Stormy d (start hasher peers)) := by
  have hStorm :
      ¬ d.Reliable → Stormy d (start hasher peers) :=
    stormy_start hPings hAddresses hFirst hSecond hIds
  refine ⟨⟨?_, ?_⟩, ?_, hStorm⟩
  · intro hBounded
    rcases hBounded with ⟨bound, hBound⟩
    by_contra hUnreliable
    rcases hStorm hUnreliable (bound 1 + 1) with
      ⟨source, destination, id, choices, last, hExec, hMany,
        hInner⟩
    have hOne :
        (Choice.inject source destination (.ping id) ::
            choices).countP Choice.isInject =
          1 := by
      rw [List.countP_cons_of_pos rfl, hInner]
    have hFew := hBound _ last hExec
    rw [hOne, List.countP_cons] at hFew
    omega
  · intro hReliable
    refine ⟨fun count => 8 * count, ?_⟩
    intro choices last hExec
    exact
      Nat.le_trans List.countP_le_length
        (length_exec_of_reliable hReliable hExec)
  · intro hReliable choices last hExec
    exact length_exec_of_reliable hReliable hExec

theorem bounded_iff_reliable_hostile :
    ((∃ bound, Bounded hostile pair bound) ↔
        hostile.Reliable) ∧
      (hostile.Reliable → ∀ choices last,
        exec hostile pair choices = some last →
          choices.length ≤
            8 * choices.countP Choice.isInject) ∧
      (¬ hostile.Reliable → Stormy hostile pair) :=
  bounded_iff_reliable (fun _ => rfl) _ (by decide)
    List.mem_cons_self
    (List.mem_cons_of_mem firstPeer List.mem_cons_self)
    (by decide)

end Network

end WorldDat
