import WorldDat.Machine.Termination
import WorldDat.Network.Introductions

/-
  What all workers know in the end.

  If nothing is lost, both workers between which a ping has
  come from outside get to know each other.  So once nothing
  is pending, it depends on these pings alone who knows whom.
  If nothing is reordered and duplicated either, a network
  that is left alone gets there by itself.

  Main declarations:
    * `Network.Meeting` and `Network.meeting_step`
    * `Network.Informed` and `Network.informed_of_quiet`
    * `Network.knowledge_determined`
    * `Network.orderly` and `Network.terminates`
    * `Network.Converges` and `Network.converges_of_exec`
-/

------------------------------------------------------------
-- Meetings
------------------------------------------------------------

namespace WorldDat

open Rust

namespace Network

variable {net next : Network}

/-
  A ping of the worker at `b` is on its way to the worker at
  `a`, or has introduced them.
-/
def Meeting
    (net : Network)
    (a b : SocketAddr)
    (idA idB : PeerId) : Prop :=
  net.OnTheWay b a (.ping idB) ∨ net.Introduced a b idA idB

/- A meeting that is about to happen is not called off. -/
theorem meeting_step
    (hRouted : net.Routed)
    (hStep : Step lossless net next)
    {a b : SocketAddr}
    {idA idB : PeerId}
    (hA : net.Runs idA a)
    (hB : net.Runs idB b)
    (hMeeting : net.Meeting a b idA idB) :
    next.Meeting a b idA idB := by
  rcases hMeeting with hPing | hIntroduced
  · rcases hPing with ⟨packet, hPending, hBetween, hMessage⟩
    rcases hA with ⟨nodeA, hNodeA, hIdA⟩
    rw [← hBetween.2] at hNodeA
    rcases hStep.pending_forward rfl hRouted hPending hNodeA
      with hStill | ⟨rest, hControl, hNext⟩
    · exact Or.inl ⟨packet, hStill, hBetween, hMessage⟩
    · apply Or.inr
      rw [hNext, ← hIdA, ← hBetween.1, ← hBetween.2]
      exact introduced_worked _ _ _ _ _ hMessage
  · apply Or.inr
    exact introduced_step hRouted hStep hA hB hIntroduced

/- A ping from outside is the beginning of a meeting. -/
theorem meeting_of_injected
    {choices : List Choice}
    (hExec : exec lossless net choices = some next)
    (hRouted : net.Routed)
    {a b : SocketAddr}
    {idA idB : PeerId}
    (hA : net.Runs idA a)
    (hB : net.Runs idB b)
    (hPing : .inject b a (.ping idB) ∈ choices) :
    next.Meeting a b idA idB := by
  rcases List.append_of_mem hPing with ⟨front, back, hSplit⟩
  rw [hSplit] at hExec
  unfold exec at hExec
  rw [Machine.exec_append_eq_some_iff] at hExec
  rcases hExec with ⟨before, hFront, hRest⟩
  rcases Machine.exec_cons_eq_some_iff.mp hRest with
    ⟨after, hInject, hBack⟩
  have hKeeps : ∀ run later : Network,
      run.Routed ∧ run.Runs idA a ∧ run.Runs idB b →
        Step lossless run later →
          later.Routed ∧ later.Runs idA a ∧
            later.Runs idB b := by
    intro run later hRun hStep
    refine ⟨routed_step hRun.1 hStep, ?_, ?_⟩
    · rw [hStep.runs_iff]
      exact hRun.2.1
    · rw [hStep.runs_iff]
      exact hRun.2.2
  have hBefore :
      before.Routed ∧ before.Runs idA a ∧
        before.Runs idB b :=
    exec_invariant _ hKeeps hFront ⟨hRouted, hA, hB⟩
  have hAfter := hKeeps _ _ hBefore (step_sound hInject)
  have hBegins : after.Meeting a b idA idB := by
    rcases step_inject_sound hInject with
      ⟨node, hNode, _, hNext⟩
    have hQueued :=
      queued_accept
        (show before.nodes.get
          (before.injection b a (.ping idB)).destination =
            some node from hNode)
    apply Or.inl
    refine
      ⟨before.injection b a (.ping idB), ?_, ⟨rfl, rfl⟩, rfl⟩
    rw [hNext]
    apply List.mem_append_right
    apply hQueued.mem_iff.mpr
    exact List.mem_cons_self
  have hBoth :
      (next.Routed ∧ next.Runs idA a ∧ next.Runs idB b) ∧
        next.Meeting a b idA idB := by
    apply exec_invariant
      (fun run : Network =>
        (run.Routed ∧ run.Runs idA a ∧ run.Runs idB b) ∧
          run.Meeting a b idA idB)
      ?_ hBack ⟨hAfter, hBegins⟩
    intro run later hRun hStep
    refine ⟨hKeeps _ _ hRun.1 hStep, ?_⟩
    rcases hRun with ⟨⟨hRunRouted, hRunA, hRunB⟩, hMeeting⟩
    exact
      meeting_step hRunRouted hStep hRunA hRunB hMeeting
  exact hBoth.2

/- Once nothing is pending, those who met know each other. -/
theorem Meeting.knowsAt
    {a b : SocketAddr}
    {idA idB : PeerId}
    (hMeeting : net.Meeting a b idA idB)
    (hQuiet : net.pending = []) :
    net.KnowsAt b idA ∧ net.KnowsAt a idB := by
  have hNothing : ∀ source destination message,
      ¬ net.OnTheWay source destination message := by
    intro source destination message hWay
    rcases hWay with ⟨packet, hPending, _⟩
    rw [hQuiet] at hPending
    cases hPending
  rcases hMeeting with hPing | hIntroduced
  · exact absurd hPing (hNothing _ _ _)
  · constructor
    · rcases hIntroduced.forth with hKnows | hPong
      · exact hKnows
      · exact absurd hPong (hNothing _ _ _)
    · rcases hIntroduced.back with hKnows | hPing | hPong
      · exact hKnows
      · exact absurd hPing (hNothing _ _ _)
      · exact absurd hPong (hNothing _ _ _)

end Network

end WorldDat

------------------------------------------------------------
-- What Everybody Knows In The End
------------------------------------------------------------

namespace WorldDat

open Rust

namespace Network

/-
  Each worker knows itself and whomever it has met, and
  nobody else.
-/
def Informed
    (peers : List Peer)
    (choices : List Choice)
    (net : Network) : Prop :=
  ∀ addr node, net.nodes.get addr = some node →
    ∀ id contact,
      node.state.known id = some contact ↔
        ∃ peer ∈ peers,
          peer.peerId = id ∧ peer.address = contact ∧
            (contact = addr ∨ Met choices addr contact)

/- Whoever pings from outside is the worker it claims to be. -/
def Honest
    (peers : List Peer)
    (choices : List Choice) : Prop :=
  ∀ source destination id,
    .inject source destination (.ping id) ∈ choices →
      ∃ peer ∈ peers,
        peer.address = source ∧ peer.peerId = id

variable {hasher : RandomState SocketAddr Node}
variable {peers : List Peer}
variable {choices : List Choice}
variable {net : Network}

/- Workers at distinct addresses run from the start. -/
theorem runs_start
    (hAddresses : (peers.map Peer.address).Nodup)
    {peer : Peer}
    (hPeer : peer ∈ peers) :
    (start hasher peers).Runs peer.peerId peer.address :=
  ⟨_, get_start hAddresses hPeer, rfl⟩

/- Whoever is known is known where it is. -/
theorem known_of_knowsAt
    (hTrue : net.TruthfulTables)
    (hDistinct : net.Distinct)
    {addr : SocketAddr}
    {node : Node}
    (hNode : net.nodes.get addr = some node)
    {id : PeerId}
    {contact : SocketAddr}
    (hKnows : net.KnowsAt addr id)
    (hRuns : net.Runs id contact) :
    node.state.known id = some contact := by
  rcases hKnows with ⟨other, hOther, hSome⟩
  rw [hNode, Option.some.injEq] at hOther
  rw [← hOther] at hSome
  rcases Option.isSome_iff_exists.mp hSome with
    ⟨known, hKnown⟩
  have hEntry := WorkerState.mem_entries_of_known hKnown
  have hThere := hTrue.tables addr node hNode id known hEntry
  rw [hKnown, hDistinct id known contact hThere hRuns]

/-
  If nothing is lost and nobody lies about the own id, then
  each worker is informed once nothing is pending.
-/
theorem informed_of_quiet
    (hIds : (peers.map Peer.peerId).Nodup)
    (hAddresses : (peers.map Peer.address).Nodup)
    (hHonest : Honest peers choices)
    (hExec :
      exec lossless (start hasher peers) choices = some net)
    (hQuiet : net.pending = []) :
    net.Informed peers choices := by
  have hInv : net.Acquainted ∧ net.Distinct := by
    apply exec_invariant
      (fun net => net.Acquainted ∧ net.Distinct) ?_ hExec
    · constructor
      · exact acquainted_start hasher peers
      · exact distinct_start hasher hIds
    · intro net next hBefore hStep
      constructor
      · exact acquainted_step hBefore.1 hStep
      · exact distinct_step hBefore.2 hStep
  rcases hInv with ⟨hAcquainted, hDistinct⟩
  have hStays : ∀ peer ∈ peers,
      net.Runs peer.peerId peer.address ∧
        net.KnowsAt peer.address peer.peerId := by
    intro peer hPeer
    apply exec_invariant
      (fun run =>
        run.Runs peer.peerId peer.address ∧
          run.KnowsAt peer.address peer.peerId)
      ?_ hExec
    · refine ⟨runs_start hAddresses hPeer, ?_⟩
      exact
        ⟨_, get_start hAddresses hPeer,
          WorkerState.knows_fresh _ _ _⟩
    · intro run later hRun hStep
      refine ⟨?_, knowsAt_step hStep hRun.2⟩
      rw [hStep.runs_iff]
      exact hRun.1
  have hDiscreet :=
    reserved_of_exec (fun _ => rfl) hasher peers hExec
  have hRouted := (acquainted_start hasher peers).routed
  intro addr node hNode id contact
  constructor
  · intro hKnown
    have hEntry := WorkerState.mem_entries_of_known hKnown
    have hRuns :=
      hAcquainted.truthful.tables addr node hNode id contact
        hEntry
    rcases exists_peer_of_runs hExec hRuns with
      ⟨peer, hPeer, hId, hAddr⟩
    exact
      ⟨peer, hPeer, hId, hAddr,
        hDiscreet.tables addr node hNode id contact hEntry⟩
  · intro hWho
    rcases hWho with ⟨peer, hPeer, hId, hAddr, hMet⟩
    rw [← hId, ← hAddr]
    rw [← hAddr] at hMet
    apply known_of_knowsAt hAcquainted.truthful hDistinct
      hNode ?_ (hStays peer hPeer).1
    rcases hMet with hSelf | ⟨pinged, hForth | hBack⟩
    · rw [← hSelf]
      exact (hStays peer hPeer).2
    · -- the worker itself has pinged the peer
      rcases hHonest _ _ _ hForth with
        ⟨self, hSelf, hHere, hPinged⟩
      rw [← hHere, ← hPinged] at hForth
      have hMeeting :=
        meeting_of_injected hExec hRouted
          (runs_start hAddresses hPeer)
          (runs_start hAddresses hSelf) hForth
      rw [← hHere]
      exact (hMeeting.knowsAt hQuiet).1
    · -- the peer has pinged the worker
      rcases hHonest _ _ _ hBack with
        ⟨other, hOther, hThere, hPinged⟩
      have hSame : other = peer :=
        List.inj_on_of_nodup_map hAddresses hOther hPeer
          hThere
      rw [← hPinged, hSame] at hBack
      have hStart :
          (start hasher peers).Runs node.state.peerId addr := by
        have hRuns : net.Runs node.state.peerId addr :=
          ⟨node, hNode, rfl⟩
        rcases exists_peer_of_runs hExec hRuns with
          ⟨self, hSelf, hId', hAddr'⟩
        rw [← hId', ← hAddr']
        exact runs_start hAddresses hSelf
      have hMeeting :=
        meeting_of_injected hExec hRouted hStart
          (runs_start hAddresses hPeer) hBack
      exact (hMeeting.knowsAt hQuiet).2

/-
  Two networks without loss, of the same workers and with the
  same introductions, end with the same knowledge, whatever
  the order in which things happen and whatever hashers the
  maps use.
-/
theorem knowledge_determined
    {hasher₁ hasher₂ : RandomState SocketAddr Node}
    {peers₁ peers₂ : List Peer}
    (hPeers : ∀ id addr,
      (∃ peer ∈ peers₁,
          peer.peerId = id ∧ peer.address = addr) ↔
        ∃ peer ∈ peers₂,
          peer.peerId = id ∧ peer.address = addr)
    (hIds₁ : (peers₁.map Peer.peerId).Nodup)
    (hIds₂ : (peers₂.map Peer.peerId).Nodup)
    (hAddresses₁ : (peers₁.map Peer.address).Nodup)
    (hAddresses₂ : (peers₂.map Peer.address).Nodup)
    {choices₁ choices₂ : List Choice}
    (hMet : ∀ a b, Met choices₁ a b ↔ Met choices₂ a b)
    (hHonest₁ : Honest peers₁ choices₁)
    (hHonest₂ : Honest peers₂ choices₂)
    {net₁ net₂ : Network}
    (hExec₁ :
      exec lossless (start hasher₁ peers₁) choices₁ =
        some net₁)
    (hExec₂ :
      exec lossless (start hasher₂ peers₂) choices₂ =
        some net₂)
    (hQuiet₁ : net₁.pending = [])
    (hQuiet₂ : net₂.pending = [])
    {addr : SocketAddr}
    {node₁ node₂ : Node}
    (hNode₁ : net₁.nodes.get addr = some node₁)
    (hNode₂ : net₂.nodes.get addr = some node₂) :
    node₁.state.known = node₂.state.known := by
  have hInformed₁ :=
    informed_of_quiet hIds₁ hAddresses₁ hHonest₁ hExec₁
      hQuiet₁ addr node₁ hNode₁
  have hInformed₂ :=
    informed_of_quiet hIds₂ hAddresses₂ hHonest₂ hExec₂
      hQuiet₂ addr node₂ hNode₂
  funext id
  apply Option.ext
  intro contact
  have hSplit : ∀ (peers : List Peer) (met : Prop),
      (∃ peer ∈ peers,
          peer.peerId = id ∧ peer.address = contact ∧ met) ↔
        (∃ peer ∈ peers,
            peer.peerId = id ∧ peer.address = contact) ∧
          met := by
    intro peers met
    constructor
    · intro hBoth
      rcases hBoth with ⟨peer, hPeer, hId, hAddr, hMet⟩
      exact ⟨⟨peer, hPeer, hId, hAddr⟩, hMet⟩
    · intro hBoth
      rcases hBoth with ⟨⟨peer, hPeer, hId, hAddr⟩, hMet⟩
      exact ⟨peer, hPeer, hId, hAddr, hMet⟩
  rw [hInformed₁ id contact, hInformed₂ id contact, hSplit,
    hSplit, hPeers id contact, hMet addr contact]

/- The handshake the other way round. -/
def handshakeBack : List Choice :=
  [ .inject firstPeer.address secondPeer.address
      (.ping firstPeer.peerId)
  , .handle secondPeer.address
  , .deliver 1
  , .handle firstPeer.address
  , .deliver 0
  , .handle firstPeer.address
  , .deliver 0
  , .deliver 0
  , .handle secondPeer.address
  , .handle secondPeer.address
  , .deliver 0
  , .handle firstPeer.address ]

theorem knowledge_determined_handshake :
    ∃ (net₁ net₂ : Network) (node₁ node₂ : Node),
      exec lossless pair handshake = some net₁ ∧
        exec lossless
            (start
              (RandomState.insertionOrder SocketAddr Node)
              [secondPeer, firstPeer])
            handshakeBack = some net₂ ∧
        net₁.nodes.get firstPeer.address = some node₁ ∧
        net₂.nodes.get firstPeer.address = some node₂ ∧
        node₁.state.known = node₂.state.known := by
  have hRuns₁ :
      (exec lossless pair handshake).any fun net =>
        net.pending.isEmpty &&
          (net.nodes.get firstPeer.address).isSome := by
    decide +kernel
  have hRuns₂ :
      (exec lossless
          (start (RandomState.insertionOrder SocketAddr Node)
            [secondPeer, firstPeer])
          handshakeBack).any fun net =>
        net.pending.isEmpty &&
          (net.nodes.get firstPeer.address).isSome := by
    decide +kernel
  rcases (Option.any_eq_true _ _).mp hRuns₁ with
    ⟨net₁, hExec₁, hNet₁⟩
  rcases (Option.any_eq_true _ _).mp hRuns₂ with
    ⟨net₂, hExec₂, hNet₂⟩
  rw [Bool.and_eq_true, List.isEmpty_iff,
    Option.isSome_iff_exists] at hNet₁ hNet₂
  rcases hNet₁ with ⟨hQuiet₁, node₁, hNode₁⟩
  rcases hNet₂ with ⟨hQuiet₂, node₂, hNode₂⟩
  have hPeers : ∀ id addr,
      (∃ peer ∈ [firstPeer, secondPeer],
          peer.peerId = id ∧ peer.address = addr) ↔
        ∃ peer ∈ [secondPeer, firstPeer],
          peer.peerId = id ∧ peer.address = addr := by
    intro id addr
    simp [or_comm]
  have hMet : ∀ a b,
      Met handshake a b ↔ Met handshakeBack a b := by
    intro a b
    unfold Met handshake handshakeBack
    simp [exists_or, and_assoc, and_comm, or_comm]
  have hHonest₁ :
      Honest [firstPeer, secondPeer] handshake := by
    intro source destination id hPing
    simp only [handshake, List.mem_cons,
      Choice.inject.injEq, Message.ping.injEq] at hPing
    simp_all
  have hHonest₂ :
      Honest [secondPeer, firstPeer] handshakeBack := by
    intro source destination id hPing
    simp only [handshakeBack, List.mem_cons,
      Choice.inject.injEq, Message.ping.injEq] at hPing
    simp_all
  exact
    ⟨net₁, net₂, node₁, node₂, hExec₁, hExec₂, hNode₁,
      hNode₂,
      knowledge_determined hPeers (by decide) (by decide)
        (by decide) (by decide) hMet hHonest₁ hHonest₂ hExec₁
        hExec₂ hQuiet₁ hQuiet₂ hNode₁ hNode₂⟩

end Network

end WorldDat

------------------------------------------------------------
-- Networks That Come To Rest
------------------------------------------------------------

namespace WorldDat

open Rust

namespace Network

/-
  The discipline of a reliable network into which no pongs
  are injected.
-/
def orderly : Discipline where
  admits := lossless.admits
  fifo := true
  lossy := false
  duplicating := false

theorem orderly_within_lossless :
    orderly.Within lossless where
  admits := fun _ hAdmits => hAdmits
  fifo := by
    intro hFifo
    cases hFifo
  lossy := fun hLossy => hLossy
  duplicating := by
    intro hDuplicating
    cases hDuplicating

theorem orderly_within_reliable :
    orderly.Within reliable where
  admits := fun _ _ => rfl
  fifo := fun hFifo => hFifo
  lossy := fun hLossy => hLossy
  duplicating := fun hDuplicating => hDuplicating

/- Nothing comes from outside. -/
def Inner (choice : Choice) : Prop :=
  choice.isInject = false

/- As long as something is pending, something can happen. -/
theorem pending_eq_nil_of_stuck
    {d : Discipline}
    {net : Network}
    (hStuck : Machine.Stuck (step d) Inner net) :
    net.pending = [] := by
  have hFlight : net.flight = [] := by
    cases hFlight : net.flight with
    | nil => rfl
    | cons packet back =>
        have hNone := hStuck (.deliver 0) rfl
        have hSplit : net.flight = [] ++ packet :: back :=
          hFlight
        have hSome :=
          step_deliver (d := d) hSplit
            (fun _ hNobody => nomatch hNobody)
        rw [List.length_nil, hNone] at hSome
        cases hSome
  have hQueued : net.queued = [] := by
    rw [List.eq_nil_iff_forall_not_mem]
    intro packet hPacket
    rcases (mem_queued_iff net packet).mp hPacket with
      ⟨addr, node, hNode, hControl⟩
    rcases node with ⟨state, control⟩
    cases control with
    | nil => cases hControl
    | cons first rest =>
        have hNone := hStuck (.handle addr) rfl
        rw [step_handle hNode] at hNone
        cases hNone
  unfold pending
  rw [hFlight, hQueued]
  rfl

/- An orderly network that is left alone comes to rest. -/
theorem terminates :
    Machine.Terminates (step orderly) Inner workload Calm
      (fun net => net.pending = []) where
  keeps := by
    intro net choice next hCalm _ hStep
    have hReliable :=
      step_of_within orderly_within_reliable hStep
    exact calm_step hCalm (step_sound hReliable)
  less := by
    intro net choice next hCalm hInner hStep
    have hReliable :=
      step_of_within orderly_within_reliable hStep
    have hWork :=
      workload_step hCalm.announced (step_sound hReliable)
    have hCount := injections_of_step hReliable
    have hFree : toll choice = 0 := by
      unfold toll
      rw [hInner]
      rfl
    omega
  goal := by
    intro net _ hStuck
    exact pending_eq_nil_of_stuck hStuck

/-
  A network that is left alone after a run gets to a point
  where nothing can happen any more, and gets there in any
  order after so many steps; there, each worker knows itself
  and whomever it has met.
-/
structure Converges
    (peers : List Peer)
    (choices : List Choice)
    (net : Network) : Prop where
  bounded : ∀ more last,
    (∀ choice ∈ more, Inner choice) →
      exec orderly net more = some last →
        choices.length + more.length ≤
          8 * choices.countP Choice.isInject
  finishes : ∃ more last,
    (∀ choice ∈ more, Inner choice) ∧
      exec orderly net more = some last ∧
        Machine.Stuck (step orderly) Inner last
  informed : ∀ more last,
    (∀ choice ∈ more, Inner choice) →
      exec orderly net more = some last →
        Machine.Stuck (step orderly) Inner last →
          last.Informed peers choices

/- What happens inside introduces nobody. -/
theorem met_append_iff
    {choices more : List Choice}
    (hMore : ∀ choice ∈ more, Inner choice)
    (a b : SocketAddr) :
    Met (choices ++ more) a b ↔ Met choices a b := by
  have hSame : ∀ source destination message,
      .inject source destination message ∈ choices ++ more ↔
        .inject source destination message ∈ choices := by
    intro source destination message
    rw [List.mem_append]
    constructor
    · intro hIn
      rcases hIn with hBefore | hAfter
      · exact hBefore
      · cases hMore _ hAfter
    · intro hIn
      exact Or.inl hIn
  unfold Met
  simp only [hSame]

/-
  In every orderly network of workers with distinct ids and
  addresses, whoever is introduced gets to know each other.
-/
theorem converges_of_exec
    (hasher : RandomState SocketAddr Node)
    {peers : List Peer}
    (hIds : (peers.map Peer.peerId).Nodup)
    (hAddresses : (peers.map Peer.address).Nodup)
    {choices : List Choice}
    (hHonest : Honest peers choices)
    {net : Network}
    (hExec :
      exec orderly (start hasher peers) choices = some net) :
    net.Converges peers choices := by
  have hIdle := idle_start hasher peers
  have hCalm : net.Calm := by
    apply exec_invariant Calm (fun _ _ => calm_step)
      (exec_of_within orderly_within_reliable hExec)
      hIdle.calm
  have hAll : ∀ more last,
      exec orderly net more = some last →
        exec orderly (start hasher peers)
            (choices ++ more) = some last := by
    intro more last hMore
    unfold exec
    rw [Machine.exec_append_eq_some_iff]
    exact ⟨net, hExec, hMore⟩
  refine ⟨?_, ?_, ?_⟩
  · intro more last hInner hMore
    have hLength :=
      length_exec_le
        (exec_of_within orderly_within_reliable
          (hAll more last hMore)) hIdle
    have hNone : more.countP Choice.isInject = 0 := by
      rw [List.countP_eq_zero]
      intro choice hChoice
      rw [hInner choice hChoice]
      simp
    rw [List.length_append, List.countP_append,
      hNone] at hLength
    exact hLength
  · rcases terminates.exists_exec hCalm with
      ⟨more, last, hInner, hMore, _, hStuck, _⟩
    exact ⟨more, last, hInner, hMore, hStuck⟩
  · intro more last hInner hMore hStuck
    have hHonestAll : Honest peers (choices ++ more) := by
      intro source destination id hPing
      apply hHonest source destination id
      rcases List.mem_append.mp hPing with hBefore | hAfter
      · exact hBefore
      · cases hInner _ hAfter
    have hInformed :=
      informed_of_quiet hIds hAddresses hHonestAll
        (exec_of_within orderly_within_lossless
          (hAll more last hMore))
        (pending_eq_nil_of_stuck hStuck)
    intro addr node hNode id contact
    rw [hInformed addr node hNode id contact]
    simp only [met_append_iff hInner]

/- A handshake that has just begun. -/
theorem converges_of_exec_handshake :
    ∃ net,
      exec orderly pair (handshake.take 3) = some net ∧
        net.Converges [firstPeer, secondPeer]
          (handshake.take 3) := by
  have hRuns :
      (exec orderly pair (handshake.take 3)).isSome = true := by
    decide +kernel
  rcases Option.isSome_iff_exists.mp hRuns with
    ⟨net, hExec⟩
  refine ⟨net, hExec, ?_⟩
  apply converges_of_exec _ (by decide) (by decide) ?_ hExec
  intro source destination id hPing
  simp only [handshake, List.take, List.mem_cons,
    Choice.inject.injEq, Message.ping.injEq] at hPing
  simp_all

end Network

end WorldDat
