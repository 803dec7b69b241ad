import WorldDat.Sim.Refinement

/-
  The traffic of a simulated network.

  A new worker answers its two start-up messages to the
  bootstrap address.  The answers are responses, and nobody
  replies to a response.  So no worker ever sends anything
  else, however long the simulator runs.

  Main declarations:
    * `Entrant.answers` and `Entrant.repliesTo_prefix`
    * `Simulation.Responsive`
    * `Simulation.Traffic` and
      `Simulation.traffic_of_prepared`
-/

------------------------------------------------------------
-- Answers To The Start-Up Messages
------------------------------------------------------------

namespace WorldDat

/- The replies to one sequence of messages after another. -/
theorem WorkerState.repliesTo_append
    (self : WorkerState)
    (first second : List Incoming) :
    self.repliesTo (first ++ second) =
      self.repliesTo first ++
        (self.afterAll first).repliesTo second := by
  induction first generalizing self with
  | nil => rfl
  | cons msg rest ih =>
      rw [List.cons_append, repliesTo, ih, repliesTo,
        List.append_assoc]
      rfl

/- Nobody replies to responses. -/
theorem WorkerState.repliesTo_of_responses
    {self : WorkerState}
    {history : List Incoming}
    (hResponses : ∀ msg ∈ history,
      msg.2.isResponse = true) :
    self.repliesTo history = [] := by
  induction history generalizing self with
  | nil => rfl
  | cons first rest ih =>
      have hFirst := hResponses first List.mem_cons_self
      have hRest : ∀ msg ∈ rest,
          msg.2.isResponse = true := by
        intro msg hMsg
        exact hResponses msg (List.mem_cons_of_mem _ hMsg)
      rw [repliesTo,
        (self.replies_eq_nil_iff first.1 first.2).mpr hFirst,
        ih hRest]
      rfl

namespace Entrant

/- The worker as it is started. -/
def state (self : Entrant) : WorkerState :=
  WorkerState.fresh self.newcomer.hasher self.peerId
    self.newcomer.address

/- What the worker sends in answer to its own messages. -/
def answers (self : Entrant) : List Outgoing :=
  match self.bootstrap with
  | none => []
  | some b =>
      [ (b, .pong self.peerId)
      , (b, .findPeerResponsePeerFound self.peerId
          self.newcomer.address) ]

/- Both answers are responses. -/
theorem isResponse_of_mem_answers
    {self : Entrant}
    {out : Outgoing}
    (hOut : out ∈ self.answers) :
    out.2.isResponse = true := by
  rcases self with ⟨bootstrap, peerId, newcomer⟩
  cases bootstrap with
  | none => cases hOut
  | some b =>
      rcases List.mem_cons.mp hOut with hPong | hFound
      · rw [hPong]
        rfl
      · rw [List.mem_singleton.mp hFound]
        rfl

theorem length_answers_le (self : Entrant) :
    self.answers.length ≤ 2 := by
  rcases self with ⟨bootstrap, peerId, newcomer⟩
  cases bootstrap with
  | none => exact Nat.zero_le 2
  | some b => exact Nat.le_refl 2

/- The worker knows itself from the start. -/
theorem known_state (self : Entrant) :
    self.state.known self.peerId =
      some self.newcomer.address := by
  unfold state
  rw [WorkerState.known_fresh, if_pos rfl]

/- The replies to the start-up messages are the answers. -/
theorem repliesTo_startup
    (self : Entrant)
    {later : List Incoming}
    (hLater : ∀ msg ∈ later, msg.2.isResponse = true) :
    self.state.repliesTo (self.startup ++ later) =
      self.answers := by
  have hKnown := self.known_state
  have hNothing : self.state.repliesTo later = [] :=
    WorkerState.repliesTo_of_responses hLater
  rcases self with ⟨bootstrap, peerId, newcomer⟩
  cases bootstrap with
  | none => exact hNothing
  | some b =>
      simp only [startup, answers, List.cons_append,
        List.nil_append, WorkerState.repliesTo,
        WorkerState.replies, WorkerState.after,
        WorkerState.answer, hKnown, hNothing]
      rfl

/-
  Whatever the worker has handled of its start-up messages
  and of the responses behind them, its replies are the first
  of its answers.
-/
theorem repliesTo_prefix
    (self : Entrant)
    {handled control arrived : List Incoming}
    (hControl :
      handled ++ control = self.startup ++ arrived)
    (hArrived : ∀ msg ∈ arrived,
      msg.2.isResponse = true) :
    self.state.repliesTo handled <+: self.answers := by
  have hAll := self.repliesTo_startup hArrived
  rw [← hControl] at hAll
  rw [← hAll, WorkerState.repliesTo_append]
  exact List.prefix_append _ _

end Entrant

end WorldDat

------------------------------------------------------------
-- Responsive Simulations
------------------------------------------------------------

namespace WorldDat

open Rust

namespace Simulation

variable {R : Type}
variable {sim : WorkerSim R}
variable {entrants : List Entrant}
variable {self next run : Simulation R}

/- All that has been collected are answers of the workers. -/
def Responsive
    (entrants : List Entrant)
    (run : Simulation R) : Prop :=
  ∀ envelope ∈ run.collected, ∃ entrant ∈ entrants,
    entrant.newcomer.address = envelope.1 ∧
      envelope.2 ∈ entrant.answers

/- What has been delivered has been collected before. -/
theorem mem_collected_of_sentTo
    {src dst : SocketAddr}
    {msg : Message}
    (hMsg : (src, msg) ∈ sentTo dst run.delivered) :
    (src, dst, msg) ∈ run.collected := by
  rcases List.mem_filterMap.mp hMsg with
    ⟨⟨source, dest, sent⟩, hEnvelope, hHere⟩
  dsimp only at hHere
  by_cases hDest : dest = dst
  · rw [if_pos hDest, Option.some.injEq,
      Prod.mk.injEq] at hHere
    rw [hDest, hHere.1, hHere.2] at hEnvelope
    rcases List.mem_map.mp hEnvelope with
      ⟨item, hItem, hSame⟩
    apply List.mem_append_left
    rw [← hSame]
    exact List.mem_map_of_mem (List.mem_of_mem_filter hItem)
  · rw [if_neg hDest] at hHere
    cases hHere

/- So all that is delivered are responses. -/
theorem isResponse_of_mem_sentTo
    (hResponsive : run.Responsive entrants)
    {dst : SocketAddr}
    {msg : Incoming}
    (hMsg : msg ∈ sentTo dst run.delivered) :
    msg.2.isResponse = true := by
  rcases msg with ⟨src, msg⟩
  rcases hResponsive _ (mem_collected_of_sentTo hMsg) with
    ⟨entrant, _, _, hAnswer⟩
  have hResponse := Entrant.isResponse_of_mem_answers hAnswer
  exact hResponse

/-
  What a worker has handled are its start-up messages and
  what has been delivered to it, as far as they go.
-/
theorem Conveys.exists_entrant
    (hEmpty : ∀ addr, sim.workers.get addr = none)
    (hQueue :
      sim.workerAddQueue = entrants.map Entrant.queued)
    (hConveys : Conveys (start sim) run)
    {addr : SocketAddr}
    {worker : WorkerHandle}
    (hWorker : run.Hosts addr worker) :
    ∃ entrant ∈ entrants, ∃ handled,
      entrant.newcomer.address = addr ∧
        handled ++ worker.control =
          entrant.startup ++ sentTo addr run.delivered ∧
        worker.thread = entrant.state.afterAll handled ∧
        worker.sent ++ worker.unsent =
          entrant.state.repliesTo handled := by
  rcases hConveys.receiver addr worker hWorker with
    ⟨original, handled, hOriginal, hHandled⟩
  rcases (hosts_start_iff hEmpty hQueue addr original).mp
      hOriginal with
    ⟨entrant, hEntrant, hAddr, hSame⟩
  rcases entrant.idle_queued with
    ⟨hThread, _, hUnsent, hSent⟩
  have hState : original.thread = entrant.state := by
    rw [← hSame, hThread]
    rfl
  have hReplies := hHandled.replies
  rw [← hSame, hSent, hUnsent, hSame, hState] at hReplies
  have hControl := hHandled.control
  rw [← hSame, entrant.control_queued] at hControl
  refine
    ⟨entrant, hEntrant, handled, hAddr, hControl, ?_,
      hReplies⟩
  rw [← hState]
  exact hHandled.thread

/- What has been collected from a worker are answers. -/
theorem Conveys.mem_answers
    (hEmpty : ∀ addr, sim.workers.get addr = none)
    (hQueue :
      sim.workerAddQueue = entrants.map Entrant.queued)
    (hConveys : Conveys (start sim) run)
    (hResponsive : run.Responsive entrants)
    {addr : SocketAddr}
    {worker : WorkerHandle}
    (hWorker : run.Hosts addr worker) :
    ∃ entrant ∈ entrants,
      entrant.newcomer.address = addr ∧
        worker.sent ++ worker.unsent <+: entrant.answers ∧
        (worker.control = [] →
          worker.sent ++ worker.unsent = entrant.answers) := by
  rcases hConveys.exists_entrant hEmpty hQueue hWorker with
    ⟨entrant, hEntrant, handled, hAddr, hControl, _,
      hReplies⟩
  have hArrived : ∀ msg ∈ sentTo addr run.delivered,
      msg.2.isResponse = true := by
    intro msg hMsg
    exact isResponse_of_mem_sentTo hResponsive hMsg
  refine ⟨entrant, hEntrant, hAddr, ?_, ?_⟩
  · rw [hReplies]
    exact entrant.repliesTo_prefix hControl hArrived
  · intro hIdle
    rw [hIdle, List.append_nil] at hControl
    rw [hReplies, hControl]
    exact entrant.repliesTo_startup hArrived

/- Only answers are collected. -/
theorem responsive_step
    (hEmpty : ∀ addr, sim.workers.get addr = none)
    (hQueue :
      sim.workerAddQueue = entrants.map Entrant.queued)
    (hConveys : Conveys (start sim) self)
    (hResponsive : self.Responsive entrants)
    (hEffect : Effect self next) :
    next.Responsive entrants := by
  cases hEffect with
  | quiet hHosts hMessages hForwarded =>
      unfold Responsive
      rw [collected_congr hMessages hForwarded]
      exact hResponsive
  | work place old new hOld hWork hHosts hMessages
      hForwarded =>
      unfold Responsive
      rw [collected_congr hMessages hForwarded]
      exact hResponsive
  | route src dst msg old hOld hHosts hMessages
      hForwarded =>
      unfold Responsive
      rw [collected_of_forwarded hMessages hForwarded]
      exact hResponsive
  | ignore envelope hHosts hMessages hForwarded =>
      unfold Responsive
      rw [collected_of_forwarded hMessages hForwarded]
      exact hResponsive
  | collect src old out rest hOld hChannel hHosts hMessages
      hForwarded =>
      intro envelope hEnvelope
      have hCollected :
          next.collected = self.collected ++ [(src, out)] := by
        unfold collected routed
        rw [hMessages, hForwarded, List.append_assoc]
      rw [hCollected] at hEnvelope
      rcases List.mem_append.mp hEnvelope with hIn | hNew
      · exact hResponsive envelope hIn
      · rw [List.mem_singleton.mp hNew]
        rcases hConveys.mem_answers hEmpty hQueue
            hResponsive hOld with
          ⟨entrant, hEntrant, hAddr, hPrefix, _⟩
        have hSent : out ∈ old.sent ++ old.unsent := by
          apply List.mem_append_left
          rw [hConveys.sender src old hOld, hChannel]
          apply List.mem_append_right
          exact List.mem_cons_self
        exact
          ⟨entrant, hEntrant, hAddr, hPrefix.subset hSent⟩

end Simulation

end WorldDat

------------------------------------------------------------
-- All Traffic
------------------------------------------------------------

namespace WorldDat

open Rust

/- Envelopes are counted at the addresses that sent them. -/
theorem length_le_sum_sentBy
    {addresses : List SocketAddr}
    {envelopes : List Envelope}
    (hSenders : ∀ envelope ∈ envelopes,
      envelope.1 ∈ addresses) :
    envelopes.length ≤
      (addresses.map fun addr =>
        (sentBy addr envelopes).length).sum := by
  induction envelopes with
  | nil => exact Nat.zero_le _
  | cons envelope rest ih =>
      have hRest : ∀ other ∈ rest, other.1 ∈ addresses := by
        intro other hOther
        exact hSenders other (List.mem_cons_of_mem _ hOther)
      have hOne : ∀ addr,
          (sentBy addr (envelope :: rest)).length =
            (sentBy addr rest).length +
              if envelope.1 = addr then 1 else 0 := by
        intro addr
        unfold sentBy
        by_cases hAddr : envelope.1 = addr
        · simp [hAddr]
        · simp [hAddr]
      have hHere :
          1 ≤ (addresses.map fun addr =>
            if envelope.1 = addr then 1 else 0).sum := by
        apply List.le_sum_of_mem
        rw [List.mem_map]
        exact
          ⟨envelope.1, hSenders _ List.mem_cons_self,
            if_pos rfl⟩
      have hTail := ih hRest
      simp only [hOne, List.sum_map_add, List.length_cons]
      omega

namespace Simulation

variable {R : Type}

/-
  All that the workers have sent are the first of the answers
  to their own start-up messages, all of them once a worker
  has nothing left to handle and to send.  All that has ever
  been collected are answers, at most two from each worker,
  and nobody replies to them.
-/
structure Traffic
    (entrants : List Entrant)
    (run : Simulation R) : Prop where
  answers : ∀ entrant ∈ entrants,
    entrant.state.repliesTo entrant.startup = entrant.answers
  sent : ∀ addr worker, run.Hosts addr worker →
    ∃ entrant ∈ entrants, entrant.newcomer.address = addr ∧
      worker.sent ++ worker.unsent <+: entrant.answers ∧
      (worker.control = [] →
        worker.sent ++ worker.unsent = entrant.answers) ∧
      (worker.control = [] → worker.unsent = [] →
        worker.sent = entrant.answers)
  collected : ∀ envelope ∈ run.collected,
    ∃ entrant ∈ entrants,
      entrant.newcomer.address = envelope.1 ∧
        envelope.2 ∈ entrant.answers
  unanswered : ∀ envelope ∈ run.collected,
    ∀ worker : WorkerState,
      worker.replies (envelope.1, envelope.2.2) = []
  each : ∀ addr, (sentBy addr run.collected).length ≤ 2
  total : run.collected.length ≤ 2 * entrants.length

/- Entrants that have been added or not are all there is. -/
theorem exists_worker_of_entrant
    {sim : WorkerSim R}
    {entrants : List Entrant}
    {ticks : List Tick}
    {final : Simulation R}
    (hEmpty : ∀ addr, sim.workers.get addr = none)
    (hQueue :
      sim.workerAddQueue = entrants.map Entrant.queued)
    (hExec : (start sim).exec ticks = some final)
    {entrant : Entrant}
    (hEntrant : entrant ∈ entrants) :
    ∃ worker,
      final.Hosts entrant.newcomer.address worker := by
  rw [exists_hosts_exec hExec]
  refine ⟨entrant.queued.2.1, ?_⟩
  rw [hosts_start_iff hEmpty hQueue]
  exact ⟨entrant, hEntrant, rfl, rfl⟩

/- No run of prepared workers loses track of its traffic. -/
theorem conveys_responsive_exec
    {sim : WorkerSim R}
    {entrants : List Entrant}
    {ticks : List Tick}
    {final : Simulation R}
    (hEmpty : ∀ addr, sim.workers.get addr = none)
    (hQueue :
      sim.workerAddQueue = entrants.map Entrant.queued)
    (hDistinct : (sim.workerAddQueue.map Prod.fst).Nodup)
    (hExec : (start sim).exec ticks = some final) :
    Conveys (start sim) final ∧
      final.Responsive entrants := by
  have hInit : Conveys (start sim) (start sim) := by
    apply conveys_start
    refine ⟨hDistinct, fun _ _ => hEmpty _, ?_⟩
    intro addr worker hWorker
    rcases (hosts_start_iff hEmpty hQueue addr worker).mp
        hWorker with
      ⟨entrant, _, _, hSame⟩
    rcases entrant.idle_queued with ⟨_, hChannel, _, hSent⟩
    rw [← hSame, hChannel, hSent]
  have hInv :
      final.Placed ∧ Conveys (start sim) final ∧
        final.Responsive entrants := by
    apply exec_invariant
      (fun run =>
        run.Placed ∧ Conveys (start sim) run ∧
          run.Responsive entrants)
      ?_ hExec
    · refine
        ⟨placed_start_of_empty hEmpty hDistinct, hInit, ?_⟩
      intro envelope hEnvelope
      cases hEnvelope
    · intro run tick next hRun hStep
      rcases hRun with ⟨hPlaced, hConveys, hResponsive⟩
      have hEffect := hStep.effect hPlaced
      exact
        ⟨placed_step hPlaced hStep,
          conveys_step hConveys hEffect,
          responsive_step hEmpty hQueue hConveys hResponsive
            hEffect⟩
  exact hInv.2

/- Nobody's messages are collected more than twice. -/
theorem length_sentBy_collected_le
    {sim : WorkerSim R}
    {entrants : List Entrant}
    {ticks : List Tick}
    {final : Simulation R}
    (hEmpty : ∀ addr, sim.workers.get addr = none)
    (hQueue :
      sim.workerAddQueue = entrants.map Entrant.queued)
    (hExec : (start sim).exec ticks = some final)
    (hConveys : Conveys (start sim) final)
    (hResponsive : final.Responsive entrants)
    (addr : SocketAddr) :
    (sentBy addr final.collected).length ≤ 2 := by
  by_cases hHosted :
      ∃ entrant ∈ entrants, entrant.newcomer.address = addr
  · rcases hHosted with ⟨entrant, hEntrant, hAddr⟩
    rcases exists_worker_of_entrant hEmpty hQueue hExec
        hEntrant with
      ⟨worker, hWorker⟩
    rw [hAddr] at hWorker
    rcases hConveys.mem_answers hEmpty hQueue hResponsive
        hWorker with
      ⟨other, _, _, hPrefix, _⟩
    have hSent := hConveys.sender addr worker hWorker
    have hLength := hPrefix.length_le
    have hAnswers := other.length_answers_le
    rw [hSent, List.length_append,
      List.length_append] at hLength
    omega
  · -- nothing has been collected from anybody else
    have hNothing : sentBy addr final.collected = [] := by
      unfold sentBy
      rw [List.filterMap_eq_nil_iff]
      intro envelope hEnvelope
      apply if_neg
      intro hAddr
      rcases hResponsive envelope hEnvelope with
        ⟨entrant, hEntrant, hSource, _⟩
      exact
        hHosted ⟨entrant, hEntrant, hSource.trans hAddr⟩
    rw [hNothing]
    exact Nat.zero_le 2

/- The traffic of every run of a prepared simulator. -/
theorem traffic_of_prepared
    (newInsecureRandom : R → PeerId × R)
    (hasher : RandomState SocketAddr WorkerHandle)
    (rng : R)
    (calls : List WorkerSim.Call)
    {sim : WorkerSim R}
    (hSim :
      (WorkerSim.new hasher rng).prepare newInsecureRandom
        calls = .ok sim)
    (hDistinct : (sim.workerAddQueue.map Prod.fst).Nodup)
    {ticks : List Tick}
    {final : Simulation R}
    (hExec : (start sim).exec ticks = some final) :
    ∃ entrants,
      sim.workerAddQueue = entrants.map Entrant.queued ∧
        final.Traffic entrants := by
  rcases WorkerSim.entrants_of_prepared hSim with
    ⟨entrants, hEmpty, hQueue⟩
  rcases conveys_responsive_exec hEmpty hQueue hDistinct
      hExec with
    ⟨hConveys, hResponsive⟩
  have hEach := length_sentBy_collected_le hEmpty hQueue
    hExec hConveys hResponsive
  refine
    ⟨entrants, hQueue, ?_, ?_, hResponsive, ?_, hEach, ?_⟩
  · intro entrant _
    have hReplies :=
      entrant.repliesTo_startup (List.forall_mem_nil _)
    rw [List.append_nil] at hReplies
    exact hReplies
  · intro addr worker hWorker
    rcases hConveys.mem_answers hEmpty hQueue hResponsive
        hWorker with
      ⟨entrant, hEntrant, hAddr, hPrefix, hAll⟩
    refine
      ⟨entrant, hEntrant, hAddr, hPrefix, hAll, ?_⟩
    intro hControl hUnsent
    have hSent := hAll hControl
    rw [hUnsent, List.append_nil] at hSent
    exact hSent
  · intro envelope hEnvelope worker
    rcases hResponsive envelope hEnvelope with
      ⟨entrant, _, _, hAnswer⟩
    exact
      (worker.replies_eq_nil_iff envelope.1 envelope.2.2).mpr
        (Entrant.isResponse_of_mem_answers hAnswer)
  · have hSenders : ∀ envelope ∈ final.collected,
        envelope.1 ∈
          entrants.map fun entrant =>
            entrant.newcomer.address := by
      intro envelope hEnvelope
      rcases hResponsive envelope hEnvelope with
        ⟨entrant, hEntrant, hAddr, _⟩
      rw [← hAddr]
      exact List.mem_map_of_mem hEntrant
    have hTwo : ∀ count ∈
        (entrants.map fun entrant =>
          entrant.newcomer.address).map
          fun addr => (sentBy addr final.collected).length,
        count ≤ 2 := by
      intro count hCount
      rcases List.mem_map.mp hCount with ⟨addr, _, hSame⟩
      rw [← hSame]
      exact hEach addr
    have hSum := List.sum_le_card_nsmul _ 2 hTwo
    have hCount := length_le_sum_sentBy hSenders
    rw [List.length_map, List.length_map,
      Nat.nsmul_eq_mul] at hSum
    omega

theorem traffic_of_prepared_heckin :
    ∃ (sim : WorkerSim Nat) (final : Simulation Nat)
        (entrants : List Entrant),
      (start sim).exec heckinTicks = some final ∧
        sim.workerAddQueue = entrants.map Entrant.queued ∧
        final.Traffic entrants := by
  rcases exists_heckin_run with
    ⟨sim, final, hSim, _, hDistinct, _, hExec, _⟩
  rcases traffic_of_prepared nextPeerId _ 0 _ hSim hDistinct
      hExec with
    ⟨entrants, hQueue, hTraffic⟩
  exact ⟨sim, final, entrants, hExec, hQueue, hTraffic⟩

end Simulation

end WorldDat
