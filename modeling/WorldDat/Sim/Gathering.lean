import WorldDat.Sim.Traffic

/-
  Who gets to know whom in the simulator.

  A worker knows itself and those that were created while its
  own address was the bootstrap address, and nobody else.
  The worker that was added first has missed none of their
  pongs, so once everything is quiet it knows all of them.

  Main declarations:
    * `WorkerState.known_afterAll_cases`
    * `Simulation.FirstHears`
    * `Simulation.Gathers` and
      `Simulation.gathers_of_prepared`
-/

------------------------------------------------------------
-- Pongs In A History
------------------------------------------------------------

namespace WorldDat

namespace WorkerState

/- What a worker knows it has known before or been told. -/
theorem known_afterAll_cases
    {self : WorkerState}
    {history : List Incoming}
    {id : PeerId}
    {contact : SocketAddr}
    (hKnown :
      (self.afterAll history).known id = some contact) :
    self.known id = some contact ∨
      (contact, .pong id) ∈ history := by
  induction history using List.reverseRecOn with
  | nil => exact Or.inl hKnown
  | append_singleton history msg ih =>
      rcases msg with ⟨addr, msg⟩
      rw [afterAll_concat, known_after] at hKnown
      by_cases hPong : msg = .pong id
      · rw [if_pos hPong, Option.some.injEq] at hKnown
        rw [hPong, hKnown]
        apply Or.inr
        apply List.mem_append_right
        exact List.mem_singleton_self _
      · rw [if_neg hPong] at hKnown
        rcases ih hKnown with hBefore | hTold
        · exact Or.inl hBefore
        · exact Or.inr (List.mem_append_left _ hTold)

/- A worker does not forget what it has been told. -/
theorem knows_afterAll
    {self : WorkerState}
    {history : List Incoming}
    {id : PeerId}
    (hKnows :
      self.Knows id ∨ ∃ msg ∈ history, msg.2 = .pong id) :
    (self.afterAll history).Knows id := by
  induction history using List.reverseRecOn with
  | nil =>
      rcases hKnows with hBefore | ⟨msg, hMsg, _⟩
      · exact hBefore
      · cases hMsg
  | append_singleton history msg ih =>
      rw [afterAll_concat]
      apply knows_after
      rcases hKnows with hBefore | ⟨told, hTold, hPong⟩
      · exact Or.inl (ih (Or.inl hBefore))
      · rcases List.mem_append.mp hTold with hOld | hNew
        · exact Or.inl (ih (Or.inr ⟨told, hOld, hPong⟩))
        · rw [List.mem_singleton] at hNew
          rw [← hNew]
          exact Or.inr hPong

end WorkerState

/- The only pongs of an entrant are those it answers. -/
theorem Entrant.pong_mem_answers
    {self : Entrant}
    {dst : SocketAddr}
    {id : PeerId}
    (hPong : (dst, .pong id) ∈ self.answers) :
    self.bootstrap = some dst ∧ self.peerId = id := by
  rcases self with ⟨bootstrap, peerId, newcomer⟩
  cases bootstrap with
  | none => cases hPong
  | some b =>
      rcases List.mem_cons.mp hPong with hHere | hFound
      · cases hHere
        exact ⟨rfl, rfl⟩
      · cases List.mem_singleton.mp hFound

/- Nobody starts with pongs. -/
theorem Entrant.pong_notMem_startup
    {self : Entrant}
    {src : SocketAddr}
    {id : PeerId} :
    (src, .pong id) ∉ self.startup := by
  intro hPong
  rcases self with ⟨bootstrap, peerId, newcomer⟩
  cases bootstrap with
  | none => cases hPong
  | some b =>
      rcases List.mem_cons.mp hPong with hPing | hFind
      · cases hPing
      · cases List.mem_singleton.mp hFind

end WorldDat

------------------------------------------------------------
-- The Worker That Is Added First
------------------------------------------------------------

namespace WorldDat

open Rust

namespace Simulation

variable {R : Type}

/- The address of the worker that was added first. -/
def firstAdded (run : Simulation R) : Option SocketAddr :=
  run.added.head?.map Prod.fst

/-
  Nothing is routed before somebody has been added, and
  whoever was added first gets all that is routed to it.
-/
structure FirstHears (run : Simulation R) : Prop where
  nobody : run.added = [] →
    run.messages = [] ∧ run.forwarded = [] ∧
      ∀ addr, run.sim.workers.get addr = none
  first : ∀ addr, run.firstAdded = some addr →
    run.Registered addr ∧
      ∀ item ∈ run.forwarded,
        item.envelope.2.1 = addr → item.delivered = true

/- A tick that adds nobody routes to the first one added. -/
theorem FirstHears.of_step
    {self next : Simulation R}
    {tick : Tick}
    (hHears : self.FirstHears)
    (hStep : Step self tick next)
    (hAdded : next.added = self.added)
    (hNobody : self.added = [] →
      next.messages = [] ∧ next.forwarded = [] ∧
        ∀ addr, next.sim.workers.get addr = none) :
    next.FirstHears where
  nobody := by
    intro hEmpty
    rw [hAdded] at hEmpty
    exact hNobody hEmpty
  first := by
    intro addr hFirst
    have hBefore : self.firstAdded = some addr := by
      unfold firstAdded at hFirst ⊢
      rw [← hAdded]
      exact hFirst
    rcases hHears.first addr hBefore with
      ⟨hRegistered, hDelivered⟩
    rcases hStep.forwarded_cases with ⟨items, hItems, hNew⟩
    refine ⟨hStep.registered hRegistered, ?_⟩
    intro item hItem hDest
    rw [hItems] at hItem
    rcases List.mem_append.mp hItem with hOld | hLast
    · exact hDelivered item hOld hDest
    · apply hNew item hLast
      rw [hDest]
      exact hRegistered

/- Every tick keeps the first one added informed. -/
theorem firstHears_step
    {self next : Simulation R}
    {tick : Tick}
    (hHears : self.FirstHears)
    (hStep : Step self tick next) :
    next.FirstHears := by
  cases hStep with
  | add elapsed dur front addr worker sim hPhase hQueue hDue
      hSim =>
      constructor
      case nobody =>
        intro hEmpty
        simp at hEmpty
      case first =>
        intro place hFirst
        have hHere : self.added = [] →
            place = addr := by
          intro hNone
          rw [firstAdded] at hFirst
          dsimp only at hFirst
          rw [hNone] at hFirst
          exact (Option.some.inj hFirst).symm
        have hWorkers :
            sim.workers =
              self.sim.workers.insert addr worker := by
          rw [hSim]
          rfl
        by_cases hNone : self.added = []
        · refine ⟨?_, ?_⟩
          · unfold Registered
            dsimp only
            rw [hWorkers, hHere hNone,
              HashMap.get_insert_self]
            rfl
          · intro item hItem
            dsimp only at hItem
            rw [(hHears.nobody hNone).2.1] at hItem
            cases hItem
        · have hBefore : self.firstAdded = some place := by
            unfold firstAdded at hFirst ⊢
            dsimp only at hFirst
            rw [List.head?_append_of_ne_nil _ hNone] at hFirst
            exact hFirst
          rcases hHears.first place hBefore with
            ⟨hRegistered, hDelivered⟩
          exact
            ⟨registered_of_insert hWorkers hRegistered,
              hDelivered⟩
  | wait => exact ⟨hHears.nobody, hHears.first⟩
  | collected => exact ⟨hHears.nobody, hHears.first⟩
  | skip => exact ⟨hHears.nobody, hHears.first⟩
  | routed => exact ⟨hHears.nobody, hHears.first⟩
  | workQueued => exact ⟨hHears.nobody, hHears.first⟩
  | collect src dst msg todo worker rest hPhase hWorker
      hMessages =>
      apply hHears.of_step
        (.collect src dst msg todo worker rest hPhase hWorker
          hMessages) rfl
      intro hNone
      rw [(hHears.nobody hNone).2.2] at hWorker
      cases hWorker
  | route src dest msg rest worker hPhase hMessages
      hWorker =>
      apply hHears.of_step
        (.route src dest msg rest worker hPhase hMessages
          hWorker) rfl
      intro hNone
      rw [(hHears.nobody hNone).2.2] at hWorker
      cases hWorker
  | ignore src dest msg rest hPhase hMessages hNobody =>
      apply hHears.of_step
        (.ignore src dest msg rest hPhase hMessages hNobody)
        rfl
      intro hNone
      rw [(hHears.nobody hNone).1] at hMessages
      cases hMessages
  | work addr worker new hWorker hWork =>
      apply hHears.of_step
        (.work addr worker new hWorker hWork) rfl
      intro hNone
      rw [(hHears.nobody hNone).2.2] at hWorker
      cases hWorker

end Simulation

end WorldDat

------------------------------------------------------------
-- Gathered Workers
------------------------------------------------------------

namespace WorldDat

open Rust

namespace Simulation

variable {R : Type}
variable {sim : WorkerSim R}
variable {entrants : List Entrant}
variable {run : Simulation R}

/- A worker knows those that bootstrap from it. -/
theorem Conveys.exists_known
    (hEmpty : ∀ addr, sim.workers.get addr = none)
    (hQueue :
      sim.workerAddQueue = entrants.map Entrant.queued)
    (hConveys : Conveys (start sim) run)
    (hResponsive : run.Responsive entrants)
    {addr contact : SocketAddr}
    {worker : WorkerHandle}
    {id : PeerId}
    (hWorker : run.Hosts addr worker)
    (hKnown : worker.thread.known id = some contact) :
    ∃ entrant ∈ entrants,
      entrant.peerId = id ∧
        entrant.newcomer.address = contact ∧
        (contact = addr ∨ entrant.bootstrap = some addr) := by
  rcases hConveys.exists_entrant hEmpty hQueue hWorker with
    ⟨own, hOwn, handled, hAddr, hControl, hThread, _⟩
  rw [hThread] at hKnown
  rcases WorkerState.known_afterAll_cases hKnown with
    hSelf | hPong
  · unfold Entrant.state at hSelf
    rw [WorkerState.known_fresh] at hSelf
    split at hSelf
    · rename_i hId
      have hContact := Option.some.inj hSelf
      refine ⟨own, hOwn, hId.symm, hContact, Or.inl ?_⟩
      rw [← hContact, hAddr]
    · cases hSelf
  · have hIn :
        (contact, .pong id) ∈
          own.startup ++ sentTo addr run.delivered := by
      rw [← hControl]
      exact List.mem_append_left _ hPong
    rcases List.mem_append.mp hIn with hStartup | hDelivered
    · exact absurd hStartup Entrant.pong_notMem_startup
    · rcases hResponsive _
          (mem_collected_of_sentTo hDelivered) with
        ⟨entrant, hEntrant, hContact, hAnswer⟩
      rcases Entrant.pong_mem_answers hAnswer with
        ⟨hBootstrap, hId⟩
      exact
        ⟨entrant, hEntrant, hId, hContact, Or.inr hBootstrap⟩

/- Once everything is quiet, all answers have been routed. -/
theorem Conveys.mem_routed
    (hEmpty : ∀ addr, sim.workers.get addr = none)
    (hQueue :
      sim.workerAddQueue = entrants.map Entrant.queued)
    (hDistinct :
      (entrants.map fun entrant =>
        entrant.newcomer.address).Nodup)
    (hConveys : Conveys (start sim) run)
    (hResponsive : run.Responsive entrants)
    (hQuiescent : run.Quiescent)
    {entrant : Entrant}
    (hEntrant : entrant ∈ entrants)
    {worker : WorkerHandle}
    (hWorker :
      run.sim.workers.get entrant.newcomer.address =
        some worker)
    {out : Outgoing}
    (hOut : out ∈ entrant.answers) :
    (entrant.newcomer.address, out) ∈ run.routed := by
  have hIdle := hQuiescent.workers _ worker hWorker
  have hHosts :
      run.Hosts entrant.newcomer.address worker :=
    Or.inl hWorker
  rcases hConveys.mem_answers hEmpty hQueue hResponsive
      hHosts with
    ⟨same, hSame, hAddr, _, hAll⟩
  have hEntrantSame : same = entrant :=
    List.inj_on_of_nodup_map hDistinct hSame hEntrant hAddr
  have hSent := hAll hIdle.1
  rw [hIdle.2.1, List.append_nil,
    hConveys.sender _ worker hHosts, hIdle.2.2,
    List.append_nil, hEntrantSame] at hSent
  rw [← hSent] at hOut
  rcases List.mem_filterMap.mp hOut with
    ⟨⟨src, sent⟩, hEnvelope, hHere⟩
  dsimp only at hHere
  by_cases hSrc : src = entrant.newcomer.address
  · rw [if_pos hSrc, Option.some.injEq] at hHere
    rw [collected, hQuiescent.messages,
      List.append_nil] at hEnvelope
    rw [← hSrc, ← hHere]
    exact hEnvelope
  · rw [if_neg hSrc] at hHere
    cases hHere

/- Whoever has been delivered a pong knows its sender. -/
theorem Conveys.knows_of_delivered
    (hEmpty : ∀ addr, sim.workers.get addr = none)
    (hQueue :
      sim.workerAddQueue = entrants.map Entrant.queued)
    (hConveys : Conveys (start sim) run)
    {src dst : SocketAddr}
    {worker : WorkerHandle}
    (hWorker : run.Hosts dst worker)
    (hIdle : worker.control = [])
    {id : PeerId}
    {item : Forwarded}
    (hItem : item ∈ run.forwarded)
    (hDelivered : item.delivered = true)
    (hPong : item.envelope = (src, dst, .pong id)) :
    worker.thread.Knows id := by
  rcases hConveys.exists_entrant hEmpty hQueue hWorker with
    ⟨own, _, handled, _, hControl, hThread, _⟩
  rw [hIdle, List.append_nil] at hControl
  rw [hThread]
  apply WorkerState.knows_afterAll
  refine Or.inr ⟨(src, .pong id), ?_, rfl⟩
  rw [hControl]
  apply List.mem_append_right
  unfold sentTo delivered
  rw [List.mem_filterMap]
  refine ⟨item.envelope, ?_, ?_⟩
  · apply List.mem_map_of_mem
    exact List.mem_filter.mpr ⟨hItem, hDelivered⟩
  · rw [hPong]
    exact if_pos rfl

/- A worker never forgets itself. -/
theorem Conveys.knows_self
    (hEmpty : ∀ addr, sim.workers.get addr = none)
    (hQueue :
      sim.workerAddQueue = entrants.map Entrant.queued)
    (hDistinct :
      (entrants.map fun entrant =>
        entrant.newcomer.address).Nodup)
    (hConveys : Conveys (start sim) run)
    {entrant : Entrant}
    (hEntrant : entrant ∈ entrants)
    {worker : WorkerHandle}
    (hWorker :
      run.Hosts entrant.newcomer.address worker) :
    worker.thread.Knows entrant.peerId := by
  rcases hConveys.exists_entrant hEmpty hQueue hWorker with
    ⟨own, hOwn, handled, hAddr, _, hThread, _⟩
  have hSame : own = entrant :=
    List.inj_on_of_nodup_map hDistinct hOwn hEntrant hAddr
  rw [hThread, hSame]
  apply WorkerState.knows_afterAll
  apply Or.inl
  exact WorkerState.knows_fresh _ _ _

/-
  At any time, a worker knows nobody but itself and those
  that bootstrap from its address.  Once nothing is left to
  be done, the worker that was added first knows all of
  these.
-/
structure Gathers
    (entrants : List Entrant)
    (run : Simulation R) : Prop where
  only : ∀ addr worker, run.Hosts addr worker →
    ∀ id contact, worker.thread.known id = some contact →
      ∃ entrant ∈ entrants,
        entrant.peerId = id ∧
          entrant.newcomer.address = contact ∧
          (contact = addr ∨ entrant.bootstrap = some addr)
  all : run.Quiescent → ∀ addr worker,
    run.firstAdded = some addr →
      run.sim.workers.get addr = some worker →
        ∀ entrant ∈ entrants,
          entrant.newcomer.address = addr ∨
              entrant.bootstrap = some addr →
            worker.thread.known entrant.peerId =
              some entrant.newcomer.address

/-
  In every run of a prepared simulator whose workers have
  distinct ids, the workers gather at the first one.
-/
theorem gathers_of_prepared
    (newInsecureRandom : R → PeerId × R)
    (hasher : RandomState SocketAddr WorkerHandle)
    (rng : R)
    (calls : List WorkerSim.Call)
    {sim : WorkerSim R}
    (hSim :
      (WorkerSim.new hasher rng).prepare newInsecureRandom
        calls = .ok sim)
    (hDistinct : (sim.workerAddQueue.map Prod.fst).Nodup)
    (hIds :
      (sim.workerAddQueue.map fun entry =>
        entry.2.1.peerId).Nodup)
    {ticks : List Tick}
    {final : Simulation R}
    (hExec : (start sim).exec ticks = some final) :
    ∃ entrants,
      sim.workerAddQueue = entrants.map Entrant.queued ∧
        final.Gathers entrants := by
  rcases WorkerSim.entrants_of_prepared hSim with
    ⟨entrants, hEmpty, hQueue⟩
  rcases conveys_responsive_exec hEmpty hQueue hDistinct
      hExec with
    ⟨hConveys, hResponsive⟩
  have hHears : final.FirstHears := by
    apply exec_invariant FirstHears
      (fun _ _ _ hRun hStep => firstHears_step hRun hStep)
      hExec
    constructor
    · intro _
      exact ⟨rfl, rfl, hEmpty⟩
    · intro addr hFirst
      cases hFirst
  have hAddresses :
      (entrants.map fun entrant =>
        entrant.newcomer.address).Nodup := by
    rw [hQueue, List.map_map] at hDistinct
    exact hDistinct
  have hPeerIds : (entrants.map Entrant.peerId).Nodup := by
    rw [hQueue, List.map_map] at hIds
    have hSame :
        (fun entry : QueuedWorker => entry.2.1.peerId) ∘
            Entrant.queued =
          Entrant.peerId := by
      funext entrant
      exact entrant.peerId_queued
    rw [hSame] at hIds
    exact hIds
  refine ⟨entrants, hQueue, ?_, ?_⟩
  · intro addr worker hWorker id contact hKnown
    exact
      hConveys.exists_known hEmpty hQueue hResponsive hWorker
        hKnown
  · intro hQuiescent addr worker hFirst hWorker entrant
      hEntrant hBoot
    have hKnows : worker.thread.Knows entrant.peerId := by
      rcases hBoot with hHere | hBootstrap
      · apply hConveys.knows_self hEmpty hQueue hAddresses
          hEntrant
        rw [hHere]
        exact Or.inl hWorker
      · have hPong :
            (addr, .pong entrant.peerId) ∈
              entrant.answers := by
          unfold Entrant.answers
          rw [hBootstrap]
          exact List.mem_cons_self
        rcases exists_worker_of_entrant hEmpty hQueue hExec
            hEntrant with
          ⟨sender, hGet | ⟨delay, hQueued⟩⟩
        · have hRouted :=
            hConveys.mem_routed hEmpty hQueue hAddresses
              hResponsive hQuiescent hEntrant hGet hPong
          rcases List.mem_map.mp hRouted with
            ⟨item, hItem, hEnvelope⟩
          have hDelivered : item.delivered = true := by
            apply (hHears.first addr hFirst).2 item hItem
            rw [hEnvelope]
          exact
            hConveys.knows_of_delivered hEmpty hQueue
              (Or.inl hWorker)
              (hQuiescent.workers addr worker hWorker).1
              hItem hDelivered hEnvelope
        · rw [hQuiescent.queue] at hQueued
          cases hQueued
    rcases Option.isSome_iff_exists.mp hKnows with
      ⟨contact, hContact⟩
    rcases hConveys.exists_known hEmpty hQueue hResponsive
        (Or.inl hWorker) hContact with
      ⟨other, hOther, hId, hAddr, _⟩
    have hSame : other = entrant :=
      List.inj_on_of_nodup_map hPeerIds hOther hEntrant hId
    rw [hContact, ← hAddr, hSame]

theorem gathers_of_prepared_heckin :
    ∃ (sim : WorkerSim Nat) (final : Simulation Nat)
        (entrants : List Entrant),
      (start sim).exec heckinTicks = some final ∧
        final.Quiescent ∧
        sim.workerAddQueue = entrants.map Entrant.queued ∧
        final.Gathers entrants := by
  rcases exists_heckin_run with
    ⟨sim, final, hSim, _, hDistinct, hIds, hExec,
      hQuiescent⟩
  rcases gathers_of_prepared nextPeerId _ 0 _ hSim hDistinct
      hIds hExec with
    ⟨entrants, hQueue, hGathers⟩
  exact
    ⟨sim, final, entrants, hExec, hQuiescent, hQueue,
      hGathers⟩

end Simulation

end WorldDat
