import WorldDat.Listing.Positions
import WorldDat.Sim.Basic

/-
  What happens at one tick of a simulation, and where the
  workers and messages after it come from.

  Main declarations:
    * `Simulation.Step` and `Simulation.step_sound`
    * `Simulation.exec_invariant`
    * `Simulation.Hosts` and `Simulation.Step.hosts_cases`
    * `Simulation.exists_hosts_exec`
    * `Simulation.Step.messages_cases`
-/

------------------------------------------------------------
-- What A Tick Does
------------------------------------------------------------

namespace WorldDat

open Rust

namespace Simulation

variable {R : Type}

/- The ten things that can happen at a tick. -/
inductive Step
    (self : Simulation R) : Tick → Simulation R → Prop where
| add
    (elapsed dur : Duration)
    (front : List QueuedWorker)
    (addr : SocketAddr)
    (worker : WorkerHandle)
    (sim : WorkerSim R)
    (hPhase : self.phase = .adding)
    (hQueue :
      self.sim.workerAddQueue =
        front ++ [(addr, worker, dur)])
    (hDue : dur < elapsed)
    (hSim :
      sim =
        ({ self.sim with workerAddQueue := front } :
          WorkerSim R).addWorker addr worker) :
    Step self (.clock elapsed)
      { self with
        sim
        phase := .collecting (visits sim)
        added := self.added ++ [(addr, dur)] }
| wait
    (elapsed : Duration)
    (hPhase : self.phase = .adding)
    (hEarly :
      ∀ entry ∈ self.sim.workerAddQueue.getLast?,
        elapsed ≤ entry.2.2) :
    Step self (.clock elapsed)
      { self with phase := .collecting (visits self.sim) }
| collected
    (hPhase : self.phase = .collecting []) :
    Step self .advance { self with phase := .routing }
| skip
    (src : SocketAddr)
    (todo : List SocketAddr)
    (hPhase : self.phase = .collecting (src :: todo))
    (hNothing : ∀ worker,
      self.sim.workers.get src = some worker →
        worker.messages = []) :
    Step self .advance
      { self with phase := .collecting todo }
| collect
    (src dst : SocketAddr)
    (msg : Message)
    (todo : List SocketAddr)
    (worker : WorkerHandle)
    (rest : List Outgoing)
    (hPhase : self.phase = .collecting (src :: todo))
    (hWorker : self.sim.workers.get src = some worker)
    (hMessages : worker.messages = (dst, msg) :: rest) :
    Step self .advance
      { self.setWorker src { worker with messages := rest }
        with messages := self.messages ++ [(src, dst, msg)] }
| routed
    (hPhase : self.phase = .routing)
    (hMessages : self.messages = []) :
    Step self .advance { self with phase := .adding }
| route
    (src dest : SocketAddr)
    (msg : Message)
    (rest : List Envelope)
    (worker : WorkerHandle)
    (hPhase : self.phase = .routing)
    (hMessages : self.messages = (src, dest, msg) :: rest)
    (hWorker : self.sim.workers.get dest = some worker) :
    Step self .advance
      { self.setWorker dest (worker.message src msg) with
        messages := rest
        forwarded :=
          self.forwarded ++
            [{ envelope := (src, dest, msg)
               delivered := true }] }
| ignore
    (src dest : SocketAddr)
    (msg : Message)
    (rest : List Envelope)
    (hPhase : self.phase = .routing)
    (hMessages : self.messages = (src, dest, msg) :: rest)
    (hNobody : self.sim.workers.get dest = none) :
    Step self .advance
      { self with
        messages := rest
        forwarded :=
          self.forwarded ++
            [{ envelope := (src, dest, msg)
               delivered := false }] }
| work
    (addr : SocketAddr)
    (worker next : WorkerHandle)
    (hWorker : self.sim.workers.get addr = some worker)
    (hWork : worker.work = some next) :
    Step self (.work addr) (self.setWorker addr next)
| workQueued
    (position : Nat)
    (front back : List QueuedWorker)
    (addr : SocketAddr)
    (worker next : WorkerHandle)
    (dur : Duration)
    (hQueue :
      self.sim.workerAddQueue =
        front ++ (addr, worker, dur) :: back)
    (hWork : worker.work = some next) :
    Step self (.workQueued position)
      { self with
        sim :=
          { self.sim with
            workerAddQueue :=
              front ++ (addr, next, dur) :: back } }

/- Looking at the clock adds a worker that is due. -/
theorem addDue_sound
    {self : Simulation R}
    (hPhase : self.phase = .adding)
    (elapsed : Duration) :
    Step self (.clock elapsed) (self.addDue elapsed) := by
  unfold addDue
  cases hLast : self.sim.workerAddQueue.getLast? with
  | none =>
      apply Step.wait elapsed hPhase
      intro entry hEntry
      rw [hLast] at hEntry
      cases hEntry
  | some entry =>
      rcases entry with ⟨addr, worker, dur⟩
      have hQueue :
          self.sim.workerAddQueue =
            self.sim.workerAddQueue.dropLast ++
              [(addr, worker, dur)] := by
        rcases List.getLast?_eq_some_iff.mp hLast with
          ⟨front, hFront⟩
        rw [hFront, List.dropLast_concat]
      by_cases hDue : dur < elapsed
      · dsimp only
        rw [if_pos hDue]
        exact
          Step.add elapsed dur _ addr worker _ hPhase
            hQueue hDue rfl
      · dsimp only
        rw [if_neg hDue]
        apply Step.wait elapsed hPhase
        intro entry hEntry
        rw [hLast] at hEntry
        cases hEntry
        exact Nat.le_of_not_lt hDue

/- Collecting receives a message or goes on. -/
theorem collect_sound
    {self : Simulation R}
    {src : SocketAddr}
    {todo : List SocketAddr}
    (hPhase : self.phase = .collecting (src :: todo)) :
    Step self .advance (self.collect src todo) := by
  unfold collect
  cases hWorker : self.sim.workers.get src with
  | none =>
      apply Step.skip src todo hPhase
      intro worker hSome
      rw [hWorker] at hSome
      cases hSome
  | some worker =>
      dsimp only
      cases hRecv : worker.recvMessage with
      | none =>
          apply Step.skip src todo hPhase
          intro other hSome
          rw [hWorker, Option.some.injEq] at hSome
          rw [← hSome]
          exact WorkerHandle.messages_eq_nil hRecv
      | some received =>
          rcases received with ⟨⟨dst, msg⟩, next⟩
          rcases WorkerHandle.recvMessage_cases hRecv with
            ⟨rest, hMessages, hNext⟩
          dsimp only
          rw [hNext]
          exact
            Step.collect src dst msg todo worker rest hPhase
              hWorker hMessages

/- Routing delivers a message or ignores it. -/
theorem route_sound
    {self : Simulation R}
    {envelope : Envelope}
    {rest : List Envelope}
    (hPhase : self.phase = .routing)
    (hMessages : self.messages = envelope :: rest) :
    Step self .advance (self.route envelope rest) := by
  rcases envelope with ⟨src, dest, msg⟩
  unfold route
  dsimp only
  cases hWorker : self.sim.workers.get dest with
  | none =>
      exact
        Step.ignore src dest msg rest hPhase hMessages
          hWorker
  | some worker =>
      exact
        Step.route src dest msg rest worker hPhase
          hMessages hWorker

/- The loop goes on in one of the two later phases. -/
theorem advance_sound
    {self next : Simulation R}
    (hAdvance : self.advance = some next) :
    Step self .advance next := by
  unfold advance at hAdvance
  cases hPhase : self.phase with
  | adding =>
      rw [hPhase] at hAdvance
      cases hAdvance
  | collecting todo =>
      cases todo with
      | nil =>
          rw [hPhase, Option.some.injEq] at hAdvance
          rw [← hAdvance]
          exact Step.collected hPhase
      | cons src todo =>
          rw [hPhase, Option.some.injEq] at hAdvance
          rw [← hAdvance]
          exact collect_sound hPhase
  | routing =>
      rw [hPhase] at hAdvance
      dsimp only at hAdvance
      split at hAdvance
      · rename_i hMessages
        rw [← Option.some.inj hAdvance]
        exact Step.routed hPhase hMessages
      · rename_i envelope rest hMessages
        rw [← Option.some.inj hAdvance]
        exact route_sound hPhase hMessages

/- A tick does one of the ten things. -/
theorem step_sound
    {self next : Simulation R}
    {tick : Tick}
    (hStep : self.step tick = some next) :
    Step self tick next := by
  cases tick with
  | clock elapsed =>
      unfold step at hStep
      dsimp only at hStep
      cases hPhase : self.phase with
      | adding =>
          rw [hPhase, Option.some.injEq] at hStep
          rw [← hStep]
          exact addDue_sound hPhase elapsed
      | collecting todo =>
          rw [hPhase] at hStep
          cases hStep
      | routing =>
          rw [hPhase] at hStep
          cases hStep
  | advance => exact advance_sound hStep
  | work addr =>
      change self.work addr = some next at hStep
      unfold work at hStep
      rcases Option.bind_eq_some_iff.mp hStep with
        ⟨worker, hWorker, hRest⟩
      rcases Option.bind_eq_some_iff.mp hRest with
        ⟨after, hWork, hNext⟩
      rw [← Option.some.inj hNext]
      exact Step.work addr worker after hWorker hWork
  | workQueued position =>
      change self.workQueued position = some next at hStep
      unfold workQueued at hStep
      rcases Option.bind_eq_some_iff.mp hStep with
        ⟨⟨addr, worker, dur⟩, hEntry, hRest⟩
      rcases Option.bind_eq_some_iff.mp hRest with
        ⟨after, hWork, hNext⟩
      rcases Listing.exists_split_of_getElem? hEntry with
        ⟨front, back, hQueue, _, _, _, hSet⟩
      rw [← Option.some.inj hNext, hSet]
      exact
        Step.workQueued position front back addr worker
          after dur hQueue hWork

/- What every tick preserves holds after every run. -/
theorem exec_invariant
    (Inv : Simulation R → Prop)
    (hStep : ∀ self tick next,
      Inv self → Step self tick next → Inv next)
    {self final : Simulation R}
    {ticks : List Tick}
    (hExec : self.exec ticks = some final)
    (hInit : Inv self) :
    Inv final :=
  Machine.exec_invariant
    (fun self tick next hInv hNext =>
      hStep self tick next hInv (step_sound hNext))
    hExec hInit

end Simulation

end WorldDat

------------------------------------------------------------
-- Where Workers And Messages Come From
------------------------------------------------------------

namespace WorldDat

open Rust

namespace Simulation

variable {R : Type}

/- A worker is in the network or waits to be added to it. -/
def Hosts
    (self : Simulation R)
    (addr : SocketAddr)
    (worker : WorkerHandle) : Prop :=
  self.sim.workers.get addr = some worker ∨
    ∃ dur, (addr, worker, dur) ∈ self.sim.workerAddQueue

/- What can happen to a worker and its channels at a tick. -/
inductive Successor
    (self : Simulation R)
    (addr : SocketAddr)
    (old : WorkerHandle) : WorkerHandle → Prop where
| same : Successor self addr old old
| work
    (new : WorkerHandle)
    (hWork : old.work = some new) :
    Successor self addr old new
| recv
    (message : Outgoing)
    (rest : List Outgoing)
    (hMessages : old.messages = message :: rest) :
    Successor self addr old { old with messages := rest }
| message
    (src : SocketAddr)
    (msg : Message)
    (hEnvelope : (src, addr, msg) ∈ self.messages) :
    Successor self addr old (old.message src msg)

/- After replacing a worker, every worker has a past. -/
theorem hosts_setWorker
    {self : Simulation R}
    {place addr : SocketAddr}
    {old new worker : WorkerHandle}
    (hOld : self.sim.workers.get place = some old)
    (hNew : Successor self place old new)
    (hHosts : (self.setWorker place new).Hosts addr worker) :
    ∃ past, self.Hosts addr past ∧
      Successor self addr past worker := by
  rcases hHosts with hGet | hQueued
  · rcases HashMap.get_insert_cases hGet with
      ⟨hAddr, hWorker⟩ | ⟨_, hSame⟩
    · rw [hAddr, hWorker]
      exact ⟨old, Or.inl hOld, hNew⟩
    · exact ⟨worker, Or.inl hSame, .same⟩
  · exact ⟨worker, Or.inr hQueued, .same⟩

/- Adding the last worker that waits brings nobody new. -/
theorem hosts_of_added
    {self next : Simulation R}
    {front : List QueuedWorker}
    {place addr : SocketAddr}
    {new worker : WorkerHandle}
    {dur : Duration}
    (hQueue :
      self.sim.workerAddQueue = front ++ [(place, new, dur)])
    (hWorkers :
      next.sim.workers = self.sim.workers.insert place new)
    (hRest : next.sim.workerAddQueue = front)
    (hHosts : next.Hosts addr worker) :
    self.Hosts addr worker := by
  rcases hHosts with hGet | ⟨delay, hQueued⟩
  · rw [hWorkers] at hGet
    rcases HashMap.get_insert_cases hGet with
      ⟨hAddr, hWorker⟩ | ⟨_, hSame⟩
    · refine Or.inr ⟨dur, ?_⟩
      rw [hAddr, hWorker, hQueue]
      apply List.mem_append_right
      exact List.mem_cons_self
    · exact Or.inl hSame
  · rw [hRest] at hQueued
    refine Or.inr ⟨delay, ?_⟩
    rw [hQueue]
    exact List.mem_append_left _ hQueued

/- Every worker after a tick was there before it. -/
theorem Step.hosts_cases
    {self next : Simulation R}
    {tick : Tick}
    (hStep : Step self tick next)
    {addr : SocketAddr}
    {worker : WorkerHandle}
    (hHosts : next.Hosts addr worker) :
    ∃ past, self.Hosts addr past ∧
      Successor self addr past worker := by
  cases hStep with
  | add elapsed dur front place new sim hPhase hQueue hDue
      hSim =>
      refine ⟨worker, ?_, .same⟩
      apply hosts_of_added hQueue ?_ ?_ hHosts
      · rw [hSim]
        rfl
      · rw [hSim]
        rfl
  | wait => exact ⟨worker, hHosts, .same⟩
  | collected => exact ⟨worker, hHosts, .same⟩
  | skip => exact ⟨worker, hHosts, .same⟩
  | routed => exact ⟨worker, hHosts, .same⟩
  | ignore => exact ⟨worker, hHosts, .same⟩
  | collect src dst msg todo old rest hPhase hWorker
      hMessages =>
      exact
        hosts_setWorker hWorker (.recv _ rest hMessages)
          hHosts
  | route src dest msg rest old hPhase hMessages hWorker =>
      have hEnvelope : (src, dest, msg) ∈ self.messages := by
        rw [hMessages]
        exact List.mem_cons_self
      exact
        hosts_setWorker hWorker (.message src msg hEnvelope)
          hHosts
  | work place old new hWorker hWork =>
      exact hosts_setWorker hWorker (.work new hWork) hHosts
  | workQueued position front back place old new dur hQueue
      hWork =>
      rcases hHosts with hGet | ⟨delay, hQueued⟩
      · exact ⟨worker, Or.inl hGet, .same⟩
      · have hMem :
            (addr, worker, delay) ∈
              front ++ (place, new, dur) :: back := hQueued
        by_cases hHere :
            (addr, worker, delay) = (place, new, dur)
        · cases hHere
          refine ⟨old, Or.inr ⟨dur, ?_⟩, .work _ hWork⟩
          rw [hQueue]
          simp
        · refine ⟨worker, Or.inr ⟨delay, ?_⟩, .same⟩
          rw [hQueue]
          apply Listing.mem_append_cons
          simpa [hHere] using hMem

/- Putting a worker at its address leaves nobody out. -/
theorem exists_hosts_addWorker
    {self next : Simulation R}
    {place addr : SocketAddr}
    {new : WorkerHandle}
    (hWorkers :
      next.sim.workers = self.sim.workers.insert place new)
    (hQueue : ∀ worker dur,
      (addr, worker, dur) ∈ self.sim.workerAddQueue →
        addr = place ∨
          (addr, worker, dur) ∈ next.sim.workerAddQueue)
    (hHosts : ∃ worker, self.Hosts addr worker) :
    ∃ worker, next.Hosts addr worker := by
  by_cases hAddr : addr = place
  · refine ⟨new, Or.inl ?_⟩
    rw [hWorkers, hAddr]
    apply HashMap.get_insert_self
  · rcases hHosts with ⟨worker, hGet | ⟨dur, hQueued⟩⟩
    · refine ⟨worker, Or.inl ?_⟩
      rw [hWorkers, HashMap.get_insert_ne _ _ hAddr]
      exact hGet
    · rcases hQueue worker dur hQueued with hHere | hStill
      · exact absurd hHere hAddr
      · exact ⟨worker, Or.inr ⟨dur, hStill⟩⟩

/- A worker that is there stays there. -/
theorem Step.exists_hosts
    {self next : Simulation R}
    {tick : Tick}
    (hStep : Step self tick next)
    {addr : SocketAddr}
    (hHosts : ∃ worker, self.Hosts addr worker) :
    ∃ worker, next.Hosts addr worker := by
  cases hStep with
  | add elapsed dur front place new sim hPhase hQueue hDue
      hSim =>
      have hWorkers :
          sim.workers = self.sim.workers.insert place new := by
        rw [hSim]
        rfl
      apply exists_hosts_addWorker hWorkers ?_ hHosts
      intro worker delay hQueued
      rw [hQueue, List.mem_append,
        List.mem_singleton] at hQueued
      dsimp only
      rw [hSim]
      rcases hQueued with hFront | hLast
      · exact Or.inr hFront
      · exact Or.inl (congrArg Prod.fst hLast)
  | wait => exact hHosts
  | collected => exact hHosts
  | skip => exact hHosts
  | routed => exact hHosts
  | ignore => exact hHosts
  | collect =>
      apply exists_hosts_addWorker rfl ?_ hHosts
      intro worker dur hQueued
      exact Or.inr hQueued
  | route =>
      apply exists_hosts_addWorker rfl ?_ hHosts
      intro worker dur hQueued
      exact Or.inr hQueued
  | work =>
      apply exists_hosts_addWorker rfl ?_ hHosts
      intro worker dur hQueued
      exact Or.inr hQueued
  | workQueued position front back place old new dur hQueue
      hWork =>
      rcases hHosts with ⟨worker, hGet | ⟨delay, hQueued⟩⟩
      · exact ⟨worker, Or.inl hGet⟩
      · rw [hQueue, List.mem_append,
          List.mem_cons] at hQueued
        rcases hQueued with hFront | hHere | hBack
        · refine ⟨worker, Or.inr ⟨delay, ?_⟩⟩
          exact List.mem_append_left _ hFront
        · cases hHere
          refine ⟨new, Or.inr ⟨dur, ?_⟩⟩
          apply List.mem_append_right
          exact List.mem_cons_self
        · refine ⟨worker, Or.inr ⟨delay, ?_⟩⟩
          apply List.mem_append_right
          exact List.mem_cons_of_mem _ hBack

/- Nobody comes to an address and nobody leaves it. -/
theorem exists_hosts_exec
    {self final : Simulation R}
    {ticks : List Tick}
    (hExec : self.exec ticks = some final)
    (addr : SocketAddr) :
    (∃ worker, final.Hosts addr worker) ↔
      ∃ worker, self.Hosts addr worker := by
  apply exec_invariant
    (fun run =>
      (∃ worker, run.Hosts addr worker) ↔
        ∃ worker, self.Hosts addr worker)
    ?_ hExec Iff.rfl
  intro run tick next hInv hStep
  rw [← hInv]
  constructor
  · intro hAfter
    rcases hAfter with ⟨worker, hWorker⟩
    rcases hStep.hosts_cases hWorker with ⟨past, hPast, _⟩
    exact ⟨past, hPast⟩
  · intro hBefore
    exact hStep.exists_hosts hBefore

/- A collected message was in the channel of its sender. -/
theorem Step.messages_cases
    {self next : Simulation R}
    {tick : Tick}
    (hStep : Step self tick next)
    {src dst : SocketAddr}
    {msg : Message}
    (hEnvelope : (src, dst, msg) ∈ next.messages) :
    (src, dst, msg) ∈ self.messages ∨
      ∃ worker, self.sim.workers.get src = some worker ∧
        (dst, msg) ∈ worker.messages := by
  cases hStep with
  | collect place to' sent todo worker rest hPhase hWorker
      hMessages =>
      rcases List.mem_append.mp hEnvelope with hOld | hNew
      · exact Or.inl hOld
      · rw [List.mem_singleton] at hNew
        cases hNew
        refine Or.inr ⟨worker, hWorker, ?_⟩
        rw [hMessages]
        exact List.mem_cons_self
  | route from' dest sent rest worker hPhase hMessages
      hWorker =>
      refine Or.inl ?_
      rw [hMessages]
      exact List.mem_cons_of_mem _ hEnvelope
  | ignore from' dest sent rest hPhase hMessages hNobody =>
      refine Or.inl ?_
      rw [hMessages]
      exact List.mem_cons_of_mem _ hEnvelope
  | add => exact Or.inl hEnvelope
  | wait => exact Or.inl hEnvelope
  | collected => exact Or.inl hEnvelope
  | skip => exact Or.inl hEnvelope
  | routed => exact Or.inl hEnvelope
  | work => exact Or.inl hEnvelope
  | workQueued => exact Or.inl hEnvelope

end Simulation

end WorldDat
