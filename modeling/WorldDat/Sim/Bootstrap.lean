import WorldDat.Sim.Step
import WorldDat.Worker.Contacts

/-
  Bootstrapping in the simulator.

  The start-up messages of a new worker go into its own
  control channel.  The worker answers them to the bootstrap
  address, so the worker there learns about the new one, but
  nobody ever sends anything to the new worker.

  Main declarations:
    * `Simulation.Secluded` and `Simulation.secluded_step`
    * `Simulation.BootstrapWorks`
    * `Simulation.bootstrapWorks_iff`
-/

------------------------------------------------------------
-- Secluded Workers
------------------------------------------------------------

namespace WorldDat

open Rust

namespace WorkerHandle

/-
  A worker that sends responses to the bootstrap address and
  nothing else.  Unless it is there itself, it has nothing in
  its control channel but its own start-up messages, and
  nobody in its table but itself.
-/
structure Secluded
    (b addr : SocketAddr)
    (worker : WorkerHandle) : Prop where
  same_id : worker.thread.peerId = worker.peerId
  knows_self : worker.thread.Knows worker.peerId
  control : ∀ source msg,
    (source, msg) ∈ worker.control →
      source = b ∧
          (msg = .ping worker.peerId ∨
            msg = .findPeer worker.peerId) ∨
        addr = b ∧ msg.isResponse = true
  unsent : ∀ dst msg, (dst, msg) ∈ worker.unsent →
    dst = b ∧ msg.isResponse = true
  messages : ∀ dst msg, (dst, msg) ∈ worker.messages →
    dst = b ∧ msg.isResponse = true
  alone : addr ≠ b → ∀ id contact,
    (id, contact) ∈ worker.thread.peerMap.entries →
      contact = addr

/- The start-up messages are answered by responses. -/
theorem isResponse_of_mem_replies
    {self : WorkerState}
    {peerId : PeerId}
    (hKnows : self.Knows peerId)
    {source dst : SocketAddr}
    {msg reply : Message}
    (hMsg : msg = .ping peerId ∨ msg = .findPeer peerId)
    (hReply : (dst, reply) ∈ self.replies (source, msg)) :
    dst = source ∧ reply.isResponse = true := by
  rcases Option.isSome_iff_exists.mp hKnows with
    ⟨addr, hAddr⟩
  rcases hMsg with hPing | hFind
  · rw [hPing] at hReply
    simp only [WorkerState.replies, hAddr,
      List.mem_singleton] at hReply
    cases hReply
    exact ⟨rfl, rfl⟩
  · rw [hFind] at hReply
    simp only [WorkerState.replies, WorkerState.answer,
      hAddr, List.mem_singleton] at hReply
    cases hReply
    exact ⟨rfl, rfl⟩

/- The start-up messages do not change the table. -/
theorem after_of_startup
    {self : WorkerState}
    {peerId : PeerId}
    {source : SocketAddr}
    {msg : Message}
    (hMsg : msg = .ping peerId ∨ msg = .findPeer peerId) :
    self.after (source, msg) = self := by
  rcases hMsg with hPing | hFind
  · rw [hPing]
    rfl
  · rw [hFind]
    rfl

/- A new worker is secluded. -/
theorem secluded_greet
    (b : SocketAddr)
    (wId : PeerId)
    (newcomer : Newcomer) :
    Secluded b newcomer.address
      (WorkerSim.queuedWorker (some b) wId
        newcomer).2.1 where
  same_id := rfl
  knows_self := WorkerState.knows_fresh _ _ _
  control := by
    intro source msg hEntry
    have hStart :
        (source, msg) ∈
          [(b, Message.ping wId), (b, .findPeer wId)] :=
      hEntry
    rw [List.mem_cons, List.mem_singleton] at hStart
    rcases hStart with hPing | hFind
    · cases hPing
      exact Or.inl ⟨rfl, Or.inl rfl⟩
    · cases hFind
      exact Or.inl ⟨rfl, Or.inr rfl⟩
  unsent := by
    intro dst msg hUnsent
    cases hUnsent
  messages := by
    intro dst msg hMessage
    cases hMessage
  alone := by
    intro _ id contact hEntry
    exact (WorkerState.mem_entries_fresh hEntry).2

/- A worker stays secluded when it sends a reply. -/
theorem Secluded.send
    {b addr : SocketAddr}
    {worker : WorkerHandle}
    (hSecluded : Secluded b addr worker)
    {message : Outgoing}
    {rest : List Outgoing}
    (hUnsent : worker.unsent = message :: rest) :
    Secluded b addr
      { worker with
        unsent := rest
        messages := worker.messages ++ [message]
        sent := worker.sent ++ [message] } where
  same_id := hSecluded.same_id
  knows_self := hSecluded.knows_self
  control := hSecluded.control
  unsent := by
    intro dst msg hMem
    apply hSecluded.unsent dst msg
    rw [hUnsent]
    exact List.mem_cons_of_mem _ hMem
  messages := by
    intro dst msg hMem
    rcases List.mem_append.mp hMem with hOld | hNew
    · exact hSecluded.messages dst msg hOld
    · apply hSecluded.unsent dst msg
      rw [hUnsent, List.mem_singleton.mp hNew]
      exact List.mem_cons_self
  alone := hSecluded.alone

/- A worker stays secluded when it handles a message. -/
theorem Secluded.handle
    {b addr : SocketAddr}
    {worker : WorkerHandle}
    (hSecluded : Secluded b addr worker)
    {source : SocketAddr}
    {msg : Message}
    {rest : List Incoming}
    (hControl : worker.control = (source, msg) :: rest) :
    Secluded b addr
      { worker with
        control := rest
        thread := worker.thread.after (source, msg)
        unsent := worker.thread.replies (source, msg) } := by
  have hFirst : (source, msg) ∈ worker.control := by
    rw [hControl]
    exact List.mem_cons_self
  have hRest : ∀ other msg, (other, msg) ∈ rest →
      other = b ∧
          (msg = .ping worker.peerId ∨
            msg = .findPeer worker.peerId) ∨
        addr = b ∧ msg.isResponse = true := by
    intro other msg hMem
    apply hSecluded.control other msg
    rw [hControl]
    exact List.mem_cons_of_mem _ hMem
  rcases hSecluded.control source msg hFirst with
    ⟨hSource, hStart⟩ | ⟨hAddr, hResponse⟩
  · rw [after_of_startup hStart]
    refine
      ⟨hSecluded.same_id, hSecluded.knows_self, hRest, ?_,
        hSecluded.messages, hSecluded.alone⟩
    intro dst reply hReply
    have hBack :=
      isResponse_of_mem_replies hSecluded.knows_self hStart
        hReply
    rw [hSource] at hBack
    exact hBack
  · refine
      ⟨?_, ?_, hRest, ?_, hSecluded.messages, ?_⟩
    · exact
        (WorkerState.peerId_after _ _).trans
          hSecluded.same_id
    · apply WorkerState.knows_after
      apply Or.inl
      exact hSecluded.knows_self
    · intro dst reply hReply
      dsimp only at hReply
      rw [(WorkerState.replies_eq_nil_iff _ _ _).mpr hResponse] at hReply
      cases hReply
    · intro hElsewhere
      exact absurd hAddr hElsewhere

/- A secluded worker stays secluded when it does something. -/
theorem Secluded.work
    {b addr : SocketAddr}
    {worker next : WorkerHandle}
    (hSecluded : Secluded b addr worker)
    (hWork : worker.work = some next) :
    Secluded b addr next := by
  rcases work_cases hWork with
    ⟨message, rest, hUnsent, hNext⟩ |
      ⟨source, msg, rest, hUnsent, hControl, hNext⟩
  · rw [hNext]
    exact hSecluded.send hUnsent
  · rw [hNext]
    exact hSecluded.handle hControl

/- The worker at the bootstrap address may get responses. -/
theorem Secluded.message
    {b addr : SocketAddr}
    {worker : WorkerHandle}
    (hSecluded : Secluded b addr worker)
    (source : SocketAddr)
    {msg : Message}
    (hAddr : addr = b)
    (hResponse : msg.isResponse = true) :
    Secluded b addr (worker.message source msg) where
  same_id := hSecluded.same_id
  knows_self := hSecluded.knows_self
  control := by
    intro other reply hMem
    rcases List.mem_append.mp hMem with hOld | hNew
    · exact hSecluded.control other reply hOld
    · rw [List.mem_singleton] at hNew
      cases hNew
      exact Or.inr ⟨hAddr, hResponse⟩
  unsent := hSecluded.unsent
  messages := hSecluded.messages
  alone := hSecluded.alone

end WorkerHandle

end WorldDat

------------------------------------------------------------
-- Secluded Simulations
------------------------------------------------------------

namespace WorldDat

open Rust

namespace Simulation

variable {R : Type}

/-
  All workers are secluded, and so are the messages that have
  been collected from them.
-/
structure Secluded
    (b : SocketAddr)
    (run : Simulation R) : Prop where
  hosts : ∀ addr worker, run.Hosts addr worker →
    WorkerHandle.Secluded b addr worker
  messages : ∀ src dst msg, (src, dst, msg) ∈ run.messages →
    dst = b ∧ msg.isResponse = true

/- No tick ends the seclusion. -/
theorem secluded_step
    {b : SocketAddr}
    {self next : Simulation R}
    {tick : Tick}
    (hSecluded : self.Secluded b)
    (hStep : Step self tick next) :
    next.Secluded b := by
  refine ⟨?_, ?_⟩
  · intro addr worker hHosts
    rcases hStep.hosts_cases hHosts with
      ⟨past, hPast, hSuccessor⟩
    have hBefore := hSecluded.hosts addr past hPast
    cases hSuccessor with
    | same => exact hBefore
    | work new hWork => exact hBefore.work hWork
    | recv message rest hMessages =>
        refine
          ⟨hBefore.same_id, hBefore.knows_self,
            hBefore.control, hBefore.unsent, ?_,
            hBefore.alone⟩
        intro dst msg hMem
        apply hBefore.messages dst msg
        rw [hMessages]
        exact List.mem_cons_of_mem _ hMem
    | message src msg hEnvelope =>
        have hResponse :=
          hSecluded.messages src addr msg hEnvelope
        exact
          hBefore.message src hResponse.1 hResponse.2
  · intro src dst msg hEnvelope
    rcases hStep.messages_cases hEnvelope with
      hOld | ⟨worker, hWorker, hMessage⟩
    · exact hSecluded.messages src dst msg hOld
    · exact
        (hSecluded.hosts src worker
          (Or.inl hWorker)).messages dst msg hMessage

/-
  A simulator with a bootstrap address whose workers are all
  created by `add_new_worker`, as `run` starts.
-/
def launch
    (newInsecureRandom : R → PeerId × R)
    (hasher : RandomState SocketAddr WorkerHandle)
    (rng : R)
    (b : SocketAddr)
    (newcomers : List Newcomer) :
    Except Panic (Simulation R) := do
  let sim := (WorkerSim.new hasher rng).setBootstrap b
  let sim ← sim.addNewWorkers newInsecureRandom newcomers
  return start sim

/- What waits to be added at the start. -/
theorem exists_queue_launch
    {newInsecureRandom : R → PeerId × R}
    {hasher : RandomState SocketAddr WorkerHandle}
    {rng : R}
    {b : SocketAddr}
    {newcomers : List Newcomer}
    {self : Simulation R}
    (hLaunch :
      launch newInsecureRandom hasher rng b newcomers =
        .ok self) :
    ∃ ids : List PeerId,
      ids.length = newcomers.length ∧
        self.sim.workers = HashMap.new hasher ∧
        self.messages = [] ∧
        self.sim.workerAddQueue =
          WorkerSim.sortQueue
            (List.zipWith (WorkerSim.queuedWorker (some b))
              ids newcomers) := by
  unfold launch at hLaunch
  dsimp only at hLaunch
  rw [WorkerSim.addNewWorkers_eq_ok] at hLaunch
  rcases WorkerSim.foldl_enqueue newInsecureRandom
      ((WorkerSim.new hasher rng).setBootstrap b)
      newcomers with
    ⟨ids, rng', hLength, hFold⟩
  rw [hFold] at hLaunch
  cases hLaunch
  exact ⟨ids, hLength, rfl, rfl, rfl⟩

/- The workers at the start are those that were created. -/
theorem exists_hosts_launch
    {newInsecureRandom : R → PeerId × R}
    {hasher : RandomState SocketAddr WorkerHandle}
    {rng : R}
    {b : SocketAddr}
    {newcomers : List Newcomer}
    {self : Simulation R}
    (hLaunch :
      launch newInsecureRandom hasher rng b newcomers =
        .ok self) :
    ∃ ids : List PeerId,
      ids.length = newcomers.length ∧
        self.messages = [] ∧
        ∀ addr worker, self.Hosts addr worker ↔
          ∃ delay,
            (addr, worker, delay) ∈
              List.zipWith
                (WorkerSim.queuedWorker (some b)) ids
                newcomers := by
  rcases exists_queue_launch hLaunch with
    ⟨ids, hLength, hWorkers, hMessages, hQueue⟩
  refine ⟨ids, hLength, hMessages, ?_⟩
  intro addr worker
  unfold Hosts
  rw [hWorkers, hQueue, HashMap.get_new]
  unfold WorkerSim.sortQueue
  simp only [List.mem_insertionSort]
  constructor
  · intro hHosts
    rcases hHosts with hGet | hQueued
    · cases hGet
    · exact hQueued
  · intro hQueued
    exact Or.inr hQueued

/- A simulation starts secluded. -/
theorem secluded_launch
    {newInsecureRandom : R → PeerId × R}
    {hasher : RandomState SocketAddr WorkerHandle}
    {rng : R}
    {b : SocketAddr}
    {newcomers : List Newcomer}
    {self : Simulation R}
    (hLaunch :
      launch newInsecureRandom hasher rng b newcomers =
        .ok self) :
    self.Secluded b := by
  rcases exists_hosts_launch hLaunch with
    ⟨ids, _, hMessages, hHosts⟩
  refine ⟨?_, ?_⟩
  · intro addr worker hWorker
    rcases (hHosts addr worker).mp hWorker with
      ⟨delay, hQueued⟩
    rw [List.mem_iff_getElem?] at hQueued
    rcases hQueued with ⟨i, hGet⟩
    rw [List.getElem?_zipWith_eq_some] at hGet
    rcases hGet with ⟨wId, newcomer, _, _, hEntry⟩
    have hGreeted :=
      WorkerHandle.secluded_greet b wId newcomer
    rw [hEntry] at hGreeted
    have hAddr : newcomer.address = addr :=
      congrArg Prod.fst hEntry
    rw [hAddr] at hGreeted
    exact hGreeted
  · intro src dst msg hEnvelope
    rw [hMessages] at hEnvelope
    cases hEnvelope

/- Every newcomer has a worker at its address. -/
theorem exists_worker_launch
    {newInsecureRandom : R → PeerId × R}
    {hasher : RandomState SocketAddr WorkerHandle}
    {rng : R}
    {b : SocketAddr}
    {newcomers : List Newcomer}
    {self : Simulation R}
    (hLaunch :
      launch newInsecureRandom hasher rng b newcomers =
        .ok self)
    (addr : SocketAddr) :
    (∃ worker, self.Hosts addr worker) ↔
      ∃ newcomer ∈ newcomers, newcomer.address = addr := by
  rcases exists_hosts_launch hLaunch with
    ⟨ids, hLength, _, hHosts⟩
  constructor
  · intro hWorker
    rcases hWorker with ⟨worker, hWorker⟩
    rcases (hHosts addr worker).mp hWorker with
      ⟨delay, hQueued⟩
    rw [List.mem_iff_getElem?] at hQueued
    rcases hQueued with ⟨i, hGet⟩
    rw [List.getElem?_zipWith_eq_some] at hGet
    rcases hGet with ⟨wId, newcomer, _, hNewcomer, hEntry⟩
    exact
      ⟨newcomer, List.mem_of_getElem? hNewcomer,
        congrArg Prod.fst hEntry⟩
  · intro hNewcomer
    rcases hNewcomer with ⟨newcomer, hIn, hAddr⟩
    rcases List.mem_iff_getElem?.mp hIn with ⟨i, hGet⟩
    have hIndex : i < ids.length := by
      rw [hLength]
      exact (List.getElem?_eq_some_iff.mp hGet).1
    have hEntry :
        WorkerSim.queuedWorker (some b) ids[i] newcomer ∈
          List.zipWith (WorkerSim.queuedWorker (some b))
            ids newcomers := by
      rw [List.mem_iff_getElem?]
      refine ⟨i, ?_⟩
      rw [List.getElem?_zipWith_eq_some]
      exact
        ⟨ids[i], newcomer, List.getElem?_eq_getElem hIndex,
          hGet, rfl⟩
    rw [← hAddr]
    exact ⟨_, (hHosts _ _).mpr ⟨_, hEntry⟩⟩

end Simulation

end WorldDat

------------------------------------------------------------
-- Bootstrapping
------------------------------------------------------------

namespace WorldDat

open Rust

/- A secluded worker knows nobody at the bootstrap address. -/
theorem WorkerHandle.Secluded.contains_ne
    {b addr : SocketAddr}
    {worker : WorkerHandle}
    (hSecluded : Secluded b addr worker)
    (hElsewhere : addr ≠ b)
    (id : PeerId) :
    worker.thread.peerMap.contains worker.peerId id ≠
      .ok (some (id, b)) := by
  intro hContains
  rw [PeerMap.contains_eq_ok, ← hSecluded.same_id,
    Except.ok.injEq, Option.map_eq_some_iff] at hContains
  rcases hContains with ⟨contact, hFind, hContact⟩
  have hEntry :
      (id, contact) ∈ worker.thread.peerMap.entries :=
    WorkerState.mem_entries_of_known hFind
  have hOwn : contact = addr :=
    hSecluded.alone hElsewhere id contact hEntry
  have hBoot : contact = b := congrArg Prod.snd hContact
  exact hElsewhere (hOwn.symm.trans hBoot)

namespace Simulation

variable {R : Type}

/- Everybody has been added and no message is left. -/
structure Quiescent (run : Simulation R) : Prop where
  queue : run.sim.workerAddQueue = []
  messages : run.messages = []
  workers : ∀ addr worker,
    run.sim.workers.get addr = some worker →
      worker.control = [] ∧ worker.unsent = [] ∧
        worker.messages = []

/-
  The other workers and the worker at the bootstrap address
  know each other.
-/
def BootstrapWorks
    (b : SocketAddr)
    (run : Simulation R) : Prop :=
  ∃ boot, run.sim.workers.get b = some boot ∧
    ∀ addr worker,
      run.sim.workers.get addr = some worker → addr ≠ b →
        worker.thread.peerMap.contains worker.peerId
            boot.peerId =
          .ok (some (boot.peerId, b)) ∧
        boot.thread.peerMap.contains boot.peerId
            worker.peerId =
          .ok (some (worker.peerId, addr))

/- No run makes a secluded worker know the bootstrap one. -/
theorem not_bootstrapWorks
    {newInsecureRandom : R → PeerId × R}
    {hasher : RandomState SocketAddr WorkerHandle}
    {rng : R}
    {b : SocketAddr}
    {newcomers : List Newcomer}
    {self final : Simulation R}
    {ticks : List Tick}
    (hLaunch :
      launch newInsecureRandom hasher rng b newcomers =
        .ok self)
    (hExec : self.exec ticks = some final)
    (hQueue : final.sim.workerAddQueue = [])
    {newcomer : Newcomer}
    (hNewcomer : newcomer ∈ newcomers)
    (hElsewhere : newcomer.address ≠ b) :
    ¬ final.BootstrapWorks b := by
  intro hWorks
  have hSecluded : final.Secluded b :=
    exec_invariant (Secluded b)
      (fun _ _ _ hBefore hStep => secluded_step hBefore hStep)
      hExec (secluded_launch hLaunch)
  have hHosted :
      ∃ worker, final.Hosts newcomer.address worker := by
    rw [exists_hosts_exec hExec, exists_worker_launch hLaunch]
    exact ⟨newcomer, hNewcomer, rfl⟩
  rcases hHosted with ⟨worker, hGet | ⟨delay, hQueued⟩⟩
  · rcases hWorks with ⟨boot, _, hKnow⟩
    have hWorker :=
      hSecluded.hosts newcomer.address worker (Or.inl hGet)
    apply hWorker.contains_ne hElsewhere boot.peerId
    exact (hKnow newcomer.address worker hGet hElsewhere).1
  · rw [hQueue] at hQueued
    cases hQueued

/-
  Bootstrapping works for nobody: it does only when nobody is
  created at another address.  This is so whenever everybody
  has been added, even if messages are still pending.
-/
theorem bootstrapWorks_iff
    (newInsecureRandom : R → PeerId × R)
    (hasher : RandomState SocketAddr WorkerHandle)
    (rng : R)
    (b : SocketAddr)
    (newcomers : List Newcomer)
    (ticks : List Tick)
    (self final : Simulation R)
    (hBoot : b ∈ newcomers.map Newcomer.address)
    (hLaunch :
      launch newInsecureRandom hasher rng b newcomers =
        .ok self)
    (hExec : self.exec ticks = some final)
    (hQueue : final.sim.workerAddQueue = []) :
    final.BootstrapWorks b ↔
      ∀ newcomer ∈ newcomers, newcomer.address = b := by
  constructor
  · intro hWorks newcomer hNewcomer
    by_contra hElsewhere
    exact
      not_bootstrapWorks hLaunch hExec hQueue hNewcomer
        hElsewhere hWorks
  · intro hAll
    have hHosts : ∀ addr,
        (∃ worker, final.Hosts addr worker) ↔
          ∃ newcomer ∈ newcomers, newcomer.address = addr := by
      intro addr
      rw [exists_hosts_exec hExec,
        exists_worker_launch hLaunch]
    have hThere := (hHosts b).mpr (List.mem_map.mp hBoot)
    rcases hThere with ⟨boot, hGet | ⟨delay, hQueued⟩⟩
    · refine ⟨boot, hGet, ?_⟩
      intro addr worker hWorker hElsewhere
      rcases (hHosts addr).mp ⟨worker, Or.inl hWorker⟩ with
        ⟨newcomer, hNewcomer, hAddr⟩
      exact
        absurd (hAddr.symm.trans (hAll newcomer hNewcomer))
          hElsewhere
    · rw [hQueue] at hQueued
      cases hQueued

end Simulation

end WorldDat

------------------------------------------------------------
-- One Worker Joins Another
------------------------------------------------------------

namespace WorldDat

open Rust

namespace Simulation

/- The worker at the bootstrap address, added at once. -/
def bootstrapWorker : Newcomer where
  address := .v4 0x0A000001 4433
  delay := 0
  hasher := RandomState.insertionOrder PeerId SocketAddr

/- A worker that joins it two seconds later. -/
def joiner : Newcomer where
  address := .v4 0x0A000002 4433
  delay := 2000000000
  hasher := RandomState.insertionOrder PeerId SocketAddr

/- Draw the identifiers one after the other. -/
def drawPeerId (rng : Nat) : PeerId × Nat :=
  (PeerId.repeating (UInt8.ofNat rng), rng + 1)

/- Each worker handles the messages that it starts with. -/
def joining : List Tick :=
  [ .clock 10000000
  , .advance, .advance, .advance ] ++
  List.replicate 4 (.work bootstrapWorker.address) ++
  [.clock 2010000000] ++
  List.replicate 4 (.work joiner.address) ++
  -- collect two messages of each worker and route them
  List.replicate 12 .advance ++
  List.replicate 4 (.work bootstrapWorker.address)

/- The state in which the two workers end. -/
def joined : Option (Simulation Nat) :=
  match launch drawPeerId
      (RandomState.insertionOrder SocketAddr WorkerHandle) 0
      bootstrapWorker.address [bootstrapWorker, joiner] with
  | .error _ => none
  | .ok self => self.exec joining

/- The run ends with nothing left to be done. -/
theorem exists_joined :
    ∃ self final : Simulation Nat,
      launch drawPeerId
          (RandomState.insertionOrder SocketAddr
            WorkerHandle)
          0 bootstrapWorker.address
          [bootstrapWorker, joiner] = .ok self ∧
        self.exec joining = some final ∧
        final.Quiescent ∧
        final.added.head?.map Prod.fst =
          some bootstrapWorker.address := by
  let idle := fun (entry : SocketAddr × WorkerHandle) =>
    decide (entry.2.control = [] ∧ entry.2.unsent = [] ∧
      entry.2.messages = [])
  have hRun :
      joined.map
          (fun run =>
            (run.sim.workerAddQueue.length, run.messages,
              run.sim.workers.iter.all idle,
              run.added.head?.map Prod.fst)) =
        some (0, [], true, some bootstrapWorker.address) := by
    decide +kernel
  unfold joined at hRun
  cases hLaunch :
      launch drawPeerId
        (RandomState.insertionOrder SocketAddr WorkerHandle)
        0 bootstrapWorker.address
        [bootstrapWorker, joiner] with
  | error panic =>
      rw [hLaunch] at hRun
      cases hRun
  | ok self =>
      rw [hLaunch] at hRun
      rcases Option.map_eq_some_iff.mp hRun with
        ⟨final, hExec, hFinal⟩
      simp only [Prod.mk.injEq] at hFinal
      rcases hFinal with
        ⟨hQueue, hMessages, hIdle, hAdded⟩
      refine ⟨self, final, rfl, hExec, ?_, hAdded⟩
      refine
        ⟨List.eq_nil_of_length_eq_zero hQueue, hMessages, ?_⟩
      intro addr worker hGet
      have hEntry : (addr, worker) ∈ final.sim.workers.iter :=
        (HashMap.mem_iter_iff _ _ _).mpr hGet
      exact
        of_decide_eq_true
          (List.all_eq_true.mp hIdle _ hEntry)

theorem bootstrapWorks_iff_joined :
    ∃ self final : Simulation Nat,
      launch drawPeerId
          (RandomState.insertionOrder SocketAddr
            WorkerHandle)
          0 bootstrapWorker.address
          [bootstrapWorker, joiner] = .ok self ∧
        self.exec joining = some final ∧
        (final.BootstrapWorks bootstrapWorker.address ↔
          ∀ newcomer ∈ [bootstrapWorker, joiner],
            newcomer.address = bootstrapWorker.address) := by
  rcases exists_joined with
    ⟨self, final, hLaunch, hExec, hQuiescent, _⟩
  refine ⟨self, final, hLaunch, hExec, ?_⟩
  exact
    bootstrapWorks_iff drawPeerId _ 0 _ _ joining self final
      (by decide) hLaunch hExec hQuiescent.queue

/- Two workers do not get to know each other. -/
theorem joiner_not_bootstrapped :
    ¬ ∀ (newInsecureRandom : Nat → PeerId × Nat)
        (hasher : RandomState SocketAddr WorkerHandle)
        (rng : Nat)
        (b : SocketAddr)
        (newcomers : List Newcomer)
        (ticks : List Tick)
        (self final : Simulation Nat),
        (newcomers.map Newcomer.address).Nodup →
        b ∈ newcomers.map Newcomer.address →
        launch newInsecureRandom hasher rng b newcomers =
          .ok self →
        self.exec ticks = some final →
        final.added.head?.map Prod.fst = some b →
        final.Quiescent →
        final.BootstrapWorks b := by
  intro hClaim
  rcases exists_joined with
    ⟨self, final, hLaunch, hExec, hQuiescent, hAdded⟩
  have hWorks :=
    hClaim drawPeerId _ 0 _ _ joining self final (by decide)
      (by decide) hLaunch hExec hAdded hQuiescent
  have hElsewhere :
      joiner.address ≠ bootstrapWorker.address := by
    decide
  apply not_bootstrapWorks hLaunch hExec hQuiescent.queue
    (List.mem_cons_of_mem _ List.mem_cons_self) hElsewhere
  exact hWorks

end Simulation

end WorldDat
