import WorldDat.Sim.Step

/-
  The simulator as a network between its workers.

  What a worker sends lies in its channel until it is
  collected, then among the collected messages until it is
  routed, and then in the control channel of the worker at
  its destination, if there is one.  All of these are queues,
  and together they hold what has been sent, in order.

  Main declarations:
    * `Simulation.Effect` and `Simulation.Step.effect`
    * `Simulation.Conveys` and `Simulation.conveys_step`
    * `Simulation.delivered_of_registered`
    * `Simulation.fifo_exactly_once`
-/

------------------------------------------------------------
-- Workers At Distinct Addresses
------------------------------------------------------------

namespace WorldDat

open Rust

namespace Simulation

variable {R : Type}

/- No two workers are at one address. -/
structure Placed (run : Simulation R) : Prop where
  nodup : (run.sim.workerAddQueue.map Prod.fst).Nodup
  apart : ∀ entry ∈ run.sim.workerAddQueue,
    run.sim.workers.get entry.1 = none

/- One worker is replaced and all others stay. -/
def Replaces
    (self next : Simulation R)
    (place : SocketAddr)
    (new : WorkerHandle) : Prop :=
  ∀ addr worker, next.Hosts addr worker →
    addr = place ∧ worker = new ∨
      addr ≠ place ∧ self.Hosts addr worker

/- What waits to be added is not where somebody else is. -/
theorem Placed.apart_insert
    {self : Simulation R}
    (hPlaced : self.Placed)
    {place : SocketAddr}
    {old new : WorkerHandle}
    (hOld : self.sim.workers.get place = some old) :
    ∀ entry ∈ self.sim.workerAddQueue,
      (self.sim.workers.insert place new).get entry.1 =
        none := by
  intro entry hEntry
  have hNone := hPlaced.apart entry hEntry
  have hOther : entry.1 ≠ place := by
    intro hSame
    rw [hSame, hOld] at hNone
    cases hNone
  rw [HashMap.get_insert_ne _ _ hOther]
  exact hNone

/- Replacing a worker of the network keeps all others. -/
theorem Placed.replaces_setWorker
    {self next : Simulation R}
    (hPlaced : self.Placed)
    {place : SocketAddr}
    {old new : WorkerHandle}
    (hOld : self.sim.workers.get place = some old)
    (hWorkers :
      next.sim.workers = self.sim.workers.insert place new)
    (hQueue :
      next.sim.workerAddQueue = self.sim.workerAddQueue) :
    self.Replaces next place new := by
  intro addr worker hHosts
  rcases hHosts with hGet | ⟨dur, hQueued⟩
  · rw [hWorkers] at hGet
    rcases HashMap.get_insert_cases hGet with
      hHere | ⟨hOther, hSame⟩
    · exact Or.inl hHere
    · exact Or.inr ⟨hOther, Or.inl hSame⟩
  · rw [hQueue] at hQueued
    refine Or.inr ⟨?_, Or.inr ⟨dur, hQueued⟩⟩
    intro hSame
    have hNone := hPlaced.apart _ hQueued
    dsimp only at hNone
    rw [hSame, hOld] at hNone
    cases hNone

/- No tick puts two workers at one address. -/
theorem placed_step
    {self next : Simulation R}
    {tick : Tick}
    (hPlaced : self.Placed)
    (hStep : Step self tick next) :
    next.Placed := by
  cases hStep with
  | add elapsed dur front addr worker sim hPhase hQueue hDue
      hSim =>
      have hNodup := hPlaced.nodup
      rw [hQueue, List.map_append, List.nodup_append]
        at hNodup
      rw [hSim]
      refine ⟨hNodup.1, ?_⟩
      intro entry hEntry
      have hOther : entry.1 ≠ addr :=
        hNodup.2.2 entry.1 (List.mem_map_of_mem hEntry) addr
          (List.mem_singleton_self addr)
      have hNone : self.sim.workers.get entry.1 = none := by
        apply hPlaced.apart
        rw [hQueue]
        exact List.mem_append_left _ hEntry
      change
        (self.sim.workers.insert addr worker).get entry.1 =
          none
      rw [HashMap.get_insert_ne _ _ hOther]
      exact hNone
  | wait => exact ⟨hPlaced.nodup, hPlaced.apart⟩
  | collected => exact ⟨hPlaced.nodup, hPlaced.apart⟩
  | skip => exact ⟨hPlaced.nodup, hPlaced.apart⟩
  | routed => exact ⟨hPlaced.nodup, hPlaced.apart⟩
  | ignore => exact ⟨hPlaced.nodup, hPlaced.apart⟩
  | collect src dst msg todo worker rest hPhase hWorker =>
      exact ⟨hPlaced.nodup, hPlaced.apart_insert hWorker⟩
  | route src dest msg rest worker hPhase hMessages
      hWorker =>
      exact ⟨hPlaced.nodup, hPlaced.apart_insert hWorker⟩
  | work addr worker new hWorker =>
      exact ⟨hPlaced.nodup, hPlaced.apart_insert hWorker⟩
  | workQueued position front back addr worker new dur
      hQueue hWork =>
      have hNodup := hPlaced.nodup
      have hApart := hPlaced.apart
      rw [hQueue, List.map_append, List.map_cons] at hNodup
      rw [hQueue] at hApart
      refine ⟨?_, ?_⟩
      · dsimp only
        rw [List.map_append, List.map_cons]
        exact hNodup
      · intro entry hEntry
        dsimp only at hEntry
        rw [List.mem_append, List.mem_cons] at hEntry
        rcases hEntry with hFront | hHere | hBack
        · apply hApart
          exact List.mem_append_left _ hFront
        · rw [hHere]
          apply hApart (addr, worker, dur)
          simp
        · apply hApart
          apply List.mem_append_right
          exact List.mem_cons_of_mem _ hBack

end Simulation

end WorldDat

------------------------------------------------------------
-- What A Tick Does To Workers And Messages
------------------------------------------------------------

namespace WorldDat

open Rust

namespace Simulation

variable {R : Type}

/-
  What a tick does to the workers and the messages: nothing,
  the work of one worker, or one message moves on.
-/
inductive Effect (self next : Simulation R) : Prop where
| quiet
    (hHosts : ∀ addr worker, next.Hosts addr worker →
      self.Hosts addr worker)
    (hMessages : next.messages = self.messages)
    (hForwarded : next.forwarded = self.forwarded)
| work
    (place : SocketAddr)
    (old new : WorkerHandle)
    (hOld : self.Hosts place old)
    (hWork : old.work = some new)
    (hHosts : self.Replaces next place new)
    (hMessages : next.messages = self.messages)
    (hForwarded : next.forwarded = self.forwarded)
| collect
    (src : SocketAddr)
    (old : WorkerHandle)
    (out : Outgoing)
    (rest : List Outgoing)
    (hOld : self.Hosts src old)
    (hChannel : old.messages = out :: rest)
    (hHosts :
      self.Replaces next src { old with messages := rest })
    (hMessages :
      next.messages = self.messages ++ [(src, out)])
    (hForwarded : next.forwarded = self.forwarded)
| route
    (src dst : SocketAddr)
    (msg : Message)
    (old : WorkerHandle)
    (hOld : self.Hosts dst old)
    (hHosts : self.Replaces next dst (old.message src msg))
    (hMessages :
      self.messages = (src, dst, msg) :: next.messages)
    (hForwarded :
      next.forwarded =
        self.forwarded ++
          [{ envelope := (src, dst, msg)
             delivered := true }])
| ignore
    (envelope : Envelope)
    (hHosts : ∀ addr worker, next.Hosts addr worker →
      self.Hosts addr worker)
    (hMessages : self.messages = envelope :: next.messages)
    (hForwarded :
      next.forwarded =
        self.forwarded ++ [{ envelope, delivered := false }])

/- With workers at distinct addresses each tick is of these. -/
theorem Step.effect
    {self next : Simulation R}
    {tick : Tick}
    (hPlaced : self.Placed)
    (hStep : Step self tick next) :
    Effect self next := by
  cases hStep with
  | add elapsed dur front place new sim hPhase hQueue hDue
      hSim =>
      refine .quiet ?_ rfl rfl
      intro addr worker hHosts
      apply hosts_of_added hQueue ?_ ?_ hHosts
      · rw [hSim]
        rfl
      · rw [hSim]
        rfl
  | wait => exact .quiet (fun _ _ hHosts => hHosts) rfl rfl
  | collected =>
      exact .quiet (fun _ _ hHosts => hHosts) rfl rfl
  | skip => exact .quiet (fun _ _ hHosts => hHosts) rfl rfl
  | routed =>
      exact .quiet (fun _ _ hHosts => hHosts) rfl rfl
  | ignore src dest msg rest hPhase hMessages hNobody =>
      exact
        .ignore _ (fun _ _ hHosts => hHosts) hMessages rfl
  | collect src dst msg todo worker rest hPhase hWorker
      hMessages =>
      exact
        .collect src worker (dst, msg) rest (Or.inl hWorker)
          hMessages
          (hPlaced.replaces_setWorker hWorker rfl rfl)
          rfl rfl
  | route src dest msg rest worker hPhase hMessages
      hWorker =>
      exact
        .route src dest msg worker (Or.inl hWorker)
          (hPlaced.replaces_setWorker hWorker rfl rfl)
          hMessages rfl
  | work addr worker new hWorker hWork =>
      exact
        .work addr worker new (Or.inl hWorker) hWork
          (hPlaced.replaces_setWorker hWorker rfl rfl)
          rfl rfl
  | workQueued position front back place old new dur hQueue
      hWork =>
      have hHere :
          (place, old, dur) ∈ self.sim.workerAddQueue := by
        rw [hQueue]
        simp
      have hNodup := hPlaced.nodup
      rw [hQueue, List.map_append, List.map_cons,
        List.nodup_middle, List.nodup_cons] at hNodup
      refine
        .work place old new (Or.inr ⟨dur, hHere⟩) hWork ?_
          rfl rfl
      intro addr worker hHosts
      rcases hHosts with hGet | ⟨delay, hQueued⟩
      · refine Or.inr ⟨?_, Or.inl hGet⟩
        intro hSame
        have hNone := hPlaced.apart _ hHere
        dsimp only at hNone hGet
        rw [← hSame, hGet] at hNone
        cases hNone
      · dsimp only at hQueued
        rw [List.mem_append, List.mem_cons] at hQueued
        have hCases :
            (addr, worker, delay) = (place, new, dur) ∨
              (addr, worker, delay) ∈ front ++ back := by
          rw [List.mem_append]
          tauto
        rcases hCases with hNew | hOther
        · cases hNew
          exact Or.inl ⟨rfl, rfl⟩
        · refine Or.inr ⟨?_, Or.inr ⟨delay, ?_⟩⟩
          · intro hSame
            apply hNodup.1
            rw [← hSame, ← List.map_append, List.mem_map]
            exact ⟨_, hOther, rfl⟩
          · rw [hQueue]
            exact Listing.mem_append_cons hOther

end Simulation

end WorldDat

------------------------------------------------------------
-- Queues In A Row
------------------------------------------------------------

namespace WorldDat

open Rust

/- What an address has sent, of some envelopes. -/
def sentBy
    (src : SocketAddr)
    (envelopes : List Envelope) : List Outgoing :=
  envelopes.filterMap fun envelope =>
    if envelope.1 = src then some envelope.2 else none

/- What an address is sent, of some envelopes. -/
def sentTo
    (dst : SocketAddr)
    (envelopes : List Envelope) : List Incoming :=
  envelopes.filterMap fun envelope =>
    if envelope.2.1 = dst then
      some (envelope.1, envelope.2.2)
    else
      none

namespace Simulation

variable {R : Type}

/- Everything that has been routed. -/
def routed (self : Simulation R) : List Envelope :=
  self.forwarded.map Forwarded.envelope

/- What has been routed to a worker that was there. -/
def delivered (self : Simulation R) : List Envelope :=
  (self.forwarded.filter Forwarded.delivered).map
    Forwarded.envelope

/- Everything that has been collected. -/
def collected (self : Simulation R) : List Envelope :=
  self.routed ++ self.messages

/-
  A worker has handled a part of what came to it, from a
  state on, and sends the replies.
-/
structure Handled
    (original worker : WorkerHandle)
    (handled arrived : List Incoming) : Prop where
  control :
    handled ++ worker.control = original.control ++ arrived
  thread : worker.thread = original.thread.afterAll handled
  replies :
    worker.sent ++ worker.unsent =
      original.sent ++ original.unsent ++
        original.thread.repliesTo handled

/-
  The queues hold in order what every worker has sent, and
  every worker handles in order what has been delivered.
-/
structure Conveys
    (first run : Simulation R) : Prop where
  sender : ∀ src worker, run.Hosts src worker →
    worker.sent =
      sentBy src run.collected ++ worker.messages
  receiver : ∀ dst worker, run.Hosts dst worker →
    ∃ original handled,
      first.Hosts dst original ∧
        Handled original worker handled
          (sentTo dst run.delivered)

/- What has been collected is in the simulator's queues. -/
theorem collected_congr
    {self next : Simulation R}
    (hMessages : next.messages = self.messages)
    (hForwarded : next.forwarded = self.forwarded) :
    next.collected = self.collected := by
  unfold collected routed
  rw [hMessages, hForwarded]

theorem delivered_congr
    {self next : Simulation R}
    (hForwarded : next.forwarded = self.forwarded) :
    next.delivered = self.delivered := by
  unfold delivered
  rw [hForwarded]

/- Routing does not change what has been collected. -/
theorem collected_of_forwarded
    {self next : Simulation R}
    {item : Forwarded}
    (hMessages :
      self.messages = item.envelope :: next.messages)
    (hForwarded :
      next.forwarded = self.forwarded ++ [item]) :
    next.collected = self.collected := by
  unfold collected routed
  rw [hMessages, hForwarded]
  simp

/- A worker stays up to date with its thread's work. -/
theorem Handled.work
    {original worker next : WorkerHandle}
    {handled arrived : List Incoming}
    (hHandled : Handled original worker handled arrived)
    (hWork : worker.work = some next) :
    ∃ handled', Handled original next handled' arrived := by
  rcases WorkerHandle.work_cases hWork with
    ⟨message, rest, hUnsent, hNext⟩ |
      ⟨source, msg, rest, hUnsent, hControl, hNext⟩
  · refine
      ⟨handled, ?_, ?_, ?_⟩
    · rw [hNext]
      exact hHandled.control
    · rw [hNext]
      exact hHandled.thread
    · rw [hNext, ← hHandled.replies, hUnsent]
      simp
  · refine ⟨handled ++ [(source, msg)], ?_, ?_, ?_⟩
    · rw [hNext, ← hHandled.control, hControl]
      simp
    · rw [hNext, WorkerState.afterAll_concat,
        ← hHandled.thread]
    · have hReplies := hHandled.replies
      rw [hUnsent, List.append_nil] at hReplies
      rw [hNext, WorkerState.repliesTo_concat,
        ← hHandled.thread, hReplies]
      simp

/- What is collected is what was sent, in the same order. -/
theorem Conveys.sender_step
    {first self next : Simulation R}
    (hConveys : Conveys first self)
    (hEffect : Effect self next)
    (src : SocketAddr)
    (worker : WorkerHandle)
    (hWorker : next.Hosts src worker) :
    worker.sent =
      sentBy src next.collected ++ worker.messages := by
  have hSender := hConveys.sender
  cases hEffect with
  | quiet hHosts hMessages hForwarded =>
      rw [collected_congr hMessages hForwarded]
      exact hSender src worker (hHosts src worker hWorker)
  | work place old new hOld hWork hHosts hMessages
      hForwarded =>
      rw [collected_congr hMessages hForwarded]
      rcases hHosts src worker hWorker with
        ⟨hPlace, hNew⟩ | ⟨_, hSame⟩
      · have hBefore := hSender place old hOld
        rw [hPlace, hNew]
        rcases WorkerHandle.work_cases hWork with
          ⟨message, rest, _, hNext⟩ |
            ⟨source, msg, rest, _, _, hNext⟩
        · rw [hNext, ← List.append_assoc, ← hBefore]
        · rw [hNext]
          exact hBefore
      · exact hSender src worker hSame
  | collect source old out rest hOld hChannel hHosts
      hMessages hForwarded =>
      have hCollected :
          next.collected =
            self.collected ++ [(source, out)] := by
        unfold collected routed
        rw [hMessages, hForwarded, List.append_assoc]
      rw [hCollected]
      rcases hHosts src worker hWorker with
        ⟨hPlace, hNew⟩ | ⟨hOther, hSame⟩
      · have hBefore := hSender source old hOld
        rw [hChannel] at hBefore
        rw [hPlace, hNew]
        dsimp only
        rw [hBefore]
        simp [sentBy]
      · have hBefore := hSender src worker hSame
        have hNe : source ≠ src := fun h => hOther h.symm
        rw [hBefore]
        simp [sentBy, hNe]
  | route source place msg old hOld hHosts hMessages
      hForwarded =>
      rw [collected_of_forwarded hMessages hForwarded]
      rcases hHosts src worker hWorker with
        ⟨hPlace, hNew⟩ | ⟨_, hSame⟩
      · rw [hPlace, hNew]
        exact hSender place old hOld
      · exact hSender src worker hSame
  | ignore envelope hHosts hMessages hForwarded =>
      rw [collected_of_forwarded hMessages hForwarded]
      exact hSender src worker (hHosts src worker hWorker)

/- What is delivered is handled, in the same order. -/
theorem Conveys.receiver_step
    {first self next : Simulation R}
    (hConveys : Conveys first self)
    (hEffect : Effect self next)
    (dst : SocketAddr)
    (worker : WorkerHandle)
    (hWorker : next.Hosts dst worker) :
    ∃ original handled,
      first.Hosts dst original ∧
        Handled original worker handled
          (sentTo dst next.delivered) := by
  have hReceiver := hConveys.receiver
  cases hEffect with
  | quiet hHosts hMessages hForwarded =>
      rw [delivered_congr hForwarded]
      exact hReceiver dst worker (hHosts dst worker hWorker)
  | work place old new hOld hWork hHosts hMessages
      hForwarded =>
      rw [delivered_congr hForwarded]
      rcases hHosts dst worker hWorker with
        ⟨hPlace, hNew⟩ | ⟨_, hSame⟩
      · rcases hReceiver place old hOld with
          ⟨original, handled, hOriginal, hHandled⟩
        rcases hHandled.work hWork with
          ⟨handled', hHandled'⟩
        rw [hPlace, hNew]
        exact ⟨original, handled', hOriginal, hHandled'⟩
      · exact hReceiver dst worker hSame
  | collect source old out rest hOld hChannel hHosts
      hMessages hForwarded =>
      rw [delivered_congr hForwarded]
      rcases hHosts dst worker hWorker with
        ⟨hPlace, hNew⟩ | ⟨_, hSame⟩
      · rcases hReceiver source old hOld with
          ⟨original, handled, hOriginal, hHandled⟩
        rw [hPlace, hNew]
        exact
          ⟨original, handled, hOriginal, hHandled.control,
            hHandled.thread, hHandled.replies⟩
      · exact hReceiver dst worker hSame
  | route source place msg old hOld hHosts hMessages
      hForwarded =>
      have hDelivered :
          next.delivered =
            self.delivered ++ [(source, place, msg)] := by
        unfold delivered
        rw [hForwarded]
        simp
      rw [hDelivered]
      rcases hHosts dst worker hWorker with
        ⟨hPlace, hNew⟩ | ⟨hOther, hSame⟩
      · rcases hReceiver place old hOld with
          ⟨original, handled, hOriginal, hHandled⟩
        rw [hPlace, hNew]
        refine
          ⟨original, handled, hOriginal, ?_,
            hHandled.thread, hHandled.replies⟩
        have hControl := hHandled.control
        unfold WorkerHandle.message
        dsimp only
        rw [← List.append_assoc, hControl]
        simp [sentTo]
      · have hNe : place ≠ dst := fun h => hOther h.symm
        have hNothing :
            sentTo dst
                (self.delivered ++ [(source, place, msg)]) =
              sentTo dst self.delivered := by
          simp [sentTo, hNe]
        rw [hNothing]
        exact hReceiver dst worker hSame
  | ignore envelope hHosts hMessages hForwarded =>
      have hDelivered : next.delivered = self.delivered := by
        unfold delivered
        rw [hForwarded]
        simp
      rw [hDelivered]
      exact hReceiver dst worker (hHosts dst worker hWorker)

/- No tick loses, repeats or reorders a message. -/
theorem conveys_step
    {first self next : Simulation R}
    (hConveys : Conveys first self)
    (hEffect : Effect self next) :
    Conveys first next where
  sender := hConveys.sender_step hEffect
  receiver := hConveys.receiver_step hEffect

end Simulation

end WorldDat

------------------------------------------------------------
-- Registered Workers
------------------------------------------------------------

namespace WorldDat

open Rust

namespace Simulation

variable {R : Type}

/- A worker is registered at an address. -/
def Registered
    (self : Simulation R)
    (addr : SocketAddr) : Prop :=
  (self.sim.workers.get addr).isSome

/- Adding a worker registers it and keeps all others. -/
theorem registered_of_insert
    {self next : Simulation R}
    {place addr : SocketAddr}
    {worker : WorkerHandle}
    (hWorkers :
      next.sim.workers =
        self.sim.workers.insert place worker)
    (hRegistered : self.Registered addr) :
    next.Registered addr := by
  unfold Registered
  rw [hWorkers, HashMap.get_insert]
  split
  · rfl
  · exact hRegistered

/- A worker that is registered stays registered. -/
theorem Step.registered
    {self next : Simulation R}
    {tick : Tick}
    (hStep : Step self tick next)
    {addr : SocketAddr}
    (hRegistered : self.Registered addr) :
    next.Registered addr := by
  cases hStep with
  | add elapsed dur front place worker sim hPhase hQueue
      hDue hSim =>
      apply registered_of_insert ?_ hRegistered
      · exact place
      · exact worker
      · rw [hSim]
        rfl
  | collect => exact registered_of_insert rfl hRegistered
  | route => exact registered_of_insert rfl hRegistered
  | work => exact registered_of_insert rfl hRegistered
  | wait => exact hRegistered
  | collected => exact hRegistered
  | skip => exact hRegistered
  | routed => exact hRegistered
  | ignore => exact hRegistered
  | workQueued => exact hRegistered

/- A tick routes one message at most, to whoever is there. -/
theorem Step.forwarded_cases
    {self next : Simulation R}
    {tick : Tick}
    (hStep : Step self tick next) :
    ∃ items,
      next.forwarded = self.forwarded ++ items ∧
        ∀ item ∈ items,
          self.Registered item.envelope.2.1 →
            item.delivered = true := by
  have hNothing :
      ∃ items : List Forwarded,
        self.forwarded = self.forwarded ++ items ∧
          ∀ item ∈ items,
            self.Registered item.envelope.2.1 →
              item.delivered = true := by
    refine ⟨[], (List.append_nil _).symm, ?_⟩
    intro item hItem
    cases hItem
  cases hStep with
  | route src dest msg rest worker hPhase hMessages
      hWorker =>
      refine ⟨_, rfl, ?_⟩
      intro item hItem _
      rw [List.mem_singleton.mp hItem]
  | ignore src dest msg rest hPhase hMessages hNobody =>
      refine ⟨_, rfl, ?_⟩
      intro item hItem hRegistered
      rw [List.mem_singleton.mp hItem] at hRegistered
      unfold Registered at hRegistered
      rw [hNobody] at hRegistered
      cases hRegistered
  | add => exact hNothing
  | wait => exact hNothing
  | collected => exact hNothing
  | skip => exact hNothing
  | collect => exact hNothing
  | routed => exact hNothing
  | work => exact hNothing
  | workQueued => exact hNothing

/-
  Whatever is routed after a worker has been registered at
  its destination is delivered.
-/
theorem delivered_of_registered
    {self final : Simulation R}
    {ticks : List Tick}
    (hExec : self.exec ticks = some final) :
    ∃ later,
      final.forwarded = self.forwarded ++ later ∧
        ∀ item ∈ later,
          self.Registered item.envelope.2.1 →
            item.delivered = true := by
  have hInv :
      (∀ addr, self.Registered addr →
          final.Registered addr) ∧
        ∃ later,
          final.forwarded = self.forwarded ++ later ∧
            ∀ item ∈ later,
              self.Registered item.envelope.2.1 →
                item.delivered = true := by
    apply exec_invariant
      (fun run =>
        (∀ addr, self.Registered addr →
            run.Registered addr) ∧
          ∃ later,
            run.forwarded = self.forwarded ++ later ∧
              ∀ item ∈ later,
                self.Registered item.envelope.2.1 →
                  item.delivered = true)
      ?_ hExec
    · refine
        ⟨fun _ hRegistered => hRegistered, [],
          (List.append_nil _).symm, ?_⟩
      intro item hItem
      cases hItem
    · intro run tick next hRun hStep
      rcases hRun with ⟨hStays, later, hLater, hAll⟩
      rcases hStep.forwarded_cases with
        ⟨items, hItems, hNew⟩
      refine ⟨?_, later ++ items, ?_, ?_⟩
      · intro addr hRegistered
        exact hStep.registered (hStays addr hRegistered)
      · rw [hItems, hLater, List.append_assoc]
      · intro item hItem hRegistered
        rcases List.mem_append.mp hItem with hOld | hLast
        · exact hAll item hOld hRegistered
        · exact hNew item hLast (hStays _ hRegistered)
  exact hInv.2

/- Between two rounds everything collected has been routed. -/
theorem messages_eq_nil_step
    {self next : Simulation R}
    {tick : Tick}
    (hEmpty : self.phase = .adding → self.messages = [])
    (hStep : Step self tick next)
    (hAdding : next.phase = .adding) :
    next.messages = [] := by
  cases hStep with
  | routed hPhase hMessages => exact hMessages
  | add => cases hAdding
  | wait => cases hAdding
  | collected => cases hAdding
  | skip => cases hAdding
  | collect src dst msg todo worker rest hPhase =>
      change self.phase = .adding at hAdding
      rw [hPhase] at hAdding
      cases hAdding
  | route src dest msg rest worker hPhase =>
      change self.phase = .adding at hAdding
      rw [hPhase] at hAdding
      cases hAdding
  | ignore src dest msg rest hPhase =>
      change self.phase = .adding at hAdding
      rw [hPhase] at hAdding
      cases hAdding
  | work => exact hEmpty hAdding
  | workQueued => exact hEmpty hAdding

end Simulation

end WorldDat

------------------------------------------------------------
-- Exactly Once And In Order
------------------------------------------------------------

namespace WorldDat

open Rust

/- What one address has sent to another, of some envelopes. -/
def between
    (src dst : SocketAddr)
    (envelopes : List Envelope) : List Message :=
  envelopes.filterMap fun envelope =>
    if envelope.1 = src ∧ envelope.2.1 = dst then
      some envelope.2.2
    else
      none

/- The messages to an address, of what a worker sends. -/
def toAddress
    (dst : SocketAddr)
    (outgoing : List Outgoing) : List Message :=
  outgoing.filterMap fun out =>
    if out.1 = dst then some out.2 else none

/- The messages from an address, of what comes to a worker. -/
def fromAddress
    (src : SocketAddr)
    (incoming : List Incoming) : List Message :=
  incoming.filterMap fun msg =>
    if msg.1 = src then some msg.2 else none

theorem toAddress_sentBy
    (src dst : SocketAddr)
    (envelopes : List Envelope) :
    toAddress dst (sentBy src envelopes) =
      between src dst envelopes := by
  unfold toAddress sentBy between
  rw [List.filterMap_filterMap]
  apply List.filterMap_congr
  intro envelope _
  by_cases hSource : envelope.1 = src
  · simp [hSource]
  · simp [hSource]

theorem fromAddress_sentTo
    (src dst : SocketAddr)
    (envelopes : List Envelope) :
    fromAddress src (sentTo dst envelopes) =
      between src dst envelopes := by
  unfold fromAddress sentTo between
  rw [List.filterMap_filterMap]
  apply List.filterMap_congr
  intro envelope _
  by_cases hDest : envelope.2.1 = dst
  · simp [hDest]
  · simp [hDest]

/-
  A simulator before it runs: its workers are at distinct
  addresses, and nothing has been received from them.
-/
structure WorkerSim.Ready
    {R : Type}
    (sim : WorkerSim R) : Prop where
  nodup : (sim.workerAddQueue.map Prod.fst).Nodup
  apart : ∀ entry ∈ sim.workerAddQueue,
    sim.workers.get entry.1 = none
  uncollected : ∀ addr worker,
    (Simulation.start sim).Hosts addr worker →
      worker.messages = worker.sent

namespace Simulation

variable {R : Type}

/-
  For all workers at addresses `src` and `dst`: what the
  sender has sent to `dst` is, in order, what has been routed
  to there, what has been collected and what waits in its
  channel.  Of what has been routed, the receiver has handled
  a part and holds the rest, in order and with the address of
  the sender; only what was routed while nobody was there is
  missing.  Between two rounds all that has been collected
  has been routed.
-/
structure FifoExactlyOnce
    (sim : WorkerSim R)
    (ticks : List Tick)
    (run : Simulation R) : Prop where
  sender : ∀ src worker, run.Hosts src worker → ∀ dst,
    toAddress dst worker.sent =
      between src dst run.routed ++
        between src dst run.messages ++
          toAddress dst worker.messages
  receiver : ∀ dst worker, run.Hosts dst worker →
    ∃ original handled,
      (start sim).Hosts dst original ∧
        Handled original worker handled
          (sentTo dst run.delivered)
  tagged : ∀ src dst,
    fromAddress src (sentTo dst run.delivered) =
      between src dst run.delivered
  registered : ∀ before after past,
    ticks = before ++ after →
      (start sim).exec before = some past →
        ∃ later,
          run.forwarded = past.forwarded ++ later ∧
            ∀ item ∈ later,
              past.Registered item.envelope.2.1 →
                item.delivered = true
  round : run.phase = .adding → run.messages = []

/- Sorting the queue leaves all workers where they are. -/
theorem placed_start
    {sim : WorkerSim R}
    (hReady : sim.Ready) :
    (start sim).Placed := by
  have hSort :
      (WorkerSim.sortQueue sim.workerAddQueue).Perm
        sim.workerAddQueue :=
    List.perm_insertionSort _ _
  constructor
  · exact
      ((hSort.map Prod.fst).nodup_iff).mpr hReady.nodup
  · intro entry hEntry
    apply hReady.apart
    exact hSort.mem_iff.mp hEntry

/- Before the first tick nothing has moved. -/
theorem conveys_start
    {sim : WorkerSim R}
    (hReady : sim.Ready) :
    Conveys (start sim) (start sim) where
  sender := by
    intro src worker hWorker
    exact (hReady.uncollected src worker hWorker).symm
  receiver := by
    intro dst worker hWorker
    refine ⟨worker, [], hWorker, ?_, rfl, ?_⟩
    · simp [sentTo, delivered, start]
    · simp [WorkerState.repliesTo]

/-
  In every run the simulator is a network that delivers every
  message once and in order to whoever is there.
-/
theorem fifo_exactly_once
    {sim : WorkerSim R}
    (hReady : sim.Ready)
    {ticks : List Tick}
    {final : Simulation R}
    (hExec : (start sim).exec ticks = some final) :
    FifoExactlyOnce sim ticks final := by
  have hInv :
      final.Placed ∧ Conveys (start sim) final ∧
        (final.phase = .adding → final.messages = []) := by
    apply exec_invariant
      (fun run =>
        run.Placed ∧ Conveys (start sim) run ∧
          (run.phase = .adding → run.messages = []))
      ?_ hExec
    · exact
        ⟨placed_start hReady, conveys_start hReady,
          fun _ => rfl⟩
    · intro run tick next hRun hStep
      rcases hRun with ⟨hPlaced, hConveys, hRound⟩
      exact
        ⟨placed_step hPlaced hStep,
          conveys_step hConveys (hStep.effect hPlaced),
          messages_eq_nil_step hRound hStep⟩
  rcases hInv with ⟨_, hConveys, hRound⟩
  constructor
  · intro src worker hWorker dst
    have hSent := hConveys.sender src worker hWorker
    have hQueues :=
      congrArg (toAddress dst) hSent
    have hSplit :
        between src dst final.collected =
          between src dst final.routed ++
            between src dst final.messages := by
      unfold between collected
      exact List.filterMap_append
    rw [hQueues, ← hSplit, ← toAddress_sentBy]
    unfold toAddress
    exact List.filterMap_append
  · exact hConveys.receiver
  · intro src dst
    exact fromAddress_sentTo src dst final.delivered
  · intro before after past hTicks hPast
    rw [hTicks] at hExec
    rcases Machine.exec_append_eq_some_iff.mp hExec with
      ⟨mid, hMid, hAfter⟩
    have hSame : past = mid := by
      apply Option.some.inj
      rw [← hPast, ← hMid]
      rfl
    rw [hSame]
    exact delivered_of_registered hAfter
  · exact hRound

/- Two workers, one of which has been pinged by the other. -/
def pairSim : WorkerSim Unit :=
  let hasher :=
    RandomState.insertionOrder SocketAddr WorkerHandle
  let peerHasher :=
    RandomState.insertionOrder PeerId SocketAddr
  let first := SocketAddr.v4 0x0A000001 4433
  let second := SocketAddr.v4 0x0A000002 4433
  let firstWorker :=
    WorkerHandle.fresh peerHasher (PeerId.repeating 1) first
  let secondWorker :=
    WorkerHandle.fresh peerHasher (PeerId.repeating 2) second
  ((WorkerSim.new hasher ()).addWorker first
      (firstWorker.message second
        (.ping (PeerId.repeating 2)))).addWorker second
    secondWorker

/- The first worker replies, and one round passes. -/
def pairTicks : List Tick :=
  [.work (.v4 0x0A000001 4433), .work (.v4 0x0A000001 4433),
    .work (.v4 0x0A000001 4433), .clock 0] ++
    List.replicate 8 .advance ++
    [.work (.v4 0x0A000002 4433)]

theorem ready_pairSim : pairSim.Ready where
  nodup := List.nodup_nil
  apart := by
    intro entry hEntry
    cases hEntry
  uncollected := by
    intro addr worker hHosts
    rcases hHosts with hGet | ⟨dur, hQueued⟩
    · rcases HashMap.get_insert_cases hGet with
        ⟨_, hSecond⟩ | ⟨_, hRest⟩
      · rw [hSecond]
        rfl
      · rcases HashMap.get_insert_cases hRest with
          ⟨_, hFirst⟩ | ⟨_, hNobody⟩
        · rw [hFirst]
          rfl
        · cases hNobody
    · cases hQueued

theorem fifo_exactly_once_pairSim :
    ∃ final,
      (start pairSim).exec pairTicks = some final ∧
        FifoExactlyOnce pairSim pairTicks final := by
  have hRuns :
      ((start pairSim).exec pairTicks).isSome := by
    decide +kernel
  rcases Option.isSome_iff_exists.mp hRuns with
    ⟨final, hExec⟩
  exact
    ⟨final, hExec, fifo_exactly_once ready_pairSim hExec⟩

end Simulation

end WorldDat
