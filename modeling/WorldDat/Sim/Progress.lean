import WorldDat.Machine.Termination
import WorldDat.Sim.Traffic

/-
  The loop of the simulator goes on.

  Threads answer nothing but start-up messages and answer
  these by responses, so there is only so much for them to
  do.  However often it is their turn, the loop looks at the
  clock again and again, and in the end all workers join.

  Main declarations:
    * `WorkerHandle.Courteous` and
      `Simulation.courteous_step`
    * `Simulation.load` and `Simulation.load_step`
    * `Simulation.Proceeds` and
      `Simulation.proceeds_of_prepared`
-/

------------------------------------------------------------
-- Courteous Workers
------------------------------------------------------------

namespace WorldDat

open Rust

namespace WorkerHandle

/-
  A worker that nobody asks for anything but the worker
  itself, and that sends nothing but responses.
-/
structure Courteous (worker : WorkerHandle) : Prop where
  knows_self : worker.thread.Knows worker.peerId
  control : ∀ source msg, (source, msg) ∈ worker.control →
    (msg = .ping worker.peerId ∨
        msg = .findPeer worker.peerId) ∨
      msg.isResponse = true
  unsent : ∀ out ∈ worker.unsent, out.2.isResponse = true
  messages : ∀ out ∈ worker.messages,
    out.2.isResponse = true

variable {self next : WorkerHandle}

/- A worker that is handed a response stays courteous. -/
theorem Courteous.message
    (hCourteous : self.Courteous)
    (src : SocketAddr)
    {msg : Message}
    (hResponse : msg.isResponse = true) :
    (self.message src msg).Courteous where
  knows_self := hCourteous.knows_self
  control := by
    intro source other hMem
    rcases List.mem_append.mp hMem with hOld | hNew
    · exact hCourteous.control source other hOld
    · rw [List.mem_singleton] at hNew
      cases hNew
      exact Or.inr hResponse
  unsent := hCourteous.unsent
  messages := hCourteous.messages

/- The replies of a courteous worker are responses. -/
theorem Courteous.replies
    (hCourteous : self.Courteous)
    {source : SocketAddr}
    {msg : Message}
    (hMsg : (source, msg) ∈ self.control)
    {out : Outgoing}
    (hOut : out ∈ self.thread.replies (source, msg)) :
    out.2.isResponse = true := by
  rcases out with ⟨dst, reply⟩
  rcases hCourteous.control source msg hMsg with
    hStart | hResponse
  · exact
      (isResponse_of_mem_replies hCourteous.knows_self
        hStart hOut).2
  · rw [(self.thread.replies_eq_nil_iff source msg).mpr
      hResponse] at hOut
    cases hOut

/- A worker that works stays courteous. -/
theorem Courteous.work
    (hCourteous : self.Courteous)
    (hWork : self.work = some next) :
    next.Courteous := by
  rcases work_cases hWork with
    ⟨message, rest, hUnsent, hNext⟩ |
      ⟨source, msg, rest, hUnsent, hControl, hNext⟩
  · rw [hNext]
    refine
      ⟨hCourteous.knows_self, hCourteous.control, ?_, ?_⟩
    · intro out hOut
      apply hCourteous.unsent
      rw [hUnsent]
      exact List.mem_cons_of_mem _ hOut
    · intro out hOut
      rcases List.mem_append.mp hOut with hOld | hNew
      · exact hCourteous.messages out hOld
      · apply hCourteous.unsent
        rw [hUnsent, List.mem_singleton.mp hNew]
        exact List.mem_cons_self
  · rw [hNext]
    refine ⟨?_, ?_, ?_, hCourteous.messages⟩
    · apply WorkerState.knows_after
      apply Or.inl
      exact hCourteous.knows_self
    · intro other asked hMem
      apply hCourteous.control other asked
      rw [hControl]
      exact List.mem_cons_of_mem _ hMem
    · intro out hOut
      apply hCourteous.replies ?_ hOut
      rw [hControl]
      exact List.mem_cons_self

/- What one message still gives the simulator to do. -/
def toll (msg : Incoming) : Nat :=
  if msg.2.isResponse then 1 else 9

/- What a worker still gives the simulator to do. -/
def load (self : WorkerHandle) : Nat :=
  (self.control.map toll).sum + 4 * self.unsent.length +
    3 * self.messages.length

/- Work makes a worker's load smaller. -/
theorem load_work
    (hWork : self.work = some next) :
    next.load < self.load := by
  rcases work_cases hWork with
    ⟨message, rest, hUnsent, hNext⟩ |
      ⟨source, msg, rest, hUnsent, hControl, hNext⟩
  · rw [hNext]
    unfold load
    simp only [hUnsent, List.length_cons, List.length_append,
      List.length_nil]
    omega
  · rw [hNext]
    unfold load
    simp only [hUnsent, hControl, List.map_cons,
      List.sum_cons, List.length_nil]
    have hReplies :=
      self.thread.length_replies_le (source, msg)
    unfold toll
    split
    · rename_i hResponse
      rw [(self.thread.replies_eq_nil_iff source msg).mpr
        hResponse]
      simp
    · omega

/- Receiving makes it smaller by a message in a channel. -/
theorem load_recv
    {out : Outgoing}
    {rest : List Outgoing}
    (hMessages : self.messages = out :: rest) :
    ({ self with messages := rest } : WorkerHandle).load + 3 =
      self.load := by
  unfold load
  rw [hMessages, List.length_cons]
  dsimp only
  omega

/- A response that is delivered adds what it takes. -/
theorem load_message
    (self : WorkerHandle)
    (src : SocketAddr)
    {msg : Message}
    (hResponse : msg.isResponse = true) :
    (self.message src msg).load = self.load + 1 := by
  have hToll : toll (src, msg) = 1 := if_pos hResponse
  unfold load message
  simp only [List.map_append, List.sum_append, List.map_cons,
    List.sum_cons, List.map_nil, List.sum_nil, hToll]
  omega

end WorkerHandle

namespace Simulation

variable {R : Type}
variable {self next : Simulation R}

/- All workers and all messages are courteous. -/
structure Courteous (run : Simulation R) : Prop where
  hosts : ∀ addr worker, run.Hosts addr worker →
    worker.Courteous
  messages : ∀ src dst msg, (src, dst, msg) ∈ run.messages →
    msg.isResponse = true

/- No tick makes anybody ask anybody else. -/
theorem courteous_step
    {tick : Tick}
    (hCourteous : self.Courteous)
    (hStep : Step self tick next) :
    next.Courteous := by
  refine ⟨?_, ?_⟩
  · intro addr worker hHosts
    rcases hStep.hosts_cases hHosts with
      ⟨past, hPast, hSuccessor⟩
    have hBefore := hCourteous.hosts addr past hPast
    cases hSuccessor with
    | same => exact hBefore
    | work new hWork => exact hBefore.work hWork
    | recv message rest hMessages =>
        refine
          ⟨hBefore.knows_self, hBefore.control,
            hBefore.unsent, ?_⟩
        intro out hOut
        apply hBefore.messages
        rw [hMessages]
        exact List.mem_cons_of_mem _ hOut
    | message src msg hEnvelope =>
        apply hBefore.message src
        exact hCourteous.messages src addr msg hEnvelope
  · intro src dst msg hEnvelope
    rcases hStep.messages_cases hEnvelope with
      hOld | ⟨worker, hWorker, hMessage⟩
    · exact hCourteous.messages src dst msg hOld
    · exact
        (hCourteous.hosts src worker
          (Or.inl hWorker)).messages _ hMessage

/- Workers that have been created are courteous. -/
theorem courteous_start
    {sim : WorkerSim R}
    {entrants : List Entrant}
    (hEmpty : ∀ addr, sim.workers.get addr = none)
    (hQueue :
      sim.workerAddQueue = entrants.map Entrant.queued) :
    (start sim).Courteous := by
  refine ⟨?_, ?_⟩
  · intro addr worker hHosts
    rcases (hosts_start_iff hEmpty hQueue addr worker).mp
        hHosts with
      ⟨entrant, _, _, hSame⟩
    rcases entrant.idle_queued with
      ⟨hThread, hMessages, hUnsent, _⟩
    rw [hSame] at hThread hMessages hUnsent
    have hControl := entrant.control_queued
    have hId := entrant.peerId_queued
    rw [hSame] at hControl hId
    refine ⟨?_, ?_, ?_, ?_⟩
    · rw [hThread, hId]
      exact WorkerState.knows_fresh _ _ _
    · intro source msg hMem
      rw [hControl] at hMem
      rw [hId]
      apply Or.inl
      unfold Entrant.startup at hMem
      split at hMem
      · cases hMem
      · rcases List.mem_cons.mp hMem with hPing | hFind
        · cases hPing
          exact Or.inl rfl
        · cases List.mem_singleton.mp hFind
          exact Or.inr rfl
    · intro out hOut
      rw [hUnsent] at hOut
      cases hOut
    · intro out hOut
      rw [hMessages] at hOut
      cases hOut
  · intro src dst msg hEnvelope
    cases hEnvelope

end Simulation

end WorldDat

------------------------------------------------------------
-- The Load Of A Simulator
------------------------------------------------------------

namespace WorldDat

open Rust

/- What the loop still does before it looks at the clock. -/
def Phase.load : Phase → Nat
| .adding => 0
| .collecting todo => todo.length + 2
| .routing => 1

/- The loop looks at the clock. -/
def Tick.isClock : Tick → Bool
| .clock _ => true
| .advance => false
| .work _ => false
| .workQueued _ => false

namespace Simulation

variable {R : Type}
variable {self next : Simulation R}

/- What the workers of the network still give to do. -/
def workersLoad
    (workers : HashMap SocketAddr WorkerHandle) : Nat :=
  (workers.entries.map fun entry => entry.2.load).sum

/- What those that wait to be added still give to do. -/
def queueLoad (queue : List QueuedWorker) : Nat :=
  (queue.map fun entry => entry.2.1.load).sum

/-
  What there still is to do, unless the loop looks at the
  clock: a collected message is routed, and then handled.
-/
def load (self : Simulation R) : Nat :=
  workersLoad self.sim.workers +
    queueLoad self.sim.workerAddQueue +
    2 * self.messages.length + self.phase.load

/- The load of a worker is exchanged for that of another. -/
theorem workersLoad_insert
    {workers : HashMap SocketAddr WorkerHandle}
    {addr : SocketAddr}
    {old : WorkerHandle}
    (hOld : workers.get addr = some old)
    (new : WorkerHandle) :
    workersLoad (workers.insert addr new) + old.load =
      workersLoad workers + new.load := by
  rcases HashMap.exists_split_of_get hOld with
    ⟨front, back, hEntries, hInsert⟩
  unfold workersLoad
  rw [hEntries, hInsert]
  simp only [List.map_append, List.map_cons,
    List.sum_append, List.sum_cons]
  omega

/- A worker that is added adds its load at most. -/
theorem workersLoad_insert_le
    (workers : HashMap SocketAddr WorkerHandle)
    (addr : SocketAddr)
    (new : WorkerHandle) :
    workersLoad (workers.insert addr new) ≤
      workersLoad workers + new.load := by
  cases hOld : workers.get addr with
  | none =>
      unfold workersLoad
      rw [HashMap.entries_insert_of_get_none new hOld]
      simp
  | some old =>
      have hSum := workersLoad_insert hOld new
      omega

theorem queueLoad_append
    (front back : List QueuedWorker) :
    queueLoad (front ++ back) =
      queueLoad front + queueLoad back := by
  unfold queueLoad
  rw [List.map_append, List.sum_append]

theorem queueLoad_cons
    (addr : SocketAddr)
    (worker : WorkerHandle)
    (dur : Duration)
    (back : List QueuedWorker) :
    queueLoad ((addr, worker, dur) :: back) =
      worker.load + queueLoad back := by
  unfold queueLoad
  rw [List.map_cons, List.sum_cons]

/- How many workers there are. -/
def population (self : Simulation R) : Nat :=
  self.sim.workers.len + self.sim.workerAddQueue.length

/- An address more or less is visited. -/
theorem len_insert_le
    (workers : HashMap SocketAddr WorkerHandle)
    (addr : SocketAddr)
    (new : WorkerHandle) :
    (workers.insert addr new).len ≤ workers.len + 1 := by
  cases hOld : workers.get addr with
  | none =>
      rw [HashMap.len_insert_of_get_none new hOld]
  | some old =>
      rw [HashMap.len_insert_of_get new hOld]
      omega

/- Nobody is created while the loop runs. -/
theorem population_step
    {tick : Tick}
    (hStep : Step self tick next) :
    next.population ≤ self.population := by
  unfold population
  cases hStep with
  | add elapsed dur front addr worker sim hPhase hQueue hDue
      hSim =>
      have hLen :=
        len_insert_le self.sim.workers addr worker
      rw [hSim, hQueue, List.length_append,
        List.length_singleton]
      change
        (self.sim.workers.insert addr worker).len +
            front.length ≤ _
      omega
  | wait => exact Nat.le_refl _
  | collected => exact Nat.le_refl _
  | skip => exact Nat.le_refl _
  | routed => exact Nat.le_refl _
  | ignore => exact Nat.le_refl _
  | collect src dst msg todo worker rest hPhase hWorker =>
      have hLen :=
        HashMap.len_insert_of_get
          { worker with messages := rest } hWorker
      exact Nat.le_of_eq (congrArg (· + _) hLen)
  | route src dest msg rest worker hPhase hMessages
      hWorker =>
      have hLen :=
        HashMap.len_insert_of_get
          (worker.message src msg) hWorker
      exact Nat.le_of_eq (congrArg (· + _) hLen)
  | work addr worker new hWorker =>
      have hLen := HashMap.len_insert_of_get new hWorker
      exact Nat.le_of_eq (congrArg (· + _) hLen)
  | workQueued position front back addr worker new dur
      hQueue =>
      rw [hQueue]
      simp

theorem length_visits (sim : WorkerSim R) :
    (visits sim).length = sim.workers.len := by
  unfold visits
  rw [List.length_map, HashMap.length_iter]

/- What a look at the clock may cost. -/
def clockCost
    (population : Nat)
    (tick : Tick) : Nat :=
  if tick.isClock then population + 3 else 0

/- Every tick uses up some of the load, except the clock. -/
theorem load_step
    {tick : Tick}
    (hCourteous : self.Courteous)
    (hStep : Step self tick next) :
    next.load + 1 ≤
      self.load + clockCost self.population tick := by
  unfold load
  cases hStep with
  | add elapsed dur front addr worker sim hPhase hQueue hDue
      hSim =>
      have hLen :=
        len_insert_le self.sim.workers addr worker
      have hLoad :=
        workersLoad_insert_le self.sim.workers addr worker
      have hWorkers :
          sim.workers =
            self.sim.workers.insert addr worker := by
        rw [hSim]
        rfl
      have hRest : sim.workerAddQueue = front := by
        rw [hSim]
        rfl
      have hCost :
          clockCost self.population (.clock elapsed) =
            self.population + 3 := if_pos rfl
      rw [hCost, hPhase]
      dsimp only [Phase.load]
      rw [length_visits, hWorkers, hRest, hQueue,
        queueLoad_append, queueLoad_cons]
      unfold population queueLoad
      rw [hQueue, List.length_append, List.length_singleton]
      simp only [List.map_nil, List.sum_nil]
      omega
  | wait elapsed hPhase =>
      have hCost :
          clockCost self.population (.clock elapsed) =
            self.population + 3 := if_pos rfl
      rw [hCost, hPhase]
      dsimp only [Phase.load]
      rw [length_visits]
      unfold population
      omega
  | collected hPhase =>
      rw [hPhase]
      dsimp only [Phase.load, List.length_nil]
      omega
  | skip src todo hPhase =>
      rw [hPhase]
      dsimp only [Phase.load, List.length_cons]
      omega
  | routed hPhase =>
      rw [hPhase]
      dsimp only [Phase.load]
      omega
  | ignore src dest msg rest hPhase hMessages =>
      rw [hMessages]
      dsimp only [List.length_cons]
      omega
  | collect src dst msg todo worker rest hPhase hWorker
      hMessages =>
      have hLoad :=
        workersLoad_insert hWorker
          { worker with messages := rest }
      have hRecv := WorkerHandle.load_recv hMessages
      change
        workersLoad
              (self.sim.workers.insert src
                { worker with messages := rest }) +
              queueLoad self.sim.workerAddQueue +
            2 * (self.messages ++ [(src, dst, msg)]).length +
          self.phase.load + 1 ≤ _
      rw [List.length_append, List.length_singleton]
      omega
  | route src dest msg rest worker hPhase hMessages
      hWorker =>
      have hResponse : msg.isResponse = true := by
        apply hCourteous.messages src dest msg
        rw [hMessages]
        exact List.mem_cons_self
      have hLoad :=
        workersLoad_insert hWorker (worker.message src msg)
      rw [worker.load_message src hResponse] at hLoad
      rw [hMessages]
      change
        workersLoad
              (self.sim.workers.insert dest
                (worker.message src msg)) +
              queueLoad self.sim.workerAddQueue +
            2 * rest.length + self.phase.load + 1 ≤ _
      rw [List.length_cons]
      omega
  | work addr worker new hWorker hWork =>
      have hLoad := workersLoad_insert hWorker new
      have hLess := WorkerHandle.load_work hWork
      change
        workersLoad (self.sim.workers.insert addr new) +
              queueLoad self.sim.workerAddQueue +
            2 * self.messages.length + self.phase.load + 1 ≤ _
      omega
  | workQueued position front back addr worker new dur
      hQueue hWork =>
      have hLess := WorkerHandle.load_work hWork
      rw [hQueue]
      dsimp only
      rw [queueLoad_append, queueLoad_append,
        queueLoad_cons, queueLoad_cons]
      omega

end Simulation

end WorldDat

------------------------------------------------------------
-- Everybody Joins
------------------------------------------------------------

namespace WorldDat

open Rust

/- The loop looks at the clock, and a time limit is over. -/
def Tick.isLate
    (limit : Duration) :
    Tick → Bool
| .clock elapsed => decide (limit < elapsed)
| .advance => false
| .work _ => false
| .workQueued _ => false

namespace Simulation

variable {R : Type}
variable {self next : Simulation R}

/- Whoever still waits is due at a time limit. -/
def DueAt
    (limit : Duration)
    (run : Simulation R) : Prop :=
  ∀ entry ∈ run.sim.workerAddQueue, entry.2.2 ≤ limit

theorem dueAt_step
    {limit : Duration}
    {tick : Tick}
    (hDue : self.DueAt limit)
    (hStep : Step self tick next) :
    next.DueAt limit := by
  cases hStep with
  | add elapsed dur front addr worker sim hPhase hQueue _
      hSim =>
      intro entry hEntry
      apply hDue entry
      rw [hQueue]
      apply List.mem_append_left
      rw [hSim] at hEntry
      exact hEntry
  | wait => exact hDue
  | collected => exact hDue
  | skip => exact hDue
  | routed => exact hDue
  | ignore => exact hDue
  | collect => exact hDue
  | route => exact hDue
  | work => exact hDue
  | workQueued position front back addr worker new dur
      hQueue =>
      intro entry hEntry
      have hHere := hDue (addr, worker, dur)
      have hIn : ∀ other ∈ front ++ back,
          other.2.2 ≤ limit := by
        intro other hOther
        apply hDue other
        rw [hQueue]
        exact Listing.mem_append_cons hOther
      dsimp only at hEntry
      rw [List.mem_append, List.mem_cons] at hEntry
      rcases hEntry with hFront | hSame | hBack
      · exact hIn entry (List.mem_append_left _ hFront)
      · rw [hSame]
        apply hHere
        rw [hQueue]
        simp
      · exact hIn entry (List.mem_append_right _ hBack)

/- After the limit, each look at the clock adds a worker. -/
theorem length_queue_step
    {limit : Duration}
    {tick : Tick}
    (hDue : self.DueAt limit)
    (hStep : Step self tick next) :
    next.sim.workerAddQueue.length ≤
      self.sim.workerAddQueue.length -
        if tick.isLate limit then 1 else 0 := by
  cases hStep with
  | add elapsed dur front addr worker sim hPhase hQueue _
      hSim =>
      rw [hSim, hQueue, List.length_append,
        List.length_singleton]
      change front.length ≤ _
      split
      · exact Nat.le_refl _
      · exact Nat.le_succ _
  | wait elapsed hPhase hEarly =>
      dsimp only
      by_cases hLate : Tick.isLate limit (.clock elapsed)
      · have hNone : self.sim.workerAddQueue = [] := by
          by_contra hSome
          have hLast :=
            List.getLast?_eq_some_getLast hSome
          have hElapsed :=
            hEarly _ (Option.mem_def.mpr hLast)
          have hLimit := hDue _ (List.getLast_mem hSome)
          have hOver : limit < elapsed :=
            of_decide_eq_true hLate
          have hEarlier := Nat.le_trans hElapsed hLimit
          exact Nat.not_lt.mpr hEarlier hOver
        rw [hNone]
        exact Nat.zero_le _
      · rw [if_neg hLate]
        exact Nat.le_refl _
  | collected => exact Nat.le_refl _
  | skip => exact Nat.le_refl _
  | routed => exact Nat.le_refl _
  | ignore => exact Nat.le_refl _
  | collect => exact Nat.le_refl _
  | route => exact Nat.le_refl _
  | work => exact Nat.le_refl _
  | workQueued position front back addr worker new dur
      hQueue =>
      rw [hQueue]
      simp [Tick.isLate]

/- The loop can always go on. -/
theorem exists_step_of_loop (self : Simulation R) :
    ∃ tick next, self.step tick = some next ∧
      (tick = .advance ∨ ∃ elapsed, tick = .clock elapsed) := by
  cases hPhase : self.phase with
  | adding =>
      refine ⟨.clock 0, self.addDue 0, ?_, Or.inr ⟨0, rfl⟩⟩
      unfold step
      dsimp only
      rw [hPhase]
  | collecting todo =>
      have hSome : self.advance ≠ none := by
        unfold advance
        rw [hPhase]
        cases todo with
        | nil => simp
        | cons src todo => simp
      rcases Option.ne_none_iff_exists'.mp hSome with
        ⟨next, hNext⟩
      exact ⟨.advance, next, hNext, Or.inl rfl⟩
  | routing =>
      have hSome : self.advance ≠ none := by
        unfold advance
        rw [hPhase]
        cases self.messages with
        | nil => simp
        | cons envelope rest => simp
      rcases Option.ne_none_iff_exists'.mp hSome with
        ⟨next, hNext⟩
      exact ⟨.advance, next, hNext, Or.inl rfl⟩

/-
  A run of a simulator with so many workers.  Its loop can go
  on; the threads do only so much between two looks at the
  clock; each look after a time at which everybody is due
  adds another worker; and if all looks are so late, a run
  that is long enough adds everybody.
-/
structure Proceeds
    (sim : WorkerSim R)
    (ticks : List Tick)
    (run : Simulation R) : Prop where
  goes_on : ∃ tick next, run.step tick = some next ∧
    (tick = .advance ∨ ∃ elapsed, tick = .clock elapsed)
  paced :
    ticks.length ≤
      18 * sim.workerAddQueue.length +
        (sim.workerAddQueue.length + 3) *
          ticks.countP Tick.isClock
  joining : ∀ limit,
    (∀ entry ∈ sim.workerAddQueue, entry.2.2 ≤ limit) →
      run.sim.workerAddQueue.length ≤
        sim.workerAddQueue.length -
          ticks.countP (Tick.isLate limit)
  all_join : ∀ limit,
    (∀ entry ∈ sim.workerAddQueue, entry.2.2 ≤ limit) →
      (∀ tick ∈ ticks,
        tick.isClock = true → tick.isLate limit = true) →
        18 * sim.workerAddQueue.length +
              (sim.workerAddQueue.length + 3) *
                sim.workerAddQueue.length ≤
            ticks.length →
          run.sim.workerAddQueue = []

/- Each worker that waits has its start-up messages to do. -/
theorem load_start_le
    {sim : WorkerSim R}
    {entrants : List Entrant}
    (hEmpty : sim.workers.entries = [])
    (hQueue :
      sim.workerAddQueue = entrants.map Entrant.queued) :
    (start sim).load ≤ 18 * sim.workerAddQueue.length := by
  have hPerm :
      (WorkerSim.sortQueue sim.workerAddQueue).Perm
        sim.workerAddQueue :=
    List.perm_insertionSort _ _
  have hSorted :
      queueLoad (WorkerSim.sortQueue sim.workerAddQueue) =
        queueLoad sim.workerAddQueue :=
    (hPerm.map _).sum_eq
  have hEach : ∀ count ∈
      sim.workerAddQueue.map fun entry => entry.2.1.load,
        count ≤ 18 := by
    intro count hCount
    rcases List.mem_map.mp hCount with ⟨entry, hEntry, hSame⟩
    rw [hQueue] at hEntry
    rcases List.mem_map.mp hEntry with
      ⟨entrant, _, hQueued⟩
    rw [← hSame, ← hQueued]
    rcases entrant with ⟨bootstrap, peerId, newcomer⟩
    cases bootstrap with
    | none => exact Nat.zero_le 18
    | some b => exact Nat.le_refl 18
  have hSum := List.sum_le_card_nsmul _ _ hEach
  rw [List.length_map, Nat.nsmul_eq_mul] at hSum
  unfold load workersLoad
  change
    (sim.workers.entries.map _).sum +
        queueLoad (WorkerSim.sortQueue sim.workerAddQueue) +
      2 * 0 + 0 ≤ _
  rw [hEmpty, hSorted]
  unfold queueLoad
  simp only [List.map_nil, List.sum_nil]
  omega

/- Looks at the clock cost the same as long as all stay. -/
theorem sum_clockCost
    (population : Nat)
    (ticks : List Tick) :
    (ticks.map (clockCost population)).sum =
      (population + 3) * ticks.countP Tick.isClock := by
  induction ticks with
  | nil => rfl
  | cons tick ticks ih =>
      rw [List.map_cons, List.sum_cons, ih, List.countP_cons]
      unfold clockCost
      split
      · rw [Nat.mul_add]
        omega
      · rw [Nat.zero_add, Nat.add_zero (List.countP _ _)]

/- The load and the looks at the clock bound a run. -/
theorem length_ticks_le
    {ticks : List Tick}
    (hExec : self.exec ticks = some next)
    (hCourteous : self.Courteous) :
    ticks.length + next.load ≤
      self.load +
        (self.population + 3) *
          ticks.countP Tick.isClock := by
  have hKeeps : ∀ (run : Simulation R) tick after,
      run.Courteous ∧ run.population ≤ self.population →
        run.step tick = some after →
          after.Courteous ∧
            after.population ≤ self.population := by
    intro run tick after hRun hNext
    have hStep := step_sound hNext
    exact
      ⟨courteous_step hRun.1 hStep,
        Nat.le_trans (population_step hStep) hRun.2⟩
  rw [← sum_clockCost]
  apply Machine.length_exec_le load _ hKeeps ?_ hExec
    ⟨hCourteous, Nat.le_refl _⟩
  intro run tick after hRun hNext
  have hLess := load_step hRun.1 (step_sound hNext)
  have hCost :
      clockCost run.population tick ≤
        clockCost self.population tick := by
    have hSmall := hRun.2
    unfold clockCost
    split
    · omega
    · exact Nat.le_refl 0
  omega

/- Late looks at the clock empty the queue. -/
theorem length_queue_exec_le
    {limit : Duration}
    {ticks : List Tick}
    (hExec : self.exec ticks = some next)
    (hDue : self.DueAt limit) :
    next.sim.workerAddQueue.length ≤
      self.sim.workerAddQueue.length -
        ticks.countP (Tick.isLate limit) := by
  apply Machine.exec_le_sub_countP
    (fun run : Simulation R => run.sim.workerAddQueue.length)
    (Tick.isLate limit) ?_ ?_ ?_ hExec hDue
  · intro run tick after hRun hNext
    exact dueAt_step hRun (step_sound hNext)
  · intro run tick after hRun hNext hLate
    have hLess := length_queue_step hRun (step_sound hNext)
    rw [if_pos hLate] at hLess
    exact hLess
  · intro run tick after hRun hNext hEarly
    have hLess := length_queue_step hRun (step_sound hNext)
    rw [if_neg hEarly] at hLess
    exact hLess

/-
  In every run of a prepared simulator, whatever the threads
  do, the loop goes on and the workers join.
-/
theorem proceeds_of_prepared
    (newInsecureRandom : R → PeerId × R)
    (hasher : RandomState SocketAddr WorkerHandle)
    (rng : R)
    (calls : List WorkerSim.Call)
    {sim : WorkerSim R}
    (hSim :
      (WorkerSim.new hasher rng).prepare newInsecureRandom
        calls = .ok sim)
    {ticks : List Tick}
    {final : Simulation R}
    (hExec : (start sim).exec ticks = some final) :
    Proceeds sim ticks final := by
  rcases WorkerSim.entrants_of_prepared hSim with
    ⟨entrants, hEmpty, hQueue⟩
  have hNobody : sim.workers.entries = [] := by
    rw [WorkerSim.workers_prepare hSim]
    rfl
  have hLength :
      (start sim).sim.workerAddQueue.length =
        sim.workerAddQueue.length :=
    (List.perm_insertionSort _ _).length_eq
  have hPopulation :
      (start sim).population = sim.workerAddQueue.length := by
    unfold population
    rw [hLength]
    change sim.workers.entries.length + _ = _
    rw [hNobody]
    exact Nat.zero_add _
  have hLoad := load_start_le hNobody hQueue
  have hTicks :=
    length_ticks_le hExec (courteous_start hEmpty hQueue)
  rw [hPopulation] at hTicks
  have hJoining : ∀ limit,
      (∀ entry ∈ sim.workerAddQueue, entry.2.2 ≤ limit) →
        final.sim.workerAddQueue.length ≤
          sim.workerAddQueue.length -
            ticks.countP (Tick.isLate limit) := by
    intro limit hLimit
    rw [← hLength]
    apply length_queue_exec_le hExec
    intro entry hEntry
    apply hLimit entry
    exact (List.mem_insertionSort _).mp hEntry
  refine ⟨final.exists_step_of_loop, ?_, hJoining, ?_⟩
  · omega
  · intro limit hLimit hAllLate hLong
    have hClocks :
        ticks.countP Tick.isClock ≤
          ticks.countP (Tick.isLate limit) :=
      List.countP_mono_left hAllLate
    have hEnough :
        sim.workerAddQueue.length ≤
          ticks.countP Tick.isClock := by
      have hProduct :
          (sim.workerAddQueue.length + 3) *
                sim.workerAddQueue.length ≤
            (sim.workerAddQueue.length + 3) *
              ticks.countP Tick.isClock := by
        omega
      exact
        Nat.le_of_mul_le_mul_left hProduct (Nat.succ_pos _)
    have hLeft := hJoining limit hLimit
    apply List.eq_nil_of_length_eq_zero
    omega

theorem proceeds_of_prepared_heckin :
    ∃ (sim : WorkerSim Nat) (final : Simulation Nat),
      (start sim).exec heckinTicks = some final ∧
        Proceeds sim heckinTicks final := by
  rcases exists_heckin_run with
    ⟨sim, final, hSim, _, _, _, hExec, _⟩
  exact
    ⟨sim, final, hExec,
      proceeds_of_prepared nextPeerId _ 0 _ hSim hExec⟩

end Simulation

end WorldDat
