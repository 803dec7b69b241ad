import Mathlib.Data.List.Sort
import WorldDat.Machine.Execution
import WorldDat.Worker.Basic

/-
  The simulator of a network of workers (`sim.rs`), with the
  threads of the workers and the channels between them.

  `WorkerSim.run` never returns; `Simulation.step` takes it
  one operation on a channel at a time, so that the threads
  may do something in between.  A thread handles a message
  and then sends its replies one by one.

  A simulation keeps a record of what has been added, sent
  and forwarded.  No step depends on it.

  Main declarations:
    * `WorkerHandle` and `WorkerSim`
    * `WorkerSim.addNewWorker`
    * `WorkerSim.addNewWorkers_eq_ok`
    * `Simulation.step` and `Simulation.exec`
-/

------------------------------------------------------------
-- Worker Handles
------------------------------------------------------------

namespace WorldDat

open Rust

/-
  A running worker: its thread and the two channels between
  the thread and the handle.  `unsent` holds the replies that
  the thread has not sent yet, and `sent` those that it has.
-/
structure WorkerHandle where
  peerId : PeerId
  control : List Incoming
  messages : List Outgoing
  thread : WorkerState
  unsent : List Outgoing
  sent : List Outgoing

namespace WorkerHandle

/- Start a worker in its own thread. -/
def start
    (hasher : PeerHasher)
    (peerId : PeerId)
    (addr : SocketAddr) : Except Panic WorkerHandle := do
  let thread ← WorkerState.start hasher peerId addr
  return {
    peerId
    control := []
    messages := []
    thread
    unsent := []
    sent := [] }

/- `WorkerMessageHandle::message`. -/
def message
    (self : WorkerHandle)
    (source : SocketAddr)
    (message : Message) : WorkerHandle :=
  { self with
    control := self.control ++ [(source, message)] }

/- Pull a message that the worker wants sent off the queue. -/
def recvMessage
    (self : WorkerHandle) :
    Option (Outgoing × WorkerHandle) :=
  match self.messages with
  | [] => none
  | message :: rest =>
      some (message, { self with messages := rest })

/-
  The thread sends a reply, or handles the next message when
  it has none to send.
-/
def work (self : WorkerHandle) : Option WorkerHandle :=
  match self.unsent with
  | message :: rest =>
      some
        { self with
          unsent := rest
          messages := self.messages ++ [message]
          sent := self.sent ++ [message] }
  | [] =>
      match self.control with
      | [] => none
      | (source, message) :: rest =>
          match self.thread.handle source message with
          | .error _ => none
          | .ok (thread, outgoing) =>
              some
                { self with
                  control := rest
                  thread
                  unsent := outgoing }

/- A worker that has just been started. -/
def fresh
    (hasher : PeerHasher)
    (peerId : PeerId)
    (addr : SocketAddr) : WorkerHandle where
  peerId := peerId
  control := []
  messages := []
  thread := WorkerState.fresh hasher peerId addr
  unsent := []
  sent := []

/- Starting a worker never panics. -/
theorem start_eq_ok
    (hasher : PeerHasher)
    (peerId : PeerId)
    (addr : SocketAddr) :
    start hasher peerId addr =
      .ok (fresh hasher peerId addr) := by
  unfold start
  rw [WorkerState.start_eq_ok]
  rfl

/- The two things that a thread can do. -/
theorem work_cases
    {self next : WorkerHandle}
    (hWork : self.work = some next) :
    (∃ message rest,
      self.unsent = message :: rest ∧
        next =
          { self with
            unsent := rest
            messages := self.messages ++ [message]
            sent := self.sent ++ [message] }) ∨
      ∃ source message rest,
        self.unsent = [] ∧
          self.control = (source, message) :: rest ∧
            next =
              { self with
                control := rest
                thread := self.thread.after (source, message)
                unsent :=
                  self.thread.replies (source, message) } := by
  unfold work at hWork
  cases hUnsent : self.unsent with
  | cons message rest =>
      rw [hUnsent] at hWork
      apply Or.inl
      exact ⟨message, rest, rfl, (Option.some.inj hWork).symm⟩
  | nil =>
      rw [hUnsent] at hWork
      cases hControl : self.control with
      | nil =>
          rw [hControl] at hWork
          cases hWork
      | cons first rest =>
          rcases first with ⟨source, message⟩
          rw [hControl] at hWork
          simp only [WorkerState.handle_eq_ok] at hWork
          exact
            Or.inr
              ⟨source, message, rest, rfl, rfl,
                (Option.some.inj hWork).symm⟩

/- Receiving takes the first message out of the channel. -/
theorem recvMessage_cases
    {self next : WorkerHandle}
    {message : Outgoing}
    (hRecv : self.recvMessage = some (message, next)) :
    ∃ rest,
      self.messages = message :: rest ∧
        next = { self with messages := rest } := by
  unfold recvMessage at hRecv
  cases hMessages : self.messages with
  | nil =>
      rw [hMessages] at hRecv
      cases hRecv
  | cons first rest =>
      rw [hMessages, Option.some.injEq,
        Prod.mk.injEq] at hRecv
      rw [hRecv.1]
      exact ⟨rest, rfl, hRecv.2.symm⟩

/- Nothing is received from an empty channel. -/
theorem messages_eq_nil
    {self : WorkerHandle}
    (hRecv : self.recvMessage = none) :
    self.messages = [] := by
  unfold recvMessage at hRecv
  cases hMessages : self.messages with
  | nil => rfl
  | cons first rest =>
      rw [hMessages] at hRecv
      cases hRecv

end WorkerHandle

end WorldDat

------------------------------------------------------------
-- The Simulator
------------------------------------------------------------

namespace WorldDat

open Rust

/- `std::time::Duration`, in nanoseconds. -/
abbrev Duration := Nat

/- An address, the worker to add there, and the delay. -/
abbrev QueuedWorker := SocketAddr × WorkerHandle × Duration

/- `R` is the state of the random number generator. -/
structure WorkerSim (R : Type) where
  workers : HashMap SocketAddr WorkerHandle
  bootstrap : Option SocketAddr
  workerAddQueue : List QueuedWorker
  rng : R

/- What a call to `add_new_worker` is given, and the hasher. -/
structure Newcomer where
  address : SocketAddr
  delay : Duration
  hasher : PeerHasher

namespace WorkerSim

variable {R : Type}

def new
    (hasher : RandomState SocketAddr WorkerHandle)
    (rng : R) : WorkerSim R where
  workers := HashMap.new hasher
  bootstrap := none
  workerAddQueue := []
  rng := rng

/- Set which address new workers attempt to connect to. -/
def setBootstrap
    (self : WorkerSim R)
    (bootstrap : SocketAddr) : WorkerSim R :=
  { self with bootstrap := some bootstrap }

/- Add an already-created worker with the given address. -/
def addWorker
    (self : WorkerSim R)
    (addr : SocketAddr)
    (worker : WorkerHandle) : WorkerSim R :=
  { self with workers := self.workers.insert addr worker }

/- The start-up messages of a new worker. -/
def greet
    (bootstrap : Option SocketAddr)
    (w : WorkerHandle)
    (wId : PeerId) : WorkerHandle :=
  match bootstrap with
  | none => w
  | some bootstrap =>
      -- into the new worker's own control channel
      (w.message bootstrap (.ping wId)).message bootstrap
        (.findPeer wId)

/-
  Create a new worker with a random id and queue it.
  `newInsecureRandom` draws the id.
-/
def addNewWorker
    (newInsecureRandom : R → PeerId × R)
    (self : WorkerSim R)
    (newcomer : Newcomer) : Except Panic (WorkerSim R) := do
  let (wId, rng) := newInsecureRandom self.rng
  let w ←
    WorkerHandle.start newcomer.hasher wId newcomer.address
  let w := greet self.bootstrap w wId
  return { self with
    workerAddQueue :=
      self.workerAddQueue ++
        [(newcomer.address, w, newcomer.delay)]
    rng }

/- Add new workers one after the other. -/
def addNewWorkers
    (newInsecureRandom : R → PeerId × R)
    (self : WorkerSim R) :
    List Newcomer → Except Panic (WorkerSim R)
| [] => return self
| newcomer :: rest => do
    let self ← self.addNewWorker newInsecureRandom newcomer
    self.addNewWorkers newInsecureRandom rest

/- A new worker as it waits to be added. -/
def queuedWorker
    (bootstrap : Option SocketAddr)
    (wId : PeerId)
    (newcomer : Newcomer) : QueuedWorker :=
  let w :=
    WorkerHandle.fresh newcomer.hasher wId newcomer.address
  (newcomer.address, greet bootstrap w wId, newcomer.delay)

/- The simulator after queueing a new worker. -/
def enqueue
    (newInsecureRandom : R → PeerId × R)
    (self : WorkerSim R)
    (newcomer : Newcomer) : WorkerSim R :=
  { self with
    workerAddQueue :=
      self.workerAddQueue ++
        [queuedWorker self.bootstrap
          (newInsecureRandom self.rng).1 newcomer]
    rng := (newInsecureRandom self.rng).2 }

/- Adding a new worker never panics. -/
theorem addNewWorker_eq_ok
    (newInsecureRandom : R → PeerId × R)
    (self : WorkerSim R)
    (newcomer : Newcomer) :
    self.addNewWorker newInsecureRandom newcomer =
      .ok (self.enqueue newInsecureRandom newcomer) := by
  unfold addNewWorker enqueue
  rcases newInsecureRandom self.rng with ⟨wId, rng⟩
  dsimp only
  rw [WorkerHandle.start_eq_ok]
  rfl

/- Adding new workers never panics. -/
theorem addNewWorkers_eq_ok
    (newInsecureRandom : R → PeerId × R)
    (self : WorkerSim R)
    (newcomers : List Newcomer) :
    self.addNewWorkers newInsecureRandom newcomers =
      .ok
        (newcomers.foldl (enqueue newInsecureRandom)
          self) := by
  induction newcomers generalizing self with
  | nil => rfl
  | cons newcomer rest ih =>
      rw [addNewWorkers, addNewWorker_eq_ok]
      exact ih (self.enqueue newInsecureRandom newcomer)

/- What waits to be added is what has been queued. -/
theorem foldl_enqueue
    (newInsecureRandom : R → PeerId × R)
    (self : WorkerSim R)
    (newcomers : List Newcomer) :
    ∃ ids rng,
      ids.length = newcomers.length ∧
        newcomers.foldl (enqueue newInsecureRandom) self =
          { self with
            workerAddQueue :=
              self.workerAddQueue ++
                List.zipWith (queuedWorker self.bootstrap)
                  ids newcomers
            rng } := by
  induction newcomers generalizing self with
  | nil =>
      refine ⟨[], self.rng, rfl, ?_⟩
      simp
  | cons newcomer rest ih =>
      rcases ih (self.enqueue newInsecureRandom newcomer) with
        ⟨ids, rng, hLength, hRest⟩
      refine
        ⟨(newInsecureRandom self.rng).1 :: ids, rng, ?_, ?_⟩
      · rw [List.length_cons, List.length_cons, hLength]
      · rw [List.foldl_cons, hRest]
        simp [enqueue]

/-
  `sort_by` with the comparison of `run`: longest delay
  first.  Like `sort_by`, it keeps the order of equals.
-/
def sortQueue
    (queue : List QueuedWorker) : List QueuedWorker :=
  queue.insertionSort fun first second =>
    second.2.2 ≤ first.2.2

end WorkerSim

end WorldDat

------------------------------------------------------------
-- The Loop Of The Simulator
------------------------------------------------------------

namespace WorldDat

open Rust

/- Where the loop of `run` is. -/
inductive Phase where
| adding
| collecting (todo : List SocketAddr)
| routing
deriving DecidableEq

/- A message on its way from one address to another. -/
abbrev Envelope := SocketAddr × SocketAddr × Message

/- A message that was routed, and whether anybody was there. -/
structure Forwarded where
  envelope : Envelope
  delivered : Bool
deriving DecidableEq

/- The simulator while it runs. -/
structure Simulation (R : Type) where
  sim : WorkerSim R
  phase : Phase
  messages : List Envelope
  added : List (SocketAddr × Duration)
  forwarded : List Forwarded

/-
  What happens next: the loop looks at the clock, the loop
  goes on, or a worker's thread does something.
-/
inductive Tick where
| clock (elapsed : Duration)
| advance
| work (addr : SocketAddr)
| workQueued (position : Nat)
deriving DecidableEq

namespace Simulation

variable {R : Type}

/- `run`, up to its loop. -/
def start (sim : WorkerSim R) : Simulation R where
  sim :=
    { sim with
      workerAddQueue :=
        WorkerSim.sortQueue sim.workerAddQueue }
  phase := .adding
  messages := []
  added := []
  forwarded := []

/- The addresses in the order in which `run` visits them. -/
def visits (sim : WorkerSim R) : List SocketAddr :=
  sim.workers.iter.map Prod.fst

/- Add a new worker, if one needs adding. -/
def addDue
    (self : Simulation R)
    (elapsed : Duration) : Simulation R :=
  match self.sim.workerAddQueue.getLast? with
  | none => { self with phase := .collecting (visits self.sim) }
  | some (addr, worker, dur) =>
      if dur < elapsed then
        let sim :=
          ({ self.sim with
              workerAddQueue :=
                self.sim.workerAddQueue.dropLast } :
            WorkerSim R).addWorker addr worker
        { self with
          sim
          phase := .collecting (visits sim)
          added := self.added ++ [(addr, dur)] }
      else
        -- popped and pushed back
        { self with phase := .collecting (visits self.sim) }

/- Replace the handle of a worker in the network. -/
def setWorker
    (self : Simulation R)
    (addr : SocketAddr)
    (worker : WorkerHandle) : Simulation R :=
  { self with sim := self.sim.addWorker addr worker }

/- Collect a message of the worker whose turn it is. -/
def collect
    (self : Simulation R)
    (src : SocketAddr)
    (todo : List SocketAddr) : Simulation R :=
  match self.sim.workers.get src with
  | none => { self with phase := .collecting todo }
  | some worker =>
      match worker.recvMessage with
      | none => { self with phase := .collecting todo }
      | some ((dst, msg), worker) =>
          { self.setWorker src worker with
            messages := self.messages ++ [(src, dst, msg)] }

/- Route a message; unknown addresses get ignored. -/
def route
    (self : Simulation R)
    (envelope : Envelope)
    (rest : List Envelope) : Simulation R :=
  let (src, dest, msg) := envelope
  match self.sim.workers.get dest with
  | some worker =>
      { self.setWorker dest (worker.message src msg) with
        messages := rest
        forwarded :=
          self.forwarded ++ [{ envelope, delivered := true }] }
  | none =>
      { self with
        messages := rest
        forwarded :=
          self.forwarded ++
            [{ envelope, delivered := false }] }

/- The loop goes on with its present phase. -/
def advance
    (self : Simulation R) : Option (Simulation R) :=
  match self.phase with
  | .adding => none
  | .collecting [] => some { self with phase := .routing }
  | .collecting (src :: todo) =>
      some (self.collect src todo)
  | .routing =>
      match self.messages with
      | [] => some { self with phase := .adding }
      | envelope :: rest => some (self.route envelope rest)

/- A worker in the network does something. -/
def work
    (self : Simulation R)
    (addr : SocketAddr) : Option (Simulation R) := do
  let worker ← self.sim.workers.get addr
  let worker ← worker.work
  return self.setWorker addr worker

/- A worker that waits to be added does something. -/
def workQueued
    (self : Simulation R)
    (position : Nat) : Option (Simulation R) := do
  let (addr, worker, dur) ←
    self.sim.workerAddQueue[position]?
  let worker ← worker.work
  return { self with
    sim :=
      { self.sim with
        workerAddQueue :=
          self.sim.workerAddQueue.set position
            (addr, worker, dur) } }

/- What happens at a tick, if it is enabled. -/
def step
    (self : Simulation R) :
    Tick → Option (Simulation R)
| .clock elapsed =>
    match self.phase with
    | .adding => some (self.addDue elapsed)
    | .collecting _ => none
    | .routing => none
| .advance => self.advance
| .work addr => self.work addr
| .workQueued position => self.workQueued position

/- Run a simulation through a list of ticks. -/
def exec
    (self : Simulation R)
    (ticks : List Tick) : Option (Simulation R) :=
  Machine.exec step self ticks

end Simulation

end WorldDat
