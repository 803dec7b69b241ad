import WorldDat.Machine.DelayQueue
import WorldDat.Sim.Step

/-
  How queued workers join the simulated network.

  `run` sorts the queue once, longest delay first, and then
  looks at its end in every iteration.  That makes it an
  orderly queue of the workers that were created, whatever
  the clock reads and whatever the threads do meanwhile.

  Main declarations:
    * `Seat` and `Simulation.seats`
    * `Simulation.Joining` and `Simulation.joining_step`
    * `Simulation.JoinsInOrder`
    * `WorkerSim.prepare`
    * `Simulation.joins_in_order`
-/

------------------------------------------------------------
-- Seats
------------------------------------------------------------

namespace WorldDat

open Rust

/- A worker to be added, apart from what it is doing. -/
structure Seat where
  address : SocketAddr
  peerId : PeerId
  delay : Duration
deriving DecidableEq

def QueuedWorker.seat (entry : QueuedWorker) : Seat where
  address := entry.1
  peerId := entry.2.1.peerId
  delay := entry.2.2

/- The workers that wait to be added. -/
def seats (queue : List QueuedWorker) : List Seat :=
  queue.map QueuedWorker.seat

theorem map_address_seats (queue : List QueuedWorker) :
    (seats queue).map Seat.address =
      queue.map Prod.fst := by
  unfold seats
  rw [List.map_map]
  rfl

/- Working does not change who a worker is. -/
theorem WorkerHandle.peerId_work
    {self next : WorkerHandle}
    (hWork : self.work = some next) :
    next.peerId = self.peerId := by
  rcases work_cases hWork with
    ⟨message, rest, _, hNext⟩ |
      ⟨source, message, rest, _, _, hNext⟩
  · rw [hNext]
  · rw [hNext]

/- The queue that `run` starts with is sorted. -/
theorem WorkerSim.pairwise_sortQueue
    (queue : List QueuedWorker) :
    (WorkerSim.sortQueue queue).Pairwise
      fun first second => second.2.2 ≤ first.2.2 := by
  have hTotal : Std.Total
      fun first second : QueuedWorker =>
        second.2.2 ≤ first.2.2 :=
    ⟨fun first second => Nat.le_total _ _⟩
  have hTrans : IsTrans QueuedWorker
      fun first second => second.2.2 ≤ first.2.2 :=
    ⟨fun _ _ _ hFirst hSecond =>
      Nat.le_trans hSecond hFirst⟩
  exact List.pairwise_insertionSort _ queue

end WorldDat

------------------------------------------------------------
-- Joining Workers
------------------------------------------------------------

namespace WorldDat

open Rust

namespace Simulation

variable {R : Type}

/- The id of the worker in the network at an address. -/
def idAt
    (self : Simulation R)
    (addr : SocketAddr) : Option PeerId :=
  (self.sim.workers.get addr).map WorkerHandle.peerId

/-
  The workers of the network have been taken from an orderly
  queue, and those that wait are still in it.
-/
structure Joining
    (items : List Seat)
    (ticks : List Tick)
    (joined : List Seat)
    (run : Simulation R) : Prop where
  orderly :
    DelayQueue.Orderly Seat.delay
      (fun elapsed => .clock elapsed ∈ ticks)
      items joined (seats run.sim.workerAddQueue)
  idAt_iff : ∀ addr id,
    run.idAt addr = some id ↔
      ∃ seat ∈ joined, seat.address = addr ∧
        seat.peerId = id

variable {items joined : List Seat}
variable {ticks : List Tick}
variable {self next : Simulation R}

/- Nothing changes unless the workers or the queue do. -/
theorem Joining.congr
    (hJoining : self.Joining items ticks joined)
    (hSeats :
      seats next.sim.workerAddQueue =
        seats self.sim.workerAddQueue)
    (hIds : ∀ addr, next.idAt addr = self.idAt addr) :
    next.Joining items ticks joined where
  orderly := by
    rw [hSeats]
    exact hJoining.orderly
  idAt_iff := by
    intro addr id
    rw [hIds]
    exact hJoining.idAt_iff addr id

/- Replacing a worker does not change the ids. -/
theorem idAt_of_insert
    {place : SocketAddr}
    {old new : WorkerHandle}
    (hOld : self.sim.workers.get place = some old)
    (hId : new.peerId = old.peerId)
    (hWorkers :
      next.sim.workers = self.sim.workers.insert place new)
    (addr : SocketAddr) :
    next.idAt addr = self.idAt addr := by
  unfold idAt
  rw [hWorkers, HashMap.get_insert]
  by_cases hAddr : addr = place
  · rw [if_pos hAddr, hAddr, hOld, Option.map_some,
      Option.map_some, hId]
  · rw [if_neg hAddr]

/- A worker that joins takes the place that it waited for. -/
theorem Joining.add
    (hJoining : self.Joining items ticks joined)
    (hDistinct : (items.map Seat.address).Nodup)
    {front : List QueuedWorker}
    {addr : SocketAddr}
    {worker : WorkerHandle}
    {dur elapsed : Duration}
    (hQueue :
      self.sim.workerAddQueue =
        front ++ [(addr, worker, dur)])
    (hTick : .clock elapsed ∈ ticks)
    (hDue : dur < elapsed)
    (hNextQueue : next.sim.workerAddQueue = front)
    (hWorkers :
      next.sim.workers =
        self.sim.workers.insert addr worker) :
    next.Joining items ticks
      (joined ++ [QueuedWorker.seat (addr, worker, dur)]) := by
  have hOrderly := hJoining.orderly
  have hSeats :
      seats self.sim.workerAddQueue =
        seats front ++
          [QueuedWorker.seat (addr, worker, dur)] := by
    rw [hQueue]
    exact List.map_append
  rw [hSeats] at hOrderly
  constructor
  case orderly =>
    rw [hNextQueue]
    exact hOrderly.take hTick hDue
  case idAt_iff =>
    -- nobody has joined at the address before
    have hFree : ∀ seat ∈ joined, seat.address ≠ addr := by
      intro seat hSeat hSame
      have hNodup := hOrderly.nodup hDistinct
      rw [List.map_append, List.nodup_append] at hNodup
      apply hNodup.2.2 seat.address
        (List.mem_map_of_mem hSeat) addr ?_ hSame
      apply List.mem_append_right
      exact List.mem_cons_self
    intro place id
    have hOld := hJoining.idAt_iff place id
    unfold idAt at hOld ⊢
    rw [hWorkers, HashMap.get_insert]
    by_cases hPlace : place = addr
    · rw [if_pos hPlace, Option.map_some,
        Option.some.injEq]
      constructor
      · intro hId
        refine
          ⟨QueuedWorker.seat (addr, worker, dur), ?_,
            hPlace.symm, hId⟩
        apply List.mem_append_right
        exact List.mem_cons_self
      · intro hSeat
        rcases hSeat with ⟨seat, hSeat, hAddr, hId⟩
        rcases List.mem_append.mp hSeat with hJoined | hNew
        · exact
            absurd (hAddr.trans hPlace) (hFree seat hJoined)
        · rw [List.mem_singleton.mp hNew] at hId
          exact hId
    · rw [if_neg hPlace, hOld]
      constructor
      · intro hSeat
        rcases hSeat with ⟨seat, hSeat, hHere⟩
        exact ⟨seat, List.mem_append_left _ hSeat, hHere⟩
      · intro hSeat
        rcases hSeat with ⟨seat, hSeat, hAddr, hId⟩
        rcases List.mem_append.mp hSeat with hJoined | hNew
        · exact ⟨seat, hJoined, hAddr, hId⟩
        · rw [List.mem_singleton.mp hNew] at hAddr
          exact absurd hAddr.symm hPlace

/- Every tick keeps the queue orderly. -/
theorem joining_step
    (hDistinct : (items.map Seat.address).Nodup)
    {tick : Tick}
    (hTick : tick ∈ ticks)
    (hJoining : self.Joining items ticks joined)
    (hStep : Step self tick next) :
    ∃ joined, next.Joining items ticks joined := by
  cases hStep with
  | add elapsed dur front addr worker sim hPhase hQueue hDue
      hSim =>
      refine
        ⟨_, hJoining.add hDistinct hQueue hTick hDue ?_ ?_⟩
      · rw [hSim]
        rfl
      · rw [hSim]
        rfl
  | wait => exact ⟨joined, hJoining.congr rfl fun _ => rfl⟩
  | collected =>
      exact ⟨joined, hJoining.congr rfl fun _ => rfl⟩
  | skip => exact ⟨joined, hJoining.congr rfl fun _ => rfl⟩
  | routed => exact ⟨joined, hJoining.congr rfl fun _ => rfl⟩
  | ignore => exact ⟨joined, hJoining.congr rfl fun _ => rfl⟩
  | collect src dst msg todo worker rest hPhase hWorker =>
      refine ⟨joined, hJoining.congr rfl ?_⟩
      apply idAt_of_insert hWorker ?_ rfl
      rfl
  | route src dest msg rest worker hPhase hMessages
      hWorker =>
      refine ⟨joined, hJoining.congr rfl ?_⟩
      apply idAt_of_insert hWorker ?_ rfl
      rfl
  | work addr worker new hWorker hWork =>
      refine ⟨joined, hJoining.congr rfl ?_⟩
      exact
        idAt_of_insert hWorker
          (WorkerHandle.peerId_work hWork) rfl
  | workQueued position front back addr worker new dur
      hQueue hWork =>
      refine ⟨joined, hJoining.congr ?_ fun _ => rfl⟩
      dsimp only
      rw [hQueue]
      unfold seats QueuedWorker.seat
      rw [List.map_append, List.map_cons, List.map_append,
        List.map_cons, WorkerHandle.peerId_work hWork]

/- Every run keeps the queue orderly. -/
theorem joining_exec
    (hDistinct : (items.map Seat.address).Nodup)
    (hJoining : self.Joining items ticks joined)
    (hExec : self.exec ticks = some next) :
    ∃ joined, next.Joining items ticks joined := by
  apply Machine.exec_invariant_of_mem ?_ hExec
    ⟨joined, hJoining⟩
  intro run after tick hTick hRun hStep
  rcases hRun with ⟨before, hBefore⟩
  exact
    joining_step hDistinct hTick hBefore (step_sound hStep)

end Simulation

end WorldDat

------------------------------------------------------------
-- Joining In Order
------------------------------------------------------------

namespace WorldDat

open Rust

namespace Simulation

variable {R : Type}

/- A worker that was queued is in the network. -/
def Joined
    (self : Simulation R)
    (seat : Seat) : Prop :=
  self.idAt seat.address = some seat.peerId

/- A worker that was queued still waits. -/
def Waits
    (self : Simulation R)
    (seat : Seat) : Prop :=
  seat ∈ seats self.sim.workerAddQueue

/-
  Each of the workers that were queued is either in the
  network or still waits, at one place and with nobody else
  there.  Those that joined were due at some reading of the
  clock, and before all that still wait.
-/
structure JoinsInOrder
    (items : List Seat)
    (ticks : List Tick)
    (run : Simulation R) : Prop where
  exactly_one : ∀ seat ∈ items,
    Xor (run.Joined seat) (run.Waits seat)
  once : (run.sim.workerAddQueue.map Prod.fst).Nodup
  nobody_else : ∀ addr worker, run.Hosts addr worker →
    ∃ seat ∈ items, seat.address = addr ∧
      seat.peerId = worker.peerId
  due : ∀ seat ∈ items, run.Joined seat →
    ∃ elapsed, .clock elapsed ∈ ticks ∧
      seat.delay < elapsed
  ordered : ∀ seat ∈ items, ∀ later ∈ items,
    run.Joined seat → run.Waits later →
      seat.delay ≤ later.delay

variable {items joined : List Seat}
variable {ticks : List Tick}
variable {run : Simulation R}

/- A worker is in the network when it has been taken. -/
theorem Joining.joined_iff
    (hJoining : run.Joining items ticks joined)
    (hDistinct : (items.map Seat.address).Nodup)
    {seat : Seat}
    (hSeat : seat ∈ items) :
    run.Joined seat ↔ seat ∈ joined := by
  unfold Joined
  rw [hJoining.idAt_iff]
  constructor
  · intro hTaken
    rcases hTaken with ⟨taken, hTaken, hAddr, _⟩
    have hItem : taken ∈ items :=
      (hJoining.orderly.mem_iff taken).mpr (Or.inl hTaken)
    have hSame : taken = seat :=
      List.inj_on_of_nodup_map hDistinct hItem hSeat hAddr
    rw [← hSame]
    exact hTaken
  · intro hTaken
    exact ⟨seat, hTaken, rfl, rfl⟩

/- No worker that waits has been taken. -/
theorem Joining.not_waits
    (hJoining : run.Joining items ticks joined)
    (hDistinct : (items.map Seat.address).Nodup)
    {seat : Seat}
    (hTaken : seat ∈ joined) :
    ¬ run.Waits seat := by
  intro hWaits
  have hNodup := hJoining.orderly.nodup hDistinct
  rw [List.nodup_append] at hNodup
  exact
    hNodup.2.2 seat.address (List.mem_map_of_mem hTaken)
      seat.address (List.mem_map_of_mem hWaits) rfl

/- Workers taken from an orderly queue join in order. -/
theorem Joining.joinsInOrder
    (hJoining : run.Joining items ticks joined)
    (hDistinct : (items.map Seat.address).Nodup) :
    run.JoinsInOrder items ticks := by
  have hItems := hJoining.orderly.mem_iff
  constructor
  case exactly_one =>
    intro seat hSeat
    have hJoined := hJoining.joined_iff hDistinct hSeat
    rcases (hItems seat).mp hSeat with hTaken | hWaits
    · exact
        Or.inl
          ⟨hJoined.mpr hTaken,
            hJoining.not_waits hDistinct hTaken⟩
    · refine Or.inr ⟨hWaits, ?_⟩
      intro hTaken
      exact
        hJoining.not_waits hDistinct (hJoined.mp hTaken)
          hWaits
  case once =>
    have hNodup := hJoining.orderly.nodup hDistinct
    rw [List.nodup_append, map_address_seats] at hNodup
    exact hNodup.2.1
  case nobody_else =>
    intro addr worker hHosts
    rcases hHosts with hGet | ⟨dur, hQueued⟩
    · have hId : run.idAt addr = some worker.peerId := by
        unfold idAt
        rw [hGet]
        rfl
      rcases (hJoining.idAt_iff _ _).mp hId with
        ⟨seat, hTaken, hHere⟩
      exact ⟨seat, (hItems seat).mpr (Or.inl hTaken), hHere⟩
    · have hWaits :
          QueuedWorker.seat (addr, worker, dur) ∈
            seats run.sim.workerAddQueue :=
        List.mem_map_of_mem hQueued
      exact ⟨_, (hItems _).mpr (Or.inr hWaits), rfl, rfl⟩
  case due =>
    intro seat hSeat hJoined
    rw [hJoining.joined_iff hDistinct hSeat] at hJoined
    exact hJoining.orderly.due seat hJoined
  case ordered =>
    intro seat hSeat later _ hJoined hWaits
    rw [hJoining.joined_iff hDistinct hSeat] at hJoined
    exact hJoining.orderly.ordered seat hJoined later hWaits

/- Before the first tick nobody has joined. -/
theorem joining_start
    {sim : WorkerSim R}
    (hEmpty : ∀ addr, sim.workers.get addr = none)
    (ticks : List Tick) :
    (start sim).Joining (seats sim.workerAddQueue) ticks
      [] where
  orderly := by
    have hSort :
        (WorkerSim.sortQueue sim.workerAddQueue).Perm
          sim.workerAddQueue :=
      List.perm_insertionSort _ _
    have hSorted :=
      WorkerSim.pairwise_sortQueue sim.workerAddQueue
    apply DelayQueue.orderly_of_sorted
    · exact hSort.map QueuedWorker.seat
    · unfold seats
      rw [List.pairwise_map]
      exact hSorted
  idAt_iff := by
    intro addr id
    have hNobody : (start sim).idAt addr = none := by
      unfold idAt
      change (sim.workers.get addr).map _ = none
      rw [hEmpty]
      rfl
    rw [hNobody]
    simp

end Simulation

end WorldDat

------------------------------------------------------------
-- Preparing A Simulator
------------------------------------------------------------

namespace WorldDat

open Rust

namespace WorkerSim

variable {R : Type}

/- The calls that prepare a simulator for `run`. -/
inductive Call where
| setBootstrap (bootstrap : SocketAddr)
| addNewWorker (newcomer : Newcomer)

def prepare
    (newInsecureRandom : R → PeerId × R)
    (self : WorkerSim R) :
    List Call → Except Panic (WorkerSim R)
| [] => return self
| .setBootstrap bootstrap :: rest =>
    (self.setBootstrap bootstrap).prepare newInsecureRandom
      rest
| .addNewWorker newcomer :: rest => do
    let self ← self.addNewWorker newInsecureRandom newcomer
    self.prepare newInsecureRandom rest

/- Nobody is in the network before it runs. -/
theorem workers_prepare
    {newInsecureRandom : R → PeerId × R}
    {self sim : WorkerSim R}
    {calls : List Call}
    (hSim : self.prepare newInsecureRandom calls = .ok sim) :
    sim.workers = self.workers := by
  induction calls generalizing self with
  | nil =>
      cases hSim
      rfl
  | cons call calls ih =>
      cases call with
      | setBootstrap bootstrap =>
          rw [prepare] at hSim
          rw [ih hSim]
          rfl
      | addNewWorker newcomer =>
          rw [prepare, addNewWorker_eq_ok] at hSim
          change
            (self.enqueue newInsecureRandom newcomer).prepare
              newInsecureRandom calls = .ok sim at hSim
          rw [ih hSim]
          rfl

end WorkerSim

namespace Simulation

variable {R : Type}

/-
  Workers created by `add_new_worker` at distinct addresses
  join in order, in every run of the simulator.
-/
theorem joins_in_order
    (newInsecureRandom : R → PeerId × R)
    (hasher : RandomState SocketAddr WorkerHandle)
    (rng : R)
    (calls : List WorkerSim.Call)
    {sim : WorkerSim R}
    (hSim :
      (WorkerSim.new hasher rng).prepare newInsecureRandom
        calls = .ok sim)
    (hDistinct : (sim.workerAddQueue.map Prod.fst).Nodup)
    {ticks : List Tick}
    {final : Simulation R}
    (hExec : (start sim).exec ticks = some final) :
    final.JoinsInOrder (seats sim.workerAddQueue) ticks := by
  have hEmpty : ∀ addr, sim.workers.get addr = none := by
    intro addr
    rw [WorkerSim.workers_prepare hSim]
    exact HashMap.get_new hasher addr
  have hSeats :
      ((seats sim.workerAddQueue).map
        Seat.address).Nodup := by
    rw [map_address_seats]
    exact hDistinct
  rcases joining_exec hSeats (joining_start hEmpty ticks)
      hExec with
    ⟨joined, hJoining⟩
  exact hJoining.joinsInOrder hSeats

/- Two workers, the second of which is due first. -/
def latecomers : List WorkerSim.Call :=
  [ .addNewWorker
      { address := .v4 0x0A000001 4433
        delay := 5
        hasher :=
          RandomState.insertionOrder PeerId SocketAddr }
  , .setBootstrap (.v4 0x0A000001 4433)
  , .addNewWorker
      { address := .v4 0x0A000002 4433
        delay := 3
        hasher :=
          RandomState.insertionOrder PeerId SocketAddr } ]

/- Draw the next identifier. -/
def nextPeerId (rng : Nat) : PeerId × Nat :=
  (PeerId.repeating (UInt8.ofNat rng), rng + 1)

/- The clock reads 4, then 6 an iteration later. -/
def latecomerTicks : List Tick :=
  [.clock 4] ++ List.replicate 3 .advance ++ [.clock 6]

theorem joins_in_order_latecomers :
    ∃ sim final,
      (WorkerSim.new
          (RandomState.insertionOrder SocketAddr WorkerHandle)
          0).prepare nextPeerId latecomers = .ok sim ∧
        (start sim).exec latecomerTicks = some final ∧
        final.JoinsInOrder (seats sim.workerAddQueue)
          latecomerTicks := by
  have hRuns :
      ((WorkerSim.new
          (RandomState.insertionOrder SocketAddr WorkerHandle)
          0).prepare nextPeerId latecomers).toOption.any
        (fun sim =>
          decide (sim.workerAddQueue.map Prod.fst).Nodup &&
            ((start sim).exec latecomerTicks).isSome) := by
    decide +kernel
  cases hSim :
      (WorkerSim.new
        (RandomState.insertionOrder SocketAddr WorkerHandle)
        0).prepare nextPeerId latecomers with
  | error panic =>
      rw [hSim] at hRuns
      cases hRuns
  | ok sim =>
      rw [hSim] at hRuns
      simp only [Except.toOption, Option.any_some,
        Bool.and_eq_true, decide_eq_true_eq] at hRuns
      rcases hRuns with ⟨hDistinct, hExec⟩
      rcases Option.isSome_iff_exists.mp hExec with
        ⟨final, hFinal⟩
      exact
        ⟨sim, final, rfl, hFinal,
          joins_in_order nextPeerId _ 0 latecomers hSim
            hDistinct hFinal⟩

end Simulation

end WorldDat
