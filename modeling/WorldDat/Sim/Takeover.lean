import WorldDat.Sim.Shutdown

/-
  Workers whose address is taken over.

  `add_worker` puts a worker into the map under its address
  and drops the handle that was there.  The thread behind
  that handle is not told: it goes on by itself with what it
  still has to do.

  Main declarations:
    * `Session.Abandoned` and `Session.abandoned_exec`
    * `Simulation.displaced`
    * `Simulation.TakenOver`
    * `Simulation.takeover_of_prepared`
-/

------------------------------------------------------------
-- Abandoned Sessions
------------------------------------------------------------

namespace WorldDat

/- The replies that a worker has not sent yet. -/
def WorkerHandle.owed (self : WorkerHandle) : List Outgoing :=
  self.unsent ++ self.thread.repliesTo self.control

namespace Session

variable {original : WorkerState}
variable {history : List Incoming}
variable {self next : Session}

/-
  A session whose handle has been dropped, which has sent
  some of the replies to its history.
-/
structure Forsaken
    (original : WorkerState)
    (history : List Incoming)
    (sent : List Outgoing)
    (session : Session) : Prop where
  leaving : Leaving original history session
  handle : session.handle = .dropped
  sent : session.sent = sent

variable {sent : List Outgoing}

/- Nobody but the thread can do anything. -/
theorem Forsaken.work_of_step
    (hForsaken : Forsaken original history sent self)
    {act : Act}
    (hStep : self.step act = some next) :
    self.work = some next := by
  have hHandle := hForsaken.handle
  have hClones : ¬ 0 < self.clones := by
    rw [hForsaken.leaving.clones]
    exact Nat.lt_irrefl 0
  cases step_sound hStep with
  | work _ hWork => exact hWork
  | controller hOwned =>
      rw [hHandle] at hOwned
      cases hOwned
  | clone hSome => exact absurd hSome hClones
  | dropClone hSome => exact absurd hSome hClones
  | accept source msg hSome => exact absurd hSome hClones
  | refuse source msg hSome => exact absurd hSome hClones
  | recvMessage hOwned =>
      rw [hHandle] at hOwned
      cases hOwned
  | quit hOwned =>
      rw [hHandle] at hOwned
      cases hOwned
  | quitFailed hOwned =>
      rw [hHandle] at hOwned
      cases hOwned
  | join exit hJoining =>
      rw [hHandle] at hJoining
      cases hJoining
  | joinFailed reason hJoining =>
      rw [hHandle] at hJoining
      cases hJoining
  | drop hOwned =>
      rw [hHandle] at hOwned
      cases hOwned

/- The thread works, but nothing is sent any more. -/
theorem Forsaken.work
    (hForsaken : Forsaken original history sent self)
    (hWork : self.work = some next) :
    Forsaken original history sent next where
  leaving := hForsaken.leaving.work hWork
  handle := (handle_work hWork).trans hForsaken.handle
  sent := by
    have hAlone :=
      alone_work hForsaken.leaving.life hForsaken.handle
    rw [hWork] at hAlone
    cases hAlone with
    | panics => exact hForsaken.sent
    | handles => exact hForsaken.sent
    | leaves => exact hForsaken.sent
    | ends => exact hForsaken.sent

/-
  Where a forsaken thread ends: it has handled everything
  that it got, or it panics on the first reply that it owes.
-/
def Resigns
    (history : List Incoming)
    (owed : List Outgoing)
    (session : Session) : Prop :=
  match owed with
  | [] =>
      session.thread = .ended .disconnected ∧
        session.handled = history
  | out :: _ => session.thread = .panicked (.sending out)

theorem Forsaken.resigns
    (hForsaken : Forsaken original history sent self)
    {owed : List Outgoing}
    (hOwed : original.repliesTo history = sent ++ owed)
    (hWork : self.work = none) :
    self.Resigns history owed := by
  rcases hForsaken.leaving.of_dropped hForsaken.handle
      hWork with
    ⟨hEnded, hHandled, hAll⟩ | ⟨out, hPanicked, hPrefix⟩
  · have hNone : owed = [] := by
      rw [hForsaken.sent, hOwed] at hAll
      exact List.self_eq_append_right.mp hAll
    rw [hNone]
    exact ⟨hEnded, hHandled⟩
  · rw [hForsaken.sent, hOwed,
      List.prefix_append_right_inj] at hPrefix
    rcases hPrefix with ⟨rest, hRest⟩
    rw [← hRest]
    exact hPanicked

/- All that the thread does brings it nearer to its end. -/
theorem forsaken_terminates
    {owed : List Outgoing}
    (hOwed : original.repliesTo history = sent ++ owed) :
    Machine.Terminates step (fun _ => True) backlog
      (Forsaken original history sent)
      (Resigns history owed) where
  keeps := by
    intro session act later hForsaken _ hStep
    exact hForsaken.work (hForsaken.work_of_step hStep)
  less := by
    intro session act later hForsaken _ hStep
    exact
      backlog_work hForsaken.leaving.life hForsaken.handle
        (hForsaken.work_of_step hStep)
  goal := by
    intro session hForsaken hStuck
    exact hForsaken.resigns hOwed (hStuck .work trivial)

/-
  What becomes of a session after its handle was dropped.  It
  sends nothing more, it comes to an end, and there it has
  panicked exactly if it still owed a reply.
-/
structure Abandoned
    (history : List Incoming)
    (sent owed : List Outgoing)
    (dropped : Session)
    (acts : List Act)
    (later : Session) : Prop where
  silent : later.sent = sent
  bounded : acts.length + later.backlog ≤ dropped.backlog
  finishes : ∃ more last, later.exec more = some last ∧
    Machine.Stuck step (fun _ => True) last
  ends : Machine.Stuck step (fun _ => True) later →
    later.Resigns history owed

theorem abandoned_exec
    {owed : List Outgoing}
    (hOwed : original.repliesTo history = sent ++ owed)
    (hForsaken : Forsaken original history sent self)
    {acts : List Act}
    (hExec : self.exec acts = some next) :
    Abandoned history sent owed self acts next := by
  have hTerminates := forsaken_terminates hOwed
  have hNext : Forsaken original history sent next :=
    Machine.exec_invariant
      (fun _ _ _ hBefore hStep =>
        hBefore.work (hBefore.work_of_step hStep))
      hExec hForsaken
  refine ⟨hNext.sent, ?_, ?_, ?_⟩
  · exact
      hTerminates.length_le (fun _ _ => trivial) hExec
        hForsaken
  · rcases hTerminates.exists_exec hNext with
      ⟨more, last, _, hMore, _, hStuck, _⟩
    exact ⟨more, last, hMore, hStuck⟩
  · exact hTerminates.goal next hNext

end Session

end WorldDat

------------------------------------------------------------
-- Takeovers
------------------------------------------------------------

namespace WorldDat

open Rust

namespace Simulation

variable {R : Type}

/-
  The address and the worker whose handle `add_worker` drops
  if the loop looks at the clock now.
-/
def displaced
    (self : Simulation R)
    (elapsed : Duration) :
    Option (SocketAddr × WorkerHandle) :=
  match self.sim.workerAddQueue.getLast? with
  | none => none
  | some (addr, _, dur) =>
      if dur < elapsed then
        (self.sim.workers.get addr).map fun worker =>
          (addr, worker)
      else
        none

/- A worker that is displaced is one that is registered. -/
theorem displaced_cases
    {self next : Simulation R}
    {elapsed : Duration}
    {addr : SocketAddr}
    {old : WorkerHandle}
    (hDisplaced :
      self.displaced elapsed = some (addr, old))
    (hStep : self.step (.clock elapsed) = some next) :
    ∃ newcomer dur,
      self.sim.workerAddQueue.getLast? =
          some (addr, newcomer, dur) ∧
        self.sim.workers.get addr = some old ∧
        next.sim.workers =
          self.sim.workers.insert addr newcomer := by
  have hNext : next = self.addDue elapsed := by
    unfold step at hStep
    dsimp only at hStep
    split at hStep
    · exact (Option.some.inj hStep).symm
    · cases hStep
    · cases hStep
  unfold displaced at hDisplaced
  cases hLast : self.sim.workerAddQueue.getLast? with
  | none =>
      rw [hLast] at hDisplaced
      cases hDisplaced
  | some entry =>
      rcases entry with ⟨addr', newcomer, dur⟩
      rw [hLast] at hDisplaced
      dsimp only at hDisplaced
      split at hDisplaced
      · rename_i hDue
        rcases Option.map_eq_some_iff.mp hDisplaced with
          ⟨worker, hWorker, hSame⟩
        cases hSame
        refine ⟨newcomer, dur, rfl, hWorker, ?_⟩
        rw [hNext]
        unfold addDue
        rw [hLast]
        dsimp only
        rw [if_pos hDue]
        rfl
      · cases hDisplaced

/- What a worker has sent and owes are all of its replies. -/
theorem Attended.replies_eq
    {entrant : Entrant}
    {entry : SocketAddr × WorkerHandle}
    {session : Session}
    (hAttended : Attended entrant entry session) :
    session.history = session.handled ++ entry.2.control ∧
      entrant.state.repliesTo session.history =
        entry.2.sent ++ entry.2.owed := by
  have hAttends := hAttended.attends
  have hLeaving := hAttended.leaving
  rcases hLeaving.life.exists_serving hAttends.handle with
    ⟨state, unsent, waiting, hThread, hControl, hAccepted,
      hServes⟩
  rw [hAttends.thread] at hThread
  cases hThread
  have hWaiting : entry.2.control = waiting := by
    apply Session.queued_injective
    rw [← hAttends.control, hControl]
  have hHistory :
      session.history = session.handled ++ waiting := by
    apply Session.queued_injective
    rw [hLeaving.accepted, hAttends.handle,
      HandleState.farewell, List.append_nil] at hAccepted
    rw [hAccepted]
    exact List.map_append.symm
  rw [hHistory, ← hWaiting]
  refine ⟨rfl, ?_⟩
  unfold WorkerHandle.owed
  rw [WorkerState.repliesTo_append, ← hServes.replies,
    ← hServes.state_eq, hAttends.sent, List.append_assoc]

/-
  A worker takes over the address of another.  It is now the
  one that is found there, and there are not more workers
  than before.  The thread of the other is abandoned.
-/
structure TakenOver
    (entrants : List Entrant)
    (run next : Simulation R)
    (addr : SocketAddr)
    (old : WorkerHandle) : Prop where
  found : ∃ newcomer dur,
    (addr, newcomer, dur) ∈ run.sim.workerAddQueue ∧
      next.sim.workers.get addr = some newcomer
  number : next.sim.workers.len = run.sim.workers.len
  abandoned : ∃ entrant ∈ entrants, ∃ session dropped,
    Attended entrant (addr, old) session ∧
      session.drop = some dropped ∧
      ∀ acts later, dropped.exec acts = some later →
        Session.Abandoned (session.handled ++ old.control)
          old.sent old.owed dropped acts later

/-
  Whenever a prepared simulator adds a worker at an address
  that is in use, the thread of the worker that was there is
  abandoned with what it owes.
-/
theorem takeover_of_prepared
    (newInsecureRandom : R → PeerId × R)
    (hasher : RandomState SocketAddr WorkerHandle)
    (rng : R)
    (calls : List WorkerSim.Call)
    {sim : WorkerSim R}
    (hSim :
      (WorkerSim.new hasher rng).prepare newInsecureRandom
        calls = .ok sim)
    {ticks : List Tick}
    {final next : Simulation R}
    (hExec : (start sim).exec ticks = some final)
    {elapsed : Duration}
    (hStep : final.step (.clock elapsed) = some next)
    {addr : SocketAddr}
    {old : WorkerHandle}
    (hDisplaced :
      final.displaced elapsed = some (addr, old)) :
    ∃ entrants : List Entrant,
      sim.workerAddQueue = entrants.map Entrant.queued ∧
        TakenOver entrants final next addr old := by
  rcases WorkerSim.entrants_of_prepared hSim with
    ⟨entrants, hEmpty, hQueue⟩
  rcases displaced_cases hDisplaced hStep with
    ⟨newcomer, dur, hLast, hOld, hWorkers⟩
  refine ⟨entrants, hQueue, ?_, ?_, ?_⟩
  · refine
      ⟨newcomer, dur, List.mem_of_getLast? hLast, ?_⟩
    rw [hWorkers]
    exact HashMap.get_insert_self _ _ _
  · rw [hWorkers]
    exact HashMap.len_insert_of_get newcomer hOld
  · rcases exists_attended hEmpty hQueue hExec
        (Or.inl hOld) with
      ⟨entrant, hEntrant, session, hAttended⟩
    rcases hAttended.replies_eq with ⟨hHistory, hReplies⟩
    rcases hAttended.leaving.drop hAttended.attends.handle
      with ⟨dropped, hDrop, hDropped, hLeaving, _⟩
    have hSent : dropped.sent = old.sent := by
      have hStill : dropped.sent = session.sent := by
        unfold Session.drop at hDrop
        rw [hAttended.attends.handle] at hDrop
        cases hDrop
        rfl
      exact hStill.trans hAttended.attends.sent
    refine
      ⟨entrant, hEntrant, session, dropped, hAttended, hDrop,
        ?_⟩
    intro acts later hActs
    rw [← hHistory]
    exact
      Session.abandoned_exec hReplies
        ⟨hLeaving, hDropped, hSent⟩ hActs

/- Two workers at one address, which is the bootstrap. -/
def rivals : List WorkerSim.Call :=
  let newcomer :=
    { address := .v4 0x0A000001 4433
      delay := 0
      hasher :=
        RandomState.insertionOrder PeerId SocketAddr }
  [ .setBootstrap (.v4 0x0A000001 4433)
  , .addNewWorker newcomer
  , .addNewWorker newcomer ]

/- One of them is added, and handles its first message. -/
def rivalTicks : List Tick :=
  [.clock 1, .work (.v4 0x0A000001 4433)] ++
    List.replicate 3 .advance

theorem takeover_of_prepared_rivals :
    ∃ (sim : WorkerSim Nat) (final next : Simulation Nat)
        (addr : SocketAddr) (old : WorkerHandle)
        (entrants : List Entrant),
      (start sim).exec rivalTicks = some final ∧
        final.step (.clock 2) = some next ∧
        old.owed ≠ [] ∧
        sim.workerAddQueue = entrants.map Entrant.queued ∧
        TakenOver entrants final next addr old := by
  have hRuns :
      ((WorkerSim.new
          (RandomState.insertionOrder SocketAddr WorkerHandle)
          0).prepare nextPeerId rivals).toOption.any
        (fun sim =>
          ((start sim).exec rivalTicks).any fun final =>
            (final.step (.clock 2)).isSome &&
              (final.displaced 2).any fun (_, old) =>
                decide (old.unsent ≠ [])) := by
    decide +kernel
  cases hSim :
      (WorkerSim.new
        (RandomState.insertionOrder SocketAddr WorkerHandle)
        0).prepare nextPeerId rivals with
  | error panic =>
      rw [hSim] at hRuns
      cases hRuns
  | ok sim =>
      rw [hSim] at hRuns
      simp only [Except.toOption, Option.any_some,
        Option.any_eq_true, Bool.and_eq_true,
        decide_eq_true_eq] at hRuns
      rcases hRuns with
        ⟨final, hExec, hStep, ⟨addr, old⟩, hDisplaced,
          hUnsent⟩
      rcases Option.isSome_iff_exists.mp hStep with
        ⟨next, hNext⟩
      have hOwed : old.owed ≠ [] := by
        unfold WorkerHandle.owed
        exact List.append_ne_nil_of_left_ne_nil hUnsent _
      rcases takeover_of_prepared nextPeerId _ 0 rivals hSim
          hExec hNext hDisplaced with
        ⟨entrants, hTakeover⟩
      exact
        ⟨sim, final, next, addr, old, entrants, hExec, hNext,
          hOwed, hTakeover⟩

end Simulation

end WorldDat
