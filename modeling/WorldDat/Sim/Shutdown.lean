import WorldDat.Machine.Termination
import WorldDat.Sim.Traffic
import WorldDat.Worker.Drop
import WorldDat.Worker.Quit

/-
  Shutting a simulator down.

  Each worker of a simulator leads the life of a session with
  the simulator as its owner.  `WorkerSim::quit` quits the
  workers that have been added one after the other, and the
  handles of those that still wait are dropped when it
  returns.

  Main declarations:
    * `WorkerHandle.Attends` and `Simulation.Attended`
    * `Shutdown` and `Shutdown.step`
    * `Shutdown.Orderly` and `Shutdown.terminates`
    * `Simulation.shutdown_of_prepared`
-/

------------------------------------------------------------
-- The Sessions Of A Simulator
------------------------------------------------------------

namespace WorldDat

open Rust

/- A session as the simulator that owns the handle sees it. -/
structure WorkerHandle.Attends
    (worker : WorkerHandle)
    (session : Session) : Prop where
  thread :
    session.thread = .running worker.thread worker.unsent
  handle : session.handle = .owned
  clones : session.clones = 0
  control : session.control = Session.queued worker.control
  messages : session.messages = worker.messages
  sent : session.sent = worker.sent

namespace WorkerHandle

variable {self next : WorkerHandle}
variable {session : Session}

/- `controller().message(..)`, and the controller is dropped. -/
def delivery
    (src : SocketAddr)
    (msg : Message) : List Act :=
  [.controller, .message src msg, .dropClone]

/- The session takes a message that is delivered. -/
theorem Attends.deliver
    (hAttends : self.Attends session)
    (src : SocketAddr)
    (msg : Message) :
    ∃ later,
      session.exec (delivery src msg) = some later ∧
        (self.message src msg).Attends later := by
  have hController :
      session.step .controller =
        some { session with clones := 1 } := by
    change session.controller = _
    unfold Session.controller
    rw [hAttends.handle, hAttends.clones]
  have hOpen : session.thread.isOpen = true := by
    rw [hAttends.thread]
    rfl
  have hMessage :
      Session.step { session with clones := 1 }
          (.message src msg) =
        some
          (Session.enqueue { session with clones := 1 }
            (.incoming src msg)) := by
    change Session.message _ src msg = _
    unfold Session.message
    rw [if_pos Nat.zero_lt_one, if_pos hOpen]
  refine
    ⟨{ session.enqueue (.incoming src msg) with
        clones := 0 }, ?_, ?_⟩
  · unfold Session.exec delivery
    rw [Machine.exec_cons_eq_some_iff]
    refine ⟨_, hController, ?_⟩
    rw [Machine.exec_cons_eq_some_iff]
    exact ⟨_, hMessage, rfl⟩
  · refine
      ⟨hAttends.thread, hAttends.handle, rfl, ?_,
        hAttends.messages, hAttends.sent⟩
    change session.control ++ [_] = _
    rw [hAttends.control]
    simp [Session.queued, message]

/- The thread of the session works like that of the worker. -/
theorem Attends.work
    (hAttends : self.Attends session)
    (hWork : self.work = some next) :
    ∃ later,
      session.exec [.work] = some later ∧
        next.Attends later := by
  have hOpen : session.handle.isOpen = true :=
    congrArg HandleState.isOpen hAttends.handle
  have hExec : ∀ later, session.work = some later →
      session.exec [.work] = some later := by
    intro later hLater
    unfold Session.exec
    rw [Machine.exec_cons_eq_some_iff]
    exact ⟨later, hLater, rfl⟩
  rcases work_cases hWork with
    ⟨message, rest, hUnsent, hNext⟩ |
      ⟨source, message, rest, hUnsent, hControl, hNext⟩
  · have hThread := hAttends.thread
    rw [hUnsent] at hThread
    refine
      ⟨_, hExec _ (Session.work_eq_send hThread hOpen), ?_⟩
    rw [hNext]
    refine
      ⟨rfl, hAttends.handle, hAttends.clones,
        hAttends.control, ?_, ?_⟩
    · exact congrArg (· ++ [message]) hAttends.messages
    · exact congrArg (· ++ [message]) hAttends.sent
  · have hThread := hAttends.thread
    rw [hUnsent] at hThread
    have hQueue := hAttends.control
    rw [hControl] at hQueue
    refine
      ⟨_, hExec _ (Session.work_eq_handle hThread hQueue),
        ?_⟩
    rw [hNext]
    exact
      ⟨rfl, hAttends.handle, hAttends.clones, rfl,
        hAttends.messages, hAttends.sent⟩

/- Receiving takes the first message out of both. -/
theorem Attends.recv
    (hAttends : self.Attends session)
    {message : Outgoing}
    {rest : List Outgoing}
    (hMessages : self.messages = message :: rest) :
    ∃ later,
      session.exec [.recvMessage] = some later ∧
        { self with messages := rest }.Attends later := by
  have hRecv :
      session.step .recvMessage =
        some
          { session with
            messages := session.messages.drop 1 } := by
    change session.recvMessage = _
    unfold Session.recvMessage
    rw [hAttends.handle]
  refine
    ⟨{ session with messages := session.messages.drop 1 },
      ?_, ?_⟩
  · unfold Session.exec
    rw [Machine.exec_cons_eq_some_iff]
    exact ⟨_, hRecv, rfl⟩
  · refine
      ⟨hAttends.thread, hAttends.handle, hAttends.clones,
        hAttends.control, ?_, hAttends.sent⟩
    change session.messages.drop 1 = rest
    rw [hAttends.messages, hMessages]
    rfl

end WorkerHandle

namespace Simulation

variable {R : Type}

/-
  A worker of a simulator with its session, which an entrant
  has started.
-/
structure Attended
    (entrant : Entrant)
    (entry : SocketAddr × WorkerHandle)
    (session : Session) : Prop where
  address : entrant.newcomer.address = entry.1
  lived : ∃ acts,
    (Session.spawn entrant.state).exec acts = some session
  attends : entry.2.Attends session

/- Whatever happens to a worker, its session lives on. -/
theorem Attended.successor
    {run : Simulation R}
    {entrant : Entrant}
    {addr : SocketAddr}
    {past worker : WorkerHandle}
    {session : Session}
    (hAttended : Attended entrant (addr, past) session)
    (hSuccessor : Successor run addr past worker) :
    ∃ later, Attended entrant (addr, worker) later := by
  rcases hAttended with ⟨hAddr, ⟨acts, hActs⟩, hAttends⟩
  have hMore : ∀ more later,
      session.exec more = some later →
        worker.Attends later →
          ∃ later, Attended entrant (addr, worker) later := by
    intro more later hMore hLater
    refine ⟨later, hAddr, ⟨acts ++ more, ?_⟩, hLater⟩
    unfold Session.exec
    rw [Machine.exec_append_eq_some_iff]
    exact ⟨session, hActs, hMore⟩
  cases hSuccessor with
  | same => exact hMore [] session rfl hAttends
  | work new hWork =>
      rcases hAttends.work hWork with ⟨later, hExec, hLater⟩
      exact hMore _ later hExec hLater
  | recv message rest hMessages =>
      rcases hAttends.recv hMessages with
        ⟨later, hExec, hLater⟩
      exact hMore _ later hExec hLater
  | message src msg =>
      rcases hAttends.deliver src msg with
        ⟨later, hExec, hLater⟩
      exact hMore _ later hExec hLater

/- A worker that waits to be added has its own session. -/
theorem exists_attended_queued (entrant : Entrant) :
    ∃ session,
      Attended entrant
        (entrant.newcomer.address, entrant.queued.2.1)
        session := by
  rcases entrant with ⟨bootstrap, peerId, newcomer⟩
  have hFresh :
      (WorkerHandle.fresh newcomer.hasher peerId
          newcomer.address).Attends
        (Session.spawn
          (WorkerState.fresh newcomer.hasher peerId
            newcomer.address)) :=
    ⟨rfl, rfl, rfl, rfl, rfl, rfl⟩
  cases bootstrap with
  | none => exact ⟨_, rfl, ⟨[], rfl⟩, hFresh⟩
  | some bootstrap =>
      rcases hFresh.deliver bootstrap (.ping peerId) with
        ⟨first, hFirst, hPinged⟩
      rcases hPinged.deliver bootstrap (.findPeer peerId) with
        ⟨second, hSecond, hGreeted⟩
      refine
        ⟨second, rfl,
          ⟨WorkerHandle.delivery bootstrap (.ping peerId) ++
            WorkerHandle.delivery bootstrap
              (.findPeer peerId), ?_⟩,
          hGreeted⟩
      unfold Session.exec
      rw [Machine.exec_append_eq_some_iff]
      exact ⟨first, hFirst, hSecond⟩

/- In every run, each worker of a simulator has a session. -/
theorem exists_attended
    {sim : WorkerSim R}
    {entrants : List Entrant}
    {ticks : List Tick}
    {final : Simulation R}
    (hEmpty : ∀ addr, sim.workers.get addr = none)
    (hQueue :
      sim.workerAddQueue = entrants.map Entrant.queued)
    (hExec : (start sim).exec ticks = some final)
    {addr : SocketAddr}
    {worker : WorkerHandle}
    (hHosts : final.Hosts addr worker) :
    ∃ entrant ∈ entrants, ∃ session,
      Attended entrant (addr, worker) session := by
  have hAll : ∀ addr worker, final.Hosts addr worker →
      ∃ entrant ∈ entrants, ∃ session,
        Attended entrant (addr, worker) session := by
    apply exec_invariant
      (fun run => ∀ addr worker, run.Hosts addr worker →
        ∃ entrant ∈ entrants, ∃ session,
          Attended entrant (addr, worker) session)
      ?_ hExec
    · intro addr worker hWorker
      rcases (hosts_start_iff hEmpty hQueue addr worker).mp
          hWorker with
        ⟨entrant, hEntrant, hAddr, hSame⟩
      refine ⟨entrant, hEntrant, ?_⟩
      rw [← hAddr, ← hSame]
      exact exists_attended_queued entrant
    · intro run tick next hRun hStep addr worker hWorker
      rcases hStep.hosts_cases hWorker with
        ⟨past, hPast, hSuccessor⟩
      rcases hRun addr past hPast with
        ⟨entrant, hEntrant, session, hAttended⟩
      exact
        ⟨entrant, hEntrant, hAttended.successor hSuccessor⟩
  exact hAll addr worker hHosts

end Simulation

end WorldDat

------------------------------------------------------------
-- Sessions That Come To An End
------------------------------------------------------------

namespace WorldDat

/- What the owner sends last, if it has not gone silently. -/
def HandleState.farewell : HandleState → List WorkerMessage
| .owned => []
| .dropped => []
| .joining => [.quit]
| .returned _ => [.quit]
| .panicked => [.quit]

/- The message of a peer, if it is one. -/
def WorkerMessage.incoming? : WorkerMessage → Option Incoming
| .quit => none
| .incoming source msg => some (source, msg)

namespace Session

/- All messages of peers that have been queued. -/
def history (self : Session) : List Incoming :=
  self.accepted.filterMap WorkerMessage.incoming?

/-
  A session that nobody but its owner has a sender of, and
  that has got a history and then the farewell.  If its
  thread has panicked, a reply could not be sent.
-/
structure Leaving
    (original : WorkerState)
    (history : List Incoming)
    (session : Session) : Prop where
  life : Life original session
  clones : session.clones = 0
  accepted :
    session.accepted =
      queued history ++ session.handle.farewell
  crashed : ∀ reason, session.thread = .panicked reason →
    ∃ out, reason = .sending out ∧
      session.sent ++ [out] <+: original.repliesTo history

/- A bound on what the thread and the owner still do. -/
def potential (self : Session) : Nat :=
  match self.handle with
  | .owned =>
      3 * self.control.length + 5 +
        match self.thread with
        | .running _ unsent => unsent.length
        | .left _ => 0
        | .ended _ => 0
        | .panicked _ => 0
  | .joining => self.remaining + 2
  | .dropped => self.backlog
  | .returned _ => 0
  | .panicked => 0

variable {original : WorkerState}
variable {history : List Incoming}
variable {self next : Session}

/- What has been queued says what the messages were. -/
theorem filterMap_queued (msgs : List Incoming) :
    (queued msgs).filterMap WorkerMessage.incoming? =
      msgs := by
  unfold queued
  rw [List.filterMap_map]
  exact List.filterMap_some

theorem queued_injective
    {first second : List Incoming}
    (hSame : queued first = queued second) :
    first = second := by
  rw [← filterMap_queued first, hSame, filterMap_queued]

/- The thread leaves alone what has been queued. -/
theorem accepted_work
    (hWork : self.work = some next) :
    next.accepted = self.accepted := by
  unfold work at hWork
  split at hWork
  · cases hWork
    unfold send
    split
    · rfl
    · rfl
  · unfold receive at hWork
    split at hWork
    · split at hWork
      · cases hWork
        rfl
      · cases hWork
    · cases hWork
      rfl
    · rw [WorkerState.handle_eq_ok] at hWork
      cases hWork
      rfl
  · cases hWork
    rfl
  all_goals cases hWork

/- A worker whose `quit` returned has ended. -/
theorem Life.exists_returned
    (hLife : Life original self)
    {result : Except WorkerMessage Unit}
    (hHandle : self.handle = .returned result) :
    ∃ later,
      self.thread = .ended .quit ∧
        self.accepted =
          queued self.handled ++ .quit :: queued later ∧
        self.sent = original.repliesTo self.handled := by
  cases hLife with
  | closed later hThread hAccepted hSent =>
      refine ⟨later, ?_, hAccepted, hSent⟩
      rcases hThread with ⟨_, hOther⟩ | ⟨hEnded, _⟩
      · rw [hHandle] at hOther
        cases hOther
      · exact hEnded
  | serving state unsent waiting hThread hOther =>
      rw [hHandle] at hOther
      cases hOther
  | closing state unsent waiting later hThread hOther =>
      rw [hHandle] at hOther
      cases hOther
  | orphaned state unsent waiting hThread hOther =>
      rw [hHandle] at hOther
      cases hOther
  | finished hThread hOther =>
      rw [hHandle] at hOther
      cases hOther
  | crashed out hThread hOther =>
      rw [hHandle] at hOther
      cases hOther

/- A thread that panics leaves a reply unsent. -/
theorem Leaving.of_panics
    (hLeaving : Leaving original history self)
    (hHandle : self.handle = .dropped)
    {state : WorkerState}
    {out : Outgoing}
    {rest : List Outgoing}
    (hThread : self.thread = .running state (out :: rest)) :
    self.sent ++ [out] <+: original.repliesTo history := by
  have hAccepted := hLeaving.accepted
  rw [hHandle] at hAccepted
  rcases hLeaving.life.exists_orphaned hHandle with
    ⟨state', unsent, waiting, hRunning, _, hQueued,
        hServes⟩ |
      ⟨hLeft | hEnded, _⟩ | ⟨other, hPanicked⟩
  · rw [hThread] at hRunning
    cases hRunning
    have hHistory : history = self.handled ++ waiting := by
      apply queued_injective
      rw [hQueued, HandleState.farewell,
        List.append_nil] at hAccepted
      rw [← hAccepted]
      exact List.map_append.symm
    rw [hHistory, WorkerState.repliesTo_append,
      ← hServes.replies]
    exact
      ⟨rest ++ (original.afterAll self.handled).repliesTo
        waiting, by simp⟩
  · rw [hThread] at hLeft
    cases hLeft
  · rw [hThread] at hEnded
    cases hEnded
  · rw [hThread] at hPanicked
    cases hPanicked

/- Work brings a session nearer to its end. -/
theorem Leaving.work
    (hLeaving : Leaving original history self)
    (hWork : self.work = some next) :
    Leaving original history next := by
  rcases senders_work hWork with ⟨hHandle, hClones⟩
  have hLife := life_work hLeaving.life hWork
  refine ⟨hLife, ?_, ?_, ?_⟩
  · rw [hClones]
    exact hLeaving.clones
  · rw [accepted_work hWork, hHandle]
    exact hLeaving.accepted
  · intro reason hPanicked
    have hDropped := hLife.handle_of_panicked hPanicked
    rw [hHandle] at hDropped
    have hAlone := alone_work hLeaving.life hDropped
    rw [hWork] at hAlone
    cases hAlone with
    | panics state out rest hThread =>
        cases hPanicked
        exact
          ⟨out, rfl, hLeaving.of_panics hDropped hThread⟩
    | handles => cases hPanicked
    | leaves => cases hPanicked
    | ends => cases hPanicked

theorem potential_of_owned
    {state : WorkerState}
    {unsent : List Outgoing}
    (hHandle : self.handle = .owned)
    (hThread : self.thread = .running state unsent) :
    self.potential =
      3 * self.control.length + 5 + unsent.length := by
  unfold potential
  rw [hHandle, hThread]

/- Work makes what is left to be done less. -/
theorem potential_work
    (hLife : Life original self)
    (hWork : self.work = some next) :
    next.potential < self.potential := by
  have hNext := handle_work hWork
  rcases hLife.handle_cases with
    hHandle | hHandle | hHandle | hHandle
  · have hOpen : self.handle.isOpen = true :=
      congrArg HandleState.isOpen hHandle
    rw [hHandle] at hNext
    rcases hLife.exists_serving hHandle with
      ⟨state, unsent, waiting, hThread, hControl, _⟩
    rw [potential_of_owned hHandle hThread]
    cases unsent with
    | cons out rest =>
        rw [work_eq_send hThread hOpen] at hWork
        cases hWork
        rw [potential_of_owned hNext rfl, List.length_cons]
        exact Nat.lt_succ_self _
    | nil =>
        cases waiting with
        | nil =>
            rw [work_eq_none hThread hControl
              (senders_ne_zero hOpen)] at hWork
            cases hWork
        | cons msg waiting =>
            rcases msg with ⟨addr, msg⟩
            have hReplies :=
              state.length_replies_le (addr, msg)
            rw [work_eq_handle hThread hControl] at hWork
            cases hWork
            rw [potential_of_owned hNext rfl, hControl]
            simp only [queued, List.map_cons,
              List.length_cons, List.length_nil]
            omega
  · rcases work_of_joining hLife hHandle with
      hEnded | ⟨other, hOther, hJoining, hLess⟩
    · have hGone := congrArg ThreadState.isOpen hEnded
      rw [work_eq_none_of_closed hGone] at hWork
      cases hWork
    · rw [hOther] at hWork
      cases hWork
      unfold potential
      rw [hJoining, hHandle]
      exact Nat.add_lt_add_right hLess 2
  · rcases hLife.exists_returned hHandle with ⟨_, hEnded, _⟩
    have hGone := congrArg ThreadState.isOpen hEnded
    rw [work_eq_none_of_closed hGone] at hWork
    cases hWork
  · unfold potential
    rw [hNext, hHandle]
    exact backlog_work hLife hHandle hWork

/- The owner can quit a session and gets to wait for it. -/
theorem Leaving.quit
    (hLeaving : Leaving original history self)
    (hHandle : self.handle = .owned) :
    ∃ next, self.quit = some next ∧
      next.handle = .joining ∧
        Leaving original history next ∧
          next.potential < self.potential := by
  rcases hLeaving.life.exists_serving hHandle with
    ⟨state, unsent, waiting, hThread, hControl, _⟩
  have hOpen : self.thread.isOpen = true := by
    rw [hThread]
    rfl
  have hQuit :
      self.quit =
        some { self.enqueue .quit with handle := .joining } := by
    unfold Session.quit
    rw [hHandle]
    dsimp only
    rw [if_pos hOpen]
  have hStep := quit_sound hQuit
  refine
    ⟨_, hQuit, rfl,
      ⟨life_step hLeaving.life hStep, hLeaving.clones, ?_,
        ?_⟩,
      ?_⟩
  · have hAccepted := hLeaving.accepted
    rw [hHandle, HandleState.farewell,
      List.append_nil] at hAccepted
    exact congrArg (· ++ [.quit]) hAccepted
  · intro reason hPanicked
    change self.thread = _ at hPanicked
    rw [hThread] at hPanicked
    cases hPanicked
  · rw [potential_of_owned hHandle hThread]
    have hClosing :
        ({ self.enqueue .quit with
            handle := .joining } : Session).remaining =
          unsent.length + 3 * waiting.length + 2 := by
      apply remaining_of_closing
      · exact hThread
      · change self.control ++ [.quit] = _
        rw [hControl]
    change remaining _ + 2 < _
    rw [hClosing, hControl, queued, List.length_map]
    omega

/- The owner can drop a session. -/
theorem Leaving.drop
    (hLeaving : Leaving original history self)
    (hHandle : self.handle = .owned) :
    ∃ next, self.drop = some next ∧
      next.handle = .dropped ∧
        Leaving original history next ∧
          next.potential < self.potential := by
  rcases hLeaving.life.exists_serving hHandle with
    ⟨state, unsent, waiting, hThread, hControl, _⟩
  have hDrop :
      self.drop =
        some { self with messages := [], handle := .dropped } := by
    unfold Session.drop
    rw [hHandle]
  refine
    ⟨_, hDrop, rfl,
      ⟨life_step hLeaving.life (.drop hHandle),
        hLeaving.clones, ?_, ?_⟩,
      ?_⟩
  · have hAccepted := hLeaving.accepted
    rw [hHandle] at hAccepted
    exact hAccepted
  · intro reason hPanicked
    change self.thread = _ at hPanicked
    rw [hThread] at hPanicked
    cases hPanicked
  · rw [potential_of_owned hHandle hThread]
    change backlog _ < _
    unfold backlog
    dsimp only
    rw [hThread]
    dsimp only
    omega

/- `quit` returns nothing but Ok. -/
theorem Leaving.join
    (hLeaving : Leaving original history self)
    (hHandle : self.handle = .joining)
    (hJoin : self.join = some next) :
    next.handle = .returned (.ok ()) ∧
      Leaving original history next ∧
        next.potential < self.potential := by
  have hNext := join_sound hJoin
  have hLife := life_step hLeaving.life hNext
  have hLess : 0 < self.potential := by
    unfold potential
    rw [hHandle]
    exact Nat.succ_pos _
  cases hNext with
  | join exit _ hThread =>
      refine
        ⟨rfl, ⟨hLife, hLeaving.clones, ?_, ?_⟩, hLess⟩
      · have hAccepted := hLeaving.accepted
        rw [hHandle] at hAccepted
        exact hAccepted
      · intro reason hPanicked
        change self.thread = _ at hPanicked
        rw [hThread] at hPanicked
        cases hPanicked
  | joinFailed reason _ hThread =>
      have hDropped := hLeaving.life.handle_of_panicked hThread
      rw [hHandle] at hDropped
      cases hDropped

end Session

end WorldDat

------------------------------------------------------------
-- Shutting Down
------------------------------------------------------------

namespace WorldDat

open Rust

/-
  `WorkerSim::quit` while it runs: the sessions of the
  registered workers in the order in which they are drained,
  then of those that wait in the queue, and whose turn it is.
-/
structure Shutdown where
  sessions : List Session
  registered : Nat
  turn : Nat
  panicked : Bool

/- The caller of `quit` goes on, or a thread works. -/
inductive Turn where
| caller
| work (position : Nat)
deriving DecidableEq

namespace Shutdown

/- Replace the session at a position. -/
def set
    (self : Shutdown)
    (position : Nat)
    (session : Session) : Shutdown :=
  { self with sessions := self.sessions.set position session }

/- The loop of `quit`, and then the drop of the queue. -/
def attend
    (self : Shutdown)
    (session : Session) : Option Shutdown :=
  if self.turn < self.registered then
    match session.handle with
    | .owned => session.quit.map (self.set self.turn)
    | .joining => session.join.map (self.set self.turn)
    | .returned (.ok ()) =>
        some { self with turn := self.turn + 1 }
    | .returned (.error _) =>
        -- `unwrap`
        some { self with panicked := true }
    | .panicked => some { self with panicked := true }
    | .dropped => none
  else
    session.drop.map fun session =>
      { self.set self.turn session with
        turn := self.turn + 1 }

/- The caller goes on with the session whose turn it is. -/
def caller (self : Shutdown) : Option Shutdown :=
  if self.panicked then
    none
  else
    self.sessions[self.turn]?.bind self.attend

/- A thread works. -/
def work
    (self : Shutdown)
    (position : Nat) : Option Shutdown := do
  let session ← self.sessions[position]?
  let session ← session.work
  return self.set position session

/- What happens next. -/
def step
    (self : Shutdown) :
    Turn → Option Shutdown
| .caller => self.caller
| .work position => self.work position

/- Run `quit` through a list of turns. -/
def exec
    (self : Shutdown)
    (turns : List Turn) : Option Shutdown :=
  Machine.exec step self turns

end Shutdown

namespace Simulation

variable {R : Type}

/- The workers in the order in which `quit` gets to them. -/
def leaving
    (self : Simulation R) :
    List (SocketAddr × WorkerHandle) :=
  self.sim.workers.iter ++
    self.sim.workerAddQueue.map fun (addr, worker, _) =>
      (addr, worker)

/- `WorkerSim::quit`, called with workers in these sessions. -/
def quit
    (self : Simulation R)
    (sessions : List Session) : Shutdown where
  sessions := sessions
  registered := self.sim.workers.iter.length
  turn := 0
  panicked := false

end Simulation

end WorldDat

------------------------------------------------------------
-- What A Shutdown Keeps
------------------------------------------------------------

namespace WorldDat

namespace Shutdown

/- What the caller has done with the handle at a position. -/
def HandleAt
    (self : Shutdown)
    (position : Nat)
    (handle : HandleState) : Prop :=
  if position < self.turn then
    handle =
      if position < self.registered then
        .returned (.ok ())
      else
        .dropped
  else if position = self.turn ∧
      self.turn < self.registered then
    handle ≠ .dropped
  else
    handle = .owned

/-
  All is well with the sessions of a crew, each of which has
  a state that it was started with and a history.
-/
structure Orderly
    (crew : List (WorkerState × List Incoming))
    (shutdown : Shutdown) : Prop where
  no_panic : shutdown.panicked = false
  length : shutdown.sessions.length = crew.length
  turn : shutdown.turn ≤ crew.length
  leaving : ∀ (i : Nat) (session : Session)
      (original : WorkerState) (history : List Incoming),
    shutdown.sessions[i]? = some session →
      crew[i]? = some (original, history) →
        session.Leaving original history
  handles : ∀ (i : Nat) (session : Session),
    shutdown.sessions[i]? = some session →
      shutdown.HandleAt i session.handle

/- What the threads and the caller still have to do. -/
def workload (self : Shutdown) : Nat :=
  (self.sessions.map Session.potential).sum +
    (self.sessions.length - self.turn)

variable {crew : List (WorkerState × List Incoming)}
variable {self next : Shutdown}

/- Replacing a session by one with less left to do. -/
theorem workload_set
    {i : Nat}
    {session later : Session}
    (hHere : self.sessions[i]? = some session)
    (hLess : later.potential < session.potential) :
    (self.set i later).workload < self.workload := by
  rcases Listing.exists_split_of_getElem? hHere with
    ⟨front, back, hSplit, _, _, _, hSet⟩
  unfold workload set
  dsimp only
  rw [List.length_set, hSet, hSplit]
  simp only [List.map_append, List.map_cons,
    List.sum_append, List.sum_cons]
  omega

/- An orderly shutdown after a session has gone on. -/
theorem Orderly.set
    (hOrderly : Orderly crew self)
    {i : Nat}
    {session later : Session}
    (hHere : self.sessions[i]? = some session)
    (hLeaving : ∀ original history,
      session.Leaving original history →
        later.Leaving original history)
    (hNext : next.sessions = self.sessions.set i later)
    (hPanicked : next.panicked = self.panicked)
    (hTurn : next.turn ≤ crew.length)
    (hHandle : next.HandleAt i later.handle)
    (hOthers : ∀ j handle, j ≠ i →
      self.HandleAt j handle → next.HandleAt j handle) :
    Orderly crew next := by
  have hCases : ∀ j other, next.sessions[j]? = some other →
      j = i ∧ other = later ∨
        j ≠ i ∧ self.sessions[j]? = some other := by
    intro j other hOther
    rw [hNext, List.getElem?_set] at hOther
    by_cases hSame : i = j
    · rw [if_pos hSame] at hOther
      split at hOther
      · exact
          Or.inl ⟨hSame.symm, (Option.some.inj hOther).symm⟩
      · cases hOther
    · rw [if_neg hSame] at hOther
      exact Or.inr ⟨fun hEq => hSame hEq.symm, hOther⟩
  refine ⟨?_, ?_, hTurn, ?_, ?_⟩
  · rw [hPanicked]
    exact hOrderly.no_panic
  · rw [hNext, List.length_set]
    exact hOrderly.length
  · intro j other original history hOther hCrew
    rcases hCases j other hOther with
      ⟨hHereToo, hLater⟩ | ⟨_, hBefore⟩
    · rw [hHereToo] at hCrew
      rw [hLater]
      apply hLeaving
      exact hOrderly.leaving i session _ _ hHere hCrew
    · exact hOrderly.leaving j other _ _ hBefore hCrew
  · intro j other hOther
    rcases hCases j other hOther with
      ⟨hHereToo, hLater⟩ | ⟨hElse, hBefore⟩
    · rw [hHereToo, hLater]
      exact hHandle
    · apply hOthers j _ hElse
      exact hOrderly.handles j other hBefore

/- Each session of an orderly shutdown has a place in it. -/
theorem Orderly.exists_crew
    (hOrderly : Orderly crew self)
    {i : Nat}
    {session : Session}
    (hHere : self.sessions[i]? = some session) :
    ∃ original history,
      crew[i]? = some (original, history) ∧
        session.Leaving original history := by
  rcases List.getElem?_eq_some_iff.mp hHere with ⟨hIndex, _⟩
  rw [hOrderly.length] at hIndex
  refine ⟨crew[i].1, crew[i].2, ?_, ?_⟩
  · exact List.getElem?_eq_getElem hIndex
  · apply hOrderly.leaving i session _ _ hHere
    exact List.getElem?_eq_getElem hIndex

/- A session goes on and leaves the handles as they were. -/
theorem Orderly.set_same
    (hOrderly : Orderly crew self)
    {i : Nat}
    {session later : Session}
    (hHere : self.sessions[i]? = some session)
    (hLeaving : ∀ original history,
      session.Leaving original history →
        later.Leaving original history)
    (hHandle : self.HandleAt i later.handle) :
    Orderly crew (self.set i later) := by
  refine
    hOrderly.set hHere hLeaving ?_ ?_ hOrderly.turn hHandle ?_
  · rfl
  · rfl
  · intro j handle _ hAt
    exact hAt

/- A thread that works keeps a shutdown orderly. -/
theorem orderly_work
    (hOrderly : Orderly crew self)
    {position : Nat}
    (hWork : self.work position = some next) :
    Orderly crew next ∧ next.workload < self.workload := by
  unfold work at hWork
  rcases Option.bind_eq_some_iff.mp hWork with
    ⟨session, hHere, hRest⟩
  rcases Option.bind_eq_some_iff.mp hRest with
    ⟨later, hLater, hNext⟩
  cases hNext
  rcases hOrderly.exists_crew hHere with
    ⟨original, history, _, hLeaving⟩
  constructor
  · apply hOrderly.set_same hHere
    · intro original history hBefore
      exact hBefore.work hLater
    · rw [Session.handle_work hLater]
      exact hOrderly.handles position session hHere
  · apply workload_set hHere
    exact Session.potential_work hLeaving.life hLater

/- The caller goes on to the next session. -/
theorem handleAt_next
    {j : Nat}
    {handle : HandleState}
    (hNext : next.turn = self.turn + 1)
    (hRegistered : next.registered = self.registered)
    (hElse : j ≠ self.turn)
    (hAt : self.HandleAt j handle) :
    next.HandleAt j handle := by
  unfold HandleAt at hAt ⊢
  rw [hNext, hRegistered]
  by_cases hBefore : j < self.turn
  · rw [if_pos hBefore] at hAt
    rw [if_pos (Nat.lt_succ_of_lt hBefore)]
    exact hAt
  · have hLater : ¬ j < self.turn + 1 := by omega
    rw [if_neg hBefore, if_neg (by omega)] at hAt
    rw [if_neg hLater]
    rw [hAt]
    split
    · simp
    · rfl

end Shutdown

end WorldDat

------------------------------------------------------------
-- The Caller Of A Shutdown
------------------------------------------------------------

namespace WorldDat

open Rust

namespace Shutdown

variable {crew : List (WorkerState × List Incoming)}
variable {self next : Shutdown}

/- A session whose turn it is has been quit, or nothing yet. -/
theorem handleAt_turn_iff (handle : HandleState) :
    self.HandleAt self.turn handle ↔
      if self.turn < self.registered then
        handle ≠ .dropped
      else
        handle = .owned := by
  unfold HandleAt
  rw [if_neg (Nat.lt_irrefl _)]
  by_cases hRegistered : self.turn < self.registered
  · rw [if_pos ⟨rfl, hRegistered⟩, if_pos hRegistered]
  · rw [if_neg (fun hBoth => hRegistered hBoth.2),
      if_neg hRegistered]

/- The caller is done with the session whose turn it was. -/
theorem Orderly.move_on
    (hOrderly : Orderly crew self)
    {session later : Session}
    (hHere : self.sessions[self.turn]? = some session)
    (hLeaving : ∀ original history,
      session.Leaving original history →
        later.Leaving original history)
    (hPotential : later.potential ≤ session.potential)
    (hHandle :
      later.handle =
        if self.turn < self.registered then
          .returned (.ok ())
        else
          .dropped)
    (hSessions :
      next.sessions = self.sessions.set self.turn later)
    (hRegistered : next.registered = self.registered)
    (hTurn : next.turn = self.turn + 1)
    (hPanicked : next.panicked = self.panicked) :
    Orderly crew next ∧ next.workload < self.workload := by
  rcases List.getElem?_eq_some_iff.mp hHere with ⟨hIndex, _⟩
  constructor
  · apply hOrderly.set hHere hLeaving hSessions hPanicked
    · rw [hTurn, ← hOrderly.length]
      exact hIndex
    · unfold HandleAt
      rw [hTurn, hRegistered, if_pos (Nat.lt_succ_self _)]
      exact hHandle
    · intro j handle hElse hAt
      exact handleAt_next hTurn hRegistered hElse hAt
  · rcases Listing.exists_split_of_getElem? hHere with
      ⟨front, back, hSplit, _, _, _, hSet⟩
    have hSum :
        (self.sessions.map Session.potential).sum =
          ((front ++ session :: back).map
            Session.potential).sum := by
      rw [← hSplit]
    unfold workload
    rw [hSessions, hTurn, List.length_set, hSet, hSum]
    simp only [List.map_append, List.map_cons,
      List.sum_append, List.sum_cons]
    omega

theorem caller_eq_attend
    (hOrderly : Orderly crew self)
    {session : Session}
    (hHere : self.sessions[self.turn]? = some session) :
    self.caller = self.attend session := by
  unfold caller
  rw [hOrderly.no_panic, if_neg Bool.false_ne_true, hHere]
  rfl

/- Whatever the caller does keeps a shutdown orderly. -/
theorem orderly_caller
    (hOrderly : Orderly crew self)
    (hCaller : self.caller = some next) :
    Orderly crew next ∧ next.workload < self.workload := by
  cases hHere : self.sessions[self.turn]? with
  | none =>
      unfold caller at hCaller
      rw [hOrderly.no_panic, if_neg Bool.false_ne_true,
        hHere] at hCaller
      cases hCaller
  | some session =>
      rw [caller_eq_attend hOrderly hHere] at hCaller
      unfold attend at hCaller
      have hAt := hOrderly.handles _ session hHere
      rw [handleAt_turn_iff] at hAt
      rcases hOrderly.exists_crew hHere with
        ⟨original, history, hCrew, hLeaving⟩
      by_cases hRegistered : self.turn < self.registered
      · rw [if_pos hRegistered] at hCaller hAt
        rcases hLeaving.life.handle_cases with
          hHandle | hHandle | hHandle | hHandle
        · rcases hLeaving.quit hHandle with
            ⟨later, hQuit, hJoining, _, hLess⟩
          rw [hHandle, hQuit] at hCaller
          cases hCaller
          refine
            ⟨hOrderly.set_same hHere ?_ ?_,
              workload_set hHere hLess⟩
          · intro original history hBefore
            rcases hBefore.quit hHandle with
              ⟨other, hOther, _, hAfter, _⟩
            rw [hQuit] at hOther
            cases hOther
            exact hAfter
          · rw [handleAt_turn_iff, if_pos hRegistered,
              hJoining]
            simp
        · rw [hHandle] at hCaller
          rcases Option.map_eq_some_iff.mp hCaller with
            ⟨later, hJoin, hNext⟩
          cases hNext
          rcases hLeaving.join hHandle hJoin with
            ⟨hReturned, _, hLess⟩
          refine
            ⟨hOrderly.set_same hHere ?_ ?_,
              workload_set hHere hLess⟩
          · intro original history hBefore
            exact (hBefore.join hHandle hJoin).2.1
          · rw [handleAt_turn_iff, if_pos hRegistered,
              hReturned]
            simp
        · rw [hHandle] at hCaller
          cases hCaller
          have hSame :
              self.sessions.set self.turn session =
                self.sessions := by
            rcases Listing.exists_split_of_getElem? hHere
              with ⟨front, back, hSplit, _, _, _, hSet⟩
            rw [hSet, ← hSplit]
          refine
            hOrderly.move_on hHere
              (fun _ _ hBefore => hBefore) (Nat.le_refl _)
              ?_ hSame.symm ?_ ?_ ?_
          · rw [if_pos hRegistered]
            exact hHandle
          · rfl
          · rfl
          · rfl
        · exact absurd hHandle hAt
      · rw [if_neg hRegistered] at hCaller hAt
        rcases hLeaving.drop hAt with
          ⟨later, hDrop, hDropped, _, hLess⟩
        rw [hDrop] at hCaller
        cases hCaller
        refine
          hOrderly.move_on hHere ?_ (Nat.le_of_lt hLess) ?_
            ?_ ?_ ?_ ?_
        · intro original history hBefore
          rcases hBefore.drop hAt with
            ⟨other, hOther, _, hAfter, _⟩
          rw [hDrop] at hOther
          cases hOther
          exact hAfter
        · rw [if_neg hRegistered]
          exact hDropped
        · rfl
        · rfl
        · rfl
        · rfl

/- Whatever happens keeps a shutdown orderly. -/
theorem orderly_step
    (hOrderly : Orderly crew self)
    {turn : Turn}
    (hStep : self.step turn = some next) :
    Orderly crew next ∧ next.workload < self.workload := by
  cases turn with
  | caller => exact orderly_caller hOrderly hStep
  | work position => exact orderly_work hOrderly hStep

end Shutdown

end WorldDat

------------------------------------------------------------
-- Where A Shutdown Ends
------------------------------------------------------------

namespace WorldDat

open Rust

namespace Session

variable {original : WorkerState}
variable {history : List Incoming}
variable {self : Session}

/- A session that was quit has handled and answered all. -/
theorem Leaving.of_returned
    (hLeaving : Leaving original history self)
    (hHandle : self.handle = .returned (.ok ())) :
    self.thread = .ended .quit ∧ self.handled = history ∧
      self.sent = original.repliesTo history := by
  have hAccepted := hLeaving.accepted
  rw [hHandle, HandleState.farewell] at hAccepted
  rcases hLeaving.life.exists_returned hHandle with
    ⟨later, hThread, hQueued, hSent⟩
  have hHandled : self.handled = history := by
    apply queued_injective
    rw [← beforeQuit_of_closing self.handled
        (queued later), ← hQueued, hAccepted,
      beforeQuit_of_closing]
  rw [hHandled] at hSent
  exact ⟨hThread, hHandled, hSent⟩

/- A dropped session has done so too, unless it crashed. -/
theorem Leaving.of_dropped
    (hLeaving : Leaving original history self)
    (hHandle : self.handle = .dropped)
    (hWork : self.work = none) :
    self.thread = .ended .disconnected ∧
        self.handled = history ∧
          self.sent = original.repliesTo history ∨
      ∃ out, self.thread = .panicked (.sending out) ∧
        self.sent ++ [out] <+:
          original.repliesTo history := by
  have hAccepted := hLeaving.accepted
  rw [hHandle, HandleState.farewell,
    List.append_nil] at hAccepted
  rcases exists_work_of_dropped hLeaving.life hHandle with
    ⟨next, hNext⟩ | ⟨_, hClones⟩ | ⟨_, hEnded⟩ |
      ⟨reason, hPanicked⟩
  · rw [hWork] at hNext
    cases hNext
  · exact absurd hLeaving.clones hClones
  · apply Or.inl
    rcases hLeaving.life.exists_orphaned hHandle with
      ⟨state, unsent, waiting, hThread, _⟩ |
        ⟨_, _, _, hQueued, hSent⟩ | ⟨out, hPanicked⟩
    · rw [hEnded] at hThread
      cases hThread
    · have hHandled : self.handled = history := by
        apply queued_injective
        rw [← hQueued, hAccepted]
      rw [hHandled] at hSent
      exact ⟨hEnded, hHandled, hSent⟩
    · rw [hEnded] at hPanicked
      cases hPanicked
  · apply Or.inr
    rcases hLeaving.crashed reason hPanicked with
      ⟨out, hReason, hSent⟩
    rw [hReason] at hPanicked
    exact ⟨out, hPanicked, hSent⟩

end Session

namespace Shutdown

variable {crew : List (WorkerState × List Incoming)}

/-
  `quit` has returned and no thread is left.  Each worker
  that was registered has handled and answered its history.
  So has each of the others, or its thread panicked on the
  first reply that it came too late to send.
-/
structure Complete
    (crew : List (WorkerState × List Incoming))
    (shutdown : Shutdown) : Prop where
  turn : shutdown.turn = shutdown.sessions.length
  registered : ∀ (i : Nat) (session : Session)
      (original : WorkerState) (history : List Incoming),
    shutdown.sessions[i]? = some session →
      crew[i]? = some (original, history) →
        i < shutdown.registered →
          session.handle = .returned (.ok ()) ∧
            session.thread = .ended .quit ∧
            session.handled = history ∧
            session.sent = original.repliesTo history
  others : ∀ (i : Nat) (session : Session)
      (original : WorkerState) (history : List Incoming),
    shutdown.sessions[i]? = some session →
      crew[i]? = some (original, history) →
        ¬ i < shutdown.registered →
          session.handle = .dropped ∧
            (session.thread = .ended .disconnected ∧
                session.handled = history ∧
                  session.sent =
                    original.repliesTo history ∨
              ∃ out,
                session.thread = .panicked (.sending out) ∧
                  session.sent ++ [out] <+:
                    original.repliesTo history)

/- As long as it is somebody's turn, something can happen. -/
theorem exists_step_of_turn
    {self : Shutdown}
    (hOrderly : Orderly crew self)
    {session : Session}
    (hHere : self.sessions[self.turn]? = some session) :
    ∃ turn next, self.step turn = some next := by
  have hAt := hOrderly.handles _ session hHere
  rw [handleAt_turn_iff] at hAt
  rcases hOrderly.exists_crew hHere with
    ⟨original, history, _, hLeaving⟩
  have hCaller : ∀ next, self.attend session = some next →
      ∃ turn next, self.step turn = some next := by
    intro next hNext
    refine ⟨.caller, next, ?_⟩
    rw [← hNext]
    exact caller_eq_attend hOrderly hHere
  unfold attend at hCaller
  by_cases hRegistered : self.turn < self.registered
  · rw [if_pos hRegistered] at hAt hCaller
    rcases hLeaving.life.handle_cases with
      hHandle | hHandle | hHandle | hHandle
    · rcases hLeaving.quit hHandle with ⟨later, hQuit, _⟩
      rw [hHandle, hQuit] at hCaller
      exact hCaller _ rfl
    · rcases Session.work_of_joining hLeaving.life hHandle
        with hEnded | ⟨later, hWork, _⟩
      · have hJoin :
            session.join =
              some
                { session with
                  messages := []
                  handle := .returned (.ok ()) } := by
          unfold Session.join
          rw [hHandle, hEnded]
        rw [hHandle, hJoin] at hCaller
        exact hCaller _ rfl
      · refine
          ⟨.work self.turn, self.set self.turn later, ?_⟩
        change self.work self.turn = _
        unfold work
        rw [hHere]
        change session.work.bind _ = _
        rw [hWork]
        rfl
    · rw [hHandle] at hCaller
      exact hCaller _ rfl
    · exact absurd hHandle hAt
  · rw [if_neg hRegistered] at hAt hCaller
    rcases hLeaving.drop hAt with ⟨later, hDrop, _⟩
    rw [hDrop] at hCaller
    exact hCaller _ rfl

/- When nothing can happen any more, all is done. -/
theorem complete_of_stuck
    {self : Shutdown}
    (hOrderly : Orderly crew self)
    (hStuck : Machine.Stuck step (fun _ => True) self) :
    Complete crew self := by
  have hTurn : self.turn = self.sessions.length := by
    have hLe := hOrderly.turn
    rw [← hOrderly.length] at hLe
    by_contra hElse
    have hIndex : self.turn < self.sessions.length := by
      omega
    rcases exists_step_of_turn hOrderly
        (List.getElem?_eq_getElem hIndex) with
      ⟨turn, next, hStep⟩
    rw [hStuck turn trivial] at hStep
    cases hStep
  have hAt : ∀ i session,
      self.sessions[i]? = some session →
        session.handle =
          if i < self.registered then
            .returned (.ok ())
          else
            .dropped := by
    intro i session hHere
    rcases List.getElem?_eq_some_iff.mp hHere with
      ⟨hIndex, _⟩
    have hHandle := hOrderly.handles i session hHere
    unfold HandleAt at hHandle
    rw [hTurn, if_pos hIndex] at hHandle
    exact hHandle
  refine ⟨hTurn, ?_, ?_⟩
  · intro i session original history hHere hCrew hRegistered
    have hLeaving :=
      hOrderly.leaving i session _ _ hHere hCrew
    have hHandle := hAt i session hHere
    rw [if_pos hRegistered] at hHandle
    exact ⟨hHandle, hLeaving.of_returned hHandle⟩
  · intro i session original history hHere hCrew hRegistered
    have hLeaving :=
      hOrderly.leaving i session _ _ hHere hCrew
    have hHandle := hAt i session hHere
    rw [if_neg hRegistered] at hHandle
    have hIdle : session.work = none := by
      have hNone := hStuck (.work i) trivial
      change self.work i = none at hNone
      unfold work at hNone
      rw [hHere] at hNone
      change session.work.bind _ = none at hNone
      cases hWork : session.work with
      | none => rfl
      | some later =>
          rw [hWork] at hNone
          cases hNone
    exact ⟨hHandle, hLeaving.of_dropped hHandle hIdle⟩

/- A shutdown comes to its end, whoever goes on first. -/
theorem terminates
    (crew : List (WorkerState × List Incoming)) :
    Machine.Terminates step (fun _ => True) workload
      (Orderly crew) (Complete crew) where
  keeps := by
    intro self turn next hOrderly _ hStep
    exact (orderly_step hOrderly hStep).1
  less := by
    intro self turn next hOrderly _ hStep
    exact (orderly_step hOrderly hStep).2
  goal := by
    intro self hOrderly hStuck
    exact complete_of_stuck hOrderly hStuck

end Shutdown

end WorldDat

------------------------------------------------------------
-- Shutting Down A Simulator
------------------------------------------------------------

namespace WorldDat

open Rust

/- What each element has, a list of them has side by side. -/
theorem Listing.exists_forall₂
    {α β : Type}
    {Rel : α → β → Prop}
    {xs : List α}
    (hAll : ∀ x ∈ xs, ∃ y, Rel x y) :
    ∃ ys, List.Forall₂ Rel xs ys := by
  induction xs with
  | nil => exact ⟨[], .nil⟩
  | cons x xs ih =>
      rcases hAll x List.mem_cons_self with ⟨y, hHere⟩
      have hRest : ∀ x ∈ xs, ∃ y, Rel x y := by
        intro other hOther
        exact hAll other (List.mem_cons_of_mem x hOther)
      rcases ih hRest with ⟨ys, hThere⟩
      exact ⟨y :: ys, .cons hHere hThere⟩

namespace Simulation

variable {R : Type}

/- What the session of an entrant started with and has got. -/
def origin
    (member : Entrant × Session) :
    WorkerState × List Incoming :=
  (member.1.state, member.2.history)

/-
  A run of `WorkerSim::quit` with a crew.  Neither the caller
  nor the thread of a registered worker panics.  Only so much
  can happen, and whoever goes on first, the run gets to an
  end; there, all is done.
-/
structure ShutsDown
    (begin : Shutdown)
    (crew : List (Entrant × Session))
    (turns : List Turn)
    (state : Shutdown) : Prop where
  no_panic : state.panicked = false
  registered_run : ∀ (i : Nat) (session : Session),
    state.sessions[i]? = some session →
      i < state.registered →
        ∀ reason, session.thread ≠ .panicked reason
  bounded :
    turns.length + state.workload ≤ begin.workload
  finishes : ∃ more last,
    state.exec more = some last ∧
      Machine.Stuck Shutdown.step (fun _ => True) last
  ends :
    Machine.Stuck Shutdown.step (fun _ => True) state →
      state.Complete (crew.map origin)

/- The session of a worker that the simulator still has. -/
theorem Attended.leaving
    {entrant : Entrant}
    {entry : SocketAddr × WorkerHandle}
    {session : Session}
    (hAttended : Attended entrant entry session) :
    session.Leaving entrant.state session.history := by
  rcases hAttended.lived with ⟨acts, hActs⟩
  have hHandle := hAttended.attends.handle
  have hLife :=
    Session.life_exec hActs (Session.life_spawn _)
  refine ⟨hLife, hAttended.attends.clones, ?_, ?_⟩
  · rcases hLife.exists_serving hHandle with
      ⟨state, unsent, waiting, _, _, hAccepted, _⟩
    have hQueued :
        session.accepted =
          Session.queued (session.handled ++ waiting) := by
      rw [hAccepted]
      exact List.map_append.symm
    unfold Session.history
    rw [hHandle, HandleState.farewell, List.append_nil,
      hQueued, Session.filterMap_queued]
  · intro reason hPanicked
    rw [hAttended.attends.thread] at hPanicked
    cases hPanicked

/- A shutdown begins orderly. -/
theorem orderly_quit
    {final : Simulation R}
    {entrants : List Entrant}
    {crew : List (Entrant × Session)}
    (hCrew :
      List.Forall₂
        (fun entry member =>
          member.1 ∈ entrants ∧
            Attended member.1 entry member.2)
        final.leaving crew) :
    (final.quit (crew.map Prod.snd)).Orderly
      (crew.map origin) := by
  have hAttended : ∀ (i : Nat) (member : Entrant × Session),
      crew[i]? = some member →
        ∃ entry, Attended member.1 entry member.2 := by
    intro i member hMember
    rcases List.getElem?_eq_some_iff.mp hMember with
      ⟨hIndex, hSame⟩
    have hBefore : i < final.leaving.length := by
      rw [hCrew.length_eq]
      exact hIndex
    have hBoth := hCrew.get hBefore hIndex
    rw [List.get_eq_getElem, List.get_eq_getElem,
      hSame] at hBoth
    exact ⟨_, hBoth.2⟩
  have hMember : ∀ (i : Nat) (session : Session),
      (crew.map Prod.snd)[i]? = some session →
        ∃ member, crew[i]? = some member ∧
          member.2 = session := by
    intro i session hSession
    rw [List.getElem?_map] at hSession
    rcases Option.map_eq_some_iff.mp hSession with
      ⟨member, hHere, hSame⟩
    exact ⟨member, hHere, hSame⟩
  refine ⟨rfl, ?_, Nat.zero_le _, ?_, ?_⟩
  · change (crew.map Prod.snd).length = _
    rw [List.length_map, List.length_map]
  · intro i session original history hSession hOrigin
    rcases hMember i session hSession with
      ⟨member, hHere, hSame⟩
    rcases hAttended i member hHere with ⟨entry, hLives⟩
    rw [List.getElem?_map, hHere] at hOrigin
    cases hOrigin
    rw [← hSame]
    exact hLives.leaving
  · intro i session hSession
    rcases hMember i session hSession with
      ⟨member, hHere, hSame⟩
    rcases hAttended i member hHere with ⟨entry, hLives⟩
    have hOwned := hLives.attends.handle
    rw [hSame] at hOwned
    have hFirst :
        ¬ i < (final.quit (crew.map Prod.snd)).turn :=
      Nat.not_lt_zero i
    unfold Shutdown.HandleAt
    rw [hOwned, if_neg hFirst]
    split
    · simp
    · rfl

/-
  `WorkerSim::quit` can be called at the end of every run of
  a prepared simulator, each of whose workers leads the life
  of a session.
-/
theorem shutdown_of_prepared
    (newInsecureRandom : R → PeerId × R)
    (hasher : RandomState SocketAddr WorkerHandle)
    (rng : R)
    (calls : List WorkerSim.Call)
    {sim : WorkerSim R}
    (hSim :
      (WorkerSim.new hasher rng).prepare newInsecureRandom
        calls = .ok sim)
    {ticks : List Tick}
    {final : Simulation R}
    (hExec : (start sim).exec ticks = some final) :
    ∃ (entrants : List Entrant)
        (crew : List (Entrant × Session)),
      sim.workerAddQueue = entrants.map Entrant.queued ∧
        List.Forall₂
          (fun entry member =>
            member.1 ∈ entrants ∧
              Attended member.1 entry member.2)
          final.leaving crew ∧
        ∀ turns state,
          (final.quit (crew.map Prod.snd)).exec turns =
              some state →
            ShutsDown (final.quit (crew.map Prod.snd)) crew
              turns state := by
  rcases WorkerSim.entrants_of_prepared hSim with
    ⟨entrants, hEmpty, hQueue⟩
  have hMembers : ∀ entry ∈ final.leaving,
      ∃ member : Entrant × Session,
        member.1 ∈ entrants ∧
          Attended member.1 entry member.2 := by
    intro entry hEntry
    rcases entry with ⟨addr, worker⟩
    have hHosts : final.Hosts addr worker := by
      rcases List.mem_append.mp hEntry with hIter | hQueued
      · exact Or.inl ((HashMap.mem_iter_iff _ _ _).mp hIter)
      · rcases List.mem_map.mp hQueued with
          ⟨⟨addr', worker', dur⟩, hIn, hSame⟩
        cases hSame
        exact Or.inr ⟨dur, hIn⟩
    rcases exists_attended hEmpty hQueue hExec hHosts with
      ⟨entrant, hEntrant, session, hAttended⟩
    exact ⟨(entrant, session), hEntrant, hAttended⟩
  rcases Listing.exists_forall₂ hMembers with ⟨crew, hCrew⟩
  refine ⟨entrants, crew, hQueue, hCrew, ?_⟩
  intro turns state hTurns
  have hTerminates :=
    Shutdown.terminates (crew.map origin)
  have hBegin := orderly_quit hCrew
  have hOrderly : state.Orderly (crew.map origin) :=
    Machine.exec_invariant
      (fun _ _ _ hBefore hStep =>
        (Shutdown.orderly_step hBefore hStep).1)
      hTurns hBegin
  refine ⟨hOrderly.no_panic, ?_, ?_, ?_, ?_⟩
  · intro i session hHere hRegistered reason hPanicked
    rcases hOrderly.exists_crew hHere with
      ⟨original, history, _, hLeaving⟩
    have hDropped :=
      hLeaving.life.handle_of_panicked hPanicked
    have hAt := hOrderly.handles i session hHere
    unfold Shutdown.HandleAt at hAt
    rw [hDropped, if_pos hRegistered] at hAt
    split at hAt
    · cases hAt
    · split at hAt
      · exact hAt rfl
      · cases hAt
  · exact
      hTerminates.length_le (fun _ _ => trivial) hTurns
        hBegin
  · rcases hTerminates.exists_exec hOrderly with
      ⟨more, last, _, hMore, _, hStuck, _⟩
    exact ⟨more, last, hMore, hStuck⟩
  · intro hStuck
    exact Shutdown.complete_of_stuck hOrderly hStuck

theorem shutdown_of_prepared_heckin :
    ∃ (sim : WorkerSim Nat) (final : Simulation Nat)
        (entrants : List Entrant)
        (crew : List (Entrant × Session)),
      (start sim).exec heckinTicks = some final ∧
        sim.workerAddQueue = entrants.map Entrant.queued ∧
        List.Forall₂
          (fun entry member =>
            member.1 ∈ entrants ∧
              Attended member.1 entry member.2)
          final.leaving crew ∧
        ∀ turns state,
          (final.quit (crew.map Prod.snd)).exec turns =
              some state →
            ShutsDown (final.quit (crew.map Prod.snd)) crew
              turns state := by
  rcases exists_heckin_run with
    ⟨sim, final, hSim, _, _, _, hExec, _⟩
  rcases shutdown_of_prepared nextPeerId _ 0 _ hSim hExec with
    ⟨entrants, crew, hShutdown⟩
  exact ⟨sim, final, entrants, crew, hExec, hShutdown⟩

end Simulation

end WorldDat
