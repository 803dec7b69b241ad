import WorldDat.Worker.Session

/-
  Dropping the handle of a worker without quitting it.

  A dropped `WorkerHandle` takes with it the receiver of the
  replies, while clones of `WorkerMessageHandle` may still
  queue messages.  The loop assumes that a vanished owner
  means that nothing is left to do, but the next message that
  asks for a reply makes `send` panic.

  Main declarations:
    * `Session.Harmless` and `Session.LeavesCleanly`
    * `Session.Alone` and `Session.alone_work`
    * `Session.safe_step_iff`
    * `Session.leavesCleanly_iff_safe`
    * `Session.leaves_cleanly_iff`
-/

------------------------------------------------------------
-- Harmless Acts
------------------------------------------------------------

namespace WorldDat

namespace Session

/- Nothing is left to send, and nobody waits for a reply. -/
structure Settled (session : Session) : Prop where
  unsent : ∀ state unsent,
    session.thread = .running state unsent → unsent = []
  control : ∀ source msg,
    .incoming source msg ∈ session.control →
      msg.isResponse = true

/-
  The owner drops the handle only when nobody waits for a
  reply, and nobody asks for one after that.
-/
def Harmless
    (self : Session) :
    Act → Prop
| .drop => self.Settled
| .message _ msg =>
    self.handle = .dropped →
      self.thread.isOpen = true → msg.isResponse = true
| .controller => True
| .clone => True
| .dropClone => True
| .recvMessage => True
| .work => True
| .quit => True
| .join => True

/- A worker without an owner is not asked for anything. -/
def Safe (self : Session) : Prop :=
  self.handle = .dropped →
    (∀ reason, self.thread ≠ .panicked reason) ∧
      self.Settled

variable {original : WorkerState}
variable {self next : Session}

/- A worker without an owner is in one of three stages. -/
theorem Life.exists_orphaned
    (hLife : Life original self)
    (hHandle : self.handle = .dropped) :
    (∃ state unsent waiting,
      self.thread = .running state unsent ∧
        self.control = queued waiting ∧
        self.accepted =
          queued self.handled ++ queued waiting ∧
        Serves original self state unsent) ∨
      ((self.thread = .left .disconnected ∨
            self.thread = .ended .disconnected) ∧
          self.clones = 0 ∧ self.control = [] ∧
          self.accepted = queued self.handled ∧
          self.sent = original.repliesTo self.handled) ∨
        ∃ out, self.thread = .panicked (.sending out) := by
  cases hLife with
  | orphaned state unsent waiting hThread _ hControl
      hAccepted hServes =>
      exact
        Or.inl
          ⟨state, unsent, waiting, hThread, hControl,
            hAccepted, hServes⟩
  | finished hThread _ hClones hControl hAccepted hSent =>
      exact
        Or.inr
          (Or.inl
            ⟨hThread, hClones, hControl, hAccepted, hSent⟩)
  | crashed out hThread =>
      exact Or.inr (Or.inr ⟨out, hThread⟩)
  | serving state unsent waiting hThread hOther =>
      rw [hHandle] at hOther
      cases hOther
  | closing state unsent waiting later hThread hOther =>
      rw [hHandle] at hOther
      cases hOther
  | closed later hThread =>
      rw [hHandle] at hThread
      rcases hThread with
        ⟨_, hOther⟩ | ⟨_, hOther | hOther⟩
      · cases hOther
      · cases hOther
      · cases hOther

/- Being settled depends on the thread and on its queue. -/
theorem Settled.congr
    (hSettled : self.Settled)
    (hThread : next.thread = self.thread)
    (hControl : next.control = self.control) :
    next.Settled where
  unsent := by
    rw [hThread]
    exact hSettled.unsent
  control := by
    rw [hControl]
    exact hSettled.control

/- A response that is queued asks for nothing. -/
theorem settled_enqueue_iff
    (source : SocketAddr)
    (msg : Message) :
    (self.enqueue (.incoming source msg)).Settled ↔
      self.Settled ∧ msg.isResponse = true := by
  constructor
  · intro hSettled
    refine ⟨⟨hSettled.unsent, ?_⟩, ?_⟩
    · intro other asked hQueued
      apply hSettled.control other asked
      exact List.mem_append_left _ hQueued
    · apply hSettled.control source msg
      exact List.mem_append_right _ List.mem_cons_self
  · intro hBoth
    rcases hBoth with ⟨hSettled, hResponse⟩
    refine ⟨hSettled.unsent, ?_⟩
    intro other asked hQueued
    rcases List.mem_append.mp hQueued with hOld | hNew
    · exact hSettled.control other asked hOld
    · rw [List.mem_singleton] at hNew
      cases hNew
      exact hResponse

/- The head of the queue is a response, and so is the rest. -/
theorem settled_handle_iff
    {state : WorkerState}
    {msg : Incoming}
    {waiting : List Incoming}
    (hThread : self.thread = .running state [])
    (hControl : self.control = queued (msg :: waiting))
    (hNextThread :
      next.thread =
        .running (state.after msg) (state.replies msg))
    (hNextControl : next.control = queued waiting) :
    next.Settled ↔ self.Settled := by
  rcases msg with ⟨source, msg⟩
  have hReplies := state.replies_eq_nil_iff source msg
  constructor
  · intro hSettled
    refine ⟨?_, ?_⟩
    · intro other unsent hRunning
      rw [hThread] at hRunning
      cases hRunning
      rfl
    · intro other asked hQueued
      rw [hControl] at hQueued
      rcases List.mem_cons.mp hQueued with hHead | hRest
      · cases hHead
        exact hReplies.mp (hSettled.unsent _ _ hNextThread)
      · apply hSettled.control other asked
        rw [hNextControl]
        exact hRest
  · intro hSettled
    have hHead : msg.isResponse = true := by
      apply hSettled.control source msg
      rw [hControl]
      exact List.mem_cons_self
    refine ⟨?_, ?_⟩
    · intro other unsent hRunning
      rw [hNextThread] at hRunning
      cases hRunning
      exact hReplies.mpr hHead
    · intro other asked hQueued
      apply hSettled.control other asked
      rw [hControl]
      rw [hNextControl] at hQueued
      exact List.mem_cons_of_mem _ hQueued

end Session

end WorldDat

------------------------------------------------------------
-- A Thread Without An Owner
------------------------------------------------------------

namespace WorldDat

namespace Session

variable {original : WorkerState}
variable {self next : Session}

/- What work does once the handle has been dropped. -/
inductive Alone (self : Session) : Option Session → Prop where
| panics
    (state : WorkerState)
    (out : Outgoing)
    (rest : List Outgoing)
    (hThread : self.thread = .running state (out :: rest)) :
    Alone self
      (some
        { self with
          control := []
          thread := .panicked (.sending out) })
| handles
    (state : WorkerState)
    (msg : Incoming)
    (waiting : List Incoming)
    (hThread : self.thread = .running state [])
    (hControl : self.control = queued (msg :: waiting)) :
    Alone self
      (some
        { self with
          control := queued waiting
          thread :=
            .running (state.after msg) (state.replies msg)
          handled := self.handled ++ [msg] })
| waits
    (state : WorkerState)
    (hThread : self.thread = .running state [])
    (hControl : self.control = [])
    (hClones : self.clones ≠ 0) :
    Alone self none
| leaves
    (state : WorkerState)
    (hThread : self.thread = .running state [])
    (hControl : self.control = []) :
    Alone self
      (some { self with thread := .left .disconnected })
| ends
    (hThread : self.thread = .left .disconnected)
    (hControl : self.control = []) :
    Alone self
      (some
        { self with
          control := []
          thread := .ended .disconnected })
| ended
    (hThread : self.thread = .ended .disconnected)
    (hControl : self.control = []) :
    Alone self none
| panicked
    (reason : ThreadPanic)
    (hThread : self.thread = .panicked reason) :
    Alone self none

/- Work does one of these, or nothing. -/
theorem alone_work
    (hLife : Life original self)
    (hHandle : self.handle = .dropped) :
    Alone self self.work := by
  rcases hLife.exists_orphaned hHandle with
    ⟨state, unsent, waiting, hThread, hControl, _⟩ |
      ⟨hLeft | hEnded, _, hControl, _⟩ | ⟨out, hThread⟩
  · cases unsent with
    | cons out rest =>
        have hClosed : self.handle.isOpen = false :=
          congrArg HandleState.isOpen hHandle
        rw [work_eq_panic hThread hClosed]
        exact .panics state out rest hThread
    | nil =>
        cases waiting with
        | nil =>
            have hSenders : self.senders = self.clones := by
              unfold senders
              rw [hHandle]
              rfl
            by_cases hClones : self.clones = 0
            · rw [work_eq_disconnect hThread hControl
                (hSenders.trans hClones)]
              exact .leaves state hThread hControl
            · rw [← hSenders] at hClones
              rw [work_eq_none hThread hControl hClones]
              rw [hSenders] at hClones
              exact .waits state hThread hControl hClones
        | cons msg waiting =>
            rw [work_eq_handle hThread hControl]
            exact .handles state msg waiting hThread hControl
  · rw [work_eq_end hLeft]
    exact .ends hLeft hControl
  · rw [work_eq_none_of_closed
      (congrArg ThreadState.isOpen hEnded)]
    exact .ended hEnded hControl
  · rw [work_eq_none_of_closed
      (congrArg ThreadState.isOpen hThread)]
    exact .panicked _ hThread

end Session

end WorldDat

------------------------------------------------------------
-- Safe Steps
------------------------------------------------------------

namespace WorldDat

namespace Session

variable {original : WorkerState}
variable {self next : Session}

/- A worker in its loop is safe unless someone asks it. -/
theorem safe_iff_of_running
    {state : WorkerState}
    {unsent : List Outgoing}
    (hThread : self.thread = .running state unsent) :
    self.Safe ↔ (self.handle = .dropped → self.Settled) := by
  constructor
  · intro hSafe hDropped
    exact (hSafe hDropped).2
  · intro hSettled hDropped
    refine ⟨?_, hSettled hDropped⟩
    intro reason hPanicked
    rw [hThread] at hPanicked
    cases hPanicked

/- A worker that waits for messages is safe. -/
theorem safe_of_waiting
    {state : WorkerState}
    (hThread : self.thread = .running state [])
    (hControl : self.control = []) :
    self.Safe := by
  rw [safe_iff_of_running hThread]
  intro _
  refine ⟨?_, ?_⟩
  · intro other unsent hRunning
    rw [hThread] at hRunning
    cases hRunning
    rfl
  · intro source msg hQueued
    rw [hControl] at hQueued
    cases hQueued

/- So is one that has left its loop for want of them. -/
theorem safe_of_exit
    {exit : Exit}
    (hThread :
      self.thread = .left exit ∨ self.thread = .ended exit)
    (hControl : self.control = []) :
    self.Safe := by
  intro _
  refine ⟨?_, ?_, ?_⟩
  · intro reason hPanicked
    rw [hPanicked] at hThread
    rcases hThread with hLeft | hEnded
    · cases hLeft
    · cases hEnded
  · intro state unsent hRunning
    rw [hRunning] at hThread
    rcases hThread with hLeft | hEnded
    · cases hLeft
    · cases hEnded
  · intro source msg hQueued
    rw [hControl] at hQueued
    cases hQueued

/- Work makes a worker neither safe nor unsafe. -/
theorem safe_work_iff
    (hLife : Life original self)
    (hWork : self.work = some next) :
    next.Safe ↔ self.Safe := by
  by_cases hHandle : self.handle = .dropped
  · have hAlone := alone_work hLife hHandle
    rw [hWork] at hAlone
    cases hAlone with
    | panics state out rest hThread =>
        apply iff_of_false
        · intro hSafe
          exact (hSafe hHandle).1 _ rfl
        · intro hSafe
          have hNone := (hSafe hHandle).2.unsent _ _ hThread
          cases hNone
    | handles state msg waiting hThread hControl =>
        rw [safe_iff_of_running rfl,
          safe_iff_of_running hThread,
          settled_handle_iff hThread hControl rfl rfl]
    | leaves state hThread hControl =>
        apply iff_of_true
        · exact safe_of_exit (Or.inl rfl) hControl
        · exact safe_of_waiting hThread hControl
    | ends hThread hControl =>
        apply iff_of_true
        · exact safe_of_exit (Or.inr rfl) rfl
        · exact safe_of_exit (Or.inl hThread) hControl
  · apply iff_of_true
    · intro hDropped
      rw [handle_work hWork] at hDropped
      exact absurd hDropped hHandle
    · intro hDropped
      exact absurd hDropped hHandle

/- Whoever still has the handle is safe whatever happens. -/
theorem safe_of_handle
    {handle : HandleState}
    (hHandle : self.handle = handle)
    (hKept : handle ≠ .dropped) :
    self.Safe := by
  intro hDropped
  rw [hHandle] at hDropped
  exact absurd hDropped hKept

/- What changes neither thread nor queue is harmless. -/
theorem safe_kept_iff
    {act : Act}
    (hThread : next.thread = self.thread)
    (hHandle : next.handle = self.handle)
    (hControl : next.control = self.control)
    (hHarmless : self.Harmless act) :
    next.Safe ↔ self.Safe ∧ self.Harmless act := by
  rw [and_iff_left hHarmless]
  unfold Safe
  rw [hThread, hHandle]
  constructor
  · intro hSafe hDropped
    rcases hSafe hDropped with ⟨hRuns, hSettled⟩
    exact
      ⟨hRuns, hSettled.congr hThread.symm hControl.symm⟩
  · intro hSafe hDropped
    rcases hSafe hDropped with ⟨hRuns, hSettled⟩
    exact ⟨hRuns, hSettled.congr hThread hControl⟩

/- A worker is safe with a message that asks for nothing. -/
theorem safe_accept_iff
    (source : SocketAddr)
    (msg : Message)
    (hOpen : self.thread.isOpen = true) :
    (self.enqueue (.incoming source msg)).Safe ↔
      self.Safe ∧ self.Harmless (.message source msg) := by
  constructor
  · intro hSafe
    constructor
    · intro hDropped
      rcases hSafe hDropped with ⟨hRuns, hSettled⟩
      rw [settled_enqueue_iff] at hSettled
      exact ⟨hRuns, hSettled.1⟩
    · intro hDropped _
      have hSettled := (hSafe hDropped).2
      rw [settled_enqueue_iff] at hSettled
      exact hSettled.2
  · intro hBoth hDropped
    rcases hBoth with ⟨hSafe, hResponse⟩
    rcases hSafe hDropped with ⟨hRuns, hSettled⟩
    refine ⟨hRuns, ?_⟩
    rw [settled_enqueue_iff]
    exact ⟨hSettled, hResponse hDropped hOpen⟩

/- Dropping the handle is safe when nobody waits. -/
theorem safe_drop_iff
    (hLife : Life original self)
    (hHandle : self.handle = .owned) :
    Safe { self with messages := [], handle := .dropped } ↔
      self.Safe ∧ self.Harmless .drop := by
  rcases hLife.exists_serving hHandle with
    ⟨state, unsent, waiting, hThread, _⟩
  constructor
  · intro hSafe
    refine ⟨safe_of_handle hHandle (by simp), ?_⟩
    exact (hSafe rfl).2.congr rfl rfl
  · intro hBoth _
    refine ⟨?_, Settled.congr hBoth.2 rfl rfl⟩
    intro reason hPanicked
    rw [hThread] at hPanicked
    cases hPanicked

/- A worker stays safe at the harmless acts, and only then. -/
theorem safe_step_iff
    {act : Act}
    (hLife : Life original self)
    (hStep : Step self act next) :
    next.Safe ↔ self.Safe ∧ self.Harmless act := by
  cases hStep with
  | work next hWork =>
      rw [safe_work_iff hLife hWork]
      exact (and_iff_left trivial).symm
  | controller => exact safe_kept_iff rfl rfl rfl trivial
  | clone => exact safe_kept_iff rfl rfl rfl trivial
  | dropClone => exact safe_kept_iff rfl rfl rfl trivial
  | recvMessage => exact safe_kept_iff rfl rfl rfl trivial
  | accept source msg hClones hOpen =>
      exact safe_accept_iff source msg hOpen
  | refuse source msg hClones hClosed =>
      have hHarmless :
          self.Harmless (.message source msg) := by
        intro _ hOpen
        rw [hClosed] at hOpen
        cases hOpen
      exact safe_kept_iff rfl rfl rfl hHarmless
  | drop hHandle => exact safe_drop_iff hLife hHandle
  | quit hHandle =>
      apply iff_of_true
      · exact safe_of_handle rfl (by simp)
      · exact ⟨safe_of_handle hHandle (by simp), trivial⟩
  | quitFailed hHandle =>
      apply iff_of_true
      · exact safe_of_handle rfl (by simp)
      · exact ⟨safe_of_handle hHandle (by simp), trivial⟩
  | join exit hHandle =>
      apply iff_of_true
      · exact safe_of_handle rfl (by simp)
      · exact ⟨safe_of_handle hHandle (by simp), trivial⟩
  | joinFailed reason hHandle =>
      apply iff_of_true
      · exact safe_of_handle rfl (by simp)
      · exact ⟨safe_of_handle hHandle (by simp), trivial⟩

end Session

end WorldDat

------------------------------------------------------------
-- Working Alone
------------------------------------------------------------

namespace WorldDat

namespace Session

variable {original : WorkerState}
variable {self next : Session}

/- How long a worker that cannot send may still work. -/
def backlog (self : Session) : Nat :=
  self.control.length +
    match self.thread with
    | .running _ _ => 2
    | .left _ => 1
    | .ended _ => 0
    | .panicked _ => 0

/- Without an owner, all work makes the backlog smaller. -/
theorem backlog_work
    (hLife : Life original self)
    (hHandle : self.handle = .dropped)
    (hWork : self.work = some next) :
    next.backlog < self.backlog := by
  have hAlone := alone_work hLife hHandle
  rw [hWork] at hAlone
  unfold backlog
  cases hAlone with
  | panics state out rest hThread =>
      rw [hThread]
      exact Nat.succ_pos _
  | handles state msg waiting hThread hControl =>
      rw [hThread, hControl]
      simp [queued]
  | leaves state hThread hControl =>
      rw [hThread]
      exact Nat.lt_succ_self _
  | ends hThread hControl =>
      rw [hThread]
      exact Nat.succ_pos _

/- Why a worker without an owner does not work on. -/
theorem exists_work_of_dropped
    (hLife : Life original self)
    (hHandle : self.handle = .dropped) :
    (∃ next, self.work = some next) ∨
      self.Safe ∧ self.clones ≠ 0 ∨
        self.Safe ∧ self.thread = .ended .disconnected ∨
          ∃ reason, self.thread = .panicked reason := by
  have hAlone := alone_work hLife hHandle
  cases hWork : self.work with
  | some next => exact Or.inl ⟨next, rfl⟩
  | none =>
      rw [hWork] at hAlone
      apply Or.inr
      cases hAlone with
      | waits state hThread hControl hClones =>
          have hSafe := safe_of_waiting hThread hControl
          exact Or.inl ⟨hSafe, hClones⟩
      | ended hThread hControl =>
          have hSafe := safe_of_exit (Or.inr hThread) hControl
          exact Or.inr (Or.inl ⟨hSafe, hThread⟩)
      | panicked reason hThread =>
          exact Or.inr (Or.inr ⟨reason, hThread⟩)

/-
  Working alone, a worker without an owner gets to the point
  where it waits for messages, or has ended, or has panicked.
-/
theorem exists_exec_work
    (hLife : Life original self)
    (hHandle : self.handle = .dropped) :
    ∃ count last,
      self.exec (List.replicate count .work) = some last ∧
        last.handle = .dropped ∧
        last.clones = self.clones ∧
        (last.Safe ↔ self.Safe) ∧
        (last.Safe ∧ last.clones ≠ 0 ∨
          last.Safe ∧ last.thread = .ended .disconnected ∨
            ∃ reason, last.thread = .panicked reason) := by
  have hStep : ∀ session : Session,
      (Life original session ∧ session.handle = .dropped ∧
          session.clones = self.clones ∧
            (session.Safe ↔ self.Safe)) →
        (session.Safe ∧ session.clones ≠ 0 ∨
          session.Safe ∧
              session.thread = .ended .disconnected ∨
            ∃ reason, session.thread = .panicked reason) ∨
          ∃ next, session.step .work = some next ∧
            (Life original next ∧ next.handle = .dropped ∧
                next.clones = self.clones ∧
                  (next.Safe ↔ self.Safe)) ∧
              next.backlog < session.backlog := by
    intro session hInv
    rcases hInv with ⟨hLife, hHandle, hClones, hSafe⟩
    rcases exists_work_of_dropped hLife hHandle with
      ⟨next, hWork⟩ | hStops
    · rcases senders_work hWork with
        ⟨hNextHandle, hNextClones⟩
      rw [hHandle] at hNextHandle
      rw [hClones] at hNextClones
      rw [← safe_work_iff hLife hWork] at hSafe
      exact
        Or.inr
          ⟨next, hWork,
            ⟨life_work hLife hWork, hNextHandle,
              hNextClones, hSafe⟩,
            backlog_work hLife hHandle hWork⟩
    · exact Or.inl hStops
  rcases Machine.exists_exec_replicate backlog Act.work
      hStep ⟨hLife, hHandle, rfl, Iff.rfl⟩ with
    ⟨count, last, hExec, ⟨_, hDropped, hClones, hSafe⟩,
      hStops⟩
  exact
    ⟨count, last, hExec, hDropped, hClones, hSafe, hStops⟩

/- If somebody waits for a reply, the thread panics. -/
theorem exists_panicked_of_not_safe
    (hLife : Life original self)
    (hUnsafe : ¬ self.Safe) :
    ∃ count last,
      self.exec (List.replicate count .work) = some last ∧
        ∃ reason, last.thread = .panicked reason := by
  have hHandle : self.handle = .dropped := by
    by_contra hKept
    exact hUnsafe (safe_of_handle rfl hKept)
  rcases exists_exec_work hLife hHandle with
    ⟨count, last, hExec, _, _, hSafe, hStops⟩
  refine ⟨count, last, hExec, ?_⟩
  rcases hStops with ⟨hLast, _⟩ | ⟨hLast, _⟩ | hPanicked
  · exact absurd (hSafe.mp hLast) hUnsafe
  · exact absurd (hSafe.mp hLast) hUnsafe
  · exact hPanicked

/- If nobody does and nobody can, it ends. -/
theorem exists_ended_of_safe
    (hLife : Life original self)
    (hSafe : self.Safe)
    (hHandle : self.handle = .dropped)
    (hClones : self.clones = 0) :
    ∃ count last,
      self.exec (List.replicate count .work) = some last ∧
        last.thread = .ended .disconnected := by
  rcases exists_exec_work hLife hHandle with
    ⟨count, last, hExec, hDropped, hNone, hSame, hStops⟩
  refine ⟨count, last, hExec, ?_⟩
  rcases hStops with
    ⟨_, hSome⟩ | ⟨_, hEnded⟩ | ⟨reason, hPanicked⟩
  · rw [hNone] at hSome
    exact absurd hClones hSome
  · exact hEnded
  · have hRuns := (hSame.mpr hSafe hDropped).1
    exact absurd hPanicked (hRuns reason)

/- Nobody waits for a reply however long it works. -/
theorem safe_exec_work
    {count : Nat}
    (hLife : Life original self)
    (hSafe : self.Safe)
    (hExec :
      self.exec (List.replicate count .work) = some next) :
    Life original next ∧ next.Safe := by
  apply Machine.exec_invariant_of_mem ?_ hExec
  · exact ⟨hLife, hSafe⟩
  · intro before after act hAct hBefore hStep
    rw [List.eq_of_mem_replicate hAct] at hStep
    rcases hBefore with ⟨hLifeBefore, hSafeBefore⟩
    refine ⟨life_work hLifeBefore hStep, ?_⟩
    rw [safe_work_iff hLifeBefore hStep]
    exact hSafeBefore

end Session

end WorldDat

------------------------------------------------------------
-- Clean Leaving
------------------------------------------------------------

namespace WorldDat

open Rust

namespace Session

variable {original : WorkerState}

/-
  The thread does not panic now or when it works on.  Without
  an owner it still handles what is queued in order, leaves
  its loop only when no sender is left, having handled and
  answered everything, and gets there by itself.
-/
structure LeavesCleanly
    (original : WorkerState)
    (session : Session) : Prop where
  no_panic : ∀ count later,
    session.exec (List.replicate count .work) =
        some later →
      ∀ reason, later.thread ≠ .panicked reason
  in_order : session.handle = .dropped →
    queued session.handled <+: session.accepted
  leaves : session.handle = .dropped →
    (∀ state unsent,
        session.thread ≠ .running state unsent) →
      (session.thread = .left .disconnected ∨
          session.thread = .ended .disconnected) ∧
        session.clones = 0 ∧
        session.accepted = queued session.handled ∧
        session.sent = original.repliesTo session.handled
  ends : session.handle = .dropped → session.clones = 0 →
    ∃ count last,
      session.exec (List.replicate count .work) =
          some last ∧
        last.thread = .ended .disconnected

/- A worker leaves cleanly exactly when it is safe. -/
theorem leavesCleanly_iff_safe
    {session : Session}
    (hLife : Life original session) :
    LeavesCleanly original session ↔ session.Safe := by
  constructor
  · intro hClean
    by_contra hUnsafe
    rcases exists_panicked_of_not_safe hLife hUnsafe with
      ⟨count, last, hExec, reason, hPanicked⟩
    exact hClean.no_panic count last hExec reason hPanicked
  · intro hSafe
    refine ⟨?_, ?_, ?_, ?_⟩
    · intro count later hExec reason hPanicked
      rcases safe_exec_work hLife hSafe hExec with
        ⟨hLater, hSafeLater⟩
      have hDropped := hLater.handle_of_panicked hPanicked
      exact (hSafeLater hDropped).1 reason hPanicked
    · intro hDropped
      rcases hLife.exists_orphaned hDropped with
        ⟨state, unsent, waiting, _, _, hAccepted, _⟩ |
          ⟨_, _, _, hAccepted, _⟩ | ⟨out, hPanicked⟩
      · rw [hAccepted]
        exact List.prefix_append _ _
      · rw [hAccepted]
      · exact absurd hPanicked ((hSafe hDropped).1 _)
    · intro hDropped hOutside
      rcases hLife.exists_orphaned hDropped with
        ⟨state, unsent, waiting, hThread, _⟩ |
          ⟨hThread, hClones, _, hAccepted, hSent⟩ |
            ⟨out, hPanicked⟩
      · exact absurd hThread (hOutside state unsent)
      · exact ⟨hThread, hClones, hAccepted, hSent⟩
      · exact absurd hPanicked ((hSafe hDropped).1 _)
    · intro hDropped hClones
      exact
        exists_ended_of_safe hLife hSafe hDropped hClones

/-
  At the end of a run a worker leaves cleanly exactly when
  every act of the run was harmless.
-/
theorem leaves_cleanly_iff
    (hasher : PeerHasher)
    (peerId : PeerId)
    (addr : SocketAddr)
    {first : Session}
    (hStart : start hasher peerId addr = .ok first)
    {acts : List Act}
    {session : Session}
    (hExec : first.exec acts = some session) :
    LeavesCleanly (.fresh hasher peerId addr) session ↔
      Machine.Along step Harmless first acts := by
  rw [start_eq_ok] at hStart
  cases hStart
  have hSpawned :=
    life_spawn (.fresh hasher peerId addr)
  have hFirst :
      (spawn (.fresh hasher peerId addr)).Safe :=
    safe_of_waiting rfl rfl
  rw [leavesCleanly_iff_safe (life_exec hExec hSpawned),
    Machine.exec_iff_along
      (fun _ _ _ hLife hStep =>
        life_step hLife (step_sound hStep))
      (fun _ _ _ hLife hStep =>
        safe_step_iff hLife (step_sound hStep))
      hExec hSpawned]
  exact and_iff_right hFirst

/- A worker whose owner goes when nothing is left to do. -/
def dropActs : List Act :=
  [.controller,
    .message (.v4 0x0A000002 4433)
      (.pong (PeerId.repeating 2)),
    .drop, .work, .dropClone, .work, .work]

/- A worker whose owner goes while a ping is queued. -/
def deserted : List Act :=
  [.controller,
    .message (.v4 0x0A000002 4433)
      (.ping (PeerId.repeating 2)),
    .drop, .work, .work]

theorem leaves_cleanly_iff_dropActs :
    ∃ session,
      (spawn
          (.fresh (RandomState.insertionOrder _ _)
            (PeerId.repeating 1)
            (.v4 0x0A000001 4433))).exec dropActs =
          some session ∧
        (LeavesCleanly
            (.fresh (RandomState.insertionOrder _ _)
              (PeerId.repeating 1)
              (.v4 0x0A000001 4433))
            session ↔
          Machine.Along step Harmless
            (spawn
              (.fresh (RandomState.insertionOrder _ _)
                (PeerId.repeating 1)
                (.v4 0x0A000001 4433)))
            dropActs) := by
  refine ⟨_, rfl, ?_⟩
  exact leaves_cleanly_iff _ _ _ (start_eq_ok _ _ _) rfl

/- The pong that it asks for cannot be sent. -/
theorem deserted_panics :
    ∃ session,
      (spawn
          (.fresh (RandomState.insertionOrder _ _)
            (PeerId.repeating 1)
            (.v4 0x0A000001 4433))).exec deserted =
          some session ∧
        session.thread =
            .panicked
              (.sending
                (.v4 0x0A000002 4433,
                  .pong (PeerId.repeating 1))) ∧
          ¬ LeavesCleanly
            (.fresh (RandomState.insertionOrder _ _)
              (PeerId.repeating 1)
              (.v4 0x0A000001 4433))
            session := by
  refine ⟨_, rfl, rfl, ?_⟩
  intro hClean
  exact hClean.no_panic 0 _ rfl _ rfl

end Session

end WorldDat
