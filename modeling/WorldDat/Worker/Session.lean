import WorldDat.Machine.Execution
import WorldDat.Worker.Basic

/-
  The life of a worker's thread (`worker.rs`): the thread, the
  `WorkerHandle` of its owner, and the clones of
  `WorkerMessageHandle` that send it messages.

  A step is one operation on a channel or on the thread.  The
  channels are queues; sending to a channel fails once its
  receiver is gone, and receiving fails once the queue is
  empty and all senders are gone.

  A session keeps a record of what has been queued, handled
  and sent.  No step depends on it.

  Main declarations:
    * `Session` and `Session.step`
    * `Session.Step` and `Session.step_sound`
    * `Session.Life`
    * `Session.life_step` and `Session.life_exec`
-/

------------------------------------------------------------
-- Sessions
------------------------------------------------------------

namespace WorldDat

open Rust

/-
  What has become of a `WorkerHandle`: its owner has it, or
  waits in `quit` for the thread to end, or `quit` returned
  or panicked, or the owner has dropped it.
-/
inductive HandleState where
| owned
| joining
| returned (result : Except WorkerMessage Unit)
| panicked
| dropped

/- Both channels of the handle are still open. -/
def HandleState.isOpen : HandleState → Bool
| .owned => true
| .joining => true
| .returned _ => false
| .panicked => false
| .dropped => false

/- The branch through which a thread leaves its loop. -/
inductive Exit where
| quit
| disconnected
deriving DecidableEq

/- Why a thread panics: an operation, or `expect("FIXME")`. -/
inductive ThreadPanic where
| handling (panic : Panic)
| sending (out : Outgoing)

/-
  A thread is in its loop, with replies that it has not sent
  yet, or has left the loop, or has ended, or panicked.
-/
inductive ThreadState where
| running (state : WorkerState) (unsent : List Outgoing)
| left (exit : Exit)
| ended (exit : Exit)
| panicked (reason : ThreadPanic)

/- The thread still has the receiver of its control channel. -/
def ThreadState.isOpen : ThreadState → Bool
| .running _ _ => true
| .left _ => true
| .ended _ => false
| .panicked _ => false

/- A worker's thread, its handle and its two channels. -/
structure Session where
  control : List WorkerMessage
  messages : List Outgoing
  thread : ThreadState
  handle : HandleState
  clones : Nat
  accepted : List WorkerMessage
  handled : List Incoming
  sent : List Outgoing

/- What may happen next, and who does it. -/
inductive Act where
| controller
| clone
| dropClone
| message (source : SocketAddr) (msg : Message)
| recvMessage
| work
| quit
| join
| drop
deriving DecidableEq

namespace Session

/- A session right after its thread has been spawned. -/
def spawn (state : WorkerState) : Session where
  control := []
  messages := []
  thread := .running state []
  handle := .owned
  clones := 0
  accepted := []
  handled := []
  sent := []

/- `WorkerState::start`. -/
def start
    (hasher : PeerHasher)
    (peerId : PeerId)
    (addr : SocketAddr) : Except Panic Session := do
  let state ← WorkerState.start hasher peerId addr
  return spawn state

/- The number of senders of the control channel. -/
def senders (self : Session) : Nat :=
  self.clones + if self.handle.isOpen then 1 else 0

/- Put a message into the control channel. -/
def enqueue
    (self : Session)
    (msg : WorkerMessage) : Session :=
  { self with
    control := self.control ++ [msg]
    accepted := self.accepted ++ [msg] }

/- `WorkerHandle::controller`. -/
def controller (self : Session) : Option Session :=
  match self.handle with
  | .owned => some { self with clones := self.clones + 1 }
  | .joining => none
  | .returned _ => none
  | .panicked => none
  | .dropped => none

/- Clone a `WorkerMessageHandle`. -/
def clone (self : Session) : Option Session :=
  if 0 < self.clones then
    some { self with clones := self.clones + 1 }
  else
    none

/- Drop a `WorkerMessageHandle`. -/
def dropClone (self : Session) : Option Session :=
  if 0 < self.clones then
    some { self with clones := self.clones - 1 }
  else
    none

/- `WorkerMessageHandle::message`; it fails without effect. -/
def message
    (self : Session)
    (source : SocketAddr)
    (msg : Message) : Option Session :=
  if 0 < self.clones then
    if self.thread.isOpen then
      some (self.enqueue (.incoming source msg))
    else
      some self
  else
    none

/- `WorkerHandle::recv_message`; it does not block. -/
def recvMessage (self : Session) : Option Session :=
  match self.handle with
  | .owned =>
      some { self with messages := self.messages.drop 1 }
  | .joining => none
  | .returned _ => none
  | .panicked => none
  | .dropped => none

/- `WorkerState::send`. -/
def send
    (self : Session)
    (state : WorkerState)
    (out : Outgoing)
    (rest : List Outgoing) : Session :=
  if self.handle.isOpen then
    { self with
      thread := .running state rest
      messages := self.messages ++ [out]
      sent := self.sent ++ [out] }
  else
    -- "FIXME"
    { self with
      control := []
      thread := .panicked (.sending out) }

/- The loop of `run` receives from the control channel. -/
def receive
    (self : Session)
    (state : WorkerState) : Option Session :=
  match self.control with
  | [] =>
      if self.senders = 0 then
        -- Sender is gone.
        some { self with thread := .left .disconnected }
      else
        none
  | .quit :: rest =>
      some
        { self with
          control := rest
          thread := .left .quit }
  | .incoming addr msg :: rest =>
      match state.handle addr msg with
      | .error panic =>
          some
            { self with
              control := []
              thread := .panicked (.handling panic) }
      | .ok (state, outgoing) =>
          some
            { self with
              control := rest
              thread := .running state outgoing
              handled := self.handled ++ [(addr, msg)] }

/- The thread sends a reply, receives, or ends. -/
def work (self : Session) : Option Session :=
  match self.thread with
  | .running state (out :: rest) =>
      some (self.send state out rest)
  | .running state [] => self.receive state
  | .left exit =>
      -- dropping the state drops what is still queued
      some { self with control := [], thread := .ended exit }
  | .ended _ => none
  | .panicked _ => none

/- `WorkerHandle::quit`, up to `join`. -/
def quit (self : Session) : Option Session :=
  match self.handle with
  | .owned =>
      if self.thread.isOpen then
        some
          { self.enqueue .quit with handle := .joining }
      else
        some
          { self with
            messages := []
            handle := .returned (.error .quit) }
  | .joining => none
  | .returned _ => none
  | .panicked => none
  | .dropped => none

/- `join` returns once the thread has ended. -/
def join (self : Session) : Option Session :=
  match self.handle with
  | .joining =>
      match self.thread with
      | .running _ _ => none
      | .left _ => none
      | .ended _ =>
          some
            { self with
              messages := []
              handle := .returned (.ok ()) }
      | .panicked _ =>
          -- "TODO"
          some
            { self with
              messages := []
              handle := .panicked }
  | .owned => none
  | .returned _ => none
  | .panicked => none
  | .dropped => none

/-
  Drop the handle, with its sender and its receiver.  What
  the thread does between the two, it does before or after.
-/
def drop (self : Session) : Option Session :=
  match self.handle with
  | .owned =>
      some { self with messages := [], handle := .dropped }
  | .joining => none
  | .returned _ => none
  | .panicked => none
  | .dropped => none

/- What happens at an act, if it is enabled. -/
def step
    (self : Session) :
    Act → Option Session
| .controller => self.controller
| .clone => self.clone
| .dropClone => self.dropClone
| .message source msg => self.message source msg
| .recvMessage => self.recvMessage
| .work => self.work
| .quit => self.quit
| .join => self.join
| .drop => self.drop

/- Run a session through a list of acts. -/
def exec
    (self : Session)
    (acts : List Act) : Option Session :=
  Machine.exec step self acts

/- Starting a session never panics. -/
theorem start_eq_ok
    (hasher : PeerHasher)
    (peerId : PeerId)
    (addr : SocketAddr) :
    start hasher peerId addr =
      .ok (spawn (.fresh hasher peerId addr)) := by
  unfold start
  rw [WorkerState.start_eq_ok]
  rfl

end Session

end WorldDat

------------------------------------------------------------
-- What An Act Does
------------------------------------------------------------

namespace WorldDat

namespace Session

/- The twelve things that can happen at an act. -/
inductive Step (self : Session) : Act → Session → Prop where
| work
    (next : Session)
    (hWork : self.work = some next) :
    Step self .work next
| controller (hHandle : self.handle = .owned) :
    Step self .controller
      { self with clones := self.clones + 1 }
| clone (hClones : 0 < self.clones) :
    Step self .clone { self with clones := self.clones + 1 }
| dropClone (hClones : 0 < self.clones) :
    Step self .dropClone
      { self with clones := self.clones - 1 }
| accept
    (source : SocketAddr)
    (msg : Message)
    (hClones : 0 < self.clones)
    (hOpen : self.thread.isOpen = true) :
    Step self (.message source msg)
      (self.enqueue (.incoming source msg))
| refuse
    (source : SocketAddr)
    (msg : Message)
    (hClones : 0 < self.clones)
    (hClosed : self.thread.isOpen = false) :
    Step self (.message source msg) self
| recvMessage (hHandle : self.handle = .owned) :
    Step self .recvMessage
      { self with messages := self.messages.drop 1 }
| quit
    (hHandle : self.handle = .owned)
    (hOpen : self.thread.isOpen = true) :
    Step self .quit
      { self.enqueue .quit with handle := .joining }
| quitFailed
    (hHandle : self.handle = .owned)
    (hClosed : self.thread.isOpen = false) :
    Step self .quit
      { self with
        messages := []
        handle := .returned (.error .quit) }
| join
    (exit : Exit)
    (hHandle : self.handle = .joining)
    (hThread : self.thread = .ended exit) :
    Step self .join
      { self with
        messages := []
        handle := .returned (.ok ()) }
| joinFailed
    (reason : ThreadPanic)
    (hHandle : self.handle = .joining)
    (hThread : self.thread = .panicked reason) :
    Step self .join
      { self with messages := [], handle := .panicked }
| drop (hHandle : self.handle = .owned) :
    Step self .drop
      { self with messages := [], handle := .dropped }

variable {self next : Session}

/- A message is accepted or refused. -/
theorem message_sound
    {source : SocketAddr}
    {msg : Message}
    (hMessage : self.message source msg = some next) :
    Step self (.message source msg) next := by
  unfold message at hMessage
  split at hMessage
  · rename_i hClones
    split at hMessage
    · rename_i hOpen
      cases hMessage
      exact .accept source msg hClones hOpen
    · rename_i hClosed
      cases hMessage
      rw [Bool.not_eq_true] at hClosed
      exact .refuse source msg hClones hClosed
  · cases hMessage

/- What the owner does with the handle, if it has it. -/
theorem quit_sound
    (hQuit : self.quit = some next) :
    Step self .quit next := by
  unfold quit at hQuit
  split at hQuit
  · rename_i hHandle
    split at hQuit
    · rename_i hOpen
      cases hQuit
      exact .quit hHandle hOpen
    · rename_i hClosed
      cases hQuit
      rw [Bool.not_eq_true] at hClosed
      exact .quitFailed hHandle hClosed
  all_goals cases hQuit

/- The owner gets the thread's end or its panic. -/
theorem join_sound
    (hJoin : self.join = some next) :
    Step self .join next := by
  unfold join at hJoin
  split at hJoin
  · rename_i hHandle
    split at hJoin
    · cases hJoin
    · cases hJoin
    · rename_i exit hThread
      cases hJoin
      exact .join exit hHandle hThread
    · rename_i reason hThread
      cases hJoin
      exact .joinFailed reason hHandle hThread
  all_goals cases hJoin

/- An act does one of the twelve things. -/
theorem step_sound
    {act : Act}
    (hStep : self.step act = some next) :
    Step self act next := by
  cases act with
  | controller =>
      change self.controller = some next at hStep
      unfold controller at hStep
      split at hStep
      · rename_i hHandle
        cases hStep
        exact .controller hHandle
      all_goals cases hStep
  | clone =>
      change self.clone = some next at hStep
      unfold clone at hStep
      split at hStep
      · rename_i hClones
        cases hStep
        exact .clone hClones
      · cases hStep
  | dropClone =>
      change self.dropClone = some next at hStep
      unfold dropClone at hStep
      split at hStep
      · rename_i hClones
        cases hStep
        exact .dropClone hClones
      · cases hStep
  | message source msg => exact message_sound hStep
  | recvMessage =>
      change self.recvMessage = some next at hStep
      unfold recvMessage at hStep
      split at hStep
      · rename_i hHandle
        cases hStep
        exact .recvMessage hHandle
      all_goals cases hStep
  | work => exact .work next hStep
  | quit => exact quit_sound hStep
  | join => exact join_sound hStep
  | drop =>
      change self.drop = some next at hStep
      unfold drop at hStep
      split at hStep
      · rename_i hHandle
        cases hStep
        exact .drop hHandle
      all_goals cases hStep

end Session

end WorldDat

------------------------------------------------------------
-- What The Thread Does
------------------------------------------------------------

namespace WorldDat

namespace Session

variable {self : Session}
variable {state : WorkerState}
variable {out : Outgoing}
variable {rest : List Outgoing}

/- A reply goes into a channel that is still open. -/
theorem work_eq_send
    (hThread : self.thread = .running state (out :: rest))
    (hOpen : self.handle.isOpen = true) :
    self.work =
      some
        { self with
          thread := .running state rest
          messages := self.messages ++ [out]
          sent := self.sent ++ [out] } := by
  unfold work
  rw [hThread]
  dsimp only
  rw [send, if_pos hOpen]

/- The thread panics on a reply that nobody can receive. -/
theorem work_eq_panic
    (hThread : self.thread = .running state (out :: rest))
    (hClosed : self.handle.isOpen = false) :
    self.work =
      some
        { self with
          control := []
          thread := .panicked (.sending out) } := by
  unfold work
  rw [hThread]
  dsimp only
  rw [send, hClosed]
  rfl

/- An incoming message is handled without a panic. -/
theorem work_eq_handle
    (hThread : self.thread = .running state [])
    {addr : SocketAddr}
    {msg : Message}
    {later : List WorkerMessage}
    (hControl : self.control = .incoming addr msg :: later) :
    self.work =
      some
        { self with
          control := later
          thread :=
            .running (state.after (addr, msg))
              (state.replies (addr, msg))
          handled := self.handled ++ [(addr, msg)] } := by
  unfold work
  rw [hThread]
  dsimp only
  rw [receive, hControl]
  dsimp only
  rw [WorkerState.handle_eq_ok]

theorem work_eq_quit
    (hThread : self.thread = .running state [])
    {later : List WorkerMessage}
    (hControl : self.control = .quit :: later) :
    self.work =
      some
        { self with
          control := later
          thread := .left .quit } := by
  unfold work
  rw [hThread]
  dsimp only
  rw [receive, hControl]

/- The loop ends when there is nothing more to come. -/
theorem work_eq_disconnect
    (hThread : self.thread = .running state [])
    (hControl : self.control = [])
    (hSenders : self.senders = 0) :
    self.work =
      some { self with thread := .left .disconnected } := by
  unfold work
  rw [hThread]
  dsimp only
  rw [receive, hControl]
  dsimp only
  rw [if_pos hSenders]

/- Until then the thread waits. -/
theorem work_eq_none
    (hThread : self.thread = .running state [])
    (hControl : self.control = [])
    (hSenders : self.senders ≠ 0) :
    self.work = none := by
  unfold work
  rw [hThread]
  dsimp only
  rw [receive, hControl]
  dsimp only
  rw [if_neg hSenders]

theorem work_eq_end
    {exit : Exit}
    (hThread : self.thread = .left exit) :
    self.work =
      some
        { self with
          control := []
          thread := .ended exit } := by
  unfold work
  rw [hThread]

/- A thread that is gone does not work. -/
theorem work_eq_none_of_closed
    (hClosed : self.thread.isOpen = false) :
    self.work = none := by
  unfold work
  split
  · rename_i hThread
    rw [hThread] at hClosed
    cases hClosed
  · rename_i hThread
    rw [hThread] at hClosed
    cases hClosed
  · rename_i hThread
    rw [hThread] at hClosed
    cases hClosed
  · rfl
  · rfl

/- A handle that is open counts as a sender. -/
theorem senders_ne_zero
    (hOpen : self.handle.isOpen = true) :
    self.senders ≠ 0 := by
  unfold senders
  rw [if_pos hOpen]
  omega

end Session

end WorldDat

------------------------------------------------------------
-- The Life Of A Worker
------------------------------------------------------------

namespace WorldDat

namespace Session

/- Incoming messages as they are queued. -/
def queued (msgs : List Incoming) : List WorkerMessage :=
  msgs.map fun (source, msg) => .incoming source msg

/- The state and the replies are those of what was handled. -/
structure Serves
    (original : WorkerState)
    (session : Session)
    (state : WorkerState)
    (unsent : List Outgoing) : Prop where
  state_eq : state = original.afterAll session.handled
  replies :
    session.sent ++ unsent =
      original.repliesTo session.handled

/-
  The stages in the life of a worker.  It serves its owner,
  until the owner quits it, and it closes and is closed, or
  until the owner drops the handle, and it is orphaned, and
  then finishes or crashes.
-/
inductive Life
    (original : WorkerState)
    (session : Session) : Prop where
| serving
    (state : WorkerState)
    (unsent : List Outgoing)
    (waiting : List Incoming)
    (hThread : session.thread = .running state unsent)
    (hHandle : session.handle = .owned)
    (hControl : session.control = queued waiting)
    (hAccepted :
      session.accepted =
        queued session.handled ++ queued waiting)
    (hServes : Serves original session state unsent)
| closing
    (state : WorkerState)
    (unsent : List Outgoing)
    (waiting later : List Incoming)
    (hThread : session.thread = .running state unsent)
    (hHandle : session.handle = .joining)
    (hControl :
      session.control =
        queued waiting ++ .quit :: queued later)
    (hAccepted :
      session.accepted =
        queued session.handled ++
          (queued waiting ++ .quit :: queued later))
    (hServes : Serves original session state unsent)
| closed
    (later : List Incoming)
    (hThread :
      session.thread = .left .quit ∧
          session.handle = .joining ∨
        session.thread = .ended .quit ∧
          (session.handle = .joining ∨
            session.handle = .returned (.ok ())))
    (hAccepted :
      session.accepted =
        queued session.handled ++ .quit :: queued later)
    (hSent :
      session.sent = original.repliesTo session.handled)
| orphaned
    (state : WorkerState)
    (unsent : List Outgoing)
    (waiting : List Incoming)
    (hThread : session.thread = .running state unsent)
    (hHandle : session.handle = .dropped)
    (hControl : session.control = queued waiting)
    (hAccepted :
      session.accepted =
        queued session.handled ++ queued waiting)
    (hServes : Serves original session state unsent)
| finished
    (hThread :
      session.thread = .left .disconnected ∨
        session.thread = .ended .disconnected)
    (hHandle : session.handle = .dropped)
    (hClones : session.clones = 0)
    (hControl : session.control = [])
    (hAccepted :
      session.accepted = queued session.handled)
    (hSent :
      session.sent = original.repliesTo session.handled)
| crashed
    (out : Outgoing)
    (hThread : session.thread = .panicked (.sending out))
    (hHandle : session.handle = .dropped)

variable {original : WorkerState}
variable {self next : Session}

/- Sending a reply is part of the service. -/
theorem Serves.send
    {state : WorkerState}
    {out : Outgoing}
    {rest : List Outgoing}
    (hServes : Serves original self state (out :: rest))
    (hHandled : next.handled = self.handled)
    (hSent : next.sent = self.sent ++ [out]) :
    Serves original next state rest where
  state_eq := by
    rw [hHandled]
    exact hServes.state_eq
  replies := by
    rw [hSent, hHandled, ← hServes.replies]
    simp

/- So is handling the next message. -/
theorem Serves.handle
    {state : WorkerState}
    {msg : Incoming}
    (hServes : Serves original self state [])
    (hHandled : next.handled = self.handled ++ [msg])
    (hSent : next.sent = self.sent) :
    Serves original next (state.after msg)
      (state.replies msg) where
  state_eq := by
    rw [hHandled, WorkerState.afterAll_concat,
      ← hServes.state_eq]
  replies := by
    have hReplies := hServes.replies
    rw [List.append_nil] at hReplies
    rw [hHandled, hSent, WorkerState.repliesTo_concat,
      ← hServes.state_eq, hReplies]

/- A worker leads this life when it works. -/
theorem life_work
    (hLife : Life original self)
    (hWork : self.work = some next) :
    Life original next := by
  cases hLife with
  | serving state unsent waiting hThread hHandle hControl
      hAccepted hServes =>
      have hOpen : self.handle.isOpen = true :=
        congrArg HandleState.isOpen hHandle
      cases unsent with
      | cons out rest =>
          rw [work_eq_send hThread hOpen] at hWork
          cases hWork
          exact
            .serving state rest waiting rfl hHandle hControl
              hAccepted (hServes.send rfl rfl)
      | nil =>
          cases waiting with
          | nil =>
              rw [work_eq_none hThread hControl
                (senders_ne_zero hOpen)] at hWork
              cases hWork
          | cons msg waiting =>
              rw [work_eq_handle hThread hControl] at hWork
              cases hWork
              refine
                .serving _ _ waiting rfl hHandle rfl ?_
                  (hServes.handle rfl rfl)
              rw [hAccepted]
              simp [queued]
  | closing state unsent waiting later hThread hHandle
      hControl hAccepted hServes =>
      have hOpen : self.handle.isOpen = true :=
        congrArg HandleState.isOpen hHandle
      cases unsent with
      | cons out rest =>
          rw [work_eq_send hThread hOpen] at hWork
          cases hWork
          exact
            .closing state rest waiting later rfl hHandle
              hControl hAccepted (hServes.send rfl rfl)
      | nil =>
          cases waiting with
          | nil =>
              rw [work_eq_quit hThread hControl] at hWork
              cases hWork
              have hReplies := hServes.replies
              rw [List.append_nil] at hReplies
              exact
                .closed later (Or.inl ⟨rfl, hHandle⟩)
                  hAccepted hReplies
          | cons msg waiting =>
              rw [work_eq_handle hThread hControl] at hWork
              cases hWork
              refine
                .closing _ _ waiting later rfl hHandle rfl
                  ?_ (hServes.handle rfl rfl)
              rw [hAccepted]
              simp [queued]
  | closed later hThread hAccepted hSent =>
      rcases hThread with
        ⟨hLeft, hHandle⟩ | ⟨hEnded, _⟩
      · rw [work_eq_end hLeft] at hWork
        cases hWork
        exact
          .closed later (Or.inr ⟨rfl, Or.inl hHandle⟩)
            hAccepted hSent
      · have hGone :=
          congrArg ThreadState.isOpen hEnded
        rw [work_eq_none_of_closed hGone] at hWork
        cases hWork
  | orphaned state unsent waiting hThread hHandle hControl
      hAccepted hServes =>
      have hClosed : self.handle.isOpen = false :=
        congrArg HandleState.isOpen hHandle
      cases unsent with
      | cons out rest =>
          rw [work_eq_panic hThread hClosed] at hWork
          cases hWork
          exact .crashed out rfl hHandle
      | nil =>
          cases waiting with
          | nil =>
              by_cases hSenders : self.senders = 0
              · rw [work_eq_disconnect hThread hControl
                  hSenders] at hWork
                cases hWork
                have hNone : self.clones = 0 := by
                  unfold senders at hSenders
                  omega
                have hReplies := hServes.replies
                rw [List.append_nil] at hReplies
                refine
                  .finished (Or.inl rfl) hHandle hNone
                    hControl ?_ hReplies
                rw [hAccepted]
                exact List.append_nil _
              · rw [work_eq_none hThread hControl hSenders]
                  at hWork
                cases hWork
          | cons msg waiting =>
              rw [work_eq_handle hThread hControl] at hWork
              cases hWork
              refine
                .orphaned _ _ waiting rfl hHandle rfl ?_
                  (hServes.handle rfl rfl)
              rw [hAccepted]
              simp [queued]
  | finished hThread hHandle hClones hControl hAccepted
      hSent =>
      rcases hThread with hLeft | hEnded
      · rw [work_eq_end hLeft] at hWork
        cases hWork
        exact
          .finished (Or.inr rfl) hHandle hClones rfl
            hAccepted hSent
      · have hGone :=
          congrArg ThreadState.isOpen hEnded
        rw [work_eq_none_of_closed hGone] at hWork
        cases hWork
  | crashed out hThread hHandle =>
      have hGone :=
        congrArg ThreadState.isOpen hThread
      rw [work_eq_none_of_closed hGone] at hWork
      cases hWork

end Session

end WorldDat

------------------------------------------------------------
-- What The Others Do
------------------------------------------------------------

namespace WorldDat

namespace Session

variable {original : WorkerState}
variable {self next : Session}

/- Clones come and go, and replies are received. -/
theorem life_congr
    (hLife : Life original self)
    (hThread : next.thread = self.thread)
    (hHandle : next.handle = self.handle)
    (hControl : next.control = self.control)
    (hAccepted : next.accepted = self.accepted)
    (hHandled : next.handled = self.handled)
    (hSent : next.sent = self.sent)
    (hClones : self.handle = .dropped →
      self.clones = 0 → next.clones = 0) :
    Life original next := by
  have hServes : ∀ state unsent,
      Serves original self state unsent →
        Serves original next state unsent := by
    intro state unsent hServes
    refine ⟨?_, ?_⟩
    · rw [hHandled]
      exact hServes.state_eq
    · rw [hSent, hHandled]
      exact hServes.replies
  cases hLife with
  | serving state unsent waiting hThread' hHandle' hControl'
      hAccepted' hServes' =>
      rw [← hThread] at hThread'
      rw [← hHandle] at hHandle'
      rw [← hControl] at hControl'
      rw [← hAccepted, ← hHandled] at hAccepted'
      exact
        .serving state unsent waiting hThread' hHandle'
          hControl' hAccepted' (hServes _ _ hServes')
  | closing state unsent waiting later hThread' hHandle'
      hControl' hAccepted' hServes' =>
      rw [← hThread] at hThread'
      rw [← hHandle] at hHandle'
      rw [← hControl] at hControl'
      rw [← hAccepted, ← hHandled] at hAccepted'
      exact
        .closing state unsent waiting later hThread' hHandle'
          hControl' hAccepted' (hServes _ _ hServes')
  | closed later hThread' hAccepted' hSent' =>
      rw [← hThread, ← hHandle] at hThread'
      rw [← hAccepted, ← hHandled] at hAccepted'
      rw [← hSent, ← hHandled] at hSent'
      exact .closed later hThread' hAccepted' hSent'
  | orphaned state unsent waiting hThread' hHandle'
      hControl' hAccepted' hServes' =>
      rw [← hThread] at hThread'
      rw [← hHandle] at hHandle'
      rw [← hControl] at hControl'
      rw [← hAccepted, ← hHandled] at hAccepted'
      exact
        .orphaned state unsent waiting hThread' hHandle'
          hControl' hAccepted' (hServes _ _ hServes')
  | finished hThread' hHandle' hClones' hControl' hAccepted'
      hSent' =>
      have hNone := hClones hHandle' hClones'
      rw [← hThread] at hThread'
      rw [← hHandle] at hHandle'
      rw [← hControl] at hControl'
      rw [← hAccepted, ← hHandled] at hAccepted'
      rw [← hSent, ← hHandled] at hSent'
      exact
        .finished hThread' hHandle' hNone hControl'
          hAccepted' hSent'
  | crashed out hThread' hHandle' =>
      rw [← hThread] at hThread'
      rw [← hHandle] at hHandle'
      exact .crashed out hThread' hHandle'

/- A message joins those that wait. -/
theorem life_accept
    (hLife : Life original self)
    (source : SocketAddr)
    (msg : Message)
    (hClones : 0 < self.clones)
    (hOpen : self.thread.isOpen = true) :
    Life original
      (self.enqueue (.incoming source msg)) := by
  cases hLife with
  | serving state unsent waiting hThread hHandle hControl
      hAccepted hServes =>
      refine
        .serving state unsent (waiting ++ [(source, msg)])
          hThread hHandle ?_ ?_
          ⟨hServes.state_eq, hServes.replies⟩
      · simp [enqueue, hControl, queued]
      · simp [enqueue, hAccepted, queued]
  | closing state unsent waiting later hThread hHandle
      hControl hAccepted hServes =>
      refine
        .closing state unsent waiting
          (later ++ [(source, msg)]) hThread hHandle ?_
          ?_ ⟨hServes.state_eq, hServes.replies⟩
      · simp [enqueue, hControl, queued]
      · simp [enqueue, hAccepted, queued]
  | closed later hThread hAccepted hSent =>
      refine
        .closed (later ++ [(source, msg)]) hThread ?_ hSent
      simp [enqueue, hAccepted, queued]
  | orphaned state unsent waiting hThread hHandle hControl
      hAccepted hServes =>
      refine
        .orphaned state unsent (waiting ++ [(source, msg)])
          hThread hHandle ?_ ?_
          ⟨hServes.state_eq, hServes.replies⟩
      · simp [enqueue, hControl, queued]
      · simp [enqueue, hAccepted, queued]
  | finished hThread hHandle hNone => omega
  | crashed out hThread hHandle =>
      rw [hThread] at hOpen
      cases hOpen

/- While the owner has the handle, the worker serves it. -/
theorem Life.exists_serving
    (hLife : Life original self)
    (hHandle : self.handle = .owned) :
    ∃ state unsent waiting,
      self.thread = .running state unsent ∧
        self.control = queued waiting ∧
        self.accepted =
          queued self.handled ++ queued waiting ∧
        Serves original self state unsent := by
  cases hLife with
  | serving state unsent waiting hThread _ hControl
      hAccepted hServes =>
      exact
        ⟨state, unsent, waiting, hThread, hControl,
          hAccepted, hServes⟩
  | closing state unsent waiting later hThread hOther =>
      rw [hHandle] at hOther
      cases hOther
  | closed later hThread =>
      rcases hThread with
        ⟨_, hOther⟩ | ⟨_, hOther | hOther⟩
      · rw [hHandle] at hOther
        cases hOther
      · rw [hHandle] at hOther
        cases hOther
      · rw [hHandle] at hOther
        cases hOther
  | orphaned state unsent waiting hThread hOther =>
      rw [hHandle] at hOther
      cases hOther
  | finished hThread hOther =>
      rw [hHandle] at hOther
      cases hOther
  | crashed out hThread hOther =>
      rw [hHandle] at hOther
      cases hOther

/- While the owner waits in `quit`, the worker closes. -/
theorem Life.exists_closing
    (hLife : Life original self)
    (hHandle : self.handle = .joining) :
    (∃ state unsent waiting later,
      self.thread = .running state unsent ∧
        self.control =
          queued waiting ++ .quit :: queued later ∧
        self.accepted =
          queued self.handled ++
            (queued waiting ++ .quit :: queued later) ∧
        Serves original self state unsent) ∨
      ∃ later,
        (self.thread = .left .quit ∨
            self.thread = .ended .quit) ∧
          self.accepted =
            queued self.handled ++ .quit :: queued later ∧
          self.sent = original.repliesTo self.handled := by
  cases hLife with
  | closing state unsent waiting later hThread _ hControl
      hAccepted hServes =>
      exact
        Or.inl
          ⟨state, unsent, waiting, later, hThread, hControl,
            hAccepted, hServes⟩
  | closed later hThread hAccepted hSent =>
      refine Or.inr ⟨later, ?_, hAccepted, hSent⟩
      rcases hThread with ⟨hLeft, _⟩ | ⟨hEnded, _⟩
      · exact Or.inl hLeft
      · exact Or.inr hEnded
  | serving state unsent waiting hThread hOther =>
      rw [hHandle] at hOther
      cases hOther
  | orphaned state unsent waiting hThread hOther =>
      rw [hHandle] at hOther
      cases hOther
  | finished hThread hOther =>
      rw [hHandle] at hOther
      cases hOther
  | crashed out hThread hOther =>
      rw [hHandle] at hOther
      cases hOther

/- Only a worker without an owner ever panics. -/
theorem Life.handle_of_panicked
    (hLife : Life original self)
    {reason : ThreadPanic}
    (hPanicked : self.thread = .panicked reason) :
    self.handle = .dropped := by
  cases hLife with
  | crashed out hThread hHandle => exact hHandle
  | orphaned state unsent waiting hThread hHandle =>
      exact hHandle
  | finished hThread hHandle => exact hHandle
  | serving state unsent waiting hThread =>
      rw [hPanicked] at hThread
      cases hThread
  | closing state unsent waiting later hThread =>
      rw [hPanicked] at hThread
      cases hThread
  | closed later hThread =>
      rw [hPanicked] at hThread
      rcases hThread with ⟨hLeft, _⟩ | ⟨hEnded, _⟩
      · cases hLeft
      · cases hEnded

/- `quit` has not panicked and has returned nothing but Ok. -/
theorem Life.handle_cases
    (hLife : Life original self) :
    self.handle = .owned ∨ self.handle = .joining ∨
      self.handle = .returned (.ok ()) ∨
        self.handle = .dropped := by
  cases hLife with
  | serving state unsent waiting hThread hHandle =>
      exact Or.inl hHandle
  | closing state unsent waiting later hThread hHandle =>
      exact Or.inr (Or.inl hHandle)
  | closed later hThread =>
      rcases hThread with
        ⟨_, hHandle⟩ | ⟨_, hHandle | hHandle⟩
      · exact Or.inr (Or.inl hHandle)
      · exact Or.inr (Or.inl hHandle)
      · exact Or.inr (Or.inr (Or.inl hHandle))
  | orphaned state unsent waiting hThread hHandle =>
      exact Or.inr (Or.inr (Or.inr hHandle))
  | finished hThread hHandle =>
      exact Or.inr (Or.inr (Or.inr hHandle))
  | crashed out hThread hHandle =>
      exact Or.inr (Or.inr (Or.inr hHandle))

/- The thread touches neither the handle nor the clones. -/
theorem senders_work
    (hWork : self.work = some next) :
    next.handle = self.handle ∧
      next.clones = self.clones := by
  unfold work at hWork
  split at hWork
  · cases hWork
    unfold send
    split
    · exact ⟨rfl, rfl⟩
    · exact ⟨rfl, rfl⟩
  · unfold receive at hWork
    split at hWork
    · split at hWork
      · cases hWork
        exact ⟨rfl, rfl⟩
      · cases hWork
    · cases hWork
      exact ⟨rfl, rfl⟩
    · rw [WorkerState.handle_eq_ok] at hWork
      cases hWork
      exact ⟨rfl, rfl⟩
  · cases hWork
    exact ⟨rfl, rfl⟩
  all_goals cases hWork

theorem handle_work
    (hWork : self.work = some next) :
    next.handle = self.handle :=
  (senders_work hWork).1

/- Whatever happens, a worker leads this life. -/
theorem life_step
    {act : Act}
    (hLife : Life original self)
    (hStep : Step self act next) :
    Life original next := by
  cases hStep with
  | work next hWork => exact life_work hLife hWork
  | controller hHandle =>
      refine life_congr hLife rfl rfl rfl rfl rfl rfl ?_
      intro hDropped
      rw [hHandle] at hDropped
      cases hDropped
  | clone hClones =>
      refine life_congr hLife rfl rfl rfl rfl rfl rfl ?_
      intro _ hNone
      omega
  | dropClone hClones =>
      refine life_congr hLife rfl rfl rfl rfl rfl rfl ?_
      intro _ hNone
      omega
  | accept source msg hClones hOpen =>
      exact life_accept hLife source msg hClones hOpen
  | refuse => exact hLife
  | recvMessage hHandle =>
      refine life_congr hLife rfl rfl rfl rfl rfl rfl ?_
      intro _ hNone
      exact hNone
  | quit hHandle hOpen =>
      rcases hLife.exists_serving hHandle with
        ⟨state, unsent, waiting, hThread, hControl,
          hAccepted, hServes⟩
      refine
        .closing state unsent waiting [] hThread rfl ?_ ?_
          ⟨hServes.state_eq, hServes.replies⟩
      · simp [enqueue, hControl, queued]
      · simp [enqueue, hAccepted, queued]
  | quitFailed hHandle hClosed =>
      rcases hLife.exists_serving hHandle with
        ⟨state, unsent, waiting, hThread, _⟩
      rw [hThread] at hClosed
      cases hClosed
  | join exit hHandle hThread =>
      rcases hLife.exists_closing hHandle with
        ⟨state, unsent, waiting, later, hRunning, _⟩ |
          ⟨later, hLeft | hEnded, hAccepted, hSent⟩
      · rw [hThread] at hRunning
        cases hRunning
      · rw [hThread] at hLeft
        cases hLeft
      · exact
          .closed later (Or.inr ⟨hEnded, Or.inr rfl⟩)
            hAccepted hSent
  | joinFailed reason hHandle hThread =>
      rcases hLife.exists_closing hHandle with
        ⟨state, unsent, waiting, later, hRunning, _⟩ |
          ⟨later, hLeft | hEnded, _⟩
      · rw [hThread] at hRunning
        cases hRunning
      · rw [hThread] at hLeft
        cases hLeft
      · rw [hThread] at hEnded
        cases hEnded
  | drop hHandle =>
      rcases hLife.exists_serving hHandle with
        ⟨state, unsent, waiting, hThread, hControl,
          hAccepted, hServes⟩
      exact
        .orphaned state unsent waiting hThread rfl hControl
          hAccepted ⟨hServes.state_eq, hServes.replies⟩

/- A worker that has been spawned serves its owner. -/
theorem life_spawn (original : WorkerState) :
    Life original (spawn original) := by
  apply Life.serving original [] [] rfl rfl rfl rfl
  exact ⟨rfl, rfl⟩

/- In every run a worker leads this life. -/
theorem life_exec
    {acts : List Act}
    (hExec : self.exec acts = some next)
    (hLife : Life original self) :
    Life original next :=
  Machine.exec_invariant
    (fun _ _ _ hBefore hStep =>
      life_step hBefore (step_sound hStep))
    hExec hLife

end Session

end WorldDat
