import WorldDat.Worker.Session

/-
  Quitting a worker.

  `WorkerHandle::quit` keeps both channels of the handle open
  until the thread has ended.  So the thread can send all
  replies to what was queued before, then finds the quit
  message, and leaves what was queued after.

  Main declarations:
    * `Session.remaining` and `Session.remaining_step`
    * `Session.exists_returned_of_joining`
    * `Session.quits_cleanly`
-/

------------------------------------------------------------
-- What Remains To Be Done
------------------------------------------------------------

namespace WorldDat

namespace Session

/- What was queued before the quit message. -/
def beforeQuit
    (msgs : List WorkerMessage) : List WorkerMessage :=
  msgs.takeWhile (· ≠ .quit)

/-
  A bound on what a thread still does before it ends: a
  message is received and gets two replies at most.
-/
def remaining (self : Session) : Nat :=
  match self.thread with
  | .running _ unsent =>
      unsent.length +
        3 * (beforeQuit self.control).length + 2
  | .left _ => 1
  | .ended _ => 0
  | .panicked _ => 0

variable {original : WorkerState}
variable {self next : Session}

/- Incoming messages are not the quit message. -/
theorem beforeQuit_queued_append
    (msgs : List Incoming)
    (rest : List WorkerMessage) :
    beforeQuit (queued msgs ++ rest) =
      queued msgs ++ beforeQuit rest := by
  unfold beforeQuit
  rw [List.takeWhile_append_of_pos]
  intro msg hMsg
  rcases List.mem_map.mp hMsg with ⟨incoming, _, hSame⟩
  rw [← hSame]
  rfl

theorem beforeQuit_of_closing
    (msgs : List Incoming)
    (rest : List WorkerMessage) :
    beforeQuit (queued msgs ++ .quit :: rest) =
      queued msgs := by
  rw [beforeQuit_queued_append]
  unfold beforeQuit
  rw [List.takeWhile_cons_of_neg (by simp),
    List.append_nil]

theorem remaining_of_closing
    {state : WorkerState}
    {unsent : List Outgoing}
    {waiting : List Incoming}
    {rest : List WorkerMessage}
    (hThread : self.thread = .running state unsent)
    (hControl :
      self.control = queued waiting ++ .quit :: rest) :
    self.remaining =
      unsent.length + 3 * waiting.length + 2 := by
  unfold remaining
  rw [hThread, hControl, beforeQuit_of_closing, queued,
    List.length_map]

/- A quit worker that has not ended can work on. -/
theorem work_of_joining
    (hLife : Life original self)
    (hHandle : self.handle = .joining) :
    self.thread = .ended .quit ∨
      ∃ next, self.work = some next ∧
        next.handle = .joining ∧
          next.remaining < self.remaining := by
  have hOpen : self.handle.isOpen = true :=
    congrArg HandleState.isOpen hHandle
  rcases hLife.exists_closing hHandle with
    ⟨state, unsent, waiting, later, hThread, hControl, _⟩ |
      ⟨later, hLeft | hEnded, _⟩
  · apply Or.inr
    rw [remaining_of_closing hThread hControl]
    cases unsent with
    | cons out rest =>
        refine
          ⟨_, work_eq_send hThread hOpen, hHandle, ?_⟩
        change
          rest.length +
              3 * (beforeQuit self.control).length + 2 < _
        rw [hControl, beforeQuit_of_closing, queued,
          List.length_map, List.length_cons]
        omega
    | nil =>
        cases waiting with
        | nil =>
            refine
              ⟨_, work_eq_quit hThread hControl, hHandle, ?_⟩
            change 1 < _
            omega
        | cons msg waiting =>
            refine
              ⟨_, work_eq_handle hThread hControl, hHandle,
                ?_⟩
            have hReplies := state.length_replies_le msg
            change
              (state.replies msg).length +
                  3 *
                    (beforeQuit
                      (queued waiting ++
                        .quit :: queued later)).length +
                  2 < _
            rw [beforeQuit_of_closing, queued,
              List.length_map, List.length_cons]
            omega
  · refine
      Or.inr ⟨_, work_eq_end hLeft, hHandle, ?_⟩
    unfold remaining
    rw [hLeft]
    exact Nat.zero_lt_one
  · exact Or.inl hEnded

/- Working on alone, a quit worker ends, and `quit` returns. -/
theorem exists_returned_of_joining
    (hLife : Life original self)
    (hHandle : self.handle = .joining) :
    ∃ count last,
      self.exec (List.replicate count .work ++ [.join]) =
          some last ∧
        last.handle = .returned (.ok ()) := by
  have hStep : ∀ session : Session,
      (Life original session ∧ session.handle = .joining) →
        session.thread = .ended .quit ∨
          ∃ next, session.step .work = some next ∧
            (Life original next ∧ next.handle = .joining) ∧
              next.remaining < session.remaining := by
    intro session hBoth
    rcases hBoth with ⟨hLife, hHandle⟩
    rcases work_of_joining hLife hHandle with
      hEnded | ⟨next, hWork, hJoining, hLess⟩
    · exact Or.inl hEnded
    · have hNext := life_work hLife hWork
      exact
        Or.inr ⟨next, hWork, ⟨hNext, hJoining⟩, hLess⟩
  rcases Machine.exists_exec_replicate remaining Act.work
      hStep ⟨hLife, hHandle⟩ with
    ⟨count, ended, hWorks, ⟨_, hJoining⟩, hEnded⟩
  have hJoin : ended.step .join =
      some
        { ended with
          messages := []
          handle := .returned (.ok ()) } := by
    change ended.join = _
    unfold join
    rw [hJoining, hEnded]
  refine
    ⟨count,
      { ended with
        messages := []
        handle := .returned (.ok ()) },
      ?_, rfl⟩
  unfold exec
  rw [Machine.exec_append_eq_some_iff]
  refine ⟨ended, hWorks, ?_⟩
  rw [Machine.exec_cons_eq_some_iff]
  exact ⟨_, hJoin, rfl⟩

end Session

end WorldDat

------------------------------------------------------------
-- Bounded Work
------------------------------------------------------------

namespace WorldDat

namespace Session

variable {original : WorkerState}
variable {self next : Session}

/- The worker has been quit: the owner waits, or got it back. -/
def IsQuit
    (original : WorkerState)
    (session : Session) : Prop :=
  Life original session ∧
    (session.handle = .joining ∨
      session.thread = .ended .quit)

/- A worker that has been quit stays so. -/
theorem isQuit_step
    {act : Act}
    (hQuit : IsQuit original self)
    (hStep : Step self act next) :
    IsQuit original next := by
  refine ⟨life_step hQuit.1 hStep, ?_⟩
  rcases hQuit with ⟨hLife, hHandle | hEnded⟩
  · cases hStep with
    | work next hWork =>
        apply Or.inl
        rw [handle_work hWork]
        exact hHandle
    | controller hOwned =>
        rw [hHandle] at hOwned
        cases hOwned
    | clone => exact Or.inl hHandle
    | dropClone => exact Or.inl hHandle
    | accept => exact Or.inl hHandle
    | refuse => exact Or.inl hHandle
    | recvMessage hOwned =>
        rw [hHandle] at hOwned
        cases hOwned
    | quit hOwned =>
        rw [hHandle] at hOwned
        cases hOwned
    | quitFailed hOwned =>
        rw [hHandle] at hOwned
        cases hOwned
    | join exit _ hThread =>
        rcases work_of_joining hLife hHandle with
          hEnded | ⟨next, hWork, _⟩
        · exact Or.inr hEnded
        · have hGone :=
            congrArg ThreadState.isOpen hThread
          rw [work_eq_none_of_closed hGone] at hWork
          cases hWork
    | joinFailed reason _ hThread =>
        rcases work_of_joining hLife hHandle with
          hEnded | ⟨next, hWork, _⟩
        · rw [hThread] at hEnded
          cases hEnded
        · have hGone :=
            congrArg ThreadState.isOpen hThread
          rw [work_eq_none_of_closed hGone] at hWork
          cases hWork
    | drop hOwned =>
        rw [hHandle] at hOwned
        cases hOwned
  · apply Or.inr
    cases hStep with
    | work next hWork =>
        have hGone :=
          congrArg ThreadState.isOpen hEnded
        rw [work_eq_none_of_closed hGone] at hWork
        cases hWork
    | accept source msg hClones hOpen =>
        rw [hEnded] at hOpen
        cases hOpen
    | controller => exact hEnded
    | clone => exact hEnded
    | dropClone => exact hEnded
    | refuse => exact hEnded
    | recvMessage => exact hEnded
    | quit hOwned hOpen =>
        rw [hEnded] at hOpen
        cases hOpen
    | quitFailed => exact hEnded
    | join => exact hEnded
    | joinFailed => exact hEnded
    | drop => exact hEnded

/- A message that comes late makes no more work. -/
theorem remaining_enqueue
    (hQuit : IsQuit original self)
    (hOpen : self.thread.isOpen = true)
    (msg : WorkerMessage) :
    (self.enqueue msg).remaining = self.remaining := by
  rcases hQuit with ⟨hLife, hHandle | hEnded⟩
  · rcases hLife.exists_closing hHandle with
      ⟨state, unsent, waiting, later, hThread, hControl,
          _⟩ |
        ⟨later, hLeft | hEnded, _⟩
    · have hLate :
          (self.enqueue msg).control =
            queued waiting ++
              .quit :: (queued later ++ [msg]) := by
        simp [enqueue, hControl]
      rw [remaining_of_closing hThread hControl]
      exact remaining_of_closing hThread hLate
    · unfold remaining enqueue
      rw [hLeft]
    · rw [hEnded] at hOpen
      cases hOpen
  · rw [hEnded] at hOpen
    cases hOpen

/- Only work makes what remains less, and nothing more. -/
theorem remaining_step
    {act : Act}
    (hQuit : IsQuit original self)
    (hStep : Step self act next) :
    next.remaining ≤ self.remaining ∧
      (act = .work → next.remaining < self.remaining) := by
  cases hStep with
  | work next hWork =>
      have hLess : next.remaining < self.remaining := by
        rcases hQuit with ⟨hLife, hHandle | hEnded⟩
        · rcases work_of_joining hLife hHandle with
            hEnded | ⟨other, hOther, _, hLess⟩
          · have hGone :=
              congrArg ThreadState.isOpen hEnded
            rw [work_eq_none_of_closed hGone] at hWork
            cases hWork
          · rw [hWork] at hOther
            cases hOther
            exact hLess
        · have hGone :=
            congrArg ThreadState.isOpen hEnded
          rw [work_eq_none_of_closed hGone] at hWork
          cases hWork
      exact ⟨Nat.le_of_lt hLess, fun _ => hLess⟩
  | accept source msg hClones hOpen =>
      rw [remaining_enqueue hQuit hOpen]
      exact ⟨Nat.le_refl _, fun hWork => nomatch hWork⟩
  | quit hHandle hOpen =>
      have hSame := remaining_enqueue hQuit hOpen .quit
      exact
        ⟨Nat.le_of_eq hSame, fun hWork => nomatch hWork⟩
  | controller =>
      exact ⟨Nat.le_refl _, fun hWork => nomatch hWork⟩
  | clone =>
      exact ⟨Nat.le_refl _, fun hWork => nomatch hWork⟩
  | dropClone =>
      exact ⟨Nat.le_refl _, fun hWork => nomatch hWork⟩
  | refuse =>
      exact ⟨Nat.le_refl _, fun hWork => nomatch hWork⟩
  | recvMessage =>
      exact ⟨Nat.le_refl _, fun hWork => nomatch hWork⟩
  | quitFailed =>
      exact ⟨Nat.le_refl _, fun hWork => nomatch hWork⟩
  | join =>
      exact ⟨Nat.le_refl _, fun hWork => nomatch hWork⟩
  | joinFailed =>
      exact ⟨Nat.le_refl _, fun hWork => nomatch hWork⟩
  | drop =>
      exact ⟨Nat.le_refl _, fun hWork => nomatch hWork⟩

/- A quit worker has only so much left to do. -/
theorem count_work_le
    {acts : List Act}
    (hQuit : IsQuit original self)
    (hExec : self.exec acts = some next) :
    acts.countP (· = .work) ≤ self.remaining := by
  have hCount :=
    Machine.countP_exec_le remaining (· = .work)
      (fun _ _ _ hBefore hStep =>
        isQuit_step hBefore (step_sound hStep))
      (fun _ _ _ hBefore hStep hWork =>
        (remaining_step hBefore (step_sound hStep)).2
          (of_decide_eq_true hWork))
      (fun _ _ _ hBefore hStep _ =>
        (remaining_step hBefore (step_sound hStep)).1)
      hExec hQuit
  omega

end Session

end WorldDat

------------------------------------------------------------
-- Clean Quitting
------------------------------------------------------------

namespace WorldDat

open Rust

namespace Session

variable {original : WorkerState}
variable {self next : Session}

/-
  The thread does not panic and no rank is out of range.  It
  handles what was queued before the quit message, in order
  and once, and nothing else, and sends the replies.  `quit`
  does not panic and returns nothing but `Ok`; while its
  caller waits, the thread can go on to its end by itself,
  and whatever else happens, there is only so much left for
  it to do.
-/
structure QuitsCleanly
    (original : WorkerState)
    (session : Session) : Prop where
  no_panic : ∀ reason, session.thread ≠ .panicked reason
  ranked : ∀ a b : PeerId,
    a.distanceRank b < Blake2Hash.maxPower
  in_order :
    queued session.handled <+: beforeQuit session.accepted
  serves : ∀ state unsent,
    session.thread = .running state unsent →
      Serves original session state unsent
  ends :
    (∀ state unsent,
        session.thread ≠ .running state unsent) →
      WorkerMessage.quit ∈ session.accepted ∧
        queued session.handled =
            beforeQuit session.accepted ∧
          session.sent =
            original.repliesTo session.handled
  returned : session.handle ≠ .panicked ∧
    ∀ result, session.handle = .returned result →
      result = .ok ()
  returns : session.handle = .joining →
    ∃ count last,
      session.exec
            (List.replicate count .work ++ [.join]) =
          some last ∧
        last.handle = .returned (.ok ())
  bounded : session.handle = .joining →
    ∀ acts later, session.exec acts = some later →
      acts.countP (· = .work) ≤ session.remaining

/- `quit` does not panic and returns nothing but Ok. -/
theorem Life.returned
    {session : Session}
    (hLife : Life original session) :
    session.handle ≠ .panicked ∧
      ∀ result, session.handle = .returned result →
        result = .ok () := by
  rcases hLife.handle_cases with
    hHandle | hHandle | hHandle | hHandle
  all_goals
    rw [hHandle]
    refine ⟨by simp, ?_⟩
    intro result hReturned
    cases hReturned
  rfl

/- A worker with an owner is in its loop, or was quit. -/
theorem Life.running_or_closed
    {session : Session}
    (hLife : Life original session)
    (hKept : session.handle ≠ .dropped) :
    (∃ state unsent rest,
      session.thread = .running state unsent ∧
        session.accepted = queued session.handled ++ rest ∧
        Serves original session state unsent) ∨
      ∃ later,
        (session.thread = .left .quit ∨
            session.thread = .ended .quit) ∧
          session.accepted =
            queued session.handled ++ .quit :: queued later ∧
          session.sent =
            original.repliesTo session.handled := by
  cases hLife with
  | serving state unsent waiting hThread _ _ hAccepted
      hServes =>
      exact
        Or.inl
          ⟨state, unsent, _, hThread, hAccepted, hServes⟩
  | closing state unsent waiting later hThread _ _ hAccepted
      hServes =>
      exact
        Or.inl
          ⟨state, unsent, _, hThread, hAccepted, hServes⟩
  | closed later hThread hAccepted hSent =>
      refine Or.inr ⟨later, ?_, hAccepted, hSent⟩
      rcases hThread with ⟨hLeft, _⟩ | ⟨hEnded, _⟩
      · exact Or.inl hLeft
      · exact Or.inr hEnded
  | orphaned state unsent waiting hThread hHandle =>
      exact absurd hHandle hKept
  | finished hThread hHandle => exact absurd hHandle hKept
  | crashed out hThread hHandle => exact absurd hHandle hKept

/- A worker whose handle is not dropped is quit cleanly. -/
theorem Life.quitsCleanly
    {session : Session}
    (hLife : Life original session)
    (hKept : session.handle ≠ .dropped) :
    QuitsCleanly original session where
  no_panic := by
    intro reason hPanicked
    exact hKept (hLife.handle_of_panicked hPanicked)
  ranked := PeerId.distanceRank_lt
  in_order := by
    rcases hLife.running_or_closed hKept with
      ⟨state, unsent, rest, _, hAccepted, _⟩ |
        ⟨later, _, hAccepted, _⟩
    · rw [hAccepted, beforeQuit_queued_append]
      exact List.prefix_append _ _
    · rw [hAccepted, beforeQuit_queued_append]
      exact List.prefix_append _ _
  serves := by
    intro state unsent hRunning
    rcases hLife.running_or_closed hKept with
      ⟨state', unsent', rest, hThread, _, hServes⟩ |
        ⟨later, hLeft | hEnded, _⟩
    · rw [hThread] at hRunning
      cases hRunning
      exact hServes
    · rw [hLeft] at hRunning
      cases hRunning
    · rw [hEnded] at hRunning
      cases hRunning
  ends := by
    intro hOutside
    rcases hLife.running_or_closed hKept with
      ⟨state, unsent, rest, hThread, _⟩ |
        ⟨later, _, hAccepted, hSent⟩
    · exact absurd hThread (hOutside state unsent)
    · refine ⟨?_, ?_, hSent⟩
      · rw [hAccepted]
        simp
      · rw [hAccepted, beforeQuit_of_closing]
  returned := hLife.returned
  returns := by
    intro hHandle
    exact exists_returned_of_joining hLife hHandle
  bounded := by
    intro hHandle acts later hExec
    exact count_work_le ⟨hLife, Or.inl hHandle⟩ hExec

/- A handle is dropped by nobody but its owner. -/
theorem handle_ne_dropped_step
    {act : Act}
    (hKept : self.handle ≠ .dropped)
    (hAct : act ≠ .drop)
    (hStep : Step self act next) :
    next.handle ≠ .dropped := by
  cases hStep with
  | work next hWork =>
      rw [handle_work hWork]
      exact hKept
  | controller => exact hKept
  | clone => exact hKept
  | dropClone => exact hKept
  | accept => exact hKept
  | refuse => exact hKept
  | recvMessage => exact hKept
  | quit =>
      intro hDropped
      cases hDropped
  | quitFailed =>
      intro hDropped
      cases hDropped
  | join =>
      intro hDropped
      cases hDropped
  | joinFailed =>
      intro hDropped
      cases hDropped
  | drop => exact absurd rfl hAct

/-
  In every run in which the owner of a worker does not drop
  its handle, the worker is quit cleanly.
-/
theorem quits_cleanly
    (hasher : PeerHasher)
    (peerId : PeerId)
    (addr : SocketAddr)
    {first : Session}
    (hStart : start hasher peerId addr = .ok first)
    {acts : List Act}
    (hKept : Act.drop ∉ acts)
    {session : Session}
    (hExec : first.exec acts = some session) :
    QuitsCleanly (.fresh hasher peerId addr) session := by
  rw [start_eq_ok] at hStart
  cases hStart
  have hHandle : session.handle ≠ .dropped := by
    apply Machine.exec_invariant_of_mem ?_ hExec
    · intro hDropped
      cases hDropped
    · intro before after act hAct hBefore hStep
      apply handle_ne_dropped_step hBefore ?_
        (step_sound hStep)
      intro hSame
      rw [hSame] at hAct
      exact hKept hAct
  have hLife := life_exec hExec (life_spawn _)
  exact hLife.quitsCleanly hHandle

/- A worker that is quit between two messages. -/
def quitActs : List Act :=
  [.controller,
    .message (.v4 0x0A000002 4433)
      (.ping (PeerId.repeating 2)),
    .quit,
    .message (.v4 0x0A000002 4433)
      (.findPeer (PeerId.repeating 2)),
    .work, .work, .work, .work, .work, .join]

theorem quits_cleanly_quitActs :
    ∃ session,
      (spawn
          (.fresh (RandomState.insertionOrder _ _)
            (PeerId.repeating 1)
            (.v4 0x0A000001 4433))).exec quitActs =
          some session ∧
        QuitsCleanly
          (.fresh (RandomState.insertionOrder _ _)
            (PeerId.repeating 1)
            (.v4 0x0A000001 4433))
          session := by
  have hRuns :
      ((spawn
        (.fresh (RandomState.insertionOrder _ _)
          (PeerId.repeating 1)
          (.v4 0x0A000001 4433))).exec
            quitActs).isSome := by
    decide +kernel
  rcases Option.isSome_iff_exists.mp hRuns with
    ⟨session, hExec⟩
  refine ⟨session, hExec, ?_⟩
  exact
    quits_cleanly _ _ _ (start_eq_ok _ _ _) (by decide)
      hExec

end Session

end WorldDat
