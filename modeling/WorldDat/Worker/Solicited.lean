import WorldDat.Listing.LastChange
import WorldDat.Worker.History

/-
  Which pongs a worker had asked for.

  The handler of pongs files every sender, whether the worker
  has ever pinged it or not.  A worker pings nobody but the
  source of a ping that names a peer it does not know.

  Main declarations:
    * `WorkerState.BelievesSolicited`
    * `WorkerState.hasPinged_iff`
    * `WorkerState.lastChange_known_iff`
    * `WorkerState.believesSolicited_iff`
-/

------------------------------------------------------------
-- Pings That Are Sent
------------------------------------------------------------

namespace WorldDat

/-
  A history draws a ping to an address: a ping came from
  there that names a peer other than the worker, and no pong
  had come from that peer before.
-/
def DrawsPing
    (selfId : PeerId)
    (history : List Incoming)
    (addr : SocketAddr) : Prop :=
  ∃ before other rest,
    history = before ++ (addr, .ping other) :: rest ∧
      other ≠ selfId ∧
      ∀ msg ∈ before, msg.2 ≠ .pong other

namespace WorkerState

/- The worker has sent a ping to an address. -/
def HasPinged
    (self : WorkerState)
    (history : List Incoming)
    (addr : SocketAddr) : Prop :=
  ∃ id, (addr, Message.ping id) ∈ self.repliesTo history

/- All that a worker sends is a reply to some message. -/
theorem mem_repliesTo_iff
    (self : WorkerState)
    (history : List Incoming)
    (out : Outgoing) :
    out ∈ self.repliesTo history ↔
      ∃ before msg rest,
        history = before ++ msg :: rest ∧
          out ∈ (self.afterAll before).replies msg := by
  induction history generalizing self with
  | nil => simp [repliesTo]
  | cons first history ih =>
      rw [repliesTo, List.mem_append, ih]
      constructor
      · intro hOut
        rcases hOut with hFirst | hLater
        · exact ⟨[], first, history, rfl, hFirst⟩
        · rcases hLater with
            ⟨before, msg, rest, hHistory, hReply⟩
          refine ⟨first :: before, msg, rest, ?_, hReply⟩
          rw [hHistory, List.cons_append]
      · intro hOut
        rcases hOut with
          ⟨before, msg, rest, hHistory, hReply⟩
        cases before with
        | nil =>
            rw [List.nil_append, List.cons.injEq] at hHistory
            rw [hHistory.1]
            exact Or.inl hReply
        | cons first' before =>
            rw [List.cons_append, List.cons.injEq]
              at hHistory
            rw [hHistory.1]
            exact
              Or.inr ⟨before, msg, rest, hHistory.2, hReply⟩

/- Only a ping that names a stranger is pinged back. -/
theorem ping_mem_replies_iff
    (self : WorkerState)
    (msg : Incoming)
    (addr : SocketAddr)
    (id : PeerId) :
    (addr, Message.ping id) ∈ self.replies msg ↔
      id = self.peerId ∧
        ∃ other, msg = (addr, .ping other) ∧
          self.known other = none := by
  constructor
  · intro hPing
    generalize hReply : (addr, Message.ping id) = out at hPing
    cases reply_of_mem_replies hPing with
    | pong => cases hReply
    | ping source other hKnown =>
        cases hReply
        exact ⟨rfl, other, rfl, hKnown⟩
    | answer source other =>
        cases hKnown : self.known other with
        | none => simp [answer, hKnown] at hReply
        | some known => simp [answer, hKnown] at hReply
  · intro hPing
    rcases hPing with ⟨hId, other, hMsg, hKnown⟩
    rw [hId, hMsg, replies, hKnown]
    simp

/- A worker pings an address when the history draws a ping. -/
theorem hasPinged_iff
    (hasher : PeerHasher)
    (selfId : PeerId)
    (selfAddr : SocketAddr)
    (history : List Incoming)
    (addr : SocketAddr) :
    (fresh hasher selfId selfAddr).HasPinged history addr ↔
      DrawsPing selfId history addr := by
  have hUnknown : ∀ before other,
      ((fresh hasher selfId selfAddr).afterAll before).known
          other = none ↔
        other ≠ selfId ∧
          ∀ msg ∈ before, msg.2 ≠ .pong other := by
    intro before other
    rw [known_afterAll, directory_eq_none_iff, not_or]
    apply and_congr_right
    intro _
    constructor
    · intro hNone msg hMsg hPong
      exact hNone ⟨msg, hMsg, hPong⟩
    · intro hNone hSome
      rcases hSome with ⟨msg, hMsg, hPong⟩
      exact hNone msg hMsg hPong
  constructor
  · intro hPinged
    rcases hPinged with ⟨id, hPing⟩
    rcases (mem_repliesTo_iff _ _ _).mp hPing with
      ⟨before, msg, rest, hHistory, hReply⟩
    rcases (ping_mem_replies_iff _ _ _ _).mp hReply with
      ⟨_, other, hMsg, hNone⟩
    rw [hMsg] at hHistory
    exact
      ⟨before, other, rest, hHistory,
        (hUnknown before other).mp hNone⟩
  · intro hDraws
    rcases hDraws with ⟨before, other, rest, hHistory, hNew⟩
    refine ⟨selfId, ?_⟩
    rw [mem_repliesTo_iff]
    refine
      ⟨before, (addr, .ping other), rest, hHistory, ?_⟩
    rw [ping_mem_replies_iff]
    refine ⟨?_, other, rfl, ?_⟩
    · simp
    · exact (hUnknown before other).mpr hNew

end WorkerState

end WorldDat

------------------------------------------------------------
-- Entries And Pongs
------------------------------------------------------------

namespace WorldDat

namespace WorkerState

/- The address known for a peer after a history. -/
def knownAfter
    (self : WorkerState)
    (id : PeerId)
    (history : List Incoming) : Option SocketAddr :=
  (self.afterAll history).known id

/-
  The pong that created or last changed an entry came from an
  address that the worker had pinged.
-/
def Solicited
    (self : WorkerState)
    (history : List Incoming)
    (id : PeerId)
    (addr : SocketAddr) : Prop :=
  ∃ before rest,
    history = before ++ (addr, .pong id) :: rest ∧
      Listing.LastChange (self.knownAfter id) before
        (addr, .pong id) rest ∧
      self.HasPinged before addr

/-
  Every entry has been there from the start, or the worker
  had asked for it.
-/
def BelievesSolicited
    (self : WorkerState)
    (history : List Incoming) : Prop :=
  ∀ id addr,
    (id, addr) ∈
        (self.afterAll history).peerMap.entries →
      (∀ earlier, earlier <+: history →
          self.knownAfter id earlier = some addr) ∨
        self.Solicited history id addr

theorem knownAfter_concat
    (self : WorkerState)
    (id : PeerId)
    (history : List Incoming)
    (addr : SocketAddr)
    (msg : Message) :
    self.knownAfter id (history ++ [(addr, msg)]) =
      if msg = .pong id then
        some addr
      else
        self.knownAfter id history := by
  unfold knownAfter
  rw [afterAll_concat, known_after]

/-
  A pong makes the last change of an entry if its address was
  not known before and no later pong brings another one.
-/
theorem lastChange_known_iff
    (self : WorkerState)
    (id : PeerId)
    (addr : SocketAddr)
    (before rest : List Incoming) :
    Listing.LastChange (self.knownAfter id) before
        (addr, .pong id) rest ↔
      self.knownAfter id before ≠ some addr ∧
        ∀ msg ∈ rest, msg.2 = .pong id → msg.1 = addr := by
  have hFiled :
      self.knownAfter id (before ++ [(addr, .pong id)]) =
        some addr := by
    rw [knownAfter_concat, if_pos rfl]
  constructor
  · intro hLast
    have hChange := hLast.changes
    rw [hFiled] at hChange
    refine ⟨hChange, ?_⟩
    intro msg hMsg hPong
    rcases msg with ⟨source, msg⟩
    rcases List.append_of_mem hMsg with
      ⟨front, back, hRest⟩
    have hPrefix : front ++ [(source, msg)] <+: rest := by
      refine ⟨back, ?_⟩
      rw [hRest]
      simp
    have hKept := hLast.keeps _ hPrefix
    rw [hFiled, ← List.cons_append, ← List.append_assoc,
      knownAfter_concat, if_pos hPong] at hKept
    exact Option.some.inj hKept
  · intro hPongs
    rcases hPongs with ⟨hNew, hLater⟩
    refine ⟨?_, ?_⟩
    · rw [hFiled]
      exact hNew
    · intro later hPrefix
      rw [hFiled]
      -- every later pong of the peer brings the same address
      induction later using List.reverseRecOn with
      | nil => exact hFiled
      | append_singleton later msg ih =>
          rcases msg with ⟨source, msg⟩
          have hBefore : later <+: rest :=
            (List.prefix_append _ _).trans hPrefix
          have hMem : (source, msg) ∈ rest := by
            apply hPrefix.subset
            simp
          rw [← List.cons_append, ← List.append_assoc,
            knownAfter_concat]
          by_cases hPong : msg = .pong id
          · rw [if_pos hPong]
            exact congrArg some (hLater _ hMem hPong)
          · rw [if_neg hPong]
            exact ih hBefore

/- Only a pong with its id changes what is known of a peer. -/
theorem eq_pong_of_lastChange
    {self : WorkerState}
    {id : PeerId}
    {addr : SocketAddr}
    {before rest : List Incoming}
    {msg : Incoming}
    (hLast :
      Listing.LastChange (self.knownAfter id) before msg
        rest)
    (hKnown :
      self.knownAfter id (before ++ msg :: rest) =
        some addr) :
    msg = (addr, .pong id) := by
  rcases msg with ⟨source, msg⟩
  have hChange := hLast.changes
  rw [hLast.value_eq] at hKnown
  rw [knownAfter_concat] at hChange hKnown
  by_cases hPong : msg = .pong id
  · rw [if_pos hPong] at hKnown
    rw [hPong, Option.some.inj hKnown]
  · rw [if_neg hPong] at hChange
    exact absurd rfl hChange

/- The entries of a worker's table are what it knows. -/
theorem mem_entries_iff_knownAfter
    (hasher : PeerHasher)
    (selfId : PeerId)
    (selfAddr : SocketAddr)
    (history : List Incoming)
    (id : PeerId)
    (addr : SocketAddr) :
    (id, addr) ∈
        ((fresh hasher selfId selfAddr).afterAll
          history).peerMap.entries ↔
      (fresh hasher selfId selfAddr).knownAfter id history =
        some addr := by
  have hFresh := filedBy_fresh hasher selfId selfAddr
  have hFiled := filedBy_afterAll hFresh history
  rw [hFiled.mem_entries_iff_find, knownAfter, known,
    peerId_afterAll]

end WorkerState

end WorldDat

------------------------------------------------------------
-- Solicited Entries
------------------------------------------------------------

namespace WorldDat

/-
  Each pong that creates or last changes an entry comes from
  an address to which the history before it draws a ping.
-/
def PongsDrawn
    (selfId : PeerId)
    (selfAddr : SocketAddr)
    (history : List Incoming) : Prop :=
  ∀ before id addr rest,
    history = before ++ (addr, .pong id) :: rest →
      directory selfId selfAddr before id ≠ some addr →
        (∀ msg ∈ rest, msg.2 = .pong id → msg.1 = addr) →
          DrawsPing selfId before addr

namespace WorkerState

/-
  A worker believes solicited pongs only, exactly when each
  pong that creates or last changes an entry has been drawn.
-/
theorem believesSolicited_iff
    (hasher : PeerHasher)
    (selfId : PeerId)
    (selfAddr : SocketAddr)
    (history : List Incoming) :
    ∃ self,
      start hasher selfId selfAddr = .ok self ∧
        (∀ earlier : List Incoming,
          self.run (earlier.map fun (source, msg) =>
              .incoming source msg) =
            .ok (self.afterAll earlier,
              self.repliesTo earlier)) ∧
        (self.BelievesSolicited history ↔
          PongsDrawn selfId selfAddr history) := by
  refine
    ⟨_, start_eq_ok hasher selfId selfAddr,
      run_incoming_eq_ok _, ?_⟩
  constructor
  · intro hBelieves before id addr rest hHistory hNew hLater
    have hLast :=
      ((fresh hasher selfId selfAddr).lastChange_known_iff
        id addr before rest).mpr
        ⟨by rw [knownAfter, known_afterAll]; exact hNew,
          hLater⟩
    have hKnown := hLast.value_eq
    rw [← hHistory, knownAfter_concat, if_pos rfl] at hKnown
    rw [← hasPinged_iff hasher selfId selfAddr]
    rcases hBelieves id addr
        ((mem_entries_iff_knownAfter hasher selfId selfAddr
          history id addr).mpr hKnown) with
      hStart | hSolicited
    · have hBefore : before <+: history := by
        rw [hHistory]
        exact List.prefix_append _ _
      rw [← known_afterAll hasher] at hNew
      exact absurd (hStart before hBefore) hNew
    · rcases hSolicited with
        ⟨before', rest', hHistory', hLast', hPinged⟩
      rw [hHistory] at hHistory'
      rw [hLast.before_unique hLast' hHistory']
      exact hPinged
  · intro hDrawn id addr hEntry
    have hKnown :=
      (mem_entries_iff_knownAfter hasher selfId selfAddr
        history id addr).mp hEntry
    rcases Listing.constant_or_exists_lastChange
        ((fresh hasher selfId selfAddr).knownAfter id)
        history with
      hConstant | ⟨before, msg, rest, hHistory, hLast⟩
    · apply Or.inl
      intro earlier hEarlier
      rw [hConstant earlier hEarlier, hKnown]
    · apply Or.inr
      rw [hHistory] at hKnown
      have hPong := eq_pong_of_lastChange hLast hKnown
      rw [hPong] at hHistory hLast
      refine ⟨before, rest, hHistory, hLast, ?_⟩
      rcases (lastChange_known_iff _ _ _ _ _).mp hLast with
        ⟨hNew, hLater⟩
      rw [knownAfter, known_afterAll] at hNew
      rw [hasPinged_iff]
      exact hDrawn before id addr rest hHistory hNew hLater

/- A stranger's pong is believed without being asked for. -/
theorem unsolicited_pong_believed :
    ¬ ∀ (hasher : PeerHasher)
        (selfId : PeerId)
        (selfAddr : SocketAddr)
        (history : List Incoming)
        (self : WorkerState),
      start hasher selfId selfAddr = .ok self →
        self.BelievesSolicited history := by
  intro hClaim
  let hasher :=
    Rust.RandomState.insertionOrder PeerId SocketAddr
  let selfId := PeerId.repeating 0
  let selfAddr := SocketAddr.v4 0x0A000001 4433
  let stranger := SocketAddr.v4 0x0A000002 4433
  let strangerId := PeerId.repeating 1
  have hBelieves :=
    hClaim hasher selfId selfAddr
      [(stranger, .pong strangerId)] _
      (start_eq_ok hasher selfId selfAddr)
      strangerId stranger
  rw [mem_entries_iff_knownAfter] at hBelieves
  rcases hBelieves rfl with hStart | hSolicited
  · have hKnown := hStart [] (List.nil_prefix)
    exact absurd hKnown (by decide +kernel)
  · rcases hSolicited with
      ⟨before, rest, hHistory, _, id, hPing⟩
    cases before with
    | nil => cases hPing
    | cons msg before =>
        rw [List.cons_append, List.cons.injEq] at hHistory
        simp at hHistory

end WorkerState

end WorldDat
