import WorldDat.Network.Basic

/-
  Which choices a network enables, and how that depends on
  its discipline.

  Main declarations:
    * `Network.step_handle`, `step_deliver`, `step_lose`,
      `step_duplicate` and `step_inject`
    * `Discipline.Within` and `Network.exec_of_within`
-/

------------------------------------------------------------
-- Enabled Choices
------------------------------------------------------------

namespace WorldDat

open Rust

namespace Network

variable {d : Discipline}
variable {net : Network}

/- A worker with a packet in its queue can handle it. -/
theorem step_handle
    {worker : SocketAddr}
    {state : WorkerState}
    {packet : Packet}
    {rest : List Packet}
    (hNode :
      net.nodes.get worker =
        some { state, control := packet :: rest }) :
    step d net (.handle worker) =
      some
        (net.worked worker
          (state.after (packet.source, packet.message))
          packet rest
          (state.replies
            (packet.source, packet.message))) := by
  simp only [step, hNode, WorkerState.handle_eq_ok]

/- The first packet between two addresses can be delivered. -/
theorem step_deliver
    {front back : List Packet}
    {packet : Packet}
    (hFlight : net.flight = front ++ packet :: back)
    (hFirst : ∀ earlier ∈ front,
      ¬ earlier.Between packet.source packet.destination) :
    step d net (.deliver front.length) =
      some
        ({ net with flight := front ++ back }.deliver
          packet) := by
  have hGet : net.flight[front.length]? = some packet := by
    rw [hFlight]
    simp
  have hNone :
      ¬ (d.fifo ∧
        ∃ earlier ∈ net.flight.take front.length,
          earlier.Between packet.source
            packet.destination) := by
    intro hEarlier
    rcases hEarlier with ⟨_, earlier, hTaken, hBetween⟩
    rw [hFlight, List.take_left] at hTaken
    exact hFirst earlier hTaken hBetween
  have hErase :
      net.flight.eraseIdx front.length = front ++ back := by
    rw [hFlight]
    simp [List.eraseIdx_append_of_length_le]
  simp only [step, hGet, if_neg hNone, hErase]

/- A packet can be lost if packets can be lost at all. -/
theorem step_lose
    (hLossy : d.lossy = true)
    {front back : List Packet}
    {packet : Packet}
    (hFlight : net.flight = front ++ packet :: back) :
    step d net (.lose front.length) =
      some { net with flight := front ++ back } := by
  have hLength : front.length < net.flight.length := by
    rw [hFlight]
    simp
  have hErase :
      net.flight.eraseIdx front.length = front ++ back := by
    rw [hFlight]
    simp [List.eraseIdx_append_of_length_le]
  simp only [step, if_pos (And.intro hLossy hLength), hErase]

/- A packet can be duplicated if any packet can. -/
theorem step_duplicate
    (hDuplicating : d.duplicating = true)
    {front back : List Packet}
    {packet : Packet}
    (hFlight : net.flight = front ++ packet :: back) :
    step d net (.duplicate front.length) =
      some { net with flight := net.flight ++ [packet] } := by
  have hGet : net.flight[front.length]? = some packet := by
    rw [hFlight]
    simp
  simp only [step, hGet, if_pos hDuplicating]

/- What is admitted can be injected where a worker runs. -/
theorem step_inject
    {source destination : SocketAddr}
    {message : Message}
    {node : Node}
    (hNode : net.nodes.get destination = some node)
    (hAdmits : d.admits message = true) :
    step d net (.inject source destination message) =
      some
        { net.accept node
            (net.injection source destination message)
          with injections := net.injections + 1 } := by
  simp only [step, hNode, if_pos hAdmits]

end Network

end WorldDat

------------------------------------------------------------
-- Disciplines Within Disciplines
------------------------------------------------------------

namespace WorldDat

/- One discipline allows whatever another one does. -/
structure Discipline.Within
    (strict loose : Discipline) : Prop where
  admits : ∀ message,
    strict.admits message = true →
      loose.admits message = true
  fifo : loose.fifo = true → strict.fifo = true
  lossy : strict.lossy = true → loose.lossy = true
  duplicating :
    strict.duplicating = true → loose.duplicating = true

namespace Network

variable {strict loose : Discipline}

/- A step of the stricter discipline is one of the looser. -/
theorem step_of_within
    (hWithin : strict.Within loose)
    {net next : Network}
    {choice : Choice}
    (hStep : step strict net choice = some next) :
    step loose net choice = some next := by
  cases choice with
  | inject source destination message =>
      simp only [step] at hStep ⊢
      split at hStep
      · cases hStep
      · split at hStep
        · rename_i hAdmits
          rw [if_pos (hWithin.admits message hAdmits)]
          exact hStep
        · cases hStep
  | handle worker => exact hStep
  | deliver position =>
      simp only [step] at hStep ⊢
      split at hStep
      · cases hStep
      · split at hStep
        · cases hStep
        · rename_i packet _ hFirst
          have hLoose :
              ¬ (loose.fifo ∧
                ∃ earlier ∈ net.flight.take position,
                  earlier.Between packet.source
                    packet.destination) := by
            intro hBoth
            exact
              hFirst ⟨hWithin.fifo hBoth.1, hBoth.2⟩
          rw [if_neg hLoose]
          exact hStep
  | lose position =>
      simp only [step] at hStep ⊢
      split at hStep
      · rename_i hLose
        rw [if_pos ⟨hWithin.lossy hLose.1, hLose.2⟩]
        exact hStep
      · cases hStep
  | duplicate position =>
      simp only [step] at hStep ⊢
      split at hStep
      · cases hStep
      · split at hStep
        · rename_i hDuplicating
          rw [if_pos (hWithin.duplicating hDuplicating)]
          exact hStep
        · cases hStep

/- A run of the stricter discipline is one of the looser. -/
theorem exec_of_within
    (hWithin : strict.Within loose)
    {net final : Network}
    {choices : List Choice}
    (hExec : exec strict net choices = some final) :
    exec loose net choices = some final := by
  induction choices generalizing net with
  | nil => exact hExec
  | cons choice choices ih =>
      rcases Machine.exec_cons_eq_some_iff.mp hExec with
        ⟨next, hNext, hRest⟩
      unfold exec
      rw [Machine.exec_cons_eq_some_iff]
      exact ⟨next, step_of_within hWithin hNext, ih hRest⟩

end Network

end WorldDat

------------------------------------------------------------
-- Freshly Started Workers
------------------------------------------------------------

namespace WorldDat

open Rust

namespace Network

/- Workers at distinct addresses are where they should be. -/
theorem get_start
    {hasher : RandomState SocketAddr Node}
    {peers : List Peer}
    (hDistinct : (peers.map Peer.address).Nodup)
    {peer : Peer}
    (hPeer : peer ∈ peers) :
    (start hasher peers).nodes.get peer.address =
      some (freshNode peer) := by
  unfold start
  dsimp only
  induction peers using List.reverseRecOn with
  | nil => cases hPeer
  | append_singleton peers last ih =>
      rw [List.map_append, List.nodup_append] at hDistinct
      rw [List.foldl_append, List.foldl_cons,
        List.foldl_nil]
      rcases List.mem_append.mp hPeer with hFront | hLast
      · have hOther : peer.address ≠ last.address :=
          hDistinct.2.2 peer.address
            (List.mem_map_of_mem hFront) last.address
            (List.mem_singleton_self _)
        rw [HashMap.get_insert_ne _ _ hOther]
        exact ih hDistinct.1 hFront
      · rw [List.mem_singleton.mp hLast,
          HashMap.get_insert_self]

end Network

end WorldDat
