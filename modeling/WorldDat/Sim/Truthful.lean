import WorldDat.Sim.Refinement

/-
  What the workers of a simulator know and tell is true.

  The simulator refines a network of the same workers, into
  which nothing but start-up messages is injected.  Networks
  without injected pongs are truthful, and what is anywhere
  in the queues of the simulator is pending in the network.

  Main declarations:
    * `Network.Truthful.exec`
    * `Simulation.Truthful`
    * `Simulation.truthful_of_prepared`
-/

------------------------------------------------------------
-- Networks That Stay Truthful
------------------------------------------------------------

namespace WorldDat

open Rust

namespace Network

/- Truthful networks stay truthful in every run. -/
theorem Truthful.exec
    {net final : Network}
    {choices : List Choice}
    (hTables : net.TruthfulTables)
    (hTrue : net.Truthful)
    (hExec : net.exec hostile choices = some final) :
    final.TruthfulTables ∧ final.Truthful := by
  apply exec_invariant
    (fun net => net.TruthfulTables ∧ net.Truthful)
    ?_ hExec ⟨hTables, hTrue⟩
  intro net next hInv hStep
  constructor
  · exact hInv.1.step (fun _ => rfl) hStep
  · exact truthful_step hInv.1 hInv.2 hStep

/- Freshly started workers are truthful. -/
theorem truthful_start
    (hasher : RandomState SocketAddr Node)
    (peers : List Peer) :
    (start hasher peers).Truthful where
  tables := (truthfulTables_start hasher peers).tables
  answers := by
    intro packet hPacket
    rw [pending_start] at hPacket
    cases hPacket

/- A network that is being assembled may be hostile. -/
theorem assembling_within_hostile :
    assembling.Within hostile where
  admits := fun _ hAdmits => hAdmits
  fifo := by
    intro hFifo
    cases hFifo
  lossy := fun hLossy => hLossy
  duplicating := by
    intro hDuplicating
    cases hDuplicating

end Network

end WorldDat

------------------------------------------------------------
-- Truthful Simulations
------------------------------------------------------------

namespace WorldDat

open Rust

namespace Simulation

variable {R : Type}

/-
  Every entry of every table and every contact in a message,
  wherever it is, names an address at which the peer runs.
-/
structure Truthful (run : Simulation R) : Prop where
  tables : ∀ addr worker, run.Hosts addr worker →
    ∀ id contact,
      (id, contact) ∈ worker.thread.peerMap.entries →
        run.Runs id contact
  answers : ∀ msg, run.Carries msg → ∀ id contact,
    (id, contact) ∈ msg.contacts → run.Runs id contact

/- The simulation of a truthful network is truthful. -/
theorem Mirrors.truthful
    {run : Simulation R}
    {net : Network}
    (hMirrors : run.Mirrors net)
    (hTrue : net.Truthful) :
    run.Truthful where
  tables := by
    intro addr worker hWorker id contact hEntry
    rcases hMirrors.nodes addr worker hWorker with
      ⟨node, hNode, hState, _⟩
    apply hMirrors.runs
    apply hTrue.tables addr node hNode
    rw [hState]
    exact hEntry
  answers := by
    intro msg hCarries id contact hContact
    rcases hMirrors.exists_pending hCarries with
      ⟨packet, hPacket, hMessage⟩
    apply hMirrors.runs
    apply hTrue.answers packet hPacket
    rw [hMessage]
    exact hContact

/- Every run of a prepared simulator is truthful. -/
theorem truthful_of_prepared
    (newInsecureRandom : R → PeerId × R)
    (hasher : RandomState SocketAddr WorkerHandle)
    (rng : R)
    (calls : List WorkerSim.Call)
    {sim : WorkerSim R}
    (hSim :
      (WorkerSim.new hasher rng).prepare newInsecureRandom
        calls = .ok sim)
    (hDistinct : (sim.workerAddQueue.map Prod.fst).Nodup)
    {ticks : List Tick}
    {final : Simulation R}
    (hExec : (start sim).exec ticks = some final) :
    final.Truthful := by
  rcases exists_network_of_prepared hSim hDistinct hExec
      (RandomState.insertionOrder SocketAddr Node) with
    ⟨entrants, choices, net, _, hRun, _, hMirrors⟩
  have hHostile :=
    Network.exec_of_within Network.assembling_within_hostile
      hRun
  have hTrue :=
    Network.Truthful.exec
      (Network.truthfulTables_start _ _)
      (Network.truthful_start _ _) hHostile
  exact hMirrors.truthful hTrue.2

theorem truthful_of_prepared_heckin :
    ∃ (sim : WorkerSim Nat) (final : Simulation Nat),
      (start sim).exec heckinTicks = some final ∧
        final.Truthful := by
  rcases exists_heckin_run with
    ⟨sim, final, hSim, _, hDistinct, _, hExec, _⟩
  exact
    ⟨sim, final, hExec,
      truthful_of_prepared nextPeerId _ 0 _ hSim hDistinct
        hExec⟩

end Simulation

end WorldDat
