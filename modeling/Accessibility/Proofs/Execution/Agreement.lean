import Accessibility.Proofs.Execution.Serial

/-! Workers over one cache and nodes over one queue come to the same. One reads the inputs
in place and keeps a cache from job to job; the other sends them out, gives every node a
cache of its own, and checks what comes back. Either has results exactly if every packet
has one (`submit_agree`), and where both take the packets in order they fail for the same
packet, each in its own words. -/
namespace Accessibility

variable {evaluator : Evaluator} {inputs : JobInputs} {packets : List Packet}

/-- The cache of an executor after earlier jobs on the same inputs, each with moves and
packets of its own. -/
def LocalExecutor.cacheAfter (threads : Nat) (evaluator : Evaluator) (inputs : JobInputs)
    (earlier : List (List LocalExecutor.Move × List Packet)) : UtilityCache :=
  earlier.foldl (fun cache (moves, packets) => (submit threads evaluator moves inputs packets cache).2)
    (.empty inputs.cacheSpec)

theorem LocalExecutor.served_cacheAfter (steady : evaluator.Steady inputs) (threads : Nat)
    (earlier : List (List LocalExecutor.Move × List Packet)) :
    evaluator.Served inputs (cacheAfter threads evaluator inputs earlier) := by
  unfold cacheAfter
  have fresh := evaluator.served_empty inputs
  generalize UtilityCache.empty inputs.cacheSpec = cache at fresh ⊢
  induction earlier generalizing cache with
  | nil => exact fresh
  | cons job earlier ih => exact ih _ (submit_served steady fresh threads job.1)

namespace DistributedExecutor

variable {threads nodes : Nat} {moves : List LocalExecutor.Move} {unreachable turns : List Nat}
  {workers : Executor UtilityCache} {carrier : Transport (List Nat)}

/-- Nodes that can all be reached have results exactly if every packet, each of them with a position, has
one. -/
theorem exists_submit_eq_ok_iff
    (carried : Loopback.transport nodes evaluator unreachable turns = .ok carrier)
    (up : ∀ index < nodes, index ∉ unreachable) (valid : inputs.cacheSpec.validate = .ok ())
    (sendable : Wire.Sendable inputs) (steady : evaluator.Steady inputs)
    (distinct : (packets.map Packet.id).Nodup) (ordered : ∀ packet ∈ packets, packet.first ≤ packet.last)
    (deliverable : ∀ packet ∈ packets, Wire.Sendable (TaskOutcome.ofResult (packet.outcome evaluator inputs)))
    (dispatch : Dispatch (List Nat)) :
    (∃ results, (submit carrier evaluator.width.toUInt64 packets inputs dispatch).1 = .ok results) ↔
      ∀ packet ∈ packets, ∃ result, packet.outcome evaluator inputs = .ok result := by
  constructor
  · rintro ⟨results, came⟩ packet member
    have reordered := perm_of_submit_eq_ok carried sendable valid steady distinct
      (fun packet member result came => size_lt_of_sendable (deliverable packet member) came) came
    obtain ⟨result, _, same⟩ := List.mem_map.mp (reordered.symm.subset (List.mem_map_of_mem member))
    exact ⟨result, same.symm⟩
  · intro every
    have whole : ∀ packet ∈ packets, packet.outcome evaluator inputs ≠ .error .outOfBounds := by
      intro packet member broken
      obtain ⟨result, came⟩ := every packet member
      cases came.symm.trans broken
    obtain ⟨results, came, _⟩ | ⟨packet, member, _, _, fault, failed, _⟩ :=
      submit_cases carried sendable valid steady distinct ordered whole deliverable up dispatch
    · exact ⟨results, came⟩
    · obtain ⟨result, came⟩ := every packet member
      cases came.symm.trans failed

/-- Workers in the process and nodes that can all be reached agree on packets that have a position, in
every interleaving of either and whatever jobs they did before. One has results exactly if the other has, and they
are the same in some order. A single worker and a single node that fail, fail for the first
packet that does: the worker with its fault, the node with the report of it. -/
theorem submit_agree (created : LocalExecutor.create threads evaluator moves = .ok workers)
    (carried : Loopback.transport nodes evaluator unreachable turns = .ok carrier)
    (up : ∀ index < nodes, index ∉ unreachable) (valid : inputs.cacheSpec.validate = .ok ())
    (sendable : Wire.Sendable inputs) (steady : evaluator.Steady inputs)
    (distinct : (packets.map Packet.id).Nodup) (ordered : ∀ packet ∈ packets, packet.first ≤ packet.last)
    (deliverable : ∀ packet ∈ packets, Wire.Sendable (TaskOutcome.ofResult (packet.outcome evaluator inputs)))
    (earlier : List (List LocalExecutor.Move × List Packet)) (dispatch : Dispatch (List Nat)) :
    let inside := (workers.submit packets inputs (LocalExecutor.cacheAfter threads evaluator inputs earlier)).1
    let outside := ((create carrier evaluator.width.toUInt64).submit packets inputs dispatch).1
    ((∃ results, inside = .ok results) ↔ ∃ results, outside = .ok results) ∧
      (∀ results others, inside = .ok results → outside = .ok others → results.Perm others) ∧
      (threads = 1 → (∀ move ∈ moves, move.choice = 0) → nodes = 1 →
        ∀ fault, inside = .error fault → fault ≠ .outOfBounds →
          ∃ packet, FirstFailing evaluator inputs packets packet fault ∧
            outside = .error (reported 0 packet fault)) := by
  intro inside outside
  have served := LocalExecutor.served_cacheAfter steady threads earlier
  have insideIff : ∀ results, inside = .ok results ↔
      packets.map (fun packet => packet.outcome evaluator inputs) = results.map .ok := by
    intro results
    rw [← LocalExecutor.submit_eq_ok_iff steady served threads moves results,
      ← LocalExecutor.submit_of_create created]
  refine ⟨?_, fun results others came came' => ?_, ?_⟩
  · rw [exists_congr insideIff, exists_map_eq_iff]
    exact (exists_submit_eq_ok_iff carried up valid sendable steady distinct ordered deliverable dispatch).symm
  · have reordered := perm_of_submit_eq_ok carried sendable valid steady distinct
      (fun packet member result ended => size_lt_of_sendable (deliverable packet member) ended) came'
    rw [(insideIff results).mp came] at reordered
    exact ((List.map_perm_map_iff fun _ _ same => Except.ok.inj same).mp reordered).symm
  · rintro rfl inOrder rfl fault failed whole
    have failed' : (LocalExecutor.submit 1 evaluator moves inputs packets
        (LocalExecutor.cacheAfter 1 evaluator inputs earlier)).1 = .error fault := by
      rw [← LocalExecutor.submit_of_create created]
      exact failed
    obtain broken | ⟨packet, first⟩ := LocalExecutor.submit_fault_inOrder steady served inOrder failed'
    · exact absurd broken whole
    · exact ⟨packet, first, submit_one_node carried (up 0 Nat.one_pos) sendable valid steady distinct
        ordered deliverable first whole dispatch⟩

/-- Only the second of the two packets fails. -/
theorem eq_of_outcome_pairPackets {packet : Packet} {fault : Fault} (member : packet ∈ pairPackets)
    (failed : packet.outcome brittle Loopback.pairInputs = .error fault) :
    packet = ⟨2, 1, 1⟩ ∧ fault = .computation 3 "no data" := by
  obtain ⟨first, second⟩ :
      (⟨1, 0, 0⟩ : Packet).outcome brittle Loopback.pairInputs = .ok ⟨1, 0, 0, 1, #[.zero]⟩ ∧
        (⟨2, 1, 1⟩ : Packet).outcome brittle Loopback.pairInputs = .error (.computation 3 "no data") := by
    simpa [pairPackets] using outcome_pairPackets
  obtain rfl | rfl : packet = ⟨1, 0, 0⟩ ∨ packet = ⟨2, 1, 1⟩ := by simpa [pairPackets] using member
  · cases first.symm.trans failed
  · cases second.symm.trans failed
    exact ⟨rfl, rfl⟩

/-- One worker and one node, each after an earlier job. -/
theorem submit_agree_brittle :
    ∃ workers carrier, LocalExecutor.create 1 brittle [⟨0, 0⟩] = .ok workers ∧
      Loopback.transport 1 brittle [] [0, 0, 0] = .ok carrier ∧
      (workers.submit pairPackets Loopback.pairInputs
        (LocalExecutor.cacheAfter 1 brittle Loopback.pairInputs [([⟨0, 0⟩], pairPackets)])).1 =
          .error (.computation 3 "no data") ∧
      ((create carrier 1).submit pairPackets Loopback.pairInputs ⟨2, [0]⟩).1 =
        .error (.computation 3 "node 0: no data") := by
  obtain ⟨workers, created⟩ : ∃ workers, LocalExecutor.create 1 brittle [⟨0, 0⟩] = .ok workers := ⟨_, rfl⟩
  obtain ⟨carrier, carried⟩ : ∃ carrier, Loopback.transport 1 brittle [] [0, 0, 0] = .ok carrier := ⟨_, rfl⟩
  obtain ⟨_, _, reports⟩ := submit_agree created carried (fun _ _ => List.not_mem_nil) rfl
    Loopback.sendable_pairInputs (brittle_steady _) (by decide : (pairPackets.map Packet.id).Nodup)
    (by decide) sendable_pairPackets [([⟨0, 0⟩], pairPackets)] ⟨2, [0]⟩
  have served := LocalExecutor.served_cacheAfter (brittle_steady Loopback.pairInputs) 1
    [([⟨0, 0⟩], pairPackets)]
  refine ⟨workers, carrier, created, carried, ?_⟩
  cases inside : (workers.submit pairPackets Loopback.pairInputs
      (LocalExecutor.cacheAfter 1 brittle Loopback.pairInputs [([⟨0, 0⟩], pairPackets)])).1 with
  | ok results =>
    rw [LocalExecutor.submit_of_create created, LocalExecutor.submit_eq_ok_iff (brittle_steady _) served,
      outcome_pairPackets] at inside
    have listed : (.error (.computation 3 "no data") : Outcome PacketResult) ∈ results.map .ok :=
      inside ▸ List.mem_cons_of_mem _ (List.mem_cons_self ..)
    simp at listed
  | error fault =>
    have own := inside
    rw [LocalExecutor.submit_of_create created] at own
    obtain ⟨packet, member, failed⟩ := LocalExecutor.submit_fault (brittle_steady _) served own
    obtain ⟨_, rfl⟩ := eq_of_outcome_pairPackets member failed
    obtain ⟨other, first, reported⟩ := reports rfl (by decide) rfl _ inside (by decide)
    exact ⟨rfl, reported.trans rfl⟩

end DistributedExecutor

end Accessibility
