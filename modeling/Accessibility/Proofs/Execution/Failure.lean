import Accessibility.Proofs.Execution.Loopback
import Accessibility.Proofs.Execution.Replies

/-! How a job over the nodes of a process fails. The flag makes healthy nodes leave
tasks unanswered, but it is raised only when a failed reply or a failed node is certain
to be seen first. So a job never fails for what the flag did: it fails for the first
node that is down, or else for a packet that fails on its own
(`submit_over_nodes`). -/
namespace Accessibility.DistributedExecutor
open Loopback

variable {setup : Setup} {job : JobBundle} {alternatives : UInt64} {pending : List Packet}

/-- The fault by which a job reports that a packet failed on a node. -/
def reported (node : UInt64) (packet : Packet) : Fault → Fault
  | .computation zone text => .computation zone s!"node {node}: {text}"
  | fault => .distribution s!"packet {packet.id} failed on node {node}: {fault.message}"

/-- The refusal behind it. -/
def failure (node : UInt64) (packet : Packet) : Fault → Refusal
  | .computation zone text => .failedZone zone node text
  | fault => .failed packet.id node fault.message

theorem fault_failure (node : UInt64) (packet : Packet) (fault : Fault) :
    (failure node packet fault).fault = reported node packet fault := by
  cases fault <;> rfl

/-- The result of a packet that has a position fits it, as long as its values can be counted. -/
theorem fits_outcome {evaluator : Evaluator} {inputs : JobInputs} {packet : Packet}
    {result : PacketResult} (steady : evaluator.Steady inputs) (ordered : packet.first ≤ packet.last)
    (came : packet.outcome evaluator inputs = .ok result)
    (small : result.values.size < UInt64.size) :
    fits evaluator.width.toUInt64 packet result = .ok true := by
  rw [Packet.outcome_eq_answer steady] at came
  obtain ⟨rows, values, counted, product, number⟩ := Packet.exists_count ordered came small
  obtain ⟨zones, _, _, rfl⟩ := (Packet.answer_eq_ok_iff result).mp came
  exact fits_eq_true_iff.mpr ⟨⟨rfl, rfl, rfl⟩, rows, values, counted, product, number.symm⟩

/-- The values of a result that can be sent can be counted. -/
theorem size_lt_of_sendable {came : Outcome PacketResult} {result : PacketResult}
    (deliverable : Wire.Sendable (TaskOutcome.ofResult came)) (same : came = .ok result) :
    result.values.size < UInt64.size := by
  rw [same, TaskOutcome.ofResult, Wire.Sendable, Wire.length_encode_completed] at deliverable
  omega

/-- What a reply adds that a node owes to a packet of the job. -/
theorem acceptReply_owed (distinct : (pending.map Packet.id).Nodup) {entry : Nat × PacketTask}
    (member : entry.2.packet ∈ pending)
    (fitting : ∀ result, entry.2.packet.outcome setup.evaluator job.inputs = .ok result →
      fits alternatives entry.2.packet result = .ok true) :
    acceptReply job.jobId alternatives pending (owed setup job entry) =
      match entry.2.packet.outcome setup.evaluator job.inputs with
      | .ok result => .ok (result, pending.filter (·.id ≠ entry.2.packet.id))
      | .error fault => .error (failure entry.1.toUInt64 entry.2.packet fault) := by
  have waits := (Keyed.find?_eq_some_iff distinct entry.2.packet.id entry.2.packet).mpr ⟨member, rfl⟩
  cases came : entry.2.packet.outcome setup.evaluator job.inputs with
  | ok result => simp [acceptReply, owed, expected, came, TaskOutcome.ofResult, waits, fitting result came]
  | error fault =>
    cases fault <;> simp [acceptReply, owed, expected, came, TaskOutcome.ofResult, waits, failure]

/-- Replies that nodes owe to packets of the job make its results, in their order, or a
packet among them has failed and is reported. -/
theorem collect_owed (setup : Setup) (job : JobBundle) {entries : List (Nat × PacketTask)}
    {left : List Packet}
    (accounted : (entries.map (·.2.packet) ++ left).Perm pending)
    (distinct : (pending.map Packet.id).Nodup)
    (fitting : ∀ packet ∈ pending, ∀ result, packet.outcome setup.evaluator job.inputs = .ok result →
      fits alternatives packet result = .ok true) :
    (∃ results, entries.map (fun entry => entry.2.packet.outcome setup.evaluator job.inputs) =
          results.map .ok ∧
        (left = [] → collect job.jobId alternatives pending (entries.map (owed setup job)) = .ok results)) ∨
      ∃ entry ∈ entries, ∃ fault, entry.2.packet.outcome setup.evaluator job.inputs = .error fault ∧
        collect job.jobId alternatives pending (entries.map (owed setup job)) =
          .error (failure entry.1.toUInt64 entry.2.packet fault) := by
  induction entries generalizing pending with
  | nil =>
    refine .inl ⟨[], rfl, fun none_left => ?_⟩
    subst none_left
    cases List.nil_perm.mp accounted
    rfl
  | cons entry rest ih =>
    have member : entry.2.packet ∈ pending := accounted.subset (by simp)
    have accepted := acceptReply_owed distinct member (fitting _ member)
    have opened := @collect_cons job.jobId alternatives pending (owed setup job entry)
      (rest.map (owed setup job))
    rw [← List.map_cons, accepted] at opened
    rw [opened]
    cases came : entry.2.packet.outcome setup.evaluator job.inputs with
    | error fault =>
      refine .inr ⟨entry, List.mem_cons_self, fault, came, ?_⟩
      simp [bind, Except.bind]
    | ok result =>
      have others : (rest.map (·.2.packet) ++ left).Perm (pending.filter (·.id ≠ entry.2.packet.id)) := by
        have all_distinct := (accounted.map Packet.id).nodup_iff.mpr distinct
        have apart : ∀ packet ∈ rest.map (·.2.packet) ++ left, packet.id ≠ entry.2.packet.id := by
          intro packet there same
          refine (List.nodup_cons.mp all_distinct).1 ?_
          rw [← same]
          exact List.mem_map_of_mem there
        have filtered := accounted.filter (·.id ≠ entry.2.packet.id)
        simp only [List.map_cons, List.cons_append] at filtered
        rw [List.filter_cons_of_neg (by simp), List.filter_eq_self.mpr (by simpa using apart)] at filtered
        exact filtered
      have distinct' : ((pending.filter (·.id ≠ entry.2.packet.id)).map Packet.id).Nodup :=
        distinct.sublist (List.filter_sublist.map _)
      obtain ⟨results, came', collected⟩ | ⟨failed, there, fault, came', collected⟩ :=
        ih others distinct' fun packet kept => fitting packet (List.mem_filter.mp kept).1
      · refine .inl ⟨result :: results, by simp [came, came'], fun none_left => ?_⟩
        simp only [bind, Except.bind, collected none_left]
      · refine .inr ⟨failed, List.mem_cons_of_mem _ there, fault, came', ?_⟩
        simp only [bind, Except.bind, collected]

section Nodes

variable {evaluator : Evaluator} {inputs : JobInputs} {nodes index : Nat} {unreachable schedule : List Nat}
  {carrier : Transport (List Nat)} {packets : List Packet} {dispatch : Dispatch (List Nat)}

/-- A job that runs over nodes: whatever they do, an account of it can be given in the
end, and its outcome is made from the answer of that state. -/
theorem submit_account (created : transport nodes evaluator unreachable schedule = .ok carrier)
    (sendable : Wire.Sendable inputs) (valid : inputs.cacheSpec.validate = .ok ())
    (steady : evaluator.Steady inputs) (packets : List Packet) (dispatch : Dispatch (List Nat)) :
    ∃ bundle final answered dropped,
      Sound ⟨nodes, evaluator, unreachable, bundle⟩
        ⟨dispatch.nextJob, evaluator.width.toUInt64, inputs⟩
        (packets.map (⟨dispatch.nextJob, ·⟩)) final answered dropped ∧
      final.isFinished = true ∧ 0 < nodes ∧
      (submit carrier evaluator.width.toUInt64 packets inputs dispatch).1 =
        settle dispatch.nextJob evaluator.width.toUInt64 packets final.answer := by
  have opens := JobBundle.decode_encodeParts sendable dispatch.nextJob evaluator.width.toUInt64
  rw [submit_fst, send_fst created]
  generalize JobBundle.encodeParts dispatch.nextJob evaluator.width.toUInt64 inputs = bundle at opens ⊢
  have finished := isFinished_finalState ⟨nodes, evaluator, unreachable, bundle⟩ schedule
    (packets.map (⟨dispatch.nextJob, ·⟩))
  have accounted : Accounted ⟨nodes, evaluator, unreachable, bundle⟩
      ⟨dispatch.nextJob, evaluator.width.toUInt64, inputs⟩ (packets.map (⟨dispatch.nextJob, ·⟩)) _ :=
    finalState_spec opens valid steady schedule _
  obtain ⟨answered, dropped, sound⟩ := accounted
  exact ⟨bundle, _, answered, dropped, sound, finished, some_node_of_transport created, rfl⟩

/-- A task of a job over packets is that of a packet, under the number of the job. -/
private theorem orderly_tasks {bundle : List UInt8} {jobId alternatives : UInt64}
    (whole : ∀ packet ∈ packets, packet.outcome evaluator inputs ≠ .error .outOfBounds) :
    Orderly ⟨nodes, evaluator, unreachable, bundle⟩ ⟨jobId, alternatives, inputs⟩
      (packets.map (⟨jobId, ·⟩)) := by
  constructor
  · intro task member
    obtain ⟨packet, _, rfl⟩ := List.mem_map.mp member
    rfl
  · intro task member
    obtain ⟨packet, listed, rfl⟩ := List.mem_map.mp member
    exact whole packet listed

/-- The packets that were answered, and those that were not. -/
private theorem packets_of_tasks {jobId : UInt64} {answered : List (Nat × PacketTask)}
    {rest : List PacketTask}
    (shared : (answered.map Prod.snd ++ rest).Perm (packets.map (⟨jobId, ·⟩))) :
    (answered.map (·.2.packet) ++ rest.map PacketTask.packet).Perm packets := by
  have listed := shared.map PacketTask.packet
  rw [List.map_map, List.map_append, List.map_map] at listed
  have plain : packets.map (PacketTask.packet ∘ fun packet => ⟨jobId, packet⟩) = packets :=
    List.map_id packets
  rwa [plain] at listed

/-- Unless a node has failed, the replies make the results of all packets, or a packet
among them has failed and is reported. -/
theorem settle_owed {bundle : List UInt8} {jobId : UInt64} {final : State}
    {answered : List (Nat × PacketTask)} {dropped : List PacketTask}
    (sound : Sound ⟨nodes, evaluator, unreachable, bundle⟩ ⟨jobId, evaluator.width.toUInt64, inputs⟩
      (packets.map (⟨jobId, ·⟩)) final answered dropped)
    (finished : final.isFinished = true) (some_node : 0 < nodes)
    (calm : ∀ node ∈ final.nodes, ¬ node.Failed)
    (steady : evaluator.Steady inputs) (distinct : (packets.map Packet.id).Nodup)
    (ordered : ∀ packet ∈ packets, packet.first ≤ packet.last)
    (small : ∀ packet ∈ packets, ∀ result, packet.outcome evaluator inputs = .ok result →
      result.values.size < UInt64.size) :
    let replies := answered.map
      (owed ⟨nodes, evaluator, unreachable, bundle⟩ ⟨jobId, evaluator.width.toUInt64, inputs⟩)
    (∃ results, settle jobId evaluator.width.toUInt64 packets (.ok replies) = .ok results ∧
        (results.map .ok).Perm (packets.map fun packet => packet.outcome evaluator inputs)) ∨
      ∃ packet ∈ packets, ∃ node < nodes, ∃ fault, packet.outcome evaluator inputs = .error fault ∧
        settle jobId evaluator.width.toUInt64 packets (.ok replies) =
          .error (reported node.toUInt64 packet fault) := by
  have accounted := packets_of_tasks (sound.perm_tasks finished)
  have fitting : ∀ packet ∈ packets, ∀ result, packet.outcome evaluator inputs = .ok result →
      fits evaluator.width.toUInt64 packet result = .ok true := fun packet member result ended =>
    fits_outcome steady (ordered packet member) ended (small packet member result ended)
  simp only [settle, pendingOf_eq_self distinct]
  obtain ⟨results, every, collected⟩ | ⟨entry, member, fault, failed, collected⟩ :=
    collect_owed ⟨nodes, evaluator, unreachable, bundle⟩
      ⟨jobId, evaluator.width.toUInt64, inputs⟩ accounted distinct fitting
  · left
    have clean : ∀ entry ∈ answered, (expected ⟨nodes, evaluator, unreachable, bundle⟩
        ⟨jobId, evaluator.width.toUInt64, inputs⟩ entry.2).isFailed = false := by
      intro entry member
      have listed := List.mem_map_of_mem
        (f := fun entry : Nat × PacketTask => entry.2.packet.outcome evaluator inputs) member
      rw [every] at listed
      obtain ⟨result, _, came⟩ := List.mem_map.mp listed
      simp only [expected, ← came, TaskOutcome.ofResult, TaskOutcome.isFailed]
    obtain ⟨queue, none_dropped⟩ := sound.complete finished some_node calm clean
    rw [queue, none_dropped] at accounted collected
    refine ⟨results, by rw [collected rfl], ?_⟩
    have outcomes := accounted.map fun packet => packet.outcome evaluator inputs
    simp only [List.append_nil, List.map_nil, List.map_map] at outcomes
    rw [← every]
    exact outcomes
  · right
    have own := sound.own entry member
    refine ⟨entry.2.packet, accounted.subset ?_, entry.1, own.1, fault, failed, ?_⟩
    · exact List.mem_append_left _ (List.mem_map_of_mem member)
    · rw [collected, ← fault_failure]

/-- If a node cannot be reached, the job fails for the first one that cannot. -/
theorem submit_unreachable (created : transport nodes evaluator unreachable schedule = .ok carrier)
    (sendable : Wire.Sendable inputs) (valid : inputs.cacheSpec.validate = .ok ())
    (steady : evaluator.Steady inputs)
    (whole : ∀ packet ∈ packets, packet.outcome evaluator inputs ≠ .error .outOfBounds)
    (within : index < nodes) (down : index ∈ unreachable)
    (lowest : ∀ lower < index, lower ∉ unreachable) :
    (submit carrier evaluator.width.toUInt64 packets inputs dispatch).1 =
      .error (Loopback.Refusal.unreachable index).fault := by
  obtain ⟨bundle, final, answered, dropped, sound, finished, _, outcome⟩ :=
    submit_account created sendable valid steady packets dispatch
  have fails := sound.fault?_eq_unreachable finished (orderly_tasks whole) within down lowest
  rw [outcome]
  simp [State.answer, fails, settle]

/-- A job that succeeds has the result of every packet, once. -/
theorem perm_of_submit_eq_ok (created : transport nodes evaluator unreachable schedule = .ok carrier)
    (sendable : Wire.Sendable inputs) (valid : inputs.cacheSpec.validate = .ok ())
    (steady : evaluator.Steady inputs) (distinct : (packets.map Packet.id).Nodup)
    (small : ∀ packet ∈ packets, ∀ result, packet.outcome evaluator inputs = .ok result →
      result.values.size < UInt64.size) {results : List PacketResult}
    (came : (submit carrier evaluator.width.toUInt64 packets inputs dispatch).1 = .ok results) :
    (results.map .ok).Perm (packets.map fun packet => packet.outcome evaluator inputs) := by
  obtain ⟨bundle, final, answered, dropped, sound, finished, some_node, outcome⟩ :=
    submit_account created sendable valid steady packets dispatch
  rw [outcome] at came
  cases answer : final.answer with
  | error fault => simp [answer, settle] at came
  | ok replies =>
    obtain ⟨calm, rfl⟩ := sound.answer answer
    rw [answer] at came
    have ordered := ordered_of_collect distinct (pendingOf_eq_self distinct ▸ settle_eq_ok_iff.mp came)
    obtain ⟨found, settled, every⟩ | ⟨packet, _, node, _, fault, _, settled⟩ :=
      settle_owed sound finished some_node (not_failed_of_fault?_eq_none finished calm) steady distinct
        ordered small
    · rw [settled] at came
      cases came
      exact every
    · rw [settled] at came
      cases came

/-- If all nodes can be reached, a job succeeds, or it fails for a packet that fails on
its own, and says on which node. -/
theorem submit_cases (created : transport nodes evaluator unreachable schedule = .ok carrier)
    (sendable : Wire.Sendable inputs) (valid : inputs.cacheSpec.validate = .ok ())
    (steady : evaluator.Steady inputs) (distinct : (packets.map Packet.id).Nodup)
    (ordered : ∀ packet ∈ packets, packet.first ≤ packet.last)
    (whole : ∀ packet ∈ packets, packet.outcome evaluator inputs ≠ .error .outOfBounds)
    (deliverable : ∀ packet ∈ packets, Wire.Sendable (TaskOutcome.ofResult (packet.outcome evaluator inputs)))
    (up : ∀ index < nodes, index ∉ unreachable) (dispatch : Dispatch (List Nat)) :
    (∃ results, (submit carrier evaluator.width.toUInt64 packets inputs dispatch).1 = .ok results ∧
        (results.map .ok).Perm (packets.map fun packet => packet.outcome evaluator inputs)) ∨
      ∃ packet ∈ packets, ∃ node < nodes, ∃ fault, packet.outcome evaluator inputs = .error fault ∧
        (submit carrier evaluator.width.toUInt64 packets inputs dispatch).1 =
          .error (reported node.toUInt64 packet fault) := by
  obtain ⟨bundle, final, answered, dropped, sound, finished, some_node, outcome⟩ :=
    submit_account created sendable valid steady packets dispatch
  have calm := sound.fault?_eq_none (orderly_tasks whole) up
  have answer := sound.answer_eq_ok calm fun task member => by
    obtain ⟨packet, listed, rfl⟩ := List.mem_map.mp member
    exact deliverable packet listed
  rw [outcome, answer]
  exact settle_owed sound finished some_node (not_failed_of_fault?_eq_none finished calm) steady distinct
    ordered fun packet member result came => size_lt_of_sendable (deliverable packet member) came

/-- How a job over the nodes of a process fails, in every interleaving. If a node cannot
be reached, the job names the first that cannot, whatever else happens. If all can, a job over
packets that each have a position fails exactly if a packet fails on its own, and then reports such
a packet; and a job that does not fail has the result of every packet. -/
theorem submit_over_nodes (created : transport nodes evaluator unreachable schedule = .ok carrier)
    (sendable : Wire.Sendable inputs) (valid : inputs.cacheSpec.validate = .ok ())
    (steady : evaluator.Steady inputs) (distinct : (packets.map Packet.id).Nodup)
    (whole : ∀ zone ∈ inputs.zones.zoneIds, evaluator.answer inputs zone ≠ .error .outOfBounds)
    (deliverable : ∀ packet ∈ packets, Wire.Sendable (TaskOutcome.ofResult (packet.outcome evaluator inputs)))
    (dispatch : Dispatch (List Nat)) :
    let outcome := (submit carrier evaluator.width.toUInt64 packets inputs dispatch).1
    (∀ index < nodes, index ∈ unreachable → (∀ lower < index, lower ∉ unreachable) →
        outcome = .error (.distribution s!"node {index} is unreachable")) ∧
      ((∀ index < nodes, index ∉ unreachable) →
        ((∀ packet ∈ packets, packet.first ≤ packet.last) →
          ((∃ fault, outcome = .error fault) ↔
            ∃ packet ∈ packets, ∃ fault, packet.outcome evaluator inputs = .error fault) ∧
          ∀ fault, outcome = .error fault → ∃ packet ∈ packets, ∃ node < nodes, ∃ own,
            packet.outcome evaluator inputs = .error own ∧ fault = reported node.toUInt64 packet own) ∧
        ∀ results, outcome = .ok results →
          (results.map .ok).Perm (packets.map fun packet => packet.outcome evaluator inputs)) := by
  intro outcome
  have whole' : ∀ packet ∈ packets, packet.outcome evaluator inputs ≠ .error .outOfBounds :=
    fun packet _ => packet.outcome_ne_outOfBounds steady whole
  have all_or_none : ∀ results, outcome = .ok results →
      (results.map .ok).Perm (packets.map fun packet => packet.outcome evaluator inputs) := fun results came =>
    perm_of_submit_eq_ok created sendable valid steady distinct
      (fun packet member result ended => size_lt_of_sendable (deliverable packet member) ended) came
  refine ⟨fun index within down lowest => ?_, fun up => ⟨fun ordered => ?_, all_or_none⟩⟩
  · exact submit_unreachable created sendable valid steady whole' within down lowest
  · obtain ⟨results, came, every⟩ | ⟨packet, member, node, within, own, failed, came⟩ :=
      submit_cases created sendable valid steady distinct ordered whole' deliverable up dispatch
    · have succeeds : outcome = .ok results := came
      refine ⟨⟨?_, ?_⟩, ?_⟩
      · rintro ⟨fault, failed⟩
        rw [succeeds] at failed
        cases failed
      · rintro ⟨packet, member, fault, failed⟩
        have listed := every.symm.subset (List.mem_map_of_mem member)
        rw [failed] at listed
        simp at listed
      · rintro fault failed
        rw [succeeds] at failed
        cases failed
    · have fails : outcome = .error (reported node.toUInt64 packet own) := came
      refine ⟨⟨fun _ => ⟨packet, member, own, failed⟩, fun _ => ⟨_, fails⟩⟩, ?_⟩
      rintro fault ended
      rw [fails] at ended
      cases ended
      exact ⟨packet, member, node, within, own, failed, rfl⟩

end Nodes

/-- An evaluator that has no answer for one zone. -/
def brittle : Evaluator :=
  .ofFunction ["a"] fun zone _ => if zone = 3 then .error (.computation 3 "no data") else .ok [.zero]

theorem brittle_steady (inputs : JobInputs) : brittle.Steady inputs :=
  Evaluator.steady_of_quiet fun _ => ⟨_, rfl⟩

/-- A packet for each of two zones. -/
def pairPackets : List Packet := [⟨1, 0, 0⟩, ⟨2, 1, 1⟩]

theorem outcome_pairPackets : pairPackets.map (fun packet => packet.outcome brittle pairInputs) =
    [.ok ⟨1, 0, 0, 1, #[.zero]⟩, .error (.computation 3 "no data")] := by
  decide +kernel

theorem sendable_pairPackets : ∀ packet ∈ pairPackets,
    Wire.Sendable (TaskOutcome.ofResult (packet.outcome brittle pairInputs)) := by
  unfold Wire.Sendable
  decide +kernel

theorem answer_brittle : ∀ zone ∈ pairInputs.zones.zoneIds,
    brittle.answer pairInputs zone ≠ .error .outOfBounds := by
  intro zone _
  have given : brittle.answer pairInputs zone =
      if zone = 3 then .error (.computation 3 "no data") else .ok [.zero] := rfl
  rw [given]
  split <;> simp

theorem submit_over_nodes_brittle :
    (∃ carrier, transport 2 brittle [1] [0, 0, 1] = .ok carrier ∧
      (submit carrier 1 pairPackets pairInputs (start [])).1 =
        .error (.distribution s!"node {1} is unreachable")) ∧
    ∃ carrier, transport 2 brittle [] [0, 0, 1] = .ok carrier ∧ ∃ node < 2,
      (submit carrier 1 pairPackets pairInputs (start [])).1 =
        .error (reported node.toUInt64 ⟨2, 1, 1⟩ (.computation 3 "no data")) := by
  have valid : pairInputs.cacheSpec.validate = .ok () := rfl
  have distinct : (pairPackets.map Packet.id).Nodup := by decide
  constructor
  · obtain ⟨carrier, created⟩ : ∃ carrier, transport 2 brittle [1] [0, 0, 1] = .ok carrier := ⟨_, rfl⟩
    obtain ⟨down, _⟩ := submit_over_nodes created sendable_pairInputs valid (brittle_steady _) distinct
      answer_brittle sendable_pairPackets (start [])
    exact ⟨carrier, created, down 1 (by decide) (by decide) (by decide)⟩
  · obtain ⟨carrier, created⟩ : ∃ carrier, transport 2 brittle [] [0, 0, 1] = .ok carrier := ⟨_, rfl⟩
    obtain ⟨_, up⟩ := submit_over_nodes created sendable_pairInputs valid (brittle_steady _) distinct
      answer_brittle sendable_pairPackets (start [])
    obtain ⟨fails, reports⟩ := (up (by simp)).1 (by decide)
    obtain ⟨first, second⟩ :
        (⟨1, 0, 0⟩ : Packet).outcome brittle pairInputs = .ok ⟨1, 0, 0, 1, #[.zero]⟩ ∧
          (⟨2, 1, 1⟩ : Packet).outcome brittle pairInputs = .error (.computation 3 "no data") := by
      simpa [pairPackets] using outcome_pairPackets
    obtain ⟨fault, failed⟩ := fails.mpr ⟨⟨2, 1, 1⟩, by simp [pairPackets], _, second⟩
    obtain ⟨packet, member, node, within, own, came, rfl⟩ := reports fault failed
    refine ⟨carrier, created, node, within, ?_⟩
    obtain rfl | rfl : packet = ⟨1, 0, 0⟩ ∨ packet = ⟨2, 1, 1⟩ := by simpa [pairPackets] using member
    · rw [first] at came
      cases came
    · rw [second] at came
      cases came
      exact failed

end Accessibility.DistributedExecutor
