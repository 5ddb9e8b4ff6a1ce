import Accessibility.Execution.Distributed
import Accessibility.Proofs.Keyed
import Accessibility.Proofs.Packet.Range

/-! Which replies a distributed executor accepts: those that answer every packet of the
job once, under the job's number and with a result of the right shape, in whatever order
they come (`collect_eq_ok_iff`). Whether the transport is honest plays no part in it.
Over a sequence of jobs no two share a number, so a late reply is no reply
(`exchanges_accepted`). -/
namespace Accessibility

namespace Packet

/-- The number of positions, however large. -/
def rows (packet : Packet) : Nat := packet.last.toNat - packet.first.toNat + 1

/-- A packet with at least one position, whose positions and values words can count. -/
structure Countable (alternatives : UInt64) (packet : Packet) : Prop where
  ordered : packet.first ≤ packet.last
  few : packet.rows < UInt64.size
  small : packet.rows * alternatives.toNat < UInt64.size

/-- A result with the range of the packet and a row for every position. -/
structure Fits (alternatives : UInt64) (packet : Packet) (result : PacketResult) : Prop where
  first : result.first = packet.first
  last : result.last = packet.last
  width : result.alternatives = alternatives
  values : result.values.size = packet.rows * alternatives.toNat

/-- Counting in words finds the numbers of positions and values. -/
theorem Countable.exists_count {alternatives : UInt64} {packet : Packet}
    (countable : packet.Countable alternatives) :
    ∃ rows values, packet.rowCount = .ok rows ∧ Word.product rows alternatives = .ok values ∧
      values.toNat = packet.rows * alternatives.toNat := by
  have order : packet.first.toNat ≤ packet.last.toNat := countable.ordered
  have rows : packet.rows.toUInt64.toNat = packet.rows := UInt64.toNat_ofNat_of_lt' countable.few
  have values := UInt64.toNat_ofNat_of_lt' countable.small
  refine ⟨packet.rows.toUInt64, _, Word.span_eq_ok_iff.mpr ⟨countable.ordered, ?_⟩,
    Word.product_eq_ok_iff.mpr (values.trans (by rw [rows])), values⟩
  rw [rows, Packet.rows]
  omega

end Packet

namespace DistributedExecutor

variable {jobId alternatives : UInt64} {packets pending : List Packet} {reply : TaskReply}
  {replies : List TaskReply} {results : List PacketResult}

/-- What makes a result fit, by the checks it goes through. -/
theorem fits_eq_true_iff {packet : Packet} {result : PacketResult} :
    fits alternatives packet result = .ok true ↔
      (result.first = packet.first ∧ result.last = packet.last ∧ result.alternatives = alternatives) ∧
        ∃ rows values, packet.rowCount = .ok rows ∧ Word.product rows alternatives = .ok values ∧
          result.values.size = values.toNat := by
  unfold fits
  by_cases shape : result.first = packet.first ∧ result.last = packet.last ∧ result.alternatives = alternatives
  · rw [if_neg (by simpa [and_assoc] using shape)]
    simp [shape, bind_eq_ok_iff, pure, Except.pure]
  · have other := shape
    rw [not_and_or, not_and_or, ← or_assoc] at other
    rw [if_pos (by simpa using other)]
    exact iff_of_false nofun fun passes => shape passes.1

/-- For a result of its packet's range the values are counted, and for no other. -/
theorem fits_eq_error {packet : Packet} {result : PacketResult} {fault : Fault}
    (uncounted : fits alternatives packet result = .error fault) : fault = .outOfBounds := by
  unfold fits at uncounted
  split at uncounted
  · cases uncounted
  · obtain span | ⟨rows, -, uncounted⟩ := bind_eq_error_iff.mp uncounted
    · exact Word.span_eq_error span
    · obtain wide | ⟨_, -, ⟨⟩⟩ := bind_eq_error_iff.mp uncounted
      exact Word.holding_eq_error wide

theorem fits_iff {packet : Packet} (countable : packet.Countable alternatives)
    (result : PacketResult) :
    fits alternatives packet result = .ok true ↔ packet.Fits alternatives result := by
  obtain ⟨rows, values, counted, product, number⟩ := countable.exists_count
  rw [fits_eq_true_iff, counted]
  constructor
  · rintro ⟨⟨first, last, width⟩, _, values', ⟨⟩, product', size⟩
    obtain rfl := Except.ok.inj (product.symm.trans product')
    exact ⟨first, last, width, size.trans number⟩
  · rintro ⟨first, last, width, size⟩
    exact ⟨⟨first, last, width⟩, rows, values, rfl, product, size.trans number.symm⟩

/-- Packets with ids of their own are all to be answered. -/
theorem pendingOf_eq_self (distinct : (packets.map Packet.id).Nodup) : pendingOf packets = packets := by
  induction packets with
  | nil => rfl
  | cons packet rest ih =>
    obtain ⟨fresh, distinct⟩ := List.nodup_cons.mp distinct
    have alone : rest.any (fun other => decide (other.id = packet.id)) = false := by
      refine List.any_eq_false.mpr fun other member same => fresh ?_
      rw [← of_decide_eq_true same]
      exact List.mem_map_of_mem member
    simp [pendingOf, alone, ih distinct]

/-- What makes a reply accepted, by the checks it goes through. -/
theorem acceptReply_eq_ok {result : PacketResult} {left : List Packet} :
    acceptReply jobId alternatives pending reply = .ok (result, left) ↔
      reply.jobId = jobId ∧ reply.outcome = .completed result ∧
        (∃ packet, pending.find? (·.id = reply.packetId) = some packet ∧
          fits alternatives packet result = .ok true) ∧
        left = pending.filter (·.id ≠ reply.packetId) := by
  unfold acceptReply
  by_cases own : reply.jobId = jobId
  · cases pending.find? (·.id = reply.packetId) with
    | none => simp [own]
    | some packet =>
      cases came : reply.outcome with
      | failed zone text => cases zone <;> simp [own]
      | completed brought =>
        simp only [own, ne_eq, not_true_eq_false, ↓reduceIte, TaskOutcome.completed.injEq,
          Option.some.injEq, exists_eq_left', true_and]
        split
        next checked =>
          rw [Except.ok.injEq, Prod.mk.injEq]
          constructor
          · rintro ⟨rfl, rfl⟩
            exact ⟨rfl, checked, rfl⟩
          · rintro ⟨rfl, _, rfl⟩
            exact ⟨rfl, rfl⟩
        next checked =>
          refine iff_of_false nofun ?_
          rintro ⟨rfl, fitting, _⟩
          cases checked.symm.trans fitting
        next checked =>
          refine iff_of_false nofun ?_
          rintro ⟨rfl, fitting, _⟩
          cases checked.symm.trans fitting
  · simp [own]

/-- A reply is accepted if it is of this job, a packet waits for it, and it brings a
result that fits. -/
theorem acceptReply_eq_ok_iff (distinct : (pending.map Packet.id).Nodup)
    (countable : ∀ packet ∈ pending, packet.Countable alternatives) {result : PacketResult}
    {left : List Packet} :
    acceptReply jobId alternatives pending reply = .ok (result, left) ↔
      reply.jobId = jobId ∧ reply.outcome = .completed result ∧
        (∃ packet ∈ pending, packet.id = reply.packetId ∧ packet.Fits alternatives result) ∧
        left = pending.filter (·.id ≠ reply.packetId) := by
  have waits := Keyed.find?_eq_some_iff distinct reply.packetId
  rw [acceptReply_eq_ok]
  refine and_congr_right fun _ => and_congr_right fun _ => and_congr_left fun _ => exists_congr fun packet => ?_
  rw [waits, and_assoc]
  exact and_congr_right fun member => and_congr_right fun _ => fits_iff (countable packet member) result

/-- The first reply is judged before the others. -/
theorem collect_cons (reply : TaskReply) (rest : List TaskReply) :
    collect jobId alternatives pending (reply :: rest) =
      acceptReply jobId alternatives pending reply >>= fun accepted =>
        collect jobId alternatives accepted.2 rest >>= fun results => .ok (accepted.1 :: results) := by
  cases pending <;> rfl

/-- Only packets that have a position are all answered by replies that are accepted. -/
theorem ordered_of_collect (distinct : (pending.map Packet.id).Nodup)
    (came : collect jobId alternatives pending replies = .ok results) :
    ∀ packet ∈ pending, packet.first ≤ packet.last := by
  induction replies generalizing pending results with
  | nil =>
    cases pending with
    | nil => simp
    | cons packet more => cases came
  | cons reply rest ih =>
    rw [collect_cons] at came
    obtain ⟨⟨result, left⟩, accepted, came⟩ := bind_eq_ok_iff.mp came
    obtain ⟨later, collected, -⟩ := bind_eq_ok_iff.mp came
    obtain ⟨_, _, ⟨answered, waits, checked⟩, rfl⟩ := acceptReply_eq_ok.mp accepted
    obtain ⟨_, rows, _, counted, _⟩ := fits_eq_true_iff.mp checked
    intro packet member
    by_cases same : packet.id = reply.packetId
    · obtain rfl : packet = answered :=
        Option.some.inj (((Keyed.find?_eq_some_iff distinct _ _).mpr ⟨member, same⟩).symm.trans waits)
      exact (Word.span_eq_ok_iff.mp counted).1
    · exact ih (distinct.sublist (List.filter_sublist.map _)) collected packet
        (List.mem_filter.mpr ⟨member, decide_eq_true same⟩)

/-- Replies that answer the packets of a job in full, and bring the results. -/
structure Answered (jobId alternatives : UInt64) (packets : List Packet)
    (replies : List TaskReply) (results : List PacketResult) : Prop where
  current : ∀ reply ∈ replies, reply.jobId = jobId
  /-- Every packet is answered exactly once, and nothing else is. -/
  once : (replies.map TaskReply.packetId).Perm (packets.map Packet.id)
  fitting : ∀ reply ∈ replies, ∀ packet ∈ packets, packet.id = reply.packetId →
    ∃ result, reply.outcome = .completed result ∧ packet.Fits alternatives result
  results : replies.map TaskReply.outcome = results.map .completed

/-- The first reply answers one of the packets, the others answer the rest. -/
theorem answered_cons_iff (distinct : (packets.map Packet.id).Nodup) :
    Answered jobId alternatives packets (reply :: replies) results ↔
      ∃ result later, results = result :: later ∧
        reply.jobId = jobId ∧ reply.outcome = .completed result ∧
        (∃ packet ∈ packets, packet.id = reply.packetId ∧ packet.Fits alternatives result) ∧
        Answered jobId alternatives (packets.filter (·.id ≠ reply.packetId)) replies later := by
  have others : (packets.filter (·.id ≠ reply.packetId)).map Packet.id =
      (packets.map Packet.id).erase reply.packetId := by
    rw [distinct.erase_eq_filter, List.filter_map]
    refine congrArg _ (List.filter_congr fun packet _ => ?_)
    rw [Function.comp_apply, bne, beq_eq_decide, ← decide_not]
  constructor
  · intro answered
    obtain ⟨listed, once⟩ := List.cons_perm_iff_perm_erase.mp answered.once
    obtain ⟨packet, member, same⟩ := List.mem_map.mp listed
    obtain ⟨brought, came, fits⟩ := answered.fitting reply List.mem_cons_self packet member same
    cases results with
    | nil => cases answered.results
    | cons result later =>
    obtain ⟨first, rest⟩ := List.cons.inj answered.results
    rw [came, TaskOutcome.completed.injEq] at first
    subst first
    refine ⟨brought, later, rfl, answered.current reply List.mem_cons_self, came,
      ⟨packet, member, same, fits⟩, ?_⟩
    exact {
      current := fun other there => answered.current other (List.mem_cons_of_mem _ there)
      once := by rwa [others]
      fitting := fun other there packet kept => answered.fitting other (List.mem_cons_of_mem _ there)
        packet (List.mem_filter.mp kept).1
      results := rest }
  · rintro ⟨result, later, rfl, own, came, ⟨packet, member, same, fits⟩, answered⟩
    have listed : reply.packetId ∈ packets.map Packet.id := same ▸ List.mem_map_of_mem member
    refine ⟨?_, ?_, ?_, ?_⟩
    · rintro other there
      obtain rfl | there := List.mem_cons.mp there
      · exact own
      · exact answered.current other there
    · rw [List.map_cons, List.cons_perm_iff_perm_erase, ← others]
      exact ⟨listed, answered.once⟩
    · intro other there asked asking named
      by_cases again : asked.id = reply.packetId
      · have : asked = packet :=
          List.inj_on_of_nodup_map distinct asking member (again.trans same.symm)
        subst this
        obtain rfl | there := List.mem_cons.mp there
        · exact ⟨result, came, fits⟩
        · -- A later reply for the same packet would make the ids of the rest repeat one.
          have repeated := answered.once.subset (List.mem_map_of_mem there)
          rw [others, ← named, again] at repeated
          exact absurd repeated distinct.not_mem_erase
      · obtain rfl | there := List.mem_cons.mp there
        · exact absurd named again
        · exact answered.fitting other there asked
            (List.mem_filter.mpr ⟨asking, by simpa using again⟩) named
    · rw [List.map_cons, came, answered.results, List.map_cons]

theorem collect_cons_iff (distinct : (packets.map Packet.id).Nodup)
    (countable : ∀ packet ∈ packets, packet.Countable alternatives) :
    collect jobId alternatives packets (reply :: replies) = .ok results ↔
      ∃ result later, results = result :: later ∧
        reply.jobId = jobId ∧ reply.outcome = .completed result ∧
        (∃ packet ∈ packets, packet.id = reply.packetId ∧ packet.Fits alternatives result) ∧
        collect jobId alternatives (packets.filter (·.id ≠ reply.packetId)) replies = .ok later := by
  simp only [collect_cons, bind_eq_ok_iff, Prod.exists, acceptReply_eq_ok_iff distinct countable,
    Except.ok.injEq]
  constructor
  · rintro ⟨result, _, ⟨own, came, fits, rfl⟩, later, collected, rfl⟩
    exact ⟨result, later, rfl, own, came, fits, collected⟩
  · rintro ⟨result, later, rfl, own, came, fits, collected⟩
    exact ⟨result, _, ⟨own, came, fits, rfl⟩, later, collected, rfl⟩

/-- The replies of a job are accepted exactly if they answer its packets in full; the
results are then theirs, in the order of arrival. -/
theorem collect_eq_ok_iff (distinct : (packets.map Packet.id).Nodup)
    (countable : ∀ packet ∈ packets, packet.Countable alternatives) :
    collect jobId alternatives packets replies = .ok results ↔
      Answered jobId alternatives packets replies results := by
  induction replies generalizing packets results with
  | nil =>
    cases packets with
    | nil =>
      simp only [collect, Except.ok.injEq]
      exact ⟨fun empty => ⟨by simp, by simp, by simp, by simp [← empty]⟩,
        fun answered => by simpa using answered.results.symm⟩
    | cons packet packets =>
      simp only [collect, reduceCtorEq, false_iff]
      intro answered
      simpa using answered.once
  | cons reply rest ih =>
    have distinct' : ((packets.filter (·.id ≠ reply.packetId)).map Packet.id).Nodup :=
      distinct.sublist (List.filter_sublist.map _)
    have continued : ∀ later, collect jobId alternatives (packets.filter (·.id ≠ reply.packetId)) rest =
          .ok later ↔
        Answered jobId alternatives (packets.filter (·.id ≠ reply.packetId)) rest later :=
      fun later => ih distinct' fun packet kept => countable packet (List.mem_filter.mp kept).1
    rw [collect_cons_iff distinct countable, answered_cons_iff distinct]
    simp only [continued]

/-- The result that a reply brings. -/
def brought (reply : TaskReply) : Option PacketResult :=
  match reply.outcome with
  | .completed result => some result
  | .failed .. => none

/-- Replies bring their results one for one if each brings one. -/
private theorem map_outcome_eq (every : ∀ reply ∈ replies, ∃ result, reply.outcome = .completed result) :
    replies.map TaskReply.outcome = (replies.filterMap brought).map .completed := by
  induction replies with
  | nil => rfl
  | cons reply rest ih =>
    obtain ⟨result, came⟩ := every reply List.mem_cons_self
    have later := ih fun other there => every other (List.mem_cons_of_mem _ there)
    simp [brought, came, later]

private theorem Answered.every_completed
    (answered : Answered jobId alternatives packets replies results) :
    ∀ reply ∈ replies, ∃ result, reply.outcome = .completed result := by
  intro reply member
  have listed := List.mem_map_of_mem (f := TaskReply.outcome) member
  rw [answered.results] at listed
  obtain ⟨result, _, same⟩ := List.mem_map.mp listed
  exact ⟨result, same.symm⟩

/-- In another order the same replies answer the job too, with the same results. -/
theorem Answered.perm {others : List TaskReply}
    (answered : Answered jobId alternatives packets replies results)
    (reordered : others.Perm replies) :
    ∃ found, found.Perm results ∧ Answered jobId alternatives packets others found := by
  have inOrder : results = replies.filterMap brought := by
    have twice := answered.results.symm.trans (map_outcome_eq answered.every_completed)
    exact (List.map_inj_right fun _ _ => TaskOutcome.completed.inj).mp twice
  refine ⟨others.filterMap brought, ?_, ?_⟩
  · rw [inOrder]
    exact reordered.filterMap brought
  · exact {
      current := fun reply member => answered.current reply (reordered.subset member)
      once := (reordered.map _).trans answered.once
      fitting := fun reply member => answered.fitting reply (reordered.subset member)
      results := map_outcome_eq fun reply member =>
        answered.every_completed reply (reordered.subset member) }

/-- Replies are settled as they are collected, with a refusal in words. -/
theorem settle_ok (replies : List TaskReply) : settle jobId alternatives packets (.ok replies) =
    (collect jobId alternatives (pendingOf packets) replies).mapError Refusal.fault := by
  rw [settle]
  cases collect jobId alternatives (pendingOf packets) replies <;> rfl

theorem settle_eq_ok_iff : settle jobId alternatives packets (.ok replies) = .ok results ↔
    collect jobId alternatives (pendingOf packets) replies = .ok results := by
  rw [settle_ok]
  cases collect jobId alternatives (pendingOf packets) replies <;> simp [Except.mapError]

section Transport

variable {σ : Type} {transport : Transport σ} {dispatch : Dispatch σ} {inputs : JobInputs}

theorem submit_fst : (submit transport alternatives packets inputs dispatch).1 =
    settle dispatch.nextJob alternatives packets
      (send transport alternatives packets inputs dispatch).1 := rfl

theorem submit_snd : (submit transport alternatives packets inputs dispatch).2 =
    ⟨dispatch.nextJob + 1, (send transport alternatives packets inputs dispatch).2⟩ := rfl

/-- A job has results exactly if its transport has replies that answer it in full. -/
theorem submit_eq_ok_iff (distinct : (packets.map Packet.id).Nodup)
    (countable : ∀ packet ∈ packets, packet.Countable alternatives) :
    (submit transport alternatives packets inputs dispatch).1 = .ok results ↔
      ∃ replies, (send transport alternatives packets inputs dispatch).1 = .ok replies ∧
        Answered dispatch.nextJob alternatives packets replies results := by
  rw [submit_fst]
  cases (send transport alternatives packets inputs dispatch).1 with
  | error fault => simp [settle]
  | ok replies =>
    simp only [settle_eq_ok_iff, pendingOf_eq_self distinct, collect_eq_ok_iff distinct countable,
      Except.ok.injEq, exists_eq_left']

/-- One job as the executor went through it. -/
structure Exchange where
  jobId : UInt64
  packets : List Packet
  inputs : JobInputs
  /-- What the transport was handed. -/
  bundle : List UInt8
  tasks : List PacketTask
  /-- What it came back with. -/
  answer : Outcome (List TaskReply)
  outcome : Outcome (List PacketResult)

/-- The exchange of a job submitted in a state. -/
def exchange (transport : Transport σ) (alternatives : UInt64) (job : List Packet × JobInputs)
    (dispatch : Dispatch σ) : Exchange where
  jobId := dispatch.nextJob
  packets := job.1
  inputs := job.2
  bundle := JobBundle.encodeParts dispatch.nextJob alternatives job.2
  tasks := job.1.map fun packet => { jobId := dispatch.nextJob, packet }
  answer := (send transport alternatives job.1 job.2 dispatch).1
  outcome := ((create transport alternatives).submit job.1 job.2 dispatch).1

/-- Jobs submitted to one executor, one after the other. -/
def exchanges (transport : Transport σ) (alternatives : UInt64) :
    List (List Packet × JobInputs) → Dispatch σ → List Exchange
  | [], _ => []
  | job :: rest, dispatch =>
    exchange transport alternatives job dispatch ::
      exchanges transport alternatives rest ((create transport alternatives).submit job.1 job.2 dispatch).2

/-- What holds of every submitted job holds of every exchange. -/
theorem forall_mem_exchanges {jobs : List (List Packet × JobInputs)} {P : Exchange → Prop}
    (holds : ∀ job ∈ jobs, ∀ dispatch : Dispatch σ, P (exchange transport alternatives job dispatch)) :
    ∀ passed ∈ exchanges transport alternatives jobs dispatch, P passed := by
  induction jobs generalizing dispatch with
  | nil => simp [exchanges]
  | cons job rest ih =>
    intro passed member
    obtain rfl | later := List.mem_cons.mp member
    · exact holds job List.mem_cons_self dispatch
    · exact ih (fun job there => holds job (List.mem_cons_of_mem _ there)) passed later

theorem map_exchanges (jobs : List (List Packet × JobInputs)) (dispatch : Dispatch σ) :
    (exchanges transport alternatives jobs dispatch).map (fun exchange => (exchange.packets, exchange.inputs)) =
      jobs := by
  induction jobs generalizing dispatch with
  | nil => rfl
  | cons job rest ih => exact congrArg (job :: ·) (ih _)

/-- The bundle and the tasks of a job under its own number, and that its transport was handed these. -/
structure Exchange.Sent (transport : Transport σ) (alternatives : UInt64) (exchange : Exchange) : Prop where
  bundle : exchange.bundle = JobBundle.encodeParts exchange.jobId alternatives exchange.inputs
  tasks : exchange.tasks = exchange.packets.map fun packet => ⟨exchange.jobId, packet⟩
  answer : ∃ state, exchange.answer = (transport.runJob exchange.bundle exchange.tasks state).1

/-- Every job takes the number after the one before. -/
theorem jobId_exchanges (jobs : List (List Packet × JobInputs)) (dispatch : Dispatch σ) :
    (exchanges transport alternatives jobs dispatch).map Exchange.jobId =
      (List.range jobs.length).map fun earlier => dispatch.nextJob + earlier.toUInt64 := by
  induction jobs generalizing dispatch with
  | nil => rfl
  | cons job rest ih =>
    have later := ih (submit transport alternatives job.1 job.2 dispatch).2
    rw [List.length_cons, List.range_succ_eq_map, List.map_cons, List.map_map]
    refine List.cons_eq_cons.mpr ⟨by simp [exchange], later.trans (List.map_congr_left fun earlier _ => ?_)⟩
    rw [submit_snd, Function.comp_apply, UInt64.add_assoc]
    congr 1
    apply UInt64.toNat_inj.mp
    simp [Nat.add_comm]

/-- Fewer jobs than there are numbers all have their own. -/
theorem nodup_jobId_exchanges {jobs : List (List Packet × JobInputs)} (few : jobs.length < UInt64.size)
    (dispatch : Dispatch σ) :
    ((exchanges transport alternatives jobs dispatch).map Exchange.jobId).Nodup := by
  rw [jobId_exchanges]
  refine List.Nodup.map_on (fun a within b within' same => ?_) List.nodup_range
  have equal := congrArg UInt64.toNat ((UInt64.add_right_inj _).mp same)
  have small : a < UInt64.size := Nat.lt_trans (List.mem_range.mp within) few
  have small' : b < UInt64.size := Nat.lt_trans (List.mem_range.mp within') few
  simpa [Nat.mod_eq_of_lt small, Nat.mod_eq_of_lt small'] using equal

/-- Jobs submitted one after the other, over any transport. No two have the same number,
and what is sent goes under that number. A job has results exactly if its replies answer it in full, and they are then those that
the replies bring. Replies in another order, over whatever transport, make the same
results in another order, and a reply to an earlier job is accepted by no later one. -/
theorem exchanges_accepted (transport : Transport σ) (state : σ) (alternatives : UInt64)
    (jobs : List (List Packet × JobInputs)) (few : jobs.length < UInt64.size)
    (distinct : ∀ job ∈ jobs, (job.1.map Packet.id).Nodup)
    (countable : ∀ job ∈ jobs, ∀ packet ∈ job.1, packet.Countable alternatives) :
    let passed := exchanges transport alternatives jobs (start state)
    passed.map (fun exchange => (exchange.packets, exchange.inputs)) = jobs ∧
      (passed.map Exchange.jobId).Nodup ∧
      (∀ exchange ∈ passed, exchange.Sent transport alternatives) ∧
      (∀ exchange ∈ passed, ∀ results, exchange.outcome = .ok results ↔
        ∃ replies, exchange.answer = .ok replies ∧
          Answered exchange.jobId alternatives exchange.packets replies results) ∧
      (∀ exchange ∈ passed, ∀ (τ : Type) (other : Transport τ) (dispatch : Dispatch τ) (replies found),
        dispatch.nextJob = exchange.jobId → exchange.answer = .ok replies →
        (send other alternatives exchange.packets exchange.inputs dispatch).1 = .ok found →
        found.Perm replies → ∀ results, exchange.outcome = .ok results →
        ∃ reordered, reordered.Perm results ∧
          (submit other alternatives exchange.packets exchange.inputs dispatch).1 = .ok reordered) ∧
      passed.Pairwise fun earlier later => ∀ replies, later.answer = .ok replies →
        (∃ reply ∈ replies, reply.jobId = earlier.jobId) → ∃ fault, later.outcome = .error fault := by
  intro passed
  have accepted : ∀ exchange ∈ passed, ∀ results, exchange.outcome = .ok results ↔
      ∃ replies, exchange.answer = .ok replies ∧
        Answered exchange.jobId alternatives exchange.packets replies results :=
    forall_mem_exchanges fun job member dispatch results =>
      submit_eq_ok_iff (distinct job member) (countable job member)
  have apart : (passed.map Exchange.jobId).Nodup := nodup_jobId_exchanges few (start state)
  have own : ∀ exchange ∈ passed, (exchange.packets.map Packet.id).Nodup ∧
      ∀ packet ∈ exchange.packets, packet.Countable alternatives :=
    forall_mem_exchanges fun job member dispatch => ⟨distinct job member, countable job member⟩
  have sent : ∀ exchange ∈ passed, exchange.Sent transport alternatives :=
    forall_mem_exchanges fun job member dispatch => ⟨rfl, rfl, dispatch.transport, rfl⟩
  refine ⟨map_exchanges jobs _, apart, sent, accepted, ?_, ?_⟩
  · intro exchange member τ other dispatch replies found same answered sent reordered results came
    obtain ⟨replies', answered', full⟩ := (accepted exchange member results).mp came
    rw [answered, Except.ok.injEq] at answered'
    subst answered'
    obtain ⟨results', permuted, full'⟩ := full.perm reordered
    obtain ⟨distinct, countable⟩ := own exchange member
    refine ⟨results', permuted, (submit_eq_ok_iff distinct countable).mpr ⟨found, sent, ?_⟩⟩
    rwa [same]
  · refine List.Pairwise.imp_of_mem ?_ (List.pairwise_map.mp apart)
    rintro earlier later _ member different replies answered ⟨reply, there, late⟩
    cases came : later.outcome with
    | error fault => exact ⟨fault, rfl⟩
    | ok results =>
      obtain ⟨replies', answered', full⟩ := (accepted later member results).mp came
      rw [answered, Except.ok.injEq] at answered'
      subst answered'
      exact absurd (late.symm.trans (full.current reply there)) different

/-- A transport that answers every job as if it were the first. -/
def late : Transport Unit where
  nodeCount := 1
  runJob _ tasks _ := (.ok (tasks.map fun ⟨_, packet⟩ =>
    ⟨1, packet.id, 0, .completed ⟨packet.id, packet.first, packet.last, 1, #[.zero]⟩⟩), ())

theorem exchanges_accepted_late :
    ∃ first second, exchanges late 1 [([⟨1, 0, 0⟩], default), ([⟨1, 0, 0⟩], default)] (start ()) =
        [first, second] ∧
      first.outcome = .ok [⟨1, 0, 0, 1, #[.zero]⟩] ∧ ∃ fault, second.outcome = .error fault := by
  obtain ⟨_, _, _, accepted, _, apart⟩ :=
    exchanges_accepted late () 1 [([⟨1, 0, 0⟩], default), ([⟨1, 0, 0⟩], default)] (by decide)
      (by simp) (by simpa using ⟨by decide, by decide, by decide⟩)
  refine ⟨_, _, rfl, ?_, ?_⟩
  · refine (accepted _ List.mem_cons_self _).mpr ⟨_, rfl, by simp [exchange, start], .refl _, ?_, rfl⟩
    simpa [exchange] using ⟨rfl, rfl, rfl, rfl⟩
  · exact (List.pairwise_cons.mp apart).1 _ List.mem_cons_self _ rfl ⟨_, List.mem_cons_self, rfl⟩

end Transport

end DistributedExecutor

end Accessibility
