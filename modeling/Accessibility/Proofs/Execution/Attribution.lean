import Accessibility.Proofs.Execution.Replies

/-! Which packet an accepted result is of. A reply names the packet that it answers, and its result names
a packet once more; an executor goes by the first name and hands on the second. So the results of a job
have the positions of its packets, packet by packet, and its packets' numbers where every result names
the packet that its reply does. What else results name makes no difference to the job
(`settle_claiming`, `submit_attributed`). -/
namespace Accessibility

/-- The first and the last position of a packet. -/
def Packet.span (packet : Packet) : UInt64 × UInt64 := (packet.first, packet.last)

/-- The number of a packet, and its first and last position. -/
def Packet.label (packet : Packet) : UInt32 × UInt64 × UInt64 := (packet.id, packet.span)

namespace PacketResult

/-- The first and the last position of a result. -/
def span (result : PacketResult) : UInt64 × UInt64 := (result.first, result.last)

/-- The number of the packet that a result names, and its first and last position. -/
def label (result : PacketResult) : UInt32 × UInt64 × UInt64 := (result.packetId, result.span)

/-- The result under another packet's number. -/
def claiming (result : PacketResult) (id : UInt32) : PacketResult := { result with packetId := id }

end PacketResult

/-- The reply with its result, if it has one, under another packet's number. -/
def TaskReply.claiming (reply : TaskReply) (id : UInt32) : TaskReply :=
  match reply.outcome with
  | .completed result => { reply with outcome := .completed (result.claiming id) }
  | .failed .. => reply

namespace DistributedExecutor

variable {jobId alternatives : UInt64} {packets pending : List Packet} {reply : TaskReply}
  {replies : List TaskReply} {results : List PacketResult}

/-! ## Packets asked for -/

/-- Results that are those of replies, for packets that stand in the order in which they were answered. -/
structure Attributed (packets : List Packet) (replies : List TaskReply) (results : List PacketResult)
    (asked : List Packet) : Prop where
  brought : replies.map TaskReply.outcome = results.map .completed
  all : asked.Perm packets
  named : asked.map Packet.id = replies.map TaskReply.packetId
  spans : asked.map Packet.span = results.map PacketResult.span

theorem exists_attributed (distinct : (pending.map Packet.id).Nodup)
    (came : collect jobId alternatives pending replies = .ok results) :
    ∃ asked, Attributed pending replies results asked := by
  induction replies generalizing pending results with
  | nil =>
    cases pending with
    | nil =>
      cases came
      exact ⟨[], rfl, .nil, rfl, rfl⟩
    | cons packet more => cases came
  | cons reply rest ih =>
    rw [collect_cons] at came
    obtain ⟨⟨result, left⟩, accepted, came⟩ := bind_eq_ok_iff.mp came
    obtain ⟨later, collected, same⟩ := bind_eq_ok_iff.mp came
    cases same
    obtain ⟨_, brought, ⟨packet, waits, checked⟩, rfl⟩ := acceptReply_eq_ok.mp accepted
    obtain ⟨member, named⟩ := (Keyed.find?_eq_some_iff distinct _ _).mp waits
    obtain ⟨asked, others⟩ := ih (distinct.sublist (List.filter_sublist.map _)) collected
    have spans : packet.span = result.span := by
      obtain ⟨⟨first, last, _⟩, _⟩ := fits_eq_true_iff.mp checked
      rw [Packet.span, PacketResult.span, first, last]
    refine ⟨packet :: asked, ?_, ?_, ?_, ?_⟩
    · rw [List.map_cons, brought, others.brought, List.map_cons]
    · rw [← named] at others
      exact (others.all.cons packet).trans (Keyed.perm_cons_filter distinct member)
    · rw [List.map_cons, named, others.named, List.map_cons]
    · rw [List.map_cons, spans, others.spans, List.map_cons]

/-! ## Numbers that results name -/

/-- A result under another number is judged like the result, and a refusal says the same of it. -/
theorem acceptReply_claiming (id : UInt32) :
    (acceptReply jobId alternatives pending (reply.claiming id)).mapError Refusal.fault =
      ((acceptReply jobId alternatives pending reply).mapError Refusal.fault).map
        fun accepted => (accepted.1.claiming id, accepted.2) := by
  cases came : reply.outcome with
  | failed zone text =>
    have unchanged : reply.claiming id = reply := by simp [TaskReply.claiming, came]
    rw [unchanged]
    cases accepted : acceptReply jobId alternatives pending reply with
    | error refusal => rfl
    | ok found =>
      have completed := (acceptReply_eq_ok.mp accepted).2.1
      rw [came] at completed
      cases completed
  | completed result =>
    have claims : reply.claiming id = { reply with outcome := .completed (result.claiming id) } := by
      simp [TaskReply.claiming, came]
    unfold acceptReply
    simp only [claims, came]
    split
    next => rfl
    next =>
      split
      next => rfl
      next packet _ =>
        have checked : fits alternatives packet (result.claiming id) = fits alternatives packet result := rfl
        rw [checked]
        split <;> rfl

private theorem mapError_bind {ε ε' α β : Type} (tell : ε → ε') (step : Except ε α) (next : α → Except ε β) :
    (step >>= next).mapError tell = step.mapError tell >>= fun value => (next value).mapError tell := by
  cases step <;> rfl

private theorem collect_claiming (own : UInt32 → UInt32) :
    (collect jobId alternatives pending (replies.map fun reply => reply.claiming (own reply.packetId))).mapError
        Refusal.fault =
      ((collect jobId alternatives pending replies).mapError Refusal.fault).map
        (List.zipWith (fun reply result => result.claiming (own reply.packetId)) replies) := by
  induction replies generalizing pending with
  | nil => cases pending <;> rfl
  | cons reply rest ih =>
    rw [List.map_cons, collect_cons, collect_cons, mapError_bind, mapError_bind, acceptReply_claiming]
    cases (acceptReply jobId alternatives pending reply).mapError Refusal.fault with
    | error fault => rfl
    | ok found =>
      change (collect jobId alternatives found.2 _ >>= _).mapError Refusal.fault =
        ((collect jobId alternatives found.2 rest >>= _).mapError Refusal.fault).map _
      rw [mapError_bind, mapError_bind, ih]
      cases (collect jobId alternatives found.2 rest).mapError Refusal.fault <;> rfl

/-- What a job's replies come to does not depend on the packets that their results name. With others in
their place the job has the same results under these, or the same fault. -/
theorem settle_claiming (own : UInt32 → UInt32) (replies : List TaskReply) :
    settle jobId alternatives packets (.ok (replies.map fun reply => reply.claiming (own reply.packetId))) =
      (settle jobId alternatives packets (.ok replies)).map
        (List.zipWith (fun reply result => result.claiming (own reply.packetId)) replies) := by
  rw [settle_ok, settle_ok, collect_claiming]

/-! ## Jobs -/

/-- Lists in the same order of their spans that hold the same labels are the same, if no span is there
twice. -/
private theorem eq_of_perm_of_spans {labels others : List (UInt32 × UInt64 × UInt64)}
    (same : labels.Perm others) (spans : labels.map Prod.snd = others.map Prod.snd)
    (distinct : (labels.map Prod.snd).Nodup) : labels = others := by
  have long : labels.length = others.length := same.length_eq
  refine List.ext_getElem long fun index within within' => ?_
  refine List.inj_on_of_nodup_map distinct (List.getElem_mem within)
    (same.mem_iff.mpr (List.getElem_mem within')) ?_
  rw [← List.getElem_map Prod.snd (h := by simpa), ← List.getElem_map Prod.snd (h := by simpa)]
  simp only [spans]

namespace Attributed

variable {asked : List Packet}

/-- Results that name the packets that their replies name have the labels of the packets. -/
theorem labels_perm (attributed : Attributed packets replies results asked)
    (own : results.map PacketResult.packetId = replies.map TaskReply.packetId) :
    (results.map PacketResult.label).Perm (packets.map Packet.label) := by
  have labels : results.map PacketResult.label = asked.map Packet.label := by
    calc results.map PacketResult.label
      _ = (results.map PacketResult.packetId).zip (results.map PacketResult.span) := List.zip_map'.symm
      _ = (asked.map Packet.id).zip (asked.map Packet.span) := by
        rw [own, attributed.named, attributed.spans]
      _ = asked.map Packet.label := List.zip_map'
  rw [labels]
  exact attributed.all.map _

/-- Where no two packets have the same positions it is only then that results have these labels. -/
theorem named_of_labels_perm (attributed : Attributed packets replies results asked)
    (distinct : (packets.map Packet.span).Nodup)
    (same : (results.map PacketResult.label).Perm (packets.map Packet.label)) :
    results.map PacketResult.packetId = replies.map TaskReply.packetId := by
  have spans : (results.map PacketResult.label).map Prod.snd = (asked.map Packet.label).map Prod.snd := by
    rw [List.map_map, List.map_map]
    exact attributed.spans.symm
  have apart : ((results.map PacketResult.label).map Prod.snd).Nodup := by
    rw [spans, List.map_map]
    exact (attributed.all.map Packet.span).nodup_iff.mpr distinct
  have labels := eq_of_perm_of_spans (same.trans (attributed.all.map _).symm) spans apart
  have ids := congrArg (List.map Prod.fst) labels
  rw [List.map_map, List.map_map] at ids
  exact ids.trans attributed.named

end Attributed

section Transport

variable {σ : Type} {transport : Transport σ} {dispatch : Dispatch σ} {inputs : JobInputs}

/-- What the results of a job tell of its packets, over any transport. They are those that its replies
bring, and they have the positions of the packets, one result for each. They have the packets' numbers
with them if every result names the packet that its reply answers, and where no two packets have the same
positions only then. But a result is not refused for another number: whatever packets the results in the
same replies name, the job has the same results under these names. -/
theorem submit_attributed (transport : Transport σ) (alternatives : UInt64) (packets : List Packet)
    (inputs : JobInputs) (dispatch : Dispatch σ) (distinct : (packets.map Packet.id).Nodup)
    {results : List PacketResult}
    (came : (submit transport alternatives packets inputs dispatch).1 = .ok results) :
    ∃ replies, (send transport alternatives packets inputs dispatch).1 = .ok replies ∧
      replies.map TaskReply.outcome = results.map .completed ∧
      (results.map PacketResult.span).Perm (packets.map Packet.span) ∧
      (results.map PacketResult.packetId = replies.map TaskReply.packetId →
        (results.map PacketResult.label).Perm (packets.map Packet.label)) ∧
      ((packets.map Packet.span).Nodup →
        (results.map PacketResult.label).Perm (packets.map Packet.label) →
        results.map PacketResult.packetId = replies.map TaskReply.packetId) ∧
      ∀ (own : UInt32 → UInt32) (τ : Type) (other : Transport τ) (again : Dispatch τ),
        again.nextJob = dispatch.nextJob →
        (send other alternatives packets inputs again).1 =
          .ok (replies.map fun reply => reply.claiming (own reply.packetId)) →
        (submit other alternatives packets inputs again).1 =
          .ok (List.zipWith (fun reply result => result.claiming (own reply.packetId)) replies results) := by
  rw [submit_fst] at came
  cases sent : (send transport alternatives packets inputs dispatch).1 with
  | error fault =>
    rw [sent] at came
    cases came
  | ok replies =>
    rw [sent] at came
    have collected := settle_eq_ok_iff.mp came
    rw [pendingOf_eq_self distinct] at collected
    obtain ⟨asked, attributed⟩ := exists_attributed distinct collected
    refine ⟨replies, rfl, attributed.brought, ?_, attributed.labels_perm, attributed.named_of_labels_perm, ?_⟩
    · rw [← attributed.spans]
      exact attributed.all.map _
    · intro own τ other again current sent'
      rw [submit_fst, sent', current, settle_claiming, came]
      rfl

/-- A transport that answers every packet, with results that all name packet 9. -/
def mislabelling : Transport Unit where
  nodeCount := 1
  runJob _ tasks _ := (.ok (tasks.map fun ⟨jobId, packet⟩ =>
    ⟨jobId, packet.id, 0, .completed ⟨9, packet.first, packet.last, 1, #[.zero]⟩⟩), ())

theorem submit_attributed_late :
    ([⟨1, 0, 0⟩, ⟨2, 1, 1⟩].map Packet.id).Nodup ∧
      ∃ results, (submit late 1 [⟨1, 0, 0⟩, ⟨2, 1, 1⟩] default (start ())).1 = .ok results ∧
        (results.map PacketResult.label).Perm [(1, 0, 0), (2, 1, 1)] ∧
        (submit mislabelling 1 [⟨1, 0, 0⟩, ⟨2, 1, 1⟩] default (start ())).1 =
          .ok (results.map (·.claiming 9)) := by
  obtain ⟨replies, sent, _, _, labelled, _, claimed⟩ :=
    submit_attributed late 1 [⟨1, 0, 0⟩, ⟨2, 1, 1⟩] default (start ()) (by decide) rfl
  obtain rfl := Except.ok.inj sent
  exact ⟨by decide, _, rfl, labelled rfl, claimed (fun _ => 9) Unit mislabelling (start ()) rfl rfl⟩

/-- A result that names another packet than its reply, accepted under that name. -/
theorem submit_mislabelled :
    (submit mislabelling 1 [⟨1, 0, 0⟩] default (start ())).1 = .ok [⟨9, 0, 0, 1, #[.zero]⟩] ∧
      ¬ ([⟨9, 0, 0, 1, #[.zero]⟩].map PacketResult.label).Perm ([⟨1, 0, 0⟩].map Packet.label) :=
  ⟨rfl, by decide⟩

end Transport

end DistributedExecutor

end Accessibility
