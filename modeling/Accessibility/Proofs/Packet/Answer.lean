import Accessibility.Proofs.Evaluation.History
import Accessibility.Proofs.Packet.Range
import Accessibility.Packet.Result

/-! The result of a packet as a function of its zones' answers. For a steady evaluator
this is what every evaluation of the packet comes to, whatever cache it runs on and
whoever shares it (`compute_follows`). There is a result exactly if all zones have
proper answers, and it then holds their rows one after the other
(`answer_eq_ok_iff`). -/
namespace Accessibility.Packet

/-- An answer that makes a row: finite numbers, one for each alternative. -/
def Proper (width : Nat) : Outcome (List Double) → Prop
  | .ok row => row.length = width ∧ ∀ value ∈ row, value.isFinite
  | .error _ => False

/-- The row of an answer, as singles. -/
def cells : Outcome (List Double) → List Single
  | .ok row => row.map Double.toSingle
  | .error _ => []

/-- Rows of zones that are given answers, behind those already there. -/
def answerRows (width : Nat) (answers : UInt32 → Outcome (List Double)) :
    List UInt32 → Array Single → Outcome (Array Single)
  | [], values => .ok values
  | zone :: rest, values => do
    let row ← answers zone
    let row ← checkRow width zone row
    answerRows width answers rest (values ++ row)

/-- The result that holds given rows. -/
def resultOf (packet : Packet) (width : Nat) (values : Array Single) : PacketResult where
  packetId := packet.id
  first := packet.first
  last := packet.last
  alternatives := width.toUInt64
  values := values

/-- The result of a packet whose zones are given answers. -/
def answer (packet : Packet) (zoneIds : Array UInt32) (width : Nat)
    (answers : UInt32 → Outcome (List Double)) : Outcome PacketResult := do
  let zones ← packet.zonesOf zoneIds
  let values ← answerRows width answers zones #[]
  return packet.resultOf width values

variable {width : Nat} {answers : UInt32 → Outcome (List Double)} {packet : Packet}
  {zoneIds : Array UInt32}

/-- The row of a result that lies behind as many values as the rows before it have. -/
theorem row_eq_of_append {result : PacketResult} {offset : Nat} {front row behind : List Single}
    (values : result.values.toList = front ++ (row ++ behind))
    (before : front.length = offset * result.alternatives.toNat)
    (long : row.length = result.alternatives.toNat) : result.row offset = .ok row.toArray := by
  have enough : (offset + 1) * result.alternatives.toNat ≤ result.values.size := by
    rw [← Array.length_toList, values, List.length_append, List.length_append, before, long, Nat.succ_mul]
    omega
  simp only [PacketResult.row, enough, ↓reduceIte, Except.ok.injEq]
  refine Array.toList_inj.mp ?_
  rw [Array.toList_extract, List.extract_eq_take_drop, values, ← before, List.drop_left, before,
    Nat.succ_mul, Nat.add_sub_cancel_left]
  exact List.take_left' long

theorem length_cells {outcome : Outcome (List Double)} (proper : Proper width outcome) :
    (cells outcome).length = width := by
  cases outcome with
  | ok row => simpa [cells] using proper.1
  | error fault => exact proper.elim

theorem checkRow_eq_ok_iff (zone : UInt32) (row : List Double) (singles : List Single) :
    checkRow width zone row = .ok singles ↔ Proper width (.ok row) ∧ singles = cells (.ok row) := by
  unfold checkRow Proper cells
  by_cases fitting : row.length = width
  · cases found : row.find? (!·.isFinite) with
    | none =>
      have finite : ∀ value ∈ row, value.isFinite := by simpa using found
      simp only [ne_eq, fitting, not_true_eq_false, ↓reduceIte, Except.ok.injEq, true_and]
      exact ⟨fun same => ⟨finite, same.symm⟩, fun ⟨_, same⟩ => same.symm⟩
    | some value =>
      have bad := List.find?_some found
      have member := List.mem_of_find?_eq_some found
      simp only [ne_eq, fitting, not_true_eq_false, ↓reduceIte, reduceCtorEq, true_and, false_iff]
      rintro ⟨finite, _⟩
      simp [finite value member] at bad
  · simp [fitting]

/-- Zones have rows exactly if all their answers are proper. -/
theorem answerRows_eq_ok_iff (zones : List UInt32) (values result : Array Single) :
    answerRows width answers zones values = .ok result ↔
      (∀ zone ∈ zones, Proper width (answers zone)) ∧
        result = values ++ zones.flatMap fun zone => cells (answers zone) := by
  induction zones generalizing values with
  | nil => simp [answerRows, eq_comm]
  | cons zone rest ih =>
    cases given : answers zone with
    | error fault =>
      simp only [answerRows, given, List.mem_cons, forall_eq_or_imp, Proper, false_and, iff_false]
      exact fun impossible => by cases impossible
    | ok row =>
      cases checked : checkRow width zone row with
      | error fault =>
        have improper : ¬ Proper width (.ok row) := fun proper => by
          rw [(checkRow_eq_ok_iff zone row _).mpr ⟨proper, rfl⟩] at checked
          cases checked
        simp only [answerRows, given, List.mem_cons, forall_eq_or_imp, improper, false_and, iff_false]
        exact fun impossible => by simp [bind, Except.bind, checked] at impossible
      | ok singles =>
        obtain ⟨proper, rfl⟩ := (checkRow_eq_ok_iff zone row singles).mp checked
        have opened : answerRows width answers (zone :: rest) values =
            answerRows width answers rest (values ++ cells (.ok row)) := by
          simp [answerRows, given, bind, Except.bind, checked]
        rw [opened, ih]
        simp only [given, proper, List.mem_cons, forall_eq_or_imp, true_and, List.flatMap_cons,
          ← Array.toList_inj, Array.toList_appendList, List.append_assoc]

/-- A flaw of a row is told of its zone. -/
theorem checkRow_eq_error {width : Nat} {zone : UInt32} {row : List Double} {fault : Fault}
    (flawed : checkRow width zone row = .error fault) : ∃ text, fault = .computation zone text := by
  unfold checkRow at flawed
  split at flawed
  · cases flawed
    exact ⟨_, rfl⟩
  · split at flawed
    · cases flawed
      exact ⟨_, rfl⟩
    · cases flawed

/-- Rows are missing for what a zone's evaluation failed for, or for a flaw of its
answer. -/
theorem answerRows_eq_error {zones : List UInt32} {values : Array Single} {fault : Fault}
    (failed : answerRows width answers zones values = .error fault) :
    ∃ zone ∈ zones, answers zone = .error fault ∨ ∃ text, fault = .computation zone text := by
  induction zones generalizing values with
  | nil => cases failed
  | cons zone rest ih =>
    cases given : answers zone with
    | error own =>
      simp only [answerRows, given, bind, Except.bind, Except.error.injEq] at failed
      exact ⟨zone, List.mem_cons_self, .inl (by rw [given, failed])⟩
    | ok row =>
      cases checked : checkRow width zone row with
      | ok singles =>
        simp only [answerRows, given, bind, Except.bind, checked] at failed
        obtain ⟨other, member, why⟩ := ih failed
        exact ⟨other, List.mem_cons_of_mem _ member, why⟩
      | error flaw =>
        simp only [answerRows, given, bind, Except.bind, checked, Except.error.injEq] at failed
        exact ⟨zone, List.mem_cons_self, .inr (failed ▸ checkRow_eq_error checked)⟩

/-- A packet has a result exactly if it lies in the list and all its zones have proper
answers. -/
theorem answer_eq_ok_iff (result : PacketResult) :
    packet.answer zoneIds width answers = .ok result ↔
      ∃ zones, packet.zonesOf zoneIds = .ok zones ∧ (∀ zone ∈ zones, Proper width (answers zone)) ∧
        result = packet.resultOf width (zones.flatMap fun zone => cells (answers zone)).toArray := by
  cases inside : packet.zonesOf zoneIds with
  | error fault => simp [answer, inside, bind, Except.bind]
  | ok zones =>
    cases rows : answerRows width answers zones #[] with
    | error fault =>
      simp only [answer, inside, bind, Except.bind, rows, reduceCtorEq, Except.ok.injEq,
        exists_eq_left', false_iff]
      rintro ⟨proper, _⟩
      rw [(answerRows_eq_ok_iff zones #[] _).mpr ⟨proper, rfl⟩] at rows
      cases rows
    | ok values =>
      obtain ⟨proper, rfl⟩ := (answerRows_eq_ok_iff zones #[] values).mp rows
      simp only [answer, inside, bind, Except.bind, rows, pure, Except.pure, Except.ok.injEq,
        exists_eq_left']
      exact ⟨fun same => ⟨proper, by simpa using same.symm⟩, fun ⟨_, same⟩ => by simpa using same.symm⟩

/-- The zones of a packet are those from its first position up to its last. -/
theorem zonesOf_eq_ok_iff (zones : List UInt32) :
    packet.zonesOf zoneIds = .ok zones ↔
      (packet.last.toNat + 1 < UInt64.size ∧ packet.first.toNat ≤ packet.last.toNat + 1 ∧
        packet.last.toNat + 1 ≤ zoneIds.size) ∧
      zones = (zoneIds.extract packet.first.toNat (packet.last.toNat + 1)).toList := by
  unfold zonesOf
  by_cases inside : packet.last.toNat + 1 < UInt64.size ∧ packet.first.toNat ≤ packet.last.toNat + 1 ∧
      packet.last.toNat + 1 ≤ zoneIds.size
  · simp [inside, eq_comm]
  · have unmet : ¬ (decide (packet.last.toNat + 1 < UInt64.size) &&
        decide (packet.first.toNat ≤ packet.last.toNat + 1) &&
        decide (packet.last.toNat + 1 ≤ zoneIds.size)) = true := by
      simp only [Bool.and_eq_true, decide_eq_true_eq, and_assoc]
      exact inside
    simp only [inside, false_and, iff_false, unmet]
    exact fun impossible => by cases impossible

/-- Rows of proper answers have the same width. -/
theorem length_flatMap_cells (zones : List UInt32) (proper : ∀ zone ∈ zones, Proper width (answers zone)) :
    (zones.flatMap fun zone => cells (answers zone)).length = zones.length * width := by
  induction zones with
  | nil => simp
  | cons zone rest ih =>
    have row := length_cells (proper zone List.mem_cons_self)
    have rows := ih fun other member => proper other (List.mem_cons_of_mem _ member)
    rw [List.flatMap_cons, List.length_append, row, rows, List.length_cons, Nat.add_mul, Nat.one_mul,
      Nat.add_comm]

/-- A result has a row for every position of its packet, from the first up to the last. -/
theorem size_of_answer_eq_ok {result : PacketResult}
    (came : packet.answer zoneIds width answers = .ok result) :
    packet.first.toNat ≤ packet.last.toNat + 1 ∧ packet.last.toNat + 1 < UInt64.size ∧
      result.values.size = (packet.last.toNat + 1 - packet.first.toNat) * width := by
  obtain ⟨zones, inside, proper, rfl⟩ := (answer_eq_ok_iff result).mp came
  obtain ⟨⟨past, reach, within⟩, rfl⟩ := (zonesOf_eq_ok_iff zones).mp inside
  refine ⟨reach, past, ?_⟩
  have long := length_flatMap_cells _ proper
  have positions : (zoneIds.extract packet.first.toNat (packet.last.toNat + 1)).toList.length =
      packet.last.toNat + 1 - packet.first.toNat := by
    rw [Array.length_toList, Array.size_extract, Nat.min_eq_left within]
  rw [positions] at long
  exact long

/-- Counting in words finds the number of the values of a result that has a row. -/
theorem exists_count {result : PacketResult} (ordered : packet.first ≤ packet.last)
    (came : packet.answer zoneIds width answers = .ok result) (small : result.values.size < UInt64.size) :
    ∃ rows values, packet.rowCount = .ok rows ∧ Word.product rows width.toUInt64 = .ok values ∧
      values.toNat = result.values.size := by
  obtain ⟨-, past, size⟩ := size_of_answer_eq_ok came
  obtain ⟨rows, counted, number⟩ := Word.exists_span ordered past
  have narrow : width < UInt64.size := by
    have order : packet.first.toNat ≤ packet.last.toNat := ordered
    have row : 1 * width ≤ result.values.size := by
      rw [size]
      exact Nat.mul_le_mul_right width (by omega)
    omega
  have word : result.values.size.toUInt64.toNat = result.values.size := UInt64.toNat_ofNat_of_lt' small
  refine ⟨rows, result.values.size.toUInt64, counted, Word.product_eq_ok_iff.mpr ?_, word⟩
  rw [word, size, number, UInt64.toNat_ofNat_of_lt' narrow]

section Following

variable {evaluator : Evaluator} {inputs : JobInputs}

/-- Rows follow the answers, also with what is done with them at the end. -/
private theorem computeRows_follows (zones : List UInt32) (values : Array Single)
    (finish : Array Single → PacketResult) :
    Follows evaluator inputs
      ((answerRows evaluator.width (evaluator.answer inputs) zones values).map finish)
      ((computeRows evaluator (.ofJob inputs) zones values).bind fun values =>
        .done (.ok (finish values))) := by
  induction zones generalizing values with
  | nil => exact .settled
  | cons zone rest ih =>
    have opened : (computeRows evaluator (.ofJob inputs) (zone :: rest) values).bind
        (fun values => .done (.ok (finish values))) =
        (evaluator.evaluate zone (.ofJob inputs)).bind fun row =>
          (Evaluation.done (checkRow evaluator.width zone row)).bind fun row =>
            (computeRows evaluator (.ofJob inputs) rest (values ++ row)).bind fun values =>
              .done (.ok (finish values)) := by
      refine (Evaluation.bind_assoc ..).trans (congrArg _ (funext fun row => ?_))
      exact Evaluation.bind_assoc ..
    rw [opened]
    refine .zone zone _ (fun row given => ?_) (fun fault given => ?_)
    · cases checked : checkRow evaluator.width zone row with
      | error fault =>
        simp only [answerRows, given, bind, Except.bind, checked, Except.map]
        exact .settled
      | ok singles =>
        simp only [answerRows, given, bind, Except.bind, checked]
        exact ih _
    · simp [answerRows, given, bind, Except.bind, Except.map]

/-- The evaluation of a packet follows the answers of its zones. -/
theorem compute_follows (packet : Packet) (zoneIds : Array UInt32) :
    Follows evaluator inputs (packet.answer zoneIds evaluator.width (evaluator.answer inputs))
      (packet.compute zoneIds evaluator (.ofJob inputs)) := by
  cases inside : packet.zonesOf zoneIds with
  | error fault =>
    simp only [answer, inside, compute, Evaluation.ofOutcome, bind, Except.bind, Evaluation.bind]
    exact .settled
  | ok zones =>
    have follows : Follows evaluator inputs _ _ :=
      computeRows_follows zones #[] (packet.resultOf evaluator.width)
    simp only [answer, inside, compute, Evaluation.ofOutcome, bind, Except.bind,
      Evaluation.bind_done_ok]
    cases rows : answerRows evaluator.width (evaluator.answer inputs) zones #[] <;>
      (rw [rows] at follows; exact follows)

/-- What a packet comes to when it is evaluated on its own, with a fresh cache. -/
def outcome (packet : Packet) (evaluator : Evaluator) (inputs : JobInputs) :
    Outcome PacketResult :=
  ((packet.compute inputs.zones.zoneIds evaluator (.ofJob inputs)).run (.empty inputs.cacheSpec)).1

theorem outcome_eq_answer (steady : evaluator.Steady inputs) (packet : Packet) :
    packet.outcome evaluator inputs =
      packet.answer inputs.zones.zoneIds evaluator.width (evaluator.answer inputs) :=
  (run_follows steady (compute_follows packet inputs.zones.zoneIds)
    (evaluator.served_empty inputs)).1

/-- Whatever the cache has been through, a packet comes to what it comes to on its
own. -/
theorem compute_follows_outcome (steady : evaluator.Steady inputs) (packet : Packet) :
    Follows evaluator inputs (packet.outcome evaluator inputs)
      (packet.compute inputs.zones.zoneIds evaluator (.ofJob inputs)) := by
  rw [outcome_eq_answer steady]
  exact compute_follows packet inputs.zones.zoneIds

/-- A packet runs off a table only if the evaluation of a zone does. -/
theorem outcome_ne_outOfBounds (steady : evaluator.Steady inputs) (packet : Packet)
    (whole : ∀ zone ∈ inputs.zones.zoneIds, evaluator.answer inputs zone ≠ .error .outOfBounds) :
    packet.outcome evaluator inputs ≠ .error .outOfBounds := by
  intro broken
  rw [outcome_eq_answer steady] at broken
  cases inside : packet.zonesOf inputs.zones.zoneIds with
  | error fault =>
    simp only [answer, inside, bind, Except.bind, Except.error.injEq] at broken
    subst broken
    simp only [zonesOf] at inside
    split at inside <;> cases inside
  | ok zones =>
    cases rows : answerRows evaluator.width (evaluator.answer inputs) zones #[] with
    | ok values => simp [answer, inside, bind, Except.bind, rows, pure, Except.pure] at broken
    | error fault =>
      simp only [answer, inside, bind, Except.bind, rows, Except.error.injEq] at broken
      subst broken
      obtain ⟨zone, member, came | ⟨text, impossible⟩⟩ := answerRows_eq_error rows
      · obtain ⟨_, rfl⟩ := (zonesOf_eq_ok_iff zones).mp inside
        refine whole zone ?_ came
        have listed := Array.mem_toList_iff.mp member
        obtain ⟨position, _, found⟩ := Array.mem_extract_iff_getElem.mp listed
        exact found ▸ Array.getElem_mem _
      · cases impossible

end Following

end Accessibility.Packet
