import Accessibility.Proofs.Evaluation.Outcomes
import Accessibility.Proofs.Number.Narrowing
import Accessibility.Proofs.Packet.Answer

/-! What the evaluation of a packet may end in, for any evaluator on any cache. Its values
are numbers that the evaluator gave, all of them finite before they were made singles
(`exists_mayGive`, `run_compute`), so none is a NaN, and all are finite exactly if the
evaluator's numbers are narrow. A fault is the evaluator's own, or one of a row, unless the
packet lies outside the list (`mayEnd_compute_error`). -/
namespace Accessibility.Packet

open Evaluation (mayEnd_bind_iff mayEnd_done_iff run_bind)

variable {evaluator : Evaluator} {context : Context} {packet : Packet} {zoneIds : Array UInt32}

theorem computeRows_cons (zone : UInt32) (rest : List UInt32) (values : Array Single) :
    computeRows evaluator context (zone :: rest) values =
      (evaluator.evaluate zone context).bind fun row =>
        (Evaluation.done (checkRow evaluator.width zone row)).bind fun singles =>
          computeRows evaluator context rest (values ++ singles) := rfl

theorem compute_eq (packet : Packet) (zoneIds : Array UInt32) (evaluator : Evaluator) (context : Context) :
    packet.compute zoneIds evaluator context =
      (Evaluation.done (packet.zonesOf zoneIds)).bind fun zones =>
        (computeRows evaluator context zones #[]).bind fun values =>
          .done (.ok (packet.resultOf evaluator.width values)) := rfl

/-! ## Faults -/

private theorem mayEnd_computeRows_error {zones : List UInt32} {values : Array Single} {fault : Fault}
    (ends : (computeRows evaluator context zones values).MayEnd (.error fault)) :
    (∃ zone, (evaluator.evaluate zone context).MayEnd (.error fault)) ∨
      ∃ zone text, fault = .computation zone text := by
  induction zones generalizing values with
  | nil => cases mayEnd_done_iff.mp ends
  | cons zone rest ih =>
    rw [computeRows_cons] at ends
    obtain ⟨own, fails, same⟩ | ⟨row, _, goesOn⟩ := mayEnd_bind_iff.mp ends
    · cases same
      exact .inl ⟨zone, fails⟩
    · obtain ⟨flaw, flawed, same⟩ | ⟨singles, _, later⟩ := mayEnd_bind_iff.mp goesOn
      · cases same
        obtain ⟨text, told⟩ := checkRow_eq_error (mayEnd_done_iff.mp flawed).symm
        exact .inr ⟨zone, text, told⟩
      · exact ih later

/-- A packet fails for want of its zones, for what the evaluator fails for, or for a flaw of
a row. -/
theorem mayEnd_compute_error {fault : Fault}
    (ends : (packet.compute zoneIds evaluator context).MayEnd (.error fault)) :
    packet.zonesOf zoneIds = .error fault ∨
      (∃ zone, (evaluator.evaluate zone context).MayEnd (.error fault)) ∨
        ∃ zone text, fault = .computation zone text := by
  rw [compute_eq] at ends
  obtain ⟨own, outside, same⟩ | ⟨zones, _, goesOn⟩ := mayEnd_bind_iff.mp ends
  · cases same
    exact .inl (mayEnd_done_iff.mp outside).symm
  · obtain ⟨own, fails, same⟩ | ⟨values, _, finished⟩ := mayEnd_bind_iff.mp goesOn
    · cases same
      exact .inr (mayEnd_computeRows_error fails)
    · cases mayEnd_done_iff.mp finished

/-! ## Values -/

private theorem exists_mayGive_computeRows {zones : List UInt32} {values found : Array Single}
    (ends : (computeRows evaluator context zones values).MayEnd (.ok found)) {value : Single}
    (held : value ∈ found) :
    value ∈ values ∨ ∃ x, evaluator.MayGive context x ∧ x.isFinite = true ∧ value = x.toSingle := by
  induction zones generalizing values with
  | nil =>
    cases mayEnd_done_iff.mp ends
    exact .inl held
  | cons zone rest ih =>
    rw [computeRows_cons] at ends
    obtain ⟨_, _, same⟩ | ⟨row, gives, goesOn⟩ := mayEnd_bind_iff.mp ends
    · cases same
    · obtain ⟨_, _, same⟩ | ⟨singles, checked, later⟩ := mayEnd_bind_iff.mp goesOn
      · cases same
      · obtain ⟨⟨_, finite⟩, rfl⟩ :=
          (checkRow_eq_ok_iff zone row singles).mp (mayEnd_done_iff.mp checked).symm
        obtain before | given := ih later
        · rw [← Array.mem_toList_iff, Array.toList_appendList, List.mem_append, Array.mem_toList_iff] at before
          obtain before | added := before
          · exact .inl before
          · obtain ⟨x, member, rfl⟩ := List.mem_map.mp added
            exact .inr ⟨x, ⟨zone, row, gives, member⟩, finite x member, rfl⟩
        · exact .inr given

/-- Every value of a packet's result is a finite number that the evaluator gave, made a single. -/
theorem exists_mayGive {result : PacketResult}
    (ends : (packet.compute zoneIds evaluator context).MayEnd (.ok result)) {value : Single}
    (held : value ∈ result.values) :
    ∃ x, evaluator.MayGive context x ∧ x.isFinite = true ∧ value = x.toSingle := by
  rw [compute_eq] at ends
  obtain ⟨_, _, same⟩ | ⟨zones, _, goesOn⟩ := mayEnd_bind_iff.mp ends
  · cases same
  · obtain ⟨_, _, same⟩ | ⟨values, computed, finished⟩ := mayEnd_bind_iff.mp goesOn
    · cases same
    · cases mayEnd_done_iff.mp finished
      obtain nothing | given := exists_mayGive_computeRows computed held
      · cases nothing
        contradiction
      · exact given

private theorem run_computeRows {zones : List UInt32} {values found : Array Single} {cache : UtilityCache}
    (came : ((computeRows evaluator context zones values).run cache).1 = .ok found) :
    found.toList = values.toList ++ (evaluator.rowsOn context zones cache).flatten.map Double.toSingle ∧
      ∀ row ∈ evaluator.rowsOn context zones cache, ∀ x ∈ row, x.isFinite = true := by
  induction zones generalizing values cache with
  | nil =>
    cases came
    simp [Evaluator.rowsOn]
  | cons zone rest ih =>
    rw [computeRows_cons, run_bind] at came
    unfold Evaluator.rowsOn
    cases ran : (evaluator.evaluate zone context).run cache with
    | mk outcome after =>
      rw [ran] at came
      cases outcome with
      | error fault => cases came
      | ok row =>
        dsimp only at came ⊢
        cases checked : checkRow evaluator.width zone row with
        | error flaw =>
          rw [checked] at came
          cases came
        | ok singles =>
          rw [checked] at came
          obtain ⟨⟨_, finite⟩, rfl⟩ := (checkRow_eq_ok_iff zone row singles).mp checked
          obtain ⟨composed, others⟩ := ih came
          refine ⟨?_, ?_⟩
          · rw [composed]
            simp [cells]
          · rintro other (_ | ⟨_, member⟩)
            · exact finite
            · exact others other member

/-- The values of a packet's result are the numbers that the evaluator gave its zones, all of
them finite, made singles. -/
theorem run_compute {result : PacketResult} {cache : UtilityCache}
    (came : ((packet.compute zoneIds evaluator context).run cache).1 = .ok result) :
    ∃ zones, packet.zonesOf zoneIds = .ok zones ∧
      result.values.toList = (evaluator.rowsOn context zones cache).flatten.map Double.toSingle ∧
      ∀ row ∈ evaluator.rowsOn context zones cache, ∀ x ∈ row, x.isFinite = true := by
  rw [compute_eq] at came
  cases inside : packet.zonesOf zoneIds with
  | error fault =>
    rw [inside] at came
    cases came
  | ok zones =>
    rw [inside, Evaluation.bind_done_ok, run_bind] at came
    cases ran : (computeRows evaluator context zones #[]).run cache with
    | mk outcome after =>
      rw [ran] at came
      cases outcome with
      | error fault => cases came
      | ok values =>
        cases came
        obtain ⟨composed, finite⟩ := run_computeRows (congrArg Prod.fst ran)
        exact ⟨zones, rfl, composed, finite⟩

end Accessibility.Packet
