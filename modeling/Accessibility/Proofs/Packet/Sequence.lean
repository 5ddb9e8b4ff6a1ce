import Accessibility.Proofs.Packet.Outcomes

/-! The evaluation of a packet, zone by zone. The zones of a packet in the list are evaluated in their
order, each on what the evaluations before it have left. If all of them make rows, the packet's result
has these rows. Otherwise the packet ends in what is wrong with the first that makes none, and leaves
what that evaluation has left: no zone behind it is evaluated (`compute_in_order`). -/
namespace Accessibility

variable {σ : Type} {serve : σ → (request : CacheRequest) → request.Answer × σ}

/-- The evaluation of a zone: what it came to, and the state of the server behind it. -/
structure Evaluated (σ : Type) where
  zone : UInt32
  outcome : Outcome (List Double)
  state : σ

/-- Zones evaluated one after the other, each from the state behind the one before it. -/
def Evaluator.inTurn (evaluator : Evaluator) (serve : σ → (request : CacheRequest) → request.Answer × σ)
    (context : Context) : List UInt32 → σ → List (Evaluated σ)
  | [], _ => []
  | zone :: rest, state =>
    let (outcome, state) := (evaluator.evaluate zone context).runOn serve state
    ⟨zone, outcome, state⟩ :: evaluator.inTurn serve context rest state

/-- The state behind evaluations that begin in a state. -/
def Evaluated.stateBehind (state : σ) : List (Evaluated σ) → σ
  | [] => state
  | evaluated :: rest => stateBehind evaluated.state rest

namespace Packet

open Evaluation (runOn_bind)

variable {evaluator : Evaluator} {context : Context} {packet : Packet} {zoneIds : Array UInt32} {width : Nat}
  {zone : UInt32} {outcome : Outcome (List Double)} {fault : Fault}

/-- What ends a packet at a zone whose evaluation makes no row: the evaluator's own fault, a row of
another width than it should have, or else the first of its values that is not finite. -/
inductive Blames (width : Nat) (zone : UInt32) : Outcome (List Double) → Fault → Prop where
  | failed (fault : Fault) : Blames width zone (.error fault) fault
  | wrongWidth {row : List Double} : row.length ≠ width →
    Blames width zone (.ok row)
      (.computation zone s!"evaluator returned {row.length} values, expected {width}")
  | notFinite {front behind : List Double} {value : Double} :
    (front ++ value :: behind).length = width → (∀ x ∈ front, x.isFinite = true) →
    value.isFinite = false →
    Blames width zone (.ok (front ++ value :: behind)) (.computation zone s!"non-finite utility {value.text}")

theorem blames_of_checkRow {row : List Double} (flawed : checkRow width zone row = .error fault) :
    Blames width zone (.ok row) fault := by
  unfold checkRow at flawed
  split at flawed
  next other =>
    cases flawed
    exact .wrongWidth other
  next fitting =>
    split at flawed
    next value found =>
      cases flawed
      obtain ⟨bad, front, behind, rfl, before⟩ := List.find?_eq_some_iff_append.mp found
      exact .notFinite (not_not.mp fitting) (fun x member => by simpa using before x member) (by simpa using bad)
    next => cases flawed

theorem inTurn_cons (zone : UInt32) (rest : List UInt32) (state : σ) :
    evaluator.inTurn serve context (zone :: rest) state =
      ⟨zone, ((evaluator.evaluate zone context).runOn serve state).1,
        ((evaluator.evaluate zone context).runOn serve state).2⟩ ::
        evaluator.inTurn serve context rest ((evaluator.evaluate zone context).runOn serve state).2 := rfl

theorem map_zone_inTurn (zones : List UInt32) (state : σ) :
    (evaluator.inTurn serve context zones state).map Evaluated.zone = zones := by
  induction zones generalizing state with
  | nil => rfl
  | cons zone rest ih => rw [inTurn_cons, List.map_cons, ih]

/-- The rows of a zone and of those behind it, as its evaluation leaves it to go on. -/
theorem runOn_computeRows_cons (zone : UInt32) (rest : List UInt32) (values : Array Single) (state : σ) :
    (computeRows evaluator context (zone :: rest) values).runOn serve state =
      match (evaluator.evaluate zone context).runOn serve state with
      | (.error fault, after) => (.error fault, after)
      | (.ok row, after) =>
        match checkRow evaluator.width zone row with
        | .error fault => (.error fault, after)
        | .ok singles => (computeRows evaluator context rest (values ++ singles)).runOn serve after := by
  rw [computeRows_cons, runOn_bind]
  cases (evaluator.evaluate zone context).runOn serve state with
  | mk outcome after =>
    cases outcome with
    | error fault => rfl
    | ok row =>
      dsimp only
      rw [runOn_bind]
      cases checkRow evaluator.width zone row <;> rfl

/-- Where every zone makes a row, the rows are those of the evaluations in turn. -/
theorem runOn_computeRows_of_proper {zones : List UInt32} {state : σ}
    (proper : ∀ evaluated ∈ evaluator.inTurn serve context zones state,
      Proper evaluator.width evaluated.outcome) (values : Array Single) :
    (computeRows evaluator context zones values).runOn serve state =
      (.ok (values ++ ((evaluator.inTurn serve context zones state).map fun evaluated =>
          cells evaluated.outcome).flatten),
        Evaluated.stateBehind state (evaluator.inTurn serve context zones state)) := by
  induction zones generalizing state values with
  | nil => simp [computeRows, Evaluator.inTurn, Evaluated.stateBehind, pure, Evaluation.runOn]
  | cons zone rest ih =>
    rw [inTurn_cons] at proper ⊢
    obtain ⟨here, behind⟩ := List.forall_mem_cons.mp proper
    rw [runOn_computeRows_cons]
    cases ran : (evaluator.evaluate zone context).runOn serve state with
    | mk outcome after =>
      rw [ran] at here behind
      cases outcome with
      | error fault => exact here.elim
      | ok row =>
        dsimp only at here behind ⊢
        rw [(checkRow_eq_ok_iff zone row _).mpr ⟨here, rfl⟩]
        simp [ih behind, Evaluated.stateBehind, ← Array.toList_inj]

/-- Where a zone makes no row and all before it do, it is the last that is evaluated. -/
theorem runOn_computeRows_of_improper {zones : List UInt32} {state : σ}
    {front behind : List (Evaluated σ)} {evaluated : Evaluated σ}
    (split : evaluator.inTurn serve context zones state = front ++ evaluated :: behind)
    (before : ∀ earlier ∈ front, Proper evaluator.width earlier.outcome)
    (improper : ¬ Proper evaluator.width evaluated.outcome) (values : Array Single) :
    ∃ fault, Blames evaluator.width evaluated.zone evaluated.outcome fault ∧
      (computeRows evaluator context zones values).runOn serve state = (.error fault, evaluated.state) := by
  induction zones generalizing state values front with
  | nil => simp [Evaluator.inTurn] at split
  | cons zone rest ih =>
    rw [inTurn_cons] at split
    rw [runOn_computeRows_cons]
    cases ran : (evaluator.evaluate zone context).runOn serve state with
    | mk outcome after =>
      rw [ran] at split
      -- Either this zone is the one without a row, or it makes one and the one without is behind it.
      cases front with
      | nil =>
        obtain ⟨rfl, -⟩ := List.cons.inj split
        cases outcome with
        | error fault => exact ⟨fault, .failed fault, rfl⟩
        | ok row =>
          cases checked : checkRow evaluator.width zone row with
          | error fault => exact ⟨fault, blames_of_checkRow checked, by simp [checked]⟩
          | ok singles => exact absurd ((checkRow_eq_ok_iff zone row singles).mp checked).1 improper
      | cons first front =>
        obtain ⟨rfl, later⟩ := List.cons.inj split
        obtain ⟨here, others⟩ := List.forall_mem_cons.mp before
        cases outcome with
        | error fault => exact here.elim
        | ok row =>
          dsimp only at here later ⊢
          rw [(checkRow_eq_ok_iff zone row _).mpr ⟨here, rfl⟩]
          exact ih later others _

/-- The evaluations of a packet's zones in turn. -/
def evaluations (packet : Packet) (zoneIds : Array UInt32) (evaluator : Evaluator)
    (serve : σ → (request : CacheRequest) → request.Answer × σ) (context : Context) (state : σ) :
    List (Evaluated σ) :=
  evaluator.inTurn serve context (zoneIds.extract packet.first.toNat (packet.last.toNat + 1)).toList state

/-- Rows of one width have as many values as there are rows of that width. -/
theorem length_flatten_of_wide {rows : List (List Single)} (wide : ∀ row ∈ rows, row.length = width) :
    rows.flatten.length = rows.length * width := by
  rw [List.length_flatten, List.map_congr_left wide, List.map_const', List.sum_replicate_nat]

/-- The row of a result whose values are rows of its width. -/
theorem row_eq_of_flatten {result : PacketResult} {rows : List (List Single)}
    (wide : ∀ row ∈ rows, row.length = result.alternatives.toNat) (values : result.values.toList = rows.flatten)
    (index : Nat) (within : index < rows.length) : result.row index = .ok rows[index].toArray := by
  have split := List.take_append_drop index rows
  rw [List.drop_eq_getElem_cons within] at split
  refine @row_eq_of_append result index (rows.take index).flatten rows[index] (rows.drop (index + 1)).flatten
    ?_ ?_ (wide _ (List.getElem_mem within))
  · rw [values, ← List.flatten_cons, ← List.flatten_append, split]
  · rw [length_flatten_of_wide fun row member => wide row (List.mem_of_mem_take member), List.length_take,
      Nat.min_eq_left (Nat.le_of_lt within)]

theorem zonesOf_of_within (ordered : packet.first ≤ packet.last) (within : packet.last.toNat < zoneIds.size)
    (listable : zoneIds.size < UInt64.size) :
    packet.zonesOf zoneIds = .ok (zoneIds.extract packet.first.toNat (packet.last.toNat + 1)).toList := by
  have ordered : packet.first.toNat ≤ packet.last.toNat := UInt64.le_iff_toNat_le.mp ordered
  exact (zonesOf_eq_ok_iff _).mpr ⟨⟨by omega, by omega, by omega⟩, rfl⟩

/-- A result that holds the rows of proper outcomes has as many as there are, each with the numbers of
its outcome as singles. -/
theorem rows_of_proper {evaluations : List (Evaluated σ)} {result : PacketResult}
    (proper : ∀ evaluated ∈ evaluations, Proper width evaluated.outcome)
    (alternatives : result.alternatives.toNat = width)
    (values : result.values.toList = (evaluations.map fun evaluated => cells evaluated.outcome).flatten) :
    result.values.size = evaluations.length * width ∧
      ∀ offset (inside : offset < evaluations.length),
        ∃ row, evaluations[offset].outcome = .ok row ∧
          result.row offset = .ok (row.map Double.toSingle).toArray := by
  have wide : ∀ row ∈ evaluations.map (fun evaluated => cells evaluated.outcome), row.length = width := by
    intro row member
    obtain ⟨evaluated, listed, rfl⟩ := List.mem_map.mp member
    exact length_cells (proper evaluated listed)
  refine ⟨?_, fun offset inside => ?_⟩
  · rw [← Array.length_toList, values, length_flatten_of_wide wide, List.length_map]
  · have row := row_eq_of_flatten (alternatives.symm ▸ wide) values offset (by rwa [List.length_map])
    rw [List.getElem_map] at row
    have here := proper _ (List.getElem_mem inside)
    cases came : evaluations[offset].outcome with
    | error fault =>
      rw [came] at here
      exact here.elim
    | ok numbers => exact ⟨numbers, rfl, by rw [row, came]; rfl⟩

/-- The result of a packet whose zones all make rows: the packet's number and range, and row by row the
numbers that the zones were given, as singles. -/
structure Carries (packet : Packet) (width : Nat) (evaluations : List (Evaluated σ))
    (result : PacketResult) : Prop where
  id : result.packetId = packet.id
  first : result.first = packet.first
  last : result.last = packet.last
  alternatives : result.alternatives.toNat = width
  size : ∃ rows, packet.rowCount = .ok rows ∧ result.values.size = rows.toNat * width
  row : ∀ offset (inside : offset < evaluations.length), ∃ row,
    evaluations[offset].outcome = .ok row ∧ result.row offset = .ok (row.map Double.toSingle).toArray

/-- A packet in the list, on any server. Its zones are evaluated in turn, in their order. If all of them
make rows, so does the packet. If one makes none and all before it do, the packet ends in what is wrong
with it, in the state that its evaluation leaves. -/
theorem compute_in_order (serve : σ → (request : CacheRequest) → request.Answer × σ) (state : σ)
    (evaluator : Evaluator) (context : Context) {packet : Packet} {zoneIds : Array UInt32}
    (ordered : packet.first ≤ packet.last) (within : packet.last.toNat < zoneIds.size)
    (listable : zoneIds.size < UInt64.size) (narrow : evaluator.width < UInt64.size) :
    ((∃ rows, packet.rowCount = .ok rows ∧
        (packet.evaluations zoneIds evaluator serve context state).length = rows.toNat) ∧
      ∀ offset (inside : offset < (packet.evaluations zoneIds evaluator serve context state).length),
        zoneIds[packet.first.toNat + offset]? =
          some (packet.evaluations zoneIds evaluator serve context state)[offset].zone) ∧
    ((∀ evaluated ∈ packet.evaluations zoneIds evaluator serve context state,
        Proper evaluator.width evaluated.outcome) →
      ∃ result,
        packet.Carries evaluator.width (packet.evaluations zoneIds evaluator serve context state) result ∧
        (packet.compute zoneIds evaluator context).runOn serve state =
          (.ok result,
            Evaluated.stateBehind state (packet.evaluations zoneIds evaluator serve context state))) ∧
    ∀ front evaluated behind,
      packet.evaluations zoneIds evaluator serve context state = front ++ evaluated :: behind →
      (∀ earlier ∈ front, Proper evaluator.width earlier.outcome) →
      ¬ Proper evaluator.width evaluated.outcome →
      ∃ fault, Blames evaluator.width evaluated.zone evaluated.outcome fault ∧
        (packet.compute zoneIds evaluator context).runOn serve state = (.error fault, evaluated.state) := by
  have short : packet.last.toNat + 1 < UInt64.size := by omega
  have zones : ((packet.evaluations zoneIds evaluator serve context state).map Evaluated.zone) =
      (zoneIds.extract packet.first.toNat (packet.last.toNat + 1)).toList := map_zone_inTurn ..
  obtain ⟨rows, counted, number⟩ := Word.exists_span ordered short
  have many : (packet.evaluations zoneIds evaluator serve context state).length = rows.toNat := by
    rw [← List.length_map (f := Evaluated.zone), zones, Array.length_toList, Array.size_extract,
      Nat.min_eq_left within, number]
  have opened : (packet.compute zoneIds evaluator context).runOn serve state =
      ((computeRows evaluator context (zoneIds.extract packet.first.toNat (packet.last.toNat + 1)).toList
        #[]).bind fun values => .done (.ok (packet.resultOf evaluator.width values))).runOn serve state := by
    rw [compute_eq, zonesOf_of_within ordered within listable]
    rfl
  refine ⟨⟨⟨rows, counted, many⟩, fun offset inside => ?_⟩, fun proper => ?_,
    fun front evaluated behind split before improper => ?_⟩
  · have found := congrArg (·[offset]?) zones
    rw [List.getElem?_map, List.getElem?_eq_getElem inside, Array.getElem?_toList, Array.getElem?_extract] at found
    rw [many, number] at inside
    rw [if_pos (by omega)] at found
    exact found.symm
  · have ran := runOn_computeRows_of_proper proper #[]
    have word : evaluator.width.toUInt64.toNat = evaluator.width := UInt64.toNat_ofNat_of_lt' narrow
    have values : ((#[] : Array Single) ++ ((packet.evaluations zoneIds evaluator serve context state).map
        fun evaluated => cells evaluated.outcome).flatten).toList = _ := Array.toList_appendList
    obtain ⟨size, each⟩ := @rows_of_proper _ _ _ (packet.resultOf evaluator.width _) proper word values
    refine ⟨_, ⟨rfl, rfl, rfl, word, ⟨rows, counted, many ▸ size⟩, each⟩, ?_⟩
    rw [opened, runOn_bind, ran]
    rfl
  · obtain ⟨fault, blames, ran⟩ := runOn_computeRows_of_improper split before improper #[]
    refine ⟨fault, blames, ?_⟩
    rw [opened, runOn_bind, ran]

/-- An evaluator that gives every zone a one, but an infinity to zone 9. -/
def pitted : Evaluator := .ofFunction ["a"] fun zone _ => .ok [if zone = 9 then .infinite false else .one]

/-- A packet that stops in front of zone 9 has a one in each of its rows. One that goes on behind it ends
at the zone. -/
theorem compute_in_order_pitted :
    (1 < #[2, 4, 9, 11].size ∧ 3 < #[2, 4, 9, 11].size ∧ #[2, 4, 9, 11].size < UInt64.size ∧
      pitted.width < UInt64.size) ∧
    (∃ result,
      ((Packet.compute ⟨1, 0, 1⟩ #[2, 4, 9, 11] pitted {}).runOn UtilityCache.serve (.empty ⟨11, 0, 1, 1⟩)).1 =
        .ok result ∧
      result.values.size = 2 ∧ result.row 1 = .ok #[⟨0x3F800000⟩]) ∧
    ∃ fault, Blames 1 9 (.ok [.infinite false]) fault ∧
      (Packet.compute ⟨1, 0, 3⟩ #[2, 4, 9, 11] pitted {}).runOn UtilityCache.serve (.empty ⟨11, 0, 1, 1⟩) =
        (.error fault, .empty ⟨11, 0, 1, 1⟩) := by
  have one_proper : Proper 1 (.ok [.one]) := ⟨rfl, by decide⟩
  refine ⟨by decide, ?_, ?_⟩
  · obtain ⟨_, whole, _⟩ := compute_in_order UtilityCache.serve (.empty ⟨11, 0, 1, 1⟩) pitted {}
      (show (⟨1, 0, 1⟩ : Packet).first ≤ 1 by decide) (show 1 < #[2, 4, 9, 11].size by decide)
      (by decide) (by decide)
    obtain ⟨result, carries, ran⟩ := whole (by
      rintro evaluated (_ | ⟨_, _ | ⟨_, _ | _⟩⟩) <;> exact one_proper)
    obtain ⟨row, given, found⟩ := carries.row 1 (by decide)
    obtain rfl : [.one] = row := Except.ok.inj given
    obtain ⟨rows, counted, size⟩ := carries.size
    obtain rfl : 2 = rows := Except.ok.inj ((show _ = _ by decide +kernel).trans counted)
    exact ⟨result, congrArg Prod.fst ran, size, found.trans (by decide +kernel)⟩
  · obtain ⟨_, _, broken⟩ := compute_in_order UtilityCache.serve (.empty ⟨11, 0, 1, 1⟩) pitted {}
      (show (⟨1, 0, 3⟩ : Packet).first ≤ 3 by decide) (show 3 < #[2, 4, 9, 11].size by decide)
      (by decide) (by decide)
    refine broken [⟨2, .ok [.one], _⟩, ⟨4, .ok [.one], _⟩] ⟨9, .ok [.infinite false], _⟩
      [⟨11, .ok [.one], _⟩] rfl ?_ fun proper => ?_
    · rintro evaluated (_ | ⟨_, _ | ⟨_, _ | _⟩⟩) <;> exact one_proper
    · exact absurd (proper.2 (.infinite false) List.mem_cons_self) (by decide)

end Packet

end Accessibility
