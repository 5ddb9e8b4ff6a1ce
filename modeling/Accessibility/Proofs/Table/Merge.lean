import Mathlib.Data.List.Nodup
import Accessibility.Proofs.Packet.Answer
import Accessibility.Proofs.Packet.Range
import Accessibility.Table.Merge

/-! What merging makes of the results of packets that tile the zone list: the table in
which every zone has the row of its answer, and every other id a row of zeros. The order
in which the results come leaves no trace (`merge_eq_ok`). -/
namespace Accessibility

/-- The packet that a result is for. -/
def PacketResult.packet (result : PacketResult) : Packet := ⟨result.packetId, result.first, result.last⟩

namespace AccessibilityTable

variable {table : AccessibilityTable} {zone id : UInt32} {row : List Single}

/-! ## Rows of a table -/

@[simp] theorem size_overwrite (cells : Array Single) (start : Nat) (row : List Single) :
    (overwrite cells start row).size = cells.size := by
  induction row generalizing cells start with
  | nil => rfl
  | cons value rest ih => rw [overwrite, ih, Array.size_setIfInBounds]

/-- Overwriting replaces the cells of the row and no others. -/
theorem getElem?_overwrite (cells : Array Single) (start : Nat) (row : List Single) (position : Nat)
    (within : start + row.length ≤ cells.size) :
    (overwrite cells start row)[position]? =
      if start ≤ position ∧ position < start + row.length then row[position - start]?
      else cells[position]? := by
  induction row generalizing cells start with
  | nil =>
    have nowhere : ¬ (start ≤ position ∧ position < start + 0) := by omega
    rw [overwrite, List.length_nil, if_neg nowhere]
  | cons value rest ih =>
    rw [List.length_cons] at within
    rw [overwrite, ih _ _ (by rw [Array.size_setIfInBounds]; omega), List.length_cons]
    by_cases here : position = start
    · subst here
      have behind : ¬ (position + 1 ≤ position ∧ position < position + 1 + rest.length) := by omega
      have inside : position ≤ position ∧ position < position + (rest.length + 1) := by omega
      rw [if_neg behind, if_pos inside, Array.getElem?_setIfInBounds_self_of_lt (by omega), Nat.sub_self]
      rfl
    · rw [Array.getElem?_setIfInBounds_ne (Ne.symm here)]
      by_cases later : start + 1 ≤ position ∧ position < start + 1 + rest.length
      · have inside : start ≤ position ∧ position < start + (rest.length + 1) := by omega
        rw [if_pos later, if_pos inside]
        obtain ⟨offset, rfl⟩ := Nat.exists_eq_add_of_le later.1
        rw [show start + 1 + offset - (start + 1) = offset by omega,
          show start + 1 + offset - start = offset + 1 by omega, List.getElem?_cons_succ]
      · have outside : ¬ (start ≤ position ∧ position < start + (rest.length + 1)) := by omega
        rw [if_neg later, if_neg outside]

/-- There is a row for every id up to the highest. -/
def Shaped (table : AccessibilityTable) : Prop :=
  table.values.size = (table.maxZone.toNat + 1) * table.width

/-- The table with another row for an id. -/
def withRow (table : AccessibilityTable) (zone : UInt32) (row : List Single) : AccessibilityTable :=
  { table with values := overwrite table.values (zone.toNat * table.width) row }

@[simp] theorem maxZone_withRow : (table.withRow zone row).maxZone = table.maxZone := rfl

@[simp] theorem width_withRow : (table.withRow zone row).width = table.width := rfl

@[simp] theorem size_values_withRow : (table.withRow zone row).values.size = table.values.size :=
  size_overwrite ..

/-- A row that is as wide as the table can be given to every id in it. -/
theorem setRow?_eq_some (inside : zone ≤ table.maxZone) (wide : row.length = table.width) :
    table.setRow? zone row.toArray = some (table.withRow zone row) := by
  have notBeyond : ¬ table.maxZone < zone := UInt32.not_lt.mpr inside
  simp [setRow?, withRow, notBeyond, ← wide]

theorem row?_eq_none_iff : table.row? id = none ↔ table.maxZone < id := by
  unfold row?
  split <;> simp_all

/-- Giving a row to one id leaves the rows of the others. -/
theorem row?_withRow (shaped : table.Shaped) (inside : zone ≤ table.maxZone)
    (wide : row.length = table.width) (there : id ≤ table.maxZone) :
    (table.withRow zone row).row? id = if id = zone then some row.toArray else table.row? id := by
  have notBeyond : ¬ table.maxZone < id := UInt32.not_lt.mpr there
  have rowInside : ∀ other : UInt32, other ≤ table.maxZone →
      other.toNat * table.width + table.width ≤ table.values.size := by
    intro other inside
    have inside : other.toNat ≤ table.maxZone.toNat := inside
    rw [shaped, ← Nat.succ_mul]
    exact Nat.mul_le_mul_right _ (Nat.succ_le_succ inside)
  have fits : zone.toNat * table.width + row.length ≤ table.values.size := wide ▸ rowInside zone inside
  have ends := rowInside id there
  simp only [row?, maxZone_withRow, notBeyond, ↓reduceIte]
  show some ((overwrite table.values (zone.toNat * table.width) row).extract (id.toNat * table.width)
    (id.toNat * table.width + table.width)) = _
  by_cases same : id = zone
  · subst same
    rw [if_pos rfl]
    refine congrArg some (Array.ext_getElem? fun offset => ?_)
    rw [Array.getElem?_extract, size_overwrite, Nat.min_eq_left ends, Nat.add_sub_cancel_left]
    by_cases within : offset < table.width
    · rw [if_pos within, getElem?_overwrite _ _ _ _ fits,
        if_pos ⟨Nat.le_add_right .., by omega⟩, Nat.add_sub_cancel_left, List.getElem?_toArray]
    · rw [if_neg within, List.getElem?_toArray, List.getElem?_eq_none (by omega)]
  · rw [if_neg same]
    refine congrArg some (Array.ext_getElem? fun offset => ?_)
    rw [Array.getElem?_extract, Array.getElem?_extract, size_overwrite, Nat.min_eq_left ends,
      Nat.add_sub_cancel_left]
    by_cases within : offset < table.width
    · -- Rows of different ids do not overlap.
      have apart : ¬ (zone.toNat * table.width ≤ id.toNat * table.width + offset ∧
          id.toNat * table.width + offset < zone.toNat * table.width + row.length) := by
        rintro ⟨low, high⟩
        rw [wide] at high
        rcases Nat.lt_or_gt_of_ne fun equal => same (UInt32.toNat_inj.mp equal) with below | above
        · have := Nat.mul_le_mul_right table.width (Nat.succ_le_of_lt below)
          rw [Nat.succ_mul] at this
          omega
        · have := Nat.mul_le_mul_right table.width (Nat.succ_le_of_lt above)
          rw [Nat.succ_mul] at this
          omega
      rw [if_pos within, if_pos within, getElem?_overwrite _ _ _ _ fits, if_neg apart]
    · rw [if_neg within, if_neg within]

/-- The table in which zones have been given rows. -/
def placed (rows : UInt32 → List Single) (zones : List UInt32) (table : AccessibilityTable) :
    AccessibilityTable :=
  zones.foldl (fun table zone => table.withRow zone (rows zone)) table

/-- Rows for ids of the table, as wide as the table. -/
def Fitting (table : AccessibilityTable) (rows : UInt32 → List Single) (zones : List UInt32) : Prop :=
  ∀ zone ∈ zones, zone ≤ table.maxZone ∧ (rows zone).length = table.width

section Placed

variable {rows : UInt32 → List Single} {zones : List UInt32}

/-- Placing rows changes nothing but the rows. -/
theorem placed_frame :
    (placed rows zones table).maxZone = table.maxZone ∧ (placed rows zones table).width = table.width ∧
      (placed rows zones table).values.size = table.values.size := by
  induction zones generalizing table with
  | nil => exact ⟨rfl, rfl, rfl⟩
  | cons zone rest ih =>
    obtain ⟨maxZone, width, size⟩ := @ih (table.withRow zone (rows zone))
    exact ⟨maxZone, width, size.trans size_values_withRow⟩

/-- Rows are given to the zones, the others keep theirs. -/
theorem row?_placed (shaped : table.Shaped) (fitting : table.Fitting rows zones)
    (there : id ≤ table.maxZone) :
    (placed rows zones table).row? id =
      if id ∈ zones then some (rows id).toArray else table.row? id := by
  induction zones generalizing table with
  | nil => simp [placed]
  | cons zone rest ih =>
    obtain ⟨inside, wide⟩ := fitting zone List.mem_cons_self
    have later := @ih (table.withRow zone (rows zone)) (size_values_withRow.trans shaped)
      (fun other member => fitting other (List.mem_cons_of_mem _ member)) there
    refine later.trans ?_
    rw [row?_withRow shaped inside wide there]
    by_cases again : id ∈ rest
    · simp [again]
    · by_cases same : id = zone
      · subst same
        simp [again]
      · simp [again, same]

end Placed

@[simp] theorem width_zeros (maxZone : UInt32) (width : Nat) : (zeros maxZone width).width = width := by
  simp [zeros, AccessibilityTable.width]

theorem shaped_zeros (maxZone : UInt32) (width : Nat) : (zeros maxZone width).Shaped := by
  rw [Shaped, width_zeros]
  exact Array.size_replicate

theorem row?_zeros {maxZone : UInt32} {width : Nat} (there : id ≤ maxZone) :
    (zeros maxZone width).row? id = some (.replicate width .zero) := by
  have notBeyond : ¬ (zeros maxZone width).maxZone < id := UInt32.not_lt.mpr there
  have ends : id.toNat * width + width ≤ (maxZone.toNat + 1) * width := by
    rw [← Nat.succ_mul]
    exact Nat.mul_le_mul_right _ (Nat.succ_le_succ there)
  simp only [row?, notBeyond, ↓reduceIte, width_zeros]
  show some ((Array.replicate _ _).extract _ _) = _
  rw [Array.extract_replicate, Nat.min_eq_left ends, Nat.add_sub_cancel_left]

/-! ## Merging results -/

section Merge

variable {answers : UInt32 → Outcome (List Double)} {zones : Array UInt32} {width : Nat}

/-- The rows of answers. -/
def rowsOf (answers : UInt32 → Outcome (List Double)) (zone : UInt32) : List Single :=
  Packet.cells (answers zone)

/-- The next row of a result goes to the next zone, if the table has that zone. -/
theorem placeRows_cons {result : PacketResult} {offset : Nat} (rest : List UInt32)
    (cut : result.row offset = .ok row.toArray) (long : row.length = table.width) :
    placeRows result offset (zone :: rest) table =
      if zone ≤ table.maxZone then placeRows result (offset + 1) rest (table.withRow zone row)
      else .error (MergeRefusal.beyondTable zone table.maxZone).fault := by
  by_cases inside : zone ≤ table.maxZone
  · simp only [placeRows, cut, bind, Except.bind, setRow?_eq_some inside long, width_withRow,
      List.size_toArray, long, inside, ↓reduceIte]
  · have beyond : table.maxZone < zone := UInt32.not_le.mp inside
    simp only [placeRows, cut, bind, Except.bind, setRow?, beyond, inside, ↓reduceIte]
    rfl

/-- The rows of a result go to the zones one after the other. -/
theorem placeRows_eq_ok {rows : UInt32 → List Single} {result : PacketResult} {covered : List UInt32}
    {offset : Nat} (front : List Single) (wide : result.alternatives.toNat = table.width)
    (values : result.values.toList = front ++ covered.flatMap rows)
    (behind : front.length = offset * table.width) (fitting : table.Fitting rows covered) :
    placeRows result offset covered table = .ok (placed rows covered table) := by
  induction covered generalizing front offset table with
  | nil => rfl
  | cons zone rest ih =>
    obtain ⟨inside, long⟩ := fitting zone List.mem_cons_self
    have row : result.row offset = .ok (rows zone).toArray :=
      Packet.row_eq_of_append values (wide ▸ behind) (wide ▸ long)
    have rest_fitting : (table.withRow zone (rows zone)).Fitting rows rest :=
      fun other member => fitting other (List.mem_cons_of_mem _ member)
    rw [placeRows_cons rest row long, if_pos inside]
    exact @ih (table.withRow zone (rows zone)) (offset + 1) (front ++ rows zone) wide
      (by rw [values, List.flatMap_cons, List.append_assoc])
      (by rw [List.length_append, behind, long, Nat.succ_mul]; rfl) rest_fitting

/-- A result in the list is judged by its shape, once its values are counted. -/
theorem checkResult_of_counted {alternatives : Nat} {next : UInt64} {result : PacketResult} {rows values : UInt64}
    (placed : result.first = next ∧ result.first ≤ result.last ∧ result.last.toNat < zones.size)
    (counted : result.rowCount = .ok rows) (product : Word.product rows alternatives.toUInt64 = .ok values) :
    checkResult zones alternatives next result =
      if result.alternatives = alternatives.toUInt64 ∧ result.values.size = values.toNat then .ok ()
      else .error (MergeRefusal.misshapen result rows alternatives).fault := by
  obtain ⟨rfl, ordered, within⟩ := placed
  have forwards : ¬ result.last < result.first := UInt64.not_lt.mpr ordered
  have inside : ¬ zones.size ≤ result.last.toNat := Nat.not_le.mpr within
  simp only [checkResult, forwards, inside, counted, ne_eq, not_true_eq_false, decide_false,
    Bool.or_self, Bool.false_eq_true, ↓reduceIte]
  by_cases wide : result.alternatives = alternatives.toUInt64
  · by_cases full : result.values.size = values.toNat
    · simp [wide, full, product, bind, Except.bind, pure, Except.pure]
    · simp [wide, full, product, bind, Except.bind, throw, throwThe, MonadExceptOf.throw]
  · simp [wide, bind, Except.bind, throw, throwThe, MonadExceptOf.throw]

/-- The result of a packet where one is expected passes. -/
theorem checkResult_eq_ok {packet : Packet} {result : PacketResult}
    (came : packet.answer zones width answers = .ok result) (ordered : packet.first ≤ packet.last)
    (within : packet.last.toNat < zones.size) (small : zones.size * width < UInt64.size) :
    checkResult zones width packet.first result = .ok () := by
  obtain ⟨_, _, size⟩ := Packet.size_of_answer_eq_ok came
  have positions : (packet.last.toNat + 1 - packet.first.toNat) * width ≤ zones.size * width :=
    Nat.mul_le_mul_right _ (by omega)
  obtain ⟨rows, values, counted, product, number⟩ := Packet.exists_count ordered came (by omega)
  obtain ⟨first, last, alternatives⟩ : result.first = packet.first ∧ result.last = packet.last ∧
      result.alternatives = width.toUInt64 := by
    obtain ⟨covered, _, _, rfl⟩ := (Packet.answer_eq_ok_iff result).mp came
    exact ⟨rfl, rfl, rfl⟩
  have same : result.rowCount = .ok rows := by rwa [PacketResult.rowCount, first, last]
  rw [checkResult_of_counted ⟨first, first ▸ last ▸ ordered, last ▸ within⟩ same product,
    if_pos ⟨alternatives, number.symm⟩]

/-- Results of packets are for these packets. -/
theorem map_packet {packets : List Packet} {results : List PacketResult}
    (every : packets.map (·.answer zones width answers) = results.map .ok) :
    results.map PacketResult.packet = packets := by
  induction packets generalizing results with
  | nil =>
    cases List.map_eq_nil_iff.mp every.symm
    rfl
  | cons packet rest ih =>
    cases results with
    | nil => cases every
    | cons result later =>
      obtain ⟨came, others⟩ := List.cons.inj every
      obtain ⟨_, _, _, rfl⟩ := (Packet.answer_eq_ok_iff result).mp came
      exact congrArg (packet :: ·) (ih others)

/-- Sorting brings results that tile the list into their order. -/
theorem mergeSort_eq_of_tiles {stop start : Nat} {results inOrder : List PacketResult}
    (reordered : results.Perm inOrder) (tiles : Packet.Tiles stop start (inOrder.map PacketResult.packet)) :
    results.mergeSort (fun a b => a.first ≤ b.first) = inOrder := by
  have ordered := tiles.pairwise_first
  rw [List.pairwise_map] at ordered
  have ascending : inOrder.Pairwise fun a b => a.first < b.first := ordered
  have distinct : (inOrder.map PacketResult.first).Nodup :=
    List.pairwise_map.mpr (ascending.imp fun below => UInt64.ne_of_lt below)
  have permuted := (List.mergeSort_perm results fun a b => a.first ≤ b.first).trans reordered
  refine List.Perm.eq_of_pairwise (fun a b there there' le ge => ?_)
    (List.pairwise_mergeSort (fun a b c first second => ?_) (fun a b => ?_) results)
    (ascending.imp fun below => decide_eq_true (UInt64.le_of_lt below)) permuted
  · have same : a.first = b.first := UInt64.le_antisymm (of_decide_eq_true le) (of_decide_eq_true ge)
    exact List.inj_on_of_nodup_map distinct (permuted.subset there) there' same
  · simp only [decide_eq_true_eq] at first second ⊢
    exact UInt64.le_trans first second
  · simpa using UInt64.le_total a.first b.first

/-- Results of packets that tile the list from a position on place the rows of all zones
from there on. -/
theorem placeResults_eq_ok {start : Nat} {packets : List Packet} {results : List PacketResult}
    {next : UInt64} (tiles : Packet.Tiles zones.size start packets)
    (every : packets.map (·.answer zones width answers) = results.map .ok)
    (starts : next.toNat = start) (wide : table.width = width)
    (small : zones.size * width < UInt64.size)
    (fitting : table.Fitting (rowsOf answers) zones.toList) :
    placeResults zones width next results table =
      .ok (placed (rowsOf answers) (zones.toList.drop start) table) := by
  induction tiles generalizing results next table with
  | done =>
    cases List.map_eq_nil_iff.mp every.symm
    simp [placeResults, starts, placed, List.drop_eq_nil_of_le]
  | @packet packet rest ordered within tiles ih =>
    cases results with
    | nil => cases every
    | cons result later =>
      obtain ⟨came, others⟩ := List.cons.inj every
      have passes := checkResult_eq_ok came ordered within small
      obtain ⟨_, past, _⟩ := Packet.size_of_answer_eq_ok came
      obtain ⟨covered, inside, proper, rfl⟩ := (Packet.answer_eq_ok_iff result).mp came
      obtain ⟨_, rfl⟩ := (Packet.zonesOf_eq_ok_iff covered).mp inside
      obtain rfl : next = packet.first := UInt64.toNat_inj.mp starts
      have split := Packet.drop_first zones ordered
      have covered_fitting : table.Fitting (rowsOf answers)
          (zones.extract packet.first.toNat (packet.last.toNat + 1)).toList := by
        refine fun zone member => fitting zone ?_
        exact List.mem_of_mem_drop (split ▸ List.mem_append_left _ member)
      have narrow : width < UInt64.size :=
        Nat.lt_of_le_of_lt (Nat.le_mul_of_pos_left _ (Nat.zero_lt_of_lt within)) small
      have alternatives : width.toUInt64.toNat = table.width := by
        rw [wide]
        exact UInt64.toNat_ofNat_of_lt' narrow
      have rows : placeRows (packet.resultOf width _) 0
          (zones.extract packet.first.toNat (packet.last.toNat + 1)).toList table =
            .ok (placed (rowsOf answers) _ table) :=
        placeRows_eq_ok [] alternatives rfl (Nat.zero_mul _).symm covered_fitting
      have after : (packet.last + 1).toNat = packet.last.toNat + 1 := Packet.toNat_succ past
      obtain ⟨maxZone, width', _⟩ := @placed_frame table (rowsOf answers)
        (zones.extract packet.first.toNat (packet.last.toNat + 1)).toList
      have continued := @ih (placed (rowsOf answers) _ table) later (packet.last + 1) others after
        (width'.trans wide) fun zone member => by
          rw [maxZone, width']
          exact fitting zone member
      rw [split, placed, List.foldl_append]
      refine Eq.trans ?_ continued
      show (checkResult zones width packet.first (packet.resultOf width _)).bind (fun _ =>
        (placeRows _ 0 _ table).bind (placeResults zones width (packet.last + 1) later)) = _
      rw [passes]
      exact congrArg (Except.bind · (placeResults zones width (packet.last + 1) later)) rows

/-- The table of the answers for all zones. -/
def ofAnswers (maxZone : UInt32) (width : Nat) (answers : UInt32 → Outcome (List Double))
    (zones : Array UInt32) : AccessibilityTable :=
  placed (rowsOf answers) zones.toList (zeros maxZone width)

/-- The rows of proper answers fit a table that reaches up to all their zones. -/
theorem fitting_rowsOf {maxZone : UInt32} (inside : ∀ zone ∈ zones, zone ≤ maxZone)
    (proper : ∀ zone ∈ zones, Packet.Proper width (answers zone)) :
    (zeros maxZone width).Fitting (rowsOf answers) zones.toList := by
  intro zone member
  have there := Array.mem_toList_iff.mp member
  rw [width_zeros]
  exact ⟨inside zone there, Packet.length_cells (proper zone there)⟩

/-- Results of packets that tile the list, in any order, make the table of the answers for
all zones. -/
theorem merge_eq_ok {maxZone : UInt32} {packets : List Packet} {results inOrder : List PacketResult}
    (tiles : Packet.Tiles zones.size 0 packets)
    (every : packets.map (·.answer zones width answers) = inOrder.map .ok)
    (reordered : results.Perm inOrder) (small : zones.size * width < UInt64.size)
    (inside : ∀ zone ∈ zones, zone ≤ maxZone)
    (proper : ∀ zone ∈ zones, Packet.Proper width (answers zone)) :
    merge maxZone width zones results = .ok (ofAnswers maxZone width answers zones) := by
  have sorted := mergeSort_eq_of_tiles reordered ((map_packet every).symm ▸ tiles)
  rw [merge, sorted]
  exact placeResults_eq_ok tiles every rfl (width_zeros ..) small (fitting_rowsOf inside proper)

/-- In the table of the answers every zone has the row of its answer, and every other id
up to the highest has zeros. -/
theorem row?_ofAnswers {maxZone : UInt32} (inside : ∀ zone ∈ zones, zone ≤ maxZone)
    (proper : ∀ zone ∈ zones, Packet.Proper width (answers zone)) (there : id ≤ maxZone) :
    (ofAnswers maxZone width answers zones).row? id =
      some (if id ∈ zones then (Packet.cells (answers id)).toArray else .replicate width .zero) := by
  have placed := row?_placed (shaped_zeros ..) (fitting_rowsOf inside proper) there
  rw [ofAnswers, placed, row?_zeros there]
  simp only [Array.mem_toList_iff]
  split <;> rfl

end Merge

end AccessibilityTable

end Accessibility
