import Mathlib.Data.List.Perm.Subperm
import Accessibility.Proofs.Table.Provenance

/-! Which results make a table, and which table: whatever results there are, merging them never runs
off a table, and it ends in a table exactly if some order of the results tiles the zone list, each
with a row for every position and every row for a zone of the table. Then each zone has the row of
its position, and the ids between the zones have zeros (`merge_tilings`). -/
namespace Accessibility

/-- A result that has a row for each of its positions, and a number for each alternative in it. -/
def PacketResult.Full (alternatives : Nat) (result : PacketResult) : Prop :=
  result.alternatives.toNat = alternatives ∧
    ∃ rows, result.rowCount = .ok rows ∧ result.values.size = rows.toNat * alternatives

namespace AccessibilityTable

variable {table again : AccessibilityTable} {result : PacketResult} {results : List PacketResult}
  {zones : Array UInt32} {alternatives : Nat} {maxZone : UInt32}

/-- Results that tile a zone list from a position on, each of them full, and zones from there on
that a table has. -/
structure Tiled (maxZone : UInt32) (alternatives : Nat) (zones : Array UInt32) (start : Nat)
    (results : List PacketResult) : Prop where
  tiles : Packet.Tiles zones.size start (results.map PacketResult.packet)
  full : ∀ result ∈ results, result.Full alternatives
  inside : ∀ zone ∈ zones.toList.drop start, zone ≤ maxZone

/-- The zones at the positions of a result. -/
def covered (zones : Array UInt32) (result : PacketResult) : List UInt32 :=
  (zones.extract result.first.toNat (result.last.toNat + 1)).toList

/-- The rows of a result from an offset on are those of zones. -/
def Holds (result : PacketResult) (offset : Nat) (zones : List UInt32) (table : AccessibilityTable) : Prop :=
  ∀ index (within : index < zones.length),
    ∃ row, result.row (offset + index) = .ok row ∧ table.row? zones[index] = some row

/-! ## The rows of one result -/

/-- A result that has rows for all zones of a list has one for the first, and rows for the others
behind it. -/
theorem exists_row {offset width : Nat} {zone : UInt32} {rest : List UInt32}
    (wide : result.alternatives.toNat = width)
    (enough : (offset + (zone :: rest).length) * width ≤ result.values.size) :
    (∃ row : List Single, result.row offset = .ok row.toArray ∧ row.length = width) ∧
      (offset + 1 + rest.length) * width ≤ result.values.size := by
  rw [List.length_cons, Nat.add_comm rest.length, ← Nat.add_assoc] at enough
  have next : (offset + 1) * width ≤ result.values.size :=
    Nat.le_trans (Nat.mul_le_mul_right _ (Nat.le_add_right _ _)) enough
  subst wide
  refine ⟨⟨(result.values.extract (offset * result.alternatives.toNat)
    ((offset + 1) * result.alternatives.toNat)).toList, ?_, ?_⟩, enough⟩
  · rw [Array.toArray_toList]
    exact if_pos next
  · rw [Array.length_toList, Array.size_extract, Nat.min_eq_left next, Nat.succ_mul,
      Nat.add_sub_cancel_left]

/-- A row given to one id leaves those of all others, also where there are none. -/
theorem row?_withRow_of_ne {zone id : UInt32} {row : List Single} (shaped : table.Shaped)
    (inside : zone ≤ table.maxZone) (long : row.length = table.width) (other : id ≠ zone) :
    (table.withRow zone row).row? id = table.row? id := by
  by_cases there : id ≤ table.maxZone
  · rw [row?_withRow shaped inside long there, if_neg other]
  · have beyond : table.maxZone < id := UInt32.not_le.mp there
    rw [row?_eq_none_iff.mpr beyond]
    exact row?_eq_none_iff.mpr beyond

theorem row?_withRow_self {zone : UInt32} {row : List Single} (shaped : table.Shaped)
    (inside : zone ≤ table.maxZone) (long : row.length = table.width) :
    (table.withRow zone row).row? zone = some row.toArray := by
  rw [row?_withRow shaped inside long inside, if_pos rfl]

section Rows

variable {offset : Nat} {zoneList : List UInt32}

/-- Rows are placed exactly if the table has all zones; otherwise the first zone beyond it is
reported. -/
theorem placeRows_cases (wide : result.alternatives.toNat = table.width)
    (enough : (offset + zoneList.length) * table.width ≤ result.values.size) :
    ((∀ zone ∈ zoneList, zone ≤ table.maxZone) ∧
        ∃ again, placeRows result offset zoneList table = .ok again) ∨
      ∃ zone ∈ zoneList, table.maxZone < zone ∧ placeRows result offset zoneList table =
        .error (MergeRefusal.beyondTable zone table.maxZone).fault := by
  induction zoneList generalizing offset table with
  | nil => exact .inl ⟨by simp, table, rfl⟩
  | cons zone rest ih =>
    obtain ⟨⟨row, cut, long⟩, enough⟩ := exists_row wide enough
    rw [placeRows_cons rest cut long]
    by_cases inside : zone ≤ table.maxZone
    · rw [if_pos inside]
      obtain ⟨all, placed⟩ | ⟨other, member, beyond, refused⟩ :=
        @ih (table.withRow zone row) (offset + 1) wide enough
      · exact .inl ⟨List.forall_mem_cons.mpr ⟨inside, all⟩, placed⟩
      · exact .inr ⟨other, List.mem_cons_of_mem _ member, beyond, refused⟩
    · rw [if_neg inside]
      exact .inr ⟨zone, List.mem_cons_self, UInt32.not_le.mp inside, rfl⟩

theorem frame_of_placeRows (placed : placeRows result offset zoneList table = .ok again) :
    again.maxZone = table.maxZone ∧ again.width = table.width ∧
      again.values.size = table.values.size := by
  refine @placeRows_induction table again result (fun other => other.maxZone = table.maxZone ∧
    other.width = table.width ∧ other.values.size = table.values.size)
    (fun before after zone offset row cut written same => ?_) _ _ ⟨rfl, rfl, rfl⟩ placed
  refine ⟨(maxZone_of_setRow? written).trans same.1, (width_of_setRow? written).trans same.2.1, ?_⟩
  unfold setRow? at written
  split at written
  · cases written
  · cases written
    exact (size_overwrite ..).trans same.2.2

theorem shaped_of_placeRows (shaped : table.Shaped)
    (placed : placeRows result offset zoneList table = .ok again) : again.Shaped := by
  obtain ⟨maxZone, width, size⟩ := frame_of_placeRows placed
  rw [Shaped, maxZone, width, size]
  exact shaped

/-- Placed rows stand at their zones if no zone comes twice, and no other rows have changed. -/
theorem holds_of_placeRows (wide : result.alternatives.toNat = table.width)
    (enough : (offset + zoneList.length) * table.width ≤ result.values.size) (shaped : table.Shaped)
    (distinct : zoneList.Nodup) (placed : placeRows result offset zoneList table = .ok again) :
    Holds result offset zoneList again ∧ ∀ id ∉ zoneList, again.row? id = table.row? id := by
  induction zoneList generalizing offset table with
  | nil =>
    cases placed
    exact ⟨fun index within => absurd within (Nat.not_lt_zero _), fun _ _ => rfl⟩
  | cons zone rest ih =>
    obtain ⟨⟨row, cut, long⟩, enough⟩ := exists_row wide enough
    rw [placeRows_cons rest cut long] at placed
    split at placed
    next inside =>
      obtain ⟨fresh, distinct⟩ := List.nodup_cons.mp distinct
      obtain ⟨holds, kept⟩ := @ih (table.withRow zone row) (offset + 1) wide enough
        (size_values_withRow.trans shaped) distinct placed
      refine ⟨fun index within => ?_, fun id absent => ?_⟩
      · cases index with
        | zero => exact ⟨row.toArray, cut, (kept zone fresh).trans (row?_withRow_self shaped inside long)⟩
        | succ index =>
          obtain ⟨found, cut, stands⟩ := holds index (Nat.lt_of_succ_lt_succ within)
          exact ⟨found, by rwa [Nat.add_assoc, Nat.add_comm 1] at cut, stands⟩
      · rw [List.mem_cons, not_or] at absent
        exact (kept id absent.2).trans (row?_withRow_of_ne shaped inside long absent.1)
    next => cases placed

end Rows

/-! ## One result after the other -/

theorem length_covered (within : result.last.toNat < zones.size) :
    (covered zones result).length = result.last.toNat + 1 - result.first.toNat := by
  rw [covered, Array.length_toList, Array.size_extract, Nat.min_eq_left within]

theorem checkResult_of_misplaced {next : UInt64}
    (other : ¬ (result.first = next ∧ result.first ≤ result.last ∧ result.last.toNat < zones.size)) :
    checkResult zones alternatives next result =
      .error (MergeRefusal.misplaced result next zones.size).fault := by
  rw [not_and_or, not_and_or, UInt64.not_le, Nat.not_lt] at other
  unfold checkResult
  rw [if_pos (by simpa [or_assoc] using other)]
  rfl

/-- The results that pass are those that start where one is expected, lie in the list and are full; any
other is refused. -/
theorem checkResult_cases (few : zones.size < UInt64.size)
    (holdable : zones.size * alternatives < UInt64.size) (next : UInt64) (result : PacketResult) :
    (result.first = next ∧ result.first ≤ result.last ∧ result.last.toNat < zones.size ∧
        result.Full alternatives) ∧ checkResult zones alternatives next result = .ok () ∨
      ¬ (result.first = next ∧ result.first ≤ result.last ∧ result.last.toNat < zones.size ∧
        result.Full alternatives) ∧ ∃ refusal : MergeRefusal,
          checkResult zones alternatives next result = .error refusal.fault := by
  by_cases placed : result.first = next ∧ result.first ≤ result.last ∧ result.last.toNat < zones.size
  · obtain ⟨starts, ordered, within⟩ := placed
    obtain ⟨rows, counted, number⟩ := Word.exists_span ordered (by omega)
    have narrow : alternatives < UInt64.size :=
      Nat.lt_of_le_of_lt (Nat.le_mul_of_pos_left _ (Nat.zero_lt_of_lt within)) holdable
    have word : alternatives.toUInt64.toNat = alternatives := UInt64.toNat_ofNat_of_lt' narrow
    have small : rows.toNat * alternatives < UInt64.size :=
      Nat.lt_of_le_of_lt (Nat.mul_le_mul_right _ (by omega)) holdable
    have values : (rows.toNat * alternatives).toUInt64.toNat = rows.toNat * alternatives :=
      UInt64.toNat_ofNat_of_lt' small
    have product : Word.product rows alternatives.toUInt64 = .ok (rows.toNat * alternatives).toUInt64 :=
      Word.product_eq_ok_iff.mpr (values.trans (by rw [word]))
    have full : result.Full alternatives ↔ result.alternatives = alternatives.toUInt64 ∧
        result.values.size = (rows.toNat * alternatives).toUInt64.toNat := by
      have counted : result.rowCount = .ok rows := counted
      rw [PacketResult.Full, values, ← UInt64.toNat_inj, word, counted]
      simp
    rw [checkResult_of_counted ⟨starts, ordered, within⟩ counted product]
    by_cases fits : result.Full alternatives
    · exact .inl ⟨⟨starts, ordered, within, fits⟩, if_pos (full.mp fits)⟩
    · exact .inr ⟨fun passes => fits passes.2.2.2, _, if_neg (fits ∘ full.mpr)⟩
  · refine .inr ⟨fun passes => placed ⟨passes.1, passes.2.1, passes.2.2.1⟩, _, checkResult_of_misplaced placed⟩

theorem checkResult_eq_ok_iff (few : zones.size < UInt64.size)
    (holdable : zones.size * alternatives < UInt64.size) (next : UInt64) :
    checkResult zones alternatives next result = .ok () ↔
      result.first = next ∧ result.first ≤ result.last ∧ result.last.toNat < zones.size ∧
        result.Full alternatives := by
  obtain ⟨passes, done⟩ | ⟨fails, refusal, refused⟩ := checkResult_cases few holdable next result
  · exact iff_of_true done passes
  · rw [refused]
    exact iff_of_false nofun fails

theorem drop_eq_covered_append (ordered : result.first ≤ result.last) :
    zones.toList.drop result.first.toNat = covered zones result ++ zones.toList.drop (result.last.toNat + 1) :=
  @Packet.drop_first UInt32 zones result.packet ordered

theorem tiled_nil_iff (start : Nat) :
    Tiled maxZone alternatives zones start [] ↔ start = zones.size := by
  constructor
  · rintro ⟨tiles, _, _⟩
    cases tiles
    rfl
  · rintro rfl
    exact ⟨.done, by simp, by simp [List.drop_eq_nil_of_le]⟩

theorem tiled_cons_iff (start : Nat) :
    Tiled maxZone alternatives zones start (result :: results) ↔
      result.first.toNat = start ∧ result.first ≤ result.last ∧ result.last.toNat < zones.size ∧
        result.Full alternatives ∧ (∀ zone ∈ covered zones result, zone ≤ maxZone) ∧
          Tiled maxZone alternatives zones (result.last.toNat + 1) results := by
  constructor
  · rintro ⟨tiles, full, inside⟩
    obtain ⟨own, others⟩ := List.forall_mem_cons.mp full
    rw [List.map_cons] at tiles
    cases tiles with
    | packet ordered within rest =>
      rw [show result.packet.first = result.first from rfl, drop_eq_covered_append ordered] at inside
      obtain ⟨here, behind⟩ := List.forall_mem_append.mp inside
      exact ⟨rfl, ordered, within, own, here, rest, others, behind⟩
  · rintro ⟨rfl, ordered, within, own, here, rest, others, behind⟩
    refine ⟨@Packet.Tiles.packet _ result.packet _ ordered within rest, List.forall_mem_cons.mpr ⟨own, others⟩, ?_⟩
    rw [drop_eq_covered_append ordered]
    exact List.forall_mem_append.mpr ⟨here, behind⟩

/-- A full result in the list has rows for all its zones. -/
theorem enough_of_full (within : result.last.toNat < zones.size) (full : result.Full alternatives) :
    (0 + (covered zones result).length) * alternatives ≤ result.values.size := by
  obtain ⟨rows, counted, size⟩ := full.2
  have number := (Word.span_eq_ok_iff.mp counted).2
  rw [Nat.zero_add, length_covered within, size]
  exact Nat.mul_le_mul_right _ (by omega)

theorem MergeRefusal.fault_ne_outOfBounds (refusal : MergeRefusal) : refusal.fault ≠ .outOfBounds := by
  cases refusal <;> simp [MergeRefusal.fault]

/-- Placing results ends in a table if they tile the rest of the list, and otherwise in a fault that
says what is wrong with them. -/
theorem placeResults_cases (few : zones.size < UInt64.size)
    (holdable : zones.size * alternatives < UInt64.size) (wide : table.width = alternatives)
    (next : UInt64) :
    (Tiled table.maxZone alternatives zones next.toNat results ∧
        ∃ again, placeResults zones alternatives next results table = .ok again) ∨
      ¬ Tiled table.maxZone alternatives zones next.toNat results ∧
        ∃ refusal : MergeRefusal,
          placeResults zones alternatives next results table = .error refusal.fault := by
  induction results generalizing next table with
  | nil =>
    rw [tiled_nil_iff, placeResults]
    split
    next reached => exact .inl ⟨reached, table, rfl⟩
    next short => exact .inr ⟨short, _, rfl⟩
  | cons result rest ih =>
    rw [tiled_cons_iff]
    obtain ⟨⟨rfl, ordered, within, full⟩, passes⟩ | ⟨fails, refusal, refused⟩ :=
      checkResult_cases few holdable next result
    · have opened : placeResults zones alternatives result.first (result :: rest) table =
          (placeRows result 0 (covered zones result) table).bind
            (placeResults zones alternatives (result.last + 1) rest) := by
        show (checkResult zones alternatives result.first result).bind _ = _
        rw [passes]
        rfl
      have after : (result.last + 1).toNat = result.last.toNat + 1 := Packet.toNat_succ (by omega)
      have wide' : result.alternatives.toNat = table.width := full.1.trans wide.symm
      rw [opened]
      obtain ⟨here, middle, rows⟩ | ⟨zone, member, beyond, refused⟩ :=
        placeRows_cases wide' (wide ▸ enough_of_full within full)
      · obtain ⟨maxZone, width, _⟩ := frame_of_placeRows rows
        rw [rows, ← after, ← maxZone]
        obtain ⟨tiled, placed⟩ | ⟨untiled, refused⟩ := ih (width.trans wide) (result.last + 1)
        · exact .inl ⟨⟨rfl, ordered, within, full, maxZone ▸ here, tiled⟩, placed⟩
        · refine .inr ⟨?_, refused⟩
          rintro ⟨-, -, -, -, -, tiled⟩
          exact untiled tiled
      · rw [refused]
        refine .inr ⟨?_, _, rfl⟩
        rintro ⟨-, -, -, -, here, -⟩
        exact absurd (here zone member) (UInt32.not_le.mpr beyond)
    · refine .inr ⟨?_, refusal, ?_⟩
      · -- A result that is refused is not the first of a tiling.
        rintro ⟨starts, ordered, within, full, -⟩
        exact fails ⟨UInt64.toNat_inj.mp starts, ordered, within, full⟩
      · show (checkResult zones alternatives next result).bind _ = _
        rw [refused]
        rfl

/-- Placed results have their rows at their zones if no zone comes twice, and what is not a zone of the
rest of the list keeps its row. -/
theorem holds_of_placeResults (few : zones.size < UInt64.size)
    (holdable : zones.size * alternatives < UInt64.size) (wide : table.width = alternatives)
    (shaped : table.Shaped) {next : UInt64} (distinct : (zones.toList.drop next.toNat).Nodup)
    (placed : placeResults zones alternatives next results table = .ok again) :
    (∀ result ∈ results, Holds result 0 (covered zones result) again) ∧
      ∀ id ∉ zones.toList.drop next.toNat, again.row? id = table.row? id := by
  induction results generalizing next table with
  | nil =>
    obtain ⟨_, rfl⟩ := placeResults_nil_eq_ok placed
    exact ⟨by simp, fun _ _ => rfl⟩
  | cons result rest ih =>
    obtain ⟨passes, middle, rows, rest_placed⟩ := placeResults_cons_eq_ok placed
    obtain ⟨rfl, ordered, within, full⟩ := (checkResult_eq_ok_iff few holdable next).mp passes
    have after : (result.last + 1).toNat = result.last.toNat + 1 := Packet.toNat_succ (by omega)
    rw [drop_eq_covered_append ordered] at distinct ⊢
    obtain ⟨own, later, apart⟩ := List.nodup_append.mp distinct
    obtain ⟨_, width, _⟩ := frame_of_placeRows rows
    obtain ⟨holds, kept⟩ := holds_of_placeRows (full.1.trans wide.symm)
      (wide ▸ enough_of_full within full) shaped own rows
    obtain ⟨others, kept'⟩ := ih (width.trans wide) (shaped_of_placeRows shaped rows) (after ▸ later) rest_placed
    rw [after] at kept'
    refine ⟨List.forall_mem_cons.mpr ⟨fun index inside => ?_, others⟩, fun id absent => ?_⟩
    · obtain ⟨row, cut, stands⟩ := holds index inside
      -- The results behind write to other zones.
      have elsewhere : (covered zones result)[index] ∉ zones.toList.drop (result.last.toNat + 1) :=
        fun member => apart _ (List.getElem_mem inside) _ member rfl
      exact ⟨row, cut, (kept' _ elsewhere).trans stands⟩
    · rw [List.mem_append, not_or] at absent
      exact (kept' id absent.2).trans (kept id absent.1)

/-! ## Merging -/

/-- Results that are not sorted yet are merged in the order in which they tile the list. -/
theorem merge_eq_of_tiles {inOrder : List PacketResult} (reordered : results.Perm inOrder)
    (tiles : Packet.Tiles zones.size 0 (inOrder.map PacketResult.packet)) :
    merge maxZone alternatives zones results =
      placeResults zones alternatives 0 inOrder (zeros maxZone alternatives) := by
  rw [merge, mergeSort_eq_of_tiles reordered tiles]

theorem merge_cases (few : zones.size < UInt64.size) (holdable : zones.size * alternatives < UInt64.size)
    (maxZone : UInt32) (results : List PacketResult) :
    (∃ inOrder, inOrder.Perm results ∧ Tiled maxZone alternatives zones 0 inOrder ∧
        ∃ table, merge maxZone alternatives zones results = .ok table) ∨
      (¬ ∃ inOrder, inOrder.Perm results ∧ Tiled maxZone alternatives zones 0 inOrder) ∧
        ∃ refusal : MergeRefusal, merge maxZone alternatives zones results = .error refusal.fault := by
  have sorted := List.mergeSort_perm results fun a b => a.first ≤ b.first
  obtain ⟨tiled, placed⟩ | ⟨untiled, refused⟩ :=
    @placeResults_cases _ (results.mergeSort fun a b => a.first ≤ b.first) _ _ few holdable
      (width_zeros maxZone alternatives) 0
  · exact .inl ⟨_, sorted, tiled, placed⟩
  · -- No order tiles the list if the one by starts does not: a tiling is in that order.
    refine .inr ⟨fun ⟨inOrder, reordered, tiled⟩ => untiled ?_, refused⟩
    rw [mergeSort_eq_of_tiles reordered.symm tiled.tiles]
    exact tiled

/-- Zones that are all different can be counted in a word. -/
theorem size_lt_of_nodup (distinct : zones.toList.Nodup) : zones.size < UInt64.size := by
  have numbers : (zones.toList.map UInt32.toNat).Nodup :=
    distinct.map fun a b same => UInt32.toNat_inj.mp same
  have small : zones.toList.map UInt32.toNat ⊆ List.range (2 ^ 32) := by
    intro number member
    obtain ⟨zone, _, rfl⟩ := List.mem_map.mp member
    exact List.mem_range.mpr zone.toNat_lt
  have count := (numbers.subperm small).length_le
  rw [List.length_map, List.length_range, Array.length_toList] at count
  exact Nat.lt_of_le_of_lt count (by decide)

/-- The table that results make of a zone list: every position is in a result and its zone has the
row of the position in it, and the ids between the zones have zeros. -/
structure Assembled (maxZone : UInt32) (alternatives : Nat) (zones : Array UInt32)
    (results : List PacketResult) (table : AccessibilityTable) : Prop where
  bound : table.maxZone = maxZone
  wide : table.width = alternatives
  around : ∀ position < zones.size,
    ∃ result ∈ results, result.first.toNat ≤ position ∧ position ≤ result.last.toNat
  zone : ∀ result ∈ results, ∀ position (within : position < zones.size),
    result.first.toNat ≤ position → position ≤ result.last.toNat →
      ∃ row, result.row (position - result.first.toNat) = .ok row ∧ table.row? zones[position] = some row
  gap : ∀ id ≤ maxZone, id ∉ zones → table.row? id = some (.replicate alternatives .zero)

theorem assembled_of_merge (distinct : zones.toList.Nodup)
    (holdable : zones.size * alternatives < UInt64.size) {inOrder : List PacketResult}
    (reordered : inOrder.Perm results) (tiled : Tiled maxZone alternatives zones 0 inOrder)
    (merged : merge maxZone alternatives zones results = .ok table) :
    Assembled maxZone alternatives zones results table := by
  have few := size_lt_of_nodup distinct
  have placed := merged
  rw [merge_eq_of_tiles reordered.symm tiled.tiles] at placed
  obtain ⟨holds, kept⟩ := holds_of_placeResults few holdable (width_zeros maxZone alternatives)
    (shaped_zeros maxZone alternatives) (show (zones.toList.drop (0 : UInt64).toNat).Nodup from distinct) placed
  refine ⟨maxZone_of_merge merged, width_of_merge merged, fun position within => ?_,
    fun result member position within behind before => ?_, fun id there absent => ?_⟩
  · obtain ⟨packet, listed, around⟩ := tiled.tiles.exists_around (Nat.zero_le position) within
    obtain ⟨result, member, rfl⟩ := List.mem_map.mp listed
    exact ⟨result, reordered.subset member, around⟩
  · have listed := reordered.mem_iff.mpr member
    obtain ⟨_, inside⟩ := tiled.tiles.inside _ (List.mem_map_of_mem (f := PacketResult.packet) listed)
    have length : (covered zones result).length = _ := length_covered inside
    have offset : position - result.first.toNat < (covered zones result).length := by omega
    obtain ⟨row, cut, stands⟩ := holds result listed _ offset
    rw [Nat.zero_add] at cut
    have here : (covered zones result)[position - result.first.toNat] = zones[position] := by
      simp only [covered, Array.getElem_toList, Array.getElem_extract]
      congr 1
      omega
    exact ⟨row, cut, here ▸ stands⟩
  · rw [kept id (by simpa using absent), row?_zeros there]

/-- Merging does not run off a table. It has a table exactly if some order of the results tiles the
zone list, with full results and zones up to the highest. The table is then put together from their
rows, and the order in which they come leaves no trace. -/
theorem merge_tilings {zones : Array UInt32} {alternatives : Nat} (maxZone : UInt32)
    (distinct : zones.toList.Nodup) (holdable : zones.size * alternatives < UInt64.size)
    (results : List PacketResult) :
    merge maxZone alternatives zones results ≠ .error .outOfBounds ∧
      ((∃ table, merge maxZone alternatives zones results = .ok table) ↔
        ∃ inOrder, inOrder.Perm results ∧ Tiled maxZone alternatives zones 0 inOrder) ∧
      (∀ table, merge maxZone alternatives zones results = .ok table →
        Assembled maxZone alternatives zones results table) ∧
      ∀ other, other.Perm results → ∀ table,
        merge maxZone alternatives zones other = .ok table ↔
          merge maxZone alternatives zones results = .ok table := by
  have few := size_lt_of_nodup distinct
  have ended (some : List PacketResult) := merge_cases few holdable maxZone some
  have ordered {some : List PacketResult} {table : AccessibilityTable}
      (merged : merge maxZone alternatives zones some = .ok table) :
      ∃ inOrder, inOrder.Perm some ∧ Tiled maxZone alternatives zones 0 inOrder := by
    obtain ⟨inOrder, reordered, tiled, _⟩ | ⟨_, refusal, refused⟩ := ended some
    · exact ⟨inOrder, reordered, tiled⟩
    · rw [refused] at merged
      cases merged
  have unmoved {some other : List PacketResult} (moved : other.Perm some) {table : AccessibilityTable}
      (merged : merge maxZone alternatives zones some = .ok table) :
      merge maxZone alternatives zones other = .ok table := by
    obtain ⟨inOrder, reordered, tiled⟩ := ordered merged
    rw [merge_eq_of_tiles reordered.symm tiled.tiles] at merged
    rw [merge_eq_of_tiles (moved.trans reordered.symm) tiled.tiles, merged]
  refine ⟨?_, ⟨fun ⟨table, merged⟩ => ordered merged, fun tiling => ?_⟩, fun table merged => ?_,
    fun other moved table => ⟨unmoved moved.symm, unmoved moved⟩⟩
  · obtain ⟨_, _, _, table, merged⟩ | ⟨_, refusal, refused⟩ := ended results
    · rw [merged]
      simp
    · rw [refused]
      exact fun same => refusal.fault_ne_outOfBounds (Except.error.inj same)
  · obtain ⟨_, _, _, merged⟩ | ⟨untiled, _⟩ := ended results
    · exact merged
    · exact absurd tiling untiled
  · obtain ⟨inOrder, reordered, tiled⟩ := ordered merged
    exact assembled_of_merge distinct holdable reordered tiled merged

/-- Results for four zones, two to a packet, make the same table if the second one comes first. -/
theorem merge_tilings_swapped :
    let zones : Array UInt32 := #[1, 4, 5, 9]
    let early : PacketResult := ⟨1, 0, 1, 1, #[⟨0x3F800000⟩, ⟨0x40800000⟩]⟩
    let late : PacketResult := ⟨2, 2, 3, 1, #[⟨0x40A00000⟩, ⟨0x41100000⟩]⟩
    zones.toList.Nodup ∧ zones.size * 1 < UInt64.size ∧
      ∃ table, merge 10 1 zones [late, early] = .ok table ∧ merge 10 1 zones [early, late] = .ok table ∧
        table.row? 4 = some #[⟨0x40800000⟩] ∧ table.row? 2 = some #[.zero] := by
  intro zones early late
  have distinct : zones.toList.Nodup := by decide
  have holdable : zones.size * 1 < UInt64.size := by decide
  obtain ⟨_, tilings, assembled, unmoved⟩ := merge_tilings 10 distinct holdable [late, early]
  have tiled : Tiled 10 1 zones 0 [early, late] := by
    refine ⟨?_, fun result member => ?_, by simp [zones]⟩
    · exact @Packet.Tiles.packet _ early.packet _ (by decide) (by decide)
        (@Packet.Tiles.packet _ late.packet _ (by decide) (by decide) .done)
    · obtain rfl | rfl : result = early ∨ result = late := by simpa using member
      · exact ⟨rfl, 2, by decide +kernel, rfl⟩
      · exact ⟨rfl, 2, by decide +kernel, rfl⟩
  obtain ⟨table, merged⟩ := tilings.mpr ⟨_, .swap late early [], tiled⟩
  have parts := assembled table merged
  obtain ⟨row, cut, stands⟩ := parts.zone early (by simp) 1 (by decide) (by decide) (by decide)
  refine ⟨distinct, holdable, table, merged, (unmoved _ (.swap late early []) table).mpr merged, ?_,
    parts.gap 2 (by decide) (by simp [zones])⟩
  have same : #[⟨0x40800000⟩] = row := Except.ok.inj cut
  exact same ▸ stands

end AccessibilityTable

end Accessibility
