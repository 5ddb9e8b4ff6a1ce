import Accessibility.Proofs.Segment.Names
import Accessibility.Proofs.Segment.Table

/-! Segments of an assignment of codes. The reserved names and the names of the distinct codes, in
ascending order, are registered one after the other (`appendReserved_eq`, `appendCodes_eq`), so there are
segments exactly if no two of these names are the same; which of them can be is a matter of the reserved
names and of codes that meet. By name, by index and by code one then finds the same segments
(`buildSegments_registers`). -/
namespace Accessibility

namespace CodeIndex

variable {index : CodeIndex} {codes : List UInt32} {code other : UInt32} {first segment : Nat}

/-- Codes with indices that count on from a first one. -/
def entriesFrom (first : Nat) (codes : List UInt32) : List (UInt32 × Nat) :=
  codes.mapIdx fun place code => (code, first + place)

theorem entriesFrom_cons (first : Nat) (code : UInt32) (codes : List UInt32) :
    entriesFrom first (code :: codes) = (code, first) :: entriesFrom (first + 1) codes := by
  simp [entriesFrom, List.mapIdx_cons, Nat.add_assoc, Nat.add_comm 1]

theorem codes_entriesFrom (first : Nat) (codes : List UInt32) :
    (entriesFrom first codes).map Prod.fst = codes := by
  refine List.ext_getElem? fun place => ?_
  simp [entriesFrom, List.getElem?_map, List.getElem?_mapIdx, Function.comp_def]

theorem segments_entriesFrom (first : Nat) (codes : List UInt32) :
    (entriesFrom first codes).map Prod.snd = List.range' first codes.length := by
  refine List.ext_getElem (by simp [entriesFrom]) fun place within within' => ?_
  simp [entriesFrom]

/-- A code's segment is as far behind the first as the code is in the list. -/
theorem get_eq_ok_iff (entries : index.entries = entriesFrom first codes) (distinct : codes.Nodup) :
    index.get code = .ok segment ↔ ∃ place, codes[place]? = some code ∧ segment = first + place := by
  have keys : (index.entries.map Prod.fst).Nodup := by rwa [entries, codes_entriesFrom]
  have found := Keyed.find?_eq_some_iff keys code (code, segment)
  have member : (code, segment) ∈ index.entries ↔ ∃ place, codes[place]? = some code ∧ segment = first + place := by
    rw [entries, List.mem_iff_getElem?]
    refine exists_congr fun place => ?_
    rw [entriesFrom, List.getElem?_mapIdx, Option.map_eq_some_iff]
    constructor
    · rintro ⟨_, there, same⟩
      obtain ⟨rfl, rfl⟩ := Prod.mk.inj same
      exact ⟨there, rfl⟩
    · rintro ⟨there, rfl⟩
      exact ⟨code, there, rfl⟩
  rw [← member]
  constructor
  · intro led
    unfold get at led
    split at led
    next other segment here =>
      cases led
      obtain rfl : other = code := by simpa using List.find?_some here
      exact (found.mp here).1
    next => cases led
  · intro there
    rw [get, found.mpr ⟨there, rfl⟩]

/-- A listed code has a segment in the block that counts on from the first. -/
theorem exists_get (entries : index.entries = entriesFrom first codes) (distinct : codes.Nodup)
    (listed : code ∈ codes) :
    ∃ segment, index.get code = .ok segment ∧ first ≤ segment ∧ segment < first + codes.length := by
  obtain ⟨place, there⟩ := List.mem_iff_getElem?.mp listed
  refine ⟨first + place, (get_eq_ok_iff entries distinct).mpr ⟨place, there, rfl⟩, Nat.le_add_right .., ?_⟩
  exact Nat.add_lt_add_left (List.getElem?_eq_some_iff.mp there).1 first

/-- Listed codes have a segment each of their own. -/
theorem get_eq_get_iff (entries : index.entries = entriesFrom first codes) (distinct : codes.Nodup)
    (listed : code ∈ codes) : index.get code = index.get other ↔ code = other := by
  constructor
  · intro same
    obtain ⟨segment, led, -⟩ := exists_get entries distinct listed
    obtain ⟨place, there, rfl⟩ := (get_eq_ok_iff entries distinct).mp led
    obtain ⟨place', there', equal⟩ := (get_eq_ok_iff entries distinct).mp (same.symm.trans led)
    obtain rfl := Nat.add_left_cancel equal
    exact Option.some.inj (there.symm.trans there')
  · rintro rfl
    rfl

end CodeIndex

namespace SegmentIndexer

variable {indexer : SegmentIndexer} {labels : CodeLabels} {table : SegmentTable} {index : CodeIndex}

/-- What a code's segment is registered with. -/
def entryOf (indexer : SegmentIndexer) (labels : CodeLabels) (code : UInt32) : String × Option UInt32 :=
  (indexer.segmentName labels code, some code)

theorem names_entryOf (codes : List UInt32) :
    (codes.map (indexer.entryOf labels)).map Prod.fst = codes.map (indexer.segmentName labels) :=
  List.map_map ..

/-- Reserved names are registered one after the other. -/
theorem appendReserved_eq (table : SegmentTable) (names : List String) :
    appendReserved table names = table.pushAll (names.map (·, none)) := by
  rw [SegmentTable.pushAll, List.foldlM_map]
  rfl

/-- Codes are registered one after the other, and the index is continued with their places. -/
theorem appendCodes_eq (table : SegmentTable) (index : CodeIndex) (codes : List UInt32) :
    indexer.appendCodes labels table index codes =
      (table.pushAll (codes.map (indexer.entryOf labels))).map fun next =>
        (next, { index with entries := index.entries ++ CodeIndex.entriesFrom table.size codes }) := by
  induction codes generalizing table index with
  | nil => simp [appendCodes, SegmentTable.pushAll, CodeIndex.entriesFrom, Except.map, pure, Except.pure]
  | cons code rest ih =>
    rw [List.map_cons, SegmentTable.pushAll_cons]
    change (table.push (indexer.segmentName labels code) (some code) >>= fun next =>
      indexer.appendCodes labels next { index with entries := index.entries ++ [(code, table.size)] } rest) =
        (table.push (indexer.segmentName labels code) (some code) >>= _).map _
    cases pushed : table.push (indexer.segmentName labels code) (some code) with
    | error fault => rfl
    | ok next =>
      change indexer.appendCodes labels next _ rest = (next.pushAll _).map _
      rw [ih, SegmentTable.size_of_push pushed, CodeIndex.entriesFrom_cons]
      simp only [List.append_assoc, List.singleton_append]

/-- Codes are registered behind other names if none of all these names is there twice. -/
theorem appendCodes_extend {entries : List (String × Option UInt32)} {codes : List UInt32} (kind : String)
    (distinct : ((entries ++ codes.map (indexer.entryOf labels)).map Prod.fst).Nodup) :
    indexer.appendCodes labels (.extend .empty entries) (.empty kind) codes =
      .ok (.extend .empty (entries ++ codes.map (indexer.entryOf labels)),
        ⟨kind, CodeIndex.entriesFrom entries.length codes⟩) := by
  rw [appendCodes_eq, SegmentTable.pushAll_extend distinct, SegmentTable.size_extend]
  simp [Except.map, CodeIndex.empty, SegmentTable.empty, SegmentTable.size]

/-- The reserved names, and the names of codes, with what they stand for. -/
def entriesOf (indexer : SegmentIndexer) (reserved : List String) (labels : CodeLabels) (codes : List UInt32) :
    List (String × Option UInt32) :=
  reserved.map (·, none) ++ codes.map (indexer.entryOf labels)

theorem names_entriesOf (reserved : List String) (codes : List UInt32) :
    (indexer.entriesOf reserved labels codes).map Prod.fst = reserved ++ codes.map (indexer.segmentName labels) := by
  rw [entriesOf, List.map_append, names_entryOf, List.map_map]
  simp [Function.comp_def]

/-- Names are all different if the reserved ones are, no code has one of them, and no codes meet. -/
theorem nodup_entriesOf_iff {reserved : List String} {codes : List UInt32} (ascending : codes.Pairwise (· < ·)) :
    ((indexer.entriesOf reserved labels codes).map Prod.fst).Nodup ↔
      reserved.Nodup ∧ (∀ code ∈ codes, indexer.segmentName labels code ∉ reserved) ∧
        ¬ indexer.Meet labels codes := by
  rw [names_entriesOf, List.nodup_append, nodup_names_iff (ascending.imp UInt32.ne_of_lt)]
  refine and_congr_right fun _ => and_comm.trans (and_congr_left fun _ => ?_)
  constructor
  · intro apart code member reserved
    exact apart _ reserved _ (List.mem_map_of_mem member) rfl
  · rintro apart name listed _ coded rfl
    obtain ⟨code, member, rfl⟩ := List.mem_map.mp coded
    exact apart code member listed

/-- The segments of an assignment are registered in one go. -/
theorem buildSegments_eq_pushAll (reserved : List String) (assignment : List (UInt32 × UInt32)) :
    indexer.buildSegments reserved assignment labels =
      (SegmentTable.empty.pushAll
        (indexer.entriesOf reserved labels (distinctCodes (assignment.map (·.2))))).map fun table =>
          { table with
            codes := ⟨labels.plain,
              CodeIndex.entriesFrom reserved.length (distinctCodes (assignment.map (·.2)))⟩ } := by
  rw [entriesOf, SegmentTable.pushAll_append]
  unfold buildSegments
  rw [appendReserved_eq]
  cases registered : SegmentTable.empty.pushAll (reserved.map (·, none)) with
  | error fault => rfl
  | ok table =>
    obtain ⟨-, rfl⟩ := (SegmentTable.pushAll_eq_ok_iff SegmentTable.nodup_names_empty).mp registered
    change (indexer.appendCodes labels _ _ _ >>= fun laid => .ok { laid.1 with codes := laid.2 }) =
      (SegmentTable.pushAll _ _).map _
    rw [appendCodes_eq, SegmentTable.size_extend, List.length_map]
    cases (SegmentTable.empty.extend (reserved.map (·, none))).pushAll _ with
    | error fault => rfl
    | ok next =>
      simp [Except.map, bind, Except.bind, CodeIndex.empty, SegmentTable.empty, SegmentTable.size]

/-- The segments of an assignment of codes, as one finds them by name, by index and by code. -/
structure Registers (indexer : SegmentIndexer) (reserved : List String) (labels : CodeLabels)
    (codes : List UInt32) (table : SegmentTable) : Prop where
  /-- The reserved names come first, then the distinct codes in ascending order, and a segment's index is
  its place. -/
  laid : ∃ sorted : List UInt32, sorted.Pairwise (· < ·) ∧ (∀ code, code ∈ sorted ↔ code ∈ codes) ∧
    table.segments = SegmentTable.segmentsFrom 0 (indexer.entriesOf reserved labels sorted)
  invertible : table.Invertible
  coded : ∀ code, (∃ index, table.indexOfCode code = .ok index) ↔ code ∈ codes
  found : ∀ code index, table.indexOfCode code = .ok index →
    table.segments[index]? = some ⟨index, indexer.segmentName labels code, some code⟩

/-- A table that lists reserved names and ascending codes, with an index of the codes' places, is found in
by name, by index and by code. -/
theorem registers_of_lists {reserved : List String} {sorted codes : List UInt32}
    (ascending : sorted.Pairwise (· < ·)) (same : ∀ code, code ∈ sorted ↔ code ∈ codes)
    (lists : table.Lists (indexer.entriesOf reserved labels sorted))
    (entries : table.codes.entries = CodeIndex.entriesFrom reserved.length sorted) :
    indexer.Registers reserved labels codes table := by
  have lookup (code : UInt32) (index : Nat) : table.indexOfCode code = .ok index ↔
      ∃ place, sorted[place]? = some code ∧ index = reserved.length + place :=
    CodeIndex.get_eq_ok_iff entries (ascending.imp UInt32.ne_of_lt)
  exact {
    laid := ⟨sorted, ascending, same, lists.segments⟩
    invertible := lists.invertible
    coded := fun code => by
      rw [← same, List.mem_iff_getElem?]
      constructor
      · rintro ⟨index, led⟩
        obtain ⟨place, there, -⟩ := (lookup code index).mp led
        exact ⟨place, there⟩
      · rintro ⟨place, there⟩
        exact ⟨reserved.length + place, (lookup code _).mpr ⟨place, there, rfl⟩⟩
    found := fun code index led => by
      obtain ⟨place, there, rfl⟩ := (lookup code index).mp led
      refine lists.segment_eq_some_iff.mpr ⟨?_, rfl⟩
      rw [entriesOf, List.getElem?_append_right (by simp), List.length_map, Nat.add_sub_cancel_left,
        List.getElem?_map, there]
      rfl }

/-- What an assignment of codes to zones makes of its codes, under any offset, reserved names and labels.
It has segments exactly if the reserved names differ, no code has one of them for a name, and no two codes
meet; otherwise it is a fault of the configuration. Its segments are found by name, by index and by code. -/
theorem buildSegments_registers (indexer : SegmentIndexer) (reserved : List String)
    (assignment : List (UInt32 × UInt32)) (labels : CodeLabels) :
    ((∃ table, indexer.buildSegments reserved assignment labels = .ok table) ↔
      reserved.Nodup ∧ (∀ code ∈ assignment.map (·.2), indexer.segmentName labels code ∉ reserved) ∧
        ¬ indexer.Meet labels (assignment.map (·.2))) ∧
    (∀ fault, indexer.buildSegments reserved assignment labels = .error fault →
      ∃ name : String, fault = .configuration s!"segment name '{name}' registered twice") ∧
    ∀ table, indexer.buildSegments reserved assignment labels = .ok table →
      indexer.Registers reserved labels (assignment.map (·.2)) table := by
  have ascending := pairwise_distinctCodes (assignment.map (·.2))
  have same (code : UInt32) : code ∈ distinctCodes (assignment.map (·.2)) ↔ code ∈ assignment.map (·.2) :=
    mem_distinctCodes
  have names := @nodup_entriesOf_iff indexer labels reserved _ ascending
  simp only [Meet, same] at names
  rw [Meet, ← names, buildSegments_eq_pushAll]
  obtain ⟨nodup, registered⟩ | ⟨twice, name, -, refused⟩ :=
    @SegmentTable.pushAll_cases .empty (indexer.entriesOf reserved labels _) SegmentTable.nodup_names_empty
  · rw [registered]
    refine ⟨⟨fun _ => nodup, fun _ => ⟨_, rfl⟩⟩, nofun, ?_⟩
    rintro _ ⟨⟩
    exact registers_of_lists ascending same ⟨rfl, nodup⟩ rfl
  · rw [refused]
    exact ⟨⟨nofun, fun nodup => absurd nodup twice⟩, fun _ failed => ⟨name, (Except.error.inj failed).symm⟩, nofun⟩

/-- Codes 3 and 1000003 have segments under labels of their own, and clash under a common one. -/
theorem buildSegments_registers_unified :
    (∃ table, standard.buildSegments ["preschool"] [(1, 1000003), (2, 3), (4, 3)] ⟨"k-8", "unified k-8"⟩ = .ok table ∧
      standard.Registers ["preschool"] ⟨"k-8", "unified k-8"⟩ [1000003, 3, 3] table) ∧
    ∃ name : String, standard.buildSegments ["preschool"] [(1, 1000003), (2, 3), (4, 3)] ⟨"k-8", "k-8"⟩ =
      .error (.configuration s!"segment name '{name}' registered twice") := by
  constructor
  · obtain ⟨built, -, registers⟩ := buildSegments_registers .standard ["preschool"]
      [(1, 1000003), (2, 3), (4, 3)] ⟨"k-8", "unified k-8"⟩
    obtain ⟨table, laid⟩ := built.mpr ⟨List.nodup_singleton _,
      fun code _ listed => ne_segmentName (by decide) (List.mem_singleton.mp listed).symm,
      fun meet => absurd meet.1 (by decide)⟩
    exact ⟨table, laid, registers table laid⟩
  · obtain ⟨built, refused, -⟩ := buildSegments_registers .standard ["preschool"]
      [(1, 1000003), (2, 3), (4, 3)] ⟨"k-8", "k-8"⟩
    cases outcome : standard.buildSegments ["preschool"] [(1, 1000003), (2, 3), (4, 3)] ⟨"k-8", "k-8"⟩ with
    | ok table =>
      refine absurd ⟨rfl, 3, ?_, 1000003, ?_, ?_⟩ (built.mp ⟨table, outcome⟩).2.2
      all_goals decide
    | error fault =>
      obtain ⟨name, rfl⟩ := refused fault outcome
      exact ⟨name, rfl⟩

end SegmentIndexer

end Accessibility
