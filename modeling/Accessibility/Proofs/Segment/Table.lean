import Accessibility.Proofs.Keyed
import Accessibility.Proofs.Outcome
import Accessibility.Segment.Table

/-! Tables of segments as lists of the names they were given. Names registered one after the other make a
table exactly if no name comes twice, and the segments then stand in the order of their names, each at its
place (`pushAll_eq_ok_iff`). In such a table names and indices lead to each other (`Lists.invertible`). -/
namespace Accessibility

namespace SegmentTable

variable {table next : SegmentTable} {entries more : List (String × Option UInt32)} {name : String}
  {code : Option UInt32} {index : Nat} {fault : Fault}

/-- Segments for names and the codes they stand for, from an index on. -/
def segmentsFrom (first : Nat) (entries : List (String × Option UInt32)) : List Segment :=
  entries.mapIdx fun place entry => ⟨first + place, entry.1, entry.2⟩

/-- A table with segments for more names behind its own. -/
def extend (table : SegmentTable) (entries : List (String × Option UInt32)) : SegmentTable :=
  { table with segments := table.segments ++ segmentsFrom table.size entries }

/-- Names registered one after the other. -/
def pushAll (table : SegmentTable) (entries : List (String × Option UInt32)) : Outcome SegmentTable :=
  entries.foldlM (fun table entry => table.push entry.1 entry.2) table

/-! ## Registering names -/

theorem segmentsFrom_append (first : Nat) (entries more : List (String × Option UInt32)) :
    segmentsFrom first (entries ++ more) =
      segmentsFrom first entries ++ segmentsFrom (first + entries.length) more := by
  simp only [segmentsFrom, List.mapIdx_append, Nat.add_assoc, Nat.add_comm entries.length]

@[simp] theorem length_segmentsFrom (first : Nat) (entries : List (String × Option UInt32)) :
    (segmentsFrom first entries).length = entries.length := List.length_mapIdx

theorem names_segmentsFrom (first : Nat) (entries : List (String × Option UInt32)) :
    (segmentsFrom first entries).map Segment.name = entries.map Prod.fst := by
  refine List.ext_getElem? fun place => ?_
  simp only [segmentsFrom, List.getElem?_map, List.getElem?_mapIdx, Option.map_map]
  rfl

theorem size_extend : (table.extend entries).size = table.size + entries.length := by
  simp [size, extend]

theorem names_extend : (table.extend entries).names = table.names ++ entries.map Prod.fst := by
  simp only [names, extend, List.map_append, names_segmentsFrom]

theorem extend_nil : table.extend [] = table := by simp [extend, segmentsFrom]

theorem extend_extend : (table.extend entries).extend more = table.extend (entries ++ more) := by
  simp only [extend, segmentsFrom_append, size, List.length_append, length_segmentsFrom, List.append_assoc]

theorem push_of_fresh (fresh : name ∉ table.names) : table.push name code = .ok (table.extend [(name, code)]) :=
  if_neg fresh

theorem push_of_known (known : name ∈ table.names) :
    table.push name code = .error (Segment.Refusal.registeredTwice name).fault :=
  if_pos known

theorem pushAll_cons (entry : String × Option UInt32) (rest : List (String × Option UInt32)) :
    table.pushAll (entry :: rest) = table.push entry.1 entry.2 >>= (·.pushAll rest) :=
  List.foldlM_cons

theorem size_of_push (pushed : table.push name code = .ok next) : next.size = table.size + 1 := by
  by_cases known : name ∈ table.names
  · rw [push_of_known known] at pushed
    cases pushed
  · rw [push_of_fresh known] at pushed
    cases pushed
    exact size_extend

/-- Names are registered if none of them is there twice, and are refused for one that is. -/
theorem pushAll_cases (distinct : table.names.Nodup) :
    ((table.names ++ entries.map Prod.fst).Nodup ∧ table.pushAll entries = .ok (table.extend entries)) ∨
      ¬ (table.names ++ entries.map Prod.fst).Nodup ∧ ∃ name ∈ entries.map Prod.fst,
        table.pushAll entries = .error (Segment.Refusal.registeredTwice name).fault := by
  induction entries generalizing table with
  | nil => exact .inl ⟨by simpa using distinct, congrArg Except.ok extend_nil.symm⟩
  | cons entry rest ih =>
    obtain ⟨name, code⟩ := entry
    by_cases known : name ∈ table.names
    · refine .inr ⟨fun nodup => ?_, name, List.mem_cons_self, ?_⟩
      · exact List.disjoint_of_nodup_append nodup known List.mem_cons_self
      · rw [pushAll_cons, push_of_known known]
        rfl
    · have names : (table.extend [(name, code)]).names ++ rest.map Prod.fst =
          table.names ++ ((name, code) :: rest).map Prod.fst := by simp [names_extend]
      have goesOn : table.pushAll ((name, code) :: rest) = (table.extend [(name, code)]).pushAll rest := by
        rw [pushAll_cons, push_of_fresh known]
        rfl
      have distinct' : (table.extend [(name, code)]).names.Nodup := by
        rw [names_extend, List.map_singleton, ← List.concat_eq_append]
        exact distinct.concat known
      rw [← names, goesOn, show (name, code) :: rest = [(name, code)] ++ rest from rfl, ← extend_extend]
      obtain ⟨nodup, registered⟩ | ⟨twice, other, member, refused⟩ := ih distinct'
      · exact .inl ⟨nodup, registered⟩
      · exact .inr ⟨twice, other, by simp [member], refused⟩

theorem pushAll_eq_ok_iff (distinct : table.names.Nodup) :
    table.pushAll entries = .ok next ↔
      (table.names ++ entries.map Prod.fst).Nodup ∧ next = table.extend entries := by
  obtain ⟨nodup, registered⟩ | ⟨twice, name, -, refused⟩ := @pushAll_cases table entries distinct
  · simp [nodup, registered, eq_comm]
  · simp [twice, refused]

theorem nodup_names_empty : empty.names.Nodup := .nil

theorem pushAll_append : table.pushAll (entries ++ more) = table.pushAll entries >>= (·.pushAll more) :=
  List.foldlM_append

/-- Names are registered behind others if none of all these is there twice. -/
theorem pushAll_extend (distinct : ((entries ++ more).map Prod.fst).Nodup) :
    (empty.extend entries).pushAll more = .ok (empty.extend (entries ++ more)) := by
  rw [List.map_append] at distinct
  have names : (empty.extend entries).names = entries.map Prod.fst := names_extend
  refine (pushAll_eq_ok_iff ?_).mpr ⟨?_, extend_extend.symm⟩
  · rw [names]
    exact (List.nodup_append.mp distinct).1
  · rwa [names]

theorem push_extend (distinct : ((entries ++ [(name, code)]).map Prod.fst).Nodup) :
    (empty.extend entries).push name code = .ok (empty.extend (entries ++ [(name, code)])) := by
  rw [← pushAll_extend distinct, pushAll_cons]
  cases (empty.extend entries).push name code <;> rfl

/-! ## Looking segments up -/

/-- A table that lists names, each of them once, with the codes they stand for. -/
structure Lists (entries : List (String × Option UInt32)) (table : SegmentTable) : Prop where
  segments : table.segments = segmentsFrom 0 entries
  distinct : (entries.map Prod.fst).Nodup

/-- A table whose names and indices lead to each other. -/
structure Invertible (table : SegmentTable) : Prop where
  distinct : table.names.Nodup
  inverse : ∀ name index, table.indexOf name = .ok index ↔ table.nameOf index = .ok name
  named : ∀ name, (∃ index, table.indexOf name = .ok index) ↔ name ∈ table.names
  indexed : ∀ index, (∃ name, table.nameOf index = .ok name) ↔ index < table.size

theorem nameOf_eq_ok_iff : table.nameOf index = .ok name ↔ table.names[index]? = some name := by
  rw [nameOf, names, List.getElem?_map]
  cases table.segments[index]? <;> simp

namespace Lists

theorem names_eq (lists : table.Lists entries) : table.names = entries.map Prod.fst := by
  rw [names, lists.segments, names_segmentsFrom]

theorem size_eq (lists : table.Lists entries) : table.size = entries.length := by
  rw [size, lists.segments, length_segmentsFrom]

theorem segment_eq_some_iff (lists : table.Lists entries) {segment : Segment} :
    table.segments[index]? = some segment ↔
      entries[index]? = some (segment.name, segment.code) ∧ segment.index = index := by
  rw [lists.segments, segmentsFrom, List.getElem?_mapIdx, Nat.zero_add]
  obtain ⟨place, name, code⟩ := segment
  cases entries[index]? with
  | none => simp
  | some entry =>
    obtain ⟨name', code'⟩ := entry
    simp only [Option.map_some, Option.some.injEq, Segment.mk.injEq, Prod.mk.injEq]
    rw [and_comm, @eq_comm _ index]

/-- A name leads to an index exactly if the index leads back to the name. -/
theorem indexOf_eq_ok_iff (lists : table.Lists entries) :
    table.indexOf name = .ok index ↔ table.nameOf index = .ok name := by
  have distinct : (table.segments.map Segment.name).Nodup := by
    rw [show table.segments.map Segment.name = _ from lists.names_eq]
    exact lists.distinct
  have found (segment : Segment) := Keyed.find?_eq_some_iff distinct name segment
  rw [nameOf_eq_ok_iff, names, List.getElem?_map, Option.map_eq_some_iff]
  constructor
  · intro led
    unfold indexOf at led
    split at led
    next segment here =>
      cases led
      obtain ⟨member, named⟩ := (found segment).mp here
      obtain ⟨place, there⟩ := List.mem_iff_getElem?.mp member
      obtain rfl := (lists.segment_eq_some_iff.mp there).2
      exact ⟨segment, there, named⟩
    next => cases led
  · rintro ⟨segment, there, named⟩
    rw [indexOf, (found segment).mpr ⟨List.mem_of_getElem? there, named⟩]
    exact congrArg Except.ok (lists.segment_eq_some_iff.mp there).2

theorem invertible (lists : table.Lists entries) : table.Invertible where
  distinct := lists.names_eq ▸ lists.distinct
  inverse _ _ := lists.indexOf_eq_ok_iff
  named _ := by simp only [lists.indexOf_eq_ok_iff, nameOf_eq_ok_iff, List.mem_iff_getElem?]
  indexed _ := by simp [nameOf_eq_ok_iff, List.getElem?_eq_some_iff, names, size]

end Lists

end SegmentTable

end Accessibility
