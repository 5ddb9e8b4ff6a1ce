import Mathlib.Data.List.Nodup
import Accessibility.Proofs.Toml.Value
import Accessibility.Toml.Tree

/-! Tables under construction stay well formed: a name that is put into a table takes the place of
the one before or is new. So whatever a text adds to a table in whatever places, the table that comes
out in the end holds no name twice (`wellFormed_finished`). -/
namespace Accessibility.Toml

/-- A node of values that are well formed, in tables of different names. -/
inductive Node.WellFormed : Node → Prop where
  | leaf {value : Value} (sound : value.WellFormed) : WellFormed (.leaf value)
  | table {origin : Origin} {fields : List (String × Node)} (distinct : Distinct fields)
      (each : ∀ entry ∈ fields, WellFormed entry.2) : WellFormed (.table origin fields)
  | tables {items : List (List (String × Node))} (distinct : ∀ fields ∈ items, Distinct fields)
      (each : ∀ fields ∈ items, ∀ entry ∈ fields, WellFormed entry.2) : WellFormed (.tables items)

namespace Fields

/-- Fields of different names, with nodes that are well formed. -/
structure WellFormed (fields : Fields) : Prop where
  distinct : Distinct fields
  each : ∀ entry ∈ fields, entry.2.WellFormed

variable {fields : Fields} {name : String} {node : Node}

theorem wellFormed_table_iff {origin : Origin} :
    (Node.table origin fields).WellFormed ↔ fields.WellFormed := by
  constructor
  · rintro (_ | ⟨distinct, each⟩)
    exact ⟨distinct, each⟩
  · rintro ⟨distinct, each⟩
    exact .table distinct each

theorem wellFormed_tables_iff {items : List (List (String × Node))} :
    (Node.tables items).WellFormed ↔ ∀ fields ∈ items, WellFormed fields := by
  constructor
  · rintro (_ | _ | ⟨distinct, each⟩) fields there
    exact ⟨distinct fields there, each fields there⟩
  · intro sound
    exact .tables (fun fields there => (sound fields there).distinct)
      fun fields there => (sound fields there).each

theorem wellFormed_nil : WellFormed [] := ⟨List.nodup_nil, nofun⟩

theorem WellFormed.of_get? (sound : fields.WellFormed) (found : fields.get? name = some node) :
    node.WellFormed := by
  obtain ⟨entry, there, rfl⟩ := Option.map_eq_some_iff.mp found
  exact sound.each entry (List.mem_of_find?_eq_some there)

theorem mem_put {entry : String × Node} (there : entry ∈ fields.put name node) :
    entry = (name, node) ∨ entry ∈ fields := by
  induction fields with
  | nil => exact .inl (List.mem_singleton.mp there)
  | cons first rest ih =>
    rw [put] at there
    split at there
    · exact (List.mem_cons.mp there).imp_right (List.mem_cons_of_mem _)
    · obtain rfl | there := List.mem_cons.mp there
      · exact .inr List.mem_cons_self
      · exact (ih there).imp_right (List.mem_cons_of_mem _)

theorem distinct_put (distinct : Distinct fields) : Distinct (fields.put name node) := by
  induction fields with
  | nil => exact List.nodup_singleton name
  | cons first rest ih =>
    obtain ⟨new, distinct⟩ := List.nodup_cons.mp distinct
    rw [put]
    split
    next same => exact List.nodup_cons.mpr ⟨same ▸ new, distinct⟩
    next other =>
      refine List.nodup_cons.mpr ⟨fun there => ?_, ih distinct⟩
      obtain ⟨entry, there, same⟩ := List.mem_map.mp there
      rcases mem_put there with rfl | there
      · exact other same.symm
      · exact new (List.mem_map.mpr ⟨entry, there, same⟩)

theorem WellFormed.put (sound : fields.WellFormed) (placed : node.WellFormed) :
    (fields.put name node).WellFormed := by
  refine ⟨distinct_put sound.distinct, fun entry there => ?_⟩
  rcases mem_put there with rfl | there
  · exact placed
  · exact sound.each entry there

theorem WellFormed.putLast (sound : fields.WellFormed) (placed : node.WellFormed) :
    (fields.putLast name node).WellFormed := by
  constructor
  · unfold Distinct Fields.putLast
    rw [List.map_append]
    refine (sound.distinct.sublist (List.filter_sublist.map _)).append (List.nodup_singleton name) ?_
    rintro _ there ⟨⟩
    · obtain ⟨entry, there, rfl⟩ := List.mem_map.mp there
      simpa using (List.mem_filter.mp there).2
    · contradiction
  · intro entry there
    rcases List.mem_append.mp there with there | there
    · exact sound.each entry (List.mem_of_mem_filter there)
    · obtain rfl := List.mem_singleton.mp there
      exact placed

/-! ## Changes -/

/-- A change after which fields that were well formed are so still. -/
def Keeps (change : Fields → Option Fields) : Prop :=
  ∀ fields result, change fields = some result → fields.WellFormed → result.WellFormed

theorem keeps_foldlM {α : Type} {step : Fields → α → Option Fields} {items : List α}
    (each : ∀ item ∈ items, Keeps fun fields => step fields item) :
    Keeps fun fields => items.foldlM step fields := by
  induction items with
  | nil =>
    rintro fields _ ⟨⟩ sound
    exact sound
  | cons item rest ih =>
    obtain ⟨first, each⟩ := List.forall_mem_cons.mp each
    intro fields result changed sound
    obtain ⟨between, head, tail⟩ := Option.bind_eq_some_iff.mp changed
    exact ih each between result tail (first fields between head sound)

/-- A change of the table that a path leads to is a change of the whole. -/
theorem keeps_changeAt {missing : Origin} {change : Origin → Fields → Option Fields}
    (keeps : ∀ origin, Keeps (change origin)) (path : List String) (origin : Origin) :
    Keeps (changeAt missing change path origin) := by
  intro fields
  fun_induction changeAt missing change path origin fields with
  | case1 origin fields => exact keeps origin fields
  | case2 name path _ fields _ ih =>
    intro result changed sound
    obtain ⟨inner, below, ⟨⟩⟩ := Option.bind_eq_some_iff.mp changed
    exact sound.put (wellFormed_table_iff.mpr (ih inner below wellFormed_nil))
  | case3 => nofun
  | case4 => nofun
  | case5 name path _ fields origin inner found _ ih =>
    intro result changed sound
    obtain ⟨filled, below, ⟨⟩⟩ := Option.bind_eq_some_iff.mp changed
    have before := wellFormed_table_iff.mp (sound.of_get? found)
    exact sound.put (wellFormed_table_iff.mpr (ih filled below before))
  | case6 name path _ fields items found ih =>
    intro result changed sound
    obtain ⟨filled, below, ⟨⟩⟩ := Option.bind_eq_some_iff.mp changed
    have before := wellFormed_tables_iff.mp (sound.of_get? found)
    have last : WellFormed (items.getLastD []) := by
      rw [List.getLastD_eq_getLast?]
      cases open_ : items.getLast? with
      | none => exact wellFormed_nil
      | some last => exact before last (List.mem_of_getLast? open_)
    refine sound.put (wellFormed_tables_iff.mpr fun fields there => ?_)
    rcases List.mem_append.mp there with there | there
    · exact before fields (List.dropLast_subset items there)
    · exact List.mem_singleton.mp there ▸ ih filled below last

theorem keeps_add (path : List String) (name : String) {value : Value} (sound : value.WellFormed) :
    Keeps fun fields => fields.add path name value := by
  refine keeps_changeAt (fun origin fields result changed whole => ?_) path .defined
  split at changed
  · cases changed
  · split at changed
    · cases changed
    · cases changed
      exact whole.put (.leaf sound)

theorem keeps_addAll {entries : List (List String × Value)}
    (each : ∀ entry ∈ entries, entry.2.WellFormed) : Keeps fun fields => fields.addAll entries := by
  refine keeps_foldlM fun entry there fields result changed => ?_
  obtain ⟨name, -, changed⟩ := Option.bind_eq_some_iff.mp changed
  exact keeps_add _ name (each entry there) fields result changed

variable {entries : List (List String × Value)}

theorem keeps_define (path : List String) (name : String)
    (each : ∀ entry ∈ entries, entry.2.WellFormed) :
    Keeps fun fields => fields.define path name entries := by
  refine keeps_changeAt (fun origin fields result changed whole => ?_) path .defined
  split at changed
  · obtain ⟨inner, below, ⟨⟩⟩ := Option.bind_eq_some_iff.mp changed
    have filled := keeps_addAll each [] inner below wellFormed_nil
    exact whole.put (wellFormed_table_iff.mpr filled)
  · rename_i inner found
    obtain ⟨filled, below, ⟨⟩⟩ := Option.bind_eq_some_iff.mp changed
    have implied := wellFormed_table_iff.mp (whole.of_get? found)
    have filled := keeps_addAll each inner filled below implied
    exact whole.putLast (wellFormed_table_iff.mpr filled)
  · cases changed

theorem keeps_append (path : List String) (name : String)
    (each : ∀ entry ∈ entries, entry.2.WellFormed) :
    Keeps fun fields => fields.append path name entries := by
  refine keeps_changeAt (fun origin fields result changed whole => ?_) path .defined
  split at changed
  · obtain ⟨inner, below, ⟨⟩⟩ := Option.bind_eq_some_iff.mp changed
    have filled := keeps_addAll each [] inner below wellFormed_nil
    refine whole.put (wellFormed_tables_iff.mpr fun fields there => ?_)
    exact List.mem_singleton.mp there ▸ filled
  · rename_i items found
    obtain ⟨inner, below, ⟨⟩⟩ := Option.bind_eq_some_iff.mp changed
    have filled := keeps_addAll each [] inner below wellFormed_nil
    refine whole.put (wellFormed_tables_iff.mpr fun fields there => ?_)
    rcases List.mem_append.mp there with there | there
    · exact wellFormed_tables_iff.mp (whole.of_get? found) fields there
    · exact List.mem_singleton.mp there ▸ filled
  · cases changed

/-! ## The end -/

theorem finished_eq_map (fields : Fields) :
    Fields.finished fields = fields.map fun entry => (entry.1, entry.2.value) := by
  induction fields with
  | nil => rfl
  | cons entry rest ih => rw [Fields.finished, ih, List.map_cons]

theorem finishedAll_eq_map (items : List (List (String × Node))) :
    Fields.finishedAll items = items.map fun fields => .table (Fields.finished fields) := by
  induction items with
  | nil => rfl
  | cons fields rest ih => rw [Fields.finishedAll, ih, List.map_cons]

theorem distinct_finished (distinct : Distinct fields) : Distinct (Fields.finished fields) := by
  rw [finished_eq_map, Distinct, List.map_map]
  exact distinct

end Fields

theorem Node.wellFormed_value {node : Node} (sound : node.WellFormed) : node.value.WellFormed := by
  induction sound with
  | leaf sound => exact sound
  | table distinct _ ih =>
    refine .table (Fields.distinct_finished distinct) ?_
    rw [Fields.finished_eq_map, List.forall_mem_map]
    exact ih
  | tables distinct _ ih =>
    rw [Node.value, Fields.finishedAll_eq_map]
    refine .array (List.forall_mem_map.mpr fun fields there => ?_)
    refine .table (Fields.distinct_finished (distinct fields there)) ?_
    rw [Fields.finished_eq_map, List.forall_mem_map]
    exact ih fields there

theorem Fields.wellFormed_finished {fields : Fields} (sound : fields.WellFormed) :
    Table.WellFormed (Fields.finished fields) := by
  refine ⟨distinct_finished sound.distinct, ?_⟩
  rw [finished_eq_map, List.forall_mem_map]
  exact fun entry there => Node.wellFormed_value (sound.each entry there)

end Accessibility.Toml
