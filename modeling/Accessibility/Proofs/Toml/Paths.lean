import Accessibility.Proofs.Keyed
import Accessibility.Proofs.Toml.Value

/-! The paths of a table that lead to values other than tables. Looking along a path and listing all
of them are inverse to each other where no name occurs twice: a path is listed exactly if it leads to
such a value (`mem_leaves_iff`), and only once (`nodup_leaves`). The paths that are listed as text
are these, with each name put behind the text so far (`leafPaths_eq`). -/
namespace Accessibility.Toml

mutual

/-- The paths that begin with the name of a value and lead to all values in it that are not tables. -/
def Value.leaves (name : String) : Value → List (List String)
  | .table inner => (Table.leaves inner).map (name :: ·)
  | _ => [[name]]

/-- The paths to all values that are not tables. -/
def Table.leaves : List (String × Value) → List (List String)
  | [] => []
  | (name, value) :: rest => value.leaves name ++ Table.leaves rest

end

namespace Table

/-- A path leads to a value that is not a table. -/
def LeafAt (table : Table) (path : List String) (value : Value) : Prop :=
  table.follow path = some value ∧ value.isTable = false

variable {table : Table} {name first : String} {path : List String} {value : Value}

/-! ## Looking along a path -/

theorem follow_cons_iff :
    table.follow (name :: path) = some value ↔
      path = [] ∧ table.get? name = some value ∨
        ∃ inner, table.get? name = some (.table inner) ∧ Table.follow inner path = some value := by
  cases path with
  | nil => simp [follow]
  | cons next path =>
    rw [follow]
    · split
      next inner held => simp [held]
      next other =>
        refine iff_of_false nofun ?_
        rintro (⟨⟨⟩, -⟩ | ⟨inner, held, -⟩)
        exact other inner held
    · nofun

theorem get?_eq_some_iff (distinct : Distinct table) :
    table.get? name = some value ↔ (name, value) ∈ table := by
  unfold get?
  rw [Option.map_eq_some_iff]
  constructor
  · rintro ⟨⟨other, _⟩, found, rfl⟩
    obtain ⟨there, rfl⟩ := (Keyed.find?_eq_some_iff distinct name _).mp found
    exact there
  · exact fun there => ⟨(name, value), (Keyed.find?_eq_some_iff distinct name _).mpr ⟨there, rfl⟩, rfl⟩

theorem wellFormed_of_follow (sound : table.WellFormed) (found : table.follow path = some value) :
    value.WellFormed := by
  induction path generalizing table with
  | nil => cases found
  | cons name path ih =>
    rcases follow_cons_iff.mp found with ⟨-, held⟩ | ⟨inner, held, found⟩
    · exact sound.each _ ((get?_eq_some_iff sound.distinct).mp held)
    · have within := sound.each _ ((get?_eq_some_iff sound.distinct).mp held)
      exact ih (Value.wellFormed_table_iff.mp within) found

/-- What a path leads to, with its first name looked up among the entries. -/
theorem leafAt_cons_iff (distinct : Distinct table) :
    table.LeafAt (name :: path) value ↔
      path = [] ∧ (name, value) ∈ table ∧ value.isTable = false ∨
        ∃ inner, (name, .table inner) ∈ table ∧ Table.LeafAt inner path value := by
  unfold LeafAt
  rw [follow_cons_iff]
  simp only [get?_eq_some_iff distinct]
  constructor
  · rintro ⟨⟨rfl, there⟩ | ⟨inner, there, found⟩, leaf⟩
    · exact .inl ⟨rfl, there, leaf⟩
    · exact .inr ⟨inner, there, found, leaf⟩
  · rintro (⟨rfl, there, leaf⟩ | ⟨inner, there, found, leaf⟩)
    · exact ⟨.inl ⟨rfl, there⟩, leaf⟩
    · exact ⟨.inr ⟨inner, there, found⟩, leaf⟩

/-! ## Listing all paths -/

theorem leaves_eq_flatMap (table : Table) :
    leaves table = table.flatMap fun entry => entry.2.leaves entry.1 := by
  induction table with
  | nil => rfl
  | cons entry rest ih => rw [leaves, ih, List.flatMap_cons]

theorem exists_eq_cons (listed : path ∈ value.leaves first) : ∃ others, path = first :: others := by
  cases value with
  | table inner =>
    obtain ⟨others, -, rfl⟩ := List.mem_map.mp listed
    exact ⟨others, rfl⟩
  | _ => exact ⟨[], List.mem_singleton.mp listed⟩

theorem cons_mem_leaves_value_iff :
    name :: path ∈ value.leaves first ↔
      first = name ∧ (path = [] ∧ value.isTable = false ∨
        ∃ inner, value = .table inner ∧ path ∈ leaves inner) := by
  cases value <;> simp [Value.leaves, Value.isTable, and_comm, eq_comm]

theorem cons_mem_leaves_iff :
    name :: path ∈ leaves table ↔
      path = [] ∧ (∃ value, (name, value) ∈ table ∧ value.isTable = false) ∨
        ∃ inner, (name, .table inner) ∈ table ∧ path ∈ leaves inner := by
  rw [leaves_eq_flatMap]
  simp only [List.mem_flatMap, Prod.exists, cons_mem_leaves_value_iff]
  constructor
  · rintro ⟨_, value, there, rfl, ⟨rfl, leaf⟩ | ⟨inner, rfl, listed⟩⟩
    · exact .inl ⟨rfl, value, there, leaf⟩
    · exact .inr ⟨inner, there, listed⟩
  · rintro (⟨rfl, value, there, leaf⟩ | ⟨inner, there, listed⟩)
    · exact ⟨name, value, there, rfl, .inl ⟨rfl, leaf⟩⟩
    · exact ⟨name, .table inner, there, rfl, .inr ⟨inner, rfl, listed⟩⟩

theorem ne_nil_of_mem_leaves (listed : path ∈ leaves table) : path ≠ [] := by
  rw [leaves_eq_flatMap] at listed
  obtain ⟨entry, -, listed⟩ := List.mem_flatMap.mp listed
  obtain ⟨others, rfl⟩ := exists_eq_cons listed
  nofun

/-- Listed are exactly the paths that lead to values other than tables. -/
theorem mem_leaves_iff (sound : table.WellFormed) :
    path ∈ leaves table ↔ ∃ value, table.LeafAt path value := by
  induction path generalizing table with
  | nil =>
    refine iff_of_false (fun listed => ne_nil_of_mem_leaves listed rfl) ?_
    rintro ⟨value, found, -⟩
    cases found
  | cons name path ih =>
    have within : ∀ inner, (name, .table inner) ∈ table →
        (path ∈ leaves inner ↔ ∃ value, Table.LeafAt inner path value) := fun inner there =>
      ih (Value.wellFormed_table_iff.mp (sound.each _ there))
    simp only [cons_mem_leaves_iff, leafAt_cons_iff sound.distinct]
    constructor
    · rintro (⟨rfl, value, there, leaf⟩ | ⟨inner, there, listed⟩)
      · exact ⟨value, .inl ⟨rfl, there, leaf⟩⟩
      · obtain ⟨value, leaf⟩ := (within inner there).mp listed
        exact ⟨value, .inr ⟨inner, there, leaf⟩⟩
    · rintro ⟨value, ⟨rfl, there, leaf⟩ | ⟨inner, there, leaf⟩⟩
      · exact .inl ⟨rfl, value, there, leaf⟩
      · exact .inr ⟨inner, there, (within inner there).mpr ⟨value, leaf⟩⟩

/-- The paths of one entry differ as those within it do, and those of different entries in their
first names. -/
theorem nodup_leaves_value (sound : value.WellFormed) (name : String) :
    (value.leaves name).Nodup := by
  induction sound generalizing name with
  | @table entries distinct _ ih =>
    rw [Value.leaves]
    refine List.Nodup.map (List.cons_injective) ?_
    rw [leaves_eq_flatMap]
    refine List.nodup_flatMap.mpr ⟨fun entry there => ih entry there entry.1, ?_⟩
    refine (List.pairwise_map.mp distinct).imp fun {entry other} different => ?_
    intro path listed listed'
    obtain ⟨others, rfl⟩ := exists_eq_cons listed
    obtain ⟨_, same⟩ := exists_eq_cons listed'
    exact different (List.cons.inj same).1
  | _ => exact List.nodup_singleton _

/-- No path is listed twice. -/
theorem nodup_leaves (sound : table.WellFormed) : (leaves table).Nodup :=
  (nodup_leaves_value (Value.wellFormed_table_iff.mpr sound) "").of_map

/-! ## Paths as text -/

theorem leafPaths_eq (path : String) (table : Table) :
    leafPaths path table = (leaves table).map fun names => names.foldl joined path := by
  fun_induction leafPaths path table with
  | case1 => rfl
  | case2 path name inner rest ih ih' =>
    rw [ih, ih', leaves, Value.leaves, List.map_append, List.map_map]
    rfl
  | case3 path name value rest other ih =>
    rw [ih, leaves, Value.leaves]
    · rfl
    · exact other

end Table

end Accessibility.Toml
