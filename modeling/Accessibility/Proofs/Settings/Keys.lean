import Mathlib.Data.List.Perm.Subperm
import Accessibility.Proofs.Toml.Document
import Accessibility.Proofs.Toml.Paths
import Accessibility.Settings.Properties

/-! The keys that are listed and the keys that can be looked up. A key that leads to a value other
than a table is listed, and a listed key leads to such a value if the names on the way to it hold no
points themselves (`keys_agree`). A name with a point in it cannot be told from two names with a
point between them (`keys_of_pointed_name`). -/
namespace Accessibility.Properties

open Toml

variable {properties : Properties} {key : String} {path : List String} {value : Value}

/-! ## Names and their text -/

/-- Names with points between them. -/
def dotted (names : List String) : String := ".".intercalate names

/-- The names between the points of a key. -/
def names (key : String) : List String := (namesOf key.toList).map String.ofList

/-- A name without a point in it. -/
def Plain (name : String) : Prop := '.' ∉ name.toList

theorem namesOf_eq_splitOn (cs : List Char) : namesOf cs = cs.splitOn '.' := by
  induction cs with
  | nil => rfl
  | cons c cs ih =>
    have some_name : cs.splitOn '.' ≠ [] := by
      rw [List.splitOn_eq_splitOnP]
      exact List.splitOnP_ne_nil _ cs
    rw [namesOf, ih, List.splitOn_cons_eq_if_modifyHead]
    by_cases point : c = '.'
    · simp [point]
    · obtain ⟨first, others, split⟩ := List.exists_cons_of_ne_nil some_name
      simp [point, split]

theorem dotted_names (key : String) : dotted (names key) = key := by
  apply String.toList_inj.mp
  rw [dotted, names, String.toList_intercalate, List.map_map, namesOf_eq_splitOn]
  simp [Function.comp_def, List.intercalate_splitOn '.']

theorem names_dotted (some_name : path ≠ []) (plain : ∀ name ∈ path, Plain name) :
    names (dotted path) = path := by
  have split : (['.'].intercalate (path.map String.toList)).splitOn '.' = path.map String.toList :=
    List.splitOn_intercalate '.' (List.forall_mem_map.mpr plain) (by simpa using some_name)
  rw [names, dotted, String.toList_intercalate, namesOf_eq_splitOn, show ".".toList = ['.'] from rfl,
    split, List.map_map]
  simp [Function.comp_def]

theorem joined_eq {text : String} (some_text : text ≠ "") (name : String) :
    Table.joined text name = text ++ "." ++ name := by
  unfold Table.joined
  rw [if_neg (by simpa using some_text)]
  rfl

/-- Names put one behind the other come to their text, behind any text but the empty one. -/
theorem foldl_joined {text : String} (some_text : text ≠ "") (path : List String) :
    path.foldl Table.joined text = dotted (text :: path) := by
  induction path generalizing text with
  | nil => exact String.intercalate_singleton.symm
  | cons name path ih =>
    have longer : text ++ "." ++ name ≠ "" := by simp
    rw [List.foldl_cons, joined_eq some_text, ih longer, dotted, dotted,
      String.intercalate_cons_append, String.intercalate_cons_cons]

/-! ## Keys -/

/-- No table stands under the empty name, among those at the top. -/
def Titled (table : Table) : Prop := ∀ inner, table.get? "" ≠ some (.table inner)

/-- Names up to a value come to their text, wherever they begin. -/
theorem foldl_joined_of_leafAt (titled : Titled properties.table)
    (leaf : properties.table.LeafAt path value) : path.foldl Table.joined "" = dotted path := by
  cases path with
  | nil => cases leaf.1
  | cons name path =>
    show path.foldl Table.joined name = dotted (name :: path)
    by_cases some_name : name = ""
    · subst some_name
      rcases Table.follow_cons_iff.mp leaf.1 with ⟨rfl, -⟩ | ⟨inner, held, -⟩
      · exact String.intercalate_singleton.symm
      · exact absurd held (titled inner)
    · exact foldl_joined some_name path

/-- A key is listed for each value that is not a table. -/
theorem keys_perm (sound : properties.table.WellFormed) (titled : Titled properties.table) :
    properties.keys.Perm ((Table.leaves properties.table).map dotted) := by
  refine (List.mergeSort_perm _ _).trans (.of_eq ?_)
  rw [Table.leafPaths_eq]
  refine List.map_congr_left fun path listed => ?_
  obtain ⟨value, leaf⟩ := (Table.mem_leaves_iff sound).mp listed
  exact foldl_joined_of_leafAt titled leaf

theorem mem_keys_iff (sound : properties.table.WellFormed) (titled : Titled properties.table) :
    key ∈ properties.keys ↔ ∃ path value, properties.table.LeafAt path value ∧ dotted path = key := by
  rw [(keys_perm sound titled).mem_iff, List.mem_map]
  constructor
  · rintro ⟨path, listed, spelled⟩
    obtain ⟨value, leaf⟩ := (Table.mem_leaves_iff sound).mp listed
    exact ⟨path, value, leaf, spelled⟩
  · rintro ⟨path, value, leaf, spelled⟩
    exact ⟨path, (Table.mem_leaves_iff sound).mpr ⟨value, leaf⟩, spelled⟩

/-- A key of plain names: none of the names on the way to a value that it is the text for holds a
point. -/
def PlainKey (table : Table) (key : String) : Prop :=
  ∀ path value, table.LeafAt path value → dotted path = key → ∀ name ∈ path, Plain name

theorem eq_names_of_plainKey (plain : PlainKey properties.table key)
    (leaf : properties.table.LeafAt path value) (spelled : dotted path = key) : path = names key := by
  have some_name : path ≠ [] := by
    rintro rfl
    cases leaf.1
  rw [← spelled, names_dotted some_name (plain path value leaf spelled)]

theorem count_keys_le_one (sound : properties.table.WellFormed) (titled : Titled properties.table)
    (plain : PlainKey properties.table key) : properties.keys.count key ≤ 1 := by
  rw [(keys_perm sound titled).count_eq, List.count_eq_countP, List.countP_map, List.countP_eq_length_filter]
  have alone : (Table.leaves properties.table).filter ((fun other => other == key) ∘ dotted) ⊆
      [names key] := by
    intro path chosen
    obtain ⟨listed, spelled⟩ := List.mem_filter.mp chosen
    obtain ⟨value, leaf⟩ := (Table.mem_leaves_iff sound).mp listed
    exact List.mem_singleton.mpr (eq_names_of_plainKey plain leaf (by simpa using spelled))
  exact (List.subperm_of_subset ((Table.nodup_leaves sound).filter _) alone).length_le

/-- What listing keys and looking them up have to do with each other. -/
structure KeysAgree (properties : Properties) (key : String) : Prop where
  /-- A key that leads to a value other than a table is listed. -/
  listed : ∀ value, properties.get? key = some value → value.isTable = false → key ∈ properties.keys
  /-- A listed key is the text of names that lead to such a value. -/
  found : key ∈ properties.keys → ∃ path value, properties.table.LeafAt path value ∧ dotted path = key
  agree : PlainKey properties.table key →
    (key ∈ properties.keys ↔
      properties.contains key = true ∧ ∀ value, properties.get? key = some value → value.isTable = false)
  once : PlainKey properties.table key → properties.keys.count key ≤ 1

/-- For every configuration text, keys are listed that can be looked up and the other way round, up
to names that hold points. -/
theorem keys_agree {text : String} (read : Table.ofText? text = some properties.table)
    (titled : Titled properties.table) (key : String) : KeysAgree properties key := by
  have sound := Table.wellFormed_ofText? read
  have listed : ∀ value, properties.get? key = some value → value.isTable = false →
      key ∈ properties.keys := fun value found leaf =>
    (mem_keys_iff sound titled).mpr ⟨names key, value, ⟨found, leaf⟩, dotted_names key⟩
  refine ⟨listed, (mem_keys_iff sound titled).mp, fun plain => ⟨fun there => ?_, fun looked => ?_⟩,
    count_keys_le_one sound titled⟩
  · obtain ⟨path, value, leaf, spelled⟩ := (mem_keys_iff sound titled).mp there
    obtain rfl := eq_names_of_plainKey plain leaf spelled
    have found : properties.get? key = some value := leaf.1
    refine ⟨by rw [contains, found, Option.isSome_some], fun other held => ?_⟩
    obtain rfl := Option.some.inj (found.symm.trans held)
    exact leaf.2
  · obtain ⟨value, found⟩ := Option.isSome_iff_exists.mp looked.1
    exact listed value found (looked.2 value found)

theorem titled_of_isNone {table : Table} (missing : (table.get? "").isNone = true) : Titled table := by
  intro inner held
  rw [held] at missing
  cases missing

/-- A key beside a name with a point in it, within the same table. -/
theorem keys_agree_nested :
    ∃ properties : Properties, Table.ofText? "[a]\nb = 1\n\"c.d\" = true\n" = some properties.table ∧
      Titled properties.table ∧ KeysAgree properties "a.b" := by
  have missing : (Table.ofText? "[a]\nb = 1\n\"c.d\" = true\n").map
      (fun table => (table.get? "").isNone) = some true := by decide +kernel
  obtain ⟨table, read, missing⟩ := Option.map_eq_some_iff.mp missing
  exact ⟨{ table }, read, titled_of_isNone missing, keys_agree read (titled_of_isNone missing) "a.b"⟩

/-- A name with a point in it is listed as a key that leads nowhere. -/
theorem keys_of_pointed_name :
    ∃ properties : Properties, Table.ofText? "\"a.b\" = 1\n" = some properties.table ∧
      "a.b" ∈ properties.keys ∧ properties.contains "a.b" = false := by
  have looked : (Table.ofText? "\"a.b\" = 1\n").map (fun table => ((table.get? "").isNone,
      (table.follow ["a.b"]).map Value.isTable, contains { table } "a.b")) =
      some (true, some false, false) := by decide +kernel
  obtain ⟨table, read, looked⟩ := Option.map_eq_some_iff.mp looked
  obtain ⟨missing, looked⟩ := Prod.mk.inj looked
  obtain ⟨there, lost⟩ := Prod.mk.inj looked
  obtain ⟨value, found, leaf⟩ := Option.map_eq_some_iff.mp there
  refine ⟨{ table }, read, ?_, lost⟩
  exact (mem_keys_iff (Table.wellFormed_ofText? read) (titled_of_isNone missing)).mpr
    ⟨["a.b"], value, ⟨found, leaf⟩, by decide⟩

end Accessibility.Properties
