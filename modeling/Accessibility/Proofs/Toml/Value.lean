import Mathlib.Data.List.Nodup
import Accessibility.Toml.Number
import Accessibility.Toml.Statement

/-! Values as a configuration text can hold them: whole numbers of 64 bits, and tables in which no
name occurs twice. -/
namespace Accessibility.Toml

/-- No name occurs twice. -/
def Distinct {α : Type} (entries : List (String × α)) : Prop := (entries.map Prod.fst).Nodup

/-- A value with whole numbers of 64 bits and tables of different names, at whatever depth. -/
inductive Value.WellFormed : Value → Prop where
  | string (text : String) : WellFormed (.string text)
  | integer {number : Int} (low : Number.least ≤ number) (high : number ≤ Number.greatest) :
      WellFormed (.integer number)
  | float (number : Double) : WellFormed (.float number)
  | boolean (truth : Bool) : WellFormed (.boolean truth)
  | datetime (text : String) : WellFormed (.datetime text)
  | array {items : List Value} (each : ∀ item ∈ items, WellFormed item) : WellFormed (.array items)
  | table {entries : List (String × Value)} (distinct : Distinct entries)
      (each : ∀ entry ∈ entries, WellFormed entry.2) : WellFormed (.table entries)

/-- A table of different names, with values that are well formed. -/
structure Table.WellFormed (table : Table) : Prop where
  distinct : Distinct table
  each : ∀ entry ∈ table, entry.2.WellFormed

theorem Value.wellFormed_table_iff {entries : List (String × Value)} :
    (Value.table entries).WellFormed ↔ Table.WellFormed entries := by
  constructor
  · rintro (_ | _ | _ | _ | _ | _ | ⟨distinct, each⟩)
    exact ⟨distinct, each⟩
  · rintro ⟨distinct, each⟩
    exact .table distinct each

/-! ## Moments in place of tables -/

/-- A value that is well formed wherever it has a meaning. -/
def Value.Settles (value : Value) : Prop := ∀ settled, value.resolved = some settled → settled.WellFormed

theorem Value.wellFormed_resolvedAll {items settled : List Value} (each : ∀ item ∈ items, item.Settles)
    (resolved : Value.resolvedAll items = some settled) : ∀ item ∈ settled, item.WellFormed := by
  induction items generalizing settled with
  | nil =>
    cases resolved
    nofun
  | cons item rest ih =>
    obtain ⟨first, each⟩ := List.forall_mem_cons.mp each
    obtain ⟨value, head, resolved⟩ := Option.bind_eq_some_iff.mp resolved
    obtain ⟨others, tail, ⟨⟩⟩ := Option.bind_eq_some_iff.mp resolved
    exact List.forall_mem_cons.mpr ⟨first value head, ih each tail⟩

/-- Names stay as they are. -/
theorem Table.resolved_spec {entries settled : List (String × Value)}
    (each : ∀ entry ∈ entries, entry.2.Settles) (resolved : Table.resolved entries = some settled) :
    settled.map Prod.fst = entries.map Prod.fst ∧ ∀ entry ∈ settled, entry.2.WellFormed := by
  induction entries generalizing settled with
  | nil =>
    cases resolved
    exact ⟨rfl, nofun⟩
  | cons entry rest ih =>
    obtain ⟨first, each⟩ := List.forall_mem_cons.mp each
    obtain ⟨value, head, resolved⟩ := Option.bind_eq_some_iff.mp resolved
    obtain ⟨others, tail, ⟨⟩⟩ := Option.bind_eq_some_iff.mp resolved
    obtain ⟨names, sound⟩ := ih each tail
    exact ⟨congrArg (entry.1 :: ·) names, List.forall_mem_cons.mpr ⟨first value head, sound⟩⟩

theorem Table.wellFormed_of_settles {entries settled : List (String × Value)}
    (distinct : Distinct entries) (each : ∀ entry ∈ entries, entry.2.Settles)
    (resolved : Table.resolved entries = some settled) : Table.WellFormed settled := by
  obtain ⟨names, sound⟩ := Table.resolved_spec each resolved
  refine ⟨?_, sound⟩
  rw [Distinct, names]
  exact distinct

theorem Moment.wellFormed_ofStatement {value settled : Value}
    (stated : Moment.ofStatement value = some settled) : settled.WellFormed := by
  unfold Moment.ofStatement at stated
  split at stated
  · split at stated <;> cases stated
    exact .datetime _
  · cases stated

theorem Value.WellFormed.settles {value : Value} (sound : value.WellFormed) : value.Settles := by
  induction sound with
  | string text | float number | boolean truth | datetime text =>
    rintro _ ⟨⟩
    constructor
  | integer low high =>
    rintro _ ⟨⟩
    exact .integer low high
  | array _ ih =>
    intro settled resolved
    rw [Value.resolved] at resolved
    obtain ⟨items, all, rfl⟩ := Option.map_eq_some_iff.mp resolved
    exact .array (wellFormed_resolvedAll ih all)
  | @table entries distinct each ih =>
    intro settled resolved
    cases entries with
    | nil =>
      cases resolved
      exact .table distinct each
    | cons entry rest =>
      obtain ⟨name, value⟩ := entry
      rw [Value.resolved] at resolved
      split at resolved
      · exact Moment.wellFormed_ofStatement resolved
      · obtain ⟨first, head, resolved⟩ := Option.bind_eq_some_iff.mp resolved
        obtain ⟨others, tail, ⟨⟩⟩ := Option.bind_eq_some_iff.mp resolved
        refine wellFormed_table_iff.mpr (Table.wellFormed_of_settles distinct ih ?_)
        rw [Table.resolved, head, tail]
        rfl

theorem Table.wellFormed_resolved {table settled : Table} (sound : table.WellFormed)
    (resolved : Table.resolved table = some settled) : settled.WellFormed :=
  Table.wellFormed_of_settles sound.distinct (fun entry there => (sound.each entry there).settles)
    resolved

end Accessibility.Toml
