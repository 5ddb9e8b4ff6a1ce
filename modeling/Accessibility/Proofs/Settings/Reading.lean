import Accessibility.Proofs.Outcome
import Accessibility.Settings.Basic

/-! What properties are read to. A property is read to a value exactly if its key leads to one of the
right kind; a default stands where the key leads nowhere, and only there (`Given`). Whatever cannot
be read is a fault of the configuration (`Blames`). -/
namespace Accessibility

variable {α β : Type}

/-! ## Faults -/

/-- An outcome that is a value or a fault of the configuration. -/
structure Blames (outcome : Outcome α) : Prop where
  blamed : ∀ fault, outcome = .error fault → fault.isConfiguration = true

namespace Blames

variable {outcome : Outcome α} {fault : Fault}

theorem ok (value : α) : Blames (.ok value) := ⟨nofun⟩

theorem error (blamed : fault.isConfiguration = true) : Blames (.error fault : Outcome α) := by
  refine ⟨?_⟩
  rintro _ ⟨⟩
  exact blamed

theorem bind {next : α → Outcome β} (first : Blames outcome) (onward : ∀ value, Blames (next value)) :
    Blames (outcome >>= next) := by
  refine ⟨fun fault failed => ?_⟩
  rcases bind_eq_error_iff.mp failed with failed | ⟨value, -, failed⟩
  · exact first.blamed fault failed
  · exact (onward value).blamed fault failed

/-- A check may fail with a fault of the configuration. -/
theorem guarded {refused : Prop} [Decidable refused] {behind : PUnit → Outcome α}
    (blamed : fault.isConfiguration = true) (rest : Blames outcome) :
    Blames (if refused then throw fault >>= behind else outcome) := by
  split
  · exact .error blamed
  · exact rest

theorem mapM {f : α → Outcome β} (each : ∀ x, Blames (f x)) (xs : List α) : Blames (xs.mapM f) := by
  refine ⟨fun fault failed => ?_⟩
  obtain ⟨_, x, _, -, -, failed⟩ := mapM_eq_error_iff.mp failed
  exact (each x).blamed fault failed

end Blames

namespace Properties

variable {properties : Properties} {kind : PropertyKind} {convert : Toml.Value → Option α}
  {key : String} {reading : String → Outcome α} {result default : α}

theorem blames_require : Blames (properties.require key) := by
  unfold require
  split
  · exact .ok _
  · refine .error ?_
    unfold Refusal.fault
    dsimp only
    split <;> rfl

theorem blames_read : Blames (properties.read kind convert key) := by
  refine blames_require.bind fun value => ?_
  split
  · exact .ok _
  · exact .error rfl

theorem blames_readArray : Blames (properties.readArray kind convert key) := by
  refine blames_read.bind fun items => .mapM (fun item => ?_) items
  split
  · exact .ok _
  · exact .error rfl

theorem blames_orDefault (reads : Blames (reading key)) :
    Blames (properties.orDefault reading key default) := by
  unfold orDefault
  split
  · exact reads
  · exact .ok _

theorem blames_ifPresent (reads : Blames (reading key)) :
    Blames (properties.ifPresent reading key) := by
  unfold ifPresent
  split
  · cases outcome : reading key with
    | ok value => exact .ok _
    | error fault => exact .error (reads.blamed fault outcome)
  · exact .ok _

theorem blames_path : Blames (properties.path key) := by
  refine blames_read.bind fun text => ?_
  split <;> exact .ok _

/-! ## Values -/

theorem require_eq_ok_iff {value : Toml.Value} :
    properties.require key = .ok value ↔ properties.get? key = some value := by
  unfold require
  split
  next found => simp [found]
  next missing => simp [missing]

theorem read_eq_ok_iff :
    properties.read kind convert key = .ok result ↔
      ∃ value, properties.get? key = some value ∧ convert value = some result := by
  simp only [read, bind_eq_ok_iff, require_eq_ok_iff]
  refine exists_congr fun value => and_congr_right fun _ => ?_
  split
  next converted => simp [converted, pure, Except.pure]
  next refused => simp [refused, throw, throwThe, MonadExceptOf.throw]

theorem array?_eq_some_iff {value : Toml.Value} {items : List Toml.Value} :
    value.array? = some items ↔ value = .array items := by
  cases value <;> simp [Toml.Value.array?]

theorem readArray_eq_ok_iff {results : List α} :
    properties.readArray kind convert key = .ok results ↔
      ∃ items, properties.get? key = some (.array items) ∧ items.map convert = results.map some := by
  simp only [readArray, bind_eq_ok_iff, read_eq_ok_iff, array?_eq_some_iff, exists_eq_right]
  refine exists_congr fun items => and_congr_right fun _ => mapM_eq_ok_iff_map fun item result => ?_
  split
  next converted => simp [converted]
  next refused => simp [refused]

theorem integer?_eq_some_iff {value : Toml.Value} {number : Int} :
    value.integer? = some number ↔ value = .integer number := by
  cases value <;> simp [Toml.Value.integer?]

theorem boolean?_eq_some_iff {value : Toml.Value} {truth : Bool} :
    value.boolean? = some truth ↔ value = .boolean truth := by
  cases value <;> simp [Toml.Value.boolean?]

theorem string?_eq_some_iff {value : Toml.Value} {text : String} :
    value.string? = some text ↔ value = .string text := by
  cases value <;> simp [Toml.Value.string?]

theorem string_eq_ok_iff {text : String} :
    properties.string key = .ok text ↔ properties.get? key = some (.string text) := by
  simp only [string, read_eq_ok_iff, string?_eq_some_iff, exists_eq_right]

/-- Items of one kind are those that stand for the results. -/
theorem map_eq_some_iff_eq_map {f : β → Option α} {g : α → β}
    (only : ∀ item result, f item = some result ↔ item = g result) {items : List β} {results : List α} :
    items.map f = results.map some ↔ items = results.map g := by
  induction items generalizing results with
  | nil => cases results <;> simp
  | cons item items ih => cases results <;> simp [only, ih]

theorem strings_eq_ok_iff {texts : List String} :
    properties.strings key = .ok texts ↔ properties.get? key = some (.array (texts.map .string)) := by
  simp only [strings, readArray_eq_ok_iff, map_eq_some_iff_eq_map fun _ _ => string?_eq_some_iff,
    exists_eq_right]

/-- Where a path of the properties leads. -/
def located (properties : Properties) (text : String) : Path :=
  match properties.directory with
  | some directory => directory.join ⟨text⟩
  | none => ⟨text⟩

theorem path_eq_ok_iff {path : Path} :
    properties.path key = .ok path ↔
      ∃ text, properties.get? key = some (.string text) ∧ path = properties.located text := by
  simp only [Properties.path, bind_eq_ok_iff, string_eq_ok_iff]
  refine exists_congr fun text => and_congr_right fun _ => ?_
  cases directory : properties.directory <;> simp [located, directory, pure, Except.pure, eq_comm]

/-! ## Defaults -/

/-- A property reads as the first condition says where its key leads to a value, and stands at its
default, as the second one says, where it leads nowhere. -/
structure Given (properties : Properties) (key : String) (reads : Toml.Value → Prop)
    (stands : Prop) : Prop where
  present : ∀ value, properties.get? key = some value → reads value
  missing : properties.get? key = none → stands

section Given
variable {reads : Toml.Value → Prop} {stands stands' : Prop} {value : Toml.Value}

theorem given_iff_of_some (found : properties.get? key = some value) :
    properties.Given key reads stands ↔ reads value := by
  constructor
  · exact fun given => given.present value found
  · intro read
    refine ⟨fun other there => ?_, fun missing => ?_⟩
    · exact Option.some.inj (found.symm.trans there) ▸ read
    · cases found.symm.trans missing

theorem given_iff_of_none (missing : properties.get? key = none) :
    properties.Given key reads stands ↔ stands := by
  constructor
  · exact fun given => given.missing missing
  · refine fun standing => ⟨fun value found => ?_, fun _ => standing⟩
    cases missing.symm.trans found

/-- The default may be said in another way. -/
theorem given_congr (same : stands ↔ stands') :
    properties.Given key reads stands ↔ properties.Given key reads stands' :=
  ⟨fun given => ⟨given.present, fun missing => same.mp (given.missing missing)⟩,
    fun given => ⟨given.present, fun missing => same.mpr (given.missing missing)⟩⟩

end Given

theorem orDefault_read_eq_ok_iff :
    properties.orDefault (properties.read kind convert) key default = .ok result ↔
      properties.Given key (convert · = some result) (result = default) := by
  unfold orDefault contains
  cases found : properties.get? key with
  | none => simp [given_iff_of_none found, eq_comm]
  | some value => simp [read_eq_ok_iff, found, given_iff_of_some found]

/-- A property that may be missing stands at none where it is. -/
theorem ifPresent_eq_ok_iff (reads : α → Toml.Value → Prop) {result? : Option α}
    (accepts : ∀ result, reading key = .ok result ↔
      ∃ value, properties.get? key = some value ∧ reads result value) :
    properties.ifPresent reading key = .ok result? ↔
      properties.Given key (fun value => ∃ result, result? = some result ∧ reads result value)
        (result? = none) := by
  unfold ifPresent contains
  cases found : properties.get? key with
  | none => simp [given_iff_of_none found, eq_comm]
  | some value =>
    rw [given_iff_of_some found]
    have read : ∀ result, reading key = .ok result ↔ reads result value := by simp [accepts, found]
    cases outcome : reading key with
    | ok result =>
      have only : ∀ other, reads other value ↔ result = other := by simp [← read, outcome]
      simp [Except.map, only, eq_comm]
    | error fault =>
      have none_read : ∀ result, ¬ reads result value := by simp [← read, outcome]
      simp [Except.map, none_read]

end Properties

end Accessibility
