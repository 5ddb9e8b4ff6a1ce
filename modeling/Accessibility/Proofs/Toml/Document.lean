import Accessibility.Proofs.Toml.Reader
import Accessibility.Proofs.Toml.Tree
import Accessibility.Toml.Document

/-! What every configuration text that is read holds: whole numbers of 64 bits, and tables in which
no name occurs twice (`wellFormed_ofText?`). Readers of values only take such values, each level of
arrays and tables if the level within it does, and so the entries under each header go into a table
that stays well formed. -/
namespace Accessibility.Toml

open Reader

/-! ## Values -/

namespace Number

theorem yields_fitting (number : Int) :
    Yields (fun number => least ≤ number ∧ number ≤ greatest) (fitting number) := by
  unfold fitting
  split
  next fits => exact .pure fits
  next => exact .failure

theorem yields_integer : Yields (fun number => least ≤ number ∧ number ≤ greatest) integer := by
  have based : ∀ letter base isDigit, Yields (fun number => least ≤ number ∧ number ≤ greatest)
      (basedInteger letter base isDigit) := fun letter base isDigit =>
    .after fun _ => .after fun _ => yields_fitting _
  have decimal : Yields (fun number => least ≤ number ∧ number ≤ greatest) decimalInteger :=
    .after fun _ => .after fun _ => yields_fitting _
  exact .orElse (based _ _ _) (.orElse (based _ _ _) (.orElse (based _ _ _) decimal))

end Number

namespace Element

theorem yields_scalar : Yields Value.WellFormed scalar := by
  have text : Yields Value.WellFormed (Value.string <$> QuotedText.text) :=
    .map fun _ _ _ _ => .string _
  have moment : Yields Value.WellFormed (Value.datetime <$> Moment.moment) :=
    .map fun _ _ _ _ => .datetime _
  have float : Yields Value.WellFormed (Value.float <$> Number.float) := .map fun _ _ _ _ => .float _
  have integer : Yields Value.WellFormed (Value.integer <$> Number.integer) :=
    .map fun cs number rest read =>
      have fits := Number.yields_integer cs number rest read
      .integer fits.1 fits.2
  have boolean : Yields Value.WellFormed (Value.boolean <$> boolean) := .map fun _ _ _ _ => .boolean _
  exact text.orElse (moment.orElse (float.orElse (integer.orElse boolean)))

variable {item : Reader Value}

theorem yields_array (each : Yields Value.WellFormed item) : Yields Value.WellFormed (array item) := by
  have spaced : Yields Value.WellFormed (do gap; let value ← item; gap; return value) :=
    .after fun _ => each.bind fun _ sound => .after fun _ => .pure sound
  refine .after fun _ => spaced.separated.bind fun items sound => ?_
  split
  · exact .after fun _ => .after fun _ => .pure (.array sound)
  · exact .after fun _ => .after fun _ => .after fun _ => .pure (.array sound)

theorem yields_braced (each : Yields Value.WellFormed item) :
    Yields Value.WellFormed (braced item) := by
  have entry : Yields (fun entry : List String × Value => entry.2.WellFormed)
      (do let key ← key; char '='; blanks; let value ← item; blanks; return (key, value)) :=
    .after fun _ => .after fun _ => .after fun _ => each.bind fun _ sound => .after fun _ => .pure sound
  refine .after fun _ => entry.separated.bind fun entries sound => .after fun _ => .after fun _ => ?_
  split
  next fields filled =>
    have whole := Fields.keeps_addAll sound [] fields filled Fields.wellFormed_nil
    exact .pure (Value.wellFormed_table_iff.mpr (Fields.wellFormed_finished whole))
  next => exact .failure

theorem yields_nested (depth : Nat) : Yields Value.WellFormed (nested depth) := by
  induction depth with
  | zero => exact yields_scalar
  | succ depth ih => exact yields_scalar.orElse ((yields_array ih).orElse (yields_braced ih))

end Element

/-! ## Lines and sections -/

/-- A line whose value, if it has one, is well formed. -/
def Line.WellFormed : Line → Prop
  | .entry _ value => value.WellFormed
  | _ => True

theorem Line.yields_line : Yields Line.WellFormed Line.line := by
  have empty : Yields Line.WellFormed Line.emptyLine :=
    .orElse (.after fun _ => .pure trivial) (.after fun _ => .after fun _ => .pure trivial)
  have element : Yields Line.WellFormed Line.elementLine :=
    .after fun _ => .after fun _ => .after fun _ => .after fun _ => .pure trivial
  have header : Yields Line.WellFormed Line.headerLine :=
    .after fun _ => .after fun _ => .after fun _ => .after fun _ => .pure trivial
  have entry : Yields Line.WellFormed Line.entryLine :=
    .after fun _ => .after fun _ => .after fun _ => (Element.yields_nested _).bind fun _ sound =>
      .after fun _ => .pure sound
  exact .after fun _ => empty.orElse (element.orElse (header.orElse entry))

theorem yields_lines : Yields (fun lines => ∀ line ∈ lines, line.WellFormed) lines :=
  Line.yields_line.repeated.bind fun _ sound => .after fun _ => .after fun _ => .pure sound

/-- A section of well-formed values. -/
def Section.WellFormed (part : Section) : Prop := ∀ entry ∈ part.entries, entry.2.WellFormed

theorem Section.wellFormed_cut {lines : List Line} (each : ∀ line ∈ lines, line.WellFormed) :
    (∀ entry ∈ (cut lines).1, entry.2.WellFormed) ∧ ∀ part ∈ (cut lines).2, part.WellFormed := by
  fun_induction cut lines with
  | case1 => exact ⟨nofun, nofun⟩
  | case2 rest ih => exact ih (List.forall_mem_cons.mp each).2
  | case3 key value rest entries sections split ih =>
    obtain ⟨sound, each⟩ := List.forall_mem_cons.mp each
    rw [split] at ih
    exact ⟨List.forall_mem_cons.mpr ⟨sound, (ih each).1⟩, (ih each).2⟩
  | case4 heading rest _ _ entries sections split ih =>
    rw [split] at ih
    have behind := ih (List.forall_mem_cons.mp each).2
    exact ⟨nofun, List.forall_mem_cons.mpr behind⟩

theorem Section.keeps_place {part : Section} (sound : part.WellFormed) :
    Fields.Keeps fun fields => place fields part := by
  intro fields result placed
  unfold place at placed
  split at placed
  · obtain ⟨name, -, placed⟩ := Option.bind_eq_some_iff.mp placed
    exact Fields.keeps_define _ name sound fields result placed
  · obtain ⟨name, -, placed⟩ := Option.bind_eq_some_iff.mp placed
    exact Fields.keeps_append _ name sound fields result placed
  · cases placed

theorem Table.wellFormed_ofLines {lines : List Line} {table : Table}
    (each : ∀ line ∈ lines, line.WellFormed) (made : Table.ofLines lines = some table) :
    table.WellFormed := by
  have sound := Section.wellFormed_cut each
  obtain ⟨top, filled, made⟩ := Option.bind_eq_some_iff.mp made
  obtain ⟨fields, placed, resolved⟩ := Option.bind_eq_some_iff.mp made
  have whole := Fields.keeps_addAll sound.1 [] top filled Fields.wellFormed_nil
  have whole := Fields.keeps_foldlM (fun part there => Section.keeps_place (sound.2 part there))
    top fields placed whole
  exact Table.wellFormed_resolved (Fields.wellFormed_finished whole) resolved

theorem Table.wellFormed_ofText? {text : String} {table : Table} (read : Table.ofText? text = some table) :
    table.WellFormed := by
  obtain ⟨⟨lines, rest⟩, taken, made⟩ := Option.bind_eq_some_iff.mp read
  exact Table.wellFormed_ofLines (yields_lines _ lines rest taken) made

end Accessibility.Toml
