import Accessibility.Proofs.Outcome
import Accessibility.Proofs.Table.Merge

/-! Where the cells of a merged table come from, whatever results there are: each is a zero
or a value of some result (`mem_of_merge`). Results that make no table are a fault of the
distribution or of a lookup, never one of the configuration (`configured_merge`). -/
namespace Accessibility.AccessibilityTable

variable {table again : AccessibilityTable} {result : PacketResult} {value : Single}

/-! ## Steps -/

section Steps

variable {zones : Array UInt32} {alternatives offset : Nat} {next : UInt64} {zone : UInt32}

/-- Rows that are placed begin with one that the table takes, of its width. -/
theorem placeRows_cons_eq_ok {rest : List UInt32}
    (placed : placeRows result offset (zone :: rest) table = .ok again) :
    ∃ row written, result.row offset = .ok row ∧ table.setRow? zone row = some written ∧
      row.size = written.width ∧ placeRows result (offset + 1) rest written = .ok again := by
  unfold placeRows at placed
  obtain ⟨row, cut, placed⟩ := bind_eq_ok placed
  split at placed
  next => cases placed
  next written taken =>
    split at placed
    next wide => exact ⟨row, written, cut, taken, wide, placed⟩
    next => cases placed

theorem placeResults_nil_eq_ok (placed : placeResults zones alternatives next [] table = .ok again) :
    next.toNat = zones.size ∧ table = again := by
  unfold placeResults at placed
  split at placed
  next reached => exact ⟨reached, Except.ok.inj placed⟩
  next => cases placed

/-- Results that are placed begin with one that passes and whose rows are placed. -/
theorem placeResults_cons_eq_ok {rest : List PacketResult}
    (placed : placeResults zones alternatives next (result :: rest) table = .ok again) :
    checkResult zones alternatives next result = .ok () ∧
      ∃ middle, placeRows result 0 (zones.extract result.first.toNat (result.last.toNat + 1)).toList table =
          .ok middle ∧
        placeResults zones alternatives (result.last + 1) rest middle = .ok again := by
  unfold placeResults at placed
  obtain ⟨_, passes, placed⟩ := bind_eq_ok placed
  exact ⟨passes, bind_eq_ok placed⟩

end Steps

theorem placeRows_induction {holds : AccessibilityTable → Prop}
    (step : ∀ before after zone offset row, result.row offset = .ok row →
      before.setRow? zone row = some after → holds before → holds after)
    {zones : List UInt32} {offset : Nat} (start : holds table)
    (placed : placeRows result offset zones table = .ok again) : holds again := by
  induction zones generalizing offset table with
  | nil =>
    cases placed
    exact start
  | cons zone rest ih =>
    obtain ⟨row, written, cut, taken, _, placed⟩ := placeRows_cons_eq_ok placed
    exact ih (step table written zone offset row cut taken start) placed

/-- What holds of a table of zeros and is kept by writing a row of any of the results holds of the
merged table. -/
theorem merge_induction {holds : AccessibilityTable → Prop} {maxZone : UInt32} {alternatives : Nat}
    {zones : Array UInt32} {results : List PacketResult} (start : holds (zeros maxZone alternatives))
    (step : ∀ result ∈ results, ∀ before after zone offset row, result.row offset = .ok row →
      before.setRow? zone row = some after → holds before → holds after)
    (merged : merge maxZone alternatives zones results = .ok table) : holds table := by
  have onward {some : List PacketResult} (listed : ∀ result ∈ some, result ∈ results) {next : UInt64}
      {before after : AccessibilityTable} (start : holds before)
      (placed : placeResults zones alternatives next some before = .ok after) : holds after := by
    induction some generalizing next before with
    | nil =>
      obtain ⟨_, rfl⟩ := placeResults_nil_eq_ok placed
      exact start
    | cons result rest ih =>
      obtain ⟨here, behind⟩ := List.forall_mem_cons.mp listed
      obtain ⟨_, middle, rows, placed⟩ := placeResults_cons_eq_ok placed
      exact ih behind (placeRows_induction (step result here) start rows) placed
  exact onward (fun result member => List.mem_mergeSort.mp member) start merged

/-! ## Cells -/

theorem mem_of_mem_overwrite {cells : Array Single} {start : Nat} {row : List Single}
    (held : value ∈ overwrite cells start row) : value ∈ cells ∨ value ∈ row := by
  induction row generalizing cells start with
  | nil => exact .inl held
  | cons first rest ih =>
    obtain old | new := ih held
    · obtain kept | rfl := Array.mem_or_eq_of_mem_setIfInBounds old
      · exact .inl kept
      · exact .inr (.head _)
    · exact .inr (.tail _ new)

theorem mem_of_setRow? {zone : UInt32} {row : Array Single} (written : table.setRow? zone row = some again)
    (held : value ∈ again.values) : value ∈ table.values ∨ value ∈ row := by
  unfold setRow? at written
  split at written
  · cases written
  · cases written
    obtain old | new := mem_of_mem_overwrite held
    · exact .inl old
    · exact .inr (Array.mem_toList_iff.mp (List.mem_of_mem_take new))

theorem mem_of_row {row : Array Single} {offset : Nat} (cut : result.row offset = .ok row)
    (held : value ∈ row) : value ∈ result.values := by
  unfold PacketResult.row at cut
  simp only at cut
  split at cut
  · cases cut
    obtain ⟨position, _, rfl⟩ := Array.mem_extract_iff_getElem.mp held
    exact Array.getElem_mem _
  · cases cut

/-- Every cell of a merged table is a zero or a value of one of the results. -/
theorem mem_of_merge {maxZone : UInt32} {alternatives : Nat} {zones : Array UInt32}
    {results : List PacketResult} (merged : merge maxZone alternatives zones results = .ok table)
    (held : value ∈ table.values) : value = .zero ∨ ∃ result ∈ results, value ∈ result.values := by
  refine @merge_induction table
    (fun made => ∀ cell ∈ made.values, cell = .zero ∨ ∃ result ∈ results, cell ∈ result.values)
    maxZone alternatives zones results ?_ ?_ merged value held
  · exact fun cell blank => .inl (Array.eq_of_mem_replicate blank)
  · intro result member before after zone offset row cut written known cell held
    obtain old | new := mem_of_setRow? written held
    · exact known cell old
    · exact .inr ⟨result, member, mem_of_row cut new⟩

/-! ## Widths -/

theorem width_of_setRow? {zone : UInt32} {row : Array Single}
    (written : table.setRow? zone row = some again) : again.width = table.width := by
  unfold setRow? at written
  split at written
  · cases written
  · cases written
    rfl

theorem maxZone_of_setRow? {zone : UInt32} {row : Array Single}
    (written : table.setRow? zone row = some again) : again.maxZone = table.maxZone := by
  unfold setRow? at written
  split at written
  · cases written
  · cases written
    rfl

/-- A merged table has the alternatives it was asked for. -/
theorem width_of_merge {maxZone : UInt32} {alternatives : Nat} {zones : Array UInt32}
    {results : List PacketResult} (merged : merge maxZone alternatives zones results = .ok table) :
    table.width = alternatives :=
  merge_induction (width_zeros maxZone alternatives)
    (fun _ _ _ _ _ _ _ _ written wide => (width_of_setRow? written).trans wide) merged

/-- A merged table has a row for each id up to the one it was asked for. -/
theorem maxZone_of_merge {maxZone : UInt32} {alternatives : Nat} {zones : Array UInt32}
    {results : List PacketResult} (merged : merge maxZone alternatives zones results = .ok table) :
    table.maxZone = maxZone :=
  merge_induction (by rfl)
    (fun _ _ _ _ _ _ _ _ written same => (maxZone_of_setRow? written).trans same) merged

/-! ## Faults -/

theorem configured_placeRows (zones : List UInt32) (offset : Nat) (table : AccessibilityTable) :
    Configured (placeRows result offset zones table) := by
  induction zones generalizing offset table with
  | nil => exact .ok table
  | cons zone rest ih =>
    unfold placeRows
    refine .bind ?_ fun row _ => ?_
    · unfold PacketResult.row
      dsimp only
      split
      · exact .ok _
      · exact .error rfl
    · split
      · exact .error rfl
      · split
        · exact ih _ _
        · exact .error rfl

theorem configured_placeResults (zones : Array UInt32) (alternatives : Nat) (next : UInt64)
    (results : List PacketResult) (table : AccessibilityTable) :
    Configured (placeResults zones alternatives next results table) := by
  induction results generalizing next table with
  | nil =>
    unfold placeResults
    split
    · exact .ok table
    · exact .error rfl
  | cons result rest ih =>
    unfold placeResults
    refine .bind ?_ fun _ _ => .bind (configured_placeRows _ _ _) fun _ _ => ih _ _
    unfold checkResult
    refine .guarded rfl (.bind (Word.configured_span _ _) fun rows _ => .guarded rfl ?_)
    refine .bind (Word.configured_holding _) fun values _ => ?_
    split
    · exact .error rfl
    · exact .ok ()

/-- Results that make no table are no fault of the configuration. -/
theorem configured_merge (maxZone : UInt32) (alternatives : Nat) (zones : Array UInt32)
    (results : List PacketResult) : Configured (merge maxZone alternatives zones results) :=
  configured_placeResults zones alternatives 0 _ _

end Accessibility.AccessibilityTable
