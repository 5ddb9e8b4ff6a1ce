import Mathlib.Data.List.Forall2
import Accessibility.Proofs.Number.Text
import Accessibility.Proofs.Number.Word
import Accessibility.Proofs.Table.Merge
import Accessibility.Proofs.Text.Delimited
import Accessibility.Table.Text

/-! Reading the text of a table gives the table again: its labels, its size and, cell by
cell, its numbers. A record of the text is read back for the id it stands for
(`readRow_record`), records in sequence continue the table (`readRows_records`), and the
rows of a table are its cells in order (`flatMap_cells`). The reader counts the records
in as many bits as an id has, so it stops behind the last row of the one table that has
a row for every such id (`parse_bytes`). -/
namespace Accessibility.AccessibilityTable

open Delimited (mark)

/-! ## Tables as they are made -/

/-- The tables that come from zeros by labelling them and by writing rows. -/
inductive Made : AccessibilityTable → Prop where
  | zeros (maxZone : UInt32) (alternatives : Nat) : Made (zeros maxZone alternatives)
  | withLabels {table again : AccessibilityTable} (label : String) (alternatives : List String)
      (made : Made table) (labelled : table.withLabels label alternatives = .ok again) : Made again
  | setRow {table again : AccessibilityTable} (zone : UInt32) (row : Array Single)
      (made : Made table) (written : table.setRow? zone row = some again) : Made again

variable {table : AccessibilityTable}

/-- Labelling a table and writing its rows leave as many cells as there were. -/
theorem Made.shaped (made : Made table) : table.Shaped := by
  induction made with
  | zeros maxZone alternatives => exact shaped_zeros maxZone alternatives
  | withLabels label alternatives made labelled shaped =>
    unfold AccessibilityTable.withLabels at labelled
    split at labelled
    next wide =>
      cases labelled
      unfold Shaped width at *
      rw [wide]
      exact shaped
    next => cases labelled
  | setRow zone row made written shaped =>
    unfold setRow? at written
    split at written
    · cases written
    · cases written
      exact (size_overwrite ..).trans shaped

/-! ## Records -/

/-- The numbers of an id's row. -/
def cells (table : AccessibilityTable) (zone : Nat) : List Single :=
  ((table.row? zone.toUInt32).getD #[]).toList

/-- The digits of a number that fits are read as that number. -/
private theorem wholeBelow?_digits {limit n : Nat} {s : String} (text : s.toList = Nat.toDigits 10 n)
    (fits : n < limit) : wholeBelow? limit s = some n := by
  have digits : ∀ c ∈ Nat.toDigits 10 n, c.isDigit = true := fun c mem =>
    Nat.isDigit_of_mem_toDigits (by decide) (by decide) mem
  have value : Numeral.ofDigits (Nat.toDigits 10 n) = n := Nat.ofDigitChars_ten_toDigits
  obtain ⟨c, rest, first⟩ := List.exists_cons_of_ne_nil (Nat.toDigits_ne_nil (n := n) (b := 10))
  rw [first] at text digits value
  have all : (c :: rest).all Char.isDigit = true := List.all_eq_true.mpr digits
  unfold wholeBelow?
  rw [text]
  dsimp only
  split
  next same =>
    obtain rfl := (List.cons.inj same).1
    exact absurd (digits '+' (.head _)) (by decide)
  next => simp [all, value, fits, -List.all_cons]

theorem wholeOfText?_toString (zone : UInt32) : wholeOfText? (toString zone) = some zone := by
  have text : (toString zone).toList = Nat.toDigits 10 zone.toNat := by
    show (Nat.repr zone.toNat).toList = _
    simp [Nat.repr]
  rw [wholeOfText?, wholeBelow?_digits text zone.toNat_lt_size]
  simp

/-- The numbers of a record's fields are read back. -/
theorem mapM_text (row : List Single) (refusal : String → TextRefusal) :
    ∃ read : List Single, (row.map Single.text).mapM (fun field =>
        match Single.ofText? field with
        | some value => Except.ok value
        | none => .error (refusal field)) = .ok read ∧ List.Forall₂ Single.alike read row := by
  induction row with
  | nil => exact ⟨[], rfl, .nil⟩
  | cons value row ih =>
    obtain ⟨again, read, alike⟩ := Single.ofText?_text value
    obtain ⟨more, readMore, alikeMore⟩ := ih
    refine ⟨again :: more, ?_, .cons alike alikeMore⟩
    rw [List.map_cons, List.mapM_cons, read, readMore]
    rfl

/-- A record is read back for the id it stands for. -/
theorem readRow_record (zone : UInt32) (row : List Single) :
    ∃ read, readRow zone (toString zone :: row.map Single.text) = .ok read ∧
      List.Forall₂ Single.alike read row := by
  obtain ⟨read, fields, alike⟩ := mapM_text row (.notNumber zone)
  refine ⟨read, ?_, alike⟩
  simp only [readRow, List.head?_cons, Option.bind_some, wholeOfText?_toString, ne_eq, not_true_eq_false,
    ↓reduceIte, List.drop_succ_cons, List.drop_zero]
  exact fields

/-- Records in sequence continue the cells read so far, up to the last for which there is an id. -/
theorem readRows_records (rows : Nat → List Single) (count : Nat) {start : Nat} (inside : start < UInt32.size)
    (values : Array Single) :
    ∃ read : List Single, readRows start.toUInt32 values ((List.range' start count).map fun zone =>
        .ok (toString zone.toUInt32 :: (rows zone).map Single.text)) =
          (if start + count < UInt32.size then .ok ((start + count).toUInt32, values ++ read)
            else .error (.overrun .outOfBounds)) ∧
      List.Forall₂ Single.alike read ((List.range' start count).flatMap rows) := by
  induction count generalizing start values with
  | zero => exact ⟨[], by simp [readRows, inside], .nil⟩
  | succ count ih =>
    obtain ⟨row, readRow, alike⟩ := readRow_record start.toUInt32 (rows start)
    have opened (rest : List (Except Delimited.Refusal (List String))) :
        readRows start.toUInt32 values (.ok (toString start.toUInt32 :: (rows start).map Single.text) :: rest) =
          (Word.next start.toUInt32).mapError .overrun >>= fun following =>
            readRows following (values ++ row) rest := by
      rw [readRows, readRow]
      rfl
    rw [List.range'_succ, List.map_cons, List.flatMap_cons, opened, Word.next_toUInt32 inside]
    by_cases behind : start + 1 < UInt32.size
    · obtain ⟨more, readMore, alikeMore⟩ := ih behind (values ++ row)
      refine ⟨row ++ more, ?_, List.rel_append alike alikeMore⟩
      have joined : values ++ row ++ more = values ++ (row ++ more) := Array.toList_inj.mp (by simp)
      rw [if_pos behind, ← joined, ← Nat.add_assoc, Nat.add_right_comm]
      exact readMore
    · refine ⟨row ++ (List.range' (start + 1) count).flatMap rows, ?_,
        List.rel_append alike (List.forall₂_same.mpr fun _ _ => .inl rfl)⟩
      rw [if_neg behind, if_neg (by omega)]
      rfl

/-! ## Whole tables -/

theorem cells_eq {zone : Nat} (inside : zone ≤ table.maxZone.toNat) :
    table.cells zone = (table.values.toList.drop (zone * table.width)).take table.width := by
  have small := table.maxZone.toNat_lt
  have here : zone.toUInt32.toNat = zone := by simp; omega
  have notBeyond : ¬ table.maxZone < zone.toUInt32 := by
    rw [UInt32.lt_iff_toNat_lt, here]
    omega
  simp [cells, row?, notBeyond, here, Array.toList_extract]

theorem length_cells (shaped : table.Shaped) {zone : Nat} (inside : zone ≤ table.maxZone.toNat) :
    (table.cells zone).length = table.width := by
  have fits : (zone + 1) * table.width ≤ (table.maxZone.toNat + 1) * table.width :=
    Nat.mul_le_mul_right _ (Nat.succ_le_succ inside)
  rw [← shaped, Nat.succ_mul] at fits
  rw [cells_eq inside, List.length_take, List.length_drop, Array.length_toList]
  omega

/-- The rows of a table, one after the other, are its cells. -/
theorem flatMap_cells (shaped : table.Shaped) :
    (List.range (table.maxZone.toNat + 1)).flatMap table.cells = table.values.toList := by
  have row : ∀ zone ∈ List.range (table.maxZone.toNat + 1),
      table.cells zone = (table.values.toList.drop (zone * table.width)).take table.width :=
    fun zone mem => cells_eq (Nat.lt_succ_iff.mp (List.mem_range.mp mem))
  have first (count : Nat) : (List.range count).flatMap (fun zone =>
      (table.values.toList.drop (zone * table.width)).take table.width) =
        table.values.toList.take (count * table.width) := by
    induction count with
    | zero => simp
    | succ count ih =>
      rw [List.range_succ, List.flatMap_append, ih, Nat.succ_mul, List.take_add]
      simp
  rw [List.flatMap_congr row, first, ← shaped]
  simp

/-- Two tables with the same labels and size and, cell by cell, the same number. -/
structure Alike (again table : AccessibilityTable) : Prop where
  indexLabel : again.indexLabel = table.indexLabel
  names : again.names = table.names
  maxZone : again.maxZone = table.maxZone
  values : List.Forall₂ Single.alike again.values.toList table.values.toList

/-- The header of a table's text, and what its rows are read as. -/
theorem readRows_bytes (shaped : table.Shaped) (unmarked : table.indexLabel.toList.head? ≠ some mark) :
    Delimited.header table.bytes = .ok (table.indexLabel :: table.names) ∧
      ∃ values, List.Forall₂ Single.alike values table.values.toList ∧
        readRows 0 #[] (Delimited.rows table.bytes) =
          if table.maxZone = 0xFFFFFFFF then .error (.overrun .outOfBounds)
          else .ok (table.maxZone + 1, values.toArray) := by
  have records : table.ids.map table.record = (List.range (table.maxZone.toNat + 1)).map fun zone =>
      toString zone.toUInt32 :: (table.cells zone).map Single.text := by
    simp [ids, record, cells, Function.comp_def]
  obtain ⟨header, rows⟩ := Delimited.read_write table.indexLabel table.names
    (table.ids.map table.record) unmarked (by
      intro fields mem
      rw [records] at mem
      obtain ⟨zone, inside, rfl⟩ := List.mem_map.mp mem
      have := length_cells shaped (Nat.lt_succ_iff.mp (List.mem_range.mp inside))
      simp [this, width])
  obtain ⟨values, read, alike⟩ := @readRows_records table.cells (table.maxZone.toNat + 1) 0 (by decide) #[]
  rw [← List.range_eq_range', flatMap_cells shaped] at alike
  rw [← List.range_eq_range'] at read
  have counted : (0 + (table.maxZone.toNat + 1)).toUInt32 = table.maxZone + 1 := by
    apply UInt32.toNat_inj.mp
    simp
  have last : table.maxZone.toNat + 1 < UInt32.size ↔ table.maxZone ≠ 0xFFFFFFFF := by
    have bound := table.maxZone.toNat_lt
    rw [ne_eq, ← UInt32.toNat_inj, show UInt32.size = 2 ^ 32 from rfl]
    show _ ↔ ¬ table.maxZone.toNat = 4294967295
    omega
  refine ⟨header, values, alike, ?_⟩
  rw [bytes, rows, records, List.map_map, ← counted]
  simpa [Function.comp_def, last] using read

/-- What the text of a table is parsed to. Only a table with a row for every id there can be
is not read back: there is no word for the count of its rows. -/
theorem parse_bytes (shaped : table.Shaped) (unmarked : table.indexLabel.toList.head? ≠ some mark) :
    ∃ again : AccessibilityTable, again.Alike table ∧
      parse table.bytes =
        if table.maxZone = 0xFFFFFFFF then .error (.overrun .outOfBounds) else .ok again := by
  obtain ⟨header, values, alike, rows⟩ := readRows_bytes shaped unmarked
  refine ⟨{ table with values := values.toArray }, ⟨rfl, rfl, rfl, alike⟩, ?_⟩
  have size : values.length = (table.maxZone.toNat + 1) * table.names.length := by
    rw [alike.length_eq, Array.length_toList, shaped, width]
  unfold parse
  rw [header]
  dsimp only
  rw [rows]
  split
  next full => rfl
  next incomplete =>
    have below : table.maxZone.toNat ≠ 0xFFFFFFFF := fun same => incomplete (UInt32.toNat_inj.mp same)
    have count : (table.maxZone + 1).toNat = table.maxZone.toNat + 1 := by
      have := table.maxZone.toNat_lt
      rw [UInt32.toNat_add, show (1 : UInt32).toNat = 1 from rfl]
      omega
    have some_row : table.maxZone + 1 ≠ 0 := fun none => by
      rw [none] at count
      exact absurd count (Nat.succ_ne_zero _).symm
    have fits : ¬ values.toArray.size ≠ (table.maxZone + 1).toNat * table.names.length := by
      rw [count, ← size]
      simp
    have last : table.maxZone + 1 - 1 = table.maxZone := by simp
    simp only [Except.bind, bind, some_row, fits, ↓reduceIte, last]
    rfl

/-- Tables that are alike are the same where no cell is a NaN. -/
theorem Alike.eq {again : AccessibilityTable} (alike : again.Alike table)
    (numbers : ∀ value ∈ table.values, value.isNaN = false) : again = table := by
  have cells {left right : List Single} (same : List.Forall₂ Single.alike left right)
      (numbers : ∀ value ∈ right, value.isNaN = false) : left = right := by
    induction same with
    | nil => rfl
    | cons first _ ih =>
      obtain ⟨number, others⟩ := List.forall_mem_cons.mp numbers
      obtain rfl | ⟨_, blank⟩ := first
      · rw [ih others]
      · cases number.symm.trans blank
  have values := cells alike.values fun value member => numbers value (Array.mem_toList_iff.mp member)
  obtain ⟨label, names, maxZone, _⟩ := alike
  cases again
  cases table
  simp_all

/-- A table without NaNs is read back as it is. -/
theorem read_bytes_of_numbers (shaped : table.Shaped)
    (unmarked : table.indexLabel.toList.head? ≠ some mark) (incomplete : table.maxZone ≠ 0xFFFFFFFF)
    (numbers : ∀ value ∈ table.values, value.isNaN = false) : read table.bytes = .ok table := by
  obtain ⟨again, alike, parsed⟩ := parse_bytes shaped unmarked
  rw [read, parsed, if_neg incomplete, alike.eq numbers]

/-- A table with a row for every id there can be is not read back. -/
theorem not_read_of_full (shaped : table.Shaped) (unmarked : table.indexLabel.toList.head? ≠ some mark)
    (full : table.maxZone = 0xFFFFFFFF) : ¬ ∃ again, read table.bytes = .ok again ∧ again.Alike table := by
  rintro ⟨other, read, _⟩
  obtain ⟨again, _, parsed⟩ := parse_bytes shaped unmarked
  rw [AccessibilityTable.read, parsed, if_pos full] at read
  cases read

/-- A table as it is made is read back from its text, cell by cell and under its labels,
exactly if some id has no row. -/
theorem read_bytes_iff (made : Made table) (unmarked : table.indexLabel.toList.head? ≠ some mark) :
    (∃ again, read table.bytes = .ok again ∧ again.Alike table) ↔ table.maxZone ≠ 0xFFFFFFFF := by
  constructor
  · exact fun same full => not_read_of_full made.shaped unmarked full same
  · intro incomplete
    obtain ⟨again, alike, parsed⟩ := parse_bytes made.shaped unmarked
    refine ⟨again, ?_, alike⟩
    rw [read, parsed, if_neg incomplete]

/-- The text of a table of two rows under labels that have to be quoted. -/
theorem read_bytes_quoted :
    let table : AccessibilityTable :=
      { indexLabel := "", names := ["a,b", "say \"so\"\r\n"], maxZone := 1
        values := #[⟨0x7FC00001⟩, ⟨0x80000000⟩, ⟨0x3DCCCCCD⟩, ⟨0x7F800000⟩] }
    Made table ∧ ∃ again, read table.bytes = .ok again ∧ again.Alike table := by
  have made : Made { indexLabel := "", names := ["a,b", "say \"so\"\r\n"], maxZone := 1
                     values := #[⟨0x7FC00001⟩, ⟨0x80000000⟩, ⟨0x3DCCCCCD⟩, ⟨0x7F800000⟩] } :=
    .setRow 1 #[⟨0x3DCCCCCD⟩, ⟨0x7F800000⟩]
      (.setRow 0 #[⟨0x7FC00001⟩, ⟨0x80000000⟩]
        (.withLabels "" ["a,b", "say \"so\"\r\n"] (.zeros 1 2) rfl) rfl)
      (by decide +kernel)
  exact ⟨made, (read_bytes_iff made (by decide +kernel)).mpr (by decide)⟩

/-- The table with a row for every id there can be, and no alternatives, is not read back from
its text. -/
theorem read_bytes_full :
    ¬ ∃ again, read (zeros 0xFFFFFFFF 0).bytes = .ok again ∧ again.Alike (zeros 0xFFFFFFFF 0) :=
  not_read_of_full (shaped_zeros ..) (by simp [zeros, defaultIndexLabel, mark]) rfl

end Accessibility.AccessibilityTable
