import Accessibility.Proofs.Number.Word
import Accessibility.Proofs.Table.Merge
import Accessibility.Proofs.Text.Delimited
import Accessibility.Table.Text

/-! Which texts are tables, and which table such a text is. A record is a row if the id whose turn it
is stands in front and numbers behind it (`readRow_iff`); the numbers of all rows go into one list
(`readRows_eq_ok_iff`). As the records are as wide as the header, the width cuts the row of an id out
of the list again (`take_flatMap`). So a text is a table exactly if its records are rows in turn, and
every lookup gives the number in a field (`read_account`). The reader counts records in as many bits
as an id has, so it stops behind as many records as there are ids, and no text with more is a table. -/
namespace Accessibility.AccessibilityTable

open Delimited (Bytes text?)

variable {bytes : List UInt8} {width number start : Nat} {expected id next : UInt32}
  {record fields : List Bytes} {data : List (List Bytes)} {row : List Single} {values out : Array Single}
  {table : AccessibilityTable}

/-! ## Records -/

/-- The whole number that the bytes of a field write. -/
def wholeIn? (field : Bytes) : Option UInt32 := (text? field).bind wholeOfText?

/-- The number that the bytes of a field write. -/
def numberIn? (field : Bytes) : Option Single := (text? field).bind Single.ofText?

/-- The numbers of a record behind its id. -/
def numbersOf (record : List Bytes) : List Single := (record.drop 1).filterMap numberIn?

/-- A record of some width with an id in front and a number in every other field. -/
structure RowFor (width : Nat) (id : UInt32) (record : List Bytes) : Prop where
  wide : record.length = width
  id_eq : record.head?.bind wholeIn? = some id
  numbers : ∀ field ∈ record.drop 1, ∃ number, numberIn? field = some number

/-- Values that are all there are those that there are. -/
theorem map_eq_map_some_iff {α β : Type} {f : α → Option β} {xs : List α} {ys : List β} :
    xs.map f = ys.map some ↔ (∀ x ∈ xs, ∃ y, f x = some y) ∧ ys = xs.filterMap f := by
  induction xs generalizing ys with
  | nil => cases ys <;> simp
  | cons x xs ih =>
    constructor
    · intro same
      cases ys with
      | nil => cases same
      | cons y ys =>
        obtain ⟨own, others⟩ := List.cons.inj same
        obtain ⟨all, rfl⟩ := ih.mp others
        exact ⟨List.forall_mem_cons.mpr ⟨⟨y, own⟩, all⟩, (List.filterMap_cons_some own).symm⟩
    · rintro ⟨all, rfl⟩
      obtain ⟨⟨y, own⟩, all⟩ := List.forall_mem_cons.mp all
      rw [List.map_cons, List.filterMap_cons_some own, List.map_cons, own, ih.mpr ⟨all, rfl⟩]

theorem RowFor.map_numbersOf (row : RowFor width id record) :
    (record.drop 1).map numberIn? = (numbersOf record).map some :=
  map_eq_map_some_iff.mpr ⟨row.numbers, rfl⟩

/-- There are as many numbers as fields behind the id. -/
theorem RowFor.length_numbersOf (row : RowFor width id record) : (numbersOf record).length + 1 = width := by
  have length := congrArg List.length row.map_numbersOf
  rw [List.length_map, List.length_map, List.length_drop, row.wide] at length
  have some_field : record ≠ [] := by
    rintro rfl
    cases row.id_eq
  have := List.length_pos_iff.mpr some_field
  rw [row.wide] at this
  omega

/-- The id of a row is the number of its first text, and its cells are the numbers of the others. -/
theorem readRow_cons_eq_ok_iff {text : String} {texts : List String} :
    readRow expected (text :: texts) = .ok row ↔
      wholeOfText? text = some expected ∧ texts.map Single.ofText? = row.map some := by
  unfold readRow
  simp only [List.head?_cons, Option.bind_some, List.drop_succ_cons, List.drop_zero]
  split
  next missing => simp [missing]
  next zone found =>
    split
    next other => simp [found, other]
    next same =>
      obtain rfl := not_not.mp same
      simp only [found, true_and]
      refine mapM_eq_ok_iff_map fun field number => ?_
      split
      next value read => rw [read, Except.ok.injEq, Option.some.injEq]
      next missing => simp [missing]

/-- A record is read as a row exactly if it is one, and then as its numbers. -/
theorem readRow_iff :
    (∃ texts, Delimited.row width number record = .ok texts ∧ readRow expected texts = .ok row) ↔
      RowFor width expected record ∧ row = numbersOf record := by
  cases record with
  | nil =>
    constructor
    · rintro ⟨texts, given, done⟩
      unfold Delimited.row at given
      split at given
      · cases given
        cases done
      · cases given
    · rintro ⟨⟨-, none, -⟩, -⟩
      cases none
  | cons first rest =>
    have numbers {texts : List String} (spelled : rest.map text? = texts.map some) :
        texts.map Single.ofText? = rest.map numberIn? := by
      have read := congrArg (List.map (·.bind Single.ofText?)) spelled
      rw [List.map_map, List.map_map] at read
      exact read.symm
    unfold Delimited.row
    constructor
    · rintro ⟨texts, given, done⟩
      split at given
      next wide =>
        rw [Delimited.texts_eq_ok_iff] at given
        obtain ⟨text, texts, rfl⟩ : ∃ text more, texts = text :: more := by
          cases texts with
          | nil => cases given
          | cons text more => exact ⟨text, more, rfl⟩
        obtain ⟨own, others⟩ := List.cons.inj given
        obtain ⟨turn, read⟩ := readRow_cons_eq_ok_iff.mp done
        obtain ⟨all, numbers_eq⟩ := map_eq_map_some_iff.mp ((numbers others).symm.trans read)
        have id_eq : wholeIn? first = some expected := Option.bind_eq_some_iff.mpr ⟨text, own, turn⟩
        exact ⟨⟨wide, id_eq, all⟩, numbers_eq⟩
      next => cases given
    · rintro ⟨⟨wide, id_eq, all⟩, rfl⟩
      have id_eq : wholeIn? first = some expected := id_eq
      obtain ⟨text, own, turn⟩ := Option.bind_eq_some_iff.mp id_eq
      have spelled : ∀ field ∈ rest, ∃ text, text? field = some text := fun field member =>
        have ⟨_, found⟩ := all field member
        have ⟨text, read, _⟩ := Option.bind_eq_some_iff.mp found
        ⟨text, read⟩
      have others := map_eq_map_some_iff.mpr ⟨spelled, rfl⟩
      refine ⟨text :: rest.filterMap text?, ?_, ?_⟩
      · rw [if_pos wide, Delimited.texts_eq_ok_iff, List.map_cons, List.map_cons, own, others]
      · exact readRow_cons_eq_ok_iff.mpr ⟨turn, (numbers others).trans (map_eq_map_some_iff.mpr ⟨all, rfl⟩)⟩

theorem mapError_eq_ok_iff {ε ε' α : Type} {f : ε → ε'} {outcome : Except ε α} {value : α} :
    outcome.mapError f = .ok value ↔ outcome = .ok value := by
  cases outcome <;> simp [Except.mapError]

theorem readRows_cons_eq_ok_iff {item : Except Delimited.Refusal (List String)}
    {rest : List (Except Delimited.Refusal (List String))} {result : UInt32 × Array Single} :
    readRows expected values (item :: rest) = .ok result ↔
      ∃ row, (∃ texts, item = .ok texts ∧ readRow expected texts = .ok row) ∧
        ∃ following : UInt32, following.toNat = expected.toNat + 1 ∧
          readRows following (values ++ row) rest = .ok result := by
  cases item with
  | error cause => simp [readRows]
  | ok texts => simp [readRows, bind_eq_ok_iff, mapError_eq_ok_iff, Word.next_eq_ok_iff]

/-- Records from a number on are read as rows for the ids from that number on, if there is a word for
the count of them. -/
theorem readRows_eq_ok_iff (inside : start < UInt32.size) :
    readRows start.toUInt32 values ((data.zipIdx start).map fun pair =>
        Delimited.row width (pair.2 + 1) pair.1) = .ok (next, out) ↔
      (∀ pair ∈ data.zipIdx start, RowFor width pair.2.toUInt32 pair.1) ∧
        next.toNat = start + data.length ∧ out = values ++ data.flatMap numbersOf := by
  have word : start.toUInt32.toNat = start := UInt32.toNat_ofNat_of_lt' inside
  -- A record turns to the next id and adds its numbers, so the start and the cells so far vary.
  induction data generalizing start values with
  | nil => simp [readRows, eq_comm, ← UInt32.toNat_inj, word]
  | cons record data ih =>
    rw [List.zipIdx_cons, List.map_cons, readRows_cons_eq_ok_iff, List.forall_mem_cons]
    simp only [readRow_iff, word]
    have joined : values ++ numbersOf record ++ data.flatMap numbersOf =
        values ++ (record :: data).flatMap numbersOf := Array.toList_inj.mp (by simp)
    have counted : start + (record :: data).length = start + 1 + data.length := by
      rw [List.length_cons, Nat.add_right_comm, Nat.add_assoc]
    rw [counted, ← joined]
    have onward {following : UInt32} (behind : following.toNat = start + 1) :
        start + 1 < UInt32.size ∧ following = (start + 1).toUInt32 := by
      have bound := following.toNat_lt_size
      refine ⟨by omega, UInt32.toNat_inj.mp ?_⟩
      rw [UInt32.toNat_ofNat_of_lt' (by omega), behind]
    constructor
    · rintro ⟨_, ⟨own, rfl⟩, following, behind, read⟩
      obtain ⟨inside, rfl⟩ := onward behind
      obtain ⟨all, rest⟩ := (ih inside behind).mp read
      exact ⟨⟨own, all⟩, rest⟩
    · rintro ⟨⟨own, all⟩, last, rest⟩
      have bound := next.toNat_lt_size
      have behind : (start + 1).toUInt32.toNat = start + 1 := UInt32.toNat_ofNat_of_lt' (by omega)
      exact ⟨_, ⟨own, rfl⟩, _, behind, (ih (by omega) behind).mpr ⟨all, last, rest⟩⟩

/-- A piece of pieces that are all as long. -/
theorem take_flatMap {α β : Type} {f : α → List β} {xs : List α} {x : α} {i length : Nat}
    (long : ∀ x ∈ xs, (f x).length = length) (there : xs[i]? = some x) :
    ((xs.flatMap f).drop (i * length)).take length = f x := by
  induction xs generalizing i with
  | nil => cases there
  | cons first rest ih =>
    obtain ⟨own, others⟩ := List.forall_mem_cons.mp long
    rw [List.flatMap_cons]
    cases i with
    | zero =>
      cases there
      rw [Nat.zero_mul, List.drop_zero, ← own, List.take_left]
    | succ i =>
      rw [Nat.succ_mul, Nat.add_comm, ← List.drop_drop, ← own, List.drop_left, own]
      exact ih others there

theorem length_numbersOf (rows : ∀ pair ∈ data.zipIdx, RowFor (width + 1) pair.2.toUInt32 pair.1) :
    ∀ record ∈ data, (numbersOf record).length = width := by
  intro record member
  obtain ⟨i, there⟩ := List.mem_iff_getElem?.mp member
  exact Nat.succ.inj (rows (record, i) (List.mem_zipIdx_iff_getElem?.mpr there)).length_numbersOf

theorem length_flatMap_numbersOf (rows : ∀ pair ∈ data.zipIdx, RowFor (width + 1) pair.2.toUInt32 pair.1) :
    (data.flatMap numbersOf).length = data.length * width := by
  rw [List.length_flatMap, List.map_congr_left (length_numbersOf rows)]
  simp

/-! ## Whole texts -/

/-- The records behind the header. -/
def rowRecords (bytes : List UInt8) : List (List Bytes) := (Delimited.records bytes).drop 1

/-- The number of fields in the header. -/
def headerWidth (bytes : List UInt8) : Nat := ((Delimited.records bytes).headD []).length

/-- A table that the records of a text make, fewer than there are ids. -/
structure Counted (bytes : List UInt8) (table : AccessibilityTable) : Prop where
  header : Delimited.header bytes = .ok (table.indexLabel :: table.names)
  rows : ∀ pair ∈ (rowRecords bytes).zipIdx, RowFor (table.width + 1) pair.2.toUInt32 pair.1
  few : (rowRecords bytes).length < UInt32.size
  maxZone : table.maxZone.toNat + 1 = (rowRecords bytes).length
  values : table.values = ((rowRecords bytes).flatMap numbersOf).toArray

/-- The highest id is the one before the count of the rows, if there is any. -/
theorem pred_eq_iff {count last : UInt32} (some : count ≠ 0) : count - 1 = last ↔ last.toNat + 1 = count.toNat := by
  have positive : count.toNat ≠ 0 := fun none => some (UInt32.toNat_inj.mp none)
  have one : (1 : UInt32) ≤ count := UInt32.le_iff_toNat_le.mpr (Nat.one_le_iff_ne_zero.mpr positive)
  rw [← UInt32.toNat_inj, UInt32.toNat_sub_of_le _ _ one, show (1 : UInt32).toNat = 1 from rfl]
  omega

theorem read_eq_ok_iff : read bytes = .ok table ↔ Counted bytes table := by
  have rows {next : UInt32} {values : Array Single} :
      readRows 0 #[] (Delimited.rows bytes) = .ok (next, values) ↔
        (∀ pair ∈ (rowRecords bytes).zipIdx, RowFor (headerWidth bytes) pair.2.toUInt32 pair.1) ∧
          next.toNat = (rowRecords bytes).length ∧ values = ((rowRecords bytes).flatMap numbersOf).toArray := by
    have each : Delimited.rows bytes = (rowRecords bytes).zipIdx.map fun pair =>
        Delimited.row (headerWidth bytes) (pair.2 + 1) pair.1 := List.mapIdx_eq_zipIdx_map
    rw [each, show (0 : UInt32) = Nat.toUInt32 0 from rfl, readRows_eq_ok_iff (by decide)]
    simp
  have parsed : read bytes = .ok table ↔ parse bytes = .ok table := by
    unfold read
    split <;> simp [*]
  rw [parsed]
  unfold parse
  cases header : Delimited.header bytes with
  | error cause => exact ⟨nofun, fun counted => nomatch header.symm.trans counted.header⟩
  | ok fields =>
    cases fields with
    | nil => exact ⟨nofun, fun counted => nomatch header.symm.trans counted.header⟩
    | cons label names =>
      have wide : headerWidth bytes = names.length + 1 := (Delimited.length_of_texts header).symm
      rw [wide] at rows
      simp only [bind_eq_ok_iff, rows, Prod.exists]
      constructor
      · rintro ⟨next, values, ⟨all, count, rfl⟩, done⟩
        split at done
        next => cases done
        next some_row =>
          split at done
          next => cases done
          next fits =>
            cases done
            exact ⟨header, all, count ▸ next.toNat_lt_size, ((pred_eq_iff some_row).mp rfl).trans count, rfl⟩
      · intro counted
        obtain ⟨rfl, rfl⟩ := List.cons.inj (Except.ok.inj (header.symm.trans counted.header))
        have count : (rowRecords bytes).length.toUInt32.toNat = (rowRecords bytes).length :=
          UInt32.toNat_ofNat_of_lt' counted.few
        have some_row : (rowRecords bytes).length.toUInt32 ≠ 0 := by
          intro none
          have last := counted.maxZone
          rw [← count, none] at last
          cases last
        have size : table.values.size = (rowRecords bytes).length.toUInt32.toNat * table.names.length := by
          rw [count, counted.values, List.size_toArray]
          exact length_flatMap_numbersOf counted.rows
        have last := (pred_eq_iff some_row).mpr (counted.maxZone.trans count.symm)
        refine ⟨(rowRecords bytes).length.toUInt32, table.values, ⟨counted.rows, count, counted.values⟩, ?_⟩
        rw [if_neg some_row, if_neg (not_not.mpr size), last]
        rfl

/-- The header is as wide as there are names behind the label. -/
theorem Counted.headerWidth_eq (counted : Counted bytes table) : headerWidth bytes = table.width + 1 :=
  (Delimited.length_of_texts counted.header).symm

theorem Counted.rowFor (counted : Counted bytes table) {i : Nat} (there : (rowRecords bytes)[i]? = some record) :
    RowFor (table.width + 1) i.toUInt32 record :=
  counted.rows (record, i) (List.mem_zipIdx_iff_getElem?.mpr there)

/-- A text whose records are rows for the ids from zero on, behind a header that is text. -/
structure Tabular (bytes : List UInt8) : Prop where
  header : ∃ fields, Delimited.header bytes = .ok fields ∧ fields ≠ []
  some_record : rowRecords bytes ≠ []
  rows : ∀ i record, (rowRecords bytes)[i]? = some record →
    ∃ id : UInt32, id.toNat = i ∧ RowFor (headerWidth bytes) id record

theorem Counted.tabular (counted : Counted bytes table) : Tabular bytes where
  header := ⟨_, counted.header, nofun⟩
  some_record := fun none => absurd counted.maxZone (by simp [none])
  rows i record there := by
    have inside : i < (rowRecords bytes).length := (List.getElem?_eq_some_iff.mp there).1
    exact ⟨i.toUInt32, UInt32.toNat_ofNat_of_lt (Nat.lt_trans inside counted.few),
      counted.headerWidth_eq ▸ counted.rowFor there⟩

/-- There are no more rows than ids. -/
theorem Tabular.length_le (tabular : Tabular bytes) : (rowRecords bytes).length ≤ UInt32.size := by
  refine Nat.le_of_not_lt fun many => ?_
  obtain ⟨id, beyond, -⟩ := tabular.rows UInt32.size _ (List.getElem?_eq_getElem many)
  exact absurd id.toNat_lt_size (Nat.not_lt.mpr (Nat.le_of_eq beyond.symm))

theorem Tabular.exists_counted (tabular : Tabular bytes) (small : (rowRecords bytes).length < UInt32.size) :
    ∃ table, Counted bytes table := by
  obtain ⟨fields, header, some_field⟩ := tabular.header
  obtain ⟨label, names, rfl⟩ := List.exists_cons_of_ne_nil some_field
  have wide : headerWidth bytes = names.length + 1 := (Delimited.length_of_texts header).symm
  have rows : ∀ pair ∈ (rowRecords bytes).zipIdx, RowFor (names.length + 1) pair.2.toUInt32 pair.1 := by
    intro pair member
    obtain ⟨id, same, row⟩ := tabular.rows pair.2 pair.1 (List.mem_zipIdx_iff_getElem?.mp member)
    obtain rfl : id = pair.2.toUInt32 := by rw [← same]; simp
    exact wide ▸ row
  have some_record := List.length_pos_iff.mpr tabular.some_record
  have last : ((rowRecords bytes).length - 1).toUInt32.toNat = (rowRecords bytes).length - 1 :=
    UInt32.toNat_ofNat_of_lt' (by omega)
  exact ⟨⟨label, names, ((rowRecords bytes).length - 1).toUInt32, ((rowRecords bytes).flatMap numbersOf).toArray⟩,
    header, rows, small, (congrArg (· + 1) last).trans (Nat.sub_add_cancel some_record), rfl⟩

/-- A table that has the header of a text, and whose rows are the records behind it. -/
structure Tabulates (bytes : List UInt8) (table : AccessibilityTable) : Prop where
  header : Delimited.header bytes = .ok (table.indexLabel :: table.names)
  maxZone : table.maxZone.toNat + 1 = (rowRecords bytes).length
  row : ∀ (zone : UInt32) record, (rowRecords bytes)[zone.toNat]? = some record →
    ∃ row, table.row? zone = some row ∧ (record.drop 1).map numberIn? = row.toList.map some
  row_none : ∀ zone, table.row? zone = none ↔ table.maxZone < zone
  get : ∀ (zone : UInt32) record alternative, (rowRecords bytes)[zone.toNat]? = some record →
    table.get? zone alternative = record[alternative + 1]?.bind numberIn?
  get_none : ∀ zone alternative, table.get? zone alternative = none ↔
    table.maxZone < zone ∨ table.width ≤ alternative

/-- The row of an id holds the numbers of its record. -/
theorem Counted.row?_eq (counted : Counted bytes table) {zone : UInt32} (there : (rowRecords bytes)[zone.toNat]? = some record) :
    table.row? zone = some (numbersOf record).toArray := by
  have inside : zone.toNat < (rowRecords bytes).length := (List.getElem?_eq_some_iff.mp there).1
  have within : ¬ table.maxZone < zone := by
    rw [UInt32.lt_iff_toNat_lt]
    have := counted.maxZone
    omega
  have cells := take_flatMap (length_numbersOf counted.rows) there
  unfold row?
  rw [if_neg within]
  refine congrArg some (Array.toList_inj.mp ?_)
  rw [Array.toList_extract, counted.values]
  simpa [List.extract_eq_take_drop] using cells

theorem Counted.tabulates (counted : Counted bytes table) : Tabulates bytes table := by
  have get {zone : UInt32} {record : List Bytes} (alternative : Nat)
      (there : (rowRecords bytes)[zone.toNat]? = some record) :
      table.get? zone alternative = (numbersOf record)[alternative]? := by
    rw [get?, counted.row?_eq there]
    simp
  refine ⟨counted.header, counted.maxZone, ?row, fun _ => row?_eq_none_iff, ?get, ?get_none⟩
  case row =>
    exact fun zone record there => ⟨_, counted.row?_eq there, (counted.rowFor there).map_numbersOf⟩
  case get =>
    intro zone record alternative there
    have both := congrArg (·[alternative]?) (counted.rowFor there).map_numbersOf
    simp only [List.getElem?_map, List.getElem?_drop, Nat.add_comm 1] at both
    rw [get alternative there]
    generalize (numbersOf record)[alternative]? = number at both ⊢
    generalize record[alternative + 1]? = field at both ⊢
    match field, number, both with
    | none, none, _ => rfl
    | some _, some _, both => exact (Option.some.inj both).symm
  case get_none =>
    intro zone alternative
    by_cases beyond : table.maxZone < zone
    · simp [get?, row?_eq_none_iff.mpr beyond, beyond]
    · have inside : zone.toNat < (rowRecords bytes).length := by
        rw [UInt32.lt_iff_toNat_lt] at beyond
        have := counted.maxZone
        omega
      have there := List.getElem?_eq_getElem inside
      have long := length_numbersOf counted.rows _ (List.getElem_mem inside)
      rw [get alternative there, List.getElem?_eq_none_iff, long]
      exact (or_iff_right beyond).symm

/-- A text is a table exactly if its records are rows for the ids from zero on, and then it is the
table of these rows, unless there are as many records as ids. -/
theorem read_account (bytes : List UInt8) (range : (rowRecords bytes).length ≠ UInt32.size) :
    ((∃ table, read bytes = .ok table) ↔ Tabular bytes) ∧
      ∀ table, read bytes = .ok table → Tabulates bytes table := by
  simp only [read_eq_ok_iff]
  refine ⟨⟨fun ⟨table, counted⟩ => counted.tabular, fun tabular => ?_⟩, fun table counted => counted.tabulates⟩
  exact tabular.exists_counted (Nat.lt_of_le_of_ne tabular.length_le range)

/-- The text of a table with two rows of one number. -/
def plainText : List UInt8 := Delimited.bytesOf "mgra,work\n0,0.25\n1,1\n"

theorem read_account_plain : (rowRecords plainText).length ≠ UInt32.size ∧ Tabular plainText ∧
    ∃ table, read plainText = .ok table ∧ table.maxZone = 1 ∧ table.get? 1 0 = some ⟨0x3F800000⟩ ∧
      table.get? 1 1 = none ∧ table.row? 2 = none := by
  have range : (rowRecords plainText).length ≠ UInt32.size := by decide +kernel
  obtain ⟨readable, tabulated⟩ := read_account plainText range
  have read_eq : (read plainText).isOk = true := by decide +kernel
  cases done : read plainText with
  | error fault =>
    rw [done] at read_eq
    cases read_eq
  | ok table =>
    have tabulates := tabulated table done
    have last : table.maxZone = 1 := by
      have rows : (rowRecords plainText).length = 2 := by decide +kernel
      exact UInt32.toNat_inj.mp (Nat.succ.inj (tabulates.maxZone.trans rows))
    have second : (rowRecords plainText)[1]? = some [[0x31], [0x31]] := by decide +kernel
    refine ⟨range, readable.mp ⟨table, done⟩, table, rfl, last, ?_, ?_, ?_⟩
    · exact (tabulates.get 1 _ 0 second).trans (by decide +kernel)
    · exact tabulates.get 1 _ 1 second
    · exact (tabulates.row_none 2).mpr (last ▸ by decide)

/-- A header that is no text, over a row. -/
def undecodable : List UInt8 := [0xFF, 0x2C, 0x61, 0x0A, 0x30, 0x2C, 0x31, 0x0A]

/-- A text with a header of two fields and a row for the first id is refused for bytes in the header. -/
theorem read_undecodable :
    Delimited.records undecodable = [[[0xFF], [0x61]], [[0x30], [0x31]]] ∧ RowFor 2 0 [[0x30], [0x31]] ∧
      ¬ ∃ table, read undecodable = .ok table := by
  refine ⟨by decide +kernel, ⟨rfl, by decide +kernel, ?_⟩, ?_⟩
  · have one : numberIn? [0x31] = some ⟨0x3F800000⟩ := by decide +kernel
    simpa using ⟨_, one⟩
  · rintro ⟨table, done⟩
    have refused : (read undecodable).isOk = false := by decide +kernel
    rw [done] at refused
    cases refused

end Accessibility.AccessibilityTable
