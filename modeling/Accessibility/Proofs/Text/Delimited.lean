import Mathlib.Tactic.SplitIfs
import Accessibility.Text.Delimited

/-! Reading delimited text undoes writing it. A written field is read back whole wherever
it stands (`readFrom_writeField`), quotes and line ends inside it included, so a written
record is one record (`readFrom_writeRecord`) and a text gives all of its records
(`records_write`), provided that it does not start with a byte order mark. -/
namespace Accessibility.Delimited

variable {place : Place} {field rest : Bytes} {record : List Bytes} {b : UInt8}

/-! ## Fields -/

/-- A byte that stands for itself outside quotes. -/
def Plain (b : UInt8) : Prop := b ≠ quote ∧ b ≠ comma ∧ endsLine b = false

theorem plain_of_not_needsQuotes (bare : needsQuotes field = false) : ∀ b ∈ field, Plain b := by
  intro b mem
  have := List.any_eq_false.mp bare b mem
  simp only [Bool.or_eq_true, decide_eq_true_eq, not_or, Bool.not_eq_true] at this
  exact ⟨this.1.1, this.1.2, this.2⟩

/-- A plain byte outside quotes joins the field. -/
theorem readFrom_plain (outside : place ≠ .quoted) (plain : Plain b) :
    readFrom place field record (b :: rest) = readFrom .bare (b :: field) record rest := by
  obtain ⟨notQuote, notComma, notEnd⟩ := plain
  rw [readFrom.eq_def]
  dsimp only
  rw [if_neg outside, if_neg (by simp [notEnd]), if_neg notComma, if_neg notQuote]

/-- Plain bytes join a field under way. -/
theorem readFrom_bare {field' : Bytes} (plain : ∀ b ∈ field', Plain b) :
    readFrom .bare field record (field' ++ rest) = readFrom .bare (field'.reverse ++ field) record rest := by
  induction field' generalizing field with
  | nil => rfl
  | cons b more ih =>
    rw [List.cons_append, readFrom_plain (by decide) (plain b (.head _)),
      ih fun b mem => plain b (.tail _ mem), List.reverse_cons, List.append_assoc]
    rfl

/-- Inside quotes every byte joins the field, and of two quotes one. -/
theorem readFrom_doubled (field' : Bytes) :
    readFrom .quoted field record (doubled field' ++ rest) =
      readFrom .quoted (field'.reverse ++ field) record rest := by
  induction field' generalizing field with
  | nil => rfl
  | cons b more ih =>
    have joined : readFrom .quoted field record (doubled (b :: more) ++ rest) =
        readFrom .quoted (b :: field) record (doubled more ++ rest) := by
      by_cases same : b = quote
      · subst same
        simp [doubled, readFrom, endsLine, quote, comma, lineFeed, carriageReturn]
      · simp [doubled, readFrom, same]
    rw [joined, ih, List.reverse_cons, List.append_assoc]
    rfl

/-- Where the reader stands behind a written field. -/
def behind (place : Place) (field : Bytes) : Place :=
  if needsQuotes field then .closed else if field = [] then place else .bare

/-- A written field is read back, whatever it holds. -/
theorem readFrom_writeField (start : place = .lineStart ∨ place = .fieldStart) :
    readFrom place [] record (writeField field ++ rest) =
      readFrom (behind place field) field.reverse record rest := by
  unfold writeField behind
  split
  next quotes =>
    have opened : readFrom place [] record (quote :: (doubled field ++ quote :: rest)) =
        readFrom .quoted [] record (doubled field ++ quote :: rest) := by
      rcases start with rfl | rfl <;> simp [readFrom, endsLine, quote, comma, lineFeed, carriageReturn]
    have closed : readFrom .quoted field.reverse record (quote :: rest) =
        readFrom .closed field.reverse record rest := by
      simp [readFrom]
    rw [List.append_assoc, List.cons_append, List.singleton_append, opened, readFrom_doubled,
      List.append_nil, closed]
  next bare =>
    have plain := plain_of_not_needsQuotes (Bool.not_eq_true _ ▸ bare)
    cases field with
    | nil => rfl
    | cons b more =>
      have outside : place ≠ .quoted := by rcases start with rfl | rfl <;> decide
      rw [List.cons_append, readFrom_plain outside (plain b (.head _)),
        readFrom_bare fun b mem => plain b (.tail _ mem)]
      simp

theorem behind_ne_quoted (start : place = .lineStart ∨ place = .fieldStart) :
    behind place field ≠ .quoted := by
  unfold behind
  rcases start with rfl | rfl <;> split_ifs <;> decide

/-- A comma ends a field. -/
theorem readFrom_comma (outside : place ≠ .quoted) :
    readFrom place field record (comma :: rest) =
      readFrom .fieldStart [] (field.reverse :: record) rest := by
  rw [readFrom.eq_def]
  dsimp only
  rw [if_neg outside, if_neg (by decide), if_pos rfl]

/-- A line feed ends a record that has something in it. -/
theorem readFrom_lineFeed (outside : place ≠ .quoted) (inside : place ≠ .lineStart) :
    readFrom place field record (lineFeed :: rest) =
      (field.reverse :: record).reverse :: readFrom .lineStart [] [] rest := by
  rw [readFrom.eq_def]
  dsimp only
  rw [if_neg outside, if_pos (by decide), if_neg inside]

/-! ## Records -/

/-- The written fields of a record, up to its line end, are read back. -/
theorem readFrom_fields {fields : List Bytes} (some_field : fields ≠ [])
    (start : place = .lineStart ∨ place = .fieldStart)
    (visible : place = .lineStart → fields ≠ [[]]) :
    readFrom place [] record ([comma].intercalate (fields.map writeField) ++ lineFeed :: rest) =
      (fields.reverse ++ record).reverse :: readFrom .lineStart [] [] rest := by
  induction fields generalizing place record with
  | nil => exact absurd rfl some_field
  | cons field more ih =>
    have outside : behind place field ≠ .quoted := behind_ne_quoted start
    cases more with
    | nil =>
      have inside : behind place field ≠ .lineStart := by
        unfold behind
        split_ifs with quotes nothing
        · decide
        · rintro rfl
          exact visible rfl (by rw [nothing])
        · decide
      have alone : [comma].intercalate ([field].map writeField) = writeField field := by
        simp [List.intercalate]
      rw [alone, readFrom_writeField start, readFrom_lineFeed outside inside]
      simp
    | cons next more =>
      have parts : [comma].intercalate ((field :: next :: more).map writeField) ++ lineFeed :: rest =
          writeField field ++ comma :: ([comma].intercalate ((next :: more).map writeField) ++ lineFeed :: rest) := by
        simp [List.intercalate]
      rw [parts, readFrom_writeField start, readFrom_comma outside, List.reverse_reverse,
        ih (by simp) (.inr rfl) (by simp)]
      simp

/-- A written record is one record. -/
theorem readFrom_writeRecord {fields : List Bytes} (some_field : fields ≠ []) :
    readFrom .lineStart [] [] (writeRecord fields ++ rest) = fields :: readFrom .lineStart [] [] rest := by
  unfold writeRecord
  split
  next empty =>
    subst empty
    simp [readFrom, endsLine, quote, comma, lineFeed, carriageReturn]
  next visible =>
    rw [List.append_assoc, List.singleton_append, readFrom_fields some_field (.inl rfl) fun _ => visible]
    simp

/-- Written records are read back one after the other. -/
theorem readFrom_write {written : List (List Bytes)} (some_fields : ∀ fields ∈ written, fields ≠ []) :
    readFrom .lineStart [] [] (write written) = written := by
  induction written with
  | nil => rfl
  | cons fields more ih =>
    rw [write, List.flatMap_cons, readFrom_writeRecord (some_fields fields (.head _)), ← write,
      ih fun fields mem => some_fields fields (.tail _ mem)]

/-- Reading gives the records that were written. -/
theorem records_write {written : List (List Bytes)} (some_fields : ∀ fields ∈ written, fields ≠ [])
    (unmarked : withoutMark (write written) = write written) : records (write written) = written := by
  rw [records, unmarked, readFrom_write some_fields]

/-! ## Texts -/

private theorem toList_eq (bytes : ByteArray) : bytes.toList = bytes.data.toList := by
  have behind (i : Nat) (before : List UInt8) :
      ByteArray.toList.loop bytes i before = before.reverse ++ bytes.data.toList.drop i := by
    fun_induction ByteArray.toList.loop bytes i before with
    | case1 i before inside ih =>
      have position : i < bytes.data.toList.length := inside
      have read : bytes.get! i = bytes.data.toList[i] := getElem!_pos bytes.data i inside
      rw [ih, List.drop_eq_getElem_cons position, List.reverse_cons, List.append_assoc, read]
      rfl
    | case2 i before outside =>
      rw [List.drop_eq_nil_of_le (Nat.not_lt.mp outside), List.append_nil]
  exact behind 0 []

theorem bytesOf_eq (s : String) : bytesOf s = s.toList.flatMap String.utf8EncodeChar := by
  rw [bytesOf, toList_eq, String.toUTF8_eq_toByteArray, ← String.utf8Encode_toList, List.utf8Encode,
    List.toList_data_toByteArray]

theorem text?_bytesOf (s : String) : text? (bytesOf s) = some s := by
  have whole : (⟨(bytesOf s).toArray⟩ : ByteArray) = s.toUTF8 := by rw [bytesOf, toList_eq]
  simp [text?, whole, String.fromUTF8?, String.fromUTF8, s.isValidUTF8]

/-- A record is text if each of its fields is. -/
theorem texts_eq_ok_iff {fields : List String} :
    texts record = .ok fields ↔ record.map text? = fields.map some := by
  have read : record.mapM text? = some fields ↔ record.map text? = fields.map some := by
    induction record generalizing fields with
    | nil => cases fields <;> simp
    | cons field record ih =>
      simp only [List.mapM_cons, Option.bind_eq_bind, Option.bind_eq_some_iff, Option.pure_def,
        Option.some.injEq, ih, List.map_cons]
      constructor
      · rintro ⟨text, own, rest, others, rfl⟩
        rw [own, others, List.map_cons]
      · intro same
        cases fields with
        | nil => cases same
        | cons text rest =>
          obtain ⟨own, others⟩ := List.cons.inj same
          exact ⟨text, own, rest, others, rfl⟩
  rw [← read]
  unfold texts
  split
  next found => rw [found, Except.ok.injEq, Option.some.injEq]
  next missing => simp [missing]

theorem length_of_texts {fields : List String} (given : texts record = .ok fields) :
    fields.length = record.length := by
  simpa using (congrArg List.length (texts_eq_ok_iff.mp given)).symm

@[simp] theorem texts_map_bytesOf (fields : List String) : texts (fields.map bytesOf) = .ok fields :=
  texts_eq_ok_iff.mpr (by simp [text?_bytesOf])

/-- The byte order mark. -/
def mark : Char := Char.ofNat 0xFEFF

theorem withoutMark_cons (other : b ≠ 0xEF) (rest : Bytes) : withoutMark (b :: rest) = b :: rest := by
  unfold withoutMark
  split
  next marked => exact absurd (List.cons.inj marked).1 other
  next => rfl

/-- Only the byte order mark is encoded by the bytes that are taken for one. -/
theorem withoutMark_encoded {c : Char} (other : c ≠ mark) (rest : Bytes) :
    withoutMark (String.utf8EncodeChar c ++ rest) = String.utf8EncodeChar c ++ rest := by
  unfold withoutMark
  split
  next more marked =>
    have encoded : String.utf8EncodeChar mark = [0xEF, 0xBB, 0xBF] := by decide +kernel
    have first := ByteArray.utf8DecodeChar?_utf8EncodeChar_append (b := rest.toByteArray) (c := c)
    have second := ByteArray.utf8DecodeChar?_utf8EncodeChar_append (b := more.toByteArray) (c := mark)
    rw [← List.toByteArray_append, marked] at first
    rw [← List.toByteArray_append, encoded] at second
    exact absurd (Option.some.inj (first.symm.trans second)) other
  next => rfl

/-- A written text whose first field does not start with a byte order mark has none. -/
theorem withoutMark_write {s : String} (unmarked : s.toList.head? ≠ some mark) (fields : List Bytes)
    (more : List (List Bytes)) :
    withoutMark (write ((bytesOf s :: fields) :: more)) = write ((bytesOf s :: fields) :: more) := by
  obtain ⟨ending, tail, separates, parts⟩ : ∃ ending tail, ending ≠ 0xEF ∧
      [comma].intercalate ((bytesOf s :: fields).map writeField) ++ [lineFeed] ++ write more =
        writeField (bytesOf s) ++ ending :: tail := by
    cases fields with
    | nil => exact ⟨lineFeed, write more, by decide, by simp [List.intercalate]⟩
    | cons next rest => exact ⟨comma, _, by decide, by simp [List.intercalate]; rfl⟩
  rw [write, List.flatMap_cons, ← write]
  unfold writeRecord
  split
  · exact withoutMark_cons (by decide) _
  · rw [parts]
    unfold writeField
    split
    · exact withoutMark_cons (by decide) _
    · rw [bytesOf_eq]
      cases chars : s.toList with
      | nil => exact withoutMark_cons separates tail
      | cons c cs =>
        rw [List.flatMap_cons, List.append_assoc]
        exact withoutMark_encoded (fun same => unmarked (by rw [chars, same]; rfl)) _

/-! ## Tables -/

/-- A text of records that are as wide as the first gives their fields as text, in order. -/
theorem read_write (s : String) (names : List String) (more : List (List String))
    (unmarked : s.toList.head? ≠ some mark)
    (wide : ∀ fields ∈ more, fields.length = names.length + 1) :
    header (write (((s :: names) :: more).map (·.map bytesOf))) = .ok (s :: names) ∧
      rows (write (((s :: names) :: more).map (·.map bytesOf))) = more.map .ok := by
  have whole : records (write (((s :: names) :: more).map (·.map bytesOf))) =
      ((s :: names) :: more).map (·.map bytesOf) := by
    apply records_write
    · rintro _ mem rfl
      obtain ⟨fields, mem, nothing⟩ := List.mem_map.mp mem
      obtain rfl := List.map_eq_nil_iff.mp nothing
      rcases List.mem_cons.mp mem with same | mem
      · cases same
      · exact absurd (wide [] mem) (by simp)
    · exact withoutMark_write unmarked _ _
  constructor
  · rw [header, whole]
    exact texts_map_bytesOf (s :: names)
  · rw [rows, whole]
    refine List.ext_getElem (by simp) fun i _ inside => ?_
    rw [List.length_map] at inside
    have width := wide more[i] (List.getElem_mem inside)
    simp [row, width]

end Accessibility.Delimited
