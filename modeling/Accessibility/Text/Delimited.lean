/-! Delimited text: records of comma-separated fields, one record a line. Reading
works on bytes, so a field need not be text until someone asks for it. A field that
starts with a quote runs to the next single quote, a doubled quote inside it
standing for one; whatever follows the closing quote belongs to the field as it is.
Lines end at a line feed, a carriage return or both; empty lines are no records, and
a byte order mark at the start is no part of the first field. Writing quotes a field
only where reading it back needs it. -/
namespace Accessibility.Delimited

abbrev Bytes := List UInt8

def comma : UInt8 := 0x2C
def quote : UInt8 := 0x22
def lineFeed : UInt8 := 0x0A
def carriageReturn : UInt8 := 0x0D

def endsLine (b : UInt8) : Bool := b = lineFeed || b = carriageReturn

/-! ## Reading -/

/-- Where the reader stands. -/
inductive Place where
  | lineStart
  | fieldStart
  | bare
  | quoted
  /-- Behind a quote that closes the field unless another follows. -/
  | closed
  deriving DecidableEq, Repr

/-- Records of the remaining bytes, with the field and the record under way in
reverse. The end of the text ends a record under way, inside quotes too. -/
def readFrom (place : Place) (field : Bytes) (record : List Bytes) : Bytes → List (List Bytes)
  | [] => if place = .lineStart then [] else [(field.reverse :: record).reverse]
  | b :: rest =>
    if place = .quoted then
      if b = quote then readFrom .closed field record rest
      else readFrom .quoted (b :: field) record rest
    else if endsLine b then
      if place = .lineStart then readFrom .lineStart [] [] rest
      else (field.reverse :: record).reverse :: readFrom .lineStart [] [] rest
    else if b = comma then readFrom .fieldStart [] (field.reverse :: record) rest
    else if b = quote then
      match place with
      | .lineStart | .fieldStart => readFrom .quoted [] record rest
      | .closed => readFrom .quoted (quote :: field) record rest
      | .bare | .quoted => readFrom .bare (quote :: field) record rest
    else readFrom .bare (b :: field) record rest

/-- The text without a leading byte order mark. -/
def withoutMark : Bytes → Bytes
  | 0xEF :: 0xBB :: 0xBF :: rest => rest
  | bytes => bytes

/-- All records of a text. -/
def records (bytes : Bytes) : List (List Bytes) :=
  readFrom .lineStart [] [] (withoutMark bytes)

/-- Why a record cannot be used. The line and the byte of the record, and which of its bytes are no
text, are left out of the messages. -/
inductive Refusal where
  /-- A record has not as many fields as the one before it. -/
  | uneven (record found expected : Nat)
  /-- A field is not valid text. -/
  | notText
  deriving DecidableEq, Repr

def Refusal.message : Refusal → String
  | uneven record found expected =>
    s!"CSV error: record {record}: found record with {found} fields, but the previous record has {expected} fields"
  | notText => "CSV parse error"

/-- The text a field's bytes encode, if they are valid. -/
def text? (field : Bytes) : Option String := String.fromUTF8? ⟨field.toArray⟩

/-- The fields of a record as text. -/
def texts (record : List Bytes) : Except Refusal (List String) :=
  match record.mapM text? with
  | some fields => .ok fields
  | none => .error .notText

/-- The first record as text; no fields at all for an empty text. -/
def header (bytes : Bytes) : Except Refusal (List String) :=
  texts ((records bytes).headD [])

/-- The record with the given number, which must be as wide as the header. -/
def row (width number : Nat) (record : List Bytes) : Except Refusal (List String) :=
  if record.length = width then texts record
  else .error (.uneven number record.length width)

/-- The records behind the first, each checked against its width and numbered from
one. -/
def rows (bytes : Bytes) : List (Except Refusal (List String)) :=
  let all := records bytes
  (all.drop 1).mapIdx fun i record => row (all.headD []).length (i + 1) record

/-! ## Writing -/

/-- Whether a field has to be quoted wherever it stands. -/
def needsQuotes (field : Bytes) : Bool :=
  field.any fun b => b = quote || b = comma || endsLine b

/-- A field's bytes with every quote doubled. -/
def doubled (field : Bytes) : Bytes :=
  field.flatMap fun b => if b = quote then [quote, quote] else [b]

def writeField (field : Bytes) : Bytes :=
  if needsQuotes field then quote :: doubled field ++ [quote] else field

/-- A record with its line end. A record whose only field is empty is written as a
pair of quotes, since an empty line would be no record. -/
def writeRecord (fields : List Bytes) : Bytes :=
  if fields = [[]] then [quote, quote, lineFeed]
  else [comma].intercalate (fields.map writeField) ++ [lineFeed]

def write (records : List (List Bytes)) : Bytes := records.flatMap writeRecord

/-- The bytes of a text. -/
def bytesOf (s : String) : Bytes := s.toUTF8.toList

end Accessibility.Delimited
