import Accessibility.Number.Binary

/-! How alike two names are, as numbers between zero and one. Jaro's measure
counts the characters two texts share within a window and how far they are out of
order; Winkler's adds credit for a common beginning; the edit measure counts the
insertions, deletions and replacements that separate the texts. -/
namespace Accessibility.Similarity

/-- Marks the first unmarked character of `b` equal to `c` whose position lies
between `low` and `high`; `position` is that of the head. -/
def markFirst (c : Char) (low high : Nat) : Nat → List (Char × Bool) → Option (List (Char × Bool))
  | _, [] => none
  | position, (d, taken) :: rest =>
    if high < position then none
    else if low ≤ position && c = d && !taken then some ((d, true) :: rest)
    else (markFirst c low high (position + 1) rest).map ((d, taken) :: ·)

/-- Pairs off the characters of `a`, each with the first free equal character of
`b` at most `window` places away: those of `a` that found one, and `b` marked. -/
def pairOff (window : Nat) : Nat → List Char → List (Char × Bool) → List Char × List (Char × Bool)
  | _, [], marked => ([], marked)
  | i, c :: rest, marked =>
    match markFirst c (i - window) (i + window) 0 marked with
    | some marked =>
      let (found, marked) := pairOff window (i + 1) rest marked
      (c :: found, marked)
    | none => pairOff window (i + 1) rest marked

def ratio (m n : Nat) : Double := Double.ofInt m / Double.ofInt n

/-- Jaro's measure. Half the shared characters that stand in a different order on
the two sides count as transposed. -/
def jaro (a b : List Char) : Double :=
  if a.isEmpty && b.isEmpty then .one
  else if a.isEmpty || b.isEmpty then .zero
  else
    let window := max a.length b.length / 2 - 1
    let (found, marked) := pairOff window 0 a (b.map (·, false))
    let partners := (marked.filter (·.2)).map (·.1)
    let shared := found.length
    let transposed := ((found.zip partners).filter fun (c, d) => c ≠ d).length / 2
    if shared = 0 then .zero
    else
      (ratio shared a.length + ratio shared b.length + ratio (shared - transposed) shared)
        / Double.ofInt 3

/-- Length of the common beginning. -/
def commonStart (a b : List Char) : Nat :=
  ((a.zip b).takeWhile fun (c, d) => c = d).length

/-- Seven tenths. -/
def winklerThreshold : Double := ⟨0x3FE6666666666666⟩

/-- One tenth. -/
def winklerCredit : Double := ⟨0x3FB999999999999A⟩

/-- Winkler's measure: above seven tenths, each of up to four characters of a
common beginning closes a tenth of the distance to one. -/
def jaroWinkler (a b : List Char) : Double :=
  let score := jaro a b
  if winklerThreshold.less score then
    let start := min 4 (commonStart a b)
    score + winklerCredit * Double.ofInt start * (Double.one - score)
  else score

/-- One row of the edit table: `left` is the entry to the left of the row so far
and `diagonal` the one above it. -/
def editRow (c : Char) : Nat → Nat → List Char → List Nat → List Nat
  | left, diagonal, d :: b, above :: row =>
    let here := min (min (left + 1) (above + 1)) (diagonal + if c = d then 0 else 1)
    here :: editRow c here above b row
  | _, _, _, _ => []

/-- The row of distances from each start of `b` to the characters read so far,
after reading the rest of `a`; the row's own head is `count`. -/
def editRows (b : List Char) : Nat → List Char → List Nat → Nat × List Nat
  | count, [], row => (count, row)
  | count, c :: a, row => editRows b (count + 1) a (editRow c (count + 1) count b row)

/-- Least number of insertions, deletions and replacements from `a` to `b`. -/
def editDistance (a b : List Char) : Nat :=
  let (count, row) := editRows b 0 a (List.range' 1 b.length)
  row.getLast?.getD count

/-- One less the edit distance over the greater length; one for two empty texts. -/
def editSimilarity (a b : List Char) : Double :=
  let longer := max a.length b.length
  if longer = 0 then .one else Double.one - ratio (editDistance a b) longer

end Accessibility.Similarity
