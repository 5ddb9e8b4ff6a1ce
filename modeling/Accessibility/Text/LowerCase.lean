import Accessibility.Text.CaseTable

/-! Lower-casing of whole texts, by the full mapping: each character by its own
simple mapping, the capital I with a dot to an `i` followed by a combining dot, and
the capital sigma to its final form at the end of a word. -/
namespace Accessibility.LowerCase

/-- Whether a code point lies in one of the ranges. -/
def within (runs : Array (Nat × Nat)) (n : Nat) : Bool :=
  runs.any fun (first, last) => first ≤ n && n ≤ last

def isCased (c : Char) : Bool := within CaseTable.casedRuns c.toNat

def isCaseIgnorable (c : Char) : Bool := within CaseTable.caseIgnorableRuns c.toNat

/-- The simple mapping of one character. -/
def simple (c : Char) : Char :=
  let n := c.toNat
  match CaseTable.lowerRuns.find? fun (first, last, step, _) =>
      first ≤ n && n ≤ last && (n - first) % step = 0 with
  | some (_, _, _, offset) => Char.ofNat ((n : Int) + offset).toNat
  | none => c

/-- Whether the first character that is not skipped has case. -/
def startsCased (cs : List Char) : Bool :=
  match cs.dropWhile isCaseIgnorable with
  | [] => false
  | c :: _ => isCased c

/-- Lower-case form of one character between the text before it, nearest character
first, and the text after it. A capital sigma is final when a cased character comes
before it and none after it. -/
def inContext (before after : List Char) (c : Char) : List Char :=
  if c = 'Σ' then [if startsCased before && !startsCased after then 'ς' else 'σ']
  else if c = 'İ' then ['i', '\u0307']
  else [simple c]

/-- Lower-case form of a text whose earlier characters are given in reverse. -/
def mapFrom (before : List Char) : List Char → List Char
  | [] => []
  | c :: after => inContext before after c ++ mapFrom (c :: before) after

/-- The text in lower case. -/
def of (cs : List Char) : List Char := mapFrom [] cs

end Accessibility.LowerCase
