import Accessibility.Text.LowerCase
import Accessibility.Text.Similarity

/-! Which registered name a mistyped one may have meant. Candidates are scored
against the input in lower case; the best score wins, the earliest of equals first,
and no name is offered when the input is registered up to case or nothing is close
enough. -/
namespace Accessibility.Suggestion

/-- Weight of the Jaro–Winkler measure, seven tenths. -/
def shapeWeight : Double := ⟨0x3FE6666666666666⟩

/-- Weight of the edit measure, three tenths. -/
def editWeight : Double := ⟨0x3FD3333333333333⟩

/-- Bonus for an equal part behind the last underscore, one tenth. -/
def suffixBonus : Double := ⟨0x3FB999999999999A⟩

/-- The least score that is offered, 0.65. -/
def threshold : Double := ⟨0x3FE4CCCCCCCCCCCD⟩

/-- What follows the last underscore, if there is an underscore. -/
def suffix? (cs : List Char) : Option (List Char) :=
  if '_' ∈ cs then some (cs.reverse.takeWhile (· ≠ '_')).reverse else none

/-- Closeness of two names already in lower case. Names of one kind share a label
and differ in the code behind the last underscore, so equal codes count extra. -/
def score (input candidate : List Char) : Double :=
  let base := Similarity.jaroWinkler input candidate * shapeWeight
    + Similarity.editSimilarity input candidate * editWeight
  match suffix? input, suffix? candidate with
  | some a, some b => if a = b then base + suffixBonus else base
  | _, _ => base

/-- The better of the best candidate so far and a new one. The new one has to reach
the threshold and to score strictly more. -/
def better (best : Option (String × Double)) (name : String) (score : Double) :
    Option (String × Double) :=
  if threshold.atMost score then
    match best with
    | none => some (name, score)
    | some (_, top) => if top.less score then some (name, score) else best
  else best

/-- Folds the candidates in order. A candidate that equals the input up to case ends
the search without a suggestion, whatever came before it. -/
def search (input : List Char) : Option (String × Double) → List String → Option String
  | best, [] => best.map (·.1)
  | best, name :: rest =>
    let candidate := LowerCase.of name.toList
    if candidate = input then none
    else search input (better best name (score input candidate)) rest

/-- The registered name closest to `input`, if one is close enough and the input is
not itself registered up to case. -/
def suggest? (input : String) (known : List String) : Option String :=
  search (LowerCase.of input.toList) none known

end Accessibility.Suggestion
