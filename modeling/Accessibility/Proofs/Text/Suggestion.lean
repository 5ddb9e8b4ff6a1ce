import Accessibility.Fault

/-! Which name is offered for one that is not registered. The search keeps the first of the closest
names it has seen (`leads_better`, a step; `exists_leads_search`, a run), so it ends with the closest
name of all, or with none where none is near or the name is registered up to case
(`offers_closest`). A score that is not a number reaches no other and is never offered, so nothing
has to be known of how scores come about. -/
namespace Accessibility

/-! ## Comparing numbers -/

namespace Double

variable {x y z : Double}

theorem less_iff : x.less y = true ↔ x.isNaN = false ∧ y.isNaN = false ∧ x.rank < y.rank := by
  simp [less, and_assoc]

theorem atMost_iff : x.atMost y = true ↔ x.isNaN = false ∧ y.isNaN = false ∧ x.rank ≤ y.rank := by
  simp [atMost, and_assoc]

theorem less_irrefl (x : Double) : x.less x = false := by
  simp [less]

theorem atMost_trans (first : x.atMost y = true) (second : y.atMost z = true) : x.atMost z = true := by
  obtain ⟨number, -, low⟩ := atMost_iff.mp first
  obtain ⟨-, number', high⟩ := atMost_iff.mp second
  exact atMost_iff.mpr ⟨number, number', Int.le_trans low high⟩

theorem atMost_of_less (less : x.less y = true) : x.atMost y = true := by
  obtain ⟨number, number', low⟩ := less_iff.mp less
  exact atMost_iff.mpr ⟨number, number', Int.le_of_lt low⟩

theorem less_of_less_of_atMost (first : x.less y = true) (second : y.atMost z = true) :
    x.less z = true := by
  obtain ⟨number, -, low⟩ := less_iff.mp first
  obtain ⟨-, number', high⟩ := atMost_iff.mp second
  exact less_iff.mpr ⟨number, number', Int.lt_of_lt_of_le low high⟩

/-- Of two numbers that a third one is at most, one is at most the other. -/
theorem atMost_of_not_less (left : z.atMost x = true) (right : z.atMost y = true)
    (above : x.less y = false) : y.atMost x = true := by
  obtain ⟨-, number, -⟩ := atMost_iff.mp left
  obtain ⟨-, number', -⟩ := atMost_iff.mp right
  refine atMost_iff.mpr ⟨number', number, Int.not_lt.mp fun low => ?_⟩
  rw [less_iff.mpr ⟨number, number', low⟩] at above
  cases above

end Double

namespace Suggestion

open Double

variable {input name other : String} {known seen : List String}

/-- How close a name is to the input, both in lower case. -/
def closeness (input name : String) : Double :=
  score (LowerCase.of input.toList) (LowerCase.of name.toList)

/-- Close enough to be offered. -/
def Near (input name : String) : Prop := threshold.atMost (closeness input name) = true

/-- Names that differ in case only. -/
def SameName (a b : String) : Prop := LowerCase.of a.toList = LowerCase.of b.toList

/-- The closest of the known names, and the first of those as close. -/
structure Closest (input : String) (known : List String) (name : String) : Prop where
  near : Near input name
  greatest : ∀ other ∈ known, (closeness input name).less (closeness input other) = false
  first : ∃ front behind, known = front ++ name :: behind ∧
    ∀ other ∈ front, (closeness input name).atMost (closeness input other) = false

namespace Closest

theorem mem (closest : Closest input known name) : name ∈ known := by
  obtain ⟨front, behind, rfl, -⟩ := closest.first
  simp

/-- A further name that is no closer changes nothing. -/
theorem append (closest : Closest input seen name)
    (lower : (closeness input name).less (closeness input other) = false) :
    Closest input (seen ++ [other]) name := by
  refine ⟨closest.near, fun candidate candidateMem => ?_, ?_⟩
  · rcases List.mem_append.mp candidateMem with there | new
    · exact closest.greatest candidate there
    · obtain rfl := List.mem_singleton.mp new
      exact lower
  · obtain ⟨front, behind, rfl, earlier⟩ := closest.first
    exact ⟨front, behind ++ [other], by simp, earlier⟩

/-- A near name is the closest where none of those before it reaches it. -/
theorem of_last (near : Near input name)
    (earlier : ∀ other ∈ seen, (closeness input name).atMost (closeness input other) = false) :
    Closest input (seen ++ [name]) name := by
  refine ⟨near, fun candidate candidateMem => ?_, seen, [], rfl, earlier⟩
  rcases List.mem_append.mp candidateMem with there | new
  · refine Bool.eq_false_iff.mpr fun closer => ?_
    exact Bool.eq_false_iff.mp (earlier candidate there) (atMost_of_less closer)
  · obtain rfl := List.mem_singleton.mp new
    exact less_irrefl _

theorem not_mem_front (closest : Closest input known name) (rival : Closest input known other)
    {front : List String}
    (earlier : ∀ before ∈ front, (closeness input other).atMost (closeness input before) = false) :
    name ∉ front := fun before =>
  Bool.eq_false_iff.mp (earlier name before)
    (atMost_of_not_less closest.near rival.near (closest.greatest other rival.mem))

theorem unique (closest : Closest input known name) (rival : Closest input known other) :
    name = other := by
  obtain ⟨front, behind, split, earlier⟩ := closest.first
  obtain ⟨front', behind', split', earlier'⟩ := rival.first
  have same : front ++ name :: behind = front' ++ other :: behind' := split.symm.trans split'
  rcases List.append_eq_append_iff.mp same with ⟨between, rfl, tail⟩ | ⟨between, rfl, tail⟩
  · cases between with
    | nil => exact (List.cons.inj tail).1
    | cons first between =>
      obtain ⟨rfl, -⟩ := List.cons.inj tail
      exact absurd (by simp) (closest.not_mem_front rival earlier')
  · cases between with
    | nil => exact (List.cons.inj tail).1.symm
    | cons first between =>
      obtain ⟨rfl, -⟩ := List.cons.inj tail
      exact absurd (by simp) (rival.not_mem_front closest earlier)

end Closest

/-! ## The search -/

/-- The name that leads among those seen so far, with its score; none leads where none is near. -/
def Leads (input : String) (seen : List String) : Option (String × Double) → Prop
  | none => ∀ name ∈ seen, ¬ Near input name
  | some (name, top) => top = closeness input name ∧ Closest input seen name

theorem leads_better {best : Option (String × Double)} (leads : Leads input seen best)
    (name : String) : Leads input (seen ++ [name]) (better best name (closeness input name)) := by
  unfold better
  split
  next near =>
    cases best with
    | none =>
      refine ⟨rfl, .of_last near fun other there => Bool.eq_false_iff.mpr fun reached => ?_⟩
      exact leads other there (atMost_trans near reached)
    | some lead =>
      obtain ⟨leader, _⟩ := lead
      obtain ⟨rfl, closest⟩ := leads
      dsimp only
      split
      next closer =>
        refine ⟨rfl, .of_last near fun other there => Bool.eq_false_iff.mpr fun reached => ?_⟩
        exact Bool.eq_false_iff.mp (closest.greatest other there)
          (less_of_less_of_atMost closer reached)
      next lower => exact ⟨rfl, closest.append (Bool.eq_false_iff.mpr lower)⟩
  next far =>
    cases best with
    | none =>
      intro other there
      rcases List.mem_append.mp there with there | new
      · exact leads other there
      · obtain rfl := List.mem_singleton.mp new
        exact far
    | some lead =>
      obtain ⟨leader, _⟩ := lead
      obtain ⟨rfl, closest⟩ := leads
      refine ⟨rfl, closest.append (Bool.eq_false_iff.mpr fun closer => far ?_)⟩
      exact atMost_trans closest.near (atMost_of_less closer)

/-- A search through names that are all different from the input ends with the name that leads. -/
theorem exists_leads_search {best : Option (String × Double)} (leads : Leads input seen best)
    (different : ∀ name ∈ known, ¬ SameName name input) :
    ∃ last, search (LowerCase.of input.toList) best known = last.map (·.1) ∧
      Leads input (seen ++ known) last := by
  induction known generalizing seen best with
  | nil => exact ⟨best, rfl, by rwa [List.append_nil]⟩
  | cons name rest ih =>
    obtain ⟨new, different⟩ := List.forall_mem_cons.mp different
    obtain ⟨last, found, leads⟩ := ih (leads_better leads name) different
    refine ⟨last, ?_, by simpa using leads⟩
    rw [search]
    exact (if_neg new).trans found

/-- The input among the names ends the search without an offer, whatever leads by then. -/
theorem search_eq_none {best : Option (String × Double)}
    (registered : ∃ name ∈ known, SameName name input) :
    search (LowerCase.of input.toList) best known = none := by
  induction known generalizing best with
  | nil => simp at registered
  | cons name rest ih =>
    rw [search]
    by_cases same : SameName name input
    · exact if_pos same
    · refine (if_neg same).trans (ih ?_)
      simpa [same] using registered

theorem exists_leads_suggest (different : ∀ name ∈ known, ¬ SameName name input) :
    ∃ last, suggest? input known = last.map (·.1) ∧ Leads input known last := by
  have none_leads : Leads input [] none := nofun
  exact exists_leads_search none_leads different

theorem suggest?_eq_none_iff :
    suggest? input known = none ↔
      (∃ name ∈ known, SameName name input) ∨ ∀ name ∈ known, ¬ Near input name := by
  by_cases registered : ∃ name ∈ known, SameName name input
  · exact iff_of_true (search_eq_none registered) (.inl registered)
  · obtain ⟨last, found, leads⟩ := exists_leads_suggest fun name there same =>
      registered ⟨name, there, same⟩
    rw [found, or_iff_right registered]
    cases last with
    | none => exact iff_of_true rfl leads
    | some lead =>
      refine iff_of_false nofun fun far => ?_
      exact far lead.1 leads.2.mem leads.2.near

theorem suggest?_eq_some_iff :
    suggest? input known = some name ↔
      (∀ other ∈ known, ¬ SameName other input) ∧ Closest input known name := by
  constructor
  · intro offered
    have different : ∀ other ∈ known, ¬ SameName other input := by
      intro other there same
      cases (search_eq_none ⟨other, there, same⟩).symm.trans offered
    obtain ⟨last, found, leads⟩ := exists_leads_suggest different
    obtain ⟨lead, rfl, rfl⟩ := Option.map_eq_some_iff.mp (found.symm.trans offered)
    exact ⟨different, leads.2⟩
  · rintro ⟨different, closest⟩
    obtain ⟨last, found, leads⟩ := exists_leads_suggest different
    cases last with
    | none => exact absurd closest.near (leads name closest.mem)
    | some lead => rw [found, Option.map_some, leads.2.unique closest]

/-- What is offered is the closest registered name, the first of those as close, and only if the
input is not registered itself; the fault for an unknown name offers the same or nothing. -/
theorem offers_closest (input : String) (known : List String) :
    (suggest? input known = none ↔
      (∃ name ∈ known, SameName name input) ∨ ∀ name ∈ known, ¬ Near input name) ∧
    (∀ name, suggest? input known = some name ↔
      (∀ other ∈ known, ¬ SameName other input) ∧ Closest input known name) ∧
    ∀ kind, Fault.unknownName kind input known = .lookup s!"unknown {kind} '{input}'" ∨
      ∃ name ∈ known, ¬ SameName name input ∧ Closest input known name ∧
        Fault.unknownName kind input known =
          .lookup s!"unknown {kind} '{input}' (did you mean '{name}'?)" := by
  refine ⟨suggest?_eq_none_iff, fun _ => suggest?_eq_some_iff, fun kind => ?_⟩
  unfold Fault.unknownName
  split
  next name offered =>
    obtain ⟨different, closest⟩ := suggest?_eq_some_iff.mp offered
    exact .inr ⟨name, closest.mem, different name closest.mem, closest, rfl⟩
  next => exact .inl rfl

end Suggestion

end Accessibility
