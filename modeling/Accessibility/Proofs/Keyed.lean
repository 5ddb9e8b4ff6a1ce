import Mathlib.Data.List.Nodup

/-! Lists whose items all have a key of their own. A key finds the one item that has it, and an item
stands in its list beside those with other keys. -/
namespace Accessibility.Keyed

variable {α κ : Type} [DecidableEq κ] {key : α → κ} {items : List α} {item : α}

/-- What a search by key finds is the item with the key. -/
theorem find?_eq_some_iff (distinct : (items.map key).Nodup) (k : κ) (item : α) :
    items.find? (fun item => key item = k) = some item ↔ item ∈ items ∧ key item = k := by
  constructor
  · intro found
    exact ⟨List.mem_of_find?_eq_some found, by simpa using List.find?_some found⟩
  · rintro ⟨member, rfl⟩
    cases found : items.find? (fun other => key other = key item) with
    | none => simpa using List.find?_eq_none.mp found item member
    | some other =>
      have same : key other = key item := by simpa using List.find?_some found
      rw [List.inj_on_of_nodup_map distinct (List.mem_of_find?_eq_some found) member same]

/-- An item and those with other keys make up the list. -/
theorem perm_cons_filter [DecidableEq α] (distinct : (items.map key).Nodup) (member : item ∈ items) :
    (item :: items.filter fun other => key other ≠ key item).Perm items := by
  have others : items.filter (fun other => key other ≠ key item) = items.erase item := by
    rw [distinct.of_map.erase_eq_filter]
    refine List.filter_congr fun other there => ?_
    have apart : key other = key item ↔ other = item :=
      ⟨List.inj_on_of_nodup_map distinct there member, fun same => same ▸ rfl⟩
    simp [apart, bne, beq_eq_decide]
  rw [others]
  exact (List.perm_cons_erase member).symm

end Accessibility.Keyed
