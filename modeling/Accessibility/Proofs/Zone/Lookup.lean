import Mathlib.Data.List.Perm.Basic
import Accessibility.Proofs.Keyed
import Accessibility.Proofs.Zone.System

/-! A zone system as the set of its records. Records in another order make the same system, or fail
with the same fault (`ofZones_eq_of_perm`): sorting leaves one order of the ids, a repeated id is
seen there in any case, and distinct ids leave one order of the records. In the system the search
by halving finds what a search from the first zone on finds (`find?_eq_find?`). -/
namespace Accessibility.ZoneSystem

variable {system : ZoneSystem} {names : List String} {zones zones' : List Zone}

/-! ## The order of the records -/

/-- Whether an id stands twice, and which, is seen from the ids. -/
theorem repeated?_congr (same : zones.map (·.id) = zones'.map (·.id)) :
    repeated? zones = repeated? zones' := by
  induction zones generalizing zones' with
  | nil =>
    obtain rfl : [] = zones' := (List.map_eq_nil_iff.mp same.symm).symm
    rfl
  | cons a rest ih =>
    obtain ⟨a', rest', rfl, first, same⟩ := List.map_eq_cons_iff.mp same.symm
    specialize ih same.symm
    cases rest with
    | nil =>
      obtain rfl : [] = rest' := (List.map_eq_nil_iff.mp same).symm
      rfl
    | cons b rest =>
      obtain ⟨b', rest', rfl, second, -⟩ := List.map_eq_cons_iff.mp same
      simp only [repeated?, first, second, ih]

theorem ordered_perm (perm : zones'.Perm zones) : (ordered zones').Perm (ordered zones) :=
  ((List.mergeSort_perm _ _).trans perm).trans (List.mergeSort_perm _ _).symm

/-- Sorted records have their ids in one order. -/
theorem map_id_ordered (perm : zones'.Perm zones) :
    (ordered zones').map (·.id) = (ordered zones).map (·.id) :=
  ((ordered_perm perm).map _).eq_of_pairwise
    (fun _ _ _ _ below above => UInt32.le_antisymm below above)
    (List.pairwise_map.mpr (pairwise_ordered zones'))
    (List.pairwise_map.mpr (pairwise_ordered zones))

/-- Records of distinct ids have one order. -/
theorem ordered_eq (perm : zones'.Perm zones) (fresh : repeated? (ordered zones) = none) :
    ordered zones' = ordered zones := by
  have fresh' : repeated? (ordered zones') = none :=
    (repeated?_congr (map_id_ordered perm)).trans fresh
  exact (ordered_perm perm).eq_of_pairwise
    (fun _ _ _ _ below above => absurd above (UInt32.lt_asymm below))
    (ascending_of_sorted (pairwise_ordered zones') fresh')
    (ascending_of_sorted (pairwise_ordered zones) fresh)

/-- Records in another order make the same system, or fail with the same fault. -/
theorem ofZones_eq_of_perm (perm : zones'.Perm zones) : ofZones names zones' = ofZones names zones := by
  have ids := repeated?_congr (map_id_ordered perm)
  simp only [ofZones]
  cases twice : repeated? (ordered zones) with
  | some id => simp only [ids, twice]
  | none => simp only [ordered_eq perm twice, twice]

theorem flaw?_eq_none_iff {width : Nat} {zone : Zone} :
    flaw? width zone = none ↔ zone.attributes.length = width ∧
      zone.districts.grade < unifiedDistrictOffset ∧ zone.districts.high < unifiedDistrictOffset := by
  simp only [flaw?]
  split
  next wide => simp [wide]
  next wide =>
    split
    next large =>
      simp only [Bool.or_eq_true, decide_eq_true_eq] at large
      simp only [reduceCtorEq, false_iff, not_and, UInt32.not_lt]
      grind
    next small =>
      simp only [Bool.or_eq_true, decide_eq_true_eq, not_or, UInt32.not_le] at small
      simp only [true_iff]
      exact ⟨not_not.mp wide, small⟩

/-- In a system that is built every zone passed its checks. -/
theorem flaw?_of_ofZones (built : ofZones names zones = .ok system) :
    ∀ zone ∈ system.zones.toList, flaw? system.attributeNames.length zone = none := by
  simp only [ofZones] at built
  split at built
  next => cases built
  next =>
    split at built
    next => cases built
    next clean =>
      cases built
      exact List.findSome?_eq_none_iff.mp clean

/-! ## Looking up by halving -/

theorem id_lt_id (ascending : Ascending system.zones.toList) {i j : Nat}
    (before : i < j) (within : j < system.zones.size) :
    system.zones[i].id < system.zones[j].id :=
  List.pairwise_iff_getElem.mp ascending i j (by simpa using Nat.lt_trans before within)
    (by simpa using within) before

/-- Halving keeps the place of an id that is there. -/
theorem narrow_of_getElem (ascending : Ascending system.zones.toList) {index base length : Nat}
    (within : index < system.zones.size) (low : base ≤ index) (high : index < base + length)
    (room : base + length ≤ system.zones.size) :
    narrow system.zones system.zones[index].id base length = index := by
  induction length using Nat.strongRecOn generalizing base with
  | ind length ih =>
    rw [narrow]
    split
    next more =>
      have middle : base + length / 2 < system.zones.size := by omega
      have side : system.zones[index].id < system.zones[base + length / 2].id ↔
          index < base + length / 2 := by
        refine ⟨fun below => ?_, fun before => id_lt_id ascending before middle⟩
        rcases Nat.lt_trichotomy index (base + length / 2) with before | rfl | behind
        · exact before
        · exact absurd below (UInt32.lt_irrefl _)
        · exact absurd below (UInt32.lt_asymm (id_lt_id ascending behind within))
      simp only [Array.getElem?_eq_getElem middle, decide_eq_true_eq, side]
      split
      next before => exact ih _ (by omega) low (by omega) (by omega)
      next behind => exact ih _ (by omega) (by omega) (by omega) (by omega)
    next => omega

/-- Halving finds the zone that a search from the first zone on finds. -/
theorem find?_eq_find? (ascending : Ascending system.zones.toList) (id : UInt32) :
    system.find? id = system.zones.toList.find? (·.id = id) := by
  cases linear : system.zones.toList.find? (·.id = id) with
  | some zone =>
    obtain ⟨there, index, within, rfl, -⟩ := List.find?_eq_some_iff_getElem.mp linear
    simp only [Array.length_toList, Array.getElem_toList, decide_eq_true_eq] at within there ⊢
    subst there
    have place := narrow_of_getElem ascending within (Nat.zero_le index) (by omega)
      (Nat.le_of_eq (Nat.zero_add _))
    simp only [find?, place, Array.getElem?_eq_getElem within, ↓reduceIte]
  | none =>
    simp only [find?]
    split
    next zone found =>
      have other := List.find?_eq_none.mp linear zone
        (Array.mem_toList_iff.mpr (Array.mem_of_getElem? found))
      exact if_neg (by simpa using other)
    next => rfl

/-- Each zone of a system is found by its id. -/
theorem zone_of_mem (ascending : Ascending system.zones.toList) {zone : Zone}
    (member : zone ∈ system.zones.toList) : system.zone zone.id = .ok zone := by
  have distinct : (system.zones.toList.map Zone.id).Nodup := Array.toList_map ▸ nodup_zoneIds ascending
  have found := (Keyed.find?_eq_some_iff distinct zone.id zone).mpr ⟨member, rfl⟩
  rw [ZoneSystem.zone, find?_eq_find? ascending, found]

/-- Of ascending ids a scan for the greatest ends at the last. -/
theorem foldl_max_of_pairwise {ids : List UInt32} {start : UInt32}
    (ascending : ids.Pairwise (· < ·)) (low : ∀ id ∈ ids, start ≤ id) :
    ids.foldl max start = ids.getLast?.getD start := by
  induction ids generalizing start with
  | nil => rfl
  | cons id rest ih =>
    obtain ⟨above, ascending⟩ := List.pairwise_cons.mp ascending
    have greater : max start id = id := if_pos (low id List.mem_cons_self)
    rw [List.foldl_cons, greater,
      ih ascending fun later member => UInt32.le_of_lt (above later member),
      List.getLast?_cons]
    rfl

/-- The highest zone is what a scan of all the ids for the greatest ends at. -/
theorem maxZone_eq_foldl (ascending : Ascending system.zones.toList) :
    system.maxZone = (system.zones.toList.map (·.id)).foldl max 0 := by
  rw [foldl_max_of_pairwise (List.pairwise_map.mpr ascending) fun id _ => UInt32.zero_le,
    List.getLast?_map]
  simp only [maxZone, Array.getLast?_toList]
  cases system.zones.back? <;> rfl

end Accessibility.ZoneSystem
