import Accessibility.Zone.System

/-! The order of a zone system. Records are sorted by their ids and none stands twice,
so the ids of a system built from records ascend strictly, and the last of them bounds
them all. -/
namespace Accessibility.ZoneSystem

variable {system : ZoneSystem}

/-- The zones stand in the order of their ids, and no id stands twice. -/
def Ascending (zones : List Zone) : Prop := zones.Pairwise fun a b => a.id < b.id

/-- Sorted records of which no two neighbours have the same id ascend. -/
theorem ascending_of_sorted {zones : List Zone} (sorted : zones.Pairwise fun a b => a.id ≤ b.id)
    (fresh : repeated? zones = none) : Ascending zones := by
  induction zones with
  | nil => exact .nil
  | cons a rest ih =>
    obtain ⟨low, sorted⟩ := List.pairwise_cons.mp sorted
    cases rest with
    | nil => exact List.pairwise_singleton ..
    | cons b rest =>
      by_cases same : a.id = b.id
      · simp [repeated?, same] at fresh
      · simp only [repeated?, same, ↓reduceIte] at fresh
        have below : a.id < b.id := Std.lt_of_le_of_ne (low b List.mem_cons_self) same
        refine List.pairwise_cons.mpr ⟨fun c member => ?_, ih sorted fresh⟩
        obtain rfl | later := List.mem_cons.mp member
        · exact below
        · exact Std.lt_of_lt_of_le below ((List.pairwise_cons.mp sorted).1 c later)

theorem pairwise_ordered (zones : List Zone) : (ordered zones).Pairwise fun a b => a.id ≤ b.id := by
  have sorted : (ordered zones).Pairwise fun a b => decide (a.id ≤ b.id) = true :=
    List.pairwise_mergeSort
      (fun a b c first second => by
        simp only [decide_eq_true_eq] at first second ⊢
        exact UInt32.le_trans first second)
      (fun a b => by simpa using UInt32.le_total a.id b.id) zones
  exact sorted.imp of_decide_eq_true

/-- A system that is built from records ascends. -/
theorem ascending_of_ofZones {names : List String} {zones : List Zone}
    (built : ofZones names zones = .ok system) : Ascending system.zones.toList := by
  simp only [ofZones] at built
  split at built
  next => cases built
  next fresh =>
    split at built
    next => cases built
    next =>
      cases built
      exact ascending_of_sorted (pairwise_ordered zones) fresh

/-- The ids of a system stand in ascending order. -/
theorem pairwise_zoneIds (ascending : Ascending system.zones.toList) :
    system.zoneIds.toList.Pairwise (· < ·) := by
  rw [zoneIds, Array.toList_map]
  exact List.pairwise_map.mpr ascending

theorem nodup_zoneIds (ascending : Ascending system.zones.toList) : system.zoneIds.toList.Nodup :=
  (pairwise_zoneIds ascending).imp UInt32.ne_of_lt

/-- A bound of all ids bounds the highest. -/
theorem maxZone_le {bound : UInt32} (within : ∀ id ∈ system.zoneIds, id ≤ bound) :
    system.maxZone ≤ bound := by
  unfold maxZone
  split
  next zone last => exact within _ (Array.mem_map_of_mem (Array.mem_of_back? last))
  next => exact UInt32.zero_le

/-- No id exceeds the highest. -/
theorem id_le_maxZone (ascending : Ascending system.zones.toList) {id : UInt32}
    (member : id ∈ system.zoneIds) : id ≤ system.maxZone := by
  obtain ⟨zone, there, rfl⟩ := Array.mem_map.mp member
  obtain ⟨index, within, rfl⟩ := Array.mem_iff_getElem.mp there
  have some_zone : 0 < system.zones.size := Nat.zero_lt_of_lt within
  have highest : system.maxZone = (system.zones[system.zones.size - 1]).id := by
    have back := Array.getElem?_eq_getElem (Nat.sub_lt some_zone Nat.one_pos)
    simp only [maxZone, Array.back?, back]
  rw [highest]
  by_cases last : index = system.zones.size - 1
  · subst last
    exact UInt32.le_refl _
  · exact UInt32.le_of_lt (List.pairwise_iff_getElem.mp ascending index (system.zones.size - 1)
      (by simpa using within) (by simpa using Nat.sub_lt some_zone Nat.one_pos) (by omega))

/-- There are no more zones than ids up to the highest. -/
theorem size_le_maxZone (ascending : Ascending system.zones.toList) :
    system.zones.size ≤ system.maxZone.toNat + 1 := by
  have climbs : ∀ (index : Nat) (within : index < system.zones.size),
      index ≤ system.zones[index].id.toNat := by
    intro index
    induction index with
    | zero => exact fun _ => Nat.zero_le _
    | succ index ih =>
      intro within
      have before := ih (Nat.lt_of_succ_lt within)
      have step := List.pairwise_iff_getElem.mp ascending index (index + 1)
        (by simpa using Nat.lt_of_succ_lt within) (by simpa using within) (Nat.lt_succ_self _)
      have step : system.zones[index].id.toNat < system.zones[index + 1].id.toNat := step
      omega
  rcases Nat.eq_zero_or_pos system.zones.size with none | some_zone
  · omega
  · have last := climbs (system.zones.size - 1) (Nat.sub_lt some_zone Nat.one_pos)
    have member : system.zones[system.zones.size - 1].id ∈ system.zoneIds :=
      Array.mem_map.mpr ⟨_, Array.getElem_mem _, rfl⟩
    have bound : system.zones[system.zones.size - 1].id.toNat ≤ system.maxZone.toNat :=
      id_le_maxZone ascending member
    omega

end Accessibility.ZoneSystem
