import Mathlib.Data.List.Basic
import Mathlib.Order.Basic
import Accessibility.Cache.Store

/-! What a cache holds, key by key. A key is accepted if it lies within the dimensions,
and in valid dimensions no two accepted keys share a place (`eq_of_place_eq`): the packed
pair and the slot both tell their parts apart. So a write is seen under its own key and
under no other (`stored_put`), and a key that is refused leaves the cache as it was. -/
namespace Accessibility

variable {spec : CacheSpec} {cache : UtilityCache} {key other : UtilityKey} {value : Utilities}
  {τ : Type} {outside : τ} {compute : StateM τ (Outcome Utilities)}

namespace CacheSpec

/-- A key within the dimensions: its slot exists, and both its ends are within the bound
of zones and taps. -/
def Accepts (spec : CacheSpec) (key : UtilityKey) : Prop :=
  (key.segment < spec.segments ∧ key.period < spec.periods) ∧
    key.origin ≤ spec.maxEndpoint ∧ key.destination ≤ spec.maxEndpoint

instance (spec : CacheSpec) (key : UtilityKey) : Decidable (spec.Accepts key) :=
  inferInstanceAs (Decidable (_ ∧ _))

/-- The number of slots, before it is checked. -/
def slots (spec : CacheSpec) : Nat := spec.segments.toNat * spec.periods.toNat

/-- Dimensions are valid if the ids fit the packed pair and there are slots, but not too
many. -/
theorem validate_eq_ok_iff : spec.validate = .ok () ↔
    (spec.maxZone.toNat < pairFactor ∧ spec.maxTap.toNat < pairFactor) ∧
      (spec.segments ≠ 0 ∧ spec.periods ≠ 0) ∧ spec.slots ≤ maxCacheSlots := by
  rw [← Nat.not_le, ← Nat.not_le, ← @Nat.not_lt maxCacheSlots, ← not_or, ne_eq, ne_eq, ← not_or]
  unfold validate slotCount slots
  by_cases ids : pairFactor ≤ spec.maxZone.toNat ∨ pairFactor ≤ spec.maxTap.toNat
  · simp only [ids, not_true_eq_false, false_and, iff_false]
    by_cases zone : pairFactor ≤ spec.maxZone.toNat
    · simp [zone, bind, Except.bind, throw, throwThe, MonadExceptOf.throw]
    · simp [zone, ids.resolve_left zone, bind, Except.bind, throw, throwThe, MonadExceptOf.throw]
  · obtain ⟨zone, tap⟩ := not_or.mp ids
    by_cases empty : spec.segments = 0 ∨ spec.periods = 0
    · simp [zone, tap, empty, bind, Except.bind, throw, throwThe, MonadExceptOf.throw]
    · by_cases many : maxCacheSlots < spec.segments.toNat * spec.periods.toNat
      · simp [zone, tap, empty, many, bind, Except.bind]
      · simp [zone, tap, empty, many, bind, Except.bind, pure, Except.pure]

/-- Ids of valid dimensions fit the packed pair. -/
theorem maxEndpoint_lt (valid : spec.validate = .ok ()) : spec.maxEndpoint.toNat < pairFactor := by
  obtain ⟨⟨zone, tap⟩, _⟩ := validate_eq_ok_iff.mp valid
  show (if spec.maxZone ≤ spec.maxTap then spec.maxTap else spec.maxZone).toNat < pairFactor
  split
  · exact tap
  · exact zone

end CacheSpec

namespace UtilityKey

/-- The slot of a key. -/
def slot (key : UtilityKey) (spec : CacheSpec) : Nat :=
  key.segment.toNat * spec.periods.toNat + key.period.toNat

/-- Two numbers packed with a factor that is larger than the second can be told apart. -/
private theorem eq_of_pack_eq {a b c d factor : Nat} (small : b < factor) (small' : d < factor)
    (same : a * factor + b = c * factor + d) : a = c ∧ b = d := by
  have quotient := congrArg (· / factor) same
  have remainder := congrArg (· % factor) same
  have positive : 0 < factor := by omega
  simp only [Nat.mul_comm _ factor, Nat.mul_add_div positive, Nat.div_eq_of_lt small,
    Nat.div_eq_of_lt small', Nat.add_zero] at quotient
  simp only [Nat.mul_comm _ factor, Nat.mul_add_mod, Nat.mod_eq_of_lt small,
    Nat.mod_eq_of_lt small'] at remainder
  exact ⟨quotient, remainder⟩

/-- The slot of an accepted key is there. -/
theorem slot_lt (accepts : spec.Accepts key) : key.slot spec < spec.slots := by
  have segment : key.segment.toNat < spec.segments.toNat := accepts.1.1
  have period : key.period.toNat < spec.periods.toNat := accepts.1.2
  calc key.slot spec < (key.segment.toNat + 1) * spec.periods.toNat := by
        rw [slot, Nat.add_mul, Nat.one_mul]
        omega
    _ ≤ spec.slots := Nat.mul_le_mul_right _ segment

/-- Accepted keys are told apart by their slots and packed pairs. -/
theorem eq_of_place_eq (valid : spec.validate = .ok ()) (accepts : spec.Accepts key)
    (accepts' : spec.Accepts other) (slots : key.slot spec = other.slot spec)
    (pairs : key.pairKey = other.pairKey) : key = other := by
  have bound := CacheSpec.maxEndpoint_lt valid
  have fits : ∀ {id : UInt32}, id ≤ spec.maxEndpoint → id.toNat < pairFactor :=
    fun within => Nat.lt_of_le_of_lt within bound
  obtain ⟨⟨_, period⟩, _, destination⟩ := accepts
  obtain ⟨⟨_, period'⟩, _, destination'⟩ := accepts'
  obtain ⟨segments, periods⟩ := eq_of_pack_eq (show _ < _ from period) period' slots
  obtain ⟨origins, destinations⟩ := eq_of_pack_eq (fits destination) (fits destination') pairs
  cases key
  cases other
  simp only [UtilityKey.mk.injEq]
  exact ⟨UInt32.toNat_inj.mp segments, UInt32.toNat_inj.mp periods, UInt32.toNat_inj.mp origins,
    UInt32.toNat_inj.mp destinations⟩

end UtilityKey

namespace UtilityCache

theorem create_eq_ok_iff (spec : CacheSpec) (cache : UtilityCache) :
    create spec = .ok cache ↔ spec.validate = .ok () ∧ cache = empty spec := by
  unfold create
  cases checked : spec.validate with
  | error fault => exact ⟨fun made => (nomatch made), fun both => (nomatch both.1)⟩
  | ok =>
    constructor
    · intro made
      cases made
      exact ⟨rfl, rfl⟩
    · rintro ⟨_, rfl⟩
      rfl

theorem place_of_accepts (accepts : spec.Accepts key) :
    place spec key = .ok (key.slot spec, key.pairKey) := by
  obtain ⟨⟨segment, period⟩, origin, destination⟩ := accepts
  simp [place, UInt32.not_le.mpr segment, UInt32.not_le.mpr period, UInt32.not_lt.mpr origin,
    UInt32.not_lt.mpr destination, UtilityKey.slot]

/-- What is wrong with a key that is not accepted: its slot, or else one of its ends. -/
def refusalOf (spec : CacheSpec) (key : UtilityKey) : Cache.Refusal :=
  if key.segment < spec.segments ∧ key.period < spec.periods then
    .outsideBound key spec.maxEndpoint
  else .noSlot key spec

theorem fault_refusalOf (spec : CacheSpec) (key : UtilityKey) :
    ∃ text, (refusalOf spec key).fault = .lookup text := by
  unfold refusalOf
  split
  · exact ⟨_, rfl⟩
  · exact ⟨_, rfl⟩

/-- A key outside the dimensions has no place. -/
theorem place_of_refused (refused : ¬ spec.Accepts key) :
    place spec key = .error (refusalOf spec key).fault := by
  unfold place refusalOf
  by_cases slot : key.segment < spec.segments ∧ key.period < spec.periods
  · have ends : spec.maxEndpoint < key.origin ∨ spec.maxEndpoint < key.destination := by
      rw [← UInt32.not_le, ← UInt32.not_le, ← not_and_or]
      exact fun within => refused ⟨slot, within⟩
    simp [UInt32.not_le.mpr slot.1, UInt32.not_le.mpr slot.2, ends, slot]
  · have missing : spec.segments ≤ key.segment ∨ spec.periods ≤ key.period := by
      rwa [← UInt32.not_lt, ← UInt32.not_lt, ← not_and_or]
    simp [missing, slot]

/-- What is stored under a key. -/
def stored (cache : UtilityCache) (key : UtilityKey) : Option Utilities :=
  match place cache.spec key with
  | .ok (slot, pair) => cache.paths[slot]?.bind (·[pair]?)
  | .error _ => none

/-- Nothing is stored under a key that is not accepted. -/
theorem stored_of_refused (dimensions : cache.spec = spec) (refused : ¬ spec.Accepts key) :
    cache.stored key = none := by
  simp only [stored, dimensions, place_of_refused refused]

/-- A cache with the given dimensions and a map for every slot. -/
structure Laid (spec : CacheSpec) (cache : UtilityCache) : Prop where
  dimensions : cache.spec = spec
  slots : cache.paths.size = spec.slots

theorem laid_empty (spec : CacheSpec) : (empty spec).Laid spec := ⟨rfl, Array.size_replicate ..⟩

/-- The map that an accepted key belongs to. -/
theorem Laid.exists_slot (laid : cache.Laid spec) (accepts : spec.Accepts key) :
    ∃ values, cache.paths[key.slot spec]? = some values ∧ cache.stored key = values[key.pairKey]? := by
  have within : key.slot spec < cache.paths.size := by
    rw [laid.slots]
    exact UtilityKey.slot_lt accepts
  refine ⟨cache.paths[key.slot spec], Array.getElem?_eq_getElem within, ?_⟩
  simp [stored, laid.dimensions, place_of_accepts accepts, within]

theorem accepts_of_stored (laid : cache.Laid spec) (stored : cache.stored key = some value) :
    spec.Accepts key := by
  by_contra refused
  rw [stored_of_refused laid.dimensions refused] at stored
  cases stored

@[simp] theorem stored_empty (spec : CacheSpec) (key : UtilityKey) : (empty spec).stored key = none := by
  unfold stored
  split
  next slot pair _ =>
    simp only [empty, Array.getElem?_replicate]
    split <;> simp
  next => rfl

/-- The lookup of a key is counted, whether or not it finds a value. -/
def countLookup (cache : UtilityCache) (found : Bool) : UtilityCache :=
  if found then { cache with hits := cache.hits + 1 } else { cache with misses := cache.misses + 1 }

theorem get_of_accepts (laid : cache.Laid spec) (accepts : spec.Accepts key) :
    cache.get key = (.ok (cache.stored key), cache.countLookup (cache.stored key).isSome) := by
  obtain ⟨values, there, held⟩ := laid.exists_slot accepts
  obtain rfl := laid.dimensions
  simp only [get, place_of_accepts accepts, there, held]
  cases values[key.pairKey]? <;> rfl

theorem get_of_refused (laid : cache.Laid spec) (refused : ¬ spec.Accepts key) :
    cache.get key = (.error (refusalOf spec key).fault, cache) := by
  simp only [get, laid.dimensions, place_of_refused refused]

/-- A write to a key that has a value changes nothing. -/
theorem put_of_stored {held : Utilities} (laid : cache.Laid spec) (accepts : spec.Accepts key)
    (stored : cache.stored key = some held) : cache.put key value = (.ok held, cache) := by
  obtain ⟨values, there, same⟩ := laid.exists_slot accepts
  rw [stored] at same
  simp only [put, laid.dimensions, place_of_accepts accepts, there, ← same]

/-- A write to a key that has none stores its value. -/
theorem put_of_not_stored (laid : cache.Laid spec) (accepts : spec.Accepts key)
    (free : cache.stored key = none) :
    cache.put key value = (.ok value,
      { cache with paths := cache.paths.modify (key.slot spec) (·.insert key.pairKey value) }) := by
  obtain ⟨values, there, same⟩ := laid.exists_slot accepts
  rw [free] at same
  simp only [put, laid.dimensions, place_of_accepts accepts, there, ← same]

theorem put_of_refused (laid : cache.Laid spec) (refused : ¬ spec.Accepts key) :
    cache.put key value = (.error (refusalOf spec key).fault, cache) := by
  simp only [put, laid.dimensions, place_of_refused refused]

/-- A write gives back the value that the key has from then on. -/
theorem put_fst (laid : cache.Laid spec) (accepts : spec.Accepts key) :
    (cache.put key value).1 = .ok ((cache.stored key).getD value) := by
  cases held : cache.stored key with
  | some stored => rw [put_of_stored laid accepts held, Option.getD_some]
  | none => rw [put_of_not_stored laid accepts held, Option.getD_none]

/-- Nothing is computed for a key that is not accepted. -/
theorem getOrCompute_of_refused (laid : cache.Laid spec) (refused : ¬ spec.Accepts key) :
    cache.getOrCompute key compute outside = ((.error (refusalOf spec key).fault, cache), outside) := by
  rw [getOrCompute, get_of_refused laid refused]
  rfl

/-- Nothing is computed for a key that has a value. -/
theorem getOrCompute_of_stored {held : Utilities} (laid : cache.Laid spec) (accepts : spec.Accepts key)
    (stored : cache.stored key = some held) :
    cache.getOrCompute key compute outside = ((.ok held, cache.countLookup true), outside) := by
  rw [getOrCompute, get_of_accepts laid accepts, stored]
  rfl

/-- A key that has no value gets the one that is computed, if it can be. -/
theorem getOrCompute_of_not_stored (laid : cache.Laid spec) (accepts : spec.Accepts key)
    (free : cache.stored key = none) :
    cache.getOrCompute key compute outside =
      match compute outside with
      | (.error fault, outside) => ((.error fault, cache.countLookup false), outside)
      | (.ok value, outside) => ((cache.countLookup false).put key value, outside) := by
  rw [getOrCompute, get_of_accepts laid accepts, free]
  simp only [bind, StateT.bind]
  rcases compute outside with ⟨fault | value, outside⟩ <;> rfl

/-- A write is seen under its own key and under no other, and what was there before it
stays. -/
theorem stored_put (valid : spec.validate = .ok ()) (laid : cache.Laid spec)
    (accepts : spec.Accepts key) (value : Utilities) (other : UtilityKey) :
    (cache.put key value).2.stored other =
      if other = key then some ((cache.stored key).getD value) else cache.stored other := by
  cases held : cache.stored key with
  | some stored =>
    rw [put_of_stored laid accepts held]
    split
    next same => rw [same, held, Option.getD_some]
    next => rfl
  | none =>
    rw [put_of_not_stored laid accepts held]
    by_cases accepts' : spec.Accepts other
    · by_cases same : other = key
      · subst same
        obtain ⟨values, there, _⟩ := laid.exists_slot accepts
        simp [UtilityCache.stored, laid.dimensions, place_of_accepts accepts, Array.getElem?_modify, there]
      · have apart : ¬ (key.slot spec = other.slot spec ∧ key.pairKey = other.pairKey) :=
          fun ⟨slots, pairs⟩ => same (UtilityKey.eq_of_place_eq valid accepts' accepts slots.symm pairs.symm)
        obtain ⟨values, there, _⟩ := laid.exists_slot accepts'
        by_cases slots : key.slot spec = other.slot spec
        · have pairs : ¬ key.pairKey = other.pairKey := fun pairs => apart ⟨slots, pairs⟩
          simp [UtilityCache.stored, laid.dimensions, place_of_accepts accepts',
            Array.getElem?_modify, there, slots, same, Std.HashMap.getElem?_insert, pairs]
        · simp [UtilityCache.stored, laid.dimensions, place_of_accepts accepts',
            Array.getElem?_modify, slots, same]
    · have different : other ≠ key := fun same => accepts' (same ▸ accepts)
      simp [UtilityCache.stored, laid.dimensions, place_of_refused accepts', different]

/-- The total size of a list of which one item is changed. -/
private theorem total_modify {α : Type} (size : α → Nat) (change : α → α) (items : List α) {index : Nat}
    {item : α} (there : items[index]? = some item) :
    (items.modify index change).foldr (fun item count => size item + count) 0 + size item =
      items.foldr (fun item count => size item + count) 0 + size (change item) := by
  induction items generalizing index with
  | nil => cases there
  | cons first rest ih =>
    cases index with
    | zero =>
      cases there
      simp only [List.modify_zero_cons, List.foldr_cons]
      omega
    | succ index =>
      have later := ih there
      simp only [List.modify_succ_cons, List.foldr_cons]
      omega

/-- A write adds an entry exactly if its key had no value. -/
theorem entries_put (laid : cache.Laid spec) (accepts : spec.Accepts key) (value : Utilities) :
    (cache.put key value).2.entries = cache.entries + if (cache.stored key).isSome then 0 else 1 := by
  cases held : cache.stored key with
  | some stored =>
    rw [put_of_stored laid accepts held]
    rfl
  | none =>
    obtain ⟨values, there, same⟩ := laid.exists_slot accepts
    rw [held] at same
    have grown := total_modify (fun values : Std.HashMap Nat Utilities => values.size)
      (·.insert key.pairKey value) cache.paths.toList ((Array.getElem?_toList ..).trans there)
    have fresh : key.pairKey ∉ values := by
      rw [← Std.HashMap.isSome_getElem?_iff_mem, ← same]
      exact Bool.false_ne_true
    rw [put_of_not_stored laid accepts held]
    simp only [Std.HashMap.size_insert, fresh, ↓reduceIte] at grown
    simp only [entries, Array.toList_modify, Option.isSome_none, Bool.false_eq_true, ↓reduceIte]
    omega

@[simp] theorem entries_empty (spec : CacheSpec) : (empty spec).entries = 0 := by
  simp only [entries, empty, Array.toList_replicate]
  induction spec.segments.toNat * spec.periods.toNat with
  | zero => rfl
  | succ slots ih => simp [List.replicate_succ, ih]

/-- A write changes nothing but the path utilities. -/
theorem put_frame (cache : UtilityCache) (key : UtilityKey) (value : Utilities) :
    ∃ paths, (cache.put key value).2 = { cache with paths } := by
  unfold put
  repeat' split
  all_goals exact ⟨_, rfl⟩

theorem laid_put (laid : cache.Laid spec) (key : UtilityKey) (value : Utilities) :
    (cache.put key value).2.Laid spec := by
  unfold put
  repeat' split
  all_goals first | exact laid | exact ⟨laid.dimensions, (Array.size_modify ..).trans laid.slots⟩

theorem laid_countLookup (laid : cache.Laid spec) (found : Bool) : (cache.countLookup found).Laid spec := by
  cases found <;> exact ⟨laid.dimensions, laid.slots⟩

@[simp] theorem stored_countLookup (cache : UtilityCache) (found : Bool) (key : UtilityKey) :
    (cache.countLookup found).stored key = cache.stored key := by
  cases found <;> rfl

end UtilityCache

end Accessibility
