import Mathlib.Data.List.Nodup
import Accessibility.Proofs.Cache.Dense

/-! The cache as its callers see it: two maps in which every key is written once, one of
utilities by key and one by dense cell, and two counters. A ledger is just that. It knows no
slots, no packed pairs and no rows, and no sequence of operations tells a cache from it
(`observations_agree`). -/
namespace Accessibility

/-- A partial map in which a key is written once: the first value stays. -/
structure WriteOnce (κ α : Type) where
  entries : List (κ × α)
  /-- No key is there twice. -/
  distinct : (entries.map Prod.fst).Nodup

namespace WriteOnce

variable {κ α : Type} [DecidableEq κ] {map : WriteOnce κ α}

def empty : WriteOnce κ α := ⟨[], List.nodup_nil⟩

def get? (map : WriteOnce κ α) (key : κ) : Option α := map.entries.lookup key

def write (map : WriteOnce κ α) (key : κ) (value : α) : WriteOnce κ α :=
  if written : key ∈ map.entries.map Prod.fst then map
  else ⟨(key, value) :: map.entries, List.nodup_cons.mpr ⟨written, map.distinct⟩⟩

def size (map : WriteOnce κ α) : Nat := map.entries.length

theorem isSome_get?_iff (map : WriteOnce κ α) (key : κ) :
    (map.get? key).isSome = true ↔ key ∈ map.entries.map Prod.fst := by
  unfold get?
  induction map.entries with
  | nil => simp
  | cons entry rest ih =>
    rw [List.lookup_cons, List.map_cons, List.mem_cons]
    by_cases same : key = entry.1
    · simp [same]
    · simp [same, beq_false_of_ne same, ih]

theorem get?_write (map : WriteOnce κ α) (key other : κ) (value : α) :
    (map.write key value).get? other =
      if other = key then some ((map.get? key).getD value) else map.get? other := by
  unfold write
  split
  next written =>
    obtain ⟨held, there⟩ := Option.isSome_iff_exists.mp ((map.isSome_get?_iff key).mpr written)
    split
    next same => rw [same, there, Option.getD_some]
    next => rfl
  next free =>
    have absent : map.get? key = none := by
      rw [← Option.not_isSome_iff_eq_none]
      exact mt (map.isSome_get?_iff key).mp free
    rw [absent, Option.getD_none, get?, List.lookup_cons]
    by_cases same : other = key
    · simp [same]
    · rw [beq_false_of_ne same, if_neg same]
      rfl

theorem size_write (map : WriteOnce κ α) (key : κ) (value : α) :
    (map.write key value).size = map.size + if (map.get? key).isSome then 0 else 1 := by
  have known := map.isSome_get?_iff key
  unfold write
  split
  next written => rw [if_pos (known.mpr written), Nat.add_zero]
  next free =>
    rw [if_neg (mt known.mp free)]
    rfl

end WriteOnce

/-- What a cache can be asked to do. A computation may read and change what lies outside
the cache. -/
inductive CacheOperation (τ : Type) where
  | get (key : UtilityKey)
  | put (key : UtilityKey) (value : Utilities)
  | getOrCompute (key : UtilityKey) (compute : StateM τ (Outcome Utilities))
  | getDense (mode : AccessMode) (leg : Leg) (zone tap : UInt32)
  | putDense (mode : AccessMode) (leg : Leg) (zone tap : UInt32) (value : Utilities)
  | stats

/-- What an operation gives back. -/
inductive CacheObservation where
  | found (value : Option Utilities)
  | visible (value : Utilities)
  | counted (stats : CacheStats)
  | failed (fault : Fault)
  deriving DecidableEq

namespace CacheObservation

def ofLookup : Outcome (Option Utilities) → CacheObservation
  | .ok value => found value
  | .error fault => failed fault

def ofWrite : Outcome Utilities → CacheObservation
  | .ok value => visible value
  | .error fault => failed fault

end CacheObservation

/-- An operation on something within the dimensions. -/
def CacheOperation.Accepted {τ : Type} (spec : CacheSpec) : CacheOperation τ → Prop
  | get key => spec.Accepts key
  | put key _ => spec.Accepts key
  | getOrCompute key _ => spec.Accepts key
  | getDense _ _ zone tap => spec.HasCell zone tap
  | putDense _ _ zone tap _ => spec.HasCell zone tap
  | stats => True

/-- Carries out an operation on a cache. -/
def UtilityCache.perform {τ : Type} (cache : UtilityCache) (outside : τ) :
    CacheOperation τ → CacheObservation × UtilityCache × τ
  | .get key => (.ofLookup (cache.get key).1, (cache.get key).2, outside)
  | .put key value => (.ofWrite (cache.put key value).1, (cache.put key value).2, outside)
  | .getOrCompute key compute =>
    let ((answer, cache), outside) := cache.getOrCompute key compute outside
    (.ofWrite answer, cache, outside)
  | .getDense mode leg zone tap => (.ofLookup (cache.getDense mode leg zone tap), cache, outside)
  | .putDense mode leg zone tap value =>
    let (answer, cache) := cache.putDense mode leg zone tap value
    (.ofWrite answer, cache, outside)
  | .stats => (.counted cache.stats, cache, outside)

/-- Two write-once maps and the counts of lookups. -/
structure Ledger where
  pairs : WriteOnce UtilityKey Utilities
  cells : WriteOnce DenseCell Utilities
  hits : Nat
  misses : Nat

namespace Ledger

def empty : Ledger := ⟨.empty, .empty, 0, 0⟩

/-- Counts a lookup of a key by whether the key has a value. -/
def countLookup (ledger : Ledger) (key : UtilityKey) : Ledger :=
  if (ledger.pairs.get? key).isSome then { ledger with hits := ledger.hits + 1 }
  else { ledger with misses := ledger.misses + 1 }

/-- Writes a value under a key. -/
def store (ledger : Ledger) (key : UtilityKey) (value : Utilities) : Ledger :=
  { ledger with pairs := ledger.pairs.write key value }

/-- Carries out an operation on a ledger of the given dimensions. What lies outside of
them is refused. A computation runs only when its key has no value. -/
def perform {τ : Type} (spec : CacheSpec) (ledger : Ledger) (outside : τ) :
    CacheOperation τ → CacheObservation × Ledger × τ
  | .get key =>
    if spec.Accepts key then (.found (ledger.pairs.get? key), ledger.countLookup key, outside)
    else (.failed (UtilityCache.refusalOf spec key).fault, ledger, outside)
  | .put key value =>
    if spec.Accepts key then
      (.visible ((ledger.pairs.get? key).getD value), ledger.store key value, outside)
    else (.failed (UtilityCache.refusalOf spec key).fault, ledger, outside)
  | .getOrCompute key compute =>
    if spec.Accepts key then
      match ledger.pairs.get? key with
      | some value => (.visible value, ledger.countLookup key, outside)
      | none =>
        match compute outside with
        | (.ok value, outside) => (.visible value, (ledger.countLookup key).store key value, outside)
        | (.error fault, outside) => (.failed fault, ledger.countLookup key, outside)
    else (.failed (UtilityCache.refusalOf spec key).fault, ledger, outside)
  | .getDense mode leg zone tap =>
    if spec.HasCell zone tap then (.found (ledger.cells.get? (mode, leg, zone, tap)), ledger, outside)
    else (.failed (Cache.Refusal.outsideDense mode leg zone tap spec).fault, ledger, outside)
  | .putDense mode leg zone tap value =>
    if spec.HasCell zone tap then
      (.visible ((ledger.cells.get? (mode, leg, zone, tap)).getD value),
        { ledger with cells := ledger.cells.write (mode, leg, zone, tap) value }, outside)
    else (.failed (Cache.Refusal.outsideDense mode leg zone tap spec).fault, ledger, outside)
  | .stats => (.counted ⟨ledger.pairs.size, ledger.hits, ledger.misses⟩, ledger, outside)

end Ledger

/-- Carries out operations one after the other. -/
def observe {σ τ : Type} (perform : σ → τ → CacheOperation τ → CacheObservation × σ × τ) :
    List (CacheOperation τ) → σ → τ → List CacheObservation × σ × τ
  | [], state, outside => ([], state, outside)
  | operation :: rest, state, outside =>
    let (seen, state, outside) := perform state outside operation
    let (others, final) := observe perform rest state outside
    (seen :: others, final)

namespace UtilityCache

variable {spec : CacheSpec} {cache : UtilityCache} {ledger : Ledger} {key : UtilityKey}
  {value : Utilities} {τ : Type} {outside : τ}

/-- A cache holds what a ledger holds. -/
structure Tracks (spec : CacheSpec) (cache : UtilityCache) (ledger : Ledger) : Prop where
  laid : cache.Laid spec
  gridded : cache.Gridded spec
  pairs : ∀ key, cache.stored key = ledger.pairs.get? key
  cells : ∀ cell, cache.storedDense cell = ledger.cells.get? cell
  entries : cache.entries = ledger.pairs.size
  hits : cache.hits = ledger.hits
  misses : cache.misses = ledger.misses

theorem tracks_empty (spec : CacheSpec) : (empty spec).Tracks spec .empty where
  laid := laid_empty spec
  gridded := gridded_empty spec
  pairs key := stored_empty spec key
  cells cell := storedDense_empty spec cell
  entries := entries_empty spec
  hits := rfl
  misses := rfl

theorem Tracks.countLookup (tracks : cache.Tracks spec ledger) (key : UtilityKey) :
    (cache.countLookup (cache.stored key).isSome).Tracks spec (ledger.countLookup key) := by
  unfold UtilityCache.countLookup Ledger.countLookup
  rw [tracks.pairs]
  split
  · exact { tracks with
      laid := ⟨tracks.laid.dimensions, tracks.laid.slots⟩
      gridded := ⟨tracks.gridded.dimensions, tracks.gridded.shaped⟩
      hits := congrArg (· + 1) tracks.hits }
  · exact { tracks with
      laid := ⟨tracks.laid.dimensions, tracks.laid.slots⟩
      gridded := ⟨tracks.gridded.dimensions, tracks.gridded.shaped⟩
      misses := congrArg (· + 1) tracks.misses }

theorem Tracks.put (tracks : cache.Tracks spec ledger) (valid : spec.validate = .ok ())
    (accepts : spec.Accepts key) (value : Utilities) :
    (cache.put key value).2.Tracks spec (ledger.store key value) := by
  have laid := laid_put tracks.laid key value
  have pairs := stored_put valid tracks.laid accepts value
  have entries := entries_put tracks.laid accepts value
  obtain ⟨paths, same⟩ := put_frame cache key value
  rw [same] at laid pairs entries ⊢
  refine ⟨laid, ⟨tracks.gridded.dimensions, tracks.gridded.shaped⟩, fun other => ?_, tracks.cells, ?_,
    tracks.hits, tracks.misses⟩
  · rw [pairs, tracks.pairs, tracks.pairs, Ledger.store, WriteOnce.get?_write]
  · rw [entries, tracks.entries, tracks.pairs, Ledger.store, WriteOnce.size_write]

theorem Tracks.putDense (tracks : cache.Tracks spec ledger) (mode : AccessMode) (leg : Leg)
    {zone tap : UInt32} (within : spec.HasCell zone tap) (value : Utilities) :
    (cache.putDense mode leg zone tap value).2.Tracks spec
      { ledger with cells := ledger.cells.write (mode, leg, zone, tap) value } := by
  have gridded := gridded_putDense tracks.gridded mode leg within value
  have cells := storedDense_putDense tracks.gridded mode leg within value
  obtain ⟨dense, same⟩ := putDense_frame cache mode leg zone tap value
  rw [same] at gridded cells ⊢
  refine ⟨⟨tracks.laid.dimensions, tracks.laid.slots⟩, gridded, tracks.pairs, fun cell => ?_,
    tracks.entries, tracks.hits, tracks.misses⟩
  rw [cells, tracks.cells, tracks.cells, WriteOnce.get?_write]

/-- An operation gives back the same from a cache as from what tracks it, and does the
same outside. -/
theorem Tracks.perform (tracks : cache.Tracks spec ledger) (valid : spec.validate = .ok ())
    (outside : τ) (operation : CacheOperation τ) :
    (cache.perform outside operation).1 = (ledger.perform spec outside operation).1 ∧
      (cache.perform outside operation).2.2 = (ledger.perform spec outside operation).2.2 ∧
      (cache.perform outside operation).2.1.Tracks spec (ledger.perform spec outside operation).2.1 := by
  cases operation with
  | get key =>
    simp only [UtilityCache.perform, Ledger.perform]
    by_cases accepts : spec.Accepts key
    · rw [get_of_accepts tracks.laid accepts, if_pos accepts]
      exact ⟨congrArg CacheObservation.found (tracks.pairs key), rfl, tracks.countLookup key⟩
    · rw [get_of_refused tracks.laid accepts, if_neg accepts]
      exact ⟨rfl, rfl, tracks⟩
  | put key value =>
    simp only [UtilityCache.perform, Ledger.perform]
    by_cases accepts : spec.Accepts key
    · rw [put_fst tracks.laid accepts, if_pos accepts, tracks.pairs]
      exact ⟨rfl, rfl, tracks.put valid accepts value⟩
    · rw [put_of_refused tracks.laid accepts, if_neg accepts]
      exact ⟨rfl, rfl, tracks⟩
  | getOrCompute key compute =>
    simp only [UtilityCache.perform, Ledger.perform]
    by_cases accepts : spec.Accepts key
    · rw [if_pos accepts, ← tracks.pairs]
      have counted := tracks.countLookup key
      cases held : cache.stored key with
      | some stored =>
        rw [held] at counted
        rw [getOrCompute_of_stored tracks.laid accepts held]
        exact ⟨rfl, rfl, counted⟩
      | none =>
        rw [held, Option.isSome_none] at counted
        rw [getOrCompute_of_not_stored tracks.laid accepts held]
        rcases compute outside with ⟨fault | value, outside'⟩
        · exact ⟨rfl, rfl, counted⟩
        · have visible : ((cache.countLookup false).put key value).1 = .ok value := by
            rw [put_fst counted.laid accepts, stored_countLookup, held, Option.getD_none]
          exact ⟨congrArg CacheObservation.ofWrite visible, rfl, counted.put valid accepts value⟩
    · rw [getOrCompute_of_refused tracks.laid accepts, if_neg accepts]
      exact ⟨rfl, rfl, tracks⟩
  | getDense mode leg zone tap =>
    simp only [UtilityCache.perform, Ledger.perform]
    by_cases within : spec.HasCell zone tap
    · rw [getDense_of_within tracks.gridded within, if_pos within, tracks.cells]
      exact ⟨rfl, rfl, tracks⟩
    · rw [getDense_of_outside tracks.gridded within, if_neg within]
      exact ⟨rfl, rfl, tracks⟩
  | putDense mode leg zone tap value =>
    simp only [UtilityCache.perform, Ledger.perform]
    by_cases within : spec.HasCell zone tap
    · have written := tracks.putDense mode leg within value
      rw [if_pos within]
      refine ⟨?_, rfl, written⟩
      rw [putDense_of_within tracks.gridded within, tracks.cells]
      rfl
    · rw [putDense_of_outside tracks.gridded within, if_neg within]
      exact ⟨rfl, rfl, tracks⟩
  | stats =>
    refine ⟨?_, rfl, tracks⟩
    simp only [UtilityCache.perform, Ledger.perform, UtilityCache.stats, tracks.entries, tracks.hits,
      tracks.misses]

/-- So do operations that are carried out one after the other. -/
theorem Tracks.observe (valid : spec.validate = .ok ()) (operations : List (CacheOperation τ))
    (tracks : cache.Tracks spec ledger) (outside : τ) :
    (observe UtilityCache.perform operations cache outside).1 =
        (observe (Ledger.perform spec) operations ledger outside).1 ∧
      (observe UtilityCache.perform operations cache outside).2.2 =
        (observe (Ledger.perform spec) operations ledger outside).2.2 ∧
      (observe UtilityCache.perform operations cache outside).2.1.Tracks spec
        (observe (Ledger.perform spec) operations ledger outside).2.1 := by
  induction operations generalizing cache ledger outside with
  | nil => exact ⟨rfl, rfl, tracks⟩
  | cons operation rest ih =>
    obtain ⟨seen, after, held⟩ := tracks.perform valid outside operation
    obtain ⟨others, final, holds⟩ := ih held (cache.perform outside operation).2.2
    simp only [Accessibility.observe]
    rw [← after]
    exact ⟨List.cons_eq_cons.mpr ⟨seen, others⟩, final, holds⟩

/-- What lies outside the dimensions is refused, and that changes nothing. -/
theorem Tracks.perform_of_refused (tracks : cache.Tracks spec ledger) (outside : τ)
    {operation : CacheOperation τ} (refused : ¬ operation.Accepted spec) :
    ∃ text, cache.perform outside operation = (.failed (.lookup text), cache, outside) := by
  cases operation with
  | get key =>
    obtain ⟨text, worded⟩ := fault_refusalOf spec key
    refine ⟨text, ?_⟩
    simp only [UtilityCache.perform, get_of_refused tracks.laid refused, worded]
    rfl
  | put key value =>
    obtain ⟨text, worded⟩ := fault_refusalOf spec key
    refine ⟨text, ?_⟩
    simp only [UtilityCache.perform, put_of_refused tracks.laid refused, worded]
    rfl
  | getOrCompute key compute =>
    obtain ⟨text, worded⟩ := fault_refusalOf spec key
    refine ⟨text, ?_⟩
    simp only [UtilityCache.perform, getOrCompute_of_refused tracks.laid refused, worded]
    rfl
  | getDense mode leg zone tap =>
    simp only [UtilityCache.perform, getDense_of_outside tracks.gridded refused]
    exact ⟨_, rfl⟩
  | putDense mode leg zone tap value =>
    simp only [UtilityCache.perform, putDense_of_outside tracks.gridded refused]
    exact ⟨_, rfl⟩
  | stats => exact absurd trivial refused

/-- What lies within the dimensions fails only where a computation does, and then nothing
is stored: a lookup that found no value is counted. -/
theorem Tracks.failed_of_accepted (tracks : cache.Tracks spec ledger) {outside : τ}
    {operation : CacheOperation τ} (accepted : operation.Accepted spec) {fault : Fault}
    (failed : (cache.perform outside operation).1 = .failed fault) :
    ∃ key compute, operation = .getOrCompute key compute ∧ cache.stored key = none ∧
      cache.perform outside operation =
        (.failed fault, { cache with misses := cache.misses + 1 }, (compute outside).2) ∧
      (compute outside).1 = .error fault := by
  cases operation with
  | get key =>
    simp only [UtilityCache.perform, get_of_accepts tracks.laid accepted] at failed
    cases failed
  | put key value =>
    simp only [UtilityCache.perform, put_fst tracks.laid accepted] at failed
    cases failed
  | getOrCompute key compute =>
    simp only [UtilityCache.perform] at failed ⊢
    cases held : cache.stored key with
    | some stored =>
      rw [getOrCompute_of_stored tracks.laid accepted held] at failed
      cases failed
    | none =>
      have counted := tracks.countLookup key
      rw [held, Option.isSome_none] at counted
      rw [getOrCompute_of_not_stored tracks.laid accepted held] at failed ⊢
      refine ⟨key, compute, rfl, held, ?_⟩
      rcases computed : compute outside with ⟨fault' | value, outside'⟩
      · rw [computed] at failed
        cases failed
        exact ⟨rfl, rfl⟩
      · rw [computed] at failed
        simp only [put_fst counted.laid accepted] at failed
        cases failed
  | getDense mode leg zone tap =>
    simp only [UtilityCache.perform, getDense_of_within tracks.gridded accepted] at failed
    cases failed
  | putDense mode leg zone tap value =>
    simp only [UtilityCache.perform, putDense_of_within tracks.gridded accepted] at failed
    cases failed
  | stats => cases failed

/-- No sequence of operations tells a cache from two write-once maps with two counters:
what it gives back, what it computes and what it counts are the same. What lies outside
the dimensions is refused as a failed lookup, which computes nothing and changes nothing.
Within them an operation fails only as its computation does, and then stores nothing. -/
theorem observations_agree (created : create spec = .ok cache) (operations : List (CacheOperation τ))
    (outside : τ) :
    let (seen, reached, left) := observe UtilityCache.perform operations cache outside
    let (expected, ledger, right) := observe (Ledger.perform spec) operations .empty outside
    seen = expected ∧ left = right ∧ reached.stats = ⟨ledger.pairs.size, ledger.hits, ledger.misses⟩ ∧
      (∀ operation : CacheOperation τ, ¬ operation.Accepted spec →
        ∃ text, reached.perform left operation = (.failed (.lookup text), reached, left)) ∧
      ∀ (operation : CacheOperation τ) (fault : Fault), operation.Accepted spec →
        (reached.perform left operation).1 = .failed fault →
        ∃ key compute, operation = .getOrCompute key compute ∧ reached.stored key = none ∧
          reached.perform left operation =
            (.failed fault, { reached with misses := reached.misses + 1 }, (compute left).2) ∧
          (compute left).1 = .error fault := by
  obtain ⟨valid, rfl⟩ := (create_eq_ok_iff spec cache).mp created
  obtain ⟨seen, after, tracks⟩ := (tracks_empty spec).observe valid operations outside
  refine ⟨seen, after, ?_, fun operation refused => tracks.perform_of_refused _ refused,
    fun operation fault accepted failed => tracks.failed_of_accepted accepted failed⟩
  rw [UtilityCache.stats, tracks.entries, tracks.hits, tracks.misses]

theorem observations_agree_small :
    create ⟨2, 1, 1, 2⟩ = .ok (empty ⟨2, 1, 1, 2⟩) ∧
      (observe UtilityCache.perform
        [.getOrCompute ⟨0, 1, 0, 2⟩ fun calls => (.error (.lookup "no path"), calls + 1),
          .getOrCompute ⟨0, 1, 0, 2⟩ fun calls => (.ok [.zero], calls + 1),
          .getOrCompute ⟨0, 1, 0, 2⟩ fun calls => (.ok [], calls + 1),
          .getOrCompute ⟨0, 2, 0, 2⟩ fun calls => (.ok [], calls + 1),
          .put ⟨0, 1, 0, 2⟩ [], .get ⟨0, 0, 0, 2⟩, .putDense .walk .egress 2 1 [],
          .getDense .walk .access 2 1, .getDense .walk .egress 2 1, .stats]
        (empty ⟨2, 1, 1, 2⟩) 0).1 =
        [.failed (.lookup "no path"), .visible [.zero], .visible [.zero],
          .failed (Cache.Refusal.noSlot ⟨0, 2, 0, 2⟩ ⟨2, 1, 1, 2⟩).fault, .visible [.zero],
          .found none, .visible [], .found none, .found (some []), .counted ⟨1, 1, 3⟩] := by
  have created : create ⟨2, 1, 1, 2⟩ = .ok (empty ⟨2, 1, 1, 2⟩) := rfl
  refine ⟨created, (observations_agree created _ 0).1.trans ?_⟩
  rfl

end UtilityCache

end Accessibility
