import Accessibility.Packet.Result

/-! Which keys an evaluation looks up. A program that visits keys looks them up in their order, each
once, and stores a value under each that it does not find before it goes on; only a fault cuts it
short (`Visits.course`). The gravity evaluation of an origin visits the pairs to the zones that have
a size term, in ascending order, and a packet those of its zones one after the other. -/
namespace Accessibility

variable {α β : Type}

namespace Evaluation

/-- A program that has still to look up keys, and before that to store a value under the key that it
has just missed. A fault may end it at any time. -/
inductive Visits : Option UtilityKey → List UtilityKey → Evaluation α → Prop where
  | failed (missed : Option UtilityKey) (keys : List UtilityKey) (fault : Fault) :
      Visits missed keys (.done (.error fault))
  | done (value : α) : Visits none [] (.done (.ok value))
  | look {key : UtilityKey} {keys : List UtilityKey}
      {next : (CacheRequest.get key).Answer → Evaluation α}
      (seen : ∀ answer, answer ≠ .ok none → Visits none keys (next answer))
      (missed : Visits (some key) keys (next (.ok none))) :
      Visits none (key :: keys) (.ask (.get key) next)
  | store {key : UtilityKey} {value : Utilities} {keys : List UtilityKey}
      {next : (CacheRequest.put key value).Answer → Evaluation α}
      (stored : ∀ answer, Visits none keys (next answer)) :
      Visits (some key) keys (.ask (.put key value) next)

variable {missed : Option UtilityKey} {keys more looked : List UtilityKey} {program : Evaluation α}
  {next : α → Evaluation β} {result : Outcome α}

theorem Visits.bind (visits : Visits missed keys program) (onward : ∀ value, Visits none more (next value)) :
    Visits missed (keys ++ more) (program.bind next) := by
  induction visits with
  | failed missed keys fault => exact .failed missed _ fault
  | done value => exact onward value
  | look _ _ seen missed => exact .look seen missed
  | store _ stored => exact .store stored

theorem Visits.bind_last (visits : Visits missed keys program)
    (onward : ∀ value, Visits none [] (next value)) : Visits missed keys (program.bind next) := by
  rw [← List.append_nil keys]
  exact visits.bind onward

/-- A value that goes through the cache is looked up once. -/
theorem visits_cached (key : UtilityKey) (compute : Unit → Outcome Utilities) :
    Visits none [key] (cached key compute) := by
  refine .look (fun answer other => ?_) ?_
  · match answer with
    | .error fault => exact .failed none [] fault
    | .ok (some value) => exact .done value
    | .ok none => exact absurd rfl other
  · dsimp only
    split
    · exact .failed _ _ _
    · refine .store fun answer => ?_
      cases answer with
      | error fault => exact .failed none [] fault
      | ok value => exact .done value

theorem visits_ofOutcome (outcome : Outcome α) : Visits none [] (ofOutcome outcome) := by
  cases outcome with
  | error fault => exact .failed none [] fault
  | ok value => exact .done value

/-- Some caches, one for each request, lead the program to the result, over lookups of these keys. -/
inductive Course : Evaluation α → List UtilityKey → Outcome α → Prop where
  | done (result : Outcome α) : Course (.done result) [] result
  | look {key : UtilityKey} {next : (CacheRequest.get key).Answer → Evaluation α}
      {keys : List UtilityKey} {result : Outcome α} (cache : UtilityCache)
      (goesOn : Course (next (cache.get key).1) keys result) :
      Course (.ask (.get key) next) (key :: keys) result
  | other {request : CacheRequest} {next : request.Answer → Evaluation α} {keys : List UtilityKey}
      {result : Outcome α} (cache : UtilityCache) (unlike : ∀ key, request ≠ .get key)
      (goesOn : Course (next (cache.serve request).1) keys result) :
      Course (.ask request next) keys result

/-- A run over one cache is a course. -/
theorem exists_course_run (program : Evaluation α) (cache : UtilityCache) :
    ∃ keys, program.Course keys (program.run cache).1 := by
  induction program generalizing cache with
  | done result => exact ⟨[], .done result⟩
  | ask request next ih =>
    obtain ⟨keys, goesOn⟩ := ih (cache.serve request).1 (cache.serve request).2
    cases request with
    | get key => exact ⟨key :: keys, .look cache goesOn⟩
    | put | getDense | putDense => exact ⟨keys, .other cache (fun _ => nofun) goesOn⟩

/-- A program that visits keys looks them all up in their order if it ends in a value, and the first
of them if it ends in a fault. -/
theorem Visits.course (visits : Visits missed keys program) (course : program.Course looked result) :
    looked <+: keys ∧ ∀ value, result = .ok value → looked = keys := by
  induction visits generalizing looked with
  | failed missed keys fault =>
    cases course
    exact ⟨List.nil_prefix, nofun⟩
  | done value =>
    cases course
    exact ⟨List.prefix_rfl, fun _ _ => rfl⟩
  | @look key keys next _ _ seen missed =>
    cases course with
    | other cache unlike _ => exact absurd rfl (unlike key)
    | @look _ _ keys' _ cache goesOn =>
      obtain ⟨first, whole⟩ : keys' <+: keys ∧ ∀ value, result = .ok value → keys' = keys := by
        by_cases unseen : (cache.get key).1 = .ok none
        · rw [unseen] at goesOn
          exact missed goesOn
        · exact seen _ unseen goesOn
      exact ⟨List.cons_prefix_cons.mpr ⟨rfl, first⟩, fun value same => by rw [whole value same]⟩
  | store _ stored =>
    cases course with
    | other cache _ goesOn => exact stored _ goesOn

end Evaluation

open Evaluation

namespace Evaluator.Gravity

variable (gravity : Gravity) (inputs : JobInputs)

/-- The zones that have a size term, in ascending order. -/
def destinations : List UInt32 :=
  (inputs.zones.zones.toList.map (·.id)).filter inputs.sizeTerms.hasSizeTerm

/-- The keys of the pairs from an origin to the zones that have a size term. -/
def keysFrom (origin : UInt32) : List UtilityKey :=
  (destinations inputs).map fun destination =>
    ⟨gravity.segment, gravity.period, origin, destination⟩

theorem visits_cachedImpedance (zones : ZoneSystem) (origin destination : UInt32) :
    Visits none [⟨gravity.segment, gravity.period, origin, destination⟩]
      (gravity.cachedImpedance zones origin destination) := by
  unfold cachedImpedance
  apply (visits_cached ..).bind_last
  intro utilities
  split
  · exact .done _
  · exact .failed _ _ _

theorem visits_sumOver (constant : Double) (origin : UInt32) (zones : List Zone) (sums : List Double) :
    Visits none (((zones.map (·.id)).filter inputs.sizeTerms.hasSizeTerm).map fun destination =>
        (⟨gravity.segment, gravity.period, origin, destination⟩ : UtilityKey))
      (gravity.sumOver inputs constant origin zones sums) := by
  induction zones generalizing sums with
  | nil => exact .done sums
  | cons destination rest ih =>
    unfold sumOver
    split
    next flagged =>
      rw [List.map_cons, List.filter_cons_of_pos flagged, List.map_cons]
      refine (visits_cachedImpedance gravity ..).bind fun impedance => ?_
      exact (visits_ofOutcome _).bind fun sums => ih sums
    next unflagged =>
      rw [List.map_cons, List.filter_cons_of_neg unflagged]
      exact ih sums

/-- The evaluation of an origin looks up the zones that have a size term. -/
theorem visits_accessibility (origin : UInt32) :
    Visits none (gravity.keysFrom inputs origin) (gravity.accessibility origin (.ofJob inputs)) := by
  unfold accessibility
  simp only [Context.ofJob]
  split
  · exact .failed _ _ _
  · refine (visits_ofOutcome _).bind fun constant => ?_
    exact (visits_sumOver gravity inputs constant origin inputs.zones.zones.toList _).bind_last
      fun sums => .done (sums.map Double.logOnePlus)

end Evaluator.Gravity

namespace Packet

variable {evaluator : Evaluator} {context : Context} {keysOf : UInt32 → List UtilityKey}

theorem visits_computeRows
    (visits : ∀ zone, Visits none (keysOf zone) (evaluator.evaluate zone context))
    (zones : List UInt32) (values : Array Single) :
    Visits none (zones.flatMap keysOf) (computeRows evaluator context zones values) := by
  induction zones generalizing values with
  | nil => exact .done values
  | cons zone rest ih =>
    rw [List.flatMap_cons]
    refine (visits zone).bind fun row => ?_
    exact (visits_ofOutcome _).bind fun singles => ih _

/-- A packet looks up what its zones do, one after the other. -/
theorem visits_compute
    (visits : ∀ zone, Visits none (keysOf zone) (evaluator.evaluate zone context))
    {packet : Packet} {zoneIds : Array UInt32} {zones : List UInt32}
    (inside : packet.zonesOf zoneIds = .ok zones) :
    Visits none (zones.flatMap keysOf) (packet.compute zoneIds evaluator context) := by
  unfold compute
  rw [inside]
  exact (visits_computeRows visits zones #[]).bind_last fun values => .done _

end Packet

end Accessibility
