import Accessibility.Evaluation.Evaluator
import Accessibility.Proofs.Evaluation.Interference
import Accessibility.Proofs.Evaluation.Service

/-! The cache does not show in a gravity evaluation. An impedance is stored under its slot
and its pair of zones, and depends on nothing but the decay and the zone system; so
evaluators that share these find in the cache what they would compute, whatever their
alternatives and their markets, and an evaluation that fails leaves nothing wrong behind
(`runAll_program`). -/
namespace Accessibility

namespace Evaluation

variable {α β : Type} {agreement : CacheAgreement} {program : Evaluation α}

theorem runAlone_cached (key : UtilityKey) (compute : Unit → Outcome Utilities) :
    (cached key compute).runAlone = compute () := by
  simp only [cached, runAlone, CacheRequest.answerAlone]
  cases compute () <;> rfl

/-- A program that keeps an agreement and in which the cache does not show. -/
def Transparent (agreement : CacheAgreement) (program : Evaluation α) : Prop :=
  ∀ cache, agreement.valid cache →
    Keeps agreement (fun result _ => result = program.runAlone) program cache

theorem transparent_done (result : Outcome α) : (done result).Transparent agreement :=
  fun _ _ => .done fun _ _ _ => rfl

theorem Transparent.bind {next : α → Evaluation β} (transparent : program.Transparent agreement)
    (goesOn : ∀ value, program.runAlone = .ok value → (next value).Transparent agreement) :
    (program.bind next).Transparent agreement := by
  intro cache valid
  refine (transparent cache valid).bind valid ?_ ?_
  · intro value current kept same
    refine (goesOn value same.symm current kept).weaken fun result _ _ alone => ?_
    rw [alone, runAlone_bind, ← same]
    rfl
  · intro fault current same
    rw [runAlone_bind, ← same]
    rfl

/-- A computing lookup is transparent if nothing but what it computes is right for its key. -/
theorem transparent_cached {spec : CacheSpec} {right : UtilityKey → Utilities → Prop}
    {key : UtilityKey} {compute : Unit → Outcome Utilities} (sized : spec.validate = .ok ())
    (accepts : spec.Accepts key) (unique : ∀ value, right key value ↔ compute () = .ok value) :
    (cached key compute).Transparent (.writeOnce spec right) := by
  intro cache valid
  refine (keeps_cached sized (fun value => (unique value).mpr) cache).weaken ?_
  intro result current kept answered
  rw [runAlone_cached]
  cases result with
  | ok value => exact ((unique value).mp (kept.2 key value answered)).symm
  | error fault =>
    obtain refused | failed := answered
    · exact absurd accepts refused
    · exact failed.symm

/-- Programs one after the other over one cache. -/
def runAll : List (Evaluation α) → UtilityCache → List (Outcome α) × UtilityCache
  | [], cache => ([], cache)
  | program :: rest, cache =>
    let (result, cache) := program.run cache
    let (results, cache) := runAll rest cache
    (result :: results, cache)

/-- Transparent programs end as they do without a cache, and leave the cache as agreed. -/
theorem runAll_of_transparent {programs : List (Evaluation α)}
    (transparent : ∀ program ∈ programs, program.Transparent agreement) {cache : UtilityCache}
    (valid : agreement.valid cache) :
    (runAll programs cache).1 = programs.map runAlone ∧ agreement.valid (runAll programs cache).2 := by
  induction programs generalizing cache with
  | nil => exact ⟨rfl, valid⟩
  | cons program rest ih =>
    obtain ⟨kept, _, alone⟩ := (transparent program (List.mem_cons_self ..) cache valid).run valid
    obtain ⟨others, final⟩ := ih (fun later there => transparent later (List.mem_cons_of_mem _ there)) kept
    exact ⟨List.cons_eq_cons.mpr ⟨alone, others⟩, final⟩

end Evaluation

namespace Evaluator.Gravity

variable {gravity : Gravity} {zones : ZoneSystem} {spec : CacheSpec} {origin destination : UInt32}

/-- What may be stored under the slot of an evaluator: the impedance of the pair. -/
def Right (gravity : Gravity) (zones : ZoneSystem) (key : UtilityKey) (value : Utilities) : Prop :=
  key.segment = gravity.segment → key.period = gravity.period →
    (gravity.impedance zones key.origin key.destination).map ([·]) = .ok value

/-- A cache with the slot of an evaluator, whose bound covers the zones. -/
structure Covers (spec : CacheSpec) (gravity : Gravity) (zones : ZoneSystem) : Prop where
  sized : spec.validate = .ok ()
  slot : gravity.segment < spec.segments ∧ gravity.period < spec.periods
  bound : ∀ zone ∈ zones.zones, zone.id ≤ spec.maxEndpoint

/-- The impedance of a pair, through a cache or not. -/
theorem runAlone_cachedImpedance (gravity : Gravity) (zones : ZoneSystem) (origin destination : UInt32) :
    (gravity.cachedImpedance zones origin destination).runAlone =
      (gravity.impedance zones origin destination).map Single.toDouble := by
  show (Evaluation.bind _ _).runAlone = _
  rw [Evaluation.runAlone_bind, Evaluation.runAlone_cached]
  cases gravity.impedance zones origin destination <;> rfl

theorem transparent_cachedImpedance (covers : Covers spec gravity zones)
    (within : origin ≤ spec.maxEndpoint) (within' : destination ≤ spec.maxEndpoint) :
    (gravity.cachedImpedance zones origin destination).Transparent (.writeOnce spec (gravity.Right zones)) := by
  refine Evaluation.Transparent.bind (Evaluation.transparent_cached covers.sized
    ⟨covers.slot, within, within'⟩ fun value => ⟨fun right => right rfl rfl, fun same _ _ => same⟩) ?_
  intro utilities _
  split <;> exact Evaluation.transparent_done _

/-- The sums over destinations within the bound. -/
theorem transparent_sumOver (covers : Covers spec gravity zones) (within : origin ≤ spec.maxEndpoint)
    {inputs : JobInputs} (same : inputs.zones = zones) (constant : Double)
    {destinations : List Zone} (inside : ∀ zone ∈ destinations, zone.id ≤ spec.maxEndpoint)
    (sums : List Double) :
    (gravity.sumOver inputs constant origin destinations sums).Transparent
      (.writeOnce spec (gravity.Right zones)) := by
  induction destinations generalizing sums with
  | nil => exact Evaluation.transparent_done _
  | cons destination rest ih =>
    have later := ih fun zone there => inside zone (List.mem_cons_of_mem _ there)
    unfold sumOver
    split
    · rw [same]
      apply Evaluation.Transparent.bind
        (transparent_cachedImpedance covers within (inside destination (List.mem_cons_self ..)))
      intro impedance _
      exact Evaluation.Transparent.bind (Evaluation.transparent_done _) fun sums _ => later sums
    · exact later sums

/-- An evaluation for an origin within the bound, on inputs with the zone system. -/
theorem transparent_accessibility (covers : Covers spec gravity zones)
    (within : origin ≤ spec.maxEndpoint) {context : Context}
    (same : ∀ inputs, context.inputs = some inputs → inputs.zones = zones) :
    (gravity.accessibility origin context).Transparent (.writeOnce spec (gravity.Right zones)) := by
  unfold accessibility
  split
  next => exact Evaluation.transparent_done _
  next inputs given =>
    split
    · exact Evaluation.transparent_done _
    · apply Evaluation.Transparent.bind (Evaluation.transparent_done _)
      intro constant _
      refine Evaluation.Transparent.bind (transparent_sumOver covers within (same inputs given) constant
        (fun zone there => ?_) _) fun _ _ => Evaluation.transparent_done _
      rw [same inputs given] at there
      exact covers.bound zone (Array.mem_toList_iff.mp there)

/-- A call of an evaluator that has decay and slot in common with others, with alternatives
and a market of its own. -/
structure Call where
  names : List String
  market : Nat
  origin : UInt32
  context : Context

def Call.program (gravity : Gravity) (call : Call) : Evaluation (List Double) :=
  { gravity with names := call.names, market := call.market }.accessibility call.origin call.context

/-- Called one after the other over a new cache, evaluators answer and fail as they do
without a cache. All that is ever stored under their slot are impedances, one number for
each pair, so that the impedance of any pair is the same through the cache as without. -/
theorem runAll_program (covers : Covers spec gravity zones) (calls : List Call)
    (within : ∀ call ∈ calls, call.origin ≤ spec.maxEndpoint)
    (same : ∀ call ∈ calls, ∀ inputs, call.context.inputs = some inputs → inputs.zones = zones) :
    let (answers, cache) := Evaluation.runAll (calls.map (·.program gravity)) (.empty spec)
    answers = calls.map (fun call => (call.program gravity).runAlone) ∧
      (∀ origin destination value,
        cache.stored ⟨gravity.segment, gravity.period, origin, destination⟩ = some value →
        ∃ distance, zones.distance origin destination = .ok distance ∧
          value = [(-gravity.decay * distance).toSingle]) ∧
      ∀ origin destination, origin ≤ spec.maxEndpoint → destination ≤ spec.maxEndpoint →
        ((gravity.cachedImpedance zones origin destination).run cache).1 =
          (gravity.impedance zones origin destination).map Single.toDouble := by
  have transparent : ∀ program ∈ calls.map (·.program gravity),
      program.Transparent (.writeOnce spec (gravity.Right zones)) := by
    intro program there
    obtain ⟨call, called, rfl⟩ := List.mem_map.mp there
    have others : Covers spec { gravity with names := call.names, market := call.market } zones :=
      ⟨covers.sized, covers.slot, covers.bound⟩
    exact transparent_accessibility others (within call called) (same call called)
  obtain ⟨answers, kept⟩ :=
    Evaluation.runAll_of_transparent transparent (CacheAgreement.writeOnce_empty spec (gravity.Right zones))
  refine ⟨answers.trans (List.map_map ..), fun origin destination value stored => ?_,
    fun origin destination near far => ?_⟩
  · have computed := kept.2 _ value stored rfl rfl
    unfold impedance at computed
    cases measured : zones.distance origin destination with
    | error fault =>
      rw [measured] at computed
      cases computed
    | ok distance =>
      rw [measured] at computed
      cases computed
      exact ⟨distance, rfl, rfl⟩
  · obtain ⟨_, _, alone⟩ := (transparent_cachedImpedance covers near far _ kept).run kept
    exact alone.trans (runAlone_cachedImpedance ..)

/-- Two zones five apart, the second with something to reach. -/
def twoZones : JobInputs where
  zones := ⟨[], #[⟨1, .zero, .zero, ⟨0, 0⟩, []⟩, ⟨3, ⟨0x4008000000000000⟩, ⟨0x4010000000000000⟩, ⟨0, 0⟩, []⟩]⟩
  sizeTerms := ⟨["jobs"], 3, #[.zero, .zero, .zero, .one], #[false, false, false, true]⟩
  constants := ⟨["auto"], #[.one, .one]⟩
  cacheSpec := ⟨3, 0, 1, 1⟩

/-- An answer, a fault for a wrong number of alternatives, and an answer for another market. -/
def threeCalls : List Call :=
  [⟨["jobs"], 0, 1, .ofJob twoZones⟩, ⟨["jobs", "shops"], 0, 1, .ofJob twoZones⟩,
    ⟨["jobs"], 1, 1, .ofJob twoZones⟩]

theorem runAll_threeCalls :
    (Evaluation.runAll (threeCalls.map (·.program ⟨[], .one, 0, 0, 0⟩)) (.empty ⟨3, 0, 1, 1⟩)).1 =
      threeCalls.map fun call => (call.program ⟨[], .one, 0, 0, 0⟩).runAlone := by
  have covers : Covers ⟨3, 0, 1, 1⟩ ⟨[], .one, 0, 0, 0⟩ twoZones.zones :=
    ⟨rfl, by decide, by decide⟩
  refine (runAll_program covers threeCalls (by decide) fun call called inputs given => ?_).1
  have common : ∀ call ∈ threeCalls, call.context = .ofJob twoZones := by simp [threeCalls]
  rw [common call called] at given
  cases given
  rfl

end Evaluator.Gravity

end Accessibility
