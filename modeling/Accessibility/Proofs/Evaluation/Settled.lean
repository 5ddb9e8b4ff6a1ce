import Accessibility.Proofs.Evaluation.Gravity
import Accessibility.Proofs.Packet.Answer

/-! Evaluations that cannot tell one agreed cache from another. Unlike a transparent program
a settled one need not end as it would without a cache: a key that the cache refuses is
refused by all caches of its dimensions, in the same words. A gravity evaluation is settled
on a cache that served other jobs if none of them gave another impedance to a pair that it
consults (`exists_settled_accessibility`), and whether or not, it leaves nothing in the cache
but impedances (`minds_accessibility`). -/
namespace Accessibility

namespace Evaluation

variable {α β : Type} {agreement : CacheAgreement} {program : Evaluation α} {result : Outcome β}

/-- A program that keeps an agreement and ends in the same result on all agreed caches. -/
def Settled (agreement : CacheAgreement) (result : Outcome α) (program : Evaluation α) : Prop :=
  ∀ cache, agreement.valid cache → Keeps agreement (fun found _ => found = result) program cache

theorem settled_done (result : Outcome α) : Settled agreement result (.done result) :=
  fun _ _ => .done fun _ _ _ => rfl

theorem Settled.bind {middle : Outcome α} {next : α → Evaluation β} (settled : Settled agreement middle program)
    (goesOn : ∀ value, middle = .ok value → Settled agreement result (next value))
    (fails : ∀ fault, middle = .error fault → result = .error fault) :
    Settled agreement result (program.bind next) := by
  intro cache valid
  refine (settled cache valid).bind valid ?_ ?_
  · intro value current kept same
    exact goesOn value same.symm current kept
  · intro fault current same
    exact (fails fault same.symm).symm

/-- On an agreed cache a settled program ends in its result. -/
theorem Settled.run_eq {result : Outcome α} (settled : Settled agreement result program) {cache : UtilityCache}
    (valid : agreement.valid cache) : (program.run cache).1 = result :=
  ((settled cache valid).run valid).2.2

/-- A program that keeps an agreement, whatever it ends in. -/
def Minds (agreement : CacheAgreement) (program : Evaluation α) : Prop :=
  ∀ cache, agreement.valid cache → Keeps agreement (fun _ _ => True) program cache

/-- A kind of programs that has with two programs the one after the other. -/
structure Composes (kind : (α : Type) → Evaluation α → Prop) : Prop where
  done {α : Type} (result : Outcome α) : kind α (.done result)
  bind {α β : Type} {program : Evaluation α} {next : α → Evaluation β} :
    kind α program → (∀ value, kind β (next value)) → kind β (program.bind next)

theorem composes_minds (agreement : CacheAgreement) : Composes fun _ => Minds agreement where
  done _ _ _ := .done fun _ _ _ => trivial
  bind first goesOn cache valid :=
    (first cache valid).bind valid (fun value current kept _ => goesOn value current kept) fun _ _ _ => trivial

theorem composes_settled (agreement : CacheAgreement) :
    Composes fun _ program => ∃ result, Settled agreement result program where
  done result := ⟨result, settled_done result⟩
  bind := by
    rintro α β program next ⟨middle, settled⟩ goesOn
    cases middle with
    | ok value =>
      obtain ⟨result, later⟩ := goesOn value
      refine ⟨result, settled.bind (fun other same => ?_) fun fault impossible => nomatch impossible⟩
      cases same
      exact later
    | error fault =>
      refine ⟨.error fault, settled.bind (fun value impossible => nomatch impossible) fun other same => ?_⟩
      cases same
      rfl

section WriteOnce

variable {spec : CacheSpec} {right : UtilityKey → Utilities → Prop} {key : UtilityKey}
  {compute : Unit → Outcome Utilities}

/-- All caches of the same dimensions refuse a key in the same words. -/
theorem settled_cached_refused (refused : ¬ spec.Accepts key) :
    Settled (.writeOnce spec right) (.error (UtilityCache.refusalOf spec key).fault) (cached key compute) := by
  intro cache valid
  refine .ask (fun current kept _ => ?_) fun current kept _ => ?_
  · simp only [UtilityCache.serve, UtilityCache.get_of_refused kept.1 refused]
    exact ⟨kept, (CacheAgreement.writeOnce spec right).refl current⟩
  · simp only [UtilityCache.serve, UtilityCache.get_of_refused kept.1 refused]
    exact .done fun _ _ _ => rfl

/-- A computing lookup is settled if nothing but what it computes is right for its key, should
the key be accepted. -/
theorem exists_settled_cached (sized : spec.validate = .ok ())
    (unique : ∀ value, right key value ↔ compute () = .ok value) :
    ∃ result, Settled (.writeOnce spec right) result (cached key compute) := by
  by_cases accepts : spec.Accepts key
  · exact ⟨_, transparent_cached sized accepts unique⟩
  · exact ⟨_, settled_cached_refused accepts⟩

/-- A computing lookup minds the agreement if what it computes is right for its key. -/
theorem minds_cached (sized : spec.validate = .ok ()) (brings : ∀ value, compute () = .ok value → right key value) :
    Minds (.writeOnce spec right) (cached key compute) :=
  fun cache _ => (keeps_cached sized brings cache).weaken fun _ _ _ _ => trivial

end WriteOnce

end Evaluation

namespace Evaluator.Gravity

variable {gravity : Gravity} {family others : List JobInputs} {inputs : JobInputs} {spec : CacheSpec}
  {origin destination : UInt32}

/-- The pairs whose impedances may be asked for while a job is under way: any of its zones,
and any that has a size term. -/
def Consults (inputs : JobInputs) (origin destination : UInt32) : Prop :=
  origin ∈ inputs.zones.zoneIds ∧ destination ∈ inputs.zones.zoneIds ∧
    inputs.sizeTerms.hasSizeTerm destination = true

/-- Inputs that give the impedance that others give to every pair that both consult. -/
def Agrees (gravity : Gravity) (inputs : JobInputs) (others : List JobInputs) : Prop :=
  ∀ other ∈ others, ∀ origin destination, Consults inputs origin destination →
    Consults other origin destination →
    gravity.impedance inputs.zones origin destination = gravity.impedance other.zones origin destination

/-- What may be stored under the slot of an evaluator that serves several inputs: the impedance
that some of them give to a pair they consult. -/
def RightAmong (gravity : Gravity) (family : List JobInputs) (key : UtilityKey) (value : Utilities) : Prop :=
  key.segment = gravity.segment → key.period = gravity.period →
    ∃ inputs ∈ family, Consults inputs key.origin key.destination ∧
      (gravity.impedance inputs.zones key.origin key.destination).map ([·]) = .ok value

/-- The coordinates of a zone. -/
def place (zones : ZoneSystem) (id : UInt32) : Outcome (Double × Double) :=
  (zones.zone id).map fun zone => (zone.x, zone.y)

theorem distance_eq_of_places (zones : ZoneSystem) (origin destination : UInt32) :
    zones.distance origin destination = (place zones origin).bind fun start =>
      (place zones destination).map fun stop => (start.1 - stop.1).hypot (start.2 - stop.2) := by
  unfold ZoneSystem.distance place
  cases zones.zone origin <;> cases zones.zone destination <;> rfl

/-- Inputs in which zones are where they are in the others. -/
theorem agrees_of_places (gravity : Gravity)
    (places : ∀ other ∈ others, ∀ id, id ∈ inputs.zones.zoneIds → id ∈ other.zones.zoneIds →
      place inputs.zones id = place other.zones id) :
    Agrees gravity inputs others := by
  rintro other member origin destination ⟨start, stop, _⟩ ⟨start', stop', _⟩
  rw [impedance, impedance, distance_eq_of_places, distance_eq_of_places,
    places other member origin start start', places other member destination stop stop']

theorem rightAmong_impedance (member : inputs ∈ family) (consults : Consults inputs origin destination)
    (value : Utilities)
    (computed : (gravity.impedance inputs.zones origin destination).map ([·]) = .ok value) :
    RightAmong gravity family ⟨gravity.segment, gravity.period, origin, destination⟩ value :=
  fun _ _ => ⟨inputs, member, consults, computed⟩

theorem rightAmong_iff (agrees : Agrees gravity inputs others) (consults : Consults inputs origin destination)
    (value : Utilities) :
    RightAmong gravity (inputs :: others) ⟨gravity.segment, gravity.period, origin, destination⟩ value ↔
      (gravity.impedance inputs.zones origin destination).map ([·]) = .ok value := by
  refine ⟨fun right => ?_, rightAmong_impedance (List.mem_cons_self ..) consults value⟩
  obtain ⟨other, among, consults', same⟩ := right rfl rfl
  obtain rfl | earlier := List.mem_cons.mp among
  · exact same
  · rwa [agrees other earlier origin destination consults consults']

section Kind

variable {kind : (α : Type) → Evaluation α → Prop} (composes : Evaluation.Composes kind)
  (lookups : ∀ origin destination, Consults inputs origin destination →
    kind _ (Evaluation.cached ⟨gravity.segment, gravity.period, origin, destination⟩
      fun _ => (gravity.impedance inputs.zones origin destination).map ([·])))

include composes lookups

theorem kind_cachedImpedance (consults : Consults inputs origin destination) :
    kind _ (gravity.cachedImpedance inputs.zones origin destination) := by
  apply composes.bind (lookups origin destination consults)
  intro utilities
  split <;> exact composes.done _

theorem kind_sumOver (listed : origin ∈ inputs.zones.zoneIds) (constant : Double)
    {destinations : List Zone} (inside : ∀ zone ∈ destinations, zone.id ∈ inputs.zones.zoneIds)
    (sums : List Double) : kind _ (gravity.sumOver inputs constant origin destinations sums) := by
  induction destinations generalizing sums with
  | nil => exact composes.done _
  | cons destination rest ih =>
    have later := ih fun zone there => inside zone (List.mem_cons_of_mem _ there)
    unfold sumOver
    split
    next sized =>
      have consults : Consults inputs origin destination.id :=
        ⟨listed, inside destination (List.mem_cons_self ..), sized⟩
      apply composes.bind (kind_cachedImpedance composes lookups consults)
      intro impedance
      exact composes.bind (composes.done _) later
    next => exact later sums

/-- The evaluation of a zone of the inputs is of any kind that its lookups are of. -/
theorem kind_accessibility (listed : origin ∈ inputs.zones.zoneIds) :
    kind _ (gravity.accessibility origin (.ofJob inputs)) := by
  simp only [accessibility, Context.ofJob]
  split
  · exact composes.done _
  · apply composes.bind (composes.done _)
    intro constant
    apply composes.bind
    · refine kind_sumOver composes lookups listed constant (fun zone there => ?_) _
      exact Array.mem_map_of_mem (Array.mem_toList_iff.mp there)
    · intro sums
      exact composes.done _

end Kind

/-- Evaluations of inputs that agree with others come to one result on the caches of all. -/
theorem exists_settled_accessibility (sized : spec.validate = .ok ()) (agrees : Agrees gravity inputs others)
    (listed : origin ∈ inputs.zones.zoneIds) :
    ∃ result, Evaluation.Settled (.writeOnce spec (RightAmong gravity (inputs :: others))) result
      (gravity.accessibility origin (.ofJob inputs)) :=
  kind_accessibility (Evaluation.composes_settled _)
    (fun _ _ consults => Evaluation.exists_settled_cached sized (rightAmong_iff agrees consults)) listed

/-- Evaluations of any of the inputs leave impedances of theirs. -/
theorem minds_accessibility (sized : spec.validate = .ok ()) (member : inputs ∈ family)
    (listed : origin ∈ inputs.zones.zoneIds) :
    Evaluation.Minds (.writeOnce spec (RightAmong gravity family))
      (gravity.accessibility origin (.ofJob inputs)) :=
  kind_accessibility (Evaluation.composes_minds _)
    (fun _ _ consults => Evaluation.minds_cached sized (rightAmong_impedance member consults)) listed

end Evaluator.Gravity

namespace Packet

variable {evaluator : Evaluator} {context : Context} {agreement : CacheAgreement}
  {answers : UInt32 → Outcome (List Double)}

theorem mem_of_zonesOf {packet : Packet} {zoneIds : Array UInt32} {zones : List UInt32}
    (inside : packet.zonesOf zoneIds = .ok zones) {zone : UInt32} (member : zone ∈ zones) : zone ∈ zoneIds := by
  obtain ⟨_, rfl⟩ := (zonesOf_eq_ok_iff zones).mp inside
  obtain ⟨position, _, found⟩ := Array.mem_extract_iff_getElem.mp (Array.mem_toList_iff.mp member)
  exact found ▸ Array.getElem_mem _

section Kind

variable {kind : (α : Type) → Evaluation α → Prop} (composes : Evaluation.Composes kind)

include composes

theorem kind_computeRows {zones : List UInt32} (rows : ∀ zone ∈ zones, kind _ (evaluator.evaluate zone context))
    (values : Array Single) : kind _ (computeRows evaluator context zones values) := by
  induction zones generalizing values with
  | nil => exact composes.done _
  | cons zone rest ih =>
    apply composes.bind (rows zone (List.mem_cons_self ..))
    intro row
    apply composes.bind (composes.done (checkRow evaluator.width zone row))
    intro singles
    exact ih (fun other there => rows other (List.mem_cons_of_mem _ there)) _

/-- A packet is of any kind that the evaluations of the zones are of. -/
theorem kind_compute (packet : Packet) {zoneIds : Array UInt32}
    (rows : ∀ zone ∈ zoneIds, kind _ (evaluator.evaluate zone context)) :
    kind _ (packet.compute zoneIds evaluator context) := by
  show kind _ ((Evaluation.done (packet.zonesOf zoneIds)).bind _)
  cases inside : packet.zonesOf zoneIds with
  | error fault => exact composes.done _
  | ok zones =>
    apply composes.bind (kind_computeRows composes (fun zone member => rows zone (mem_of_zonesOf inside member)) #[])
    exact fun values => composes.done _

end Kind

/-- Rows of zones whose evaluations are settled. -/
theorem settled_computeRows {zones : List UInt32}
    (settled : ∀ zone ∈ zones, Evaluation.Settled agreement (answers zone) (evaluator.evaluate zone context))
    (values : Array Single) :
    Evaluation.Settled agreement (answerRows evaluator.width answers zones values)
      (computeRows evaluator context zones values) := by
  induction zones generalizing values with
  | nil => exact Evaluation.settled_done _
  | cons zone rest ih =>
    have later := ih fun other there => settled other (List.mem_cons_of_mem _ there)
    apply Evaluation.Settled.bind (settled zone (List.mem_cons_self ..))
    · intro row given
      apply Evaluation.Settled.bind (Evaluation.settled_done (checkRow evaluator.width zone row))
      · intro singles checked
        simp only [answerRows, given, bind, Except.bind, checked]
        exact later _
      · intro fault failed
        simp only [answerRows, given, bind, Except.bind, failed]
    · intro fault failed
      simp only [answerRows, failed, bind, Except.bind]

/-- A packet comes to what the answers of its zones make of it, on all agreed caches. -/
theorem settled_compute (packet : Packet) {zoneIds : Array UInt32}
    (settled : ∀ zone ∈ zoneIds, Evaluation.Settled agreement (answers zone) (evaluator.evaluate zone context)) :
    Evaluation.Settled agreement (packet.answer zoneIds evaluator.width answers)
      (packet.compute zoneIds evaluator context) := by
  apply Evaluation.Settled.bind (Evaluation.settled_done (packet.zonesOf zoneIds))
  · intro zones inside
    have listed := fun zone member => settled zone (mem_of_zonesOf inside member)
    apply Evaluation.Settled.bind (settled_computeRows listed #[])
    · intro values rows
      simp only [answer, inside, bind, Except.bind, rows]
      exact Evaluation.settled_done _
    · intro fault failed
      simp only [answer, inside, bind, Except.bind, failed]
  · intro fault outside
    simp only [answer, outside, bind, Except.bind]

end Packet

end Accessibility
