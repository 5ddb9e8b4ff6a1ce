import Mathlib.Data.List.ProdSigma
import Accessibility.Proofs.Execution.Bookkeeping
import Accessibility.Proofs.Execution.Independence
import Accessibility.Proofs.Job
import Accessibility.Proofs.SizeTerm.Table

/-! What gravity jobs leave in the cache of their workers. A job of all zones looks up every pair of a
zone and one that has a size term, each once: the first job misses them and stores their impedances,
those after it find them. So the counters tell how many jobs there were, and nothing about the sizes of
their packets or the interleavings of their workers (`cache_accounts`). -/
namespace Accessibility

namespace Evaluator.Gravity
open Evaluation LocalExecutor UtilityCache

variable (gravity : Gravity) (inputs : JobInputs)

/-- The keys of all pairs of a zone and one that has a size term, zone by zone. -/
def pairKeys : List UtilityKey := inputs.zones.zoneIds.toList.flatMap (gravity.keysFrom inputs)

/-- The keys that a packet of the zone list owes. -/
def packetKeys (packet : Packet) : List UtilityKey :=
  match packet.zonesOf inputs.zones.zoneIds with
  | .ok zones => zones.flatMap (gravity.keysFrom inputs)
  | .error _ => []

variable {gravity inputs}

theorem mem_destinations {zone : UInt32} :
    zone ∈ destinations inputs ↔
      zone ∈ inputs.zones.zoneIds ∧ inputs.sizeTerms.hasSizeTerm zone = true := by
  rw [destinations, List.mem_filter, ZoneSystem.zoneIds, ← Array.toList_map, Array.mem_toList_iff]

theorem pairwise_destinations (ascending : ZoneSystem.Ascending inputs.zones.zones.toList) :
    (destinations inputs).Pairwise (· < ·) := by
  have sorted := ZoneSystem.pairwise_zoneIds ascending
  rw [ZoneSystem.zoneIds, Array.toList_map] at sorted
  exact sorted.filter _

/-- The pairs are those of a product. -/
theorem pairKeys_eq : gravity.pairKeys inputs =
    (inputs.zones.zoneIds.toList ×ˢ destinations inputs).map fun pair =>
      ⟨gravity.segment, gravity.period, pair.1, pair.2⟩ := by
  simp only [SProd.sprod, List.product, List.map_flatMap, List.map_map]
  rfl

theorem length_pairKeys :
    (gravity.pairKeys inputs).length = inputs.zones.zoneIds.size * (destinations inputs).length := by
  rw [pairKeys_eq, List.length_map, List.length_product, Array.length_toList]

theorem mem_pairKeys {key : UtilityKey} : key ∈ gravity.pairKeys inputs ↔
    (key.segment = gravity.segment ∧ key.period = gravity.period) ∧
      key.origin ∈ inputs.zones.zoneIds ∧ key.destination ∈ destinations inputs := by
  rw [pairKeys_eq, List.mem_map, ← Array.mem_toList_iff]
  constructor
  · rintro ⟨⟨origin, destination⟩, listed, rfl⟩
    exact ⟨⟨rfl, rfl⟩, List.mem_product.mp listed⟩
  · rintro ⟨⟨segment, period⟩, listed⟩
    refine ⟨(key.origin, key.destination), List.mem_product.mpr listed, ?_⟩
    rw [← segment, ← period]

theorem nodup_pairKeys (ascending : ZoneSystem.Ascending inputs.zones.zones.toList) :
    (gravity.pairKeys inputs).Nodup := by
  have origins : inputs.zones.zoneIds.toList.Nodup := ZoneSystem.nodup_zoneIds ascending
  have ends : (destinations inputs).Nodup := (pairwise_destinations ascending).imp Std.ne_of_lt
  rw [pairKeys_eq]
  refine (origins.product ends).map fun first second same => ?_
  obtain ⟨_, _, origin, destination⟩ := UtilityKey.mk.inj same
  exact Prod.ext origin destination

theorem Covers.listed {spec : CacheSpec} (covers : Covers spec gravity inputs.zones) :
    ∀ zone ∈ inputs.zones.zoneIds, zone ≤ spec.maxEndpoint := by
  intro zone listed
  obtain ⟨record, there, rfl⟩ := Array.mem_map.mp listed
  exact covers.bound record there

theorem accepts_pairKeys {spec : CacheSpec} (covers : Covers spec gravity inputs.zones) :
    ∀ key ∈ gravity.pairKeys inputs, spec.Accepts key := by
  intro key member
  obtain ⟨⟨segment, period⟩, origin, destination⟩ := mem_pairKeys.mp member
  refine ⟨?_, covers.listed _ origin, covers.listed _ (mem_destinations.mp destination).1⟩
  rw [segment, period]
  exact covers.slot

/-- A packet owes the pairs of its zones, and nothing if it lies outside the zone list. -/
theorem visits_evaluation (gravity : Gravity) (inputs : JobInputs) (packet : Packet) :
    (evaluation (.ofGravity gravity) inputs packet).Visits none (gravity.packetKeys inputs packet) := by
  unfold packetKeys evaluation
  split
  next zones inside => exact Packet.visits_compute (visits_accessibility gravity inputs) inside
  next fault outside =>
    unfold Packet.compute
    rw [outside]
    exact .failed none [] fault

/-- Packets that tile the zone list owe all pairs. -/
theorem flatMap_packetKeys {packets : List Packet} (few : inputs.zones.zoneIds.size < 2 ^ 32)
    (tiles : Packet.Tiles inputs.zones.zoneIds.size 0 packets) :
    packets.flatMap (gravity.packetKeys inputs) = gravity.pairKeys inputs := by
  have each : ∀ packet ∈ packets, gravity.packetKeys inputs packet =
      (inputs.zones.zoneIds.extract packet.first.toNat (packet.last.toNat + 1)).toList.flatMap
        (gravity.keysFrom inputs) := by
    intro packet member
    rw [packetKeys, Job.zonesOf_of_tiles few tiles packet member]
  rw [List.flatMap_congr each, ← List.flatMap_assoc, tiles.flatMap_extract, List.drop_zero, pairKeys]

variable {spec : CacheSpec}

/-- A cache whose bound covers the zones leaves room for few of them. -/
theorem size_lt_of_covers (ascending : ZoneSystem.Ascending inputs.zones.zones.toList)
    (covers : Covers spec gravity inputs.zones) : inputs.zones.zoneIds.size < 2 ^ 32 := by
  have few := ZoneSystem.size_le_maxZone ascending
  have highest : inputs.zones.maxZone.toNat ≤ spec.maxEndpoint.toNat := ZoneSystem.maxZone_le covers.listed
  have bound : spec.maxEndpoint.toNat < 100000 := CacheSpec.maxEndpoint_lt covers.sized
  rw [ZoneSystem.zoneIds, Array.size_map]
  omega

/-- A job of all zones that has results has looked up every pair once. -/
theorem tallied_of_job (ascending : ZoneSystem.Ascending inputs.zones.zones.toList)
    (covers : Covers spec gravity inputs.zones) {threads : Nat} {schedule : List Move}
    {executor : Executor UtilityCache} {packetSize : UInt64} {packets : List Packet}
    {results : List PacketResult} {before after : UtilityCache} (laid : before.Laid spec)
    (created : create threads (.ofGravity gravity) schedule = .ok executor)
    (cut : Packet.ranges inputs.zones.zoneIds.size.toUInt64 packetSize = .ok packets)
    (came : executor.submit packets inputs before = (.ok results, after)) :
    Tallied before (gravity.pairKeys inputs) 0 after := by
  obtain rfl := laid.dimensions
  have few := size_lt_of_covers ascending covers
  have owed : packets.flatMap (gravity.packetKeys inputs) = gravity.pairKeys inputs :=
    flatMap_packetKeys few (Packet.tiles_of_ranges few cut)
  have bookable : Bookable (.ofGravity gravity) inputs before (gravity.packetKeys inputs)
      (packets.flatMap (gravity.packetKeys inputs)) := by
    rw [owed]
    exact ⟨visits_evaluation gravity inputs, covers.sized, accepts_pairKeys covers, nodup_pairKeys ascending⟩
  rw [submit_of_create created] at came
  rw [← owed]
  exact tallied_of_submit (some_threads_of_create created) bookable laid came

end Evaluator.Gravity

namespace LocalExecutor

/-- Jobs with results, one after the other over a cache that was empty to begin with. Each is of all
zones of the same inputs, in packets of a size of its own, and with workers and moves of its own. -/
inductive Jobs (evaluator : Evaluator) (inputs : JobInputs) (start : UtilityCache) :
    Nat → UtilityCache → Prop where
  | none : Jobs evaluator inputs start 0 start
  | next {count threads : Nat} {schedule : List Move} {executor : Executor UtilityCache}
      {packetSize : UInt64} {packets : List Packet} {results : List PacketResult}
      {before after : UtilityCache} : Jobs evaluator inputs start count before →
    create threads evaluator schedule = .ok executor →
    Packet.ranges inputs.zones.zoneIds.size.toUInt64 packetSize = .ok packets →
    executor.submit packets inputs before = (.ok results, after) →
    Jobs evaluator inputs start (count + 1) after

end LocalExecutor

namespace Evaluator.Gravity
open Evaluation LocalExecutor UtilityCache

variable {gravity : Gravity} {inputs : JobInputs} {spec : CacheSpec}

/-- The first job fills the cache, and the jobs after it find what it stored. -/
theorem filled_of_jobs (ascending : ZoneSystem.Ascending inputs.zones.zones.toList)
    (covers : Covers spec gravity inputs.zones) {count : Nat} {after : UtilityCache}
    (jobs : Jobs (.ofGravity gravity) inputs (.empty spec) (count + 1) after) :
    after.Filled spec (gravity.pairKeys inputs) count := by
  generalize done : count + 1 = rounds at jobs
  induction jobs generalizing count with
  | none => cases done
  | @next earlier _ _ _ _ _ _ before after jobs created cut came ih =>
    obtain rfl : count = earlier := Nat.succ.inj done
    cases count with
    | zero =>
      cases jobs
      exact (tallied_of_job ascending covers (laid_empty spec) created cut came).filled
    | succ count =>
      have filled := ih rfl
      exact filled.tallied (tallied_of_job ascending covers filled.laid created cut came)

/-- A job whose packets come to results over a ledger can be done over what jobs like it have left
behind. -/
theorem exists_jobs_next {count threads : Nat} {before : UtilityCache}
    (jobs : Jobs (.ofGravity gravity) inputs (.empty spec) count before) (sized : spec.validate = .ok ())
    (valid : (CacheAgreement.writeOnce spec (RightAmong gravity [inputs])).valid before)
    (some_threads : threads ≠ 0) (schedule : List Move) {packetSize : UInt64} {packets : List Packet}
    (cut : Packet.ranges inputs.zones.zoneIds.size.toUInt64 packetSize = .ok packets)
    {results : List PacketResult}
    (every : packets.map (fun packet =>
      ((evaluation (.ofGravity gravity) inputs packet).runLedger spec .empty).1) = results.map .ok) :
    ∃ after, Jobs (.ofGravity gravity) inputs (.empty spec) (count + 1) after ∧
      (CacheAgreement.writeOnce spec (RightAmong gravity [inputs])).valid after := by
  have agrees : Agrees gravity inputs [] := nofun
  have knows := knows_informed sized agrees
  have outcome : ∀ packet : Packet, packet.outcome ((ofGravity gravity).informed spec) inputs =
      ((evaluation (.ofGravity gravity) inputs packet).runLedger spec .empty).1 := fun packet =>
    ((knows.settled packet).run_eq (CacheAgreement.writeOnce_empty spec _)).symm.trans
      (run_ledger (tracks_empty spec) sized _).1
  have came : (submit threads (.ofGravity gravity) schedule inputs packets before).1 = .ok results := by
    rw [submit_eq_ok_iff_of_knows knows valid]
    simp only [outcome, every]
  have kept := valid_submit (minds_evaluation sized (List.mem_singleton_self inputs)) valid some_threads
    schedule packets
  obtain ⟨executor, created⟩ : ∃ executor, create threads (.ofGravity gravity) schedule = .ok executor :=
    ⟨_, if_neg some_threads⟩
  rw [← submit_of_create created] at came kept
  exact ⟨_, .next jobs created cut (Prod.ext came rfl), kept⟩

/-- The accounts of gravity jobs. However their packets are cut and their workers interleaved, jobs on
the same inputs leave behind one entry for each pair of a zone and one that has a size term, as many
misses, and as many hits for every job but the first. An evaluation looks up the zones that have a size
term in ascending order, up to its fault if it ends in one. Whatever weights were stored or refused, the
zones that are passed over have none, and would add nothing above zero. -/
theorem cache_accounts (gravity : Gravity) {inputs : JobInputs} {names : List String} {records : List Zone}
    (built : ZoneSystem.ofZones names records = .ok inputs.zones) {spec : CacheSpec} {fresh : UtilityCache}
    (created : UtilityCache.create spec = .ok fresh)
    (slot : gravity.segment < spec.segments ∧ gravity.period < spec.periods)
    (bound : ∀ zone ∈ inputs.zones.zones, zone.id ≤ spec.maxEndpoint) :
    let pairs := inputs.zones.size * (destinations inputs).length
    (∀ count after, Jobs (.ofGravity gravity) inputs fresh (count + 1) after →
      after.stats = ⟨pairs, count * pairs, pairs⟩ ∧
        ∀ key, (after.stored key).isSome = true ↔
          (key.segment = gravity.segment ∧ key.period = gravity.period) ∧
            key.origin ∈ inputs.zones.zoneIds ∧ key.destination ∈ destinations inputs) ∧
      ((destinations inputs).Pairwise (· < ·) ∧
        ∀ zone, zone ∈ destinations inputs ↔
          zone ∈ inputs.zones.zoneIds ∧ inputs.sizeTerms.hasSizeTerm zone = true) ∧
      (∀ origin looked result, (gravity.accessibility origin (.ofJob inputs)).Course looked result →
        let keys := (destinations inputs).map fun destination =>
          (⟨gravity.segment, gravity.period, origin, destination⟩ : UtilityKey)
        looked <+: keys ∧ ∀ row, result = .ok row → looked = keys) ∧
      ∀ segmentNames maxZone calls, inputs.sizeTerms = .filled segmentNames maxZone calls →
        ∀ zone, inputs.sizeTerms.hasSizeTerm zone = false →
          (∃ weights, inputs.sizeTerms.row zone = .ok weights ∧ ∀ weight ∈ weights, weight.isZero = true) ∧
            ∀ segment, ∃ size, inputs.sizeTerms.get zone segment = .ok size ∧ size.isZero = true ∧
              ∀ factor, (size * factor).isPositive = false := by
  intro pairs
  have ascending := ZoneSystem.ascending_of_ofZones built
  obtain ⟨sized, rfl⟩ := (create_eq_ok_iff spec fresh).mp created
  have covers : Covers spec gravity inputs.zones := ⟨sized, slot, bound⟩
  have total : (gravity.pairKeys inputs).length = pairs := by
    rw [length_pairKeys, ZoneSystem.zoneIds, Array.size_map]
    rfl
  refine ⟨fun count after jobs => ?_, ⟨pairwise_destinations ascending, fun _ => mem_destinations⟩,
    fun origin looked result course => (visits_accessibility gravity inputs origin).course course,
    fun segmentNames maxZone calls stored zone unflagged => ?_⟩
  · have filled := filled_of_jobs ascending covers jobs
    refine ⟨total ▸ filled.stats, fun key => ?_⟩
    rw [← mem_pairKeys, ← not_iff_not, ← filled.absent, lacks]
    simp
  · have flagged : inputs.sizeTerms.Flagged := by
      rw [stored]
      exact SizeTermTable.flagged_filled ..
    exact ⟨flagged.row unflagged, flagged.get unflagged⟩

section Example
open Executor

/-- Looks for jobs. -/
def forJobs : Gravity := ⟨["jobs"], .one, 0, 0, 0⟩

/-- Two zones in one place, of which the second has jobs. -/
def onePlace : JobInputs := zonesApart .zero

/-- The first job in packets of one zone each and by two workers in turns, the second in one packet and
by a single worker. -/
theorem exists_jobs_onePlace :
    ∃ after, Jobs (.ofGravity forJobs) onePlace (.empty ⟨3, 0, 1, 1⟩) 2 after := by
  have sized : CacheSpec.validate ⟨3, 0, 1, 1⟩ = .ok () := rfl
  have fresh : (CacheAgreement.writeOnce ⟨3, 0, 1, 1⟩ (RightAmong forJobs [onePlace])).valid (.empty ⟨3, 0, 1, 1⟩) :=
    CacheAgreement.writeOnce_empty ..
  have small : Packet.ranges onePlace.zones.zoneIds.size.toUInt64 1 = .ok [⟨1, 0, 0⟩, ⟨2, 1, 1⟩] := by
    decide +kernel
  have large : Packet.ranges onePlace.zones.zoneIds.size.toUInt64 5 = .ok [⟨1, 0, 1⟩] := by decide +kernel
  have each : ([⟨1, 0, 0⟩, ⟨2, 1, 1⟩] : List Packet).map (fun packet =>
      ((evaluation (.ofGravity forJobs) onePlace packet).runLedger ⟨3, 0, 1, 1⟩ .empty).1) =
        [⟨1, 0, 0, 1, #[⟨0x21800000⟩]⟩, ⟨2, 1, 1, 1, #[⟨0x21800000⟩]⟩].map .ok := by decide +kernel
  have both : ([⟨1, 0, 1⟩] : List Packet).map (fun packet =>
      ((evaluation (.ofGravity forJobs) onePlace packet).runLedger ⟨3, 0, 1, 1⟩ .empty).1) =
        [⟨1, 0, 1, 1, #[⟨0x21800000⟩, ⟨0x21800000⟩]⟩].map .ok := by decide +kernel
  obtain ⟨between, once, valid⟩ := exists_jobs_next .none sized fresh (by decide : 2 ≠ 0)
    [⟨1, 0⟩, ⟨0, 0⟩, ⟨0, 0⟩, ⟨1, 0⟩] small each
  obtain ⟨after, twice, _⟩ := exists_jobs_next once sized valid Nat.one_ne_zero [] large both
  exact ⟨after, twice⟩

theorem cache_accounts_onePlace :
    (∃ after, Jobs (.ofGravity forJobs) onePlace (.empty ⟨3, 0, 1, 1⟩) 2 after ∧
      after.stats = ⟨2, 2, 2⟩ ∧ (after.stored ⟨0, 0, 1, 3⟩).isSome = true ∧
        (after.stored ⟨0, 0, 1, 1⟩).isSome = false) ∧
      (∃ result, (forJobs.accessibility 1 (.ofJob onePlace)).Course [⟨0, 0, 1, 3⟩] result) ∧
      onePlace.sizeTerms = .filled ["jobs"] 3 [⟨3, 0, ⟨0x3C30000000000000⟩⟩, ⟨4, 0, .one⟩] ∧
        ∃ weights, onePlace.sizeTerms.row 1 = .ok weights ∧ ∀ weight ∈ weights, weight.isZero = true := by
  have stored : onePlace.sizeTerms = .filled ["jobs"] 3 [⟨3, 0, ⟨0x3C30000000000000⟩⟩, ⟨4, 0, .one⟩] := by
    decide +kernel
  have built : ZoneSystem.ofZones [] [⟨3, .zero, .zero, ⟨0, 0⟩, []⟩, ⟨1, .zero, .zero, ⟨0, 0⟩, []⟩] =
      .ok onePlace.zones := Job.ofZones_pairInputs
  have created : UtilityCache.create ⟨3, 0, 1, 1⟩ = .ok (.empty ⟨3, 0, 1, 1⟩) := rfl
  obtain ⟨accounts, _, looks, bare⟩ := cache_accounts forJobs built created (by decide) (by decide +kernel)
  refine ⟨?_, ?_, stored, (bare _ _ _ stored 1 (by decide +kernel)).1⟩
  · obtain ⟨after, jobs⟩ := exists_jobs_onePlace
    obtain ⟨stats, held⟩ := accounts 1 after jobs
    refine ⟨after, jobs, stats, (held _).mpr (by decide +kernel), ?_⟩
    rw [Bool.eq_false_iff, ne_eq, held]
    decide +kernel
  · obtain ⟨looked, course⟩ := exists_course_run (forJobs.accessibility 1 (.ofJob onePlace)) (.empty ⟨3, 0, 1, 1⟩)
    obtain ⟨answer, came⟩ : ∃ row, ((forJobs.accessibility 1 (.ofJob onePlace)).run (.empty ⟨3, 0, 1, 1⟩)).1 =
        .ok row := by
      rw [(run_ledger (tracks_empty _) rfl _).1]
      exact ⟨[⟨0x3C30000000000000⟩], by decide +kernel⟩
    obtain rfl : looked = [⟨0, 0, 1, 3⟩] := (looks 1 looked _ course).2 answer came
    exact ⟨_, course⟩

end Example

end Evaluator.Gravity

end Accessibility
