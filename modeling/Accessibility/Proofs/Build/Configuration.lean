import Accessibility.Proofs.Build.Output
import Accessibility.Proofs.Filing.Faults
import Accessibility.Proofs.Job.Faults
import Accessibility.Proofs.Settings.Checked

/-! When the configuration is to blame for a build that fails. -/
namespace Accessibility.Build

open Procedure Settings

/-- Number of workers that packets are evaluated by. -/
def workers : Placement → Nat
  | .inProcess threads => threads
  | .distributed nodes => nodes

/-- Settings with a constant for each mode in each row, and somebody to evaluate packets, on a site
where workers within the process get their pool. None of it is looked at before size terms are
computed. -/
structure Workable (settings : Settings) (site : Site) : Prop where
  rows : ∀ row ∈ settings.constants, row.length = settings.modes.length
  manned : 0 < workers settings.placement
  pooled : ∀ threads, settings.placement = .inProcess threads → site.unpooled = none

/-- A fault that lies elsewhere than in the configuration, unless it is one that makes settings
unworkable on a site. -/
def Excused (settings : Settings) (site : Site) (fault : Fault) : Prop :=
  Workable settings site → fault.Elsewhere

variable {settings : Settings} {zones : ZoneSystem} {groundwork : Groundwork} {site : Site}

theorem gives_announced {noted : Outcome Setup.Noted} (configured : Configured noted) :
    Gives Fault.Elsewhere (fun _ => True) (announced noted) :=
  .bind (.outcome configured fun _ _ => trivial) fun noted _ =>
    .bind (.notices noted.notices) fun _ _ => .pure trivial

/-- What the groundwork for zones has that was laid without a fault. -/
structure Founded (zones : ZoneSystem) (groundwork : Groundwork) : Prop where
  coded : ∀ zone ∈ zones.zones.toList,
    Configured (groundwork.school.indexer.districtCodes zone.districts)
  valid : groundwork.cache.spec.validate = .ok ()
  highest : groundwork.cache.spec.maxZone = zones.maxZone
  fresh : groundwork.cache = .empty groundwork.cache.spec

theorem founded_of_lay {dimensions : CacheDimensions}
    (laid : Groundwork.lay zones dimensions = .ok groundwork) : Founded zones groundwork := by
  obtain ⟨school, built, laid⟩ := bind_eq_ok laid
  obtain ⟨cache, created, laid⟩ := bind_eq_ok laid
  obtain ⟨_, valid, created⟩ := bind_eq_ok created
  obtain rfl := Except.ok.inj created
  obtain rfl := Except.ok.inj laid
  exact ⟨fun zone mem => Setup.coded_of_build built mem, valid, rfl, rfl⟩

theorem Founded.few (founded : Founded zones groundwork)
    (ascending : ZoneSystem.Ascending zones.zones.toList) : zones.zoneIds.size < 2 ^ 32 := by
  have bound := ZoneSystem.size_le_maxZone ascending
  have highest := (CacheSpec.validate_eq_ok_iff.mp founded.valid).1.1
  rw [founded.highest, pairFactor] at highest
  rw [ZoneSystem.zoneIds, Array.size_map]
  exact lt_of_le_of_lt bound (by omega)

theorem gives_schoolTerms (checked : Checked settings) (founded : Founded zones groundwork) :
    Gives Fault.Elsewhere (fun _ => True) (schoolTerms settings zones groundwork.school) := by
  unfold schoolTerms
  split
  · exact .pure trivial
  · rename_i attributes given
    have terms := Setup.configured_schoolSizeTerms zones { zones := some zones }
      (checked.school _ given) founded.coded
    apply (gives_announced terms).bind
    intro table _
    apply (Gives.say _).bind
    intro _ _
    split
    · exact .pure trivial
    · apply Gives.bind (.outcome (Setup.configured_schoolFactors _ _ _ _) fun _ _ => trivial)
      intro factors _
      exact .bind (.say _) fun _ _ => .pure trivial

theorem gives_workTerms (checked : Checked settings) :
    Gives Fault.Elsewhere (fun _ => True) (workTerms settings zones) := by
  unfold workTerms
  split
  · exact .pure trivial
  · rename_i attributes given
    apply Gives.bind (gives_announced (Setup.configured_workSizeTerms zones _ (checked.work _ given)))
    intro table _
    exact .bind (.say _) fun _ _ => .pure trivial

/-- What is computed before packets are cut is for the zones of the build, with the dimensions of
its cache. -/
theorem gives_prepare (checked : Checked settings) (founded : Founded zones groundwork) :
    Gives (Excused settings site) (fun prepared : JobInputs × ChoiceTerms =>
        prepared.1.zones = zones ∧ prepared.1.cacheSpec = groundwork.cache.spec)
      (prepare settings zones groundwork) := by
  have excused : ∀ fault : Fault, fault.Elsewhere → Excused settings site fault :=
    fun _ elsewhere _ => elsewhere
  unfold prepare
  apply (Gives.say _).bind
  intro _ _
  apply ((gives_announced (Setup.configured_sizeTerms zones _ _ _ rfl)).weaken excused).bind
  intro sizeTerms _
  apply (Gives.say _).bind
  intro _ _
  apply ((gives_schoolTerms checked founded).weaken excused).bind
  rintro ⟨school, factors⟩ _
  apply ((gives_workTerms checked).weaken excused).bind
  intro work _
  apply (Gives.say _).bind
  intro _ _
  apply Gives.bind (.outcome (fun fault failed workable =>
    Setup.configured_ofConstants workable.rows fault failed) fun _ made => made)
  intro evaluator made
  apply Gives.bind (.outcome (fun fault failed workable =>
    Setup.configured_modeConstants workable.rows made _ fault failed) fun _ _ => trivial)
  intro constants _
  exact .bind (.say _) fun _ _ => .pure ⟨rfl, rfl⟩

/-- A job that fails for the data alone, and whose table takes the labels of the settings. -/
structure Runs (settings : Settings) (job : ReadyJob) (inputs : JobInputs) : Prop where
  configured : Configured (job.run inputs).1
  width : ∀ table, (job.run inputs).1 = .ok table → table.width = settings.sizeAttributes.length

/-- A job that a crew for the gravity evaluation of the settings runs. -/
inductive Crewed (settings : Settings) : ReadyJob → Prop where
  | crew {σ : Type} {executor : Executor σ} (crew : Job.Crew (gravity settings) executor) (name : String)
    (entries : σ → Nat) (start : σ) : Crewed settings {
      executor := name
      run := fun inputs =>
        let (outcome, state) :=
          (Job.compute executor inputs settings.packetSize (gravity settings).width).run start
        (outcome, entries state) }

/-- Employing workers gives the executor that is created for them. Where there is a thread and the site
sets up a pool, the configuration is not to blame if it does not. -/
theorem employ_ends {threads : Nat} (evaluator : Evaluator) (site : Site) :
    Ends (employ threads evaluator) site fun outcome _ => match outcome with
      | .ok executor => LocalExecutor.create threads evaluator = .ok executor
      | .error fault => threads ≠ 0 → site.unpooled = none → fault.Elsewhere := by
  have creates : (liftM (LocalExecutor.create threads evaluator) : Procedure (Executor UtilityCache)).Ends site
      fun outcome after => outcome = LocalExecutor.create threads evaluator ∧ after = site := ⟨rfl, rfl⟩
  have asks : (liftM (Session.enlist threads) : Procedure (Except String Unit)).Ends site
      fun outcome _ => outcome = .ok (site.perform (.enlist threads)).1 := rfl
  unfold employ
  apply creates.bind
  · rintro fault _ ⟨refused, rfl⟩ some_threads _
    unfold LocalExecutor.create at refused
    rw [if_neg some_threads] at refused
    cases refused
  · rintro executor _ ⟨created, rfl⟩
    apply asks.bind
    · rintro fault _ ⟨⟩
    · rintro (text | _) _ answered
      · intro _ granted
        simp [Site.perform, granted] at answered
      · exact created.symm

/-- A job that is ready is run by a crew, and for workable settings it gets ready. -/
theorem readyJob_ends (settings : Settings) (groundwork : Groundwork) (site : Site) :
    Ends (readyJob settings groundwork) site fun outcome _ => match outcome with
      | .ok job => Crewed settings job
      | .error fault => Excused settings site fault := by
  unfold readyJob
  dsimp only
  split
  · rename_i threads given
    apply (employ_ends (gravity settings) site).bind
    · intro fault _ excused workable
      have some_threads : 0 < threads := by simpa [workers, given] using workable.manned
      exact excused (Nat.ne_of_gt some_threads) (workable.pooled threads given)
    · intro executor _ created
      exact .crew (.workers created) _ UtilityCache.entries groundwork.cache
  · rename_i nodes given
    cases made : Loopback.transport nodes (gravity settings) [] with
    | error fault =>
      intro workable
      have some_nodes : 0 < nodes := by simpa [workers, given] using workable.manned
      unfold Loopback.transport at made
      rw [if_neg (Nat.ne_of_gt some_nodes)] at made
      cases made
    | ok carrier =>
      exact .crew (.nodes _ made) _ (fun _ => groundwork.cache.entries) _

/-- A crew fails for the data alone. -/
theorem Crewed.runs (checked : Checked settings) {job : ReadyJob} (crewed : Crewed settings job)
    {inputs : JobInputs} (few : inputs.zones.zoneIds.size < 2 ^ 32)
    (valid : inputs.cacheSpec.validate = .ok ()) : Runs settings job inputs := by
  obtain ⟨crew, name, entries, start⟩ := crewed
  have evaluates : ∀ zone, ((gravity settings).evaluate zone (.ofJob inputs)).Configured := by
    intro zone
    exact Evaluator.Gravity.configured_accessibility
      { names := settings.sizeAttributes, decay := settings.decay, market := settings.marketSegment }
      zone (.ofJob inputs)
  constructor
  · exact crew.configured_compute evaluates few valid checked.some_packets _ start
  · intro table computed
    exact @Job.width_compute _ _ inputs _ _ start table computed

theorem gives_publish (table : AccessibilityTable) (path : Path) :
    Gives Fault.Elsewhere (fun _ => True) (publish table path) := by
  have stored : Gives Fault.Elsewhere (fun _ => True)
      (do table.store path; Session.say s!"  ✓ Wrote {path}" : Procedure Unit) :=
    (gives_store table path).bind fun _ _ => .say _
  unfold publish
  split
  · exact stored
  · exact .bind (.ofReply _) fun _ _ => stored

/-- Once a job is running, a build fails for the data or the files alone. -/
theorem gives_finish (checked : Checked settings) {job : ReadyJob} {inputs : JobInputs}
    (runs : Runs settings job inputs) (started : Nat) (terms : ChoiceTerms) :
    Gives Fault.Elsewhere (fun _ => True) (finish settings started job inputs terms) := by
  unfold finish
  apply (Gives.say _).bind
  intro _ _
  apply Gives.bind (.outcome (Packet.configured_ranges _ checked.some_packets) fun _ _ => trivial)
  intro packets _
  apply Gives.bind (.outcome runs.configured runs.width)
  intro unlabelled width
  have labelled : Configured (unlabelled.withLabels settings.indexLabel settings.sizeAttributes) := by
    unfold AccessibilityTable.withLabels
    rw [if_pos width.symm]
    exact .ok _
  apply Gives.bind (.outcome labelled fun _ _ => trivial)
  intro table _
  apply (Gives.say _).bind
  intro _ _
  apply (gives_publish table _).bind
  intro _ _
  exact Gives.clock.bind fun _ _ => .pure trivial

theorem ascending_of_read {bytes : List UInt8} (found : ZoneFile.read bytes = .ok zones) :
    ZoneSystem.Ascending zones.zones.toList := by
  unfold ZoneFile.read at found
  split at found
  · exact ZoneSystem.ascending_of_ofZones found
  · cases found

/-- Zones that were read from a file are ordered by their ids. -/
theorem gives_load (path : Path) :
    Gives (fun _ => True) (fun system => ZoneSystem.Ascending system.zones.toList)
      (ZoneFile.load path) := by
  intro site
  unfold Ends ZoneFile.load
  rw [ExceptT.run_mk, Session.runOn_bind]
  split
  · trivial
  · trivial
  · rename_i bytes _
    rw [Session.runOn_pure]
    cases found : ZoneFile.read bytes with
    | ok system => exact ascending_of_read found
    | error fault => trivial

theorem gives_lay (settings : Settings) :
    Gives (fun _ => True) (fun laid : ZoneSystem × Groundwork =>
      ZoneSystem.Ascending laid.1.zones.toList ∧ Founded laid.1 laid.2) (lay settings) := by
  unfold lay
  apply (Gives.say _).bind
  intro _ _
  apply (gives_load _).bind
  intro zones ascending
  apply (Gives.say _).bind
  intro _ _
  apply Gives.bind (.outcome (fun _ _ => trivial) fun _ laid => founded_of_lay laid)
  intro groundwork founded
  exact .bind (.say _) fun _ _ => .pure ⟨ascending, founded⟩

/-- All that a build does before it evaluates the packets of its job. -/
def ready (settings : Settings) : Procedure ReadyJob := do
  let (zones, groundwork) ← lay settings
  let _ ← prepare settings zones groundwork
  readyJob settings groundwork

/-- A fault that a build stops at before it evaluates a packet, and if the settings are workable on
the site before it computes anything. -/
structure Early (settings : Settings) (site : Site) (fault : Fault) (after : Site) : Prop where
  unevaluated : (ready settings).Stops site fault after
  uncomputed : Workable settings site →
    (lay settings).Stops site fault after ∧ Site.Told (· ≠ "Computing size terms...") site after

/-- The faults of each stage in turn: while the groundwork is laid any may come up, while inputs and
job are made ready only excused ones, and after that none of the configuration. -/
theorem compute_configuration (checked : Checked settings) (started : Nat) (site : Site) :
    Procedure.Ends (compute settings started) site fun outcome after =>
      ∀ fault, outcome = .error fault → fault.isConfiguration = true →
        Early settings site fault after := by
  have laying := ((tells_lay settings site).and (gives_lay settings site)).recorded
  apply laying.bind
  · rintro fault after ⟨stops, told, _⟩ _ ⟨⟩ _
    exact ⟨Stops.bind stops _, fun _ => ⟨stops, told⟩⟩
  rintro ⟨zones, groundwork⟩ laid ⟨lays, toldLaying, ascending, founded⟩
  unfold fill
  have preparing := ((tells_prepare settings zones groundwork laid).and
    (@gives_prepare settings zones groundwork site checked founded laid)).recorded
  apply preparing.bind
  · rintro fault after ⟨stops, _, excused⟩ _ ⟨⟩ blamed
    refine ⟨stops_behind lays (Stops.bind stops _), fun workable => ?_⟩
    cases blamed.symm.trans (excused workable)
  rintro ⟨inputs, terms⟩ prepared ⟨prepares, toldPreparing, rfl, spec⟩
  have unpooled : prepared.unpooled = site.unpooled :=
    toldPreparing.unpooled_eq.trans toldLaying.unpooled_eq
  apply (readyJob_ends settings groundwork prepared).recorded.bind
  · rintro fault after ⟨stops, excused⟩ _ ⟨⟩ blamed
    refine ⟨stops_behind lays (stops_behind prepares stops), fun workable => ?_⟩
    cases blamed.symm.trans (excused { workable with
      pooled := fun threads given => unpooled.trans (workable.pooled threads given) })
  rintro job readied ⟨_, crewed⟩
  have valid : inputs.cacheSpec.validate = .ok () := spec ▸ founded.valid
  have runs := crewed.runs checked (founded.few ascending) valid
  apply (gives_finish checked runs started terms readied).imp
  rintro _ after elsewhere fault rfl blamed
  cases blamed.symm.trans elsewhere

/-- A build of settings that were accepted evaluates no packet before it fails for its configuration;
unless a row has too few or too many constants, or there is nobody to evaluate packets, or no pool
for the workers, it computes nothing at all. -/
theorem run_configuration {properties : Properties} {processors : Nat} {settings : Settings}
    (accepted : Settings.ofProperties properties processors = .ok settings)
    (word : ∀ number, properties.integer "acc.packet_size" = .ok number → number < 2 ^ 63)
    {site after : Site} {fault : Fault} (stops : (run settings false).Stops site fault after)
    (blamed : fault.isConfiguration = true) : Early settings site fault after := by
  have checked := checked_of_ofProperties accepted word
  have started : Procedure.Ends (liftM Session.clock : Procedure Nat) site fun outcome after =>
      outcome = .ok site.time ∧ after = site := ⟨rfl, rfl⟩
  have ends : Procedure.Ends (run settings false) site fun outcome after =>
      ∀ fault, outcome = .error fault → fault.isConfiguration = true →
        Early settings site fault after := by
    apply started.bind
    · rintro fault after ⟨⟨⟩, _⟩
    · rintro time _ ⟨_, rfl⟩
      exact compute_configuration checked time _
  exact ends.of_stops stops fault rfl blamed

/-- The properties of the plain settings, but for the row of the first market. -/
def plainProperties (row : List Double) : Properties where
  table := [
    ("acc", .table [("zone_file", .string "zones.csv"), ("output_file", .string "out/table.csv"),
      ("packet_size", .integer 1), ("index_label", .string "zone")]),
    ("size", .table [("attributes", .array [.string "jobs"])]),
    ("constants", .table [("modes", .array [.string "walk"]),
      ("market_0", .array (row.map .float)), ("market_1", .array [.integer 0]),
      ("market_2", .array [.integer 0]), ("market_3", .array [.integer 0])])]

/-- A site with a file of one zone. -/
def singleSite (zone : String) : Site where
  tree := ⟨[(["zones.csv"],
    .file s!"zone,x,y,gs_district,hs_district,jobs\n{zone},0,0,3,20,1".toUTF8.toList)]⟩

theorem run_configuration_distant :
    Early plainSettings (singleSite "100000")
      (.configuration "max zone 100000 does not fit the pair key (must be < 100000)")
      { singleSite "100000" with
        said := ["Loading zones...", "  ✓ 1 zones (max id 100000), 1 attributes"] } := by
  have accepted : Settings.ofProperties (plainProperties [.zero]) 1 = .ok plainSettings := by
    decide +kernel
  have single : (plainProperties [.zero]).integer "acc.packet_size" = .ok 1 := by decide +kernel
  apply run_configuration accepted
  · intro number given
    obtain rfl := Except.ok.inj (single.symm.trans given)
    decide
  · decide +kernel
  · rfl

/-- That a row has too many constants is found out when the size terms are there already. -/
theorem run_configuration_wide :
    let settings := { plainSettings with constants := [.zero, .zero] :: List.replicate 3 [.zero] }
    Settings.ofProperties (plainProperties [.zero, .zero]) 1 = .ok settings ∧
      (run settings false).Stops (singleSite "1")
        (.configuration "market segment 0 has 2 constants for 1 modes")
        { singleSite "1" with
          said := ["Loading zones...", "  ✓ 1 zones (max id 1), 1 attributes",
            "  ✓ 5 school segments, 6 work segments", "Computing size terms...",
            "  ✓ 1 segments", "Computing constants..."] } :=
  ⟨by decide +kernel, by decide +kernel⟩

-- That there is no pool for the workers is found out when the constants are there as well.
example :
    let site := { singleSite "1" with unpooled := some "Resource temporarily unavailable (os error 11)" }
    (run plainSettings false).Stops site
      (.configuration "failed to build worker pool: Resource temporarily unavailable (os error 11)")
      { site with
        said := ["Loading zones...", "  ✓ 1 zones (max id 1), 1 attributes",
          "  ✓ 5 school segments, 6 work segments", "Computing size terms...",
          "  ✓ 1 segments", "Computing constants...", "  ✓ 1 modes"] } := by
  decide +kernel

end Accessibility.Build
