import Accessibility.Proofs.Build.Configuration
import Accessibility.Proofs.Execution.Independence
import Accessibility.Proofs.Table.Text

/-! A build and the next one. A build that comes to a result leaves in the output file the text of a
table that can be kept there: its labels are those of the settings, it does not have a row for every
id there can be, and none of its cells is a NaN (`keeps_of_run`). So its text is read as the very
table it was, and the next build takes it from there (`run_again`). -/
namespace Accessibility

variable {α β : Type}

/-- The steps that a session takes on a site, in order. -/
def Session.trace : Session α → Site → List Act
  | .done _, _ => []
  | .act step next, site => step :: (next (site.perform step).1).trace (site.perform step).2

theorem Session.trace_bind (session : Session α) (next : α → Session β) (site : Site) :
    (session >>= next).trace site =
      session.trace site ++ (next (session.runOn site).1).trace (session.runOn site).2 := by
  induction session generalizing site with
  | done value => rfl
  | act step rest ih => exact congrArg (step :: ·) (ih (site.perform step).1 (site.perform step).2)

/-- A procedure ends in a value, by the steps that are named. -/
structure Procedure.Takes (procedure : Procedure α) (site : Site) (steps : List Act) (value : α)
    (after : Site) : Prop where
  ran : procedure.run.runOn site = (.ok value, after)
  trace_eq : procedure.run.trace site = steps

theorem Procedure.Takes.bind {procedure : Procedure α} {next : α → Procedure β} {value : α}
    {result : β} {site between after : Site} {steps more : List Act}
    (first : procedure.Takes site steps value between)
    (onward : (next value).Takes between more result after) :
    (procedure >>= next).Takes site (steps ++ more) result after where
  ran := (runOn_bind_of_ok first.ran next).trans onward.ran
  trace_eq := by
    refine (Session.trace_bind procedure.run (ExceptT.bindCont next) site).trans ?_
    rw [first.ran, first.trace_eq, ← onward.trace_eq]
    rfl

namespace Build

open AccessibilityTable Procedure

variable {settings : Settings} {site after : Site} {table : AccessibilityTable}

/-! ## The table that is published -/

/-- A table that was staged is read at the path it was staged for. -/
theorem read_of_stage {path : Path}
    (staged : (table.stage path).run.runOn site = (.ok (), after)) :
    after.tree.read path = .content table.bytes := by
  obtain ⟨_, filled, _, staged⟩ := runOn_bind_eq_ok staged
  obtain ⟨_, full, wrote, moved⟩ := runOn_bind_eq_ok staged
  obtain ⟨-, written⟩ | ⟨⟨_, ⟨⟩⟩, _⟩ := (ends_write (stagingPath path) table.bytes filled).of_ran wrote
  obtain ⟨-, renamed⟩ | ⟨⟨_, ⟨⟩⟩, _⟩ := (ends_rename (stagingPath path) path full).of_ran moved
  exact FileTree.read_of_rename renamed (FileTree.entry?_of_write written)

theorem read_of_store {path : Path}
    (stored : (table.store path).run.runOn site = (.ok (), after)) :
    after.tree.read path = .content table.bytes := by
  unfold store at stored
  rw [ExceptT.run_mk, Session.runOn_bind] at stored
  cases staged : (table.stage path).run.runOn site with
  | mk outcome between =>
    rw [staged] at stored
    cases outcome with
    | ok _ =>
      cases stored
      exact read_of_stage staged
    | error fault =>
      rw [Session.runOn_bind] at stored
      cases stored

theorem read_of_publish {path : Path}
    (published : (publish table path).run.runOn site = (.ok (), after)) :
    after.tree.read path = .content table.bytes := by
  have behind {site : Site} (ran : (do table.store path; Session.say s!"  ✓ Wrote {path}" :
      Procedure Unit).run.runOn site = (.ok (), after)) :
      after.tree.read path = .content table.bytes := by
    obtain ⟨_, stored, ran, said⟩ := runOn_bind_eq_ok ran
    have content := read_of_store ran
    cases said
    exact content
  unfold publish at published
  split at published
  · exact behind published
  · obtain ⟨_, _, _, published⟩ := runOn_bind_eq_ok published
    exact behind published

/-! ## The table that is built -/

/-- A table whose text the settings find to be the table again. -/
structure Keeps (settings : Settings) (table : AccessibilityTable) : Prop where
  indexLabel : table.indexLabel = settings.indexLabel
  names : table.names = settings.sizeAttributes
  shaped : table.Shaped
  incomplete : table.maxZone ≠ 0xFFFFFFFF
  numbers : ∀ value ∈ table.values, value.isNaN = false

/-- What is known of the table of a job before it takes its labels. -/
structure Computed (inputs : JobInputs) (table : AccessibilityTable) : Prop where
  made : Made table
  maxZone : table.maxZone = inputs.zones.maxZone
  numbers : ∀ value ∈ table.values, value.isNaN = false

theorem computed_of_crew {evaluator : Evaluator} {σ : Type} {executor : Executor σ}
    (crew : Job.Crew evaluator executor) {inputs : JobInputs} {packetSize : UInt64}
    {alternatives : Nat} {state : σ}
    (computed : (Job.compute executor inputs packetSize alternatives state).1 = .ok table) :
    Computed inputs table := by
  have numbers : ∀ value ∈ table.values, value.isNaN = false := by
    intro value held
    obtain rfl | ⟨x, _, finite, rfl⟩ := crew.exists_mayGive computed held
    · decide
    · exact Double.isNaN_toSingle finite
  cases cut : Packet.ranges inputs.zones.zoneIds.size.toUInt64 packetSize with
  | error fault =>
    simp only [Job.compute, cut] at computed
    cases computed
  | ok packets =>
    obtain ⟨results, _, merged⟩ := (Job.compute_eq_ok cut alternatives state table).mp computed
    have made : Made table := merge_induction (.zeros _ _)
      (fun _ _ _ _ zone _ row _ written made => .setRow zone row made written) merged
    exact ⟨made, maxZone_of_merge merged, numbers⟩

theorem Crewed.computed {job : ReadyJob} (crewed : Crewed settings job) {inputs : JobInputs}
    (computed : (job.run inputs).1 = .ok table) : Computed inputs table := by
  obtain ⟨crew, _, _, _⟩ := crewed
  exact computed_of_crew crew computed

theorem keeps_of_withLabels {inputs : JobInputs} {unlabelled : AccessibilityTable}
    (computed : Computed inputs unlabelled) (few : inputs.zones.maxZone < 100000)
    (labelled : unlabelled.withLabels settings.indexLabel settings.sizeAttributes = .ok table) :
    Keeps settings table := by
  have shaped := (Made.withLabels _ _ computed.made labelled).shaped
  unfold withLabels at labelled
  split at labelled
  · cases labelled
    refine ⟨rfl, rfl, shaped, ?_, computed.numbers⟩
    rintro full
    rw [← computed.maxZone] at few
    dsimp only at full
    rw [full] at few
    exact absurd few (by decide)
  · cases labelled

theorem inputs_of_prepare {zones : ZoneSystem} {groundwork : Groundwork} {inputs : JobInputs}
    {terms : ChoiceTerms}
    (prepared : (prepare settings zones groundwork).run.runOn site = (.ok (inputs, terms), after)) :
    inputs.zones = zones ∧ inputs.cacheSpec = groundwork.cache.spec := by
  unfold prepare at prepared
  -- None of the nine steps before the last says anything about the zones or the cache.
  iterate 9 obtain ⟨_, _, _, prepared⟩ := runOn_bind_eq_ok prepared
  cases prepared
  exact ⟨rfl, rfl⟩

theorem keeps_of_finish {started : Nat} {job : ReadyJob} {inputs : JobInputs} {terms : ChoiceTerms}
    {result : BuildResult}
    (computes : ∀ table, (job.run inputs).1 = .ok table → Computed inputs table)
    (few : inputs.zones.maxZone < 100000)
    (finished : (finish settings started job inputs terms).run.runOn site = (.ok result, after)) :
    Keeps settings result.table ∧
      after.tree.read settings.outputFile = .content result.table.bytes := by
  obtain ⟨_, _, _, computing⟩ := runOn_bind_eq_ok finished
  obtain ⟨packets, _, _, running⟩ := runOn_bind_eq_ok computing
  obtain ⟨unlabelled, _, ran, labelling⟩ := runOn_bind_eq_ok running
  obtain ⟨table, _, labelled, merging⟩ := runOn_bind_eq_ok labelling
  obtain ⟨_, _, _, publishing⟩ := runOn_bind_eq_ok merging
  obtain ⟨_, _, published, ending⟩ := runOn_bind_eq_ok publishing
  have content := read_of_publish published
  have keeps := keeps_of_withLabels (computes unlabelled (runOn_outcome ran).1) few
    (runOn_outcome labelled).1
  cases ending
  exact ⟨keeps, content⟩

/-- A build that comes to a result leaves its table in the output file, in a form that can be kept
there. -/
theorem keeps_of_run {result : BuildResult}
    (built : (run settings false).run.runOn site = (.ok result, after)) :
    Keeps settings result.table ∧
      after.tree.read settings.outputFile = .content result.table.bytes := by
  obtain ⟨started, _, _, computing⟩ := runOn_bind_eq_ok built
  obtain ⟨⟨zones, groundwork⟩, _, laid, filling⟩ := runOn_bind_eq_ok computing
  obtain ⟨⟨inputs, terms⟩, _, prepared, readying⟩ := runOn_bind_eq_ok filling
  obtain ⟨job, _, ready, finishing⟩ := runOn_bind_eq_ok readying
  have founded : Founded zones groundwork := ((gives_lay settings _).of_ran laid).2
  have few := (CacheSpec.validate_eq_ok_iff.mp founded.valid).1.1
  rw [founded.highest, ← (inputs_of_prepare prepared).1] at few
  have crewed : Crewed settings job := (readyJob_ends settings groundwork _).of_ran ready
  exact keeps_of_finish (fun table => crewed.computed) few finishing

/-! ## The next build -/

theorem takes_load {path : Path} (content : site.tree.read path = .content table.bytes)
    (back : read table.bytes = .ok table) :
    Procedure.Takes (load path) site [.read path] table site where
  ran := by
    unfold load
    rw [ExceptT.run_mk, Session.runOn_bind]
    have reads : (Session.read path).runOn site = (.content table.bytes, site) :=
      congrArg (·, site) content
    simp only [reads, back]
    rfl
  trace_eq := by
    unfold load
    rw [ExceptT.run_mk, Session.trace_bind]
    have reads : (Session.read path).runOn site = (.content table.bytes, site) :=
      congrArg (·, site) content
    simp only [reads]
    rfl

/-- What a reused table is given out as, at once. -/
def reused (settings : Settings) (table : AccessibilityTable) : BuildResult where
  table := table
  terms := {}
  outputPath := settings.outputFile
  reused := true
  zones := 0
  packets := 0
  executor := "none"
  cachedPaths := 0
  milliseconds := 0

/-- The lines that are printed when a table is reused. -/
def reuseLines (settings : Settings) (table : AccessibilityTable) : List String :=
  [s!"Reusing {settings.outputFile}...", s!"  ✓ {table.maxZone.toNat + 1} rows"]

/-- The steps of a build that reuses a table. -/
def reuseSteps (settings : Settings) (table : AccessibilityTable) : List Act :=
  [.clock, .probe settings.outputFile, .say s!"Reusing {settings.outputFile}...",
    .read settings.outputFile, .say s!"  ✓ {table.maxZone.toNat + 1} rows", .clock]

theorem takes_say (line : String) (site : Site) :
    Procedure.Takes (liftM (Session.say line) : Procedure Unit) site [.say line] ()
      { site with said := site.said ++ [line] } := ⟨rfl, rfl⟩

theorem takes_clock (site : Site) :
    Procedure.Takes (liftM Session.clock : Procedure Nat) site [.clock] site.time site := ⟨rfl, rfl⟩

/-- A table that is there with the right alternatives is reused. -/
theorem takes_run (names : table.names = settings.sizeAttributes)
    (content : site.tree.read settings.outputFile = .content table.bytes)
    (back : read table.bytes = .ok table) :
    Procedure.Takes (run settings true) site (reuseSteps settings table) (reused settings table)
      { site with said := site.said ++ reuseLines settings table } := by
  have present := FileTree.probe_of_read content
  have probes : Procedure.Takes (liftM (Session.probe settings.outputFile) : Procedure Presence) site
      [.probe settings.outputFile] .file site :=
    ⟨congrArg (fun found => (Except.ok found, site)) present, rfl⟩
  have loads (said : List String) : Procedure.Takes (load settings.outputFile) { site with said }
      [.read settings.outputFile] table { site with said } := takes_load content back
  have reuses : Procedure.Takes (reuse settings site.time) site
      [.say s!"Reusing {settings.outputFile}...", .read settings.outputFile,
        .say s!"  ✓ {table.maxZone.toNat + 1} rows", .clock] (reused settings table)
      { site with said := site.said ++ reuseLines settings table } := by
    apply (takes_say _ _).bind
    apply (loads _).bind
    simp only [names, ne_eq, not_true_eq_false, ↓reduceIte]
    apply (takes_say _ _).bind
    apply (takes_clock _).bind
    simp only [Nat.sub_self, List.append_assoc]
    exact ⟨rfl, rfl⟩
  exact (takes_clock site).bind (probes.bind reuses)

/-- What a build comes to, the next one takes from the output file. It gives the very same table,
by steps that read nothing but the output file and change no file; the settings that say where the
zones are and how they are evaluated make no difference to it. -/
theorem run_again (settings : Settings)
    (unmarked : settings.indexLabel.toList.head? ≠ some Delimited.mark) (site after : Site)
    (result : BuildResult) (built : (run settings false).run.runOn site = (.ok result, after)) :
    ∃ again last, (run settings true).run.runOn after = (.ok again, last) ∧
      again.reused = true ∧ again.table = result.table ∧ last.tree = after.tree ∧
      again.executor = "none" ∧ again.packets = 0 ∧ again.cachedPaths = 0 ∧
      (run settings true).run.trace after = [.clock, .probe settings.outputFile,
        .say s!"Reusing {settings.outputFile}...", .read settings.outputFile,
        .say s!"  ✓ {result.table.maxZone.toNat + 1} rows", .clock] ∧
      ∀ other : Settings, other.outputFile = settings.outputFile →
        other.sizeAttributes = settings.sizeAttributes →
          (run other true).run.runOn after = (.ok again, last) := by
  obtain ⟨keeps, content⟩ := keeps_of_run built
  have back := read_bytes_of_numbers keeps.shaped (keeps.indexLabel ▸ unmarked) keeps.incomplete
    keeps.numbers
  have takes := takes_run keeps.names content back
  refine ⟨reused settings result.table, _, takes.ran, rfl, rfl, rfl, rfl, rfl, rfl, takes.trace_eq, ?_⟩
  intro other path attributes
  rw [← path] at content
  have others := (takes_run (keeps.names.trans attributes.symm) content back).ran
  rw [others]
  simp only [reused, reuseLines, path]

/-- Workers that get their pool run the job over the cache of the groundwork. -/
theorem exists_readyJob {threads : Nat} {groundwork : Groundwork} {executor : Executor UtilityCache}
    (inside : settings.placement = .inProcess threads)
    (created : LocalExecutor.create threads (gravity settings) = .ok executor) (pooled : site.unpooled = none) :
    ∃ job, (readyJob settings groundwork).run.runOn site = (.ok job, site) ∧ job.executor = executor.name ∧
      ∀ inputs, (job.run inputs).1 =
        (Job.compute executor inputs settings.packetSize (gravity settings).width groundwork.cache).1 := by
  have employs : (employ threads (gravity settings)).run.runOn site = (.ok executor, site) := by
    have asks : (liftM (Session.enlist threads) : Procedure (Except String Unit)).run.runOn site =
        (.ok (.ok ()), site) := by
      show (Except.ok (site.perform (.enlist threads)).1, site) = _
      simp only [Site.perform, pooled]
      rfl
    unfold employ
    rw [created]
    exact runOn_bind_of_ok asks _
  unfold readyJob
  rw [inside]
  exact ⟨_, runOn_bind_of_ok employs _, rfl, fun _ => rfl⟩

/-- A job that comes to a table which can be labelled and published is finished. -/
theorem exists_finish {started : Nat} {job : ReadyJob} {inputs : JobInputs} {terms : ChoiceTerms}
    {packets : List Packet} {unlabelled : AccessibilityTable}
    (cut : Packet.ranges inputs.zones.size.toUInt64 settings.packetSize = .ok packets)
    (computed : (job.run inputs).1 = .ok unlabelled)
    (labelled : unlabelled.withLabels settings.indexLabel settings.sizeAttributes = .ok table)
    (published : (publish table settings.outputFile).run.runOn
      { site with said := site.said ++ [s!"Computing accessibilities ({job.executor})..."] ++
          [s!"  ✓ {packets.length} packets merged"] } = (.ok (), after)) :
    ∃ result, (finish settings started job inputs terms).run.runOn site = (.ok result, after) ∧
      result.table = table := by
  have told (line : String) (site : Site) : (liftM (Session.say line) : Procedure Unit).run.runOn site =
      (.ok (), { site with said := site.said ++ [line] }) := rfl
  have same {α : Type} {outcome : Outcome α} {value : α} (came : outcome = .ok value) (site : Site) :
      (liftM outcome : Procedure α).run.runOn site = (.ok value, site) := by
    rw [came]
    rfl
  unfold finish
  rw [runOn_bind_of_ok (told _ _), runOn_bind_of_ok (same cut _), runOn_bind_of_ok (same computed _),
    runOn_bind_of_ok (same labelled _), runOn_bind_of_ok (told _ _), runOn_bind_of_ok published]
  exact ⟨_, rfl, rfl⟩

/-- A build comes to a result if its stages do, one after the other. -/
theorem runOn_run_of_stages {zones : ZoneSystem} {groundwork : Groundwork} {inputs : JobInputs}
    {terms : ChoiceTerms} {job : ReadyJob} {result : BuildResult} {laid prepared readied : Site}
    (lays : (lay settings).run.runOn site = (.ok (zones, groundwork), laid))
    (prepares : (prepare settings zones groundwork).run.runOn laid = (.ok (inputs, terms), prepared))
    (readies : (readyJob settings groundwork).run.runOn prepared = (.ok job, readied))
    (finishes : (finish settings site.time job inputs terms).run.runOn readied = (.ok result, after)) :
    (run settings false).run.runOn site = (.ok result, after) := by
  have starts : (liftM Session.clock : Procedure Nat).run.runOn site = (.ok site.time, site) := rfl
  have fills : (fill settings site.time zones groundwork).run.runOn laid = (.ok result, after) := by
    unfold fill
    rw [runOn_bind_of_ok prepares, runOn_bind_of_ok readies, finishes]
  have computes : (compute settings site.time).run.runOn site = (.ok result, after) := by
    unfold compute
    rw [runOn_bind_of_ok lays, fills]
  exact (runOn_bind_of_ok starts _).trans computes

/-- The inputs of the job for a file of one zone that has one job. -/
def singleInputs : JobInputs where
  zones := ⟨["jobs"], #[⟨1, .zero, .zero, ⟨3, 20⟩, [.one]⟩]⟩
  sizeTerms := ⟨["jobs"], 1, #[.zero, .one], #[false, true]⟩
  constants := ⟨["walk"], List.toArray (.replicate 4 .one)⟩
  cacheSpec := ⟨1, 0, 1, 1⟩

/-- The table of the job: its zone has the logarithm of two. -/
def singleTable : AccessibilityTable := ⟨"zone", ["jobs"], 1, #[.zero, ⟨0x3F317218⟩]⟩

/-- The job over an empty cache has this table, under the label that a merged table has. -/
theorem computed_singleInputs {executor : Executor UtilityCache}
    (created : LocalExecutor.create 1 (gravity plainSettings) = .ok executor) :
    (Job.compute executor singleInputs 1 1 (.empty ⟨1, 0, 1, 1⟩)).1 =
      .ok { singleTable with names := ["alt_0"] } := by
  have cut : Packet.ranges singleInputs.zones.zoneIds.size.toUInt64 1 = .ok [⟨1, 0, 0⟩] := by decide +kernel
  obtain ⟨evaluated, _⟩ := Evaluation.run_ledger (UtilityCache.tracks_empty ⟨1, 0, 1, 1⟩) rfl
    (LocalExecutor.evaluation (gravity plainSettings) singleInputs ⟨1, 0, 0⟩)
  have answered : ((LocalExecutor.evaluation (gravity plainSettings) singleInputs ⟨1, 0, 0⟩).runLedger
      ⟨1, 0, 1, 1⟩ .empty).1 = .ok ⟨1, 0, 0, 1, #[⟨0x3F317218⟩]⟩ := by decide +kernel
  rw [Job.compute_eq_ok cut]
  refine ⟨[⟨1, 0, 0, 1, #[⟨0x3F317218⟩]⟩], ?_, by decide +kernel⟩
  rw [LocalExecutor.submit_of_create created, Executor.submit_single, evaluated, answered]
  rfl

/-- The site of the one zone when the inputs are there. -/
def preparedSite : Site :=
  { singleSite "1" with
    said := ["Loading zones...", "  ✓ 1 zones (max id 1), 1 attributes",
      "  ✓ 5 school segments, 6 work segments", "Computing size terms...", "  ✓ 1 segments",
      "Computing constants...", "  ✓ 1 modes"] }

/-- All stages can be computed but the job, which goes through a cache. -/
theorem exists_run_single :
    ∃ result after, (run plainSettings false).run.runOn (singleSite "1") = (.ok result, after) ∧
      result.table = singleTable := by
  have both : (do
      let laid ← lay plainSettings
      let prepared ← prepare plainSettings laid.1 laid.2
      return prepared.1 : Procedure JobInputs).run.runOn (singleSite "1") = (.ok singleInputs, preparedSite) := by
    decide +kernel
  obtain ⟨⟨zones, groundwork⟩, laid, lays, preparing⟩ := runOn_bind_eq_ok both
  obtain ⟨⟨inputs, terms⟩, prepared, prepares, ended⟩ := runOn_bind_eq_ok preparing
  cases ended
  have fresh : groundwork.cache = .empty ⟨1, 0, 1, 1⟩ := by
    have founded : Founded zones groundwork := ((gives_lay plainSettings _).of_ran lays).2
    rw [founded.fresh, ← (inputs_of_prepare prepares).2]
  obtain ⟨executor, created, name⟩ : ∃ executor, LocalExecutor.create 1 (gravity plainSettings) = .ok executor ∧
      executor.name = "local" := ⟨_, rfl, rfl⟩
  obtain ⟨job, readies, called, runs⟩ :=
    @exists_readyJob plainSettings preparedSite 1 groundwork executor rfl created rfl
  have computed : (job.run singleInputs).1 = .ok { singleTable with names := ["alt_0"] } := by
    rw [runs, fresh]
    exact computed_singleInputs created
  have cut : Packet.ranges singleInputs.zones.size.toUInt64 1 = .ok [⟨1, 0, 0⟩] := by decide +kernel
  obtain ⟨⟨⟩, after, published⟩ := @exists_runOn_of_isOk _ (publish singleTable plainSettings.outputFile)
    { preparedSite with said := preparedSite.said ++ [s!"Computing accessibilities ({job.executor})..."] ++
        ["  ✓ 1 packets merged"] } (by rw [called, name]; decide +kernel)
  have labelled : ({ singleTable with names := ["alt_0"] } : AccessibilityTable).withLabels
      plainSettings.indexLabel plainSettings.sizeAttributes = .ok singleTable := rfl
  obtain ⟨result, finishes, table⟩ := @exists_finish plainSettings preparedSite after singleTable 0 job
    singleInputs terms _ _ cut computed labelled published
  exact ⟨result, after, runOn_run_of_stages lays prepares readies finishes, table⟩

theorem run_again_single :
    ∃ result after again last,
      (run plainSettings false).run.runOn (singleSite "1") = (.ok result, after) ∧
        result.table = singleTable ∧ (run plainSettings true).run.runOn after = (.ok again, last) ∧
        again.reused = true ∧ again.table = result.table ∧ last.tree = after.tree := by
  obtain ⟨result, after, ran, table⟩ := exists_run_single
  obtain ⟨again, last, reran, reused, same, kept, -⟩ :=
    run_again plainSettings (by decide) (singleSite "1") after result ran
  exact ⟨result, after, again, last, ran, table, reran, reused, same, kept⟩

end Build

end Accessibility
