import Accessibility.Proofs.Build.Stages
import Accessibility.Proofs.Table.Storage

/-! A build that fails does no damage to the table of an earlier one. -/
namespace Accessibility.Build

open AccessibilityTable Procedure

/-- The directories that are created for a path where they are missing. -/
def directoriesFor (path : Path) : List Path :=
  match path.parent? with
  | none => []
  | some directory => directory.ancestors

/-- A file holds a table, its staging file is gone, and no other file is touched. -/
structure Published (path : Path) (content : List UInt8) (before after : FileTree) : Prop where
  read_eq : after.read path = .content content
  unstaged : after.fileAt? (stagingPlace path) = none
  others : ∀ place, place ≠ path.place → after.fileAt? place = before.fileAt? place

/-- Storing a table once directories have been created for it. -/
theorem store_ends_behind (table : AccessibilityTable) {path : Path} {site made : Site}
    (grown : FileTree.Grown (directoriesFor path) site.tree made.tree)
    (unfiled : site.tree.fileAt? (stagingPlace path) = none) (differs : stagingPath path ≠ path) :
    Procedure.Ends (table.store path) made fun outcome after =>
      outcome = .ok () ∧ Published path table.bytes site.tree after.tree ∨
        (∃ fault, outcome = .error fault) ∧
          FileTree.Grown (directoriesFor path) site.tree after.tree := by
  apply store_ends table
  · intro after stored
    have unstaged : after.tree.fileAt? (stagingPlace path) = none := by
      simp [FileTree.fileAt?, stored.unstaged differs]
    refine .inl ⟨rfl, stored.read_eq, unstaged, fun place other => ?_⟩
    by_cases here : place = stagingPlace path
    · rw [here, unstaged, unfiled]
    · exact (FileTree.fileAt?_congr (stored.others place other here)).trans (grown.fileAt?_eq place)
  · intro fault after withdrawn
    exact .inr ⟨⟨fault, rfl⟩, grown.congr (withdrawn.entry?_eq ((grown.fileAt?_eq _).trans unfiled))⟩

/-- A table that cannot be published leaves at most new directories. -/
theorem publish_ends (table : AccessibilityTable) {path : Path} (site : Site)
    (unfiled : site.tree.fileAt? (stagingPlace path) = none) (differs : stagingPath path ≠ path) :
    Procedure.Ends (publish table path) site fun outcome after =>
      outcome = .ok () ∧ Published path table.bytes site.tree after.tree ∨
        (∃ fault, outcome = .error fault) ∧
          FileTree.Grown (directoriesFor path) site.tree after.tree := by
  have behind : ∀ made : Site, FileTree.Grown (directoriesFor path) site.tree made.tree →
      Procedure.Ends (do table.store path; Session.say s!"  ✓ Wrote {path}") made fun outcome after =>
        outcome = .ok () ∧ Published path table.bytes site.tree after.tree ∨
          (∃ fault, outcome = .error fault) ∧
            FileTree.Grown (directoriesFor path) site.tree after.tree := by
    intro made grown
    apply (store_ends_behind table grown unfiled differs).bind
    · rintro fault after (⟨done, _⟩ | failed)
      · cases done
      · exact .inr failed
    · rintro ⟨⟩ after (⟨_, published⟩ | ⟨⟨_, failed⟩, _⟩)
      · exact .inl ⟨rfl, published⟩
      · cases failed
  unfold publish
  split
  · exact behind site (.refl _ site.tree)
  · rename_i directory found
    have grown : Procedure.Ends (.ofReply (.createDirectories directory.ancestors)) site
        fun _ after => FileTree.Grown (directoriesFor path) site.tree after.tree := by
      unfold directoriesFor
      rw [found]
      apply ends_ofReply
      exact Session.Grows.createDirectories (List.Subset.refl _) site
    apply grown.bind
    · exact fun fault after grown => .inr ⟨⟨fault, rfl⟩, grown⟩
    · exact fun _ made grown => behind made grown

/-- The file at the end of a path, or that there is none, is as it was, no other file is touched,
and the staging file is gone. Directories may have been created for the path; unless it leads back
through one of them, what stands at its end is the same altogether. -/
structure Untouched (path : Path) (before after : FileTree) : Prop where
  read_eq : ∀ bytes, before.read path = .content bytes → after.read path = .content bytes
  files_eq : ∀ place, after.fileAt? place = before.fileAt? place
  unstaged : after.fileAt? (stagingPlace path) = none
  entry_eq : ".." ∉ path.names → after.entry? path.place = before.entry? path.place

theorem Untouched.of_grown {path : Path} {before after : FileTree}
    (grown : FileTree.Grown (directoriesFor path) before after)
    (unfiled : before.fileAt? (stagingPlace path) = none) : Untouched path before after where
  read_eq _ := grown.read_eq
  files_eq := grown.fileAt?_eq
  unstaged := (grown.fileAt?_eq _).trans unfiled
  entry_eq forward := by
    rcases grown.added path.place with same | ⟨made, ancestor, mem, same_place⟩
    · exact same
    · unfold directoriesFor at mem
      split at mem
      · cases mem
      · rename_i parent found
        by_cases named : path.names = []
        · rw [Path.place_eq_names forward, named]
          rfl
        · exact absurd same_place (Path.place_ne_of_mem_ancestors found mem forward named)

/-- What a build comes to: a published table, or a fault and at most new directories. -/
def Settled (path : Path) (before : FileTree) (outcome : Outcome BuildResult) (after : Site) : Prop :=
  match outcome with
  | .ok result => Published path result.table.bytes before after.tree
  | .error _ => FileTree.Grown (directoriesFor path) before after.tree

theorem Settled.of_same {path : Path} {before : FileTree} (fault : Fault) (after : Site)
    (same : after.tree = before) : Settled path before (.error fault) after := same ▸ .refl _ _

/-- Everything up to the computed table leaves the tree alone; publishing the table is the rest. -/
theorem fill_settled (settings : Settings) (started : Nat) (zones : ZoneSystem)
    (groundwork : Groundwork) {tree : FileTree} {site : Site} (same : site.tree = tree)
    (unfiled : tree.fileAt? (stagingPlace settings.outputFile) = none)
    (differs : stagingPath settings.outputFile ≠ settings.outputFile) :
    Procedure.Ends (fill settings started zones groundwork) site
      (Settled settings.outputFile tree) := by
  have said : ∀ line, Tells (fun _ => True) (liftM (Session.say line) : Procedure Unit) :=
    fun line => .say trivial
  have computed : ∀ {α : Type} (outcome : Outcome α),
      Tells (fun _ => True) (liftM outcome : Procedure α) := fun outcome => .outcome outcome
  have readies : Tells (fun _ => True) (readyJob settings groundwork) := tells_readyJob settings groundwork
  unfold fill
  apply (tells_prepare settings zones groundwork).ends_bind same Settled.of_same
  rintro ⟨inputs, terms⟩ site same
  apply readies.ends_bind same Settled.of_same
  intro job site same
  unfold finish
  apply (said _).ends_bind same Settled.of_same
  intro _ site same
  apply (computed _).ends_bind same Settled.of_same
  intro packets site same
  apply (computed _).ends_bind same Settled.of_same
  intro unlabelled site same
  apply (computed _).ends_bind same Settled.of_same
  intro table site same
  apply (said _).ends_bind same Settled.of_same
  intro _ site same
  subst same
  apply (publish_ends table site unfiled differs).bind
  · rintro fault after (⟨done, _⟩ | ⟨_, grown⟩)
    · cases done
    · exact grown
  · rintro ⟨⟩ after (⟨_, published⟩ | ⟨⟨_, failed⟩, _⟩)
    · exact published
    · cases failed

/-- A build that fails does no damage to the table of an earlier one, wherever it fails and
whichever of its steps on files are refused or interrupted; one that succeeds leaves the very table
that it returns. -/
theorem run_all_or_nothing (settings : Settings) (site : Site)
    (unfiled : site.tree.fileAt? (stagingPlace settings.outputFile) = none)
    (differs : stagingPath settings.outputFile ≠ settings.outputFile) :
    Procedure.Ends (run settings false) site fun outcome after =>
      match outcome with
      | .ok result => Published settings.outputFile result.table.bytes site.tree after.tree
      | .error _ => Untouched settings.outputFile site.tree after.tree := by
  have settled : Procedure.Ends (run settings false) site
      (Settled settings.outputFile site.tree) := by
    have clock : Tells (fun _ => True) (liftM Session.clock : Procedure Nat) := .clock
    apply clock.ends_bind rfl Settled.of_same
    intro started site same
    apply (tells_lay settings).ends_bind same Settled.of_same
    rintro ⟨zones, groundwork⟩ site same
    exact fill_settled settings started zones groundwork same unfiled differs
  apply settled.imp
  rintro (fault | result) after ended
  · exact .of_grown ended unfiled
  · exact ended

/-- Settings with one size attribute and one mode. -/
def plainSettings : Settings where
  zoneFile := ⟨"zones.csv"⟩
  outputFile := ⟨"out/table.csv"⟩
  indexLabel := "zone"
  packetSize := 1
  placement := .inProcess 1
  cache := { maxTap := 0, segments := 1, periods := 1 }
  sizeAttributes := ["jobs"]
  schoolSizeAttributes := none
  enrollmentAttribute := none
  workSizeAttributes := none
  modes := ["walk"]
  constants := List.replicate 4 [.zero]
  decay := .one
  marketSegment := 3

/-- The table of an earlier build, which the next one cannot replace. -/
def lockedSite : Site where
  tree := ⟨[(["zones.csv"], .file "zone,x,y,gs_district,hs_district,jobs".toUTF8.toList),
    (["out"], .directory), (["out", "table.csv"], .file "zone,jobs".toUTF8.toList)]⟩
  interruptions := [none, none, some ⟨.other "Permission denied (os error 13)", 0⟩]

theorem run_all_or_nothing_locked :
    ((run plainSettings false).run.runOn lockedSite).1.isOk = false ∧
      Procedure.Ends (run plainSettings false) lockedSite fun outcome after =>
        match outcome with
        | .ok result => Published plainSettings.outputFile result.table.bytes lockedSite.tree after.tree
        | .error _ => Untouched plainSettings.outputFile lockedSite.tree after.tree :=
  ⟨by decide +kernel, run_all_or_nothing plainSettings lockedSite (by decide) (by decide)⟩

end Accessibility.Build
