import Accessibility.Proofs.Filing.Session
import Accessibility.Proofs.Filing.Tree
import Accessibility.Table.Storage

/-! What storing a table does to a tree. Until the staging file takes the place of its target it is
all that differs, whichever step is interrupted or refused; a store that fails takes it away again.
So a store changes nothing but its target and its staging place (`store_frame`). A file that stood at
the staging place before is taken over, and gone however the store ends; where there was none, a store
that fails leaves every place as it was. -/
namespace Accessibility.AccessibilityTable

variable {table : AccessibilityTable} {path : Path} {before after : FileTree} {site : Site}

/-- Where a table is staged on its way to a path. -/
def stagingPlace (path : Path) : List String := (stagingPath path).place

/-- Nothing differs but the staging file, which holds some bytes. -/
structure Staged (path : Path) (content : List UInt8) (before after : FileTree) : Prop where
  located : after.locate (stagingPath path) = .ok (stagingPlace path)
  away : before.entry? (stagingPlace path) ≠ some .directory
  present : after.entry? (stagingPlace path) = some (.file content)
  others : ∀ place, place ≠ stagingPlace path → after.entry? place = before.entry? place

theorem Staged.of_create (created : before.create (stagingPath path) = .ok after) :
    Staged path [] before after := by
  obtain ⟨located, away, made⟩ := FileTree.of_create created
  rw [← stagingPlace] at located away made
  subst made
  have entry := FileTree.entry?_put before (.file []) (FileTree.ne_nil_of_not_directory away)
  refine ⟨FileTree.locate_mono (FileTree.stands_put away _) located, away, ?_, ?_⟩
  · exact (entry _).trans (if_pos rfl)
  · intro place other
    exact (entry _).trans (if_neg other)

theorem Staged.put {content : List UInt8} (staged : Staged path content before after)
    (bytes : List UInt8) :
    Staged path bytes before (after.put (stagingPlace path) (.file bytes)) := by
  have entry := FileTree.entry?_put after (.file bytes) (FileTree.ne_nil_of_not_directory staged.away)
  have away : after.entry? (stagingPlace path) ≠ some .directory := by simp [staged.present]
  refine ⟨FileTree.locate_mono (FileTree.stands_put away _) staged.located, staged.away, ?_, ?_⟩
  · exact (entry _).trans (if_pos rfl)
  · intro place other
    rw [entry, if_neg other, staged.others place other]

/-- Nothing differs, but that a file at the staging place may be gone. -/
structure Withdrawn (path : Path) (before after : FileTree) : Prop where
  others : ∀ place, place ≠ stagingPlace path → after.entry? place = before.entry? place
  staging : after.entry? (stagingPlace path) = before.entry? (stagingPlace path) ∨
    after.entry? (stagingPlace path) = none ∧ ∃ bytes, before.entry? (stagingPlace path) = some (.file bytes)

/-- Where no file stood at the staging place every place is as it was. -/
theorem Withdrawn.entry?_eq (withdrawn : Withdrawn path before after)
    (unfiled : before.fileAt? (stagingPlace path) = none) (place : List String) :
    after.entry? place = before.entry? place := by
  by_cases here : place = stagingPlace path
  · rw [here]
    rcases withdrawn.staging with same | ⟨_, bytes, stood⟩
    · exact same
    · simp [FileTree.fileAt?, stood] at unfiled
  · exact withdrawn.others place here

theorem Staged.remove {content : List UInt8} (staged : Staged path content before after) :
    ∃ last, after.remove (stagingPath path) = .ok last ∧ Withdrawn path before last := by
  refine ⟨_, FileTree.remove_file staged.located staged.present, ?_⟩
  have entry := FileTree.entry?_erase after (FileTree.ne_nil_of_not_directory staged.away)
  have gone := (entry (stagingPlace path)).trans (if_pos rfl)
  refine ⟨fun place other => ?_, ?_⟩
  · rw [entry, if_neg other, staged.others place other]
  · rcases stood : before.entry? (stagingPlace path) with _ | _ | bytes
    · exact .inl gone
    · exact absurd stood staged.away
    · exact .inr ⟨gone, bytes, rfl⟩

/-- A file has taken its place, the staging file is gone, and nothing else differs. -/
structure Stored (path : Path) (content : List UInt8) (before after : FileTree) : Prop where
  read_eq : after.read path = .content content
  unstaged : stagingPath path ≠ path → after.entry? (stagingPlace path) = none
  others : ∀ place, place ≠ path.place → place ≠ stagingPlace path →
    after.entry? place = before.entry? place

theorem Staged.rename {content : List UInt8} {last : FileTree} (staged : Staged path content before after)
    (moved : after.rename (stagingPath path) path = .ok last) : Stored path content before last := by
  have read_eq := FileTree.read_of_rename moved staged.present
  obtain ⟨unslashed, pointless, -, away, bytes, -, rfl⟩ := FileTree.of_rename moved
  have entry (place : List String) : FileTree.entry?
      (FileTree.put (after.erase (stagingPlace path)) path.place (.file bytes)) place =
        if place = path.place then some (.file bytes)
        else if place = stagingPlace path then none else after.entry? place := by
    rw [FileTree.entry?_put _ _ (FileTree.ne_nil_of_not_directory away),
      FileTree.entry?_erase after (FileTree.ne_nil_of_not_directory staged.away)]
  refine ⟨read_eq, fun differs => ?_, fun place other elsewhere => ?_⟩
  · have apart : stagingPlace path ≠ path.place :=
      Path.place_withExtension_ne (by decide) (by decide) unslashed pointless differs
    exact (entry _).trans ((if_neg apart).trans (if_pos rfl))
  · refine (entry place).trans ?_
    rw [if_neg other, if_neg elsewhere, staged.others place elsewhere]

/-- However staging ends, a table in its place is complete, and else the staging file is all
that differs. -/
theorem stage_ends (table : AccessibilityTable) (path : Path) (site : Site) :
    Procedure.Ends (table.stage path) site fun outcome after =>
      outcome = .ok () ∧ Stored path table.bytes site.tree after.tree ∨
        (∃ fault, outcome = .error fault) ∧
          (after.tree = site.tree ∨ ∃ content, Staged path content site.tree after.tree) := by
  apply (Procedure.ends_create _ site).bind
  · rintro fault after (⟨done, _⟩ | ⟨_, same⟩)
    · cases done
    · exact .inr ⟨⟨fault, rfl⟩, .inl same⟩
  rintro ⟨⟩ created (⟨_, made⟩ | ⟨⟨_, failed⟩, _⟩)
  case inr => cases failed
  have staged := Staged.of_create made
  apply (Procedure.ends_write _ _ created).bind
  · rintro fault after (⟨done, _⟩ | ⟨_, same | ⟨kept, halfway⟩⟩)
    · cases done
    · exact .inr ⟨⟨fault, rfl⟩, .inr ⟨[], same ▸ staged⟩⟩
    · obtain ⟨_, cut⟩ := FileTree.of_write halfway
      exact .inr ⟨⟨fault, rfl⟩, .inr ⟨kept, cut ▸ staged.put kept⟩⟩
  rintro ⟨⟩ filled (⟨_, written⟩ | ⟨⟨_, failed⟩, _⟩)
  case inr => cases failed
  have full : Staged path table.bytes site.tree filled.tree :=
    (FileTree.of_write written).2 ▸ staged.put table.bytes
  apply (Procedure.ends_rename _ _ filled).imp
  rintro outcome after (⟨done, moved⟩ | ⟨failed, same⟩)
  · exact .inl ⟨done, full.rename moved⟩
  · exact .inr ⟨failed, .inr ⟨table.bytes, same ▸ full⟩⟩

/-- Removing the staging file takes back what staging did, and nothing else, also where staging
did nothing. -/
theorem remove_staging (site : Site)
    (left : site.tree = before ∨ ∃ content, Staged path content before site.tree) :
    Withdrawn path before ((Session.remove (stagingPath path)).runOn site).2.tree := by
  rw [Session.runOn_remove]
  rcases left with rfl | ⟨content, staged⟩
  · -- Nothing was staged, but a file may have stood there before: it goes all the same.
    cases removed : site.tree.remove (stagingPath path) with
    | error fault =>
      simp only [Site.perform, removed]
      exact ⟨fun _ _ => rfl, .inl rfl⟩
    | ok last =>
      obtain ⟨bytes, stood, rfl⟩ := FileTree.of_remove removed
      have somewhere : stagingPlace path ≠ [] := @FileTree.ne_nil_of_not_directory site.tree _
        (by simp [stagingPlace, stood])
      have entry := FileTree.entry?_erase site.tree somewhere
      simp only [Site.perform, removed]
      exact ⟨fun place other => (entry place).trans (if_neg other),
        .inr ⟨(entry _).trans (if_pos rfl), bytes, stood⟩⟩
  · obtain ⟨last, removed, withdrawn⟩ := staged.remove
    simpa only [Site.perform, removed] using withdrawn

/-- What holds of every tree in which a table has been stored, and of every one in which staging has
been taken back, holds once a store has ended. -/
theorem store_ends {post : Outcome Unit → Site → Prop} (table : AccessibilityTable)
    (done : ∀ after, Stored path table.bytes site.tree after.tree → post (.ok ()) after)
    (failed : ∀ fault after, Withdrawn path site.tree after.tree → post (.error fault) after) :
    Procedure.Ends (table.store path) site post := by
  have staged := stage_ends table path site
  unfold Procedure.Ends at staged ⊢
  unfold store
  rw [ExceptT.run_mk, Session.runOn_bind]
  rcases staged with ⟨ended, stored⟩ | ⟨⟨fault, ended⟩, left⟩
  · rw [ended]
    exact done _ stored
  · rw [ended]
    simp only [Session.runOn_bind, Session.runOn_pure]
    exact failed fault _ (remove_staging _ left)

/-- A store that ends well leaves the table in its place, and no staging file beside it; one that
fails leaves that place as it was, unless it is the staging place itself. Nothing else differs, but
that a file at the staging place is taken over. -/
theorem store_frame (table : AccessibilityTable) (path : Path) (site : Site) :
    Procedure.Ends (table.store path) site fun outcome after =>
      match outcome with
      | .ok () => Stored path table.bytes site.tree after.tree
      | .error _ => Withdrawn path site.tree after.tree :=
  store_ends table (fun _ stored => stored) fun _ _ withdrawn => withdrawn

/-- A file of another use, which has the name of a staging file. -/
def occupiedSite : Site where
  tree := ⟨[(["table.partial"], .file (Delimited.bytesOf "a draft"))]⟩

/-- A table is stored well where a file stands at its staging place, which is gone then. -/
theorem store_takes_over :
    stagingPlace ⟨"table.csv"⟩ = ["table.partial"] ∧ Path.place ⟨"table.csv"⟩ = ["table.csv"] ∧
      occupiedSite.tree.entry? ["table.partial"] = some (.file (Delimited.bytesOf "a draft")) ∧
        Procedure.Ends ((zeros 0 0).store ⟨"table.csv"⟩) occupiedSite fun outcome after =>
          outcome = .ok () ∧ after.tree.entry? ["table.partial"] = none := by
  unfold Procedure.Ends
  decide +kernel

end Accessibility.AccessibilityTable
