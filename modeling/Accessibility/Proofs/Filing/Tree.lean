import Accessibility.Proofs.Filing.Path

/-! What the file operations do to a tree, place by place. An operation that follows its path
ends up where the names of the path lead, and then changes that place only; a path that could
be followed still can while every directory stands. -/
namespace Accessibility.FileTree

variable {tree before after : FileTree} {path : Path} {place other : List String}

/-! ## Entries -/

@[simp] theorem entry?_nil (tree : FileTree) : tree.entry? [] = some .directory := rfl

theorem entry?_of_ne (tree : FileTree) (somewhere : place ≠ []) :
    tree.entry? place = (tree.entries.find? (·.1 = place)).map (·.2) := by
  unfold entry?
  simp [somewhere]

theorem entry?_erase (tree : FileTree) (somewhere : place ≠ []) (other : List String) :
    FileTree.entry? (tree.erase place) other =
      if other = place then none else tree.entry? other := by
  by_cases top : other = []
  · simp [top, Ne.symm somewhere]
  rw [entry?_of_ne _ top, entry?_of_ne _ top, erase, List.find?_filter]
  split
  · rename_i same
    simp [same]
  · rename_i away
    congr 2
    funext named
    by_cases found : named.1 = other <;> simp [found, away]

theorem entry?_put (tree : FileTree) (entry : Entry) (somewhere : place ≠ []) (other : List String) :
    FileTree.entry? (tree.put place entry) other =
      if other = place then some entry else tree.entry? other := by
  by_cases top : other = []
  · simp [top, Ne.symm somewhere]
  rw [entry?_of_ne _ top, put, List.find?_cons]
  split
  · rename_i same
    simp [(of_decide_eq_true same : place = other)]
  · rename_i away
    have away : other ≠ place := fun same => of_decide_eq_false away same.symm
    rw [← entry?_of_ne _ top, entry?_erase tree somewhere, if_neg away, if_neg away]

theorem ne_nil_of_not_directory (standing : tree.entry? place ≠ some .directory) : place ≠ [] := by
  rintro rfl
  exact standing rfl

/-- The bytes of the file at a place, if there is one. -/
def fileAt? (tree : FileTree) (place : List String) : Option (List UInt8) :=
  match tree.entry? place with
  | some (.file bytes) => some bytes
  | _ => none

theorem fileAt?_congr (same : after.entry? place = before.entry? place) :
    after.fileAt? place = before.fileAt? place := by
  simp only [fileAt?, same]

/-! ## Following paths -/

theorem walk_cons_eq_ok_iff {name : String} {names : List String} :
    tree.walk place (name :: names) = .ok other ↔ tree.entry? place = some .directory ∧
      ((name = "" ∨ name = ".") ∧ tree.walk place names = .ok other ∨
        (name ≠ "" ∧ name ≠ ".") ∧ (name = ".." ∨ name.utf8ByteSize ≤ maxNameBytes) ∧
          tree.walk (Path.follow place name) names = .ok other) := by
  rcases stands : tree.entry? place with _ | _ | bytes
  · simp [walk, stands]
  · simp only [walk, stands, true_and, Bool.or_eq_true, decide_eq_true_eq]
    by_cases idle : name = "" ∨ name = "."
    · have unnamed : ¬(name ≠ "" ∧ name ≠ ".") := by rwa [← not_or, not_not]
      simp only [idle, unnamed, if_true, true_and, false_and, or_false]
    · have named : name ≠ "" ∧ name ≠ "." := not_or.mp idle
      rw [if_neg idle]
      by_cases back : name = ".."
      · simp [back, Path.follow]
      · rw [if_neg back, Path.follow, if_neg back, ← Nat.not_lt]
        split <;> simp_all
  · simp [walk, stands]

theorem locate_eq_ok_iff :
    tree.locate path = .ok place ↔ '\u0000' ∉ path.text.toList ∧ path.text ≠ "" ∧
      path.text.utf8ByteSize ≤ maxPathBytes ∧ tree.walk [] path.pieces = .ok place := by
  unfold locate
  split
  · simp_all
  · split
    · simp_all
    · split
      · rename_i long
        simp [Nat.not_le.mpr long]
      · simp_all [Nat.not_lt.mp ‹_›]

/-- Names that can be followed lead where they say. -/
theorem walk_eq {names : List String} (followed : tree.walk place names = .ok other) :
    other = (Path.namesIn names).foldl Path.follow place := by
  induction names generalizing place with
  | nil => exact (Except.ok.inj followed).symm
  | cons name names ih =>
    obtain ⟨_, ⟨idle, followed⟩ | ⟨named, _, followed⟩⟩ := walk_cons_eq_ok_iff.mp followed
    · rw [ih followed]
      rcases idle with rfl | rfl <;> simp [Path.namesIn]
    · have kept : Path.namesIn (name :: names) = name :: Path.namesIn names := by
        simp [Path.namesIn, named]
      rw [ih followed, kept, List.foldl_cons]

theorem place_of_locate (located : tree.locate path = .ok place) : place = path.place :=
  walk_eq (locate_eq_ok_iff.mp located).2.2.2

/-- Every directory of one tree is one of another. -/
def Stands (before after : FileTree) : Prop :=
  ∀ place, before.entry? place = some .directory → after.entry? place = some .directory

theorem Stands.trans {last : FileTree} (first : Stands before after) (second : Stands after last) :
    Stands before last := fun place stands => second place (first place stands)

theorem stands_erase (away : tree.entry? place ≠ some .directory) : Stands tree (tree.erase place) := by
  intro other stands
  rw [entry?_erase tree (ne_nil_of_not_directory away), if_neg, stands]
  intro here
  exact away (here ▸ stands)

theorem stands_put (away : tree.entry? place ≠ some .directory) (entry : Entry) :
    Stands tree (tree.put place entry) := by
  intro other stands
  rw [entry?_put tree entry (ne_nil_of_not_directory away), if_neg, stands]
  intro here
  exact away (here ▸ stands)

/-- Names that can be followed still can where no directory is missing. -/
theorem walk_mono {names : List String} (standing : Stands before after)
    (followed : before.walk place names = .ok other) : after.walk place names = .ok other := by
  induction names generalizing place with
  | nil => exact followed
  | cons name names ih =>
    obtain ⟨stands, next⟩ := walk_cons_eq_ok_iff.mp followed
    refine walk_cons_eq_ok_iff.mpr ⟨standing _ stands, ?_⟩
    rcases next with ⟨idle, followed⟩ | ⟨named, short, followed⟩
    · exact .inl ⟨idle, ih followed⟩
    · exact .inr ⟨named, short, ih followed⟩

theorem locate_mono (standing : Stands before after) (located : before.locate path = .ok place) :
    after.locate path = .ok place := by
  obtain ⟨whole, named, short, followed⟩ := locate_eq_ok_iff.mp located
  exact locate_eq_ok_iff.mpr ⟨whole, named, short, walk_mono standing followed⟩

/-! ## Operations -/

theorem of_located {next : List String → Except FileFault FileTree}
    (done : (tree.locate path >>= next) = .ok after) :
    tree.locate path = .ok path.place ∧ next path.place = .ok after := by
  cases located : tree.locate path with
  | error fault =>
    rw [located] at done
    cases done
  | ok place =>
    rw [located] at done
    rw [← place_of_locate located]
    exact ⟨rfl, done⟩

theorem of_create (created : tree.create path = .ok after) :
    tree.locate path = .ok path.place ∧ tree.entry? path.place ≠ some .directory ∧
      after = tree.put path.place (.file []) := by
  obtain ⟨located, created⟩ := of_located created
  split at created
  · cases created
  · rename_i away
    exact ⟨located, away, (Except.ok.inj created).symm⟩

theorem of_write {bytes : List UInt8} (written : tree.write path bytes = .ok after) :
    (∃ old, tree.entry? path.place = some (.file old)) ∧
      after = tree.put path.place (.file bytes) := by
  obtain ⟨_, written⟩ := of_located written
  split at written
  · cases written
  · cases written
  · rename_i old stands
    exact ⟨⟨old, stands⟩, (Except.ok.inj written).symm⟩

theorem entry?_of_write {bytes : List UInt8} (written : tree.write path bytes = .ok after) :
    after.entry? path.place = some (.file bytes) := by
  obtain ⟨⟨old, stood⟩, rfl⟩ := of_write written
  have somewhere : path.place ≠ [] := @ne_nil_of_not_directory tree _ (by simp [stood])
  exact (entry?_put tree _ somewhere _).trans (if_pos rfl)

theorem of_remove (removed : tree.remove path = .ok after) :
    ∃ bytes, tree.entry? path.place = some (.file bytes) ∧ after = tree.erase path.place := by
  obtain ⟨_, removed⟩ := of_located removed
  split at removed
  · cases removed
  · cases removed
  · rename_i bytes stands
    exact ⟨bytes, stands, (Except.ok.inj removed).symm⟩

theorem remove_file {bytes : List UInt8} (located : tree.locate path = .ok place)
    (stands : tree.entry? place = some (.file bytes)) : tree.remove path = .ok (tree.erase place) := by
  simp [remove, located, stands, bind, Except.bind, pure, Except.pure]

theorem of_rename {source target : Path} (moved : tree.rename source target = .ok after) :
    withoutSlashes target = target ∧ endsInPoints target = false ∧
      tree.locate target = .ok target.place ∧ tree.entry? target.place ≠ some .directory ∧
      ∃ bytes, tree.entry? source.place = some (.file bytes) ∧
        after = FileTree.put (tree.erase source.place) target.place (.file bytes) := by
  obtain ⟨_, moved⟩ := of_located moved
  obtain ⟨located, moved⟩ := of_located moved
  dsimp only at moved
  split at moved
  · cases moved
  rename_i pointless
  split at moved
  · cases moved
  · cases moved
  rename_i bytes stands
  split at moved
  · cases moved
  rename_i unslashed
  rw [not_not.mp unslashed] at located moved
  split at moved
  · cases moved
  rename_i away
  exact ⟨not_not.mp unslashed, by simpa using pointless, located, away, bytes, stands,
    (Except.ok.inj moved).symm⟩

theorem of_createDirectory (created : tree.createDirectory path = .ok after) :
    tree.entry? path.place = none ∧ after = tree.put path.place .directory := by
  obtain ⟨_, created⟩ := of_located created
  split at created
  · cases created
  · rename_i away
    exact ⟨away, (Except.ok.inj created).symm⟩

theorem of_read {bytes : List UInt8} (content : tree.read path = .content bytes) :
    tree.locate path = .ok path.place ∧ tree.entry? path.place = some (.file bytes) := by
  unfold read at content
  split at content
  · cases content
  · rename_i place located
    obtain rfl := place_of_locate located
    split at content
    · cases content
    · cases content
    · rename_i found stands
      cases content
      exact ⟨located, stands⟩

theorem read_file {bytes : List UInt8} (located : tree.locate path = .ok place)
    (stands : tree.entry? place = some (.file bytes)) : tree.read path = .content bytes := by
  simp [read, located, stands]

theorem probe_of_read {bytes : List UInt8} (content : tree.read path = .content bytes) :
    tree.probe path = .file := by
  obtain ⟨located, stands⟩ := of_read content
  simp [probe, located, stands]

/-- A file that was moved is read at the path it was moved to. -/
theorem read_of_rename {source target : Path} {bytes : List UInt8}
    (moved : tree.rename source target = .ok after)
    (stands : tree.entry? source.place = some (.file bytes)) : after.read target = .content bytes := by
  obtain ⟨_, _, located, away, found, there, rfl⟩ := of_rename moved
  obtain rfl : bytes = found := by simpa using stands.symm.trans there
  have unfiled : tree.entry? source.place ≠ some .directory := by simp [stands]
  have somewhere := ne_nil_of_not_directory away
  have untargeted : FileTree.entry? (tree.erase source.place) target.place ≠ some .directory := by
    rw [entry?_erase tree (ne_nil_of_not_directory unfiled)]
    split
    · exact nofun
    · exact away
  have standing := (stands_erase unfiled).trans (stands_put untargeted (.file bytes))
  exact read_file (locate_mono standing located) ((entry?_put _ _ somewhere _).trans (if_pos rfl))

/-! ## Added directories -/

/-- Nothing of one tree is gone or changed in another, which has at most further directories
at the places of some paths. -/
structure Grown (paths : List Path) (before after : FileTree) : Prop where
  kept : ∀ place entry, before.entry? place = some entry → after.entry? place = some entry
  added : ∀ place, after.entry? place = before.entry? place ∨
    after.entry? place = some .directory ∧ ∃ path ∈ paths, path.place = place

namespace Grown

variable {paths : List Path} {last : FileTree}

theorem refl (paths : List Path) (tree : FileTree) : Grown paths tree tree :=
  ⟨fun _ _ found => found, fun _ => .inl rfl⟩

theorem trans (first : Grown paths before after) (second : Grown paths after last) :
    Grown paths before last where
  kept place entry found := second.kept place entry (first.kept place entry found)
  added place := by
    rcases second.added place with same | made
    · rw [same]
      exact first.added place
    · exact .inr made

theorem stands (grown : Grown paths before after) : Stands before after :=
  fun place => grown.kept place .directory

theorem fileAt?_eq (grown : Grown paths before after) (place : List String) :
    after.fileAt? place = before.fileAt? place := by
  rcases grown.added place with same | ⟨made, _⟩
  · exact fileAt?_congr same
  · rcases found : before.entry? place with _ | _ | bytes
    · simp [fileAt?, made, found]
    · simp [fileAt?, made, found]
    · rw [grown.kept place _ found] at made
      cases made

theorem read_eq {bytes : List UInt8} (grown : Grown paths before after)
    (content : before.read path = .content bytes) : after.read path = .content bytes := by
  obtain ⟨located, stands⟩ := of_read content
  exact read_file (locate_mono grown.stands located) (grown.kept _ _ stands)

theorem congr (grown : Grown paths before after)
    (same : ∀ place, last.entry? place = after.entry? place) : Grown paths before last where
  kept place entry found := by rw [same, grown.kept place entry found]
  added place := by
    rw [same]
    exact grown.added place

theorem of_createDirectory (created : tree.createDirectory path = .ok after) (mem : path ∈ paths) :
    Grown paths tree after := by
  obtain ⟨away, rfl⟩ := FileTree.of_createDirectory created
  have somewhere : path.place ≠ [] := @ne_nil_of_not_directory tree _ (by simp [away])
  constructor
  · intro place entry found
    rw [entry?_put tree _ somewhere, if_neg, found]
    rintro rfl
    rw [away] at found
    cases found
  · intro place
    rw [entry?_put tree _ somewhere]
    by_cases here : place = path.place
    · exact .inr ⟨if_pos here, path, mem, here.symm⟩
    · exact .inl (if_neg here)

end Grown

end Accessibility.FileTree
