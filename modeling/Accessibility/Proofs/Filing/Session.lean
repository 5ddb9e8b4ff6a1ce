import Accessibility.Filing.Session
import Accessibility.Proofs.Filing.Tree

/-! What holds of a site once a procedure has ended on it. A postcondition speaks of the
outcome, be it a value or a fault, and of the site that is left; that of two procedures in a
row comes from theirs, and a fault of the first ends both. -/
namespace Accessibility

variable {α β : Type}

namespace Session

@[simp] theorem runOn_pure (value : α) (site : Site) :
    (pure value : Session α).runOn site = (value, site) := rfl

@[simp] theorem runOn_perform (step : Act) (site : Site) :
    (perform step).runOn site = site.perform step := rfl

@[simp] theorem runOn_remove (path : Path) (site : Site) :
    (remove path).runOn site = site.perform (.remove path) := rfl

theorem runOn_bind (session : Session α) (next : α → Session β) (site : Site) :
    (session >>= next).runOn site = (next (session.runOn site).1).runOn (session.runOn site).2 := by
  induction session generalizing site with
  | done value => rfl
  | act step rest ih => exact ih (site.perform step).1 (site.perform step).2

end Session

namespace Procedure

/-- A procedure ends on a site with an outcome and a site such that the postcondition holds. -/
def Ends (procedure : Procedure α) (site : Site) (post : Outcome α → Site → Prop) : Prop :=
  post (procedure.run.runOn site).1 (procedure.run.runOn site).2

variable {procedure : Procedure α} {next : α → Procedure β} {site : Site}
  {mid post : Outcome α → Site → Prop} {last : Outcome β → Site → Prop}

theorem Ends.imp (ends : procedure.Ends site mid)
    (weaker : ∀ outcome after, mid outcome after → post outcome after) :
    procedure.Ends site post := weaker _ _ ends

theorem Ends.and (first : procedure.Ends site mid) (second : procedure.Ends site post) :
    procedure.Ends site fun outcome after => mid outcome after ∧ post outcome after := ⟨first, second⟩

/-- What is known of the end, with the run that led there. -/
theorem Ends.recorded (ends : procedure.Ends site post) :
    procedure.Ends site fun outcome after =>
      procedure.run.runOn site = (outcome, after) ∧ post outcome after := ⟨rfl, ends⟩

theorem runOn_run_bind (procedure : Procedure α) (next : α → Procedure β) (site : Site) :
    (procedure >>= next).run.runOn site =
      Session.runOn (ExceptT.bindCont next (procedure.run.runOn site).1)
        (procedure.run.runOn site).2 :=
  Session.runOn_bind procedure.run (ExceptT.bindCont next) site

/-- A procedure behind one that ends in a value. -/
theorem runOn_bind_of_ok {value : α} {between : Site} (ran : procedure.run.runOn site = (.ok value, between))
    (next : α → Procedure β) : (procedure >>= next).run.runOn site = (next value).run.runOn between := by
  rw [runOn_run_bind, ran]
  rfl

/-- Two procedures in a row end as the second does behind the first, or in the first's fault. -/
theorem Ends.bind (first : procedure.Ends site mid)
    (failed : ∀ fault after, mid (.error fault) after → last (.error fault) after)
    (onward : ∀ value after, mid (.ok value) after → (next value).Ends after last) :
    (procedure >>= next).Ends site last := by
  unfold Ends at first ⊢
  rw [runOn_run_bind]
  generalize procedure.run.runOn site = ended at first
  obtain ⟨_ | value, after⟩ := ended
  · exact failed _ after first
  · exact onward value after first

theorem Ends.of_ran {value : α} {after : Site} (ends : procedure.Ends site post)
    (ran : procedure.run.runOn site = (.ok value, after)) : post (.ok value) after := by
  unfold Ends at ends
  rw [ran] at ends
  exact ends

/-- Two procedures in a row that end in a value have both done so. -/
theorem runOn_bind_eq_ok {result : β} {after : Site}
    (ran : (procedure >>= next).run.runOn site = (.ok result, after)) :
    ∃ value between, procedure.run.runOn site = (.ok value, between) ∧
      (next value).run.runOn between = (.ok result, after) := by
  rw [runOn_run_bind] at ran
  generalize procedure.run.runOn site = ended at ran ⊢
  obtain ⟨_ | value, between⟩ := ended
  · cases ran
  · exact ⟨value, between, rfl, ran⟩

theorem exists_runOn_of_isOk (ended : (procedure.run.runOn site).1.isOk = true) :
    ∃ value after, procedure.run.runOn site = (.ok value, after) := by
  generalize procedure.run.runOn site = outcome at ended
  obtain ⟨fault | value, after⟩ := outcome
  · cases ended
  · exact ⟨value, after, rfl⟩

theorem runOn_outcome {outcome : Outcome α} {result : α} {after : Site}
    (ran : (liftM outcome : Procedure α).run.runOn site = (.ok result, after)) :
    outcome = .ok result ∧ after = site := by
  cases outcome with
  | ok value =>
    cases ran
    exact ⟨rfl, rfl⟩
  | error fault => cases ran

/-- A procedure stops at a fault and leaves the site that is named last. -/
def Stops (procedure : Procedure α) (site : Site) (fault : Fault) (after : Site) : Prop :=
  procedure.run.runOn site = (.error fault, after)

variable {fault : Fault} {between after : Site} {value : α}

instance : Decidable (procedure.Stops site fault after) :=
  match ended : procedure.run.runOn site with
  | (.error found, left) =>
    decidable_of_iff (found = fault ∧ left = after) (by simp [Stops, ended])
  | (.ok _, _) => isFalse (by simp [Stops, ended])

theorem Ends.of_stops (ends : procedure.Ends site post) (stops : procedure.Stops site fault after) :
    post (.error fault) after := by
  unfold Ends at ends
  rw [stops] at ends
  exact ends

theorem Stops.bind (stops : procedure.Stops site fault after) (next : α → Procedure β) :
    (procedure >>= next).Stops site fault after := by
  unfold Stops at stops ⊢
  rw [runOn_run_bind, stops]
  rfl

theorem stops_behind (ran : procedure.run.runOn site = (.ok value, between))
    (stops : (next value).Stops between fault after) :
    (procedure >>= next).Stops site fault after := by
  unfold Stops at stops ⊢
  rw [runOn_bind_of_ok ran]
  exact stops

/-- An outcome that depends on no site. -/
theorem ends_outcome (outcome : Outcome α) (holds : post outcome site) :
    (liftM outcome : Procedure α).Ends site post := holds

theorem ends_ofReply (session : Session (Except FileFault Unit)) {post : Outcome Unit → Site → Prop}
    (holds : post ((session.runOn site).1.mapError fun fault => .io fault.message)
      (session.runOn site).2) : (ofReply session).Ends site post := by
  have run : (ofReply session).run.runOn site =
      ((session.runOn site).1.mapError fun fault => .io fault.message, (session.runOn site).2) := by
    refine (Session.runOn_bind session _ site).trans ?_
    cases (session.runOn site).1 <;> rfl
  unfold Ends
  rw [run]
  exact holds

end Procedure

/-- A site on which only lines have been printed, of one kind, and notices given. -/
structure Site.Told (lines : String → Prop) (before after : Site) : Prop where
  tree_eq : after.tree = before.tree
  unpooled_eq : after.unpooled = before.unpooled
  said_eq : ∃ said, after.said = before.said ++ said ∧ ∀ line ∈ said, lines line

namespace Site.Told

variable {lines : String → Prop} {site before mid after : Site}

theorem refl (lines : String → Prop) (site : Site) : Told lines site site :=
  ⟨rfl, rfl, [], (List.append_nil _).symm, by simp⟩

theorem trans (first : Told lines before mid) (second : Told lines mid after) :
    Told lines before after := by
  obtain ⟨said, said_eq, all⟩ := first.said_eq
  obtain ⟨more, more_eq, others⟩ := second.said_eq
  refine ⟨second.tree_eq.trans first.tree_eq, second.unpooled_eq.trans first.unpooled_eq, said ++ more,
    ?_, ?_⟩
  · rw [more_eq, said_eq, List.append_assoc]
  · intro line mem
    rcases List.mem_append.mp mem with mem | mem
    · exact all line mem
    · exact others line mem

theorem say {line : String} (kind : lines line) :
    Told lines site { site with said := site.said ++ [line] } :=
  ⟨rfl, rfl, [line], rfl, by simpa using kind⟩

theorem warn (lines : String → Prop) (notice : String) :
    Told lines site { site with notices := site.notices ++ [notice] } :=
  ⟨rfl, rfl, [], (List.append_nil _).symm, by simp⟩

end Site.Told

/-- A procedure that leaves the tree alone, and prints lines of one kind only. -/
def Procedure.Tells (lines : String → Prop) (procedure : Procedure α) : Prop :=
  ∀ site, procedure.Ends site fun _ after => Site.Told lines site after

namespace Procedure.Tells

variable {lines : String → Prop}

theorem pure (value : α) : Tells lines (Pure.pure value : Procedure α) :=
  fun site => .refl lines site

theorem bind {procedure : Procedure α} {next : α → Procedure β} (first : Tells lines procedure)
    (onward : ∀ value, Tells lines (next value)) : Tells lines (procedure >>= next) := by
  intro site
  apply (first site).bind
  · exact fun _ _ told => told
  · exact fun value after told => (onward value after).imp fun _ _ more => told.trans more

/-- What follows a procedure that leaves the tree alone finds the tree as it was. -/
theorem ends_bind {procedure : Procedure α} {next : α → Procedure β} {tree : FileTree} {site : Site}
    {post : Outcome β → Site → Prop} (first : Tells lines procedure) (same : site.tree = tree)
    (failed : ∀ fault after, after.tree = tree → post (.error fault) after)
    (onward : ∀ value after, after.tree = tree → (next value).Ends after post) :
    (procedure >>= next).Ends site post := by
  apply (first site).bind
  · exact fun fault after told => failed fault after (told.tree_eq.trans same)
  · exact fun value after told => onward value after (told.tree_eq.trans same)

theorem outcome (outcome : Outcome α) : Tells lines (liftM outcome : Procedure α) :=
  fun site => .refl lines site

theorem say {line : String} (kind : lines line) :
    Tells lines (liftM (Session.say line) : Procedure Unit) := fun _ => .say kind

theorem clock : Tells lines (liftM Session.clock : Procedure Nat) := fun site => .refl lines site

theorem enlist (threads : Nat) : Tells lines (liftM (Session.enlist threads) : Procedure (Except String Unit)) :=
  fun site => .refl lines site

theorem notices (notices : List String) :
    Tells lines (forIn notices PUnit.unit fun notice _ => do
      Session.warn notice
      return .yield PUnit.unit : Procedure PUnit) := by
  induction notices with
  | nil => exact .pure PUnit.unit
  | cons notice notices ih =>
    have first : Tells lines (do Session.warn notice; return .yield PUnit.unit : Procedure (ForInStep PUnit)) :=
      fun _ => .warn lines notice
    rw [List.forIn_cons]
    apply first.bind
    rintro (_ | _)
    · exact .pure _
    · exact ih

end Procedure.Tells

/-! ## Changes of the tree -/

/-- A change is carried out, or refused with the tree left alone, or interrupted halfway. -/
theorem Site.change_cases (site : Site) (halfway : Interruption → FileTree)
    (result : Except FileFault FileTree) :
    (site.change halfway result).1 = .ok () ∧ result = .ok (site.change halfway result).2.tree ∨
      (∃ fault, (site.change halfway result).1 = .error fault) ∧
        ((site.change halfway result).2.tree = site.tree ∨
          ∃ interruption, (site.change halfway result).2.tree = halfway interruption) := by
  unfold change
  rcases site.interruptions.headD none with _ | interruption
  · rcases result with fault | tree
    · exact .inr ⟨⟨fault, rfl⟩, .inl rfl⟩
    · exact .inl ⟨rfl, rfl⟩
  · exact .inr ⟨⟨_, rfl⟩, .inr ⟨interruption, rfl⟩⟩

theorem Procedure.ends_change {session : Session (Except FileFault Unit)} {site : Site}
    {halfway : Interruption → FileTree} {result : Except FileFault FileTree}
    (performed : session.runOn site = site.change halfway result) :
    (ofReply session).Ends site fun outcome after =>
      outcome = .ok () ∧ result = .ok after.tree ∨
        (∃ fault, outcome = .error fault) ∧
          (after.tree = site.tree ∨ ∃ interruption, after.tree = halfway interruption) := by
  apply ends_ofReply
  rw [performed]
  rcases site.change_cases halfway result with ⟨done, changed⟩ | ⟨⟨fault, failed⟩, left⟩
  · exact .inl ⟨by rw [done]; rfl, changed⟩
  · exact .inr ⟨⟨_, by rw [failed]; rfl⟩, left⟩

/-- A change that an interruption leaves undone. -/
theorem Procedure.ends_whole_change {session : Session (Except FileFault Unit)} {site : Site}
    {result : Except FileFault FileTree}
    (performed : session.runOn site = site.change (fun _ => site.tree) result) :
    (ofReply session).Ends site fun outcome after =>
      outcome = .ok () ∧ result = .ok after.tree ∨
        (∃ fault, outcome = .error fault) ∧ after.tree = site.tree := by
  apply (ends_change performed).imp
  rintro outcome after (done | ⟨failed, same | ⟨_, same⟩⟩)
  · exact .inl done
  · exact .inr ⟨failed, same⟩
  · exact .inr ⟨failed, same⟩

theorem Procedure.ends_create (path : Path) (site : Site) :
    (ofReply (.create path)).Ends site fun outcome after =>
      outcome = .ok () ∧ site.tree.create path = .ok after.tree ∨
        (∃ fault, outcome = .error fault) ∧ after.tree = site.tree := ends_whole_change rfl

theorem Procedure.ends_rename (source target : Path) (site : Site) :
    (ofReply (.rename source target)).Ends site fun outcome after =>
      outcome = .ok () ∧ site.tree.rename source target = .ok after.tree ∨
        (∃ fault, outcome = .error fault) ∧ after.tree = site.tree := ends_whole_change rfl

/-- A write that is cut short puts the front of the bytes into the file, or none at all. -/
theorem Procedure.ends_write (path : Path) (bytes : List UInt8) (site : Site) :
    (ofReply (.write path bytes)).Ends site fun outcome after =>
      outcome = .ok () ∧ site.tree.write path bytes = .ok after.tree ∨
        (∃ fault, outcome = .error fault) ∧
          (after.tree = site.tree ∨ ∃ kept, site.tree.write path kept = .ok after.tree) := by
  apply (ends_change rfl).imp
  rintro outcome after (done | ⟨failed, same | ⟨interruption, halfway⟩⟩)
  · exact .inl done
  · exact .inr ⟨failed, .inl same⟩
  · refine .inr ⟨failed, ?_⟩
    unfold Site.halfWritten at halfway
    split at halfway
    · rename_i written
      exact .inr ⟨_, written.trans (congrArg _ halfway.symm)⟩
    · exact .inl halfway

/-- A session that adds directories at the places of some paths and changes nothing else, however
it ends. -/
def Session.Grows (paths : List Path) (session : Session α) : Prop :=
  ∀ site, FileTree.Grown paths site.tree (session.runOn site).2.tree

namespace Session.Grows

variable {paths : List Path}

theorem pure (paths : List Path) (value : α) : Grows paths (Pure.pure value : Session α) :=
  fun site => .refl paths site.tree

theorem bind {session : Session α} {next : α → Session β} (first : Grows paths session)
    (onward : ∀ value, Grows paths (next value)) : Grows paths (session >>= next) := by
  intro site
  rw [runOn_bind]
  exact (first site).trans (onward _ _)

theorem probe (paths : List Path) (path : Path) : Grows paths (Session.probe path) :=
  fun site => .refl paths site.tree

theorem createDirectory {path : Path} (mem : path ∈ paths) :
    Grows paths (Session.createDirectory path) := by
  intro site
  rcases site.change_cases (fun _ => site.tree) (site.tree.createDirectory path) with
    ⟨_, created⟩ | ⟨_, same | ⟨_, same⟩⟩
  · exact .of_createDirectory created mem
  · exact same ▸ .refl paths site.tree
  · exact same ▸ .refl paths site.tree

theorem createDirectories {subset : List Path} (within : subset ⊆ paths) :
    Grows paths (Session.createDirectories subset) := by
  induction subset with
  | nil => exact .pure paths _
  | cons path above ih =>
    obtain ⟨mem, within⟩ := List.cons_subset.mp within
    unfold Session.createDirectories
    extract_lets settle
    -- A directory that could not be created may be there already, which is only looked at.
    have settled : ∀ reply, Grows paths (settle reply) := by
      rintro (fault | ⟨⟩)
      · apply Grows.bind (.probe paths path)
        rintro (_ | _ | _) <;> exact .pure paths _
      · exact .pure paths _
    split
    · exact .pure paths _
    · apply Grows.bind (.createDirectory mem)
      intro reply
      split
      · apply Grows.bind (ih within)
        rintro (fault | ⟨⟩)
        · exact .pure paths _
        · exact Grows.bind (.createDirectory mem) settled
      · exact settled reply

end Session.Grows

end Accessibility
