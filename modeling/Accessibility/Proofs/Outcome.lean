import Accessibility.Fault

/-! Outcomes that are no fault of the configuration: they come in a value, or in a fault that only
the data can be blamed for. What is put together from such outcomes is one itself. -/
namespace Accessibility

variable {α β : Type} {outcome : Outcome α} {fault : Fault}

/-- An outcome that is no fault of the configuration. -/
def Configured (outcome : Outcome α) : Prop :=
  ∀ fault, outcome = .error fault → fault.isConfiguration = false

namespace Configured

theorem ok (value : α) : Configured (.ok value) := by
  rintro fault ⟨⟩

theorem error (other : fault.isConfiguration = false) : Configured (.error fault : Outcome α) := by
  rintro _ ⟨⟩
  exact other

/-- An outcome that can only fail at a place that is not there. -/
theorem of_outOfBounds (only : ∀ fault, outcome = .error fault → fault = .outOfBounds) :
    Configured outcome := by
  intro fault failed
  rw [only fault failed]
  rfl

theorem bind {next : α → Outcome β} (first : Configured outcome)
    (onward : ∀ value, outcome = .ok value → Configured (next value)) :
    Configured (outcome >>= next) := by
  cases outcome with
  | ok value => exact onward value rfl
  | error fault => exact .error (first fault rfl)

/-- What comes behind a check for another fault. -/
theorem guarded {refused : Prop} [Decidable refused] {behind : PUnit → Outcome α}
    (other : fault.isConfiguration = false) (onward : Configured outcome) :
    Configured (if refused then throw fault >>= behind else outcome) := by
  split
  · exact error other
  · exact onward

theorem mapM {f : α → Outcome β} {xs : List α} (each : ∀ x ∈ xs, Configured (f x)) :
    Configured (xs.mapM f) := by
  induction xs with
  | nil => exact .ok []
  | cons x xs ih =>
    rw [List.mapM_cons]
    apply (each x List.mem_cons_self).bind
    intro y _
    exact (ih fun x mem => each x (List.mem_cons_of_mem _ mem)).bind fun ys _ => .ok _

theorem foldlM {f : β → α → Outcome β} {xs : List α} (each : ∀ b, ∀ x ∈ xs, Configured (f b x))
    (start : β) : Configured (xs.foldlM f start) := by
  induction xs generalizing start with
  | nil => exact .ok start
  | cons x xs ih =>
    rw [List.foldlM_cons]
    apply (each start x List.mem_cons_self).bind
    intro b _
    exact ih (fun b x mem => each b x (List.mem_cons_of_mem _ mem)) b

end Configured

theorem bind_eq_ok_iff {ε α β : Type} {step : Except ε α} {next : α → Except ε β} {result : β} :
    step >>= next = .ok result ↔ ∃ value, step = .ok value ∧ next value = .ok result := by
  cases step with
  | ok value =>
    constructor
    · exact fun done => ⟨value, rfl, done⟩
    · rintro ⟨_, ⟨⟩, done⟩
      exact done
  | error fault =>
    constructor
    · rintro ⟨⟩
    · rintro ⟨_, ⟨⟩, -⟩

theorem bind_eq_ok {next : α → Outcome β} {result : β} (done : outcome >>= next = .ok result) :
    ∃ value, outcome = .ok value ∧ next value = .ok result :=
  bind_eq_ok_iff.mp done

theorem bind_eq_error_iff {step : Outcome α} {next : α → Outcome β} :
    step >>= next = .error fault ↔
      step = .error fault ∨ ∃ value, step = .ok value ∧ next value = .error fault := by
  cases step with
  | ok value =>
    constructor
    · exact fun failed => .inr ⟨value, rfl, failed⟩
    · rintro (⟨⟨⟩⟩ | ⟨_, ⟨⟩, failed⟩)
      exact failed
  | error other =>
    constructor
    · rintro ⟨⟩
      exact .inl rfl
    · rintro (⟨⟨⟩⟩ | ⟨_, ⟨⟩, -⟩)
      rfl

theorem pure_eq_ok_iff {ε : Type} {value result : α} :
    (pure value : Except ε α) = .ok result ↔ value = result :=
  ⟨Except.ok.inj, congrArg Except.ok⟩

/-- What comes behind a check has a result only if the check is passed. -/
theorem guarded_eq_ok_iff {refused : Prop} [Decidable refused] {behind : PUnit → Outcome α}
    {result : α} :
    (if refused then throw fault >>= behind else outcome) = .ok result ↔
      ¬ refused ∧ outcome = .ok result := by
  split
  next refusal => exact iff_of_false nofun fun passed => passed.1 refusal
  next passes => exact (and_iff_right passes).symm

/-- Steps of which each can only come to one value come to the list of these, if each comes to its own. -/
theorem mapM_eq_ok_iff {f : α → Outcome β} {g : α → β} (only : ∀ x y, f x = .ok y → y = g x) {xs : List α}
    {ys : List β} : xs.mapM f = .ok ys ↔ (∀ x ∈ xs, f x = .ok (g x)) ∧ ys = xs.map g := by
  induction xs generalizing ys with
  | nil =>
    rw [List.mapM_nil]
    exact ⟨fun done => ⟨nofun, (Except.ok.inj done).symm⟩, fun done => congrArg Except.ok done.2.symm⟩
  | cons x xs ih =>
    simp only [List.mapM_cons, bind_eq_ok_iff, ih, List.forall_mem_cons]
    constructor
    · rintro ⟨y, first, ys, ⟨rest, rfl⟩, ⟨⟩⟩
      obtain rfl := only x y first
      exact ⟨⟨first, rest⟩, rfl⟩
    · rintro ⟨⟨first, rest⟩, rfl⟩
      exact ⟨g x, first, xs.map g, ⟨rest, rfl⟩, rfl⟩

/-- Steps come to a list of values if they are the same, one by one. -/
theorem mapM_eq_ok_iff_map_ok {ε : Type} {f : α → Except ε β} {xs : List α} {ys : List β} :
    xs.mapM f = .ok ys ↔ xs.map f = ys.map .ok := by
  induction xs generalizing ys with
  | nil => cases ys <;> simp [pure, Except.pure]
  | cons x xs ih =>
    simp only [List.mapM_cons, bind_eq_ok_iff, pure_eq_ok_iff, ih, List.map_cons]
    constructor
    · rintro ⟨y, first, rest, others, rfl⟩
      rw [first, others, List.map_cons]
    · intro same
      cases ys with
      | nil => cases same
      | cons y rest =>
        obtain ⟨first, others⟩ := List.cons.inj same
        exact ⟨y, first, rest, others, rfl⟩

/-- Steps that refuse what a partial function has no value for come to the values that it has. -/
theorem mapM_eq_ok_iff_map {ε : Type} {f : α → Except ε β} {g : α → Option β}
    (only : ∀ x y, f x = .ok y ↔ g x = some y) {xs : List α} {ys : List β} :
    xs.mapM f = .ok ys ↔ xs.map g = ys.map some := by
  rw [mapM_eq_ok_iff_map_ok, List.ext_getElem_iff, List.ext_getElem_iff]
  simp only [List.length_map, List.getElem_map, only]

/-- Steps for the numbers below a bound come to values if each comes to the one at its place. -/
theorem mapM_range_eq_ok_iff {f : Nat → Outcome β} {bound : Nat} {ys : List β} :
    (List.range bound).mapM f = .ok ys ↔
      ys.length = bound ∧ ∀ i (within : i < ys.length), f i = .ok ys[i] := by
  rw [mapM_eq_ok_iff_map_ok, List.ext_getElem_iff]
  simp only [List.length_map, List.length_range, List.getElem_map, List.getElem_range]
  constructor
  · rintro ⟨rfl, each⟩
    exact ⟨rfl, fun i within => each i within within⟩
  · rintro ⟨rfl, each⟩
    exact ⟨rfl, fun i within _ => each i within⟩

/-- Values for all items make a list exactly if every item has one. -/
theorem exists_map_eq_iff {f : α → Outcome β} {items : List α} :
    (∃ results : List β, items.map f = results.map .ok) ↔ ∀ item ∈ items, ∃ result, f item = .ok result := by
  constructor
  · rintro ⟨results, every⟩ item member
    have listed := List.mem_map_of_mem (f := f) member
    rw [every] at listed
    obtain ⟨result, _, came⟩ := List.mem_map.mp listed
    exact ⟨result, came.symm⟩
  · intro every
    induction items with
    | nil => exact ⟨[], rfl⟩
    | cons item rest ih =>
      obtain ⟨result, came⟩ := every item List.mem_cons_self
      obtain ⟨later, others⟩ := ih fun other member => every other (List.mem_cons_of_mem _ member)
      exact ⟨result :: later, by simp [came, others]⟩

/-- Steps come to a list of values exactly if each comes to one. -/
theorem exists_mapM_iff {f : α → Outcome β} {xs : List α} :
    (∃ ys, xs.mapM f = .ok ys) ↔ ∀ x ∈ xs, ∃ y, f x = .ok y := by
  simp only [mapM_eq_ok_iff_map_ok]
  exact exists_map_eq_iff

/-- Steps fail with the fault of the first that fails. -/
theorem mapM_eq_error_iff {f : α → Outcome β} {xs : List α} :
    xs.mapM f = .error fault ↔
      ∃ front x behind, xs = front ++ x :: behind ∧ (∀ y ∈ front, ∃ value, f y = .ok value) ∧
        f x = .error fault := by
  induction xs with
  | nil =>
    rw [List.mapM_nil]
    constructor
    · rintro ⟨⟩
    · rintro ⟨front, x, behind, none, -⟩
      exact absurd none (by simp)
  | cons first rest ih =>
    rw [List.mapM_cons, bind_eq_error_iff]
    constructor
    · rintro (failed | ⟨value, done, failed⟩)
      · exact ⟨[], first, rest, rfl, nofun, failed⟩
      · obtain failed | ⟨_, -, ⟨⟩⟩ := bind_eq_error_iff.mp failed
        obtain ⟨front, x, behind, rfl, before, failed⟩ := ih.mp failed
        exact ⟨first :: front, x, behind, rfl, List.forall_mem_cons.mpr ⟨⟨value, done⟩, before⟩, failed⟩
    · rintro ⟨front, x, behind, split, before, failed⟩
      cases front with
      | nil =>
        obtain ⟨rfl, -⟩ := List.cons.inj split
        exact .inl failed
      | cons y front =>
        obtain ⟨rfl, rfl⟩ := List.cons.inj split
        obtain ⟨⟨value, done⟩, before⟩ := List.forall_mem_cons.mp before
        exact .inr ⟨value, done, bind_eq_error_iff.mpr (.inl (ih.mpr ⟨front, x, behind, rfl, before, failed⟩))⟩

end Accessibility
