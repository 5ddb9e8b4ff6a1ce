import Accessibility.Toml.Reader

/-! What holds of all that a reader takes, on whatever text. A reader is put together from others, and
so is what is known of it: there is one rule for each way to put readers together. -/
namespace Accessibility.Toml.Reader

variable {α β : Type}

/-- The reader only takes values that the predicate holds of. -/
def Yields (P : α → Prop) (reader : Reader α) : Prop :=
  ∀ cs a rest, reader cs = some (a, rest) → P a

namespace Yields

variable {P : α → Prop} {Q : β → Prop} {reader other : Reader α} {a : α}

/-- Of any reader it is known that it takes values. -/
theorem any (reader : Reader α) : Yields (fun _ => True) reader := fun _ _ _ _ => trivial

theorem pure (holds : P a) : Yields P (Pure.pure a : Reader α) := by
  rintro cs _ rest ⟨⟩
  exact holds

theorem failure : Yields P (Alternative.failure : Reader α) := by
  rintro cs a rest ⟨⟩

theorem bind {next : α → Reader β} (first : Yields P reader)
    (onward : ∀ a, P a → Yields Q (next a)) : Yields Q (reader >>= next) := by
  intro cs b rest taken
  obtain ⟨⟨a, between⟩, head, tail⟩ := Option.bind_eq_some_iff.mp taken
  exact onward a (first cs a between head) between b rest tail

/-- Where it does not matter what is read first. -/
theorem after {next : α → Reader β} (onward : ∀ a, Yields Q (next a)) :
    Yields Q (reader >>= next) :=
  (any reader).bind fun a _ => onward a

theorem map {f : α → β} (each : Yields (fun a => Q (f a)) reader) : Yields Q (f <$> reader) := by
  rintro cs _ rest taken
  obtain ⟨⟨a, between⟩, head, ⟨⟩⟩ := Option.bind_eq_some_iff.mp taken
  exact each cs a rest head

theorem orElse (left : Yields P reader) (right : Yields P other) : Yields P (reader <|> other) := by
  intro cs a rest taken
  change (reader cs <|> other cs) = some (a, rest) at taken
  cases first : reader cs with
  | some read =>
    rw [first] at taken
    exact left cs a rest (first.trans taken)
  | none =>
    rw [first] at taken
    exact right cs a rest taken

theorem optional? (each : Yields P reader) :
    Yields (fun a? => ∀ a, a? = some a → P a) (Reader.optional? reader) := by
  intro cs a? rest taken a some
  subst some
  unfold Reader.optional? at taken
  split at taken
  next read =>
    cases taken
    exact each _ _ _ read
  next => cases taken

theorem repeatedFrom (each : Yields P reader) (cs : List Char) :
    ∀ a ∈ (Reader.repeatedFrom reader cs).1, P a := by
  fun_induction Reader.repeatedFrom reader cs with
  | case1 => nofun
  | case2 cs a rest read shorter others behind found ih =>
    rw [found] at ih
    exact List.forall_mem_cons.mpr ⟨each cs a rest read, ih⟩
  | case3 => nofun

theorem repeated (each : Yields P reader) :
    Yields (fun items => ∀ a ∈ items, P a) (Reader.repeated reader) := by
  rintro cs items rest taken
  obtain rfl : (Reader.repeatedFrom reader cs).1 = items := congrArg Prod.fst (Option.some.inj taken)
  exact each.repeatedFrom cs

theorem separated1 {separator : Reader Unit} (each : Yields P reader) :
    Yields (fun items => ∀ a ∈ items, P a) (Reader.separated1 reader separator) :=
  each.bind fun _ first => (after fun _ => each).repeated.bind fun _ others =>
    .pure (List.forall_mem_cons.mpr ⟨first, others⟩)

theorem separated {separator : Reader Unit} (each : Yields P reader) :
    Yields (fun items => ∀ a ∈ items, P a) (Reader.separated reader separator) := by
  refine each.separated1.optional?.bind fun items? known => .pure ?_
  cases items? with
  | none => nofun
  | some items => exact known items rfl

end Yields

end Accessibility.Toml.Reader
