import Accessibility.Number.Word
import Accessibility.Proofs.Outcome

/-! When checked arithmetic on words has a result: exactly if some word is the result that numbers
would have. Where it has none, the run stops. -/
namespace Accessibility.Word

variable {a b c first last rows : UInt64} {number : Nat} {fault : Fault}

theorem holding_eq_ok_iff : holding number = .ok c ↔ c.toNat = number := by
  unfold holding
  split
  next fits =>
    rw [Except.ok.injEq, ← UInt64.toNat_inj, UInt64.toNat_ofNat_of_lt' fits, eq_comm]
  next wide =>
    refine iff_of_false nofun ?_
    rintro rfl
    exact wide c.toNat_lt_size

theorem holding_of_le (above : UInt64.size ≤ number) : holding number = .error .outOfBounds :=
  if_neg (Nat.not_lt.mpr above)

theorem holding_eq_error (wide : holding number = .error fault) : fault = .outOfBounds := by
  unfold holding at wide
  split at wide <;> cases wide
  rfl

theorem configured_holding (number : Nat) : Configured (holding number) :=
  .of_outOfBounds fun _ => holding_eq_error

theorem sum_eq_ok_iff : sum a b = .ok c ↔ c.toNat = a.toNat + b.toNat := holding_eq_ok_iff

theorem product_eq_ok_iff : product a b = .ok c ↔ c.toNat = a.toNat * b.toNat := holding_eq_ok_iff

theorem difference_eq_ok_iff : difference a b = .ok c ↔ c.toNat + b.toNat = a.toNat := by
  unfold difference
  split
  next below =>
    have := UInt64.toNat_sub_of_le _ _ below
    have below : b.toNat ≤ a.toNat := UInt64.le_iff_toNat_le.mp below
    rw [Except.ok.injEq, ← UInt64.toNat_inj]
    omega
  next above =>
    have above : a.toNat < b.toNat := UInt64.not_le.mp above
    exact iff_of_false nofun (by omega)

theorem difference_eq_error (under : difference a b = .error fault) : fault = .outOfBounds := by
  unfold difference at under
  split at under <;> cases under
  rfl

/-- The positions from one up to another are counted if they are in their order and the count fits a
word. -/
theorem span_eq_ok_iff :
    span first last = .ok rows ↔ first ≤ last ∧ rows.toNat + first.toNat = last.toNat + 1 := by
  simp only [span, bind_eq_ok_iff, difference_eq_ok_iff, sum_eq_ok_iff, UInt64.toNat_one,
    UInt64.le_iff_toNat_le]
  constructor
  · rintro ⟨steps, up, counted⟩
    omega
  · rintro ⟨ordered, counted⟩
    have bound := last.toNat_lt_size
    have steps : (last.toNat - first.toNat).toUInt64.toNat = last.toNat - first.toNat :=
      UInt64.toNat_ofNat_of_lt' (by omega)
    exact ⟨(last.toNat - first.toNat).toUInt64, by omega, by omega⟩

theorem span_eq_error (uncounted : span first last = .error fault) : fault = .outOfBounds := by
  obtain under | ⟨steps, -, wide⟩ := bind_eq_error_iff.mp uncounted
  · exact difference_eq_error under
  · exact holding_eq_error wide

theorem configured_span (first last : UInt64) : Configured (span first last) :=
  .of_outOfBounds fun _ => span_eq_error

/-- Positions in their order are counted if there is a word behind the last of them. -/
theorem exists_span (ordered : first ≤ last) (short : last.toNat + 1 < UInt64.size) :
    ∃ rows, span first last = .ok rows ∧ rows.toNat = last.toNat + 1 - first.toNat := by
  have order : first.toNat ≤ last.toNat := UInt64.le_iff_toNat_le.mp ordered
  have rows : (last.toNat + 1 - first.toNat).toUInt64.toNat = last.toNat + 1 - first.toNat :=
    UInt64.toNat_ofNat_of_lt' (by omega)
  exact ⟨_, span_eq_ok_iff.mpr ⟨ordered, by omega⟩, rows⟩

/-- Positions out of their order are not counted. -/
theorem span_of_lt (reversed : last < first) : span first last = .error .outOfBounds := by
  have under : difference last first = .error .outOfBounds := if_neg (UInt64.not_le.mpr reversed)
  rw [span, under]
  rfl

theorem next_eq_ok_iff {a following : UInt32} : next a = .ok following ↔ following.toNat = a.toNat + 1 := by
  unfold next
  split
  next fits =>
    have wide : (a + 1).toNat = a.toNat + 1 := by
      rw [UInt32.toNat_add]
      exact Nat.mod_eq_of_lt fits
    rw [Except.ok.injEq, ← UInt32.toNat_inj, wide, eq_comm]
  next full =>
    refine iff_of_false nofun fun behind => full ?_
    exact behind ▸ following.toNat_lt_size

/-- The word behind that of a number. -/
theorem next_toUInt32 {number : Nat} (inside : number < UInt32.size) :
    next number.toUInt32 = if number + 1 < UInt32.size then .ok (number + 1).toUInt32 else .error .outOfBounds := by
  have word : number.toUInt32.toNat = number := UInt32.toNat_ofNat_of_lt' inside
  simp [next, word]

theorem next_eq_error {a : UInt32} (full : next a = .error fault) : fault = .outOfBounds := by
  unfold next at full
  split at full <;> cases full
  rfl

end Accessibility.Word
