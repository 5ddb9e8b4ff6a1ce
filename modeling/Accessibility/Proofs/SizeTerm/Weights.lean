import Mathlib.Data.List.Induction
import Accessibility.Proofs.Outcome
import Accessibility.Proofs.SizeTerm.Table

/-! What calls that store weights leave behind. A cell holds the last weight that was stored in it and a flag
is set from the first weight above zero on (`weight_filled`, `hasSizeTerm_filled`), so no weight above zero
goes without its flag. A flag is never taken back: it stays behind when a zero takes the place of a zone's only
weight above zero, and as long as that does not happen it tells of such a weight (`tells_call_iff`,
`filled_accounts`). -/
namespace Accessibility.SizeTermTable

variable {table after : SizeTermTable} {segmentNames : List String} {maxZone : UInt32} {calls : List Call}
  {call : Call} {zone other : UInt32} {segment column : Nat} {value : Double}

/-! ## One call -/

/-- A weight that is stored: in one of the cells, finite, and not negative. -/
structure Call.Fits (segmentNames : List String) (maxZone : UInt32) (call : Call) : Prop where
  zone : call.zone ≤ maxZone
  segment : call.segment < segmentNames.length
  finite : call.value.isFinite = true
  natural : call.value.isNegative = false

instance (segmentNames : List String) (maxZone : UInt32) (call : Call) :
    Decidable (call.Fits segmentNames maxZone) :=
  decidable_of_iff ((call.zone ≤ maxZone ∧ call.segment < segmentNames.length) ∧
      call.value.isFinite = true ∧ call.value.isNegative = false)
    ⟨fun ⟨⟨zone, segment⟩, finite, natural⟩ => ⟨zone, segment, finite, natural⟩,
      fun ⟨zone, segment, finite, natural⟩ => ⟨⟨zone, segment⟩, finite, natural⟩⟩

/-- What is said of a weight that is not stored. -/
inductive Call.Refused (segmentNames : List String) (maxZone : UInt32) (call : Call) : Fault → Prop where
  | beyondTable (beyond : maxZone < call.zone) :
      Refused segmentNames maxZone call
        (.lookup s!"zone {call.zone} beyond size term table (max {maxZone})")
  | noSegment (within : call.zone ≤ maxZone) (beyond : segmentNames.length ≤ call.segment) :
      Refused segmentNames maxZone call
        (.lookup s!"size term segment {call.segment} out of range ({segmentNames.length} segments)")
  | badWeight (within : call.zone ≤ maxZone) {name : String} (named : segmentNames[call.segment]? = some name)
      (bad : call.value.isFinite = false ∨ call.value.isNegative = true) :
      Refused segmentNames maxZone call
        (.computation call.zone s!"size term for segment '{name}' is {call.value.text}")

/-- The weight in a cell, zero outside the table. -/
def weight (table : SizeTermTable) (zone : UInt32) (segment : Nat) : Double :=
  if zone ≤ table.maxZone ∧ segment < table.width then
    table.values[zone.toNat * table.width + segment]?.getD .zero
  else .zero

/-- A weight is stored exactly if it fits. -/
theorem set_cases (table : SizeTermTable) (call : Call) :
    (call.Fits table.segmentNames table.maxZone ∧
      ∃ after, table.set call.zone call.segment call.value = .ok after) ∨
    ¬ call.Fits table.segmentNames table.maxZone ∧
      ∃ fault, table.set call.zone call.segment call.value = .error fault ∧
        call.Refused table.segmentNames table.maxZone fault := by
  cases outcome : table.set call.zone call.segment call.value with
  | ok after =>
    obtain ⟨⟨within, inside⟩, ⟨finite, natural⟩, -⟩ := set_eq_ok outcome
    exact .inl ⟨⟨within, inside, finite, natural⟩, after, rfl⟩
  | error fault =>
    unfold set at outcome
    split at outcome
    next beyond =>
      cases outcome
      exact .inr ⟨fun fits => absurd fits.zone (UInt32.not_le.mpr beyond), _, rfl, .beyondTable beyond⟩
    next within =>
      have within := UInt32.not_lt.mp within
      split at outcome
      next unnamed =>
        cases outcome
        have beyond := List.getElem?_eq_none_iff.mp unnamed
        exact .inr ⟨fun fits => absurd fits.segment (Nat.not_lt.mpr beyond), _, rfl, .noSegment within beyond⟩
      next name named =>
        split at outcome
        next bad =>
          cases outcome
          rw [Bool.or_eq_true, Bool.not_eq_true'] at bad
          refine .inr ⟨fun fits => ?_, _, rfl, .badWeight within named bad⟩
          simp [fits.finite, fits.natural] at bad
        next => cases outcome

/-- A row with its weights, where the table has all its cells. -/
theorem Flagged.row_eq (flagged : table.Flagged) (zone : UInt32) :
    table.row zone = .ok (if zone ≤ table.maxZone then (List.range table.width).map (table.weight zone) else []) := by
  unfold SizeTermTable.row
  by_cases within : zone ≤ table.maxZone
  · have reach : zone.toNat * table.width + table.width ≤ table.values.size := by
      rw [flagged.cells, ← Nat.succ_mul]
      exact Nat.mul_le_mul_right _ (Nat.succ_le_succ within)
    rw [if_neg (UInt32.not_lt.mpr within), if_pos within, if_pos reach]
    refine congrArg Except.ok (List.ext_getElem ?_ fun column inside inside' => ?_)
    · simp only [Array.length_toList, Array.size_extract, List.length_map, List.length_range]
      omega
    · have inside : column < table.width := by simpa using inside'
      have there : zone.toNat * table.width + column < table.values.size := by omega
      simp [weight, within, inside, there]
  · rw [if_pos (UInt32.not_le.mp within), if_neg within]

theorem Flagged.get_eq (flagged : table.Flagged) (zone : UInt32) (segment : Nat) :
    table.get zone segment = .ok (table.weight zone segment) := by
  rw [SizeTermTable.get, flagged.row_eq]
  refine congrArg Except.ok ?_
  by_cases within : zone ≤ table.maxZone
  · by_cases inside : segment < table.width <;> simp [weight, within, inside]
  · simp [weight, within]

/-- Zones and segments have cells of their own. -/
theorem cell_eq_iff {width : Nat} (inside : segment < width) (inside' : column < width) :
    zone.toNat * width + segment = other.toNat * width + column ↔ other = zone ∧ column = segment := by
  constructor
  · intro same
    obtain rfl : other = zone := by
      by_contra apart
      exact cell_ne (fun equal => apart (UInt32.toNat_inj.mp equal.symm)) inside inside' same
    exact ⟨rfl, (Nat.add_left_cancel same).symm⟩
  · rintro ⟨rfl, rfl⟩
    rfl

/-- A stored weight is in its cell, and all other cells are as they were. -/
theorem weight_set (flagged : table.Flagged) (stored : table.set zone segment value = .ok after)
    (other : UInt32) (column : Nat) :
    after.weight other column = if other = zone ∧ column = segment then value else table.weight other column := by
  obtain ⟨⟨within, inside⟩, -, rfl⟩ := set_eq_ok stored
  have there : zone.toNat * table.width + segment < table.values.size := by
    have rows : (zone.toNat + 1) * table.width ≤ (table.maxZone.toNat + 1) * table.width :=
      Nat.mul_le_mul_right _ (Nat.succ_le_succ within)
    rw [flagged.cells]
    rw [Nat.succ_mul] at rows
    omega
  show (if other ≤ table.maxZone ∧ column < table.width then
      (table.values.setIfInBounds (zone.toNat * table.width + segment) value)[
        other.toNat * table.width + column]?.getD .zero else .zero) = _
  unfold weight
  by_cases here : other ≤ table.maxZone ∧ column < table.width
  · rw [if_pos here, if_pos here, Array.getElem?_setIfInBounds]
    simp only [cell_eq_iff inside here.2]
    by_cases cell : other = zone ∧ column = segment
    · rw [if_pos cell, if_pos cell, if_pos there]
      rfl
    · rw [if_neg cell, if_neg cell]
  · have elsewhere : ¬ (other = zone ∧ column = segment) := by
      rintro ⟨rfl, rfl⟩
      exact here ⟨within, inside⟩
    rw [if_neg here, if_neg here, if_neg elsewhere]

/-- What a call changes: a cell and, for a weight above zero, the flag of its zone. -/
structure Puts (table : SizeTermTable) (call : Call) (after : SizeTermTable) : Prop where
  segmentNames : after.segmentNames = table.segmentNames
  maxZone : after.maxZone = table.maxZone
  cell : after.get call.zone call.segment = .ok call.value
  otherCells : ∀ zone segment, ¬ (zone = call.zone ∧ segment = call.segment) →
    after.get zone segment = table.get zone segment
  flag : after.hasSizeTerm call.zone = (table.hasSizeTerm call.zone || call.value.isPositive)
  otherFlags : ∀ zone, zone ≠ call.zone → after.hasSizeTerm zone = table.hasSizeTerm zone

theorem Flagged.puts (flagged : table.Flagged)
    (stored : table.set call.zone call.segment call.value = .ok after) : table.Puts call after := by
  have weights := weight_set flagged stored
  have flags := hasSizeTerm_set flagged stored
  have flagged' := flagged.set stored
  have same := (set_eq_ok stored).2.2
  refine ⟨by rw [same], by rw [same], ?_, fun zone segment elsewhere => ?_, ?_, fun zone apart => ?_⟩
  · rw [flagged'.get_eq, weights, if_pos ⟨rfl, rfl⟩]
  · rw [flagged'.get_eq, flagged.get_eq, weights, if_neg elsewhere]
  · simp [flags]
  · simp [flags, apart]

/-! ## A run of calls -/

theorem call_of_fits (fits : call.Fits table.segmentNames table.maxZone) :
    table.set call.zone call.segment call.value = .ok (table.call call) := by
  obtain ⟨-, after, stored⟩ | ⟨refuses, -⟩ := set_cases table call
  · unfold SizeTermTable.call
    rw [stored]
  · exact absurd fits refuses

theorem call_of_refused (refused : ¬ call.Fits table.segmentNames table.maxZone) : table.call call = table := by
  obtain ⟨fits, -⟩ | ⟨-, fault, error, -⟩ := set_cases table call
  · exact absurd fits refused
  · unfold SizeTermTable.call
    rw [error]

/-- No call changes the bounds of a table. -/
theorem bounds_call (table : SizeTermTable) (call : Call) :
    (table.call call).segmentNames = table.segmentNames ∧ (table.call call).maxZone = table.maxZone := by
  by_cases fits : call.Fits table.segmentNames table.maxZone
  · have same := (set_eq_ok (call_of_fits fits)).2.2
    exact ⟨by rw [same], by rw [same]⟩
  · rw [call_of_refused fits]
    exact ⟨rfl, rfl⟩

theorem filled_concat (segmentNames : List String) (maxZone : UInt32) (calls : List Call) (call : Call) :
    filled segmentNames maxZone (calls ++ [call]) = (filled segmentNames maxZone calls).call call :=
  List.foldl_append

theorem bounds_filled (segmentNames : List String) (maxZone : UInt32) (calls : List Call) :
    (filled segmentNames maxZone calls).segmentNames = segmentNames ∧
      (filled segmentNames maxZone calls).maxZone = maxZone := by
  induction calls using List.reverseRecOn with
  | nil => exact ⟨rfl, rfl⟩
  | append_singleton calls call ih =>
    rw [filled_concat]
    obtain ⟨names, bound⟩ := bounds_call (filled segmentNames maxZone calls) call
    exact ⟨names.trans ih.1, bound.trans ih.2⟩

/-- The last of the weights that calls store in a cell, zero if there is none. -/
def lastWeight (segmentNames : List String) (maxZone : UInt32) (calls : List Call) (zone : UInt32)
    (segment : Nat) : Double :=
  ((calls.filter fun call =>
    call.Fits segmentNames maxZone ∧ call.zone = zone ∧ call.segment = segment).getLast?.map Call.value).getD .zero

theorem weight_zeros (segmentNames : List String) (maxZone : UInt32) (zone : UInt32) (segment : Nat) :
    (zeros segmentNames maxZone).weight zone segment = .zero := by
  unfold weight zeros
  split
  · rw [Array.getElem?_replicate]
    split <;> rfl
  · rfl

/-- A cell holds the last weight that was stored in it. -/
theorem weight_filled (segmentNames : List String) (maxZone : UInt32) (calls : List Call) (zone : UInt32)
    (segment : Nat) :
    (filled segmentNames maxZone calls).weight zone segment = lastWeight segmentNames maxZone calls zone segment := by
  induction calls using List.reverseRecOn with
  | nil => exact weight_zeros ..
  | append_singleton calls call ih =>
    have flagged := flagged_filled segmentNames maxZone calls
    obtain ⟨names, bound⟩ := bounds_filled segmentNames maxZone calls
    rw [filled_concat, lastWeight, List.filter_append]
    by_cases fits : call.Fits segmentNames maxZone
    · have stored := @call_of_fits (filled segmentNames maxZone calls) call (by rwa [names, bound])
      rw [weight_set flagged stored]
      by_cases cell : zone = call.zone ∧ segment = call.segment
      · simp [cell, fits]
      · have elsewhere : ¬ (call.zone = zone ∧ call.segment = segment) := fun here => cell ⟨here.1.symm, here.2.symm⟩
        rw [if_neg cell, ih, lastWeight]
        simp [elsewhere]
    · rw [call_of_refused (by rwa [names, bound]), ih, lastWeight]
      simp [fits]

/-- A weight is that of a call that stored it, and zero if there is none. -/
theorem lastWeight_cases (segmentNames : List String) (maxZone : UInt32) (calls : List Call) (zone : UInt32)
    (segment : Nat) :
    (∃ call ∈ calls, (call.Fits segmentNames maxZone ∧ call.zone = zone ∧ call.segment = segment) ∧
      lastWeight segmentNames maxZone calls zone segment = call.value) ∨
    (∀ call ∈ calls, ¬ (call.Fits segmentNames maxZone ∧ call.zone = zone ∧ call.segment = segment)) ∧
      lastWeight segmentNames maxZone calls zone segment = .zero := by
  unfold lastWeight
  cases last : (calls.filter fun call =>
      call.Fits segmentNames maxZone ∧ call.zone = zone ∧ call.segment = segment).getLast? with
  | some call =>
    obtain ⟨member, here⟩ := List.mem_filter.mp (List.mem_of_getLast? last)
    exact .inl ⟨call, member, of_decide_eq_true here, rfl⟩
  | none =>
    refine .inr ⟨fun call member here => ?_, rfl⟩
    exact List.not_mem_nil (List.getLast?_eq_none_iff.mp last ▸
      List.mem_filter.mpr ⟨member, decide_eq_true here⟩)

/-- A flag is set from the first weight above zero on that is stored for its zone. -/
theorem hasSizeTerm_filled (segmentNames : List String) (maxZone : UInt32) (calls : List Call) (zone : UInt32) :
    (filled segmentNames maxZone calls).hasSizeTerm zone = true ↔
      ∃ call ∈ calls, call.Fits segmentNames maxZone ∧ call.zone = zone ∧ call.value.isPositive = true := by
  induction calls using List.reverseRecOn with
  | nil =>
    have unset : (zeros segmentNames maxZone).hasSizeTerm zone = false := by
      unfold hasSizeTerm zeros
      rw [Array.getElem?_replicate]
      split <;> rfl
    simp [filled, unset]
  | append_singleton calls call ih =>
    have flagged := flagged_filled segmentNames maxZone calls
    obtain ⟨names, bound⟩ := bounds_filled segmentNames maxZone calls
    rw [filled_concat]
    by_cases fits : call.Fits segmentNames maxZone
    · have stored := @call_of_fits (filled segmentNames maxZone calls) call (by rwa [names, bound])
      rw [hasSizeTerm_set flagged stored, Bool.or_eq_true, ih]
      simp [or_and_right, exists_or, fits, @eq_comm _ zone call.zone]
    · rw [call_of_refused (by rwa [names, bound]), ih]
      simp [or_and_right, exists_or, fits]

/-! ## What flags tell -/

/-- The flag of a zone is set exactly if one of its weights is above zero. -/
def Tells (table : SizeTermTable) (zone : UInt32) : Prop :=
  table.hasSizeTerm zone = true ↔
    ∃ segment weight, table.get zone segment = .ok weight ∧ weight.isPositive = true

/-- A call that stores a zero for a flagged zone with no other weight above zero. -/
structure Empties (table : SizeTermTable) (call : Call) : Prop where
  fits : call.Fits table.segmentNames table.maxZone
  zero : call.value.isPositive = false
  flagged : table.hasSizeTerm call.zone = true
  only : ∀ segment weight, segment ≠ call.segment → table.get call.zone segment = .ok weight →
    weight.isPositive = false

/-- No weight above zero is without its flag. -/
theorem Flagged.hasSizeTerm_of_isPositive (flagged : table.Flagged)
    (positive : (table.weight zone segment).isPositive = true) : table.hasSizeTerm zone = true := by
  rw [← Bool.not_eq_false]
  intro unflagged
  obtain ⟨size, got, zero, -⟩ := flagged.get unflagged segment
  rw [flagged.get_eq] at got
  cases got
  rw [Double.isPositive_of_isZero zero] at positive
  exact Bool.false_ne_true positive

theorem Flagged.tells_iff (flagged : table.Flagged) (zone : UInt32) :
    table.Tells zone ↔
      (table.hasSizeTerm zone = true → ∃ segment, (table.weight zone segment).isPositive = true) := by
  simp only [Tells, flagged.get_eq, Except.ok.injEq, exists_eq_left']
  exact ⟨Iff.mp, fun told => ⟨told, fun ⟨_, positive⟩ => flagged.hasSizeTerm_of_isPositive positive⟩⟩

/-- After a call that stores a weight the flag of its zone tells of one above zero, unless the call took the
only one away. Other flags tell what they did. -/
theorem Flagged.tells_call_iff (flagged : table.Flagged) (call : Call) (zone : UInt32) :
    (table.call call).Tells zone ↔
      if call.Fits table.segmentNames table.maxZone ∧ call.zone = zone then ¬ table.Empties call
      else table.Tells zone := by
  by_cases fits : call.Fits table.segmentNames table.maxZone
  · have stored := call_of_fits fits
    have flagged' := flagged.set stored
    rw [flagged'.tells_iff, hasSizeTerm_set flagged stored]
    simp only [weight_set flagged stored]
    by_cases same : call.zone = zone
    · subst same
      rw [if_pos ⟨fits, rfl⟩]
      cases positive : call.value.isPositive with
      | true =>
        have told : ¬ table.Empties call := fun empties => Bool.false_ne_true (empties.zero.symm.trans positive)
        exact iff_of_true (fun _ => ⟨call.segment, by rw [if_pos ⟨rfl, rfl⟩, positive]⟩) told
      | false =>
        rw [Bool.and_false, Bool.or_false]
        constructor
        · intro told empties
          obtain ⟨segment, above⟩ := told empties.flagged
          split at above
          next => exact Bool.false_ne_true (positive.symm.trans above)
          next elsewhere =>
            have apart : segment ≠ call.segment := fun equal => elsewhere ⟨rfl, equal⟩
            exact Bool.false_ne_true ((empties.only segment _ apart (flagged.get_eq ..)).symm.trans above)
        · intro keeps flag
          by_contra none
          refine keeps ⟨fits, positive, flag, fun segment weight apart got => ?_⟩
          rw [flagged.get_eq] at got
          cases got
          rw [← Bool.not_eq_true]
          intro above
          exact none ⟨segment, by rwa [if_neg fun here => apart here.2]⟩
    · rw [if_neg fun here => same here.2, flagged.tells_iff]
      have apart : zone ≠ call.zone := fun equal => same equal.symm
      simp [apart]
  · rw [call_of_refused fits, if_neg fun here => fits here.1]

/-- As long as no call takes the only weight above zero of a zone away, all flags tell. -/
theorem tells_filled
    (keeps : ∀ earlier call later, calls = earlier ++ call :: later →
      ¬ (filled segmentNames maxZone earlier).Empties call) (zone : UInt32) :
    (filled segmentNames maxZone calls).Tells zone := by
  induction calls using List.reverseRecOn with
  | nil =>
    rw [(flagged_filled ..).tells_iff, hasSizeTerm_filled]
    rintro ⟨_, none, -⟩
    cases none
  | append_singleton calls call ih =>
    rw [filled_concat, (flagged_filled ..).tells_call_iff]
    split
    next => exact keeps calls call [] rfl
    next =>
      refine ih fun earlier other later split => keeps earlier other (later ++ [call]) ?_
      rw [split]
      simp

/-- The account of a table after any calls. Each cell holds the last weight stored in it, which is finite and
not negative, and a flag is set exactly if a weight above zero was stored for its zone at some time. So no
weight above zero is without its flag, and a flag without one was left by a call that put a zero in the place of
the only one. Of the calls that follow, those that store change one cell and may set one flag, and the others
change nothing. -/
theorem filled_accounts (segmentNames : List String) (maxZone : UInt32) (calls : List Call) :
    let table := filled segmentNames maxZone calls
    (∀ zone segment, table.get zone segment = .ok (lastWeight segmentNames maxZone calls zone segment)) ∧
      (∀ zone segment weight, table.get zone segment = .ok weight →
        weight.isFinite = true ∧ weight.isNegative = false ∧
          (weight.isPositive = true → table.hasSizeTerm zone = true)) ∧
      (∀ zone, table.hasSizeTerm zone = true ↔
        ∃ call ∈ calls, call.Fits segmentNames maxZone ∧ call.zone = zone ∧ call.value.isPositive = true) ∧
      ((∀ earlier call later, calls = earlier ++ call :: later →
        ¬ (filled segmentNames maxZone earlier).Empties call) → ∀ zone, table.Tells zone) ∧
      ∀ call,
        ((call.Fits segmentNames maxZone ∧ ∃ after,
            table.set call.zone call.segment call.value = .ok after ∧ table.Puts call after) ∨
          ¬ call.Fits segmentNames maxZone ∧ (∃ fault, table.set call.zone call.segment call.value = .error fault ∧
            call.Refused segmentNames maxZone fault) ∧ table.call call = table) ∧
        ∀ zone, (table.call call).Tells zone ↔
          if call.Fits segmentNames maxZone ∧ call.zone = zone then ¬ table.Empties call else table.Tells zone := by
  intro table
  have flagged : table.Flagged := flagged_filled segmentNames maxZone calls
  obtain ⟨names, bound⟩ : table.segmentNames = segmentNames ∧ table.maxZone = maxZone := bounds_filled ..
  have weights (zone : UInt32) (segment : Nat) : table.weight zone segment = _ := weight_filled ..
  refine ⟨fun zone segment => ?_, fun zone segment weight got => ?_, hasSizeTerm_filled _ _ _, tells_filled,
    fun call => ⟨?_, ?_⟩⟩
  · rw [flagged.get_eq, weights]
  · rw [flagged.get_eq] at got
    cases got
    have sound : (table.weight zone segment).isFinite = true ∧ (table.weight zone segment).isNegative = false := by
      rw [weights]
      obtain ⟨call, -, ⟨fits, -⟩, last⟩ | ⟨-, zero⟩ := lastWeight_cases segmentNames maxZone calls zone segment
      · exact last ▸ ⟨fits.finite, fits.natural⟩
      · rw [zero]
        decide
    exact ⟨sound.1, sound.2, flagged.hasSizeTerm_of_isPositive⟩
  · have outcome := set_cases table call
    rw [names, bound] at outcome
    refine outcome.imp (fun ⟨fits, after, stored⟩ => ⟨fits, after, stored, flagged.puts stored⟩) ?_
    rintro ⟨refuses, refused⟩
    exact ⟨refuses, refused, call_of_refused (by rwa [names, bound])⟩
  · have told := flagged.tells_call_iff call
    rwa [names, bound] at told

/-- A zero in the place of the only weight above zero leaves the flag set. -/
theorem flag_outlasts_weight :
    let table := filled ["jobs"] 0 [⟨0, 0, .one⟩, ⟨0, 0, .zero⟩]
    table.hasSizeTerm 0 = true ∧ table.row 0 = .ok [.zero] ∧ ¬ table.Tells 0 := by
  intro table
  have flag : table.hasSizeTerm 0 = true := by decide +kernel
  have row : table.row 0 = .ok [.zero] := by decide +kernel
  refine ⟨flag, row, fun tells => ?_⟩
  obtain ⟨segment, weight, got, positive⟩ := tells.mp flag
  rw [SizeTermTable.get, row] at got
  cases got
  have zero : ([.zero] : List Double)[segment]?.getD .zero = .zero := by cases segment <;> rfl
  rw [zero] at positive
  exact absurd positive (by decide)

end Accessibility.SizeTermTable
