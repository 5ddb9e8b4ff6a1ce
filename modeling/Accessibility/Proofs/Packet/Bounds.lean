import Accessibility.Proofs.Packet.Outcomes

/-! Packets that are not in the list. A packet's zones are cut out of the list before any of them is
evaluated, and where the cut fails the packet is a fault of the configuration, whatever evaluator waits
for the zones. The cut fails for all packets that are not in the list but one kind: a packet that ends
just before it starts, with no zone beyond the list before it, is cut as an empty one and has a result
without values, whose rows nobody can count (`compute_outside`). -/
namespace Accessibility.Packet

variable {packet : Packet} {zoneIds : Array UInt32} {evaluator : Evaluator} {context : Context}

/-- A packet in a list: both its ends are positions of the list, in their order. -/
structure Lies (zoneIds : Array UInt32) (packet : Packet) : Prop where
  ordered : packet.first ≤ packet.last
  within : packet.last.toNat < zoneIds.size

/-- A packet that ends just before it starts, inside the list or right behind it. -/
structure Vacant (zoneIds : Array UInt32) (packet : Packet) : Prop where
  behind : packet.first.toNat = packet.last.toNat + 1
  reached : packet.first.toNat ≤ zoneIds.size

theorem Vacant.reversed (vacant : packet.Vacant zoneIds) : packet.last < packet.first := by
  rw [UInt64.lt_iff_toNat_lt, vacant.behind]
  exact Nat.lt_succ_self _

/-- Zones are cut out for the packets in the list, and for those that are vacant there. -/
theorem exists_zonesOf_iff (listable : zoneIds.size < UInt64.size) :
    (∃ zones, packet.zonesOf zoneIds = .ok zones) ↔ packet.Lies zoneIds ∨ packet.Vacant zoneIds := by
  have bound := packet.first.toNat_lt_size
  simp only [zonesOf_eq_ok_iff, exists_and_left, exists_eq, and_true]
  constructor
  · rintro ⟨_, reach, within⟩
    by_cases ordered : packet.first ≤ packet.last
    · exact .inl ⟨ordered, within⟩
    · have inverted : packet.last.toNat < packet.first.toNat := UInt64.not_le.mp ordered
      exact .inr ⟨by omega, by omega⟩
  · rintro (⟨ordered, within⟩ | ⟨behind, reached⟩)
    · have ordered : packet.first.toNat ≤ packet.last.toNat := ordered
      omega
    · omega

/-- Where no zones are cut out it is for the bounds of the packet. -/
theorem zonesOf_eq_error (uncut : ¬ ∃ zones, packet.zonesOf zoneIds = .ok zones) :
    packet.zonesOf zoneIds = .error (.configuration
      s!"packet {packet.id} [{packet.first}, {packet.last}] outside the {zoneIds.size}-zone list") := by
  unfold zonesOf at uncut ⊢
  dsimp only at uncut ⊢
  split
  next inside => exact absurd ⟨_, if_pos inside⟩ uncut
  next => rfl

theorem zonesOf_of_vacant (vacant : packet.Vacant zoneIds) : packet.zonesOf zoneIds = .ok [] := by
  obtain ⟨behind, reached⟩ := vacant
  have bound := packet.first.toNat_lt_size
  refine (zonesOf_eq_ok_iff []).mpr ⟨⟨by omega, by omega, by omega⟩, ?_⟩
  rw [← behind]
  simp

/-- The evaluation of a vacant packet is over before it begins. -/
theorem compute_of_vacant (vacant : packet.Vacant zoneIds) :
    packet.compute zoneIds evaluator context =
      .done (.ok ⟨packet.id, packet.first, packet.last, evaluator.width.toUInt64, #[]⟩) := by
  rw [compute_eq, zonesOf_of_vacant vacant]
  rfl

/-- A packet that does not come down to its first zone is not in the list. An evaluator that fails for
every zone tells. -/
theorem not_lies_of_refused {fault : Fault} (different : fault ≠ .outOfBounds)
    (listable : zoneIds.size < UInt64.size)
    (refused : packet.compute zoneIds (.ofFunction [] fun _ _ => .error .outOfBounds) {} =
      .done (.error fault)) : ¬ packet.Lies zoneIds := by
  intro lies
  obtain ⟨zones, cut⟩ := (exists_zonesOf_iff listable).mpr (.inl lies)
  have ordered : packet.first.toNat ≤ packet.last.toNat := lies.ordered
  have within := lies.within
  cases zones with
  | nil =>
    have empty := congrArg List.length ((zonesOf_eq_ok_iff []).mp cut).2
    simp at empty
    omega
  | cons zone rest =>
    rw [compute_eq, cut] at refused
    cases refused
    exact different rfl

/-- Which packets are refused before any zone is evaluated, whatever the evaluator: those that are not
in the list, less the vacant ones. A vacant packet ends below its start, so it is not in the list either,
but it has a result: one without values, and whoever counts the rows of the packet or of the result stops
the run, for the difference is below zero. -/
theorem compute_outside (packet : Packet) (zoneIds : Array UInt32)
    (listable : zoneIds.size < UInt64.size) :
    ((∀ evaluator context, packet.compute zoneIds evaluator context = .done (.error (.configuration
        s!"packet {packet.id} [{packet.first}, {packet.last}] outside the {zoneIds.size}-zone list"))) ↔
      ¬ packet.Lies zoneIds ∧ ¬ packet.Vacant zoneIds) ∧
    (packet.Vacant zoneIds → packet.last < packet.first ∧ packet.rowCount = .error .outOfBounds ∧
      ∀ evaluator context, ∃ result, packet.compute zoneIds evaluator context = .done (.ok result) ∧
        result = ⟨packet.id, packet.first, packet.last, evaluator.width.toUInt64, #[]⟩ ∧
        result.rowCount = .error .outOfBounds) := by
  refine ⟨⟨fun refused => ⟨?_, fun vacant => ?_⟩, fun outside evaluator context => ?_⟩, fun vacant => ?_⟩
  · exact not_lies_of_refused (by simp) listable (refused _ {})
  · have accepted := refused (.ofFunction [] fun _ _ => .error .outOfBounds) {}
    rw [compute_of_vacant vacant] at accepted
    cases accepted
  · rw [compute_eq, zonesOf_eq_error]
    · rfl
    · rw [exists_zonesOf_iff listable, not_or]
      exact outside
  · have uncounted := Word.span_of_lt vacant.reversed
    exact ⟨vacant.reversed, uncounted, fun evaluator context =>
      ⟨_, compute_of_vacant vacant, rfl, uncounted⟩⟩

/-- A packet from the third zone on is refused where there are three zones and it goes on behind them. One
that ends at the first of them is refused too, and one that ends at the second is not. -/
theorem compute_outside_third :
    #[1, 2, 3].size < UInt64.size ∧
      (∃ text, Packet.compute ⟨1, 2, 5⟩ #[1, 2, 3] (.ofFunction ["a"] fun _ _ => .ok [.one]) {} =
        .done (.error (.configuration text))) ∧
      (∃ text, Packet.compute ⟨1, 2, 0⟩ #[1, 2, 3] (.ofFunction ["a"] fun _ _ => .ok [.one]) {} =
        .done (.error (.configuration text))) ∧
      ∃ result, Packet.compute ⟨1, 2, 1⟩ #[1, 2, 3] (.ofFunction ["a"] fun _ _ => .ok [.one]) {} =
          .done (.ok result) ∧
        result = ⟨1, 2, 1, 1, #[]⟩ ∧ result.rowCount = .error .outOfBounds := by
  have listable : #[1, 2, 3].size < UInt64.size := by decide
  refine ⟨listable, ⟨_, (compute_outside ⟨1, 2, 5⟩ #[1, 2, 3] listable).1.mpr ⟨?_, ?_⟩ _ _⟩,
    ⟨_, (compute_outside ⟨1, 2, 0⟩ #[1, 2, 3] listable).1.mpr ⟨?_, ?_⟩ _ _⟩,
    ((compute_outside ⟨1, 2, 1⟩ #[1, 2, 3] listable).2 ⟨rfl, Nat.le_succ 2⟩).2.2 _ _⟩
  · exact fun lies => absurd lies.within (by simp)
  · exact fun vacant => absurd vacant.behind (by simp)
  · exact fun lies => absurd lies.ordered (by simp)
  · exact fun vacant => absurd vacant.behind (by simp)

/-- A packet whose end is below its start, and that has a result all the same. The rows of neither can
be counted. -/
theorem compute_reversed :
    ¬ (⟨1, 1, 0⟩ : Packet).Lies #[7] ∧
      Packet.compute ⟨1, 1, 0⟩ #[7] (.ofFunction ["a"] fun _ _ => .ok [.one]) {} =
        .done (.ok ⟨1, 1, 0, 1, #[]⟩) ∧
      (⟨1, 1, 0⟩ : Packet).rowCount = .error .outOfBounds ∧
      (⟨1, 1, 0, 1, #[]⟩ : PacketResult).rowCount = .error .outOfBounds :=
  ⟨fun lies => absurd lies.ordered (by simp), rfl, rfl, rfl⟩

end Accessibility.Packet
