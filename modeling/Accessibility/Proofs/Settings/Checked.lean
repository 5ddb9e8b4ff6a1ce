import Mathlib.Algebra.Ring.Int.Defs
import Accessibility.Proofs.Outcome
import Accessibility.Settings.Basic

/-! What settings that were accepted are known to satisfy. -/
namespace Accessibility.Settings

/-- Packets are not empty, and lists of a fixed length have it. -/
structure Checked (settings : Settings) : Prop where
  some_packets : settings.packetSize ≠ 0
  school : ∀ names, settings.schoolSizeAttributes = some names → names.length = 5
  work : ∀ names, settings.workSizeAttributes = some names → names.length = 6

theorem length_of_namesOf {properties : Properties} {key : String} {expected : Nat}
    {found : Option (List String)} (read : namesOf properties key expected = .ok found)
    (names : List String) (given : found = some names) : names.length = expected := by
  obtain ⟨listed, _, read⟩ := bind_eq_ok read
  split at read
  · cases read
    cases given
  · split at read
    · cases read
    · rename_i right
      cases read
      cases given
      exact Decidable.not_not.mp right

theorem packetSize_ne_zero {properties : Properties} {size : UInt64}
    (read : packetSizeOf properties = .ok size)
    (word : ∀ number, properties.integer "acc.packet_size" = .ok number → number < 2 ^ 63) :
    size ≠ 0 := by
  obtain ⟨count, natural, read⟩ := bind_eq_ok read
  obtain ⟨number, given, natural⟩ := bind_eq_ok natural
  dsimp only at natural read
  split at natural
  · cases natural
  obtain rfl := Except.ok.inj natural
  split at read
  · cases read
  rename_i some_zones
  obtain rfl := Except.ok.inj read
  have small : number < 2 ^ 63 := by
    unfold Properties.orDefault at given
    split at given
    · exact word number given
    · obtain rfl := Except.ok.inj given
      decide
  intro none
  apply some_zones
  have same := congrArg UInt64.toNat none
  rw [Nat.toUInt64, UInt64.toNat_ofNat', Nat.mod_eq_of_lt] at same
  · exact same
  · omega

/-- Settings are checked before they are accepted. Integers of a configuration text are of 64
bits. -/
theorem checked_of_ofProperties {properties : Properties} {processors : Nat} {settings : Settings}
    (accepted : ofProperties properties processors = .ok settings)
    (word : ∀ number, properties.integer "acc.packet_size" = .ok number → number < 2 ^ 63) :
    Checked settings := by
  obtain ⟨packetSize, sized, accepted⟩ := bind_eq_ok accepted
  obtain ⟨_, _, accepted⟩ := bind_eq_ok accepted
  obtain ⟨_, _, accepted⟩ := bind_eq_ok accepted
  obtain ⟨_, _, accepted⟩ := bind_eq_ok accepted
  obtain ⟨_, _, accepted⟩ := bind_eq_ok accepted
  obtain ⟨school, schoolRead, accepted⟩ := bind_eq_ok accepted
  obtain ⟨work, workRead, accepted⟩ := bind_eq_ok accepted
  obtain ⟨_, _, accepted⟩ := bind_eq_ok accepted
  obtain ⟨_, _, accepted⟩ := bind_eq_ok accepted
  obtain ⟨_, _, accepted⟩ := bind_eq_ok accepted
  obtain ⟨_, _, accepted⟩ := bind_eq_ok accepted
  obtain ⟨_, _, accepted⟩ := bind_eq_ok accepted
  obtain ⟨_, _, accepted⟩ := bind_eq_ok accepted
  obtain ⟨_, _, accepted⟩ := bind_eq_ok accepted
  obtain rfl := Except.ok.inj accepted
  exact ⟨packetSize_ne_zero sized word, length_of_namesOf schoolRead, length_of_namesOf workRead⟩

end Accessibility.Settings
