import Accessibility.Proofs.Wire.Acceptance
import Accessibility.Proofs.Wire.Checksum

/-! Frames that come to harm. Bytes that open are a frame of their own, so the question is which
frames can be mistaken for each other. A frame states its length, so none begins another one; and
two frames that differ in at most eight bytes in a row differ in a checksum. It is the checksum of
header and body that shows it: where the change also reaches that checksum, it has left header
and body alone. -/
namespace Accessibility.Frame

/-- What can become of a frame: its end is lost, something follows it, or some bytes in a row,
eight at most, are others. -/
inductive Corrupted (frame found : List UInt8) : Prop where
  | cut (shorter : found.length < frame.length) (begins : found <+: frame)
  | extended (longer : frame.length < found.length) (begins : frame <+: found)
  | burst (start : Nat) (long : found.length = frame.length) (differs : found ≠ frame)
      (within : ∀ i, found[i]? ≠ frame[i]? → start ≤ i ∧ i < start + 8)

variable {kind : FrameKind} {frame found body other : List UInt8} {reserved mark : UInt8}

/-- No frame begins a longer one, since both state their length. -/
theorem length_eq_of_begins (small : body.length < UInt64.size) (small' : other.length < UInt64.size)
    (begins : around kind reserved body <+: around kind mark other) : body.length = other.length := by
  have stated := field_bodySize kind reserved body
  have stated' := field_bodySize kind mark other
  have long := length_around kind reserved body
  obtain ⟨rest, whole⟩ := begins
  have same : field (around kind reserved body ++ rest) 8 8 = field (around kind reserved body) 8 8 := by
    unfold field
    rw [List.drop_append_of_le_length (by rw [long, headerSize]; omega),
      List.take_append_of_le_length (by rw [List.length_drop, long, headerSize, footerSize]; omega)]
  rw [whole, stated, stated', Nat.mod_eq_of_lt small, Nat.mod_eq_of_lt small'] at same
  exact same.symm

/-- Bytes that differ nowhere but from one position on agree before it. -/
theorem take_eq_of_within {start : Nat} (within : ∀ i, found[i]? ≠ frame[i]? → start ≤ i ∧ i < start + 8) :
    found.take start = frame.take start := by
  apply List.ext_getElem?
  intro i
  by_cases before : i < start
  · rw [List.getElem?_take_of_lt before, List.getElem?_take_of_lt before]
    by_contra differs
    have := within i differs
    omega
  · rw [List.getElem?_take_eq_none (by omega), List.getElem?_take_eq_none (by omega)]

theorem drop_eq_of_within {start position : Nat}
    (within : ∀ i, found[i]? ≠ frame[i]? → start ≤ i ∧ i < start + 8) (behind : start + 8 ≤ position) :
    found.drop position = frame.drop position := by
  apply List.ext_getElem?
  intro i
  rw [List.getElem?_drop, List.getElem?_drop]
  by_contra differs
  have := within (position + i) differs
  omega

/-- Bytes with one checksum that differ within eight bytes in a row do not differ. -/
theorem eq_of_checksum {start : Nat} (long : found.length = frame.length)
    (within : ∀ i, found[i]? ≠ frame[i]? → start ≤ i ∧ i < start + 8)
    (checked : Checksum.of found = Checksum.of frame) : found = frame := by
  have split : ∀ bytes : List UInt8,
      bytes = bytes.take start ++ (bytes.drop start).take 8 ++ bytes.drop (start + 8) := by
    intro bytes
    rw [List.append_assoc, ← List.drop_drop, List.take_append_drop, List.take_append_drop]
  have before := take_eq_of_within within
  have behind := drop_eq_of_within within (Nat.le_refl _)
  by_contra differs
  have changed : (found.drop start).take 8 ≠ (frame.drop start).take 8 := by
    intro same
    rw [split found, split frame, before, behind, same] at differs
    exact differs rfl
  have sameLength : ((found.drop start).take 8).length = ((frame.drop start).take 8).length := by
    rw [List.length_take, List.length_take, List.length_drop, List.length_drop, long]
  have apart : Checksum.of (frame.take start ++ (found.drop start).take 8 ++ frame.drop (start + 8)) ≠
      Checksum.of (frame.take start ++ (frame.drop start).take 8 ++ frame.drop (start + 8)) :=
    Checksum.of_ne_of_window sameLength (List.length_take_le ..) changed
  rw [← split frame, ← before, ← behind, ← split found] at apart
  exact apart checked

theorem around_eq_of_framed
    (framed : headerOf kind reserved body.length ++ body = headerOf kind mark other.length ++ other) :
    around kind reserved body = around kind mark other := by
  have same : body = other := by
    have dropped := congrArg (List.drop headerSize) framed
    rwa [List.drop_left' (length_headerOf ..), List.drop_left' (length_headerOf ..)] at dropped
  rw [around, around, framed, same]

/-- Frames of one length that differ within eight bytes in a row are equal. -/
theorem around_eq_of_within {start : Nat} (long : body.length = other.length)
    (within : ∀ i, (around kind reserved body)[i]? ≠ (around kind mark other)[i]? →
      start ≤ i ∧ i < start + 8) :
    around kind reserved body = around kind mark other := by
  apply around_eq_of_framed
  have framed := take_framed kind reserved body
  have framed' := take_framed kind mark other
  rw [← long] at framed'
  -- What the frames differ in, the bytes their checksum is about can only differ in too.
  have inner : ∀ i, (headerOf kind reserved body.length ++ body)[i]? ≠
      (headerOf kind mark body.length ++ other)[i]? →
      (i < headerSize + body.length) ∧ start ≤ i ∧ i < start + 8 := by
    intro i differs
    rw [← framed, ← framed', List.getElem?_take, List.getElem?_take] at differs
    split at differs
    next inside => exact ⟨inside, within i differs⟩
    next => exact absurd rfl differs
  by_contra differs
  rw [← long] at differs
  obtain ⟨i, apart⟩ : ∃ i, (headerOf kind reserved body.length ++ body)[i]? ≠
      (headerOf kind mark body.length ++ other)[i]? := by
    by_contra none
    exact differs (List.ext_getElem? fun i => not_not.mp (not_exists.mp none i))
  obtain ⟨inside, near, -⟩ := inner i apart
  -- So the change begins before the footer and ends before the footer's second checksum.
  have footer : (around kind reserved body).drop (headerSize + body.length + 8) =
      (around kind mark other).drop (headerSize + body.length + 8) :=
    drop_eq_of_within within (by omega)
  have checked := field_frameChecksum kind reserved body
  have checked' := field_frameChecksum kind mark other
  rw [← long] at checked'
  have same : Checksum.of (headerOf kind reserved body.length ++ body) =
      Checksum.of (headerOf kind mark body.length ++ other) := by
    rw [← UInt64.toNat_inj, ← checked, ← checked', field, field, footer]
  refine differs (eq_of_checksum ?_ (fun i differs => (inner i differs).2) same)
  rw [List.length_append, List.length_append, length_headerOf, length_headerOf, long]

/-- What has become of a frame does not open. -/
theorem openBody_of_corrupted (small : body.length < UInt64.size)
    (corrupted : Corrupted (wrap kind body) found) : ∃ refusal, openBody kind found = .error refusal := by
  cases opened : openBody kind found with
  | error refusal => exact ⟨refusal, rfl⟩
  | ok other =>
    exfalso
    obtain ⟨small', mark, rfl⟩ := openBody_eq_ok_iff.mp opened
    rw [wrap_eq_around] at corrupted
    have long := length_around kind 0 body
    have long' := length_around kind mark other
    cases corrupted with
    | cut shorter begins =>
      have := length_eq_of_begins small' small begins
      omega
    | extended longer begins =>
      have := length_eq_of_begins small small' begins
      omega
    | burst start sameLength differs within =>
      exact differs (around_eq_of_within (by omega) within)

theorem decode_of_corrupted {α : Type} [Wire α] (small : body.length < UInt64.size)
    (corrupted : Corrupted (wrap kind body) found) :
    ∃ refusal, decode (α := α) kind found = .error refusal := by
  obtain ⟨refusal, refused⟩ := openBody_of_corrupted small corrupted
  refine ⟨refusal, ?_⟩
  rw [decode, refused]
  rfl

theorem Refusal.fault_eq (refusal : Refusal) : ∃ text, refusal.fault = .distribution text := by
  cases refusal <;> exact ⟨_, rfl⟩

/-- A frame that has come to harm is refused as a failure of the distribution, be it a bundle's
or a reply's. A message that can be held in memory is short enough for the length in front. -/
theorem decode_corrupted_messages :
    (∀ (jobId alternatives : UInt64) (inputs : JobInputs) (found : List UInt8),
      (Wire.encode (JobBundle.mk jobId alternatives inputs)).length < UInt64.size →
      Corrupted (JobBundle.encodeParts jobId alternatives inputs) found ∨
        Corrupted (JobBundle.encode ⟨jobId, alternatives, inputs⟩) found →
      ∃ text, JobBundle.decode found = .error (.distribution text)) ∧
    ∀ (reply : TaskReply) (found : List UInt8), (Wire.encode reply).length < UInt64.size →
      Corrupted reply.encode found → ∃ text, TaskReply.decode found = .error (.distribution text) := by
  constructor
  · intro jobId alternatives inputs found small corrupted
    rw [JobBundle.encodeParts_eq, or_self] at corrupted
    obtain ⟨refusal, refused⟩ := decode_of_corrupted (α := JobBundle) small corrupted
    obtain ⟨text, told⟩ := refusal.fault_eq
    exact ⟨text, by rw [JobBundle.decode, refused, ← told]⟩
  · intro reply found small corrupted
    obtain ⟨refusal, refused⟩ := decode_of_corrupted (α := TaskReply) small corrupted
    obtain ⟨text, told⟩ := refusal.fault_eq
    exact ⟨text, by rw [TaskReply.decode, refused, ← told]⟩

/-- A bundle with a byte behind its frame, and a reply of which the last bytes of the header and
the first of the body were changed. -/
theorem decode_corrupted_messages_border :
    let inputs : JobInputs := {
      zones := ⟨["jobs"], #[⟨5, .one, .zero, ⟨0, 7⟩, [.one]⟩]⟩
      sizeTerms := ⟨["jobs"], 5, #[.one], #[true]⟩
      constants := ⟨["auto"], #[.zero]⟩
      cacheSpec := ⟨5, 0, 1, 1⟩ }
    let reply : TaskReply := ⟨1, 3, 0, .failed (some 9) "boom"⟩
    (∃ text, JobBundle.decode (JobBundle.encodeParts 7 1 inputs ++ [0]) = .error (.distribution text)) ∧
      ∃ text, TaskReply.decode ((reply.encode.set 14 255).set 17 255) = .error (.distribution text) := by
  intro inputs reply
  obtain ⟨bundles, replies⟩ := decode_corrupted_messages
  have bundleFits : (Wire.encode (JobBundle.mk 7 1 inputs)).length < UInt64.size := by decide +kernel
  have replyFits : (Wire.encode reply).length < UInt64.size := by decide +kernel
  have burst : Corrupted reply.encode ((reply.encode.set 14 255).set 17 255) := by
    refine .burst 14 (by simp) (by decide +kernel) fun i differs => ?_
    by_contra outside
    apply differs
    rw [List.getElem?_set_ne (by omega), List.getElem?_set_ne (by omega)]
  exact ⟨bundles 7 1 inputs _ bundleFits (.inl (.extended (by simp) (List.prefix_append ..))),
    replies reply _ replyFits burst⟩

end Accessibility.Frame
