import Accessibility.Proofs.Wire.Frame
import Accessibility.Proofs.Wire.Strict

/-! What the decoders accept. Of a frame everything is checked but its reserved byte, and a body
may go on behind its message; all else is as the writer of the message would have written it
(`Frame.decode_eq_ok_iff`). So a message has frames besides its own, and each of them carries
the right checksums. -/
namespace Accessibility

namespace Frame

variable {kind : FrameKind} {bytes body : List UInt8}

/-- Bytes are the number that stands in them, written out. -/
theorem littleEndian_foldr (bytes : List UInt8) :
    Wire.littleEndian bytes.length (bytes.foldr (fun b n => b.toNat + 256 * n) 0) = bytes := by
  induction bytes with
  | nil => rfl
  | cons byte rest ih =>
    have bound := byte.toNat_lt
    rw [List.length_cons, List.foldr_cons, Wire.littleEndian]
    generalize rest.foldr (fun b n => b.toNat + 256 * n) 0 = above at ih ⊢
    rw [show (byte.toNat + 256 * above) % 256 = byte.toNat by omega,
      show (byte.toNat + 256 * above) / 256 = above by omega, ih]
    simp

/-- Bytes from a position on are the field that stands there, and the bytes behind it. -/
theorem drop_eq_field (bytes : List UInt8) (start width : Nat) (inside : start + width ≤ bytes.length) :
    bytes.drop start = Wire.littleEndian width (field bytes start width) ++ bytes.drop (start + width) := by
  have long : ((bytes.drop start).take width).length = width := by
    rw [List.length_take, List.length_drop]
    omega
  have written := littleEndian_foldr ((bytes.drop start).take width)
  rw [long] at written
  rw [field, written, ← List.drop_drop, List.take_append_drop]

theorem field_lt (bytes : List UInt8) (start width : Nat) : field bytes start width < 256 ^ width := by
  have bound : ∀ items : List UInt8, items.foldr (fun b n => b.toNat + 256 * n) 0 < 256 ^ items.length := by
    intro items
    induction items with
    | nil => decide
    | cons byte rest ih =>
      have low := byte.toNat_lt
      rw [List.foldr_cons, List.length_cons, Nat.pow_succ]
      omega
  refine Nat.lt_of_lt_of_le (bound _) (Nat.pow_le_pow_right (by decide) ?_)
  exact List.length_take_le ..

/-- What was found in bytes that open. -/
structure Opens (kind : FrameKind) (bytes body : List UInt8) : Prop where
  long : bytes.length = headerSize + body.length + footerSize
  between : body = (bytes.take (headerSize + body.length)).drop headerSize
  magical : field bytes 0 4 = magic.toNat
  current : field bytes 4 2 = version
  own : field bytes 6 1 = (kindCode kind).toNat
  stated : field bytes 8 8 = body.length
  bodyChecked : field bytes (headerSize + body.length) 8 = (Checksum.of body).toNat
  frameChecked : field bytes (headerSize + body.length + 8) 8 =
    (Checksum.of (bytes.take (headerSize + body.length))).toNat

theorem opens_of_openBody (opened : openBody kind bytes = .ok body) : Opens kind bytes body := by
  unfold openBody at opened
  split at opened
  · cases opened
  next whole =>
  split at opened
  · cases opened
  next magical =>
  split at opened
  · cases opened
  next current =>
  split at opened
  · cases opened
  next own =>
  simp only at opened
  split at opened
  · cases opened
  next stated =>
  split at opened
  · cases opened
  next checked =>
  have size : body.length = bytes.length - headerSize - footerSize := by
    rw [← Except.ok.inj opened]
    simp only [List.length_drop, List.length_take]
    omega
  simp only [ne_eq, Bool.or_eq_true, decide_eq_true_eq, not_or, Decidable.not_not] at magical current own stated checked
  rw [← size] at stated checked opened
  have between := (Except.ok.inj opened).symm
  rw [← between] at checked
  exact ⟨by omega, between, magical, current, own, stated, checked.1.symm, checked.2.symm⟩

theorem Opens.eq_around (opens : Opens kind bytes body) : ∃ reserved, bytes = around kind reserved body := by
  obtain ⟨reserved, any⟩ : ∃ reserved, Wire.littleEndian 1 (field bytes 7 1) = [reserved] := ⟨_, rfl⟩
  have code : Wire.littleEndian 1 (kindCode kind).toNat = [kindCode kind] := by
    cases kind <;> rfl
  have long : bytes.length = 16 + body.length + 16 := opens.long
  have header : bytes = headerOf kind reserved body.length ++ bytes.drop headerSize := by
    calc bytes = Wire.littleEndian 4 (field bytes 0 4) ++ (Wire.littleEndian 2 (field bytes 4 2) ++
          (Wire.littleEndian 1 (field bytes 6 1) ++ (Wire.littleEndian 1 (field bytes 7 1) ++
            (Wire.littleEndian 8 (field bytes 8 8) ++ bytes.drop 16)))) := by
          rw [← drop_eq_field bytes 8 8 (by omega), ← drop_eq_field bytes 7 1 (by omega),
            ← drop_eq_field bytes 6 1 (by omega), ← drop_eq_field bytes 4 2 (by omega),
            ← drop_eq_field bytes 0 4 (by omega), List.drop_zero]
      _ = headerOf kind reserved body.length ++ bytes.drop headerSize := by
          rw [opens.magical, opens.current, opens.own, any, opens.stated, code]
          simp [headerOf, headerSize]
  have front : bytes.take headerSize = headerOf kind reserved body.length := by
    rw [header]
    exact List.take_left' (length_headerOf ..)
  have framed : bytes.take (headerSize + body.length) = headerOf kind reserved body.length ++ body := by
    rw [← List.take_append_drop headerSize (bytes.take (headerSize + body.length)), ← opens.between,
      List.take_take, Nat.min_eq_left (Nat.le_add_right ..), front]
  have footer : bytes.drop (headerSize + body.length) = Wire.littleEndian 8 (Checksum.of body).toNat ++
      Wire.littleEndian 8 (Checksum.of (headerOf kind reserved body.length ++ body)).toNat := by
    rw [drop_eq_field bytes _ 8 (by simp only [headerSize]; omega),
      drop_eq_field bytes _ 8 (by simp only [headerSize]; omega), opens.bodyChecked, opens.frameChecked, framed,
      List.drop_eq_nil_of_le (by simp only [headerSize]; omega), List.append_nil]
  refine ⟨reserved, ?_⟩
  rw [around, List.append_assoc, ← footer, ← framed, List.take_append_drop]

/-- Bytes open to a body exactly if they are its frame, with any reserved byte. -/
theorem openBody_eq_ok_iff :
    openBody kind bytes = .ok body ↔
      body.length < UInt64.size ∧ ∃ reserved, bytes = around kind reserved body := by
  constructor
  · intro opened
    have opens := opens_of_openBody opened
    refine ⟨?_, opens.eq_around⟩
    rw [← opens.stated]
    exact field_lt bytes 8 8
  · rintro ⟨small, reserved, rfl⟩
    exact openBody_around kind reserved small

variable {α : Type} [Wire α] [Wire.Lawful α] [Wire.Strict α]

/-- A message is read from the frames of which the body begins with it, whatever follows it
there and whatever the reserved byte, and from nothing else. -/
theorem decode_eq_ok_iff {message : α} :
    decode kind bytes = .ok message ↔
      ∃ reserved rest, (Wire.encode message ++ rest).length < UInt64.size ∧
        bytes = around kind reserved (Wire.encode message ++ rest) := by
  unfold decode
  constructor
  · intro read
    cases opened : openBody kind bytes with
    | error refusal => simp [opened, bind, Except.bind] at read
    | ok body =>
      simp only [opened, bind, Except.bind] at read
      split at read
      next found rest came =>
        cases read
        cases Wire.Strict.eq_encode came
        obtain ⟨small, reserved, same⟩ := openBody_eq_ok_iff.mp opened
        exact ⟨reserved, rest, small, same⟩
      next => cases read
  · rintro ⟨reserved, rest, small, rfl⟩
    have fits : (Wire.encode message).length < UInt64.size := by
      rw [List.length_append] at small
      omega
    simp only [openBody_around kind reserved small, bind, Except.bind,
      Wire.Lawful.decode_encode message rest fits]

/-- Among the frames that a message is read from, its own is the one with a zero reserved byte
and nothing behind the message. -/
theorem around_eq_wrap_iff {reserved : UInt8} {rest : List UInt8} :
    around kind reserved (body ++ rest) = wrap kind body ↔ reserved = 0 ∧ rest = [] := by
  constructor
  · intro same
    have long := congrArg List.length same
    rw [wrap_eq_around, length_around, length_around, List.length_append] at long
    obtain rfl := List.length_eq_zero_iff.mp (show rest.length = 0 by omega)
    rw [List.append_nil, wrap_eq_around] at same
    have framed := take_framed kind reserved body
    rw [same, take_framed, List.append_cancel_right_eq] at framed
    simp only [headerOf, List.append_cancel_right_eq, List.append_cancel_left_eq] at framed
    cases framed
    exact ⟨rfl, rfl⟩
  · rintro ⟨rfl, rfl⟩
    rw [List.append_nil, wrap_eq_around]

/-- Bytes that a message of the given kind is read from, and whether they are its own frame. -/
theorem decode_eq_ok_iff_own {message : α} :
    decode kind bytes = .ok message ↔
      ∃ reserved rest, (Wire.encode message ++ rest).length < UInt64.size ∧
        bytes = around kind reserved (Wire.encode message ++ rest) ∧
        (bytes = wrap kind (Wire.encode message) ↔ reserved = 0 ∧ rest = []) := by
  rw [decode_eq_ok_iff]
  constructor
  · rintro ⟨reserved, rest, small, rfl⟩
    exact ⟨reserved, rest, small, rfl, around_eq_wrap_iff⟩
  · rintro ⟨reserved, rest, small, same, _⟩
    exact ⟨reserved, rest, small, same⟩

end Frame

/-- The decoders accept a message's own frame, and with it those that have another reserved
byte or further bytes behind the message in the body. -/
theorem Frame.decoders_accept (bytes : List UInt8) :
    (∀ bundle : JobBundle, JobBundle.decode bytes = .ok bundle ↔
      ∃ reserved rest, (Wire.encode bundle ++ rest).length < UInt64.size ∧
        bytes = around .jobBundle reserved (Wire.encode bundle ++ rest) ∧
        (bytes = bundle.encode ↔ reserved = 0 ∧ rest = [])) ∧
    ∀ reply : TaskReply, TaskReply.decode bytes = .ok reply ↔
      ∃ reserved rest, (Wire.encode reply ++ rest).length < UInt64.size ∧
        bytes = around .taskReply reserved (Wire.encode reply ++ rest) ∧
        (bytes = reply.encode ↔ reserved = 0 ∧ rest = []) := by
  constructor
  · intro bundle
    rw [JobBundle.encode, ← decode_eq_ok_iff_own, JobBundle.decode]
    cases decode (α := JobBundle) .jobBundle bytes <;> simp
  · intro reply
    rw [TaskReply.encode, ← decode_eq_ok_iff_own, TaskReply.decode]
    cases decode (α := TaskReply) .taskReply bytes <;> simp

/-- A reply is read from two frames that are not its own: one with a reserved byte that is not
zero, one with a byte behind the reply. -/
theorem TaskReply.decode_foreign_frames :
    let reply : TaskReply := ⟨1, 3, 0, .failed (some 9) "boom"⟩
    let marked := Frame.around .taskReply 1 (Wire.encode reply)
    let longer := Frame.around .taskReply 0 (Wire.encode reply ++ [0])
    (decode marked = .ok reply ∧ marked ≠ reply.encode) ∧ decode longer = .ok reply ∧ longer ≠ reply.encode := by
  decide +kernel

end Accessibility
