import Accessibility.Proofs.Wire.Codec
import Accessibility.Wire.Frame

/-! Round trip of frames. A frame opens to its body as long as the length of the body
fits its header; a longer one is refused for its size, since the header then states
another length. So whatever a node's frame is read as is what the node wrote
(`eq_of_decode_encode`). -/
namespace Accessibility

namespace Frame

theorem foldr_littleEndian (width n : Nat) :
    (Wire.littleEndian width n).foldr (fun b n => b.toNat + 256 * n) 0 = n % 256 ^ width := by
  induction width generalizing n with
  | zero => simp [Wire.littleEndian, Nat.mod_one]
  | succ width ih => simp [Wire.littleEndian, ih, Wire.mod_pow_succ]

/-- The field that starts behind some bytes. -/
theorem field_behind (front rest : List UInt8) (width n : Nat) :
    field (front ++ (Wire.littleEndian width n ++ rest)) front.length width = n % 256 ^ width := by
  have taken : ((front ++ (Wire.littleEndian width n ++ rest)).drop front.length).take width =
      Wire.littleEndian width n := by
    rw [List.drop_left]
    exact List.take_left' (Wire.length_littleEndian width n)
  rw [field, taken, foldr_littleEndian]

/-- The byte that stands behind some bytes. -/
theorem field_byte (front rest : List UInt8) (byte : UInt8) :
    field (front ++ byte :: rest) front.length 1 = byte.toNat := by
  simp [field]

/-- The header of a frame, with any reserved byte. -/
def headerOf (kind : FrameKind) (reserved : UInt8) (bodySize : Nat) : List UInt8 :=
  Wire.littleEndian 4 magic.toNat ++ Wire.littleEndian 2 version
    ++ [kindCode kind, reserved] ++ Wire.littleEndian 8 bodySize

/-- The frame around a body, with any reserved byte. A writer leaves that byte zero. -/
def around (kind : FrameKind) (reserved : UInt8) (body : List UInt8) : List UInt8 :=
  let framed := headerOf kind reserved body.length ++ body
  framed ++ Wire.littleEndian 8 (Checksum.of body).toNat
    ++ Wire.littleEndian 8 (Checksum.of framed).toNat

theorem wrap_eq_around (kind : FrameKind) (body : List UInt8) : wrap kind body = around kind 0 body := rfl

@[simp] theorem length_headerOf (kind : FrameKind) (reserved : UInt8) (bodySize : Nat) :
    (headerOf kind reserved bodySize).length = headerSize := by
  simp [headerOf, headerSize]

section Fields

variable (kind : FrameKind) (reserved : UInt8) (body : List UInt8)

theorem length_around : (around kind reserved body).length = headerSize + body.length + footerSize := by
  simp [around, footerSize, Nat.add_assoc]

/-- The frame as its fields stand one behind the other. -/
theorem around_eq : around kind reserved body =
    Wire.littleEndian 4 magic.toNat ++ (Wire.littleEndian 2 version ++
      (kindCode kind :: reserved :: (Wire.littleEndian 8 body.length ++ (body ++
        (Wire.littleEndian 8 (Checksum.of body).toNat ++
          Wire.littleEndian 8 (Checksum.of (headerOf kind reserved body.length ++ body)).toNat))))) := by
  simp [around, headerOf, List.append_assoc]

theorem field_magic : field (around kind reserved body) 0 4 = magic.toNat := by
  rw [around_eq]
  exact (field_behind [] _ 4 magic.toNat).trans (by decide)

theorem field_version : field (around kind reserved body) 4 2 = version := by
  rw [around_eq]
  exact field_behind (Wire.littleEndian 4 magic.toNat) _ 2 version

theorem field_kind : field (around kind reserved body) 6 1 = (kindCode kind).toNat := by
  rw [around_eq, ← List.append_assoc]
  exact field_byte (Wire.littleEndian 4 magic.toNat ++ Wire.littleEndian 2 version) _ _

theorem field_bodySize : field (around kind reserved body) 8 8 = body.length % UInt64.size := by
  have front := field_behind
    (Wire.littleEndian 4 magic.toNat ++ Wire.littleEndian 2 version ++ [kindCode kind, reserved])
    (body ++ (Wire.littleEndian 8 (Checksum.of body).toNat ++
      Wire.littleEndian 8 (Checksum.of (headerOf kind reserved body.length ++ body)).toNat)) 8 body.length
  simpa [around, headerOf, List.append_assoc] using front

theorem field_bodyChecksum :
    field (around kind reserved body) (headerSize + body.length) 8 = (Checksum.of body).toNat := by
  have place : (headerOf kind reserved body.length ++ body).length = headerSize + body.length := by simp
  have read := field_behind (headerOf kind reserved body.length ++ body)
    (Wire.littleEndian 8 (Checksum.of (headerOf kind reserved body.length ++ body)).toNat) 8
    (Checksum.of body).toNat
  have small : (Checksum.of body).toNat < 256 ^ 8 := (Checksum.of body).toNat_lt
  rw [place, Nat.mod_eq_of_lt small, ← List.append_assoc] at read
  exact read

theorem field_frameChecksum :
    field (around kind reserved body) (headerSize + body.length + 8) 8 =
      (Checksum.of (headerOf kind reserved body.length ++ body)).toNat := by
  have place : (headerOf kind reserved body.length ++ body ++
      Wire.littleEndian 8 (Checksum.of body).toNat).length = headerSize + body.length + 8 := by
    simp [Nat.add_assoc]
  have read := field_behind (headerOf kind reserved body.length ++ body ++
    Wire.littleEndian 8 (Checksum.of body).toNat) [] 8
    (Checksum.of (headerOf kind reserved body.length ++ body)).toNat
  have small : (Checksum.of (headerOf kind reserved body.length ++ body)).toNat < 256 ^ 8 :=
    (Checksum.of (headerOf kind reserved body.length ++ body)).toNat_lt
  rw [place, Nat.mod_eq_of_lt small, List.append_nil] at read
  exact read

theorem take_framed :
    (around kind reserved body).take (headerSize + body.length) =
      headerOf kind reserved body.length ++ body := by
  have place : (headerOf kind reserved body.length ++ body).length = headerSize + body.length := by simp
  rw [← place, around, List.append_assoc]
  exact List.take_left

theorem available_around :
    (around kind reserved body).length - headerSize - footerSize = body.length := by
  rw [length_around]
  omega

theorem whole_around : ¬ (around kind reserved body).length < headerSize + footerSize := by
  rw [length_around]
  omega

end Fields

/-- A frame opens to its body, whatever its reserved byte. -/
theorem openBody_around (kind : FrameKind) (reserved : UInt8) {body : List UInt8}
    (small : body.length < UInt64.size) : openBody kind (around kind reserved body) = .ok body := by
  have stated : field (around kind reserved body) 8 8 = body.length := by
    rw [field_bodySize, Nat.mod_eq_of_lt small]
  have inner : (headerOf kind reserved body.length ++ body).drop headerSize = body :=
    List.drop_left' (length_headerOf ..)
  simp only [openBody, whole_around, field_magic, field_version, field_kind, available_around, stated,
    take_framed, inner, field_bodyChecksum, field_frameChecksum, ne_eq, not_true_eq_false,
    ↓reduceIte, decide_false, Bool.or_self, Bool.false_eq_true]

/-- A frame whose body is too long for its header does not open; all that is told is the
lengths. -/
theorem openBody_wrap_large (kind : FrameKind) {body : List UInt8}
    (large : UInt64.size ≤ body.length) :
    openBody kind (wrap kind body) = .error (.wrongSize kind (body.length % UInt64.size)
      (headerSize + body.length + footerSize)) := by
  have other : body.length % UInt64.size ≠ body.length := by
    have := Nat.mod_lt body.length (show 0 < UInt64.size by decide)
    omega
  rw [← length_around kind 0 body]
  simp only [wrap_eq_around, openBody, whole_around, field_magic, field_version, field_kind,
    available_around, field_bodySize, other, ne_eq, not_true_eq_false, ↓reduceIte, not_false_eq_true]

theorem kindCode_inj {kind other : FrameKind} (same : (kindCode kind).toNat = (kindCode other).toNat) :
    kind = other := by
  cases kind <;> cases other <;> first | rfl | exact absurd same (by decide)

/-- A frame of one kind is refused where the other is expected. -/
theorem decode_wrap_other {α : Type} [Wire α] {kind expected : FrameKind} (different : kind ≠ expected)
    (body : List UInt8) :
    decode (α := α) expected (wrap kind body) = .error (.otherKind expected (kindCode kind)) := by
  have code : (kindCode kind).toNat ≠ (kindCode expected).toNat := mt kindCode_inj different
  have refused : openBody expected (wrap kind body) = .error (.otherKind expected (kindCode kind)) := by
    simp only [wrap_eq_around, openBody, whole_around, field_magic, field_version, field_kind, code,
      ne_eq, not_true_eq_false, ↓reduceIte, not_false_eq_true]
    simp
  rw [decode, refused]
  rfl

variable {α : Type} [Wire α] [Wire.Lawful α]

theorem decode_wrap (kind : FrameKind) {message : α}
    (small : (Wire.encode message).length < UInt64.size) :
    decode kind (wrap kind (Wire.encode message)) = .ok message := by
  have read := Wire.Lawful.decode_encode message [] small
  rw [List.append_nil] at read
  simp [decode, wrap_eq_around, openBody_around kind 0 small, bind, Except.bind, read]

/-- Nothing is read out of a message's frame but the message. -/
theorem eq_of_decode_wrap {kind : FrameKind} {message found : α}
    (read : decode kind (wrap kind (Wire.encode message)) = .ok found) : found = message := by
  by_cases small : (Wire.encode message).length < UInt64.size
  · rw [decode_wrap kind small] at read
    cases read
    rfl
  · simp [decode, openBody_wrap_large kind (Nat.not_lt.mp small), bind, Except.bind] at read

end Frame

theorem JobBundle.encodeParts_eq (jobId alternatives : UInt64) (inputs : JobInputs) :
    encodeParts jobId alternatives inputs = encode ⟨jobId, alternatives, inputs⟩ := by
  rw [encodeParts, List.append_assoc]
  rfl

theorem JobBundle.decode_encodeParts {inputs : JobInputs} (sendable : Wire.Sendable inputs)
    (jobId alternatives : UInt64) :
    decode (encodeParts jobId alternatives inputs) = .ok ⟨jobId, alternatives, inputs⟩ := by
  have fields : Wire.encode (JobBundle.mk jobId alternatives inputs) =
    Wire.encode jobId ++ (Wire.encode alternatives ++ Wire.encode inputs) := rfl
  have small : (Wire.encode (JobBundle.mk jobId alternatives inputs)).length < UInt64.size := by
    have bound : (Wire.encode inputs).length + 32 < UInt64.size := sendable
    rw [fields, List.length_append, List.length_append, Wire.length_encode_uint64,
      Wire.length_encode_uint64]
    omega
  rw [encodeParts_eq, decode, encode, Frame.decode_wrap .jobBundle small]

theorem TaskReply.decode_encode {reply : TaskReply} (sendable : Wire.Sendable reply.outcome) :
    decode reply.encode = .ok reply := by
  have fields : Wire.encode reply = Wire.encode reply.jobId ++ (Wire.encode reply.packetId ++
    (Wire.encode reply.node ++ Wire.encode reply.outcome)) := rfl
  have small : (Wire.encode reply).length < UInt64.size := by
    have bound : (Wire.encode reply.outcome).length + 32 < UInt64.size := sendable
    rw [fields, List.length_append, List.length_append, List.length_append,
      Wire.length_encode_uint64, Wire.length_encode_uint32, Wire.length_encode_uint64]
    omega
  rw [decode, encode, Frame.decode_wrap .taskReply small]

theorem JobBundle.eq_of_decode_encodeParts {jobId alternatives : UInt64} {inputs : JobInputs}
    {found : JobBundle} (read : decode (encodeParts jobId alternatives inputs) = .ok found) :
    found = ⟨jobId, alternatives, inputs⟩ := by
  rw [encodeParts_eq, decode, encode] at read
  split at read
  next bundle opened =>
    cases read
    exact Frame.eq_of_decode_wrap opened
  next => cases read

theorem TaskReply.eq_of_decode_encode {reply found : TaskReply}
    (read : decode reply.encode = .ok found) : found = reply := by
  unfold decode encode at read
  cases opened : Frame.decode (α := TaskReply) .taskReply (Frame.wrap .taskReply (Wire.encode reply)) with
  | error refusal => simp [opened] at read
  | ok message =>
    rw [opened] at read
    cases read
    exact Frame.eq_of_decode_wrap opened

/-- Every message comes out of its frame as it went in, down to the last bit of its numbers,
whether a bundle is framed as a whole or from its parts; and no frame is read as one of the
other kind. A message that can be held in memory is short enough for the length in front. -/
theorem Frame.decode_messages :
    (∀ (jobId alternatives : UInt64) (inputs : JobInputs),
      JobBundle.encodeParts jobId alternatives inputs = JobBundle.encode ⟨jobId, alternatives, inputs⟩ ∧
      ((Wire.encode (JobBundle.mk jobId alternatives inputs)).length < UInt64.size →
        JobBundle.decode (JobBundle.encodeParts jobId alternatives inputs) =
          .ok ⟨jobId, alternatives, inputs⟩) ∧
      TaskReply.decode (JobBundle.encodeParts jobId alternatives inputs) =
        .error (.distribution "expected TaskReply frame, got kind 0")) ∧
    ∀ reply : TaskReply,
      ((Wire.encode reply).length < UInt64.size → TaskReply.decode reply.encode = .ok reply) ∧
      JobBundle.decode reply.encode = .error (.distribution "expected JobBundle frame, got kind 1") := by
  constructor
  · intro jobId alternatives inputs
    rw [JobBundle.encodeParts_eq]
    refine ⟨rfl, fun small => ?_, ?_⟩
    · rw [JobBundle.decode, JobBundle.encode, Frame.decode_wrap .jobBundle small]
    · have different : FrameKind.jobBundle ≠ .taskReply := by decide
      rw [TaskReply.decode, JobBundle.encode, Frame.decode_wrap_other different]
      rfl
  · intro reply
    refine ⟨fun small => ?_, ?_⟩
    · rw [TaskReply.decode, TaskReply.encode, Frame.decode_wrap .taskReply small]
    · have different : FrameKind.taskReply ≠ .jobBundle := by decide
      rw [JobBundle.decode, TaskReply.encode, Frame.decode_wrap_other different]
      rfl

/-- A zone with an attribute that is not a number, and a zone that failed for want of a
path. -/
theorem Frame.decode_messages_noPath :
    let inputs : JobInputs := {
      zones := ⟨["jobs"], #[⟨5, .one, .zero, ⟨0, 7⟩, [⟨0x7FF8000000000001⟩]⟩]⟩
      sizeTerms := ⟨["jobs"], 5, #[.one], #[true]⟩
      constants := ⟨["auto"], #[.zero]⟩
      cacheSpec := ⟨5, 0, 1, 1⟩ }
    JobBundle.decode (JobBundle.encodeParts 7 1 inputs) = .ok ⟨7, 1, inputs⟩ ∧
      TaskReply.decode (TaskReply.encode ⟨7, 3, 0, .failed (some 5) "no path to zone 5 – détour"⟩) =
        .ok ⟨7, 3, 0, .failed (some 5) "no path to zone 5 – détour"⟩ := by
  intro inputs
  obtain ⟨bundles, replies⟩ := Frame.decode_messages
  have bundleFits : (Wire.encode (JobBundle.mk 7 1 inputs)).length < UInt64.size := by decide +kernel
  have replyFits : (Wire.encode (TaskReply.mk 7 3 0 (.failed (some 5) "no path to zone 5 – détour"))).length <
      UInt64.size := by decide +kernel
  exact ⟨(bundles 7 1 inputs).2.1 bundleFits, (replies _).1 replyFits⟩

end Accessibility
