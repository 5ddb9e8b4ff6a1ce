import Accessibility.Wire.Checksum
import Accessibility.Wire.Message

/-! Frames around messages, little-endian throughout. A header of sixteen bytes holds
a magic number, the version, the kind of the message, a reserved byte and the length
of the body; the body is the message; a footer of sixteen bytes holds the checksum
of the body and that of header and body together. Nothing of a frame is trusted
before its checksums agree. -/
namespace Accessibility

/-- What a frame carries. -/
inductive FrameKind where
  | jobBundle
  | taskReply
  deriving DecidableEq, Repr

namespace Frame

def magic : UInt32 := 0x41434346
def version : Nat := 1
def headerSize : Nat := 16
def footerSize : Nat := 16

def kindCode : FrameKind → UInt8
  | .jobBundle => 0
  | .taskReply => 1

def kindName : FrameKind → String
  | .jobBundle => "JobBundle"
  | .taskReply => "TaskReply"

/-- Why bytes are no frame of the kind expected. -/
inductive Refusal where
  | truncated (kind : FrameKind) (size : Nat)
  | badMagic (found : Nat)
  | badVersion (found : Nat)
  | otherKind (kind : FrameKind) (found : UInt8)
  | wrongSize (kind : FrameKind) (body size : Nat)
  | badChecksum (kind : FrameKind)
  /-- The body is no message. The codec's own description, which follows in the message of the fault,
  is left out. -/
  | badBody (kind : FrameKind)
  deriving DecidableEq, Repr

/-- Eight hexadecimal digits. -/
def hexWord (n : Nat) : String :=
  let digits := Nat.toDigits 16 n
  String.ofList (List.replicate (8 - digits.length) '0' ++ digits)

def Refusal.fault : Refusal → Fault
  | truncated kind size => .distribution s!"{kindName kind} frame truncated: {size} bytes"
  | badMagic found =>
    .distribution s!"invalid frame magic: expected 0x{hexWord magic.toNat}, got 0x{hexWord found}"
  | badVersion found => .distribution s!"unsupported frame version {found}"
  | otherKind kind found => .distribution s!"expected {kindName kind} frame, got kind {found}"
  | wrongSize kind body size =>
    .distribution s!"{kindName kind} frame size mismatch: header says {body} body bytes, frame has {size}"
  | badChecksum kind => .distribution s!"{kindName kind} frame checksum mismatch"
  | badBody kind => .distribution s!"failed to decode {kindName kind}"

/-- The header of a frame with a body of the given length. -/
def header (kind : FrameKind) (bodySize : Nat) : List UInt8 :=
  Wire.littleEndian 4 magic.toNat ++ Wire.littleEndian 2 version
    ++ [kindCode kind, 0] ++ Wire.littleEndian 8 bodySize

/-- The frame around a body. -/
def wrap (kind : FrameKind) (body : List UInt8) : List UInt8 :=
  let framed := header kind body.length ++ body
  framed ++ Wire.littleEndian 8 (Checksum.of body).toNat
    ++ Wire.littleEndian 8 (Checksum.of framed).toNat

/-- The number in the `width` bytes from position `start` on. -/
def field (bytes : List UInt8) (start width : Nat) : Nat :=
  ((bytes.drop start).take width).foldr (fun b n => b.toNat + 256 * n) 0

/-- The body of a frame that is whole, of the kind expected, and agrees with its
checksums. The reserved byte is not looked at. -/
def openBody (kind : FrameKind) (bytes : List UInt8) : Except Refusal (List UInt8) :=
  if bytes.length < headerSize + footerSize then .error (.truncated kind bytes.length)
  else if field bytes 0 4 ≠ magic.toNat then .error (.badMagic (field bytes 0 4))
  else if field bytes 4 2 ≠ version then .error (.badVersion (field bytes 4 2))
  else if field bytes 6 1 ≠ (kindCode kind).toNat then
    .error (.otherKind kind (field bytes 6 1).toUInt8)
  else
    let bodySize := field bytes 8 8
    let available := bytes.length - headerSize - footerSize
    if bodySize ≠ available then .error (.wrongSize kind bodySize bytes.length)
    else
      let framed := bytes.take (headerSize + available)
      let body := framed.drop headerSize
      let footer := headerSize + available
      if (Checksum.of body).toNat ≠ field bytes footer 8
          || (Checksum.of framed).toNat ≠ field bytes (footer + 8) 8 then
        .error (.badChecksum kind)
      else .ok body

/-- The message in a frame. Bytes behind the message in the body are passed over. -/
def decode {α : Type} [Wire α] (kind : FrameKind) (bytes : List UInt8) : Except Refusal α := do
  let body ← openBody kind bytes
  match Wire.decode body with
  | some (message, _) => .ok message
  | none => .error (.badBody kind)

end Frame

namespace JobBundle

/-- The frame of a bundle. -/
def encode (bundle : JobBundle) : List UInt8 := Frame.wrap .jobBundle (Wire.encode bundle)

/-- The frame of a job's parts, the inputs taken as they are. -/
def encodeParts (jobId alternatives : UInt64) (inputs : JobInputs) : List UInt8 :=
  Frame.wrap .jobBundle (Wire.encode jobId ++ Wire.encode alternatives ++ Wire.encode inputs)

/-- The bundle in a frame. -/
def decode (bytes : List UInt8) : Outcome JobBundle :=
  match Frame.decode .jobBundle bytes with
  | .ok bundle => .ok bundle
  | .error refusal => .error refusal.fault

end JobBundle

namespace TaskReply

/-- The frame of a reply. -/
def encode (reply : TaskReply) : List UInt8 := Frame.wrap .taskReply (Wire.encode reply)

/-- The reply in a frame. -/
def decode (bytes : List UInt8) : Outcome TaskReply :=
  match Frame.decode .taskReply bytes with
  | .ok reply => .ok reply
  | .error refusal => .error refusal.fault

end TaskReply

end Accessibility
