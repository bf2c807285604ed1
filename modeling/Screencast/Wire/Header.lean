import Screencast.Bytes.LittleEndian
import Screencast.Error
import Screencast.Wire.Checksum

/-!
# Message headers

Twenty-four bytes in front of every body, numbers little-endian:

    0      4      6      8        12                 20         24
    | DKC1 | kind | flags| length | checksum         | reserved |

A header is accepted if it begins with the magic bytes and names a known kind; of the flags
only `keyframe` is kept, and the reserved bytes are not looked at.
-/

namespace Screencast

inductive MessageKind where
  | region
  | metrics
  | displays
  | selectDisplay
  | requestKeyframe
  | heartbeat
  deriving DecidableEq, Inhabited

namespace MessageKind

def code : MessageKind → UInt16
  | region => 1
  | metrics => 2
  | displays => 3
  | selectDisplay => 4
  | requestKeyframe => 5
  | heartbeat => 6

def ofCode (n : UInt16) : Except StreamError MessageKind :=
  match n with
  | 1 => .ok region
  | 2 => .ok metrics
  | 3 => .ok displays
  | 4 => .ok selectDisplay
  | 5 => .ok requestKeyframe
  | 6 => .ok heartbeat
  | n => .error (.unknownVariant "MessageKind" n.toNat)

def name : MessageKind → String
  | region => "Region"
  | metrics => "Metrics"
  | displays => "Displays"
  | selectDisplay => "SelectDisplay"
  | requestKeyframe => "RequestKeyframe"
  | heartbeat => "Heartbeat"

theorem ofCode_code (k : MessageKind) : ofCode k.code = .ok k := by cases k <;> rfl

end MessageKind

structure Header where
  kind : MessageKind
  flags : UInt16
  length : UInt32
  checksum : UInt64
  deriving DecidableEq, Inhabited

namespace Header

def size : Nat := 24

def magic : ByteArray := ⟨#[0x44, 0x4B, 0x43, 0x31]⟩

/-- The flag of a full-frame region, the only one known. -/
def keyframe : UInt16 := 1

/-- The header of a body, if its length fits. -/
def ofBody (kind : MessageKind) (flags : UInt16) (body : ByteArray) : Except StreamError Header :=
  if body.size < 2 ^ 32 then .ok ⟨kind, flags, UInt32.ofNat body.size, Checksum.ofBytes body⟩
  else .error (.payloadTooLarge body.size (2 ^ 32 - 1))

def toBytes (h : Header) : ByteArray :=
  magic ++ LittleEndian.encode 2 h.kind.code.toNat ++ LittleEndian.encode 2 h.flags.toNat ++
    LittleEndian.encode 4 h.length.toNat ++ LittleEndian.encode 8 h.checksum.toNat ++ LittleEndian.encode 4 0

/-- The number in bytes `start` to `stop - 1`. -/
def field (b : ByteArray) (start stop : Nat) : Nat := LittleEndian.decode (b.extract start stop)

/-- The header that the first twenty-four bytes hold. -/
def ofBytes (b : ByteArray) : Except StreamError Header :=
  if b.extract 0 4 ≠ magic then .error .invalidMagic
  else
    match MessageKind.ofCode (UInt16.ofNat (field b 4 6)) with
    | .error e => .error e
    | .ok kind =>
      .ok ⟨kind, UInt16.ofNat (field b 6 8) &&& keyframe, UInt32.ofNat (field b 8 12),
        UInt64.ofNat (field b 12 20)⟩

/-- The body has the checksum that the header gives. -/
def verify (h : Header) (body : ByteArray) : Except StreamError Unit :=
  if Checksum.ofBytes body = h.checksum then .ok () else .error .checksumMismatch

theorem size_toBytes (h : Header) : h.toBytes.size = size := by
  have hm : magic.size = 4 := rfl
  simp only [toBytes, ByteArray.size_append, LittleEndian.size_encode, hm, size]

end Header
end Screencast
