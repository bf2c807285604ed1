/-!
# Where a byte string stops being UTF-8

`firstFault b` is the first place at which `b` is no UTF-8 text: the index of the sequence that
fails and, unless the text merely ends inside it, how many of its bytes can be skipped. A
sequence fails as soon as one byte cannot continue it.
-/

namespace Screencast.Utf8

/-- The sequence at `index` fails after `length` bytes, or is cut off by the end. -/
structure Fault where
  index : Nat
  length : Option Nat
  deriving DecidableEq, Inhabited, Repr

def Fault.message (f : Fault) : String :=
  match f.length with
  | some n => s!"invalid utf-8 sequence of {n} bytes from index {f.index}"
  | none => s!"incomplete utf-8 byte sequence from index {f.index}"

/-- Lengths of the sequences that begin with this byte, with the range of their second byte. -/
def opening (b : UInt8) : Option (Nat × UInt8 × UInt8) :=
  if b < 0x80 then some (1, 0, 0)
  else if b < 0xC2 then none
  else if b < 0xE0 then some (2, 0x80, 0xBF)
  else if b = 0xE0 then some (3, 0xA0, 0xBF)
  else if b = 0xED then some (3, 0x80, 0x9F)
  else if b < 0xF0 then some (3, 0x80, 0xBF)
  else if b = 0xF0 then some (4, 0x90, 0xBF)
  else if b < 0xF4 then some (4, 0x80, 0xBF)
  else if b = 0xF4 then some (4, 0x80, 0x8F)
  else none

/-- What the sequence at `index` comes to: its length, or its fault. -/
def sequence (b : ByteArray) (index : Nat) (h : index < b.size) : Except Fault Nat :=
  match opening b[index] with
  | none => .error ⟨index, some 1⟩
  | some (length, low, high) => follow (length - 1) 1 low high length
where
  /-- Bytes `offset` onwards of the sequence, `todo` of them still to come. -/
  follow (todo offset : Nat) (low high : UInt8) (length : Nat) : Except Fault Nat :=
    match todo with
    | 0 => .ok length
    | todo + 1 =>
      if h : index + offset < b.size then
        if low ≤ b[index + offset] ∧ b[index + offset] ≤ high then follow todo (offset + 1) 0x80 0xBF length
        else .error ⟨index, some offset⟩
      else .error ⟨index, none⟩

/-- The first fault at or after `index`; `fuel` bounds the number of sequences. -/
def scan (b : ByteArray) : (fuel index : Nat) → Option Fault
  | 0, _ => none
  | fuel + 1, index =>
    if h : index < b.size then
      match sequence b index h with
      | .error f => some f
      | .ok length => scan b fuel (index + length)
    else none

/-- The first fault of a byte string, `none` for UTF-8 text. -/
def firstFault (b : ByteArray) : Option Fault := scan b b.size 0

end Screencast.Utf8
