import Screencast.Zstd.Block
import Screencast.Zstd.Digest

/-!
# Zstandard frames

A frame is a header, blocks up to the one marked as the last, and perhaps a checksum. The header
says how much of the content a reader has to keep at hand (the window) and may say how long the
content is. `encode` writes a frame with the length in eight bytes, the content in short blocks, and an
empty block that ends it. `Frame.read` takes any frame apart that needs no dictionary; whether its
content is what the header says is decided when it is unpacked.
-/

namespace Screencast.Zstd

def magic : ByteArray := ⟨#[0x28, 0xB5, 0x2F, 0xFD]⟩

/-- What the header of a frame says of its content. -/
structure FrameHeader where
  window : Nat
  /-- Length of the content, if it is given. -/
  length : Option Nat
  hasChecksum : Bool
  deriving DecidableEq, Inhabited

def FrameHeader.largest (h : FrameHeader) : Nat := min h.window Block.limit

structure Frame where
  header : FrameHeader
  /-- The blocks; the last of them is the one marked so. -/
  blocks : List Block
  checksum : Option Nat
  deriving Inhabited

namespace Frame

def content (f : Frame) : ByteArray := f.blocks.foldl (fun acc b => acc ++ b.content) ByteArray.empty

def size (f : Frame) : Nat := (f.blocks.map Block.size).sum

end Frame

/-! ### Writing -/

/-- Size of the blocks written, the last excepted. -/
def blockSize : Nat := 128

def blocks (data : ByteArray) : List Block :=
  (List.range ((data.size + blockSize - 1) / blockSize)).map fun i =>
    Block.ofBytes (data.extract (i * blockSize) (i * blockSize + blockSize))

/-- The header of every frame written: the length in eight bytes and a window of one largest block. -/
def head (length : Nat) : ByteArray := magic ++ ⟨#[0xC0, 0x38]⟩ ++ LittleEndian.encode 8 length

def encode (data : ByteArray) : ByteArray :=
  (blocks data).foldl (fun acc b => acc ++ b.write false) (head data.size) ++
    (Block.stored ByteArray.empty).write true

/-! ### Reading -/

def readNumber (w : Nat) (c : Cursor) : Option (Nat × Cursor) :=
  (c.take w).map fun r => (LittleEndian.decode r.1, r.2)

def windowExponents : Nat := 31

/-- The window that a descriptor byte asks for: a power of two and some eighths of it. -/
def windowOf (n : Nat) : Option Nat :=
  let exponent := n / 8 + 10
  if windowExponents < exponent then none else some (2 ^ exponent + 2 ^ exponent / 8 * (n % 8))

/-- The content length of a frame, by the two bits that say how it is written. Eight bytes of ones
stand for a length that is not known. -/
def readLength (code : Nat) (isSingle : Bool) (c : Cursor) : Option (Option Nat × Cursor) :=
  match code with
  | 0 => if isSingle then (readNumber 1 c).map fun r => (some r.1, r.2) else some (none, c)
  | 1 => (readNumber 2 c).map fun r => (some (r.1 + 256), r.2)
  | 2 => (readNumber 4 c).map fun r => (some r.1, r.2)
  | _ => (readNumber 8 c).map fun r => (if r.1 = 2 ^ 64 - 1 then none else some r.1, r.2)

/-- The number of the dictionary, by the two bits that say how it is written. -/
def readDictionary (code : Nat) (c : Cursor) : Option (Nat × Cursor) :=
  match code with
  | 0 => some (0, c)
  | 1 => readNumber 1 c
  | 2 => readNumber 2 c
  | _ => readNumber 4 c

/-- The header behind the magic bytes. A frame in one segment has its whole content for a window. -/
def readHeader (c : Cursor) : Option (FrameHeader × Cursor) := do
  let (flags, c) ← readNumber 1 c
  let isSingle := flags / 32 % 2 = 1
  if flags / 8 % 2 = 1 then none
  let (window, c) ←
    if isSingle then some (none, c)
    else do
      let (n, c) ← readNumber 1 c
      pure (some (← windowOf n), c)
  let (dictionary, c) ← readDictionary (flags % 4) c
  if dictionary ≠ 0 then none
  let (length, c) ← readLength (flags / 64) isSingle c
  return (⟨window.getD (length.getD (2 ^ 64 - 1)), length, flags / 4 % 2 = 1⟩, c)

/-- The blocks up to the last, behind those read before, of which the latest comes first. -/
def readBlocks : (fuel : Nat) → Cursor → List Block → Option (List Block × Cursor)
  | 0, _, _ => none
  | fuel + 1, c, before =>
    match Block.read c with
    | none => none
    | some (true, b, c) => some ((b :: before).reverse, c)
    | some (false, b, c) => readBlocks fuel c (b :: before)

def Frame.read (c : Cursor) : Option (Frame × Cursor) := do
  let (header, c) ← readHeader c
  let (blocks, c) ← readBlocks c.bytes.size c []
  if header.hasChecksum then
    let (sum, c) ← readNumber 4 c
    return (⟨header, blocks, some sum⟩, c)
  else return (⟨header, blocks, none⟩, c)

end Screencast.Zstd
