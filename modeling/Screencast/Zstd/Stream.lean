import Screencast.Zstd.Frame

/-!
# Unpacking a stream of frames

A stream is one frame or more, with nothing left over; a skippable frame holds bytes of no content.
It is unpacked in bounded memory: the input comes in pieces of `pieceSize`, the output goes in
pieces of `atOnce`. A frame that lies in one piece of the input and says that its content fits one piece of the
output is unpacked as a whole, and then only the length and the checksum count. Any other frame passes
through two buffers, which bound its blocks, its window and, where its whole content has a place
in the buffer, its length. The buffers are kept for the frames that follow; both are made anew once one
is too small.
-/

namespace Screencast.Zstd

/-- A frame with content or a skippable one. -/
inductive Part where
  | frame (f : Frame)
  | skipped (size : Nat)
  deriving Inhabited

def Part.read (c : Cursor) : Option (Part × Cursor) := do
  let (head, c) ← c.take 4
  if head = magic then
    let (f, c) ← Frame.read c
    return (frame f, c)
  else if LittleEndian.decode head / 16 = 0x184D2A5 then
    let (size, c) ← readNumber 4 c
    let (_, c) ← c.take size
    return (skipped size, c)
  else none

/-! ### As a whole -/

/-- Size of the pieces of the input: the largest block with its head. -/
def pieceSize : Nat := Block.limit + 3

/-- Size of the pieces of the output. -/
def atOnce : Nat := 8192

/-- The frame at `first` to `last` can be unpacked as a whole. -/
def Frame.isAtOnce (f : Frame) (first last : Nat) : Bool :=
  f.header.length.any (· ≤ atOnce) && last ≤ (first / pieceSize + 1) * pieceSize

/-- The content is as long as the header says. -/
def Frame.keepsLength (f : Frame) : Bool := f.header.length.all (· = f.size)

/-! ### Through buffers -/

structure Buffers where
  input : Nat
  output : Nat
  deriving DecidableEq, Inhabited

def smallestWindow : Nat := 2 ^ 10

def largestWindow : Nat := 2 ^ 27 + 1

/-- The window that is kept for a frame. -/
def FrameHeader.kept (h : FrameHeader) : Nat := max h.window smallestWindow

/-- The buffers that a frame needs: a block or a checksum of input; of output the whole content, or else
the window, two blocks and a margin. -/
def FrameHeader.buffers (h : FrameHeader) : Buffers :=
  let output := h.kept + 2 * h.largest + 64
  ⟨max h.largest 4, (h.length.map (min output)).getD output⟩

/-- Both buffers are made anew if one is too small. -/
def Buffers.adapt (b needed : Buffers) : Buffers :=
  if b.input < needed.input ∨ b.output < needed.output then needed else b

/-- A block that passes: neither its body nor its content is too large, and a coded one is empty. -/
def Block.passes (largest : Nat) (b : Block) : Bool :=
  b.body.size ≤ largest && b.size ≤ largest && (!b.isCoded || b.isVoid)

/-- A content length that has a place in the buffer is a bound for the content. -/
def Frame.hasRoom (f : Frame) (room : Nat) : Bool := f.header.length.all fun n => room < n || f.size ≤ room

/-- The frame passes through an output buffer of this size. Its length is checked behind its last
block, unless that is void. -/
def Frame.passes (f : Frame) (room : Nat) : Bool :=
  f.header.kept ≤ largestWindow && f.blocks.all (Block.passes f.header.largest) && f.hasRoom room &&
    (f.blocks.getLast?.all Block.isVoid || f.keepsLength)

/-! ### The stream -/

/-- The content so far and the buffers in use. -/
structure Unpacking where
  content : ByteArray
  buffers : Buffers
  deriving Inhabited

def Unpacking.start : Unpacking := ⟨ByteArray.empty, ⟨0, 0⟩⟩

/-- The content of a frame behind what there is, if its checksum is right. -/
def Unpacking.add (u : Unpacking) (f : Frame) : Option Unpacking :=
  let content := f.content
  if f.checksum.all (· = Digest.checksum content) then some { u with content := u.content ++ content } else none

/-- One more frame, at `first` to `last`. -/
def Unpacking.step (u : Unpacking) (first last : Nat) : Part → Option Unpacking
  | .skipped size => some { u with buffers := u.buffers.adapt (FrameHeader.mk 0 (some size) false).buffers }
  | .frame f =>
    if f.isAtOnce first last then
      if f.keepsLength && f.blocks.all (!·.isCoded) then u.add f else none
    else
      let u := { u with buffers := u.buffers.adapt f.header.buffers }
      if f.passes u.buffers.output then u.add f else none

/-- The frames up to the end, at least one. -/
def Unpacking.run : (fuel : Nat) → Cursor → Unpacking → Option ByteArray
  | 0, _, _ => none
  | fuel + 1, c, u =>
    match Part.read c with
    | none => none
    | some (p, next) =>
      match u.step c.pos next.pos p with
      | none => none
      | some u => if next.pos = next.bytes.size then some u.content else run fuel next u

/-- The content of a stream of frames. -/
def decode (data : ByteArray) : Option ByteArray := Unpacking.run (data.size + 1) (Cursor.start data) .start

end Screencast.Zstd
