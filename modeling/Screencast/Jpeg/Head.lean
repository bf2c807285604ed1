import Screencast.Bytes.Cursor
import Screencast.Bytes.LittleEndian
import Screencast.Jpeg.Tables

/-!
# The head of an image file

What stands in front of the coded blocks: segments in a fixed order, which say that the image is
baseline JPEG in three components of full resolution with the sample code tables. From image to
image only the size and the two quantisation tables differ. `Head.toBytes` writes a head and
`Head.read` reads it back.
-/

namespace Screencast.Jpeg

/-- The longest side; it is written in sixteen bits. -/
def longestSide : Nat := 65535

/-- The size of an image and its quantisation tables, row after row. -/
structure Head where
  width : Nat
  height : Nat
  luminance : Array Nat
  chrominance : Array Nat
  deriving DecidableEq, Inhabited

/-- The head of an image of this size at a quality. -/
def Head.atQuality (width height quality : Nat) : Head :=
  ⟨width, height, Jpeg.atQuality Jpeg.luminance quality, Jpeg.atQuality Jpeg.chrominance quality⟩

/-- No side is zero or too long and no quantisation step is zero. -/
def Head.isSound (h : Head) : Bool :=
  0 < h.width && h.width ≤ longestSide && 0 < h.height && h.height ≤ longestSide &&
    h.luminance.all (· ≠ 0) && h.chrominance.all (· ≠ 0)

/-! ### Writing -/

/-- A number in `w` bytes, the most significant first. -/
def bigEndian (w n : Nat) : ByteArray := (LittleEndian.digits w n).reverse.toByteArray

def bytesOf (l : List Nat) : ByteArray := (l.map UInt8.ofNat).toByteArray

def marker (n : Nat) : ByteArray := bigEndian 2 (0xFF00 + n)

def startOfImage : ByteArray := marker 0xD8

def endOfImage : ByteArray := marker 0xD9

/-- The marker and the length of a segment whose body has this size. -/
def opening (n size : Nat) : ByteArray := marker n ++ bigEndian 2 (size + 2)

def segment (n : Nat) (body : ByteArray) : ByteArray := opening n body.size ++ body

/-- A table of codes by its number. -/
def codeTable (number : Nat) (t : CodeTable) : ByteArray :=
  segment 0xC4 (bytesOf (number :: t.counts.toList ++ t.symbols.toList))

/-- Up to the size: the start, the file's own segment, and the depth of a sample. -/
def beforeSize : ByteArray :=
  startOfImage ++ segment 0xE0 (bytesOf [0x4A, 0x46, 0x49, 0x46, 0, 1, 2, 0, 0, 1, 0, 1, 0, 0]) ++
    opening 0xC0 15 ++ bytesOf [8]

/-- Behind the size: the components and the code tables. -/
def behindSize : ByteArray :=
  bytesOf [3, 1, 0x11, 0, 2, 0x11, 1, 3, 0x11, 1] ++ codeTable 0x00 luminanceDC ++ codeTable 0x10 luminanceAC ++
    codeTable 0x01 chrominanceDC ++ codeTable 0x11 chrominanceAC

/-- In front of the quantisation table of this number. -/
def beforeTable (number : Nat) : ByteArray := opening 0xDB 65 ++ bytesOf [number]

def tableBytes (table : Array Nat) : ByteArray := bytesOf (zigzag.toList.map fun p => table.getD p 0)

/-- Behind the tables: the code tables of the components. -/
def scanSegment : ByteArray := segment 0xDA (bytesOf [3, 1, 0x00, 2, 0x11, 3, 0x11, 0, 63, 0])

def Head.toBytes (h : Head) : ByteArray :=
  beforeSize ++ bigEndian 2 h.height ++ bigEndian 2 h.width ++ behindSize ++
    beforeTable 0 ++ tableBytes h.luminance ++ beforeTable 1 ++ tableBytes h.chrominance ++ scanSegment

/-! ### Reading -/

def expect (b : ByteArray) (c : Cursor) : Option Cursor :=
  match c.take b.size with
  | none => none
  | some (read, c) => if read = b then some c else none

/-- A number in two bytes, the most significant first. -/
def readSide (c : Cursor) : Option (Nat × Cursor) :=
  (c.take 2).map fun r => (LittleEndian.value r.1.data.toList.reverse, r.2)

/-- A quantisation table that is written in zigzag order. -/
def readTable (c : Cursor) : Option (Array Nat × Cursor) :=
  (c.take 64).map fun r =>
    ((zigzag.toList.zip r.1.data.toList).foldl (fun acc e => acc.setIfInBounds e.1 e.2.toNat) (Array.replicate 64 0),
      r.2)

/-- The head at a cursor and the cursor behind it. -/
def Head.read (c : Cursor) : Option (Head × Cursor) := do
  let c ← expect beforeSize c
  let (height, c) ← readSide c
  let (width, c) ← readSide c
  let c ← expect (behindSize ++ beforeTable 0) c
  let (luminance, c) ← readTable c
  let c ← expect (beforeTable 1) c
  let (chrominance, c) ← readTable c
  let c ← expect scanSegment c
  return (⟨width, height, luminance, chrominance⟩, c)

end Screencast.Jpeg
