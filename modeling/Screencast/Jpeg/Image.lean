import Screencast.Bytes.Build
import Screencast.Jpeg.Coefficients
import Screencast.Jpeg.Head
import Screencast.Jpeg.Transform

/-!
# JPEG images

`encode` writes packed red, green, blue at a quality: the head, the blocks in rows from the top,
and the end mark. `decode` reads files of just that form, of any size and with any quantisation
tables, and refuses all else: another order of segments, other code tables, bits left over, a
missing end, bytes behind it.
-/

namespace Screencast.Jpeg

/-! ### Writing -/

/-- The samples of a block around zero, one array per component. Beyond the image its last column
and row go on. -/
def samples (rgb : ByteArray) (width height left top : Nat) : Array Int × Array Int × Array Int :=
  let colours := (Array.range 64).map fun i =>
    let x := min (left + i % 8) (width - 1)
    let y := min (top + i / 8) (height - 1)
    let p := (y * width + x) * 3
    let part (k : Nat) : Int := (Bytes.getOrZero rgb (p + k)).toNat
    toYcc (part 0) (part 1) (part 2)
  (colours.map fun c => c.1 - 128, colours.map fun c => c.2.1 - 128, colours.map fun c => c.2.2 - 128)

/-- The quantised coefficients of a block, in zigzag order. -/
def coefficients (table : Array Nat) (block : Array Int) : List Int :=
  let f := forward block
  zigzag.toList.map fun p => quantise (f.getD p 0) (table.getD p 1)

/-- The first coefficients of the last blocks, and the bits so far. -/
structure Scan where
  writer : BitWriter
  y : Int
  cb : Int
  cr : Int

def Head.columns (h : Head) : Nat := (h.width + 7) / 8

def Head.blocks (h : Head) : Nat := h.columns * ((h.height + 7) / 8)

def body (rgb : ByteArray) (h : Head) : ByteArray :=
  let lumDC := luminanceDC.bySymbol
  let lumAC := luminanceAC.bySymbol
  let chromDC := chrominanceDC.bySymbol
  let chromAC := chrominanceAC.bySymbol
  let start : Scan := ⟨.empty, 0, 0, 0⟩
  let code (i : Nat) : Scan → Scan
    | ⟨w, lastY, lastCb, lastCr⟩ =>
      let (y, cb, cr) := samples rgb h.width h.height (i % h.columns * 8) (i / h.columns * 8)
      let y := coefficients h.luminance y
      let cb := coefficients h.chrominance cb
      let cr := coefficients h.chrominance cr
      let w := putBlock lumDC lumAC w lastY y
      let w := putBlock chromDC chromAC w lastCb cb
      let w := putBlock chromDC chromAC w lastCr cr
      ⟨w, y.headD 0, cb.headD 0, cr.headD 0⟩
  (h.blocks.fold (fun i _ s => code i s) start).writer.finish

/-- The image of packed red, green, blue at a quality; `none` for a side that is zero or too long. -/
def encode (rgb : ByteArray) (width height quality : Nat) : Option ByteArray :=
  let h := Head.atQuality width height quality
  if h.isSound then some (h.toBytes ++ body rgb h ++ endOfImage) else none

/-! ### Reading -/

/-- A component ready for reading, and the first coefficient of its last block. -/
structure Plane where
  table : Array Nat
  dc : Lookup
  ac : Lookup
  last : Int

def Head.planes (h : Head) : List Plane :=
  let chroma : Plane := ⟨h.chrominance, chrominanceDC.lookup, chrominanceAC.lookup, 0⟩
  [⟨h.luminance, luminanceDC.lookup, luminanceAC.lookup, 0⟩, chroma, chroma]

/-- The samples of the next block of every component. -/
def readUnit : List Plane → BitReader → Option (List (Array Int) × List Plane × BitReader)
  | [], r => some ([], [], r)
  | p :: planes, r => do
    let (block, r) ← readBlock p.dc p.ac p.last r
    let placed := (zigzag.zip block).foldl
      (fun acc e => acc.setIfInBounds e.1 (e.2 * (p.table.getD e.1 0 : Int))) (Array.replicate 64 0)
    let (blocks, planes, r) ← readUnit planes r
    return ((inverse placed).map (fun x => clampByte (x + 128)) :: blocks, { p with last := block.getD 0 0 } :: planes, r)

/-- Red, green and blue of the 64 pixels of a block. -/
def colours (blocks : List (Array Int)) : ByteArray :=
  Bytes.tabulate 192 fun i =>
    let part (k : Nat) : Int := (blocks.getD k #[]).getD (i / 3) 0
    let (r, g, b) := ofYcc (part 0) (part 1) (part 2)
    UInt8.ofNat (if i % 3 = 0 then r else if i % 3 = 1 then g else b).toNat

/-- So many blocks behind those read, and the place behind them. -/
def readUnits : (todo : Nat) → List Plane → BitReader → Array ByteArray → Option (Array ByteArray × BitReader)
  | 0, _, r, acc => some (acc, r)
  | todo + 1, planes, r, acc =>
    match readUnit planes r with
    | none => none
    | some (blocks, planes, r) => readUnits todo planes r (acc.push (colours blocks))

/-- An image as packed red, green, blue. -/
structure Image where
  width : Nat
  height : Nat
  rgb : ByteArray

def Head.image (h : Head) (blocks : Array ByteArray) : Image :=
  ⟨h.width, h.height, Bytes.tabulate (h.width * h.height * 3) fun i =>
    let x := i / 3 % h.width
    let y := i / 3 / h.width
    Bytes.getOrZero (blocks.getD (y / 8 * h.columns + x / 8) ByteArray.empty) ((y % 8 * 8 + x % 8) * 3 + i % 3)⟩

def decode (data : ByteArray) : Option Image := do
  let (h, c) ← Head.read (Cursor.start data)
  let (bits, stop) := unstuff data data.size c.pos ByteArray.empty
  if !h.isSound || data.extract stop data.size ≠ endOfImage then none
  let (blocks, r) ← readUnits h.blocks h.planes ⟨bits, 0⟩ #[]
  if r.isFilled then return h.image blocks else none

end Screencast.Jpeg
