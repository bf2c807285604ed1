import Screencast.Capture.Result
import Screencast.Display.Basic

/-!
# The test pattern

A gradient of the display's size with a white block that moves on by a fixed step at every capture,
row after row. The gradient of the last size is kept from one capture to the next.
-/

namespace Screencast

/-- Where the block stands in one capture. -/
structure PatternBlock where
  left : Nat
  top : Nat
  width : Nat
  height : Nat
  deriving DecidableEq, Inhabited

namespace PatternBlock

/-- Side of the block where the frame leaves room for it. -/
def side : Nat := 64

/-- Pixels that the block moves by. -/
def step : Nat := 8

/-- The block of the `n`-th capture in a frame of `w` by `h` pixels. -/
def nth (n w h : Nat) : PatternBlock :=
  let width := min side w
  let height := min side h
  let spanX := w - width + 1
  let spanY := h - height + 1
  ⟨n * step % spanX, n * step / spanX % spanY, width, height⟩

/-- The pixel in column `x` and row `y` belongs to the block. -/
def covers (b : PatternBlock) (x y : Nat) : Bool :=
  b.left ≤ x && x < b.left + b.width && b.top ≤ y && y < b.top + b.height

end PatternBlock

/-- Byte `k` of the gradient's pixel `(x, y)` in a frame of `w` by `h` pixels. -/
def gradientByte (w h x y k : Nat) : UInt8 :=
  match k with
  | 0 => UInt8.ofNat (x * 255 / w)
  | 1 => UInt8.ofNat (y * 255 / h)
  | 2 => 0x30
  | _ => 0xFF

/-- Byte `k` of a pixel of the block. -/
def blockByte (k : Nat) : UInt8 := if k = 3 then 0xFF else 0xF0

def gradient (width height : UInt32) : Frame :=
  let w := width.toNat
  let h := height.toNat
  ⟨width, height, width * 4, .bgra,
    Bytes.tabulate (w * 4 * h) fun i => gradientByte w h (i / 4 % w) (i / 4 / w) (i % 4)⟩

/-- The frame with the block drawn over it. -/
def Frame.drawBlock (f : Frame) (b : PatternBlock) : Frame :=
  let w := f.width.toNat
  { f with data := Bytes.tabulate f.data.size fun i =>
      if b.covers (i / 4 % w) (i / 4 / w) then blockByte (i % 4) else Bytes.getOrZero f.data i }

structure Pattern where
  captures : Nat
  background : Option Frame
  deriving Inhabited

namespace Pattern

def start : Pattern := ⟨0, none⟩

/-- The gradient of a size, the one kept if it has that size. -/
def backgroundFor (p : Pattern) (width height : UInt32) : Frame :=
  match p.background with
  | some f => if f.width = width ∧ f.height = height then f else gradient width height
  | none => gradient width height

/-- The next frame for a display; one without area fails and does not count. -/
def capture (p : Pattern) (d : Display) : CaptureResult × Pattern :=
  let width := d.area.width
  let height := d.area.height
  if width = 0 ∨ height = 0 then (.failed s!"display {d.name} has no area" false, p)
  else
    let background := p.backgroundFor width height
    let block := PatternBlock.nth p.captures width.toNat height.toNat
    (.captured (.plain (background.drawBlock block)), ⟨p.captures + 1, some background⟩)

end Pattern
end Screencast
