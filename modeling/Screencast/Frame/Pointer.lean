import Screencast.Frame.Basic
import Screencast.Geometry.Area

/-!
# Drawing the pointer

Captured pictures lack the mouse pointer, so it is blended in. It is drawn only if its box, which
its hotspot and the display's place decide, lies wholly inside the frame. A source pixel of alpha
`a` turns a colour `d` into `(s * a + d * (255 - a)) / 255`; one of alpha zero changes nothing.
-/

namespace Screencast

/-- A pointer image and where it stands on the desktop. -/
structure Pointer where
  x : Int32
  y : Int32
  /-- Place of the tip within the image. -/
  hotspotX : UInt32
  hotspotY : UInt32
  width : UInt32
  height : UInt32
  /-- Blue, green, red and alpha of each pixel, row after row. -/
  pixels : ByteArray
  deriving DecidableEq, Inhabited

def blend (source target alpha : UInt8) : UInt8 :=
  UInt8.ofNat ((source.toNat * alpha.toNat + target.toNat * (255 - alpha.toNat)) / 255)

namespace Pointer

/-- Where the pointer falls in a frame that shows `area`, if it can be drawn there. -/
def box (p : Pointer) (frame : Frame) (area : Area) : Option Rect :=
  let left := p.x.toInt - area.left.toInt - p.hotspotX.toNat
  let top := p.y.toInt - area.top.toInt - p.hotspotY.toNat
  if p.width = 0 ∨ p.height = 0 then none
  else if p.pixels.size < p.width.toNat * p.height.toNat * 4 then none
  else if left < 0 ∨ top < 0 ∨ frame.width.toNat < left + p.width.toNat
      ∨ frame.height.toNat < top + p.height.toNat then none
  else some ⟨UInt32.ofNat left.toNat, UInt32.ofNat top.toNat, p.width, p.height⟩

/-- The colour of the image stored at byte `k` of a pixel of this format: 0 is blue, 2 red. -/
def sourceOffset (format : PixelFormat) (k : Nat) : Nat :=
  if k = format.offset 0 then 2 else if k = format.offset 1 then 1 else 0

/-- Byte `k` of a frame pixel of value `old` under the image pixel `(column, row)`. -/
def paint (p : Pointer) (format : PixelFormat) (column row k : Nat) (old : UInt8) :
    Except StreamError UInt8 :=
  let start := (row * p.width.toNat + column) * 4
  match Bytes.byteAt p.pixels (start + 3) with
  | .error e => .error e
  | .ok alpha =>
    if alpha = 0 then .ok old
    else if k = 3 then .ok 0xFF
    else
      match Bytes.byteAt p.pixels (start + sourceOffset format k) with
      | .error e => .error e
      | .ok source => .ok (blend source old alpha)

/-- Byte `i` of the frame's buffer once the pointer is drawn in `target`. -/
def drawnByte (p : Pointer) (frame : Frame) (target : Rect) (i : Nat) : Except StreamError UInt8 :=
  match Bytes.byteAt frame.data i with
  | .error e => .error e
  | .ok old =>
    let y := i / frame.stride.toNat
    let x := i % frame.stride.toNat / frame.format.size
    if target.Covers x y then
      p.paint frame.format (x - target.x.toNat) (y - target.y.toNat)
        (i % frame.stride.toNat % frame.format.size) old
    else .ok old

end Pointer

/-- The frame with the pointer drawn, and the box it was drawn in; the frame as it was if the
pointer is not wholly inside. -/
def Frame.drawPointer (frame : Frame) (p : Pointer) (area : Area) :
    Except StreamError (Frame × Option Rect) :=
  match p.box frame area with
  | none => .ok (frame, none)
  | some target =>
    match Bytes.build frame.data.size (p.drawnByte frame target) with
    | .error e => .error e
    | .ok data => .ok ({ frame with data := data }, some target)

end Screencast
