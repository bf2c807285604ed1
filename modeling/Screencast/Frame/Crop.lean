import Screencast.Frame.Basic

/-!
# Cropping

The colours of a region as packed red, green, blue, row after row. The region is cut to the
frame first; a region that does not meet the frame is refused.
-/

namespace Screencast.Frame

/-- One colour of a pixel: 0 is red, 1 green, 2 blue. -/
def colour (f : Frame) (x y c : Nat) : Except StreamError UInt8 := f.pixelByte x y (f.format.offset c)

/-- The region as packed red, green, blue. -/
def cropRgb (f : Frame) (region : Rect) : Except StreamError ByteArray :=
  let r := region.intersect f.bounds
  if r.isEmpty then .error (.regionOutOfBounds r)
  else
    let w := r.width.toNat
    Bytes.build (r.area * 3) fun i =>
      f.colour (r.x.toNat + i / 3 % w) (r.y.toNat + i / 3 / w) (i % 3)

end Screencast.Frame
