import Screencast.Frame.Basic

/-!
# Turning frames

`Frame.rotate` undoes the turn of an output. The pixel in column `x` and row `y` moves to
`(y, w - 1 - x)` for a quarter, `(w - 1 - x, h - 1 - y)` for a half and `(h - 1 - y, x)` for
three quarters; `Rotation.origin` is the way back, by which the new buffer is filled. The result
has no padding.
-/

namespace Screencast

/-- Column and row, in a `w` by `h` frame, of the pixel that a turn moves to `(x, y)`. -/
def Rotation.origin (r : Rotation) (w h x y : Nat) : Nat × Nat :=
  match r with
  | .identity => (x, y)
  | .quarter => (w - 1 - y, x)
  | .half => (w - 1 - x, h - 1 - y)
  | .threeQuarters => (y, h - 1 - x)

/-- Column and row to which a turn moves the pixel `(x, y)` of a `w` by `h` frame. -/
def Rotation.target (r : Rotation) (w h x y : Nat) : Nat × Nat :=
  match r with
  | .identity => (x, y)
  | .quarter => (y, w - 1 - x)
  | .half => (w - 1 - x, h - 1 - y)
  | .threeQuarters => (h - 1 - y, x)

theorem Rotation.origin_target (r : Rotation) {w h x y : Nat} (hx : x < w) (hy : y < h) :
    r.origin w h (r.target w h x y).1 (r.target w h x y).2 = (x, y) := by
  cases r
  · rfl
  · exact Prod.ext (show w - 1 - (w - 1 - x) = x by omega) rfl
  · exact Prod.ext (show w - 1 - (w - 1 - x) = x by omega) (show h - 1 - (h - 1 - y) = y by omega)
  · exact Prod.ext rfl (show h - 1 - (h - 1 - y) = y by omega)

namespace Frame

def rotate (f : Frame) (r : Rotation) : Except StreamError Frame :=
  if r = .identity then .ok f
  else
    let size := f.format.size
    let width := if r.isSideways then f.height else f.width
    let height := if r.isSideways then f.width else f.height
    let stride := width.toNat * size
    let fill (i : Nat) : Except StreamError UInt8 :=
      let source := r.origin f.width.toNat f.height.toNat (i % stride / size) (i / stride)
      f.pixelByte source.1 source.2 (i % size)
    match Bytes.build (stride * height.toNat) fill with
    | .error e => .error e
    | .ok data => .ok ⟨width, height, UInt32.ofNat stride, f.format, data⟩

end Frame
end Screencast
