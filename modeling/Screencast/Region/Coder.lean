import Screencast.Frame.Crop
import Screencast.Jpeg.Image
import Screencast.Settings.Basic
import Screencast.Zstd.Stream

/-!
# Coding regions

A region of a frame is cropped to packed red, green, blue and compressed. The region is cut to the
frame first, and one that does not meet the frame is refused. The way back checks that the size
is the one claimed.
-/

namespace Screencast

/-- A way to compress packed colours of a given width and height. -/
structure Compressor where
  compress : (rgb : ByteArray) → (width height : UInt32) → (quality : UInt8) → Option ByteArray
  decompress : ByteArray → Option ByteArray

/-- Lossy compression at a quality from 1 to 100. -/
def Compressor.jpeg : Compressor :=
  ⟨fun rgb width height quality => Jpeg.encode rgb width.toNat height.toNat quality.toNat,
    fun data => (Jpeg.decode data).map Jpeg.Image.rgb⟩

/-- Lossless compression; the quality does not matter. -/
def Compressor.zstd : Compressor := ⟨fun rgb _ _ _ => some (Zstd.encode rgb), Zstd.decode⟩

def Codec.compressor : Codec → Compressor
  | jpeg => .jpeg
  | zstd => .zstd

/-- A quality kept within 1 to 100. -/
def clampQuality (q : UInt8) : UInt8 := min (max q 1) 100

/-- The compressed colours of a region of a frame. -/
def Frame.encodeRegion (f : Frame) (c : Compressor) (region : Rect) (quality : UInt8) :
    Except StreamError ByteArray :=
  let r := region.intersect f.bounds
  if r.isEmpty then .error (.regionOutOfBounds r)
  else
    match f.cropRgb r with
    | .error e => .error e
    | .ok rgb =>
      match c.compress rgb r.width r.height (clampQuality quality) with
      | some data => .ok data
      | none => .error (.encoding (.coder "the image cannot be compressed"))

/-- The packed colours that compressed data hold, if they are as many as claimed. -/
def decodeRegion (c : Compressor) (data : ByteArray) (width height : UInt32) : Except StreamError ByteArray :=
  match c.decompress data with
  | none => .error (.encoding (.coder "the data cannot be decompressed"))
  | some rgb =>
    let expected := width.toNat * height.toNat * 3
    if rgb.size = expected then .ok rgb else .error (.encoding (.wrongSize rgb.size expected width height))

end Screencast
