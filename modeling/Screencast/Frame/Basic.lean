import Screencast.Bytes.Build

/-!
# Frames

A frame is `height` rows of `stride` bytes. A row begins with its pixels and may end in
padding; the buffer may go on after the last row. `WellFormed` says that the rows hold their
pixels and the buffer holds the rows, which is what `Frame.ofBytes` checks.
-/

namespace Screencast

/-- How the colours of a pixel lie in memory. -/
inductive PixelFormat where
  | bgra
  | rgba
  | rgb
  deriving DecidableEq, Inhabited

namespace PixelFormat

def size : PixelFormat → Nat
  | bgra | rgba => 4
  | rgb => 3

def name : PixelFormat → String
  | bgra => "bgra"
  | rgba => "rgba"
  | rgb => "rgb"

def ofName? (s : String) : Option PixelFormat := [bgra, rgba, rgb].find? fun f => f.name == s

def hasAlpha : PixelFormat → Bool
  | bgra | rgba => true
  | rgb => false

/-- Place of a colour within the pixel: 0 is red, 1 green, 2 blue. -/
def offset : PixelFormat → Nat → Nat
  | bgra, c => 2 - c
  | rgba, c | rgb, c => c

theorem size_pos (f : PixelFormat) : 0 < f.size := by cases f <;> decide

theorem offset_lt (f : PixelFormat) {c : Nat} (h : c < 3) : f.offset c < f.size := by
  cases f <;> simp only [offset, size] <;> omega

end PixelFormat

structure Frame where
  width : UInt32
  height : UInt32
  /-- Bytes from one row to the next. -/
  stride : UInt32
  format : PixelFormat
  data : ByteArray
  deriving DecidableEq, Inhabited

namespace Frame

/-- Bytes of a row's pixels. -/
def rowSize (f : Frame) : Nat := f.width.toNat * f.format.size

/-- The rows hold their pixels and the buffer holds the rows. -/
def WellFormed (f : Frame) : Prop :=
  f.rowSize ≤ f.stride.toNat ∧ f.stride.toNat * f.height.toNat ≤ f.data.size

instance (f : Frame) : Decidable f.WellFormed := inferInstanceAs (Decidable (_ ∧ _))

/-- A frame over a given buffer, if that is large enough. -/
def ofBytes (width height stride : UInt32) (format : PixelFormat) (data : ByteArray) :
    Except StreamError Frame :=
  let minimum := width.toNat * format.size
  let needed := stride.toNat * height.toNat
  if stride.toNat < minimum then .error (.capture (.strideTooShort stride.toNat minimum))
  else if data.size < needed then .error (.capture (.bufferTooShort data.size needed))
  else .ok ⟨width, height, stride, format, data⟩

/-- A tightly packed frame of equal bytes. -/
def filled (width height : UInt32) (format : PixelFormat) (byte : UInt8) : Frame :=
  let stride := width * UInt32.ofNat format.size
  ⟨width, height, stride, format, Bytes.replicate (stride.toNat * height.toNat) byte⟩

def bounds (f : Frame) : Rect := ⟨0, 0, f.width, f.height⟩

/-- A row with its padding. -/
def row (f : Frame) (y : Nat) : Except StreamError ByteArray :=
  Bytes.slice f.data (y * f.stride.toNat) f.stride.toNat

/-- A row without its padding. -/
def rowPixels (f : Frame) (y : Nat) : Except StreamError ByteArray :=
  Bytes.slice f.data (y * f.stride.toNat) f.rowSize

/-- Where the pixel in column `x` and row `y` begins. -/
def pixelStart (f : Frame) (x y : Nat) : Nat := y * f.stride.toNat + x * f.format.size

def pixel (f : Frame) (x y : Nat) : Except StreamError ByteArray :=
  Bytes.slice f.data (f.pixelStart x y) f.format.size

def pixelByte (f : Frame) (x y k : Nat) : Except StreamError UInt8 :=
  Bytes.byteAt f.data (f.pixelStart x y + k)

/-- The frame with other bytes for one pixel. -/
def setPixel (f : Frame) (x y : Nat) (bytes : ByteArray) : Except StreamError Frame :=
  if bytes.size = f.format.size then do
    return { f with data := ← Bytes.overwrite f.data (f.pixelStart x y) bytes }
  else .error .outOfBuffer

/-- The frame with all pixel bytes of a row set to one value. -/
def fillRow (f : Frame) (y : Nat) (byte : UInt8) : Except StreamError Frame := do
  return { f with data := ← Bytes.overwrite f.data (y * f.stride.toNat) (Bytes.replicate f.rowSize byte) }

/-- Rows `y` to `y + todo - 1` hold only zeros. -/
def blankFrom (f : Frame) : (todo y : Nat) → Except StreamError Bool
  | 0, _ => .ok true
  | todo + 1, y =>
    match f.rowPixels y with
    | .error e => .error e
    | .ok pixels => if Bytes.allFrom pixels 0 pixels.size 0 then blankFrom f todo (y + 1) else .ok false

def isBlank (f : Frame) : Except StreamError Bool := f.blankFrom f.height.toNat 0

theorem ofBytes_ok_iff {width height stride : UInt32} {format : PixelFormat} {data : ByteArray} {f : Frame} :
    ofBytes width height stride format data = .ok f ↔
      f = ⟨width, height, stride, format, data⟩ ∧ f.WellFormed := by
  unfold ofBytes
  simp only
  split
  · simp only [reduceCtorEq, WellFormed, rowSize, false_iff, not_and]
    rintro rfl; simp only; omega
  · split
    · simp only [reduceCtorEq, WellFormed, rowSize, false_iff, not_and]
      rintro rfl; simp only; omega
    · simp only [Except.ok.injEq, WellFormed, rowSize]
      constructor
      · rintro rfl; exact ⟨rfl, by simp only; omega, by simp only; omega⟩
      · rintro ⟨rfl, _⟩; rfl

end Frame
end Screencast
