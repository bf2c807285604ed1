/-!
# Colours and cosines

What happens to samples before they are coded and after they are read: the turn between red, green,
blue and luminance with two colour differences, and the cosine transform of 8 by 8 blocks. Both
are done in whole numbers, rounded to the nearest.
-/

namespace Screencast.Jpeg

def clampByte (x : Int) : Int := max 0 (min 255 x)

/-- `x` over twice `half`, to the nearest whole number. -/
def descale (x half : Int) : Int := (x + half) / (2 * half)

/-! ### Colours -/

/-- Luminance and the blue and red differences of a colour. -/
def toYcc (r g b : Int) : Int × Int × Int :=
  (clampByte (descale (19595 * r + 38470 * g + 7471 * b) 32768),
    clampByte (descale (-11059 * r - 21709 * g + 32768 * b) 32768 + 128),
    clampByte (descale (32768 * r - 27439 * g - 5329 * b) 32768 + 128))

/-- The colour of a luminance and two differences. -/
def ofYcc (y cb cr : Int) : Int × Int × Int :=
  let u := cb - 128
  let v := cr - 128
  (clampByte (y + descale (91881 * v) 32768), clampByte (y - descale (22554 * u + 46802 * v) 32768),
    clampByte (y + descale (116130 * u) 32768))

/-! ### Cosines -/

/-- `2048 * cos (n * pi / 16)` for `n` up to 8. -/
def cosines : Array Int := #[2048, 2009, 1892, 1703, 1448, 1138, 784, 400, 0]

/-- `2048 * cos (n * pi / 16)`. -/
def cosine (n : Nat) : Int :=
  let n := n % 32
  if n ≤ 8 then cosines.getD n 0
  else if n ≤ 16 then -cosines.getD (16 - n) 0
  else if n ≤ 24 then -cosines.getD (n - 16) 0
  else cosines.getD (32 - n) 0

/-- The orthogonal cosine matrix times 4096, row after row. -/
def basis : Array Int :=
  (Array.range 64).map fun i => if i / 8 = 0 then 1448 else cosine ((2 * (i % 8) + 1) * (i / 8))

def turnedBasis : Array Int := (Array.range 64).map fun i => basis.getD (i % 8 * 8 + i / 8) 0

/-- Row `r` of one matrix times row `c` of another. -/
def dot (m b : Array Int) (r c : Nat) : Int :=
  let p := r * 8
  let q := c * 8
  m.getD p 0 * b.getD q 0 + m.getD (p + 1) 0 * b.getD (q + 1) 0 + m.getD (p + 2) 0 * b.getD (q + 2) 0 +
    m.getD (p + 3) 0 * b.getD (q + 3) 0 + m.getD (p + 4) 0 * b.getD (q + 4) 0 +
    m.getD (p + 5) 0 * b.getD (q + 5) 0 + m.getD (p + 6) 0 * b.getD (q + 6) 0 + m.getD (p + 7) 0 * b.getD (q + 7) 0

/-- The matrix times the block turned over, divided by twice `half`. -/
def pass (m b : Array Int) (half : Int) : Array Int :=
  (Array.range 64).map fun i => descale (dot m b (i / 8) (i % 8)) half

/-- The coefficients of a block of samples around zero. -/
def forward (b : Array Int) : Array Int := pass basis (pass basis b 256) 16384

/-- The samples of a block of coefficients. -/
def inverse (b : Array Int) : Array Int := pass turnedBasis (pass turnedBasis b 256) 16384

/-- The quotient rounded to the nearest, halves away from zero. -/
def quantise (x : Int) (step : Nat) : Int :=
  let q : Int := ((x.natAbs + step / 2) / step : Nat)
  if x < 0 then -q else q

end Screencast.Jpeg
