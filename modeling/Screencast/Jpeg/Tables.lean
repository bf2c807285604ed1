/-!
# The tables of baseline JPEG

The two sample quantisation tables with their scaling by a quality from 1 to 100, the zigzag order
of an 8 by 8 block, and the four sample Huffman tables, each by the number of codes of every
length from 1 to 16 and the symbols in the order of their codes.
-/

namespace Screencast.Jpeg

/-- Place in the block, row after row, of the n-th coefficient in zigzag order. -/
def zigzag : Array Nat :=
  #[0, 1, 8, 16, 9, 2, 3, 10, 17, 24, 32, 25, 18, 11, 4, 5, 12, 19, 26, 33, 40, 48, 41, 34, 27, 20, 13, 6, 7, 14,
    21, 28, 35, 42, 49, 56, 57, 50, 43, 36, 29, 22, 15, 23, 30, 37, 44, 51, 58, 59, 52, 45, 38, 31, 39, 46, 53,
    60, 61, 54, 47, 55, 62, 63]

/-- The sample table for luminance, row after row. -/
def luminance : Array Nat :=
  #[16, 11, 10, 16, 24, 40, 51, 61, 12, 12, 14, 19, 26, 58, 60, 55, 14, 13, 16, 24, 40, 57, 69, 56, 14, 17, 22, 29,
    51, 87, 80, 62, 18, 22, 37, 56, 68, 109, 103, 77, 24, 35, 55, 64, 81, 104, 113, 92, 49, 64, 78, 87, 103, 121,
    120, 101, 72, 92, 95, 98, 112, 100, 103, 99]

/-- The sample table for chrominance, row after row. -/
def chrominance : Array Nat :=
  #[17, 18, 24, 47, 99, 99, 99, 99, 18, 21, 26, 66, 99, 99, 99, 99, 24, 26, 56, 99, 99, 99, 99, 99, 47, 66, 99, 99,
    99, 99, 99, 99, 99, 99, 99, 99, 99, 99, 99, 99, 99, 99, 99, 99, 99, 99, 99, 99, 99, 99, 99, 99, 99, 99, 99, 99,
    99, 99, 99, 99, 99, 99, 99, 99]

/-- The percentage by which a quality scales a table. -/
def scale (quality : Nat) : Nat := if quality < 50 then 5000 / quality else 200 - 2 * quality

/-- An entry of a table at a quality. -/
def scaled (quality entry : Nat) : Nat := max 1 (min 255 ((entry * scale quality + 50) / 100))

def atQuality (table : Array Nat) (quality : Nat) : Array Nat := table.map (scaled quality)

/-- The codes of one kind of symbol. -/
structure CodeTable where
  /-- How many codes have each length, from 1 on. -/
  counts : Array Nat
  /-- The symbols, by code. -/
  symbols : Array Nat
  deriving DecidableEq, Inhabited

/-- `a` to `b`. -/
def range (a b : Nat) : Array Nat := (Array.range (b + 1 - a)).map (· + a)

def luminanceDC : CodeTable := ⟨#[0, 1, 5, 1, 1, 1, 1, 1, 1, 0, 0, 0, 0, 0, 0, 0], range 0 11⟩

def chrominanceDC : CodeTable := ⟨#[0, 3, 1, 1, 1, 1, 1, 1, 1, 1, 1, 0, 0, 0, 0, 0], range 0 11⟩

def luminanceAC : CodeTable :=
  ⟨#[0, 2, 1, 3, 3, 2, 4, 3, 5, 5, 4, 4, 0, 0, 1, 125],
   #[0x01, 0x02, 0x03, 0x00, 0x04, 0x11, 0x05, 0x12, 0x21, 0x31, 0x41, 0x06, 0x13, 0x51, 0x61, 0x07, 0x22, 0x71,
     0x14, 0x32, 0x81, 0x91, 0xA1, 0x08, 0x23, 0x42, 0xB1, 0xC1, 0x15, 0x52, 0xD1, 0xF0, 0x24, 0x33, 0x62, 0x72,
     0x82, 0x09, 0x0A] ++ range 0x16 0x1A ++ range 0x25 0x2A ++ range 0x34 0x3A ++ range 0x43 0x4A ++
    range 0x53 0x5A ++ range 0x63 0x6A ++ range 0x73 0x7A ++ range 0x83 0x8A ++ range 0x92 0x9A ++
    range 0xA2 0xAA ++ range 0xB2 0xBA ++ range 0xC2 0xCA ++ range 0xD2 0xDA ++ range 0xE1 0xEA ++
    range 0xF1 0xFA⟩

def chrominanceAC : CodeTable :=
  ⟨#[0, 2, 1, 2, 4, 4, 3, 4, 7, 5, 4, 4, 0, 1, 2, 119],
   #[0x00, 0x01, 0x02, 0x03, 0x11, 0x04, 0x05, 0x21, 0x31, 0x06, 0x12, 0x41, 0x51, 0x07, 0x61, 0x71, 0x13, 0x22,
     0x32, 0x81, 0x08, 0x14, 0x42, 0x91, 0xA1, 0xB1, 0xC1, 0x09, 0x23, 0x33, 0x52, 0xF0, 0x15, 0x62, 0x72, 0xD1,
     0x0A, 0x16, 0x24, 0x34, 0xE1, 0x25, 0xF1] ++ range 0x17 0x1A ++ range 0x26 0x2A ++ range 0x35 0x3A ++
    range 0x43 0x4A ++ range 0x53 0x5A ++ range 0x63 0x6A ++ range 0x73 0x7A ++ range 0x82 0x8A ++
    range 0x92 0x9A ++ range 0xA2 0xAA ++ range 0xB2 0xBA ++ range 0xC2 0xCA ++ range 0xD2 0xDA ++
    range 0xE2 0xEA ++ range 0xF2 0xFA⟩

/-- A code and its length in bits. -/
structure Code where
  bits : Nat
  width : Nat
  deriving DecidableEq, Inhabited

/-- The codes of so many lengths from `width` on; the next free code of that length is `next`. -/
def codesFrom : (counts : List Nat) → (width next : Nat) → List Code
  | [], _, _ => []
  | n :: counts, width, next =>
    (List.range n).map (fun i => Code.mk (next + i) width) ++ codesFrom counts (width + 1) ((next + n) * 2)

/-- The codes of a table, in the order of its symbols. -/
def CodeTable.codes (t : CodeTable) : List Code := codesFrom t.counts.toList 1 0

/-- The codes of a table by symbol. -/
def CodeTable.bySymbol (t : CodeTable) : Array Code :=
  (t.symbols.toList.zip t.codes).foldl (fun acc e => acc.setIfInBounds e.1 e.2) (Array.replicate 256 ⟨0, 0⟩)

end Screencast.Jpeg
