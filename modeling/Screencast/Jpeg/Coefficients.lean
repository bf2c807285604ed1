import Screencast.Bytes.Build
import Screencast.Jpeg.Tables

/-!
# Coding coefficients

A block is coded by the change of its first coefficient and by the others in zigzag order: each one
that is not zero with the number of zeros before it, and one symbol where only zeros are left. A
value goes by its number of bits and these bits, a negative one less by one. The bits are written
from the high end of every byte, and a byte of ones is followed by a zero byte.
-/

namespace Screencast.Jpeg

/-! ### Symbols -/

/-- A symbol and the bits that follow its code. -/
structure Token where
  symbol : Nat
  extra : Nat
  width : Nat
  deriving DecidableEq, Inhabited

/-- Number of bits of a value without its sign. -/
def sizeOf (x : Int) : Nat := if x = 0 then 0 else x.natAbs.log2 + 1

/-- The bits of a value of this size. -/
def extraOf (x : Int) (size : Nat) : Nat := if x < 0 then (x + 2 ^ size - 1).toNat else x.toNat

/-- The value of these bits. -/
def valueOf (extra size : Nat) : Int :=
  if size = 0 then 0 else if extra < 2 ^ (size - 1) then (extra : Int) - 2 ^ size + 1 else extra

/-- The token of a value behind so many zeros. -/
def Token.ofValue (zeros : Nat) (x : Int) : Token := ⟨zeros * 16 + sizeOf x, extraOf x (sizeOf x), sizeOf x⟩

/-- The tokens of the coefficients after the first, behind so many zeros. -/
def tokensFrom : List Int → (zeros : Nat) → List Token
  | [], zeros => if zeros = 0 then [] else [⟨0, 0, 0⟩]
  | x :: rest, zeros =>
    if x = 0 then tokensFrom rest (zeros + 1)
    else List.replicate (zeros / 16) ⟨0xF0, 0, 0⟩ ++ Token.ofValue (zeros % 16) x :: tokensFrom rest 0

/-! ### Writing bits -/

/-- Whole bytes and the bits of a byte begun. -/
structure BitWriter where
  bytes : ByteArray
  pending : Nat
  width : Nat

namespace BitWriter

def empty : BitWriter := ⟨ByteArray.empty, 0, 0⟩

/-- The bytes with one more, and a zero byte behind a byte of ones. -/
def pushByte (bytes : ByteArray) (b : UInt8) : ByteArray :=
  if b = 0xFF then (bytes.push b).push 0 else bytes.push b

/-- Whole bytes moved out of the pending bits. -/
def flush : (fuel : Nat) → BitWriter → BitWriter
  | 0, w => w
  | fuel + 1, w =>
    if w.width < 8 then w
    else
      let left := w.width - 8
      flush fuel ⟨pushByte w.bytes (UInt8.ofNat (w.pending >>> left)), w.pending % 2 ^ left, left⟩

/-- The low `width` bits of a number. -/
def put (w : BitWriter) (bits width : Nat) : BitWriter :=
  flush (w.width + width) ⟨w.bytes, w.pending <<< width + bits, w.width + width⟩

def putToken (codes : Array Code) (w : BitWriter) (t : Token) : BitWriter :=
  let code := codes.getD t.symbol ⟨0, 0⟩
  (w.put code.bits code.width).put t.extra t.width

/-- All bytes, the last filled up with ones. -/
def finish (w : BitWriter) : ByteArray :=
  if w.width = 0 then w.bytes else (w.put (2 ^ (8 - w.width) - 1) (8 - w.width)).bytes

end BitWriter

/-- A block's coefficients in zigzag order behind a block that began with `previous`. -/
def putBlock (dc ac : Array Code) (w : BitWriter) (previous : Int) (b : List Int) : BitWriter :=
  let first := b.headD 0
  let w := w.putToken dc (Token.ofValue 0 (first - previous))
  (tokensFrom b.tail 0).foldl (BitWriter.putToken ac) w

/-! ### Reading bits -/

/-- The coded bytes up to the next marker, without the zero bytes behind bytes of ones, and the
place of the marker. -/
def unstuff (b : ByteArray) : (fuel pos : Nat) → ByteArray → ByteArray × Nat
  | 0, pos, acc => (acc, pos)
  | fuel + 1, pos, acc =>
    match Bytes.get? b pos, Bytes.get? b (pos + 1) with
    | some 0xFF, some 0x00 => unstuff b fuel (pos + 2) (acc.push 0xFF)
    | some 0xFF, _ => (acc, pos)
    | some x, _ => unstuff b fuel (pos + 1) (acc.push x)
    | none, _ => (acc, pos)

/-- A place among the bits of a byte string. -/
structure BitReader where
  bytes : ByteArray
  pos : Nat

/-- The codes of a table by length: its first code, the place of its first symbol and their
number. -/
def CodeTable.rows (t : CodeTable) : List (Nat × Nat × Nat) :=
  go t.counts.toList 0 0
where
  go : List Nat → (next place : Nat) → List (Nat × Nat × Nat)
    | [], _, _ => []
    | n :: counts, next, place => (next, place, n) :: go counts ((next + n) * 2) (place + n)

/-- A table ready for reading. -/
structure Lookup where
  rows : List (Nat × Nat × Nat)
  symbols : Array Nat

def CodeTable.lookup (t : CodeTable) : Lookup := ⟨t.rows, t.symbols⟩

namespace BitReader

def bit (r : BitReader) : Option (Nat × BitReader) :=
  if h : r.pos / 8 < r.bytes.size then
    some (r.bytes[r.pos / 8].toNat / 2 ^ (7 - r.pos % 8) % 2, { r with pos := r.pos + 1 })
  else none

/-- The number in the next bits, behind the bits `n`. -/
def bits : (width : Nat) → (n : Nat) → BitReader → Option (Nat × BitReader)
  | 0, n, r => some (n, r)
  | width + 1, n, r =>
    match r.bit with
    | none => none
    | some (b, r) => bits width (n * 2 + b) r

/-- What is left is the filling of the last byte: fewer than eight bits, all ones. -/
def isFilled (r : BitReader) : Bool :=
  let left := r.bytes.size * 8 - r.pos
  left < 8 && (bits left 0 r).any fun e => e.1 = 2 ^ left - 1

/-- The symbol of the next code, of which `n` has been read. -/
def symbol (symbols : Array Nat) : List (Nat × Nat × Nat) → (n : Nat) → BitReader → Option (Nat × BitReader)
  | [], _, _ => none
  | (first, place, count) :: rows, n, r =>
    match r.bit with
    | none => none
    | some (b, r) =>
      let n := n * 2 + b
      if first ≤ n ∧ n < first + count then (symbols[place + (n - first)]?).map fun s => (s, r)
      else symbol symbols rows n r

end BitReader

/-- The coefficients in zigzag order from place `place` on. -/
def readTail (ac : Lookup) : (fuel : Nat) → BitReader → (place : Nat) → Array Int → Option (Array Int × BitReader)
  | 0, r, _, acc => some (acc, r)
  | fuel + 1, r, place, acc =>
    if 64 ≤ place then some (acc, r)
    else
      match BitReader.symbol ac.symbols ac.rows 0 r with
      | none => none
      | some (symbol, r) =>
        let size := symbol % 16
        if symbol = 0xF0 then readTail ac fuel r (place + 16) acc
        else if size = 0 then some (acc, r)
        else
          match BitReader.bits size 0 r with
          | none => none
          | some (extra, r) =>
            let place := place + symbol / 16
            if place < 64 then readTail ac fuel r (place + 1) (acc.setIfInBounds place (valueOf extra size))
            else none

/-- A block behind a block that began with `previous`. -/
def readBlock (dc ac : Lookup) (previous : Int) (r : BitReader) : Option (Array Int × BitReader) :=
  match BitReader.symbol dc.symbols dc.rows 0 r with
  | none => none
  | some (size, r) =>
    match BitReader.bits size 0 r with
    | none => none
    | some (extra, r) =>
      readTail ac 64 r 1 ((Array.replicate 64 0).setIfInBounds 0 (previous + valueOf extra size))

end Screencast.Jpeg
