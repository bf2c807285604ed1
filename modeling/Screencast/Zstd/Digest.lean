import Screencast.Bytes.Build

/-!
# The checksum of a frame

The low four bytes of the 64-bit hash XXH64 of the content, with seed zero. The hash runs four lanes over
stripes of 32 bytes, joins them, and mixes in what is left by words of eight bytes, of four
bytes, and byte by byte.
-/

namespace Screencast.Zstd.Digest

def prime1 : UInt64 := 0x9E3779B185EBCA87

def prime2 : UInt64 := 0xC2B2AE3D27D4EB4F

def prime3 : UInt64 := 0x165667B19E3779F9

def prime4 : UInt64 := 0x85EBCA77C2B2AE63

def prime5 : UInt64 := 0x27D4EB2F165667C5

def rotateLeft (w n : UInt64) : UInt64 := (w <<< n) ||| (w >>> (64 - n))

/-- The number in `w` bytes from `pos` on, the least significant first. -/
def word (b : ByteArray) (pos : Nat) : (w : Nat) → UInt64
  | 0 => 0
  | w + 1 => (Bytes.getOrZero b pos).toUInt64 ||| (word b (pos + 1) w <<< 8)

def round (lane input : UInt64) : UInt64 := rotateLeft (lane + input * prime2) 31 * prime1

structure Lanes where
  first : UInt64
  second : UInt64
  third : UInt64
  fourth : UInt64
  deriving DecidableEq, Inhabited

def Lanes.start : Lanes := ⟨prime1 + prime2, prime2, 0, 0 - prime1⟩

/-- The lanes after so many stripes from `pos` on. -/
def Lanes.run (b : ByteArray) : (todo pos : Nat) → Lanes → Lanes
  | 0, _, l => l
  | todo + 1, pos, l =>
    run b todo (pos + 32) ⟨round l.first (word b pos 8), round l.second (word b (pos + 8) 8),
      round l.third (word b (pos + 16) 8), round l.fourth (word b (pos + 24) 8)⟩

def merge (h lane : UInt64) : UInt64 := (h ^^^ round 0 lane) * prime1 + prime4

def Lanes.join (l : Lanes) : UInt64 :=
  let h := rotateLeft l.first 1 + rotateLeft l.second 7 + rotateLeft l.third 12 + rotateLeft l.fourth 18
  merge (merge (merge (merge h l.first) l.second) l.third) l.fourth

/-- So many words of eight bytes mixed in. -/
def mixEights (b : ByteArray) : (todo pos : Nat) → (h : UInt64) → UInt64
  | 0, _, h => h
  | todo + 1, pos, h =>
    mixEights b todo (pos + 8) (rotateLeft (h ^^^ round 0 (word b pos 8)) 27 * prime1 + prime4)

/-- A word of four bytes mixed in. -/
def mixFour (b : ByteArray) (pos : Nat) (h : UInt64) : UInt64 :=
  rotateLeft (h ^^^ word b pos 4 * prime1) 23 * prime2 + prime3

def mixOnes (b : ByteArray) : (todo pos : Nat) → (h : UInt64) → UInt64
  | 0, _, h => h
  | todo + 1, pos, h => mixOnes b todo (pos + 1) (rotateLeft (h ^^^ word b pos 1 * prime5) 11 * prime1)

/-- Every bit of the result hangs on every bit of the hash. -/
def finish (h : UInt64) : UInt64 :=
  let h := (h ^^^ (h >>> 33)) * prime2
  let h := (h ^^^ (h >>> 29)) * prime3
  h ^^^ (h >>> 32)

def hash (b : ByteArray) : UInt64 :=
  let striped := b.size / 32 * 32
  let h := (if b.size < 32 then prime5 else (Lanes.start.run b (b.size / 32) 0).join) + b.size.toUInt64
  let left := b.size - striped
  let h := mixEights b (left / 8) striped h
  let pos := striped + left / 8 * 8
  let h := if 4 ≤ left % 8 then mixFour b pos h else h
  finish (mixOnes b (left % 4) (pos + left % 8 / 4 * 4) h)

/-- What is stored of the hash. -/
def checksum (b : ByteArray) : Nat := (hash b).toNat % 2 ^ 32

end Screencast.Zstd.Digest
