import Screencast.Bytes.Build
import Screencast.Bytes.Cursor
import Screencast.Bytes.LittleEndian

/-!
# Zstandard blocks

A block is stored bytes, a run of one byte, or bytes in entropy coding. It begins with three bytes that
hold, from the low end, whether it is the last, its kind in two bits and a size. Entropy coding is
neither written nor taken apart.
-/

namespace Screencast.Zstd

inductive Block where
  | stored (bytes : ByteArray)
  | run (byte : UInt8) (count : Nat)
  | coded (bytes : ByteArray)
  deriving DecidableEq, Inhabited

namespace Block

/-- No block of a frame holds more. -/
def limit : Nat := 128 * 1024

/-- The two bits of its kind. -/
def kind : Block → Nat
  | stored _ => 0
  | run _ _ => 1
  | coded _ => 2

/-- What follows the three bytes. -/
def body : Block → ByteArray
  | stored bytes => bytes
  | run byte _ => ⟨#[byte]⟩
  | coded bytes => bytes

/-- The size in the three bytes: for a run how long it is, else the size of the body. -/
def stated : Block → Nat
  | stored bytes => bytes.size
  | run _ count => count
  | coded bytes => bytes.size

def content : Block → ByteArray
  | stored bytes => bytes
  | run byte count => Bytes.replicate count byte
  | coded _ => ByteArray.empty

/-- Number of bytes it stands for. -/
def size : Block → Nat
  | stored bytes => bytes.size
  | run _ count => count
  | coded _ => 0

def isCoded : Block → Bool
  | coded _ => true
  | _ => false

/-- Neither a body nor content. -/
def isVoid (b : Block) : Bool := b.body.size = 0

def write (isLast : Bool) (b : Block) : ByteArray :=
  LittleEndian.encode 3 (b.stated * 8 + b.kind * 2 + if isLast then 1 else 0) ++ b.body

/-- A run if all bytes are equal, else the bytes themselves. -/
def ofBytes (b : ByteArray) : Block :=
  if b.size = 0 then stored b
  else
    let byte := Bytes.getOrZero b 0
    if Bytes.allFrom b byte b.size 0 then run byte b.size else stored b

/-- The block at a cursor: whether it is the last, the block, and the cursor behind it. -/
def read (c : Cursor) : Option (Bool × Block × Cursor) := do
  let (head, c) ← c.take 3
  let n := LittleEndian.decode head
  let isLast := n % 2 = 1
  match n / 2 % 4 with
  | 0 =>
    let (bytes, c) ← c.take (n / 8)
    return (isLast, stored bytes, c)
  | 1 =>
    let (one, c) ← c.take 1
    return (isLast, run (UInt8.ofNat (LittleEndian.decode one)) (n / 8), c)
  | 2 =>
    let (bytes, c) ← c.take (n / 8)
    return (isLast, coded bytes, c)
  | _ => none

theorem size_content (b : Block) : b.content.size = b.size := by
  cases b with
  | stored bytes => rfl
  | run byte count => exact Bytes.size_tabulate count fun _ => byte
  | coded bytes => rfl

theorem size_ofBytes (b : ByteArray) : (ofBytes b).size = b.size := by
  simp only [ofBytes]
  split
  · rfl
  · split <;> rfl

end Block
end Screencast.Zstd
