import Screencast.Instances

/-!
# Checksums

The checksum of a body is the first eight bytes of its BLAKE3 hash, read little-endian. The
hash cuts the input into chunks of 1024 bytes, compresses each block by block into a chaining
value, and joins the chunks pairwise in a tree whose left side is the largest full one.
-/

namespace Screencast.Checksum

/-- Eight words that stand for everything hashed so far. -/
abbrev Chain := Array UInt32

def initialChain : Chain :=
  #[0x6A09E667, 0xBB67AE85, 0x3C6EF372, 0xA54FF53A, 0x510E527F, 0x9B05688C, 0x1F83D9AB, 0x5BE0CD19]

/-- The order in which the next round takes the message words. -/
def permutation : Array Nat := #[2, 6, 3, 10, 7, 0, 4, 13, 1, 11, 12, 5, 9, 14, 15, 8]

def chunkStart : UInt32 := 1

def chunkEnd : UInt32 := 2

def parent : UInt32 := 4

def root : UInt32 := 8

def rotateRight (w : UInt32) (n : UInt32) : UInt32 := (w >>> n) ||| (w <<< (32 - n))

/-- Mixes two message words into four words of the state. -/
def mix (v : Array UInt32) (a b c d : Nat) (x y : UInt32) : Array UInt32 :=
  let va := v.getD a 0 + v.getD b 0 + x
  let vd := rotateRight (v.getD d 0 ^^^ va) 16
  let vc := v.getD c 0 + vd
  let vb := rotateRight (v.getD b 0 ^^^ vc) 12
  let va := va + vb + y
  let vd := rotateRight (vd ^^^ va) 8
  let vc := vc + vd
  let vb := rotateRight (vb ^^^ vc) 7
  (((v.setIfInBounds a va).setIfInBounds b vb).setIfInBounds c vc).setIfInBounds d vd

/-- One round: the columns, then the diagonals. -/
def round (v m : Array UInt32) : Array UInt32 :=
  let w (i : Nat) : UInt32 := m.getD i 0
  let v := mix v 0 4 8 12 (w 0) (w 1)
  let v := mix v 1 5 9 13 (w 2) (w 3)
  let v := mix v 2 6 10 14 (w 4) (w 5)
  let v := mix v 3 7 11 15 (w 6) (w 7)
  let v := mix v 0 5 10 15 (w 8) (w 9)
  let v := mix v 1 6 11 12 (w 10) (w 11)
  let v := mix v 2 7 8 13 (w 12) (w 13)
  mix v 3 4 9 14 (w 14) (w 15)

def rounds : (n : Nat) → (v m : Array UInt32) → Array UInt32
  | 0, v, _ => v
  | n + 1, v, m => rounds n (round v m) (permutation.map fun i => m.getD i 0)

def compress (chain : Chain) (block : Array UInt32) (counter : UInt64) (size flags : UInt32) : Chain :=
  let v := chain ++ initialChain.extract 0 4 ++
    #[counter.toUInt32, (counter >>> 32).toUInt32, size, flags]
  let v := rounds 7 v block
  (Array.range 8).map fun i => v.getD i 0 ^^^ v.getD (i + 8) 0

/-- The byte at `i`, zero beyond the end. -/
def byteOrZero (b : ByteArray) (i : Nat) : UInt32 := if h : i < b.size then b[i].toUInt32 else 0

/-- The sixteen words of the block at `start`, bytes from `stop` on read as zero. -/
def blockWords (b : ByteArray) (start stop : Nat) : Array UInt32 :=
  (Array.range 16).map fun i =>
    let word (k : Nat) : UInt32 := if start + 4 * i + k < stop then byteOrZero b (start + 4 * i + k) else 0
    word 0 ||| (word 1 <<< 8) ||| (word 2 <<< 16) ||| (word 3 <<< 24)

/-- Blocks of a chunk that lies between `start` and `stop`, the first `isFirst`; `last` is added
to the flags of the final block. -/
def chunkFrom (b : ByteArray) (stop : Nat) (counter : UInt64) (last : UInt32) :
    (fuel start : Nat) → (isFirst : Bool) → Chain → Chain
  | 0, _, _, chain => chain
  | fuel + 1, start, isFirst, chain =>
    let size := min 64 (stop - start)
    let isLast := stop ≤ start + 64
    let flags := (if isFirst then chunkStart else 0) ||| (if isLast then chunkEnd ||| last else 0)
    let chain := compress chain (blockWords b start stop) counter (UInt32.ofNat size) flags
    if isLast then chain else chunkFrom b stop counter last fuel (start + 64) false chain

/-- The chaining value of the `index`-th chunk. -/
def chunk (b : ByteArray) (index : Nat) (last : UInt32) : Chain :=
  chunkFrom b (min b.size (index * 1024 + 1024)) (UInt64.ofNat index) last 16 (index * 1024) true initialChain

/-- The chaining value of two joined subtrees. -/
def join (left right : Chain) (last : UInt32) : Chain :=
  compress initialChain (left ++ right) 0 64 (parent ||| last)

/-- The largest power of two below `n`, for `1 < n`. -/
def leftSize (n : Nat) : Nat := 2 ^ Nat.log2 (n - 1)

/-- The chaining value of `count` chunks from `first` on; `fuel` bounds the depth. -/
def tree (b : ByteArray) : (fuel first count : Nat) → (last : UInt32) → Chain
  | 0, first, _, last => chunk b first last
  | fuel + 1, first, count, last =>
    if count ≤ 1 then chunk b first last
    else
      let left := leftSize count
      join (tree b fuel first left 0) (tree b fuel (first + left) (count - left) 0) last

/-- The first eight words of the hash. -/
def hash (b : ByteArray) : Chain :=
  let count := max 1 ((b.size + 1023) / 1024)
  tree b (Nat.log2 count + 1) 0 count root

def ofBytes (b : ByteArray) : UInt64 :=
  let h := hash b
  (h.getD 0 0).toUInt64 ||| ((h.getD 1 0).toUInt64 <<< 32)

end Screencast.Checksum
