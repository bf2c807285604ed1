/-!
# Reading a byte string from front to back

A cursor is a byte string and a place in it. `take` cuts the next bytes off, or fails if fewer
are left. `rest` is what is still to be read; the laws of `take` are stated by it.
-/

namespace Screencast

structure Cursor where
  bytes : ByteArray
  pos : Nat

namespace Cursor

def start (b : ByteArray) : Cursor := ⟨b, 0⟩

def rest (c : Cursor) : ByteArray := c.bytes.extract c.pos c.bytes.size

/-- The next `n` bytes and the cursor behind them. -/
def take (c : Cursor) (n : Nat) : Option (ByteArray × Cursor) :=
  if c.pos + n ≤ c.bytes.size then some (c.bytes.extract c.pos (c.pos + n), ⟨c.bytes, c.pos + n⟩)
  else none

theorem rest_start (b : ByteArray) : (start b).rest = b := ByteArray.extract_zero_size

theorem take_eq_some {c c' : Cursor} {n : Nat} {b : ByteArray} (h : c.take n = some (b, c')) :
    c.rest = b ++ c'.rest ∧ b.size = n := by
  unfold take at h
  split at h
  · rename_i hle
    cases h
    constructor
    · exact ByteArray.extract_eq_extract_append_extract (c.pos + n) (by omega) hle
    · rw [ByteArray.size_extract]; omega
  · cases h

/-- `take` succeeds exactly when that many bytes are left. -/
theorem take_isSome_iff (c : Cursor) (n : Nat) (h : c.pos ≤ c.bytes.size) :
    (c.take n).isSome = true ↔ n ≤ c.rest.size := by
  unfold take
  rw [rest, ByteArray.size_extract]
  split
  · simp only [Option.isSome_some, true_iff]; omega
  · simp only [Option.isSome_none, Bool.false_eq_true, false_iff]; omega

end Cursor
end Screencast
