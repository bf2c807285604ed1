import Screencast.Instances

/-!
# Little-endian numbers

`digits w n` is `n` in `w` bytes, the least significant first, and `value` reads such bytes.
`value_digits` and `digits_value` are the two round trips.
-/

namespace Screencast.LittleEndian

/-- The `w` low bytes of `n`, least significant first. -/
def digits : (w n : Nat) → List UInt8
  | 0, _ => []
  | w + 1, n => UInt8.ofNat n :: digits w (n / 256)

def value : List UInt8 → Nat
  | [] => 0
  | b :: rest => b.toNat + 256 * value rest

theorem length_digits (w n : Nat) : (digits w n).length = w := by
  induction w generalizing n with
  | zero => rfl
  | succ w ih => rw [digits, List.length_cons, ih]

theorem value_digits (w n : Nat) : value (digits w n) = n % 256 ^ w := by
  induction w generalizing n with
  | zero => rw [digits, value, Nat.pow_zero, Nat.mod_one]
  | succ w ih =>
    have hb : (UInt8.ofNat n).toNat = n % 256 := UInt8.toNat_ofNat'
    rw [digits, value, ih, hb, Nat.pow_succ']
    exact Nat.mod_mul.symm

theorem value_lt (l : List UInt8) : value l < 256 ^ l.length := by
  induction l with
  | nil => exact Nat.one_pos
  | cons b rest ih =>
    have hb := b.toNat_lt
    rw [value, List.length_cons, Nat.pow_succ]
    omega

theorem digits_value (l : List UInt8) : digits l.length (value l) = l := by
  induction l with
  | nil => rfl
  | cons b rest ih =>
    have hb := b.toNat_lt
    rw [List.length_cons, value, digits, Nat.add_mul_div_left _ _ (by decide),
      Nat.div_eq_of_lt (by omega), Nat.zero_add, ih]
    congr 1
    apply UInt8.toNat_inj.mp
    rw [UInt8.toNat_ofNat', Nat.add_mul_mod_self_left, Nat.mod_eq_of_lt (by omega)]

def encode (w n : Nat) : ByteArray := (digits w n).toByteArray

theorem size_encode (w n : Nat) : (encode w n).size = w := by
  rw [encode, List.size_toByteArray, length_digits]

/-- The number that a byte string holds. -/
def decode (b : ByteArray) : Nat := value b.data.toList

theorem decode_encode (w n : Nat) : decode (encode w n) = n % 256 ^ w := by
  rw [decode, encode, List.data_toByteArray, List.toList_toArray, value_digits]

theorem encode_decode (b : ByteArray) : encode b.size (decode b) = b := by
  have h := digits_value b.data.toList
  rw [Array.length_toList, ByteArray.size_data] at h
  rw [encode, decode, h]
  ext1
  rw [List.data_toByteArray, Array.toArray_toList]

theorem decode_lt (b : ByteArray) : decode b < 256 ^ b.size := by
  have h := value_lt b.data.toList
  rwa [Array.length_toList, ByteArray.size_data] at h

end Screencast.LittleEndian
