import Screencast.Proofs.Decoding
import Screencast.Proofs.Transmission

/-!
# Header bytes and header values

Twenty-four bytes are 192 bits, the lowest of each byte first. A header keeps all but 47 of them:

    0      48       49        64       96         160        192
    | magic, kind | keyframe | unused | length, checksum | reserved |

Writing what was read from a byte string gives that string with the unused and the reserved bits cleared
(`toBytes_of_ofBytes`), and reading what was written gives the header (`ofBytes_toBytes`). So the accepted strings
of one header are those that agree on the other bits.
-/

namespace Screencast

/-! ### Bits of byte strings -/

namespace Bytes

/-- Bit `i`, the lowest of each byte first. -/
def bit (b : ByteArray) (i : Nat) : Bool := (getOrZero b (i / 8)).toNat.testBit (i % 8)

theorem ext_bit {a b : ByteArray} (hs : a.size = b.size) (h : ∀ i, i < 8 * a.size → bit a i = bit b i) : a = b := by
  refine ext_getOrZero hs fun i hi => UInt8.toNat_inj.mp (Nat.eq_of_testBit_eq fun k => ?_)
  by_cases hk : k < 8
  · have hbit := h (8 * i + k) (by omega)
    have hplace : (8 * i + k) / 8 = i := by omega
    have hrest : (8 * i + k) % 8 = k := by omega
    rwa [bit, bit, hplace, hrest] at hbit
  · -- A byte has no bits from the eighth on.
    have hnone (byte : UInt8) : byte.toNat.testBit k = false :=
      Nat.testBit_lt_two_pow (Nat.lt_of_lt_of_le byte.toNat_lt (Nat.pow_le_pow_right (by decide) (Nat.not_lt.mp hk)))
    rw [hnone, hnone]

theorem testBit_and_one (byte : UInt8) (k : Nat) :
    (byte &&& 1).toNat.testBit k = (byte.toNat.testBit k && decide (k = 0)) := by
  rw [UInt8.toNat_and, Nat.testBit_and]
  congr 1
  rw [Bool.eq_iff_iff, decide_eq_true_iff]
  exact Nat.testBit_one_eq_true_iff_self_eq_zero

end Bytes

open Bytes (getOrZero bit)
open LittleEndian (encode encode_decode)

namespace Header

variable {b : ByteArray} {header : Header}

/-! ### Fields -/

theorem exists_ofBytes_iff :
    (∃ header, ofBytes b = .ok header) ↔ b.extract 0 4 = magic ∧ ∃ kind : MessageKind, kind.code.toNat = field b 4 6 := by
  constructor
  · rintro ⟨header, h⟩
    have htells := tells_of_ofBytes h
    exact ⟨htells.magic, header.kind, htells.kind⟩
  · rintro ⟨hmagic, kind, hkind⟩
    obtain ⟨header, h, -⟩ := ofBytes_of_kind hmagic hkind.symm
    exact ⟨header, h⟩

/-- A number is written as the bytes that it was read from. -/
theorem encode_field (b : ByteArray) (start width : Nat) (h : start + width ≤ b.size) :
    encode width (field b start (start + width)) = b.extract start (start + width) := by
  have hsize : (b.extract start (start + width)).size = width := by
    rw [ByteArray.size_extract, Nat.min_eq_left h, Nat.add_sub_cancel_left]
  have hbytes := encode_decode (b.extract start (start + width))
  rwa [hsize] at hbytes

/-- A number of two bytes has the low one first. -/
theorem field_pair {start : Nat} (h : start + 2 ≤ b.size) :
    field b start (start + 2) = (getOrZero b start).toNat + 256 * (getOrZero b (start + 1)).toNat := by
  have hbytes : b.extract start (start + 2) = ⟨#[getOrZero b start, getOrZero b (start + 1)]⟩ := by
    refine Bytes.ext_getOrZero ?_ fun i hi => ?_
    · rw [ByteArray.size_extract, Nat.min_eq_left h, Nat.add_sub_cancel_left]
      rfl
    · rw [ByteArray.size_extract, Nat.min_eq_left h, Nat.add_sub_cancel_left] at hi
      rw [Bytes.getOrZero_extract (by omega) h]
      match i, hi with
      | 0, _ => rfl
      | 1, _ => rfl
  rw [field, hbytes]
  rfl

/-! ### The bits that are kept -/

/-- A header with its unused flags and its reserved bytes cleared. -/
def cleared (b : ByteArray) : ByteArray :=
  b.extract 0 6 ++ ⟨#[getOrZero b 6 &&& 1, 0]⟩ ++ b.extract 8 20 ++ ⟨#[0, 0, 0, 0]⟩

/-- The unused flags are the bits from 49 to 63, the reserved bytes those from 160 on. -/
def IsIgnored (i : Nat) : Prop := 49 ≤ i ∧ i < 64 ∨ 160 ≤ i

instance (i : Nat) : Decidable (IsIgnored i) := inferInstanceAs (Decidable (49 ≤ i ∧ i < 64 ∨ 160 ≤ i))

theorem size_cleared (hb : b.size = size) : (cleared b).size = size := by
  have hsize : size = 24 := rfl
  simp only [cleared, ByteArray.size_append, ByteArray.size_extract]
  show min 6 b.size - 0 + 2 + (min 20 b.size - 8) + 4 = size
  omega

theorem getOrZero_cleared (hb : b.size = size) {i : Nat} (hi : i < size) :
    getOrZero (cleared b) i =
      if i = 6 then getOrZero b 6 &&& 1 else if i = 7 ∨ 20 ≤ i then 0 else getOrZero b i := by
  have hsize : size = 24 := rfl
  have hfront : (b.extract 0 6).size = 6 := by
    rw [ByteArray.size_extract]
    omega
  have hmid : (b.extract 8 20).size = 12 := by
    rw [ByteArray.size_extract]
    omega
  have hflags : (⟨#[getOrZero b 6 &&& 1, 0]⟩ : ByteArray).size = 2 := rfl
  simp only [cleared, Bytes.getOrZero_append, ByteArray.size_append, hfront, hmid, hflags]
  -- One case for each of the four pieces, and the two bytes of the flags apart.
  have hcases : i < 6 ∨ i = 6 ∨ i = 7 ∨ 8 ≤ i ∧ i < 20 ∨ 20 ≤ i := by omega
  rcases hcases with hlt | rfl | rfl | ⟨hge, hlt⟩ | hge
  · rw [if_pos (by omega), if_pos (by omega), if_pos hlt, Bytes.getOrZero_extract (by omega) (by omega), Nat.zero_add,
      if_neg (by omega), if_neg (by omega)]
  · rfl
  · rfl
  · rw [if_pos (by omega), if_neg (by omega), Bytes.getOrZero_extract (by omega) (by omega), if_neg (by omega),
      if_neg (by omega), show 8 + (i - (6 + 2)) = i by omega]
  · rw [if_neg (by omega), if_neg (by omega), if_pos (.inr hge)]
    obtain ⟨k, rfl⟩ := Nat.exists_eq_add_of_le hge
    have hk : k < 4 := by omega
    match k, hk with
    | 0, _ | 1, _ | 2, _ | 3, _ => rfl

theorem bit_cleared (hb : b.size = size) {i : Nat} (hi : i < 8 * size) :
    bit (cleared b) i = (bit b i && !decide (IsIgnored i)) := by
  have hsize : size = 24 := rfl
  rw [bit, getOrZero_cleared hb (by omega), bit]
  -- The byte of which one flag is kept, the bytes that are cleared, and all others.
  split
  · rename_i hflags
    rw [Bytes.testBit_and_one, hflags]
    congr 1
    rw [← decide_not, decide_eq_decide, IsIgnored]
    omega
  · split
    · have hignored : IsIgnored i := by rw [IsIgnored]; omega
      rw [decide_eq_true hignored, Bool.not_true, Bool.and_false]
      exact Nat.zero_testBit _
    · have hkept : ¬IsIgnored i := by rw [IsIgnored]; omega
      rw [decide_eq_false hkept, Bool.not_false, Bool.and_true]

/-- Of the two bytes of the flags the lowest bit remains. -/
theorem encode_flags (hb : 8 ≤ b.size) :
    encode 2 (UInt16.ofNat (field b 6 8) &&& keyframe).toNat = ⟨#[getOrZero b 6 &&& 1, 0]⟩ := by
  have hlow : (UInt16.ofNat (field b 6 8) &&& keyframe).toNat = (getOrZero b 6 &&& 1).toNat := by
    have hkeyframe : keyframe.toNat = 1 := rfl
    rw [UInt16.toNat_and, hkeyframe, UInt16.toNat_ofNat_of_lt' (field_lt b 6 8), field_pair hb, UInt8.toNat_and,
      show (1 : UInt8).toNat = 1 from rfl, Nat.and_one_is_mod, Nat.and_one_is_mod]
    omega
  have hbyte := (getOrZero b 6 &&& 1).toNat_lt
  rw [hlow, encode, LittleEndian.digits, LittleEndian.digits, LittleEndian.digits, UInt8.ofNat_toNat,
    Nat.div_eq_of_lt hbyte]
  rfl

theorem toBytes_of_ofBytes (hb : b.size = size) (h : ofBytes b = .ok header) : header.toBytes = cleared b := by
  obtain ⟨hmagic, hkind, hflags, hlength, hchecksum⟩ := tells_of_ofBytes h
  have hsize : size = 24 := rfl
  have hkindBytes : encode 2 (field b 4 6) = b.extract 4 6 := encode_field b 4 2 (by omega)
  have hflagBytes := encode_flags (b := b) (by omega)
  have hlengthBytes : encode 4 (field b 8 12) = b.extract 8 12 := encode_field b 8 4 (by omega)
  have hchecksumBytes : encode 8 (field b 12 20) = b.extract 12 20 := encode_field b 12 8 (by omega)
  have hfront : b.extract 0 4 ++ b.extract 4 6 = b.extract 0 6 :=
    (ByteArray.extract_eq_extract_append_extract 4 (by decide) (by decide)).symm
  have hnumbers : b.extract 8 12 ++ b.extract 12 20 = b.extract 8 20 :=
    (ByteArray.extract_eq_extract_append_extract 12 (by decide) (by decide)).symm
  calc header.toBytes
      = b.extract 0 4 ++ b.extract 4 6 ++ ⟨#[getOrZero b 6 &&& 1, 0]⟩ ++ b.extract 8 12 ++ b.extract 12 20 ++
          ⟨#[0, 0, 0, 0]⟩ := by
        rw [toBytes, ← hmagic, hkind, hflags, hlength, hchecksum, hflagBytes,
          hkindBytes, hlengthBytes, hchecksumBytes]
        rfl
    _ = cleared b := by rw [hfront, ByteArray.append_assoc (b := b.extract 8 12), hnumbers, cleared]

/-! ### Headers of the same bytes -/

theorem flags_of_ofBytes (h : ofBytes b = .ok header) : header.flags &&& keyframe = header.flags := by
  rw [(tells_of_ofBytes h).flags, UInt16.and_assoc, UInt16.and_self]

/-- A header that sets no other flag is read back. -/
theorem ofBytes_toBytes_known (h : header.flags &&& keyframe = header.flags) : ofBytes header.toBytes = .ok header := by
  have hread := ofBytes_toBytes header ByteArray.empty
  rwa [ByteArray.append_empty, h] at hread

theorem toBytes_inj {other : Header} (h : header.flags &&& keyframe = header.flags)
    (hother : other.flags &&& keyframe = other.flags) : header.toBytes = other.toBytes ↔ header = other := by
  constructor
  · intro heq
    have hread := ofBytes_toBytes_known h
    rw [heq, ofBytes_toBytes_known hother] at hread
    exact (Except.ok.inj hread).symm
  · rintro rfl
    rfl

theorem cleared_eq_iff {other : ByteArray} (hb : b.size = size) (hother : other.size = size) :
    cleared b = cleared other ↔ ∀ i, i < 8 * size → bit b i ≠ bit other i → IsIgnored i := by
  constructor
  · intro heq i hi hne
    refine Decidable.byContradiction fun hkept => ?_
    have hbit := bit_cleared hb hi
    rw [heq, bit_cleared hother hi, decide_eq_false hkept, Bool.not_false, Bool.and_true, Bool.and_true] at hbit
    exact hne hbit.symm
  · intro hagree
    refine Bytes.ext_bit ((size_cleared hb).trans (size_cleared hother).symm) fun i hi => ?_
    rw [size_cleared hb] at hi
    rw [bit_cleared hb hi, bit_cleared hother hi]
    by_cases hignored : IsIgnored i
    · rw [decide_eq_true hignored, Bool.not_true, Bool.and_false, Bool.and_false]
    · have hsame : bit b i = bit other i := Decidable.byContradiction fun hne => hignored (hagree i hi hne)
      rw [hsame]

/-- Twenty-four bytes are accepted if and only if they start with `DKC1` and the two bytes after it are the code of a
kind. The header that is read is written with all ignored bits cleared and all other bits as they were; a header that
sets no unknown flag is read back from what it writes; and two accepted byte strings have one header if and only if
they differ in ignored bits only. -/
theorem ofBytes_exact {b other : ByteArray} {header : Header} (hb : b.size = size) (hother : other.size = size)
    (hflags : header.flags &&& keyframe = header.flags) :
    ((∃ read, ofBytes b = .ok read) ↔
        b.extract 0 4 = "DKC1".toUTF8 ∧
          ∃ kind : MessageKind, kind.code.toNat = (getOrZero b 4).toNat + 256 * (getOrZero b 5).toNat) ∧
      (∀ read, ofBytes b = .ok read → read.toBytes = cleared b) ∧
      ofBytes header.toBytes = .ok header ∧
      ∀ read otherRead, ofBytes b = .ok read → ofBytes other = .ok otherRead →
        (read = otherRead ↔ ∀ i, i < 8 * size → bit b i ≠ bit other i → IsIgnored i) := by
  have hsize : size = 24 := rfl
  have hmagic : "DKC1".toUTF8 = magic := rfl
  refine ⟨?_, fun read => toBytes_of_ofBytes hb, ofBytes_toBytes_known hflags, fun read otherRead h h' => ?_⟩
  · rw [exists_ofBytes_iff, hmagic, field_pair (by omega)]
  · rw [← toBytes_inj (flags_of_ofBytes h) (flags_of_ofBytes h'), toBytes_of_ofBytes hb h, toBytes_of_ofBytes hother h',
      cleared_eq_iff hb hother]

/-- A keyframe with all flags set and reserved bytes in use, and the same header as it is written. -/
theorem ofBytes_exact_unused_bits :
    let b : ByteArray := ⟨#[0x44, 0x4B, 0x43, 0x31, 1, 0, 0xFF, 0xFF, 3, 0, 0, 0, 1, 2, 3, 4, 5, 6, 7, 0x88, 9, 8, 7, 6]⟩
    let other : ByteArray :=
      ⟨#[0x44, 0x4B, 0x43, 0x31, 1, 0, 1, 0, 3, 0, 0, 0, 1, 2, 3, 4, 5, 6, 7, 0x88, 0, 0, 0, 0]⟩
    let header : Header := ⟨.region, keyframe, 3, 0x8807060504030201⟩
    b.size = size ∧ other.size = size ∧ header.flags &&& keyframe = header.flags ∧
      (∀ i, i < 8 * size → bit b i ≠ bit other i → IsIgnored i) ∧
      ofBytes b = .ok header ∧ ofBytes other = .ok header ∧ header.toBytes = cleared b := by
  intro b other header
  have hb : b.size = size := rfl
  have hother : other.size = size := rfl
  have hflags : header.flags &&& keyframe = header.flags := UInt16.and_self
  have hbits : ∀ i, i < 8 * size → bit b i ≠ bit other i → IsIgnored i := by decide +kernel
  have hlaid : header.toBytes = other := by decide +kernel
  obtain ⟨haccepted, hwritten, hback, hsame⟩ := ofBytes_exact hb hother hflags
  rw [hlaid] at hback
  obtain ⟨read, hread⟩ := haccepted.mpr ⟨by decide +kernel, .region, by decide +kernel⟩
  have heq : read = header := (hsame read header hread hback).mpr hbits
  rw [heq] at hread
  exact ⟨hb, hother, hflags, hbits, hread, hback, hwritten header hread⟩

end Header
end Screencast
