/-!
# Hexadecimal text

Two lower-case digits for every byte. Either case is read.
-/

namespace Screencast.Bytes

/-- The digit of a value below 16. -/
def hexDigit (n : Nat) : Char := Nat.digitChar n

def hexValue? (c : Char) : Option Nat :=
  if '0' ≤ c ∧ c ≤ '9' then some (c.toNat - '0'.toNat)
  else if 'a' ≤ c ∧ c ≤ 'f' then some (c.toNat - 'a'.toNat + 10)
  else if 'A' ≤ c ∧ c ≤ 'F' then some (c.toNat - 'A'.toNat + 10)
  else none

def toHex (b : ByteArray) : String :=
  b.foldl (fun s x => (s.push (hexDigit (x.toNat / 16))).push (hexDigit (x.toNat % 16))) ""

/-- The bytes of pairs of digits, behind `acc`. -/
def ofHexFrom : List Char → ByteArray → Option ByteArray
  | [], acc => some acc
  | [_], _ => none
  | a :: b :: rest, acc =>
    match hexValue? a, hexValue? b with
    | some high, some low => ofHexFrom rest (acc.push (UInt8.ofNat (high * 16 + low)))
    | _, _ => none

/-- The bytes that a text of hexadecimal digits stands for. -/
def ofHex? (s : String) : Option ByteArray := ofHexFrom s.toList ByteArray.empty

end Screencast.Bytes
