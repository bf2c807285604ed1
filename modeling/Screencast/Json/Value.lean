import Screencast.Decimal.Reading

/-!
# JSON values

A value as read. An object keeps every member in the order of the text, repeated names
included; what a reader does about repetition is its own affair. A string is `none` if an
escape in it names half a character, which only matters to who uses the string.
-/

namespace Screencast

/-- A JSON number by the kind its text has. -/
inductive JsonNumber where
  /-- Without sign, fraction or exponent, and below `2 ^ 64`. -/
  | natural (n : Nat)
  /-- `-n` for a positive `n` up to `2 ^ 63`. -/
  | negative (n : Nat)
  | real (x : Float)
  /-- Too large for a double. -/
  | outOfRange
  deriving DecidableEq, Inhabited

inductive Json where
  | null
  | bool (b : Bool)
  | number (n : JsonNumber)
  | string (text : Option String)
  | array (items : List Json)
  | object (members : List (Option String × Json))
  deriving Inhabited

namespace JsonNumber

/-- `significand * 10 ^ exponent` as the double that the significand, rounded, gives times or
over the rounded power of ten; `none` if too large. -/
def scaled (significand : Nat) (exponent : Int) : Option Float :=
  scale 4 (UInt64.ofNat significand).toFloat exponent
where
  /-- `f * 10 ^ exponent`, in steps of 308 downwards. -/
  scale (fuel : Nat) (f : Float) (exponent : Int) : Option Float :=
    if exponent.natAbs ≤ 308 then
      let power := Decimal.nearest 1 exponent.natAbs
      if 0 ≤ exponent then
        let product := f * power
        if product.isInf then none else some product
      else some (f / power)
    else if f == 0 then some f
    else if 0 ≤ exponent then none
    else
      match fuel with
      | 0 => some 0
      | fuel + 1 => scale fuel (f / Decimal.nearest 1 308) (exponent + 308)

def ofScaled (isNegative : Bool) (significand : Nat) (exponent : Int) : JsonNumber :=
  match scaled significand exponent with
  | none => outOfRange
  | some x => real (if isNegative then -x else x)

/-- The number of a text that has digits only: `n`, or its first digits `n` and the count of
those that did not fit 64 bits. -/
def ofWhole (isNegative : Bool) (n : Nat) (dropped : Nat) : JsonNumber :=
  if dropped ≠ 0 then ofScaled isNegative n dropped
  else if !isNegative then natural n
  else if 0 < n ∧ n ≤ 2 ^ 63 then negative n
  else real (-(UInt64.ofNat n).toFloat)

def toFloat? : JsonNumber → Option Float
  | natural n => some (UInt64.ofNat n).toFloat
  | negative n => some (-(UInt64.ofNat n).toFloat)
  | real x => some x
  | outOfRange => none

end JsonNumber
end Screencast
