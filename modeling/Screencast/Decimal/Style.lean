import Screencast.Decimal.Shortest

/-!
# Decimal text of doubles

A `Style` says how the shortest digits of a double are written: which of two equally near points
is taken, where positional notation ends, whether a whole number keeps its `.0`, how an exponent is
marked, and the texts of the values that are no number.
-/

namespace Screencast.Decimal

/-- How a double is written. A value below `10 ^ p` and not below `10 ^ (p - 1)` has point
position `p`; positional notation is used for `lowest < p ≤ highest`. -/
structure Style where
  lowest : Option Int
  highest : Option Int
  keepsPoint : Bool
  /-- The sign of an exponent that is not negative. -/
  exponentSign : String
  ties : Ties
  nan : String
  infinity : String
  negativeInfinity : String

/-- In messages: always positional, a whole number without its point. -/
def Style.plain : Style := ⟨none, none, false, "", .up, "NaN", "inf", "-inf"⟩

/-- In descriptions: an exponent from `1e16` and below `1e-4`, a whole number keeps `.0`. -/
def Style.described : Style := ⟨some (-4), some 16, true, "", .up, "NaN", "inf", "-inf"⟩

/-- In JSON: an exponent from `1e+16` and below `1e-5`; what is no number is `null`. -/
def Style.json : Style := ⟨some (-5), some 16, true, "+", .toEven, "null", "null", "null"⟩

/-- In TOML: always positional, a whole number keeps `.0`. -/
def Style.toml : Style := ⟨none, none, true, "", .up, "nan", "inf", "-inf"⟩

def Style.isPositional (s : Style) (p : Int) : Bool :=
  (match s.lowest with | none => true | some l => l < p) &&
  (match s.highest with | none => true | some h => p ≤ h)

/-- The digits of a number with the point at their place. -/
def positional (s : Style) (d : Digits) : String :=
  let text := toString d.digits
  let p : Int := text.length + d.exponent
  if 0 ≤ d.exponent then
    text ++ String.ofList (List.replicate d.exponent.toNat '0') ++ (if s.keepsPoint then ".0" else "")
  else if 0 < p then
    String.ofList (text.toList.take p.toNat) ++ "." ++ String.ofList (text.toList.drop p.toNat)
  else
    "0." ++ String.ofList (List.replicate (-p).toNat '0') ++ text

/-- One digit, the others behind the point, and the exponent. -/
def scientific (s : Style) (d : Digits) : String :=
  let text := toString d.digits
  let e : Int := text.length + d.exponent - 1
  let tail := String.ofList (text.toList.drop 1)
  String.ofList (text.toList.take 1) ++ (if tail.isEmpty then "" else "." ++ tail) ++ "e" ++
    (if e < 0 then "" else s.exponentSign) ++ toString e

def write (s : Style) (x : Float) : String :=
  if x.isNaN then s.nan
  else if x.isInf then (if x < 0 then s.negativeInfinity else s.infinity)
  else
    let bits := x.toBits
    let sign := if bits >>> 63 = 0 then "" else "-"
    let size := bits &&& 0x7FFFFFFFFFFFFFFF
    if size = 0 then sign ++ (if s.keepsPoint then "0.0" else "0")
    else
      let d := shortest s.ties size
      let p : Int := (toString d.digits).length + d.exponent
      sign ++ (if s.isPositional p then positional s d else scientific s d)

end Screencast.Decimal
