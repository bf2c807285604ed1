import Screencast.Instances

/-!
# Shortest decimals

The fewest decimal digits that read back as a given double. A positive finite double is
`m * 2 ^ q`; the reals that round to it form an interval around it, ends included exactly when
`m` is even. For one digit, two digits and so on, the decimal grid of that many digits is
searched at its two points next to the value; the first grid with a point in the interval wins,
and of two points the nearer. A value in the middle between two points goes as `Ties` says. All
comparisons are between natural numbers.
-/

namespace Screencast.Decimal

/-- `digits * 10 ^ exponent`. -/
structure Digits where
  digits : Nat
  exponent : Int
  deriving DecidableEq, Inhabited

/-- Where a value goes that lies in the middle between two points of a grid. -/
inductive Ties where
  /-- To the larger point. -/
  | up
  /-- To the point with the even last digit. -/
  | toEven
  deriving DecidableEq, Inhabited

/-- The reals that round to one double, as quotients over `den`. -/
structure Interval where
  low : Nat
  value : Nat
  high : Nat
  den : Nat
  closed : Bool

/-- The interval of the positive finite double with these bits. -/
def Interval.ofBits (bits : UInt64) : Interval :=
  let field := (bits >>> 52).toNat % 2048
  let fraction := bits.toNat % 2 ^ 52
  let m := if field = 0 then fraction else 2 ^ 52 + fraction
  let q : Int := (if field = 0 then 1 else (field : Int)) - 1075
  let below := if fraction = 0 ∧ 1 < field then 1 else 2
  let up := 2 ^ q.toNat
  ⟨(4 * m - below) * up, 4 * m * up, (4 * m + 2) * up, 4 * 2 ^ (-q).toNat, m % 2 = 0⟩

/-- The grid point `d * 10 ^ e` rounds to the interval's double. -/
def Interval.holds (i : Interval) (d : Nat) (e : Int) : Bool :=
  let point := d * 10 ^ e.toNat * i.den
  let scale := 10 ^ (-e).toNat
  if i.closed then i.low * scale ≤ point && point ≤ i.high * scale
  else i.low * scale < point && point < i.high * scale

/-- The grid point of exponent `e` at or below the value. -/
def Interval.floor (i : Interval) (e : Int) : Nat :=
  i.value * 10 ^ (-e).toNat / (i.den * 10 ^ e.toNat)

/-- A value in the middle between `d` and `d + 1` goes to `d + 1`. -/
def Ties.roundsUp (ties : Ties) (d : Nat) : Bool :=
  match ties with
  | .up => true
  | .toEven => d % 2 = 1

/-- The value is nearer to `(d + 1) * 10 ^ e` than to `d * 10 ^ e`, or as near and the tie goes up. -/
def Interval.roundsUp (i : Interval) (ties : Ties) (d : Nat) (e : Int) : Bool :=
  let twice := 2 * i.value * 10 ^ (-e).toNat
  let middle := (2 * d + 1) * 10 ^ e.toNat * i.den
  middle < twice || (middle = twice && ties.roundsUp d)

/-- The winning point of the grid of exponent `e`, if it has one. -/
def Interval.onGrid (i : Interval) (ties : Ties) (e : Int) : Option Nat :=
  let d := i.floor e
  match i.holds d e, i.holds (d + 1) e with
  | true, true => some (if i.roundsUp ties d e then d + 1 else d)
  | true, false => some d
  | false, true => some (d + 1)
  | false, false => none

/-- Number of decimal digits, at least one. -/
def width (n : Nat) : Nat := (Nat.toDigits 10 n).length

/-- The exponent of the grid whose points have one digit at the value's size. -/
def Interval.leading (i : Interval) : Int :=
  if i.den ≤ i.value then (width (i.value / i.den) : Int) - 1
  else -(((List.range 330).find? fun j => i.den ≤ i.value * 10 ^ j).getD 330 : Int)

def Digits.strip (fuel : Nat) (d : Digits) : Digits :=
  match fuel with
  | 0 => d
  | fuel + 1 => if d.digits ≠ 0 ∧ d.digits % 10 = 0 then strip fuel ⟨d.digits / 10, d.exponent + 1⟩ else d

/-- The shortest digits of the positive finite double with these bits. -/
def shortest (ties : Ties) (bits : UInt64) : Digits :=
  let i := Interval.ofBits bits
  let top := i.leading
  let point := (List.range 18).findSome? fun n : Nat => (i.onGrid ties (top - n)).map fun d => Digits.mk d (top - n)
  Digits.strip 20 (point.getD ⟨0, 0⟩)

end Screencast.Decimal
