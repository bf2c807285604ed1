import Screencast.Settings.Basic

/-!
# The quality rule

One step of the control of quality by throughput. Above the target, quality falls at once to the
present one times target over reading; otherwise it rises, by one step at most, towards the
standard one. The rule is stated over any `Reckoning`, so that the doubles of the program and the
exact fractions of an argument about it obey the same text.
-/

namespace Screencast

class Reckoning (α : Type) where
  ofQuality : UInt8 → α
  isPositive : α → Bool
  /-- The first is the larger. -/
  exceeds : α → α → Bool
  /-- The first over the second, times the third. -/
  ratioTimes : α → α → α → α
  /-- The whole part, kept within a byte; zero for what is no number. -/
  toQuality : α → UInt8

instance : Reckoning Float where
  ofQuality q := q.toFloat
  isPositive x := 0.0 < x
  exceeds x y := y < x
  ratioTimes x y z := x / y * z
  toQuality x := x.toUInt8

instance : Reckoning Rat where
  ofQuality q := q.toNat
  isPositive x := 0 < x
  exceeds x y := y < x
  ratioTimes x y z := x / y * z
  toQuality x := UInt8.ofNat (min x.floor.toNat 255)

/-- The settings that the rule looks at. -/
structure QualityRule (α : Type) where
  target : α
  standard : UInt8
  minimum : UInt8
  /-- Largest rise in one step. -/
  step : UInt8

def BandwidthSettings.qualityRule (s : BandwidthSettings) : QualityRule Float :=
  ⟨s.targetMbps, s.defaultQuality, s.minimumQuality, s.qualityStep⟩

namespace QualityRule

variable {α : Type} [Reckoning α]

/-- The highest quality: the standard one, if that is not below the minimum. -/
def ceiling (r : QualityRule α) : UInt8 := max r.standard r.minimum

/-- The quality that the reading asks for, before the bounds. -/
def goal (r : QualityRule α) (current : UInt8) (reading : α) : UInt8 :=
  if Reckoning.isPositive reading then
    let base := if Reckoning.exceeds reading r.target then current else r.ceiling
    Reckoning.toQuality (Reckoning.ratioTimes r.target reading (Reckoning.ofQuality base))
  else r.ceiling

/-- The sum, or the largest byte if the sum does not fit. -/
def raised (q step : UInt8) : UInt8 := if q.toNat + step.toNat < 256 then q + step else 255

def next (r : QualityRule α) (quality : UInt8) (reading : α) : UInt8 :=
  let current := min (max quality r.minimum) r.ceiling
  let goal := r.goal current reading
  if goal < current then max goal r.minimum
  else min (raised current r.step) (min goal r.ceiling)

/-- The qualities after each of the readings. -/
def run (r : QualityRule α) (quality : UInt8) : List α → List UInt8
  | [] => []
  | reading :: rest => r.next quality reading :: run r (r.next quality reading) rest

end QualityRule
end Screencast
