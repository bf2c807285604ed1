import Screencast.Decimal.Shortest

/-!
# Reading decimals

The double nearest to `m * 10 ^ e`. A number far outside the range of doubles is answered
without building its power of ten.
-/

namespace Screencast.Decimal

/-- The double nearest to `m * 10 ^ e`. -/
def nearest (m : Nat) (e : Int) : Float :=
  if m = 0 then 0
  else
    let size : Int := width m + e
    if 310 < size then Float.ofScientific 1 false 400
    else if size < -330 then 0
    else if 0 ≤ e then Float.ofScientific m false e.toNat
    else Float.ofScientific m true (-e).toNat

end Screencast.Decimal
