/-!
# Doubles by their bits

A double as it is stored and sent: all 64 bits, so that also two values that are no number can
be told apart. `toFloat` is the number meant.
-/

namespace Screencast

structure Binary64 where
  bits : UInt64
  deriving DecidableEq, Inhabited

namespace Binary64

def ofFloat (x : Float) : Binary64 := ⟨x.toBits⟩

def toFloat (x : Binary64) : Float := Float.ofBits x.bits

/-- The numbers meant are equal; what is no number equals nothing. -/
def sameNumber (a b : Binary64) : Bool := a.toFloat == b.toFloat

end Binary64
end Screencast
