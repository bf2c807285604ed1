import Screencast.Bytes.Binary64
import Screencast.Geometry.Area

/-!
# Displays

One attached display. The device name is its identity; everything else may change from one
enumeration to the next.
-/

namespace Screencast

structure Display where
  /-- The name the system knows it by. -/
  name : String
  /-- The name people know it by. -/
  label : String
  area : Area
  isPrimary : Bool
  /-- Scale of its text, 1 for none. -/
  scale : Binary64
  deriving DecidableEq, Inhabited

namespace Display

/-- All fields agree, scales as numbers; a scale that is no number agrees with nothing. -/
def same (a b : Display) : Bool :=
  a.name == b.name && a.label == b.label && a.area == b.area && a.isPrimary == b.isPrimary
    && a.scale.sameNumber b.scale

def sameList : List Display → List Display → Bool
  | [], [] => true
  | a :: as, b :: bs => a.same b && sameList as bs
  | _, _ => false

/-- The viewer's position on the display, each axis from 0 to 1, on the virtual desktop.
Fractions are cut off, and what does not fit a coordinate stops at the nearest one. -/
def toAbsolute (d : Display) (percentX percentY : Float) : Int32 × Int32 :=
  let x := Float.ofInt d.area.left.toInt + d.area.width.toFloat * percentX
  let y := Float.ofInt d.area.top.toInt + d.area.height.toFloat * percentY
  (x.toInt32, y.toInt32)

end Display
end Screencast
