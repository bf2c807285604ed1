/-!
# Areas of the virtual desktop

Where a display lies among the others. The near edges are signed words, since a display may
lie left of the primary one; the far edges need one bit more and are integers.
-/

namespace Screencast

/-- Placement of a display on the virtual desktop. -/
structure Area where
  left : Int32
  top : Int32
  width : UInt32
  height : UInt32
  deriving DecidableEq, Inhabited

namespace Area

/-- The area of no size at the origin. -/
def zero : Area := ⟨0, 0, 0, 0⟩

def right (a : Area) : Int := a.left.toInt + a.width.toNat

def bottom (a : Area) : Int := a.top.toInt + a.height.toNat

/-- The smallest area around both. The span is kept modulo the word size. -/
def union (a b : Area) : Area :=
  let left := min a.left b.left
  let top := min a.top b.top
  ⟨left, top,
    UInt32.ofNat (max a.right b.right - left.toInt).toNat,
    UInt32.ofNat (max a.bottom b.bottom - top.toInt).toNat⟩

/-- The smallest area around all of a list, `zero` for none. -/
def span : List Area → Area
  | [] => zero
  | a :: rest => rest.foldl union a

end Area
end Screencast
