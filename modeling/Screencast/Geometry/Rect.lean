import Screencast.Saturating
import Screencast.Geometry.Rotation

/-!
# Rectangles of pixels

A rectangle is its top left corner and its size, in 32-bit words; `right` and `bottom` are the
first column and row beyond it. A rectangle of no width or no height is empty, wherever it
lies. `Fits` says that the far edges are words too; `Covers` is the set of pixels.
-/

namespace Screencast

structure Rect where
  x : UInt32
  y : UInt32
  width : UInt32
  height : UInt32
  deriving DecidableEq, Inhabited, Repr

namespace Rect

def empty : Rect := ⟨0, 0, 0, 0⟩

/-- The rectangle between exclusive edges; inverted edges give `empty`. -/
def ofEdges (left top right bottom : UInt32) : Rect :=
  if right ≤ left ∨ bottom ≤ top then empty else ⟨left, top, right - left, bottom - top⟩

def isEmpty (r : Rect) : Bool := r.width == 0 || r.height == 0

def right (r : Rect) : UInt32 := r.x + r.width

def bottom (r : Rect) : UInt32 := r.y + r.height

def area (r : Rect) : Nat := r.width.toNat * r.height.toNat

/-- The far edges are words. -/
def Fits (r : Rect) : Prop := r.x.toNat + r.width.toNat < 2 ^ 32 ∧ r.y.toNat + r.height.toNat < 2 ^ 32

instance (r : Rect) : Decidable r.Fits := inferInstanceAs (Decidable (_ ∧ _))

/-- The pixel in column `px` and row `py` belongs to the rectangle. -/
def Covers (r : Rect) (px py : Nat) : Prop :=
  (r.x.toNat ≤ px ∧ px < r.x.toNat + r.width.toNat) ∧ (r.y.toNat ≤ py ∧ py < r.y.toNat + r.height.toNat)

instance (r : Rect) (px py : Nat) : Decidable (r.Covers px py) :=
  inferInstanceAs (Decidable ((_ ∧ _) ∧ (_ ∧ _)))

/-- The smallest rectangle around both; an empty operand does not count. -/
def union (a b : Rect) : Rect :=
  if a.isEmpty then b
  else if b.isEmpty then a
  else ofEdges (min a.x b.x) (min a.y b.y) (max a.right b.right) (max a.bottom b.bottom)

def intersect (a b : Rect) : Rect :=
  ofEdges (max a.x b.x) (max a.y b.y) (min a.right b.right) (min a.bottom b.bottom)

/-- The rectangle grown by `amount` on every side and cut to `bounds`. -/
def pad (r : Rect) (amount : UInt32) (bounds : Rect) : Rect :=
  if r.isEmpty then empty
  else ofEdges (max (satSub r.x amount) bounds.x) (max (satSub r.y amount) bounds.y)
    (min (satAdd r.right amount) bounds.right) (min (satAdd r.bottom amount) bounds.bottom)

/-- Where the rectangle of a `sourceWidth` by `sourceHeight` surface lies once that surface is
turned back by `rotation`. -/
def rotate (r : Rect) (rotation : Rotation) (sourceWidth sourceHeight : UInt32) : Rect :=
  match rotation with
  | .identity => r
  | .quarter => ⟨r.y, satSub sourceWidth r.right, r.height, r.width⟩
  | .half => ⟨satSub sourceWidth r.right, satSub sourceHeight r.bottom, r.width, r.height⟩
  | .threeQuarters => ⟨satSub sourceHeight r.bottom, r.x, r.height, r.width⟩

theorem isEmpty_empty : empty.isEmpty = true := rfl

theorem isEmpty_iff (r : Rect) : r.isEmpty = true ↔ r.width.toNat = 0 ∨ r.height.toNat = 0 := by
  simp only [isEmpty, Bool.or_eq_true, beq_iff_eq, ← UInt32.toNat_inj]
  rfl

theorem toNat_right {r : Rect} (h : r.Fits) : r.right.toNat = r.x.toNat + r.width.toNat := by
  rw [right, UInt32.toNat_add, Nat.mod_eq_of_lt h.1]

theorem toNat_bottom {r : Rect} (h : r.Fits) : r.bottom.toNat = r.y.toNat + r.height.toNat := by
  rw [bottom, UInt32.toNat_add, Nat.mod_eq_of_lt h.2]

end Rect

/-- The smallest rectangle around the nonempty rectangles of the list, cut to `bounds`. -/
def unionWithin (rects : List Rect) (bounds : Rect) : Rect :=
  ((rects.filter fun r => !r.isEmpty).foldl Rect.union Rect.empty).intersect bounds

end Screencast
