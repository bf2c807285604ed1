/-!
# Quarter turns

The turn a display output is mounted with. Angles add modulo a full turn.
-/

namespace Screencast

/-- How far an output's picture is turned, in quarters. -/
inductive Rotation where
  | identity
  | quarter
  | half
  | threeQuarters
  deriving DecidableEq, Inhabited, Repr

namespace Rotation

/-- Number of quarter turns, 0 to 3. -/
def quarters : Rotation → Nat
  | identity => 0
  | quarter => 1
  | half => 2
  | threeQuarters => 3

def ofQuarters (n : Nat) : Rotation :=
  match n % 4 with
  | 0 => identity
  | 1 => quarter
  | 2 => half
  | _ => threeQuarters

def add (a b : Rotation) : Rotation := ofQuarters (a.quarters + b.quarters)

instance : Add Rotation := ⟨add⟩

/-- A turn that swaps width and height. -/
def isSideways : Rotation → Bool
  | quarter | threeQuarters => true
  | identity | half => false

theorem ofQuarters_quarters (r : Rotation) : ofQuarters r.quarters = r := by cases r <;> rfl

end Rotation
end Screencast
