import Screencast.Settings.Basic

/-!
# Marks in time

What happened when, and how large it was. Marks are added at the new end of a series and pruned
from the old end, up to the first that is young enough. `Series.within` is the part of a series
that a trailing window shows.
-/

namespace Screencast

/-- Something of a size that happened at a time. -/
structure Mark where
  time : Micros
  size : Nat
  deriving DecidableEq, Inhabited

/-- The mark lies further back than the window reaches. -/
def Mark.isExpired (m : Mark) (now window : Micros) : Bool := window < now - m.time

/-- Marks, the newest first. -/
abbrev Series := List Mark

namespace Series

def add (s : Series) (time : Micros) (size : Nat) : Series := ⟨time, size⟩ :: s

/-- The series without the expired marks at its old end. -/
def prune (s : Series) (now window : Micros) : Series :=
  (s.reverse.dropWhile fun m => m.isExpired now window).reverse

def within (s : Series) (now window : Micros) : Series := s.filter fun m => !m.isExpired now window

def count (s : Series) : Nat := s.length

def total (s : Series) : Nat := (s.map Mark.size).sum

end Series
end Screencast
