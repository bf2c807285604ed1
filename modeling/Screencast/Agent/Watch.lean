import Screencast.Display.Registry

/-!
# Watching the displays

The agent looks for its displays from time to time. If they are not those of the registry, the
registry is told that the settings changed, and a count goes up by which the session knows
that the viewer has to be told.
-/

namespace Screencast

/-- The registry and the number of changes announced. -/
structure DisplayWatch where
  registry : Registry
  generation : Nat
  deriving DecidableEq, Inhabited

namespace DisplayWatch

/-- After one look at the displays; without an answer all stays as it is. -/
def poll (w : DisplayWatch) (answer : Enumeration) : DisplayWatch :=
  match answer with
  | .error _ => w
  | .ok current =>
    if Display.sameList current w.registry.displays then w
    else ⟨w.registry.settingsChanged answer, w.generation + 1⟩

end DisplayWatch

/-- What the viewer was last told of the displays. -/
structure DisplayNews where
  generation : Nat
  displays : List Display
  deriving DecidableEq, Inhabited

namespace DisplayNews

/-- What the viewer is told when the session begins. -/
def first (w : DisplayWatch) : DisplayNews := ⟨w.generation, w.registry.displays⟩

/-- What the viewer knows once a change, if one was announced, is told. -/
def follow (n : DisplayNews) (w : DisplayWatch) : DisplayNews :=
  if n.generation = w.generation then n else ⟨w.generation, w.registry.displays⟩

end DisplayNews
end Screencast
