import Screencast.Agent.Settings
import Screencast.Agent.Watch
import Screencast.Pipeline.Clock
import Screencast.Wire.Connection

/-!
# The agent

The agent knows the displays of its source of frames, with the configured one selected if it
is attached. For a viewer it starts a capture loop of its own and sends the displays first; the
viewer's messages select a display or ask for a keyframe.
-/

namespace Screencast

structure Agent where
  settings : AgentSettings
  watch : DisplayWatch

structure Session where
  timeline : Timeline
  news : DisplayNews

namespace Agent

def new (s : AgentSettings) : Agent :=
  let registry := Registry.ofEnumeration (enumerate s.backend.displays)
  let registry :=
    match s.display with
    | none => registry
    | some name =>
      match registry.select name with
      | .ok (_, r) => r
      | .error _ => registry
  ⟨s, ⟨registry, 0⟩⟩

/-- The session of a viewer that connects over the network. -/
def accept (a : Agent) (network : Network) : Except StreamError Session := do
  match network with
  | .unreachable => throw (.connection .unreachable)
  | .available => do
    let _ ← a.settings.backend.create
    let m ← Machine.new a.settings.pipeline a.settings.backend.displays
    return ⟨.start { m with registry := a.watch.registry } (.pattern .start), .first a.watch⟩

/-- The displays, a line for each, the captured one marked. -/
def listing (a : Agent) : String :=
  let (captured, registry) := a.watch.registry.selectedOrPrimary
  String.join (registry.displays.map fun d =>
    let mark := if captured.any d.same then "*" else " "
    let area := d.area
    mark ++ " " ++ padded 16 d.name ++ " " ++ padded 24 d.label ++
      s!" {area.width.toNat}x{area.height.toNat} at ({area.left.toInt}, {area.top.toInt})" ++
      (if d.isPrimary then " primary" else "") ++ "\n")
where
  /-- The text with blanks behind it up to a width. -/
  padded (width : Nat) (s : String) : String := s ++ String.ofList (List.replicate (width - s.length) ' ')

end Agent

/-- The loop after a message of the viewer. -/
def Machine.obey (m : Machine) : Message → Machine
  | .selectDisplay name =>
    match m.select name with
    | .ok (_, m) => m
    | .error _ => m
  | .requestKeyframe => m.requestKeyframe
  | _ => m

end Screencast
