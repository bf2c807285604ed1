import Screencast.Capture.Faults
import Screencast.Geometry.Rect

/-!
# GPU outputs

At most one output is live. It is made when a display is asked for, given up when another is,
and given up with its display blocked when it faults. `OutputEvent` tells what is asked of the
system, in order.
-/

namespace Screencast

/-- What the system says of an output it made. -/
structure OutputGeometry where
  /-- Its size before the turn. -/
  bounds : Rect
  rotation : Rotation
  deriving DecidableEq, Inhabited

structure Output where
  device : String
  geometry : OutputGeometry
  /-- When it last gave a frame. -/
  lastCapture : Option Micros
  /-- Where the pointer was drawn in that frame. -/
  pointerArea : Option Rect
  deriving DecidableEq, Inhabited

/-- It gave a frame less than `window` ago. -/
def Output.isHealthy (o : Output) (now window : Micros) : Bool :=
  match o.lastCapture with
  | some t => now - t < window
  | none => false

inductive OutputEvent where
  | create (device : String)
  | release (device : String)
  | acquire (device : String)
  deriving DecidableEq, Inhabited

/-- The live output and the blocked displays. -/
structure Outputs where
  current : Option Output
  faults : Faults
  faultTtl : Micros
  deriving DecidableEq, Inhabited

namespace Outputs

def new (faultTtl : Micros) : Outputs := ⟨none, .empty, faultTtl⟩

/-- The outputs with the live one given up. -/
def release (s : Outputs) : Outputs × List OutputEvent :=
  match s.current with
  | some o => ({ s with current := none }, [.release o.device])
  | none => (s, [])

/-- The outputs with the live one given up and its display blocked. -/
def recycle (s : Outputs) (now : Micros) : Outputs × List OutputEvent :=
  match s.current with
  | some o => ({ s with current := none, faults := s.faults.insert o.device (now + s.faultTtl) }, [.release o.device])
  | none => (s, [])

/-- The outputs with one made for a device, given the system's answer; a refusal blocks the
device. -/
def create (s : Outputs) (now : Micros) (answer : Option OutputGeometry) (device : String) :
    Option Output × Outputs × List OutputEvent :=
  match answer with
  | some geometry =>
    let o : Output := ⟨device, geometry, none, none⟩
    (some o, { s with current := some o }, [.create device])
  | none => (none, { s with faults := s.faults.insert device (now + s.faultTtl) }, [.create device])

/-- The output of a device, made if need be; none while the device is blocked or cannot be had. -/
def get (s : Outputs) (now : Micros) (make : String → Option OutputGeometry) (device : String) :
    Option Output × Outputs × List OutputEvent :=
  let (isBlocked, faults) := s.faults.contains now device
  let s := { s with faults }
  if isBlocked then (none, s, [])
  else
    match s.current with
    | some o =>
      if o.device = device then (some o, s, [])
      else
        let (made, s, events) := create { s with current := none } now (make device) device
        (made, s, .release o.device :: events)
    | none => s.create now (make device) device

end Outputs
end Screencast
