import Screencast.Capture.Output
import Screencast.Capture.Result
import Screencast.Display.Basic
import Screencast.Frame.Pointer
import Screencast.Frame.Turn

/-!
# Capture through a GPU output

An attempt waits for a frame of the display's output. No new frame means that nothing changed if
the output gave one lately; otherwise, and where no output is to be had, the capture is left to a
fallback, if that is allowed. A frame is turned upright and the pointer drawn into it. Its dirty
areas are turned with it, and the areas where the pointer was and where it is now join them.
-/

namespace Screencast

/-- What a wait for a frame comes to. -/
inductive Acquisition where
  | timeout
  | fault (reason : String)
  /-- So many pictures since the wait before, the last of them, and the areas that changed. -/
  | frames (count : Nat) (frame : Option Frame) (dirty : List Rect)
  deriving DecidableEq, Inhabited

/-- The answers of the system during one capture. -/
structure Surroundings where
  now : Micros
  make : String → Option OutputGeometry
  acquisition : Acquisition
  pointer : Option Pointer

/-- What an attempt comes to: a result, or the need to fall back. -/
inductive Attempt where
  | result (r : CaptureResult)
  | fallBack (isLate : Bool)
  deriving DecidableEq, Inhabited

/-- The result of an attempt, given what the fallback would answer. -/
def Attempt.resolve (a : Attempt) (fallback : CaptureResult) : CaptureResult :=
  match a, fallback with
  | .result r, _ => r
  | .fallBack isLate, .captured c => .captured { c with isLate }
  | .fallBack _, r => r

structure GpuCapture where
  outputs : Outputs
  healthWindow : Micros
  allowsFallback : Bool
  deriving DecidableEq, Inhabited

namespace GpuCapture

def new (s : CaptureSettings) : GpuCapture := ⟨.new s.faultTtl, s.gpuHealthWindow, s.allowCpuFallback⟩

/-- What an attempt without a new frame comes to. -/
def withoutFrame (g : GpuCapture) (o : Output) (now : Micros) : Attempt :=
  if o.isHealthy now g.healthWindow then .result .noChanges
  else if g.allowsFallback then .fallBack true
  else .result .timedOut

/-- What an attempt without an output comes to. -/
def unavailable (g : GpuCapture) (reason : String) : Attempt :=
  if g.allowsFallback then .fallBack false else .result (.failed reason false)

/-- An upright frame with the pointer drawn, its dirty areas, and the area of the pointer to
remember; without pointer drawing the remembered area stays. -/
def withPointer (frame : Frame) (dirty : List Rect) (o : Output) (pointer : Option Pointer) (area : Area)
    (drawsPointer : Bool) : Except StreamError (Frame × List Rect × Option Rect) :=
  if drawsPointer then
    let before := dirty ++ o.pointerArea.toList
    match pointer with
    | none => .ok (frame, before, none)
    | some p =>
      match frame.drawPointer p area with
      | .error e => .error e
      | .ok (frame, drawn) => .ok (frame, before ++ drawn.toList, drawn)
  else .ok (frame, dirty, o.pointerArea)

/-- The result of a new frame, and its output afterwards. -/
def withFrame (g : GpuCapture) (o : Output) (frame : Frame) (dirty : List Rect) (s : Surroundings) (area : Area)
    (drawsPointer : Bool) : Except StreamError (Attempt × Output) :=
  match frame.isBlank with
  | .error e => .error e
  | .ok true => .ok (g.unavailable "gpu returned a blank frame", o)
  | .ok false =>
    let rotation := o.geometry.rotation
    match frame.rotate rotation with
    | .error e => .error e
    | .ok upright =>
      let dirty := dirty.map fun r => r.rotate rotation frame.width frame.height
      match withPointer upright dirty o s.pointer area drawsPointer with
      | .error e => .error e
      | .ok (picture, dirty, pointerArea) =>
        .ok (.result (.captured ⟨picture, true, some dirty, false⟩),
          { o with lastCapture := some s.now, pointerArea })

/-- The capture with another state of the live output. -/
def keep (g : GpuCapture) (o : Output) : GpuCapture := { g with outputs := { g.outputs with current := some o } }

/-- One attempt to capture a display, with the requests made of the system. -/
def attempt (g : GpuCapture) (s : Surroundings) (d : Display) (drawsPointer : Bool) :
    Except StreamError (Attempt × GpuCapture × List OutputEvent) :=
  let (output, outputs, events) := g.outputs.get s.now s.make d.name
  let g := { g with outputs }
  match output with
  | none => .ok (g.unavailable "gpu output unavailable", g, events)
  | some o =>
    let events := events ++ [.acquire o.device]
    match s.acquisition with
    | .timeout => .ok (g.withoutFrame o s.now, g, events)
    | .fault reason =>
      let (outputs, released) := g.outputs.recycle s.now
      .ok (.result (.failed reason true), { g with outputs }, events ++ released)
    | .frames count frame dirty =>
      match frame with
      | none => .ok (g.withoutFrame o s.now, g, events)
      | some frame =>
        if count = 0 then .ok (g.withoutFrame o s.now, g, events)
        else
          match g.withFrame o frame dirty s d.area drawsPointer with
          | .error e => .error e
          | .ok (a, o) => .ok (a, g.keep o, events)

/-- One capture of a display, given what the fallback would answer. -/
def capture (g : GpuCapture) (s : Surroundings) (fallback : CaptureResult) (d : Display) (drawsPointer : Bool) :
    Except StreamError (CaptureResult × GpuCapture × List OutputEvent) :=
  match g.attempt s d drawsPointer with
  | .error e => .error e
  | .ok (a, g, events) => .ok (a.resolve fallback, g, events)

/-- The capture with its live output given up. -/
def shutdown (g : GpuCapture) : GpuCapture × List OutputEvent :=
  let (outputs, events) := g.outputs.release
  ({ g with outputs }, events)

end GpuCapture
end Screencast
