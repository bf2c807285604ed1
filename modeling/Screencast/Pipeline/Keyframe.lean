import Screencast.Bandwidth.Controller
import Screencast.Capture.Result
import Screencast.Display.Basic
import Screencast.Frame.Change

/-!
# Keyframes and deltas

What the capture loop remembers of the pictures it sent, and the choice it makes from it for
a fresh capture: send the frame whole, send the changed region, or send nothing.
-/

namespace Screencast

inductive KeyframeReason where
  /-- The start, or an explicit request. -/
  | requested
  /-- The capture moved to the GPU or away from it. -/
  | originChanged
  | displayChanged
  /-- The display moved or took another size. -/
  | boundsChanged
  /-- The frame has another size or format than the one before. -/
  | baselineMismatch
  /-- Quality was lowered, and throughput has fallen since. -/
  | qualityRefresh
  deriving DecidableEq, Inhabited

namespace KeyframeReason

def all : List KeyframeReason :=
  [requested, originChanged, displayChanged, boundsChanged, baselineMismatch, qualityRefresh]

def message : KeyframeReason → String
  | requested => "requested"
  | originChanged => "capture origin changed"
  | displayChanged => "display changed"
  | boundsChanged => "display bounds changed"
  | baselineMismatch => "baseline mismatch"
  | qualityRefresh => "quality refresh"

end KeyframeReason

/-- The display that a keyframe was sent for. -/
structure KeyframeMark where
  device : String
  area : Area
  deriving DecidableEq, Inhabited

/-- The last frame that the viewer has seen the changes of. -/
structure Baseline where
  frame : Frame
  device : String
  deriving DecidableEq, Inhabited

/-- What the loop knows from one pass to the next. -/
structure Memory where
  baseline : Option Baseline
  lastKeyframe : Option KeyframeMark
  lastUsingGpu : Option Bool
  /-- Quality was lowered since the last keyframe, and a picture went out at it. -/
  needsRefresh : Bool
  /-- How often quality had been lowered when the last keyframe went out. -/
  reductionsAtKeyframe : Nat
  deriving DecidableEq, Inhabited

/-- What is to be done with a capture. -/
inductive Choice where
  | keyframe (reason : KeyframeReason)
  | delta (region : Rect)
  | unchanged
  deriving DecidableEq, Inhabited

def Display.mark (d : Display) : KeyframeMark := ⟨d.name, d.area⟩

namespace Memory

def empty : Memory := ⟨none, none, none, false, 0⟩

/-- The capture's origin differs from that of the capture before. -/
def originChanged (m : Memory) (c : CapturedFrame) : Bool := m.lastUsingGpu.any fun was => was != c.isUsingGpu

/-- A refresh is due: throughput is back below the given part of the target. -/
def isRefreshDue (m : Memory) (c : Controller) (ratio : Float) : Bool :=
  m.needsRefresh && c.mbps < c.settings.targetMbps * ratio

/-- Why a capture of the display has to go out whole, looking at all but the frame itself. -/
def keyframeReason (m : Memory) (c : Controller) (ratio : Float) (isRequested : Bool) (d : Display)
    (originChanged : Bool) : Option KeyframeReason :=
  if isRequested then some .requested
  else if originChanged then some .originChanged
  else
    match m.lastKeyframe with
    | none => some .requested
    | some mark =>
      if mark.device ≠ d.name then some .displayChanged
      else if mark.area ≠ d.area then some .boundsChanged
      else if m.isRefreshDue c ratio then some .qualityRefresh
      else none

/-- A refresh is asked for once quality is reduced by a drop after the last keyframe. -/
def track (m : Memory) (c : Controller) : Memory :=
  { m with needsRefresh := m.needsRefresh || (c.isQualityReduced && m.reductionsAtKeyframe < c.reductions) }

/-- The frame that captures of the device are compared with. -/
def baselineOf (m : Memory) (device : String) : Option Frame :=
  (m.baseline.filter fun b => b.device == device).map Baseline.frame

/-- What changed in the frame, by the areas it came with or else by comparison. -/
def change (m : Memory) (d : Display) (padding : UInt32) (c : CapturedFrame) : Choice :=
  let region : Except StreamError Rect :=
    match c.dirtyRects with
    | some rects => .ok (unionWithin rects c.frame.bounds)
    | none => c.frame.change (m.baselineOf d.name) padding
  match region with
  | .ok r => if r.isEmpty then .unchanged else .delta r
  | .error (.dimensionMismatch _ _) => .keyframe .baselineMismatch
  | .error .pixelFormatMismatch => .keyframe .baselineMismatch
  | .error _ => if c.frame.bounds.isEmpty then .unchanged else .delta c.frame.bounds

/-- The memory once a keyframe of the display went out. -/
def noteKeyframe (m : Memory) (c : Controller) (d : Display) (f : Frame) : Memory :=
  { m with
    baseline := some ⟨f, d.name⟩
    lastKeyframe := some d.mark
    needsRefresh := false
    reductionsAtKeyframe := c.reductions }

/-- The memory once the viewer has the changes of the frame. -/
def noteFrame (m : Memory) (d : Display) (f : Frame) : Memory := { m with baseline := some ⟨f, d.name⟩ }

end Memory
end Screencast
