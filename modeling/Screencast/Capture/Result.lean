import Screencast.Frame.Basic

/-!
# Results of a capture

What one attempt to capture a display comes to. A frame may say which of its areas changed; one
that does not is compared by whoever holds the frame before it.
-/

namespace Screencast

structure CapturedFrame where
  frame : Frame
  isUsingGpu : Bool
  /-- The areas that changed since the frame before, if the source keeps track. -/
  dirtyRects : Option (List Rect)
  /-- The GPU output did not answer in time, and the frame came from elsewhere. -/
  isLate : Bool
  deriving DecidableEq, Inhabited

/-- A frame of a source that does not keep track of changes. -/
def CapturedFrame.plain (frame : Frame) : CapturedFrame := ⟨frame, false, none, false⟩

inductive CaptureResult where
  | captured (c : CapturedFrame)
  | noChanges
  /-- Nothing arrived, and the source is not known to be healthy. -/
  | timedOut
  | failed (reason : String) (isGpuFault : Bool)
  deriving DecidableEq, Inhabited

namespace CaptureResult

def isSuccess : CaptureResult → Bool
  | captured _ => true
  | _ => false

def hadNoChanges : CaptureResult → Bool
  | noChanges => true
  | _ => false

def isLate : CaptureResult → Bool
  | timedOut => true
  | captured c => c.isLate
  | _ => false

def isUsingGpu : CaptureResult → Bool
  | captured c => c.isUsingGpu
  | _ => false

end CaptureResult
end Screencast
