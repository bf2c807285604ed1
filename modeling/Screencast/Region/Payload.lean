import Screencast.Geometry.Rect
import Screencast.Error

/-!
# Region payloads

One compressed region of a frame, placed in the frame's coordinates. A keyframe payload holds
the whole frame and replaces the viewer's picture; any other overwrites its own region.
-/

namespace Screencast

/-- A compressed region. -/
structure RegionPayload where
  x : UInt32
  y : UInt32
  width : UInt32
  height : UInt32
  isKeyframe : Bool
  data : ByteArray
  deriving DecidableEq, Inhabited

namespace RegionPayload

def ofRect (r : Rect) (isKeyframe : Bool) (data : ByteArray) : RegionPayload :=
  ⟨r.x, r.y, r.width, r.height, isKeyframe, data⟩

def region (p : RegionPayload) : Rect := ⟨p.x, p.y, p.width, p.height⟩

theorem region_ofRect (r : Rect) (k : Bool) (data : ByteArray) : (ofRect r k data).region = r := rfl

/-- The payload with its fields named and its data as a count. -/
def describe (p : RegionPayload) : String :=
  "ScreenRegionPayload \x7b x: " ++ toString p.x.toNat ++ ", y: " ++ toString p.y.toNat ++
    ", width: " ++ toString p.width.toNat ++ ", height: " ++ toString p.height.toNat ++
    ", is_keyframe: " ++ toString p.isKeyframe ++ ", data_len: " ++ toString p.data.size ++ " \x7d"

end RegionPayload
end Screencast
