import Screencast.Wire.Header
import Screencast.Wire.Record

/-!
# Messages

What host and viewer tell each other. The host sends regions, metrics and display lists; the
viewer selects a display or asks for a keyframe; a heartbeat keeps an idle link alive. The
header names the kind, the body holds the record, and the last two kinds have none.
-/

namespace Screencast

inductive Message where
  | region (payload : RegionPayload)
  | metrics (snapshot : Snapshot)
  | displays (list : List Display)
  | selectDisplay (name : String)
  | requestKeyframe
  | heartbeat
  deriving DecidableEq, Inhabited

namespace Message

def kind : Message → MessageKind
  | region _ => .region
  | metrics _ => .metrics
  | displays _ => .displays
  | selectDisplay _ => .selectDisplay
  | requestKeyframe => .requestKeyframe
  | heartbeat => .heartbeat

def flags : Message → UInt16
  | region payload => if payload.isKeyframe then Header.keyframe else 0
  | _ => 0

def body : Message → ByteArray
  | region payload => Record.writeRegion payload
  | metrics snapshot => Record.writeSnapshot snapshot
  | displays list => Record.writeList Record.writeDisplay list
  | selectDisplay name => Record.writeText name
  | requestKeyframe | heartbeat => ByteArray.empty

/-- The record at the front of a body, as a message. -/
def ofRecord {α : Type} (read : Record.Reader α) (make : α → Message) (b : ByteArray) :
    Except StreamError Message :=
  match Record.run read b with
  | .ok a => .ok (make a)
  | .error fault => .error (.encoding (.payload fault))

/-- The message of a kind whose body is `b`. -/
def ofBody (kind : MessageKind) (b : ByteArray) : Except StreamError Message :=
  match kind with
  | .region => ofRecord Record.readRegion region b
  | .metrics => ofRecord Record.readSnapshot metrics b
  | .displays => ofRecord (Record.readList Record.readDisplay) displays b
  | .selectDisplay => ofRecord Record.readText selectDisplay b
  | .requestKeyframe => .ok requestKeyframe
  | .heartbeat => .ok heartbeat

end Message
end Screencast
