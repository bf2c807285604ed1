import Screencast.Display.Registry
import Screencast.Json.Writer
import Screencast.Pipeline.Channel
import Screencast.Pipeline.Keyframe
import Screencast.Region.Coder

/-!
# The capture loop

One pass reserves the channel's room, waits for the gate, picks the display, captures it and sends
what the capture calls for. The machine cuts a pass into its single actions: each `step` does
one of them, and between any two others may ask for a keyframe, select a display, take a payload
or cancel. A keyframe request is a flag. It is lowered before the frame is compressed, so that
a request made meanwhile is kept, and raised again if the compression fails.
-/

namespace Screencast

/-- A frame on its way into the room that a reservation holds. -/
structure Shipment where
  ticket : Nat
  display : Display
  frame : Frame
  deriving DecidableEq, Inhabited

inductive Phase where
  /-- At the start of a pass. -/
  | ready
  | awaitSlot (ticket : Nat)
  | awaitGate (ticket : Nat)
  /-- The display is being captured; the answer comes from outside. -/
  | capturing (ticket : Nat) (d : Display)
  /-- Nothing changed; a request is yet to be looked for. -/
  | idle (ticket : Nat) (d : Display)
  /-- What to do with the capture is yet to be chosen. -/
  | choosing (ticket : Nat) (d : Display) (c : CapturedFrame) (originChanged : Bool)
  /-- The flag is yet to be lowered. -/
  | lowering (s : Shipment) (reason : KeyframeReason)
  | encodingKeyframe (s : Shipment) (reason : KeyframeReason)
  | sendingKeyframe (s : Shipment) (data : ByteArray)
  | encodingDelta (s : Shipment) (region : Rect)
  | sendingDelta (s : Shipment) (region : Rect) (data : ByteArray)
  /-- The flag is yet to be raised; then the pass ends, with a rest if one is given. -/
  | raising (ticket : Nat) (rest : Option Micros)
  | resting (wake : Micros)
  | stopped
  deriving Inhabited

/-- What a step lets others see. -/
inductive Happening where
  /-- A capture of the display was asked for. -/
  | asked (device : String) (drawPointer : Bool)
  | sent (p : RegionPayload)
  /-- A frame or a region of it could not be compressed. -/
  | refused (isKeyframe : Bool)
  deriving DecidableEq, Inhabited

/-- The loop with all it acts on. -/
structure Machine where
  settings : PipelineSettings
  /-- The displays that an enumeration finds. -/
  attached : List Display
  registry : Registry
  controller : Controller
  isRequested : Bool
  memory : Memory
  channel : PayloadChannel
  phase : Phase
  isCancelled : Bool
  now : Micros
  deriving Inhabited

/-- The area as an object on one line. -/
def Area.text (a : Area) : String :=
  Json.write (Json.ofMembers [("left", Json.ofInt a.left.toInt), ("top", Json.ofInt a.top.toInt),
    ("width", Json.ofNat a.width.toNat), ("height", Json.ofNat a.height.toNat)])

/-- The controller with the captured display among its diagnostics. -/
def Controller.describeDisplay (c : Controller) (d : Display) (virtualBounds : Area) : Controller :=
  (((c.setDiagnostic "display" d.name).setDiagnostic "display_name" d.label).setDiagnostic "bounds"
    d.area.text).setDiagnostic "virtual_bounds" virtualBounds.text

namespace Machine

/-- A loop before its first pass. A keyframe is due at once. -/
def new (s : PipelineSettings) (attached : List Display) : Except StreamError Machine :=
  match s.validate with
  | .error fault => .error (.invalidSettings fault)
  | .ok () =>
    .ok ⟨s, attached, .ofEnumeration (enumerate attached), .new s.bandwidth, true, .empty, .new, .ready, false, 0⟩

/-! ### Ends of a pass -/

/-- The pass is over and the next begins. -/
def again (m : Machine) (ticket : Nat) : Machine := { m with channel := m.channel.giveUp ticket, phase := .ready }

/-- The pass is over and the next begins after a rest. -/
def rest (m : Machine) (ticket : Nat) (delay : Micros) : Machine :=
  { m with channel := m.channel.giveUp ticket, phase := .resting (m.now + delay) }

def stop (m : Machine) : Machine := { m with channel := m.channel.dropWriter, phase := .stopped }

/-- The loop is over in the midst of a pass. -/
def stopWith (m : Machine) (ticket : Nat) : Machine := { m with channel := m.channel.giveUp ticket }.stop

/-! ### Parts of a pass -/

/-- The display is picked and its capture asked for; without a display the loop rests. -/
def acquire (m : Machine) (ticket : Nat) : Machine × List Happening :=
  let (d, registry) := m.registry.selectedOrPrimary
  let m := { m with registry, controller := m.controller.markIteration m.now }
  match d with
  | none => (m.rest ticket m.settings.failureDelay, [])
  | some d => ({ m with phase := .capturing ticket d }, [.asked d.name m.settings.capture.captureCursor])

/-- Nothing changed. A request is answered with the frame of before, if it is the display's. -/
def answerIdle (m : Machine) (ticket : Nat) (d : Display) : Machine :=
  match m.memory.baselineOf d.name with
  | some frame =>
    if m.isRequested then
      { m with memory := { m.memory with baseline := none }, phase := .lowering ⟨ticket, d, frame⟩ .requested }
    else m.rest ticket m.settings.noChangeDelay
  | none => m.rest ticket m.settings.noChangeDelay

/-- What is to be done with a fresh capture. -/
def choice (m : Machine) (d : Display) (c : CapturedFrame) (originChanged : Bool) : Choice :=
  match m.memory.keyframeReason m.controller m.settings.qualityRefreshRatio m.isRequested d originChanged with
  | some reason => .keyframe reason
  | none => m.memory.change d m.settings.diffPadding c

/-- The memory after the choice: unless the capture goes out whole for a reason of its own, a
drop in quality is noted. -/
def memoryAtChoice (m : Machine) (d : Display) (originChanged : Bool) : Memory :=
  match m.memory.keyframeReason m.controller m.settings.qualityRefreshRatio m.isRequested d originChanged with
  | some _ => m.memory
  | none => m.memory.track m.controller

def choose (m : Machine) (ticket : Nat) (d : Display) (c : CapturedFrame) (originChanged : Bool) : Machine :=
  let choice := m.choice d c originChanged
  let m := { m with memory := m.memoryAtChoice d originChanged }
  let shipment : Shipment := ⟨ticket, d, c.frame⟩
  match choice with
  | .keyframe reason => { m with phase := .lowering shipment reason }
  | .delta region => { m with phase := .encodingDelta shipment region }
  | .unchanged => { m with memory := m.memory.noteFrame d c.frame }.rest ticket m.settings.noChangeDelay

/-- The channel with the payload in it. -/
def put (m : Machine) (ticket : Nat) (p : RegionPayload) : PayloadChannel := (m.channel.send? ticket p).getD m.channel

def sendKeyframe (m : Machine) (s : Shipment) (data : ByteArray) : Machine × List Happening :=
  let p := RegionPayload.ofRect s.frame.bounds true data
  let controller := m.controller.markFrame m.now
  let isKnown := m.memory.lastKeyframe = some s.display.mark
  let controller :=
    if isKnown then controller else controller.describeDisplay s.display m.registry.virtualBounds
  ({ m with
      channel := m.put s.ticket p
      controller
      memory := m.memory.noteKeyframe controller s.display s.frame
      phase := .ready }, [.sent p])

def sendDelta (m : Machine) (s : Shipment) (region : Rect) (data : ByteArray) : Machine × List Happening :=
  let p := RegionPayload.ofRect region false data
  ({ m with
      channel := m.put s.ticket p
      controller := (m.controller.markBytes m.now data.size).markFrame m.now
      memory := m.memory.noteFrame s.display s.frame
      phase := .ready }, [.sent p])

/-! ### Steps -/

/-- One action of the loop, `none` if it has to wait. -/
def step (c : Compressor) (m : Machine) : Option (Machine × List Happening) :=
  match m.phase with
  | .ready =>
    let (ticket, channel) := m.channel.reserve
    some ({ m with channel, phase := .awaitSlot ticket }, [])
  | .awaitSlot ticket =>
    if m.isCancelled then some (m.stopWith ticket, [])
    else
      match m.channel.stateOf ticket with
      | .held => some ({ m with phase := .awaitGate ticket }, [])
      | .waiting => none
      | _ => some (m.stop, [])
  | .awaitGate ticket =>
    if m.isCancelled then some (m.stopWith ticket, [])
    else if m.controller.isGateOpen then some (m.acquire ticket)
    else none
  | .capturing ticket _ => if m.isCancelled then some (m.stopWith ticket, []) else none
  | .idle ticket d => some (m.answerIdle ticket d, [])
  | .choosing ticket d captured originChanged => some (m.choose ticket d captured originChanged, [])
  | .lowering s reason => some ({ m with isRequested := false, phase := .encodingKeyframe s reason }, [])
  | .encodingKeyframe s _ =>
    match s.frame.encodeRegion c s.frame.bounds m.settings.keyframeQuality with
    | .ok data => some ({ m with phase := .sendingKeyframe s data }, [])
    | .error _ => some ({ m with phase := .raising s.ticket none }, [.refused true])
  | .sendingKeyframe s data => some (m.sendKeyframe s data)
  | .encodingDelta s region =>
    match s.frame.encodeRegion c region m.controller.quality with
    | .ok data => some ({ m with phase := .sendingDelta s region data }, [])
    | .error _ => some ({ m with phase := .raising s.ticket none }, [.refused false])
  | .sendingDelta s region data => some (m.sendDelta s region data)
  | .raising ticket delay =>
    let m := { m with isRequested := true }
    some (match delay with
      | none => (m.again ticket, [])
      | some delay => (m.rest ticket delay, []))
  | .resting wake =>
    if m.isCancelled then some (m.stop, [])
    else if wake ≤ m.now then some ({ m with phase := .ready }, [])
    else none
  | .stopped => none

/-- The answer to the capture that the loop waits for. -/
def supply (m : Machine) (r : CaptureResult) : Machine :=
  match m.phase with
  | .capturing ticket d =>
    match r with
    | .captured c =>
      { m with
        memory := { m.memory with lastUsingGpu := some c.isUsingGpu }
        controller := m.controller.setUsingGpu c.isUsingGpu
        phase := .choosing ticket d c (m.memory.originChanged c) }
    | .noChanges => { m with phase := .idle ticket d }
    | .timedOut => m.rest ticket m.settings.failureDelay
    | .failed _ _ =>
      { m with
        registry := m.registry.reload (enumerate m.attached)
        memory := { m.memory with baseline := none }
        phase := .raising ticket (some m.settings.failureDelay) }
  | _ => m

/-! ### From outside -/

def requestKeyframe (m : Machine) : Machine := { m with isRequested := true }

def select (m : Machine) (name : String) : Except StreamError (Display × Machine) := do
  let (d, registry) ← m.registry.select name
  return (d, { m with registry })

/-- The display that the next pass captures, chosen now if none was. -/
def captured (m : Machine) : Option Display × Machine :=
  let (d, registry) := m.registry.selectedOrPrimary
  (d, { m with registry })

/-- Other displays are attached; the registry learns of it later. -/
def attach (m : Machine) (l : List Display) : Machine := { m with attached := l }

def settingsChanged (m : Machine) : Machine :=
  { m with registry := m.registry.settingsChanged (enumerate m.attached) }

def receive (m : Machine) : Option RegionPayload × Machine :=
  let (p, channel) := m.channel.receive
  (p, { m with channel })

def dropReader (m : Machine) : Machine := { m with channel := m.channel.dropReader }

def cancel (m : Machine) : Machine := { m with isCancelled := true }

def isStopped (m : Machine) : Bool :=
  match m.phase with
  | .stopped => true
  | _ => false

end Machine
end Screencast
