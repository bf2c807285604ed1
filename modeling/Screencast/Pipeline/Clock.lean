import Screencast.Capture.Pattern
import Screencast.Pipeline.Machine

/-!
# The loop on a clock

The machine with a source of captures and the two timers of the telemetry: a pass of the
controller at every tick, and a snapshot for the readers at every broadcast. Time stands still
while the loop can act, and then moves on to whatever is due next. Of what is due at one moment
the tick comes first, then the broadcast, then the loop.
-/

namespace Screencast

inductive CaptureSource where
  /-- Results given beforehand; the capture waits for the next one. -/
  | script (results : List CaptureResult)
  | pattern (p : Pattern)
  deriving Inhabited

namespace CaptureSource

def name : CaptureSource → String
  | script _ => "scripted"
  | pattern _ => "synthetic"

def isScript : CaptureSource → Bool
  | script _ => true
  | pattern _ => false

/-- The source with more results to give. -/
def push (s : CaptureSource) (more : List CaptureResult) : CaptureSource :=
  match s with
  | script results => script (results ++ more)
  | pattern p => pattern p

/-- The answer to a capture, `none` while there is none. -/
def answer (s : CaptureSource) (d : Display) : Option (CaptureResult × CaptureSource) :=
  match s with
  | script [] => none
  | script (r :: rest) => some (r, script rest)
  | pattern p =>
    let (r, p) := p.capture d
    some (r, pattern p)

/-- A bound on the answers in a row after which the loop is held up. -/
def answers : CaptureSource → Nat
  | script results => results.length
  | pattern _ => 2

end CaptureSource

structure Timeline where
  machine : Machine
  source : CaptureSource
  nextTick : Micros
  nextBroadcast : Micros
  /-- The captures of a script that were asked for, the latest first. -/
  asked : List (String × Bool)
  /-- Snapshots that the reader has seen. -/
  seen : Nat
  deriving Inhabited

namespace Timeline

def start (m : Machine) (source : CaptureSource) : Timeline :=
  ⟨{ m with controller := m.controller.setDiagnostic "backend" source.name }, source,
    millis m.settings.bandwidth.tickMs, millis m.settings.bandwidth.broadcastIntervalMs, [], 0⟩

/-- The captures that were asked for, noted for a script. -/
def note (t : Timeline) (l : List Happening) : Timeline :=
  if t.source.isScript then
    { t with asked := l.foldl (fun acc h =>
        match h with
        | .asked device cursor => (device, cursor) :: acc
        | _ => acc) t.asked }
  else t

/-- One action of the loop or one answer of the source, `none` if nothing can happen now. -/
def act (t : Timeline) : Option Timeline :=
  match t.machine.step t.machine.settings.codec.compressor with
  | some (machine, happenings) => some ({ t with machine }.note happenings)
  | none =>
    match t.machine.phase with
    | .capturing _ d =>
      (t.source.answer d).map fun (r, source) => { t with machine := t.machine.supply r, source }
    | _ => none

/-- The timeline once nothing can happen any more at this time. -/
def settleWithin (fuel : Nat) (t : Timeline) : Timeline :=
  match fuel with
  | 0 => t
  | fuel + 1 =>
    match t.act with
    | some t => settleWithin fuel t
    | none => t

/-- Most actions of a pass. -/
def passLength : Nat := 10

/-- The timeline once nothing can happen any more at this time: each answer of the source serves
one pass. -/
def settle (t : Timeline) : Timeline := settleWithin (passLength * (t.source.answers + 3)) t

def nextDue (t : Timeline) : Option Micros :=
  match t.machine.phase with
  | .stopped => none
  | .resting wake => some (min (min t.nextTick t.nextBroadcast) wake)
  | _ => some (min t.nextTick t.nextBroadcast)

def tick (t : Timeline) : Timeline :=
  if t.nextTick ≤ t.machine.now then
    { t with
      machine := { t.machine with controller := t.machine.controller.process t.machine.now }
      nextTick := t.nextTick + millis t.machine.settings.bandwidth.tickMs }
  else t

def broadcast (t : Timeline) : Timeline :=
  if t.nextBroadcast ≤ t.machine.now then
    { t with
      machine := { t.machine with controller := t.machine.controller.broadcast }
      nextBroadcast := t.nextBroadcast + millis t.machine.settings.bandwidth.broadcastIntervalMs }
  else t

def setTime (t : Timeline) (now : Micros) : Timeline := { t with machine := { t.machine with now } }

/-- The timeline at a later time, with at most `fuel` moments at which something is due. -/
def advanceWithin (fuel : Nat) (t : Timeline) (target : Micros) : Timeline :=
  match fuel with
  | 0 => t.setTime target
  | fuel + 1 =>
    match t.nextDue with
    | none => t.setTime target
    | some due =>
      if due ≤ target then advanceWithin fuel (t.setTime (max due t.machine.now)).tick.broadcast.settle target
      else t.setTime target

/-- The timeline after some milliseconds; something is due once in each at most. -/
def advance (t : Timeline) (ms : Nat) : Timeline :=
  advanceWithin (ms + 1) t.settle (t.machine.now + ms * 1000)

end Timeline
end Screencast
