import Screencast.Pipeline.Machine

/-!
# Runs of the capture loop

A run is a list of moves: single actions of the loop, answers to its captures, and whatever others
do in between. A move that is not possible at its moment changes nothing. The trace keeps what
happened, the latest first; every move adds one event at most.
-/

namespace Screencast

/-- An action of the loop, an answer to its capture, or something that others do. -/
inductive Move where
  | act
  /-- An action of the loop in which a compression fails, if there is one in it. -/
  | fail
  | answer (r : CaptureResult)
  | request
  | select (name : String)
  /-- Someone asks for the display that is captured. -/
  | look
  | attach (l : List Display)
  | settingsChanged
  | receive
  | dropReader
  | cancel
  /-- A metrics pass, now. -/
  | tick
  | broadcast
  | diagnose (name text : String)
  | wait (time : Nat)

inductive Event where
  /-- A pass picked the display and asked for its capture. -/
  | acquired (d : Display)
  | answered (d : Display) (r : CaptureResult)
  /-- Others asked for a keyframe. -/
  | requested
  /-- The loop raised the flag itself. -/
  | raised
  | refused (isKeyframe : Bool)
  /-- The channel took the payload. -/
  | sent (p : RegionPayload)

/-- The reservation that the pass holds. -/
def Phase.ticket? : Phase → Option Nat
  | .awaitGate ticket | .capturing ticket _ | .idle ticket _ | .choosing ticket _ _ _ | .raising ticket _ => some ticket
  | .lowering s _ | .encodingKeyframe s _ | .sendingKeyframe s _ | .encodingDelta s _ | .sendingDelta s _ _ =>
    some s.ticket
  | .ready | .awaitSlot _ | .resting _ | .stopped => none

/-- A coder that fails. -/
def Compressor.failing : Compressor := ⟨fun _ _ _ _ => none, fun _ => none⟩

namespace Machine

/-- A payload counts as sent if the channel takes it. -/
def taken (m : Machine) (ticket : Nat) (p : RegionPayload) : Option Event :=
  if (m.channel.send? ticket p).isSome then some (.sent p) else none

/-- What the trace keeps of an action that led from `m` to `after`. -/
def event (m after : Machine) (seen : List Happening) : Option Event :=
  match m.phase, seen with
  | .raising _ _, _ => some .raised
  | _, .asked _ _ :: _ =>
    match after.phase with
    | .capturing _ d => some (.acquired d)
    | _ => none
  | _, .refused isKeyframe :: _ => some (.refused isKeyframe)
  | _, .sent p :: _ => m.phase.ticket?.bind fun ticket => m.taken ticket p
  | _, [] => none

/-- The machine after a move and the event of the move; `none` if the move is not possible. -/
def move (c : Compressor) (m : Machine) : Move → Option (Machine × Option Event)
  | .act => (m.step c).map fun (after, seen) => (after, m.event after seen)
  | .fail => (m.step .failing).map fun (after, seen) => (after, m.event after seen)
  | .answer r =>
    match m.phase with
    | .capturing _ d => some (m.supply r, some (.answered d r))
    | _ => none
  | .request => some (m.requestKeyframe, some .requested)
  | .select name =>
    match m.select name with
    | .ok (_, after) => some (after, none)
    | .error _ => none
  | .look => some (m.captured.2, none)
  | .attach l => some (m.attach l, none)
  | .settingsChanged => some (m.settingsChanged, none)
  | .receive => some (m.receive.2, none)
  | .dropReader => some (m.dropReader, none)
  | .cancel => some (m.cancel, none)
  | .tick => some ({ m with controller := m.controller.process m.now }, none)
  | .broadcast => some ({ m with controller := m.controller.broadcast }, none)
  | .diagnose name text => some ({ m with controller := m.controller.setDiagnostic name text }, none)
  | .wait time => some ({ m with now := m.now + time }, none)

variable {c : Compressor} {m after : Machine} {e : Option Event}

/-- An answer comes to a loop that waits for it. -/
theorem answer_of_move {r : CaptureResult} (h : m.move c (.answer r) = some (after, e)) :
    ∃ t d, m.phase = .capturing t d ∧ after = m.supply r ∧ e = some (.answered d r) := by
  simp only [move] at h
  split at h
  · rename_i t d hp
    cases h
    exact ⟨t, d, hp, rfl, rfl⟩
  · cases h

theorem select_of_move {name : String} (h : m.move c (.select name) = some (after, e)) :
    ∃ d, after = { m with registry := { m.registry with selected := some d } } ∧ e = none := by
  simp only [move, select, Registry.select] at h
  cases hfind : m.registry.find? name with
  | none =>
    rw [hfind] at h
    cases h
  | some d =>
    rw [hfind] at h
    cases h
    exact ⟨d, rfl, rfl⟩

end Machine

/-- A machine and what happened up to it. -/
structure Run where
  machine : Machine
  /-- The latest event comes first. -/
  trace : List Event

namespace Run

/-- The run of a new machine over a registry that may have been in use before. -/
def start (m : Machine) (registry : Registry) : Run := ⟨{ m with registry }, []⟩

def next (c : Compressor) (r : Run) (mv : Move) : Run :=
  match r.machine.move c mv with
  | some (after, e) => ⟨after, e.toList ++ r.trace⟩
  | none => r

def play (c : Compressor) (r : Run) (moves : List Move) : Run := moves.foldl (next c) r

theorem play_cons {c : Compressor} (r : Run) (mv : Move) (rest : List Move) :
    r.play c (mv :: rest) = (r.next c mv).play c rest := rfl

theorem play_append {c : Compressor} (r : Run) (a b : List Move) : r.play c (a ++ b) = (r.play c a).play c b :=
  List.foldl_append

/-- What every move of a list keeps holds after the list. -/
theorem play_keeps {c : Compressor} {P : Run → Prop} {moves : List Move}
    (step : ∀ r, ∀ mv ∈ moves, P r → P (r.next c mv)) {r : Run} (h : P r) : P (r.play c moves) := by
  induction moves generalizing r with
  | nil => exact h
  | cons mv rest ih =>
    refine ih (fun r x hx => step r x (List.mem_cons_of_mem mv hx)) ?_
    exact step r mv List.mem_cons_self h

end Run

/-! ### A small setting for single runs -/

/-- A pass up to its answer, and `n` actions after it. -/
def Move.pass (r : CaptureResult) (n : Nat) : List Move :=
  [.act, .act, .act, .answer r] ++ List.replicate n .act

def Compressor.plain : Compressor := ⟨fun rgb _ _ _ => some rgb, some⟩

def PipelineSettings.lossless : PipelineSettings := { PipelineSettings.standard with codec := .zstd }

def Display.small : Display := ⟨"D1", "Display D1", ⟨0, 0, 2, 1⟩, true, default⟩

def Registry.small : Registry := .ofEnumeration (enumerate [.small])

def Machine.small : Machine :=
  ⟨.lossless, [.small], .small, .new .standard, true, .empty, .new, .ready, false, 0⟩

theorem Machine.new_small : Machine.new .lossless [.small] = .ok .small := rfl

/-- A frame of a source that keeps track of changes. -/
def CapturedFrame.tracked (frame : Frame) (rects : List Rect) : CapturedFrame := ⟨frame, true, some rects, false⟩

end Screencast
