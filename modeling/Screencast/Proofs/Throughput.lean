import Screencast.Proofs.Order
import Screencast.Proofs.Telemetry
import Screencast.Proofs.Trace

/-!
# Which payloads are measured

Every payload is marked as a frame when it is handed to the channel, but only a delta is marked with its
size. So the throughput that a pass reads is that of the deltas in the window; it is the throughput of
all payloads as long as no keyframe is among them.
-/

namespace Screencast

/-- A payload with the time at which the channel took it. -/
structure Dispatch where
  time : Micros
  payload : RegionPayload

def Dispatch.mark (d : Dispatch) : Mark := ⟨d.time, d.payload.data.size⟩

def Dispatch.deltaMark? (d : Dispatch) : Option Mark := if d.payload.isKeyframe then none else some d.mark

def shownWithin (now window : Micros) (l : List Dispatch) : List Dispatch :=
  l.filter fun d => !d.mark.isExpired now window

def deltas (l : List Dispatch) : List Dispatch := l.filter fun d => !d.payload.isKeyframe

def totalSize (l : List Dispatch) : Nat := (l.map fun d => d.payload.data.size).sum

/-- The marks of the deltas in a window add up to the sizes of the deltas that it shows. -/
theorem total_deltaMarks (l : List Dispatch) (now window : Micros) :
    (Series.within (l.filterMap Dispatch.deltaMark?).reverse now window).total =
      totalSize (deltas (shownWithin now window l)) := by
  unfold Series.within Series.total
  rw [List.filter_reverse, List.map_reverse, List.sum_reverse]
  induction l with
  | nil => rfl
  | cons d l ih =>
    have hsize : d.mark.size = d.payload.data.size := rfl
    cases hk : d.payload.isKeyframe <;> cases hx : d.mark.isExpired now window <;>
      simpa [Dispatch.deltaMark?, deltas, shownWithin, totalSize, hk, hx, hsize] using ih

namespace Passage

variable {c : Compressor} {mayFail : Prop} {m after : Machine} {e : Option Event}

/-- Nothing goes out but what was compressed for it. -/
theorem payload_cases (h : Passage c mayFail m e after) {p : RegionPayload} (hp : e.bind Event.payload? = some p) :
    (∃ s data, m.phase = .sendingKeyframe s data) ∨ ∃ s region data, m.phase = .sendingDelta s region data := by
  cases h with
  | sentKeyframe phase => exact .inl ⟨_, _, phase⟩
  | sentDelta phase => exact .inr ⟨_, _, _, phase⟩
  | quiet _ _ _ _ _ _ isQuiet =>
    rw [(Event.bind_of_isQuiet isQuiet).2.1] at hp
    cases hp
  | _ => cases hp

end Passage

namespace Run

variable {c : Compressor}

/-- The payload that a move hands to the channel. -/
def dispatch? (c : Compressor) (r : Run) (mv : Move) : Option Dispatch :=
  (((r.machine.move c mv).bind Prod.snd).bind Event.payload?).map (Dispatch.mk r.machine.now)

/-- The payloads that the moves of a run hand to the channel, in their order. -/
def dispatches (c : Compressor) (r : Run) : List Move → List Dispatch
  | [] => []
  | mv :: rest => (r.dispatch? c mv).toList ++ (r.next c mv).dispatches c rest

theorem payloads_next (r : Run) (mv : Move) :
    payloads (r.next c mv).trace = ((r.dispatch? c mv).map Dispatch.payload).toList ++ payloads r.trace := by
  unfold next dispatch?
  cases r.machine.move c mv with
  | none => rfl
  | some x =>
    obtain ⟨after, e⟩ := x
    cases e with
    | none => rfl
    | some e =>
      show payloads (e :: r.trace) = _
      rw [payloads_cons]
      simp [Option.map_map, Function.comp_def]

theorem payloads_play (r : Run) (moves : List Move) : payloads (r.play c moves).trace =
    ((r.dispatches c moves).map Dispatch.payload).reverse ++ payloads r.trace := by
  induction moves generalizing r with
  | nil => rfl
  | cons mv rest ih =>
    show payloads ((r.next c mv).play c rest).trace = _
    rw [ih, payloads_next]
    cases hd : r.dispatch? c mv <;> simp [dispatches, hd]

section Moves

variable {r : Run} {mv : Move}

theorem dispatch?_of_action {after : Machine} {p : RegionPayload}
    (h : ∀ coder, Action coder r.machine (some (.sent p)) after) (hmv : mv = .act ∨ mv = .fail) :
    r.dispatch? c mv = some ⟨r.machine.now, p⟩ := by
  have hm : r.machine.move c mv = some (after, some (.sent p)) := by
    rcases hmv with rfl | rfl
    · exact Machine.move_act_iff.mpr (h c)
    · exact Machine.move_fail_iff.mpr (h .failing)
  unfold dispatch?
  rw [hm]
  rfl

/-- With the channel's room held, whatever an action sends is handed over. -/
theorem dispatch?_of_sendingKeyframe (hi : r.machine.InOrder c) {s : Shipment} {data : ByteArray}
    (hp : r.machine.phase = .sendingKeyframe s data) (hmv : mv = .act ∨ mv = .fail) :
    r.dispatch? c mv = some ⟨r.machine.now, .ofRect s.frame.bounds true data⟩ := by
  have hsent (coder : Compressor) : Action coder r.machine (some (.sent (.ofRect s.frame.bounds true data)))
      (r.machine.sendKeyframe s data).1 := by
    rw [← hi.taken (t := s.ticket) (by rw [hp]; rfl)]
    exact .sentKeyframe hp
  exact dispatch?_of_action hsent hmv

theorem dispatch?_of_sendingDelta (hi : r.machine.InOrder c) {s : Shipment} {region : Rect} {data : ByteArray}
    (hp : r.machine.phase = .sendingDelta s region data) (hmv : mv = .act ∨ mv = .fail) :
    r.dispatch? c mv = some ⟨r.machine.now, .ofRect region false data⟩ := by
  have hsent (coder : Compressor) : Action coder r.machine (some (.sent (.ofRect region false data)))
      (r.machine.sendDelta s region data).1 := by
    rw [← hi.taken (t := s.ticket) (by rw [hp]; rfl)]
    exact .sentDelta hp
  exact dispatch?_of_action hsent hmv

/-- While nothing is on its way out, neither does a payload go out nor is a size marked. -/
theorem bytes_of_other (mv : Move) (hk : ∀ s data, r.machine.phase ≠ .sendingKeyframe s data)
    (hd : ∀ s region data, r.machine.phase ≠ .sendingDelta s region data) :
    (r.machine.telemetry mv).filterMap (ControllerMove.mark? .bytes) = [] ∧ r.dispatch? c mv = none := by
  constructor
  · cases mv with
    | act | fail =>
      simp only [Machine.telemetry, Machine.marking]
      cases hp : r.machine.phase with
      | sendingKeyframe s data => exact absurd hp (hk s data)
      | sendingDelta s region data => exact absurd hp (hd s region data)
      | awaitGate t => dsimp only; split <;> rfl
      | _ => rfl
    | _ => rfl
  · unfold dispatch?
    cases hm : r.machine.move c mv with
    | none => rfl
    | some x =>
      obtain ⟨after, e⟩ := x
      cases he : e.bind Event.payload? with
      | none => simp [he]
      | some p =>
        have hp : Passage c True r.machine e after := Machine.passage_move (fun _ => trivial) hm
        rcases hp.payload_cases he with ⟨s, data, hphase⟩ | ⟨s, region, data, hphase⟩
        · exact absurd hphase (hk s data)
        · exact absurd hphase (hd s region data)

theorem bytes_of_action (hi : r.machine.InOrder c) (hmv : mv = .act ∨ mv = .fail) :
    (r.machine.telemetry mv).filterMap (ControllerMove.mark? .bytes) =
      (r.dispatch? c mv).toList.filterMap Dispatch.deltaMark? := by
  cases hp : r.machine.phase with
  | sendingKeyframe s data =>
    rw [dispatch?_of_sendingKeyframe hi hp hmv]
    rcases hmv with rfl | rfl <;> simp only [Machine.telemetry, Machine.marking, hp] <;> rfl
  | sendingDelta s region data =>
    rw [dispatch?_of_sendingDelta hi hp hmv]
    rcases hmv with rfl | rfl <;> simp only [Machine.telemetry, Machine.marking, hp] <;> rfl
  | _ =>
    obtain ⟨hbytes, hnone⟩ := bytes_of_other (c := c) (r := r) mv (by simp [hp]) (by simp [hp])
    rw [hbytes, hnone]
    rfl

theorem bytes_of_move (hi : r.machine.InOrder c) (mv : Move) :
    (r.machine.telemetry mv).filterMap (ControllerMove.mark? .bytes) =
      (r.dispatch? c mv).toList.filterMap Dispatch.deltaMark? := by
  cases mv with
  | act => exact bytes_of_action hi (.inl rfl)
  | fail => exact bytes_of_action hi (.inr rfl)
  | answer a =>
    simp only [dispatch?, Machine.move]
    split <;> rfl
  | select name =>
    simp only [dispatch?, Machine.move]
    split <;> rfl
  | _ => rfl

end Moves

/-- The sizes that a run marks are those of the deltas that it hands over. -/
theorem marks_bytes {r : Run} (hi : r.machine.InOrder c) (moves : List Move) :
    ControllerMove.marks .bytes (r.telemetry c moves) = ((r.dispatches c moves).filterMap Dispatch.deltaMark?).reverse := by
  unfold ControllerMove.marks
  congr 1
  induction moves generalizing r with
  | nil => rfl
  | cons mv rest ih =>
    show (r.machine.telemetry mv ++ (r.next c mv).telemetry c rest).filterMap _ =
      ((r.dispatch? c mv).toList ++ (r.next c mv).dispatches c rest).filterMap _
    rw [List.filterMap_append, List.filterMap_append, bytes_of_move hi, ih (next_inOrder hi mv)]

end Run

variable {c : Compressor} {s : PipelineSettings} {attached : List Display} {m : Machine}

/-- The throughput that a pass reads is that of the deltas handed over within the window, and of all payloads if no
keyframe is among them. -/
theorem throughput_of_deltas (h : Machine.new s attached = .ok m) (registry : Registry) (moves : List Move) :
    let r := (Run.start m registry).play c moves
    let after := (r.next c .tick).machine.controller
    let dispatched := (Run.start m registry).dispatches c moves
    let shown := shownWithin r.machine.now s.bandwidth.window dispatched
    payloads r.trace = (dispatched.map Dispatch.payload).reverse ∧
    after.bytesSent.total = totalSize (deltas shown) ∧
    after.mbps = Controller.seriesThroughput after.bytesSent s.bandwidth.window ∧
    ((∀ d ∈ shown, d.payload.isKeyframe = false) → after.bytesSent.total = totalSize shown) := by
  intro r after dispatched shown
  have hseries : after.bytesSent = _ := Run.series_tick (c := c) h registry moves .bytes
  have htotal : after.bytesSent.total = totalSize (deltas shown) := by
    rw [hseries, Run.marks_bytes (Run.start_inOrder h registry)]
    exact total_deltaMarks _ _ _
  have hsettings : r.machine.controller.settings = s.bandwidth := Run.settings_controller h registry moves
  refine ⟨?_, htotal, ?_, fun hdeltas => ?_⟩
  · exact (Run.payloads_play _ moves).trans (List.append_nil _)
  · rw [← hsettings]
    rfl
  · have hall : deltas shown = shown := List.filter_eq_self.mpr fun d hd => by simp [hdeltas d hd]
    rw [htotal, hall]

/-- A keyframe goes out, and a delta of one pixel four seconds later. -/
def laterDeltaMoves : List Move :=
  Move.pass (.captured (.tracked (.filled 2 1 .rgb 7) [])) 4 ++ [.receive, .wait 4000000] ++
    Move.pass (.captured (.tracked (.filled 2 1 .rgb 9) [⟨0, 0, 1, 1⟩])) 3

theorem throughput_of_deltas_later :
    let r := (Run.start .small .small).play .plain laterDeltaMoves
    let after := (r.next .plain .tick).machine.controller
    let shown := shownWithin r.machine.now BandwidthSettings.standard.window
      ((Run.start .small .small).dispatches .plain laterDeltaMoves)
    Machine.new .lossless [.small] = .ok .small ∧ after.bytesSent.total = totalSize shown ∧ totalSize shown = 3 :=
  ⟨Machine.new_small, (throughput_of_deltas Machine.new_small .small laterDeltaMoves).2.2.2 (by decide), by decide⟩

/-- A keyframe of one pixel is not measured. -/
theorem throughput_misses_keyframe :
    let moves := Move.pass (.captured (.tracked (.filled 1 1 .rgb 7) [])) 4
    let r := (Run.start .small .small).play .plain moves
    let after := (r.next .plain .tick).machine.controller
    let shown := shownWithin r.machine.now BandwidthSettings.standard.window
      ((Run.start .small .small).dispatches .plain moves)
    Machine.new .lossless [.small] = .ok .small ∧ totalSize shown = 3 ∧ after.bytesSent.total = 0 ∧ after.mbps = 0.0 :=
  ⟨Machine.new_small, by decide, by decide, by decide⟩

end Screencast
