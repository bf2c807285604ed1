import Screencast.Proofs.Action
import Screencast.Proofs.TrailingWindow

/-!
# What a run tells its controller

The controller of a run sees marks and passes, in the order of time. `Run.telemetry` lists them, and
`gauges_play` says that nothing else moves the series, the rates, the quality or the gate: the
controller of a run is one that was played the list. So what holds of every such controller holds in
every run.
-/

namespace Screencast

/-! ### Marks and passes -/

def ControllerMove.time : ControllerMove → Micros
  | bytes now _ | frame now | iteration now | process now => now

theorem ControllerMove.isOrdered_of_pairwise {moves : List ControllerMove}
    (h : moves.Pairwise fun a b => a.time ≤ b.time) : IsOrdered moves := by
  constructor
  · intro k
    unfold Series.IsOrdered marks
    rw [List.pairwise_reverse, List.pairwise_filterMap]
    refine h.imp fun {a b} hab m hm n hn => ?_
    cases k <;> cases a <;> cases b <;> cases hm <;> cases hn <;> exact hab
  · rw [List.pairwise_filterMap]
    refine h.imp fun {a b} hab p hp q hq => ?_
    cases a <;> cases b <;> cases hp <;> cases hq
    exact hab

namespace Controller

/-- The controller by what marks and passes act on. -/
def gauges (c : Controller) : Controller := { c with isUsingGpu := false, extra := .empty, feed := .empty }

theorem settings_play (c : Controller) (moves : List ControllerMove) : (c.play moves).settings = c.settings := by
  induction moves generalizing c with
  | nil => rfl
  | cons mv rest ih => exact (ih (c.move mv)).trans (settings_move c mv)

theorem play_append (c : Controller) (a b : List ControllerMove) : c.play (a ++ b) = (c.play a).play b :=
  List.foldl_append

theorem quality_play_of_marks {c : Controller} {moves : List ControllerMove} (h : ∀ x ∈ moves, x.pass? = none) :
    (c.play moves).quality = c.quality ∧ (c.play moves).reductions = c.reductions := by
  induction moves generalizing c with
  | nil => exact ⟨rfl, rfl⟩
  | cons x rest ih =>
    have hfirst : (c.move x).quality = c.quality ∧ (c.move x).reductions = c.reductions := by
      have hx := h x List.mem_cons_self
      cases x with
      | process now => cases hx
      | bytes | frame | iteration => exact ⟨rfl, rfl⟩
    have hrest := ih (c := c.move x) fun y hy => h y (List.mem_cons_of_mem x hy)
    exact ⟨hrest.1.trans hfirst.1, hrest.2.trans hfirst.2⟩

end Controller

namespace Machine

variable {c : Compressor} {m after : Machine} {e : Option Event}

/-- What an action of the loop tells the controller. -/
def marking (m : Machine) : List ControllerMove :=
  match m.phase with
  | .awaitGate _ => if !m.isCancelled && m.controller.isGateOpen then [.iteration m.now] else []
  | .sendingKeyframe _ _ => [.frame m.now]
  | .sendingDelta _ _ data => [.bytes m.now data.size, .frame m.now]
  | _ => []

def telemetry (m : Machine) : Move → List ControllerMove
  | .act | .fail => m.marking
  | .tick => [.process m.now]
  | _ => []

/-- The controller is told these moves and no others, and neither the time nor the displays of the registry change. -/
structure Tells (m after : Machine) (moves : List ControllerMove) : Prop where
  gauges : after.controller.gauges = m.controller.gauges.play moves
  now : after.now = m.now
  displays : after.registry.displays = m.registry.displays

theorem tells_sendKeyframe (m : Machine) (s : Shipment) (data : ByteArray) :
    m.Tells (m.sendKeyframe s data).1 [.frame m.now] := by
  refine ⟨?_, rfl, rfl⟩
  simp only [sendKeyframe]
  split <;> rfl

theorem marking_of_cancelled {t : Nat}
    (phase : m.phase = .awaitSlot t ∨ m.phase = .awaitGate t ∨ ∃ d, m.phase = .capturing t d)
    (cancelled : m.isCancelled = true) : m.marking = [] := by
  unfold marking
  obtain phase | phase | ⟨d, phase⟩ := phase
  · rw [phase]
  · simp only [phase, cancelled, Bool.not_true, Bool.false_and, Bool.false_eq_true, if_false]
  · rw [phase]

theorem marking_of_gate {t : Nat} (phase : m.phase = .awaitGate t) (running : m.isCancelled = false)
    (gate : m.controller.isGateOpen = true) : m.marking = [.iteration m.now] := by
  unfold marking
  simp only [phase, running, gate, Bool.not_false, Bool.and_true, if_true]

theorem tells_action (h : Action c m e after) : m.Tells after m.marking := by
  cases h with
  | cancelled phase cancelled =>
    rw [marking_of_cancelled phase cancelled]
    exact ⟨rfl, rfl, rfl⟩
  | acquired phase running gate | unattended phase running gate =>
    rw [marking_of_gate phase running gate]
    exact ⟨rfl, rfl, rfl⟩
  | sentKeyframe phase =>
    rw [marking, phase]
    exact m.tells_sendKeyframe _ _
  | reserved phase | granted phase | denied phase | idled phase | resend phase | keyframe phase | delta phase
  | unchanged phase | lowered phase | encodedKeyframe phase | refusedKeyframe phase | encodedDelta phase
  | refusedDelta phase | sentDelta phase | raised phase | raisedLate phase | woken phase | left phase =>
    rw [marking, phase]
    exact ⟨rfl, rfl, rfl⟩

theorem gauges_supply (m : Machine) (r : CaptureResult) :
    (m.supply r).controller.gauges = m.controller.gauges ∧ (m.supply r).now = m.now := by
  unfold supply
  split
  · cases r <;> exact ⟨rfl, rfl⟩
  · exact ⟨rfl, rfl⟩

theorem gauges_move {mv : Move} (h : m.move c mv = some (after, e)) :
    after.controller.gauges = m.controller.gauges.play (m.telemetry mv) ∧ m.now ≤ after.now := by
  cases mv with
  | act =>
    have htells := tells_action (move_act_iff.mp h)
    exact ⟨htells.gauges, Int.le_of_eq htells.now.symm⟩
  | fail =>
    have htells := tells_action (move_fail_iff.mp h)
    exact ⟨htells.gauges, Int.le_of_eq htells.now.symm⟩
  | answer r =>
    obtain ⟨t, d, -, rfl, -⟩ := answer_of_move h
    have hsupply := gauges_supply m r
    exact ⟨hsupply.1, Int.le_of_eq hsupply.2.symm⟩
  | select name =>
    obtain ⟨d, rfl, -⟩ := select_of_move h
    exact ⟨rfl, Int.le_refl _⟩
  | tick =>
    cases h
    exact ⟨rfl, Int.le_refl _⟩
  | wait time =>
    cases h
    exact ⟨rfl, Int.le_add_of_nonneg_right (Int.natCast_nonneg time)⟩
  | _ =>
    cases h
    exact ⟨rfl, Int.le_refl _⟩

/-- An action tells of marks, and of their time. -/
theorem mem_marking {x : ControllerMove} (hx : x ∈ m.marking) :
    x = .iteration m.now ∨ x = .frame m.now ∨ ∃ size, x = .bytes m.now size := by
  unfold marking at hx
  cases hp : m.phase <;> simp only [hp] at hx
  case awaitGate =>
    split at hx
    · exact .inl (List.mem_singleton.mp hx)
    · cases hx
  case sendingKeyframe => exact .inr (.inl (List.mem_singleton.mp hx))
  case sendingDelta s region data =>
    simp only [List.mem_cons, List.not_mem_nil, or_false] at hx
    exact hx.elim (fun h => .inr (.inr ⟨_, h⟩)) fun h => .inr (.inl h)
  all_goals cases hx

theorem time_marking (m : Machine) : ∀ x ∈ m.marking, x.time = m.now := by
  intro x hx
  rcases mem_marking hx with rfl | rfl | ⟨size, rfl⟩ <;> rfl

theorem pass?_marking (m : Machine) : ∀ x ∈ m.marking, x.pass? = none := by
  intro x hx
  rcases mem_marking hx with rfl | rfl | ⟨size, rfl⟩ <;> rfl

theorem settings_of_move {mv : Move} (h : m.move c mv = some (after, e)) :
    after.controller.settings = m.controller.settings :=
  (congrArg Controller.settings (gauges_move h).1).trans (Controller.settings_play _ _)

/-- Quality moves with the metrics passes only. -/
theorem quality_of_ne_tick {mv : Move} (h : m.move c mv = some (after, e)) (hmv : mv ≠ .tick) :
    after.controller.quality = m.controller.quality ∧ after.controller.reductions = m.controller.reductions := by
  have hmarks : ∀ x ∈ m.telemetry mv, x.pass? = none := by
    cases mv with
    | tick => exact absurd rfl hmv
    | act | fail => exact m.pass?_marking
    | _ => exact fun x hx => nomatch hx
  have hgauges := (gauges_move h).1
  have hkept := Controller.quality_play_of_marks (c := m.controller.gauges) hmarks
  exact ⟨(congrArg Controller.quality hgauges).trans hkept.1, (congrArg Controller.reductions hgauges).trans hkept.2⟩

theorem time_telemetry (m : Machine) (mv : Move) : ∀ x ∈ m.telemetry mv, x.time = m.now := by
  intro x hx
  cases mv with
  | act | fail => exact time_marking m x hx
  | tick =>
    rw [List.mem_singleton.mp hx]
    rfl
  | _ => cases hx

theorem pairwise_telemetry (m : Machine) (mv : Move) : (m.telemetry mv).Pairwise fun a b => a.time ≤ b.time := by
  refine List.pairwise_iff_forall_sublist.mpr fun {a b} hab => ?_
  have ha := time_telemetry m mv a (hab.subset (by simp))
  have hb := time_telemetry m mv b (hab.subset (by simp))
  exact Int.le_of_eq (ha.trans hb.symm)

theorem marking_of_waits (h : m.Waits) : m.marking = [] := by
  unfold marking
  cases h with
  | gate phase _ gate => simp only [phase, gate, Bool.and_false, Bool.false_eq_true, if_false]
  | room phase | answer phase | wake phase | stopped phase => rw [phase]

theorem telemetry_of_stuck {mv : Move} (h : m.move c mv = none) : m.telemetry mv = [] := by
  cases mv with
  | act | fail => exact marking_of_waits (waits_of_stuck (Option.map_eq_none_iff.mp h))
  | tick => cases h
  | _ => rfl

end Machine

namespace Run

variable {c : Compressor}

/-- What the moves of a run tell its controller, in their order. -/
def telemetry (c : Compressor) (r : Run) : List Move → List ControllerMove
  | [] => []
  | mv :: rest => r.machine.telemetry mv ++ (r.next c mv).telemetry c rest

theorem telemetry_append (r : Run) (a b : List Move) :
    r.telemetry c (a ++ b) = r.telemetry c a ++ (r.play c a).telemetry c b := by
  induction a generalizing r with
  | nil => rfl
  | cons mv a ih =>
    show r.machine.telemetry mv ++ (r.next c mv).telemetry c (a ++ b) = _
    rw [ih, ← List.append_assoc]
    rfl

theorem now_le_next (r : Run) (mv : Move) : r.machine.now ≤ (r.next c mv).machine.now := by
  unfold next
  split
  · rename_i hm
    exact (Machine.gauges_move hm).2
  · exact Int.le_refl _

/-- Time never goes back in what a controller is told. -/
theorem telemetry_ordered (r : Run) (moves : List Move) :
    (r.telemetry c moves).Pairwise (fun a b => a.time ≤ b.time) ∧
      ∀ x ∈ r.telemetry c moves, r.machine.now ≤ x.time := by
  induction moves generalizing r with
  | nil => exact ⟨List.Pairwise.nil, by simp [telemetry]⟩
  | cons mv rest ih =>
    obtain ⟨hordered, hlater⟩ := ih (r.next c mv)
    have hnow := Machine.time_telemetry r.machine mv
    have hle := now_le_next (c := c) r mv
    refine ⟨List.pairwise_append.mpr ⟨r.machine.pairwise_telemetry mv, hordered, fun a ha b hb => ?_⟩, fun x hx => ?_⟩
    · rw [hnow a ha]
      exact Int.le_trans hle (hlater b hb)
    · rcases List.mem_append.mp hx with hx | hx
      · exact Int.le_of_eq (hnow x hx).symm
      · exact Int.le_trans hle (hlater x hx)

theorem gauges_next (r : Run) (mv : Move) :
    (r.next c mv).machine.controller.gauges = r.machine.controller.gauges.play (r.machine.telemetry mv) := by
  unfold next
  split
  · rename_i hm
    exact (Machine.gauges_move hm).1
  · rename_i hm
    rw [Machine.telemetry_of_stuck hm]
    rfl

/-- The controller of a run is one that was played the marks and passes of the run. -/
theorem gauges_play (r : Run) (moves : List Move) :
    (r.play c moves).machine.controller.gauges = r.machine.controller.gauges.play (r.telemetry c moves) := by
  induction moves generalizing r with
  | nil => rfl
  | cons mv rest ih =>
    show ((r.next c mv).play c rest).machine.controller.gauges = _
    rw [ih, gauges_next, ← Controller.play_append]
    rfl

end Run

theorem Machine.new_controller {s : PipelineSettings} {attached : List Display} {m : Machine}
    (h : Machine.new s attached = .ok m) : m.controller = .new s.bandwidth := by
  unfold Machine.new at h
  split at h
  · cases h
  · cases h
    rfl

theorem Run.start_gauges_play {c : Compressor} {s : PipelineSettings} {attached : List Display} {m : Machine}
    (h : Machine.new s attached = .ok m) (registry : Registry) (moves : List Move) :
    ((start m registry).play c moves).machine.controller.gauges =
      (Controller.new s.bandwidth).play ((start m registry).telemetry c moves) := by
  rw [gauges_play]
  congr 1
  show m.controller.gauges = _
  rw [Machine.new_controller h]
  rfl

theorem Run.settings_controller {c : Compressor} {s : PipelineSettings} {attached : List Display} {m : Machine}
    (h : Machine.new s attached = .ok m) (registry : Registry) (moves : List Move) :
    ((start m registry).play c moves).machine.controller.settings = s.bandwidth :=
  (congrArg Controller.settings (start_gauges_play h registry moves)).trans (Controller.settings_play _ _)

/-- A pass in a run leaves in each series the marks of the run that its window shows. -/
theorem Run.series_tick {c : Compressor} {s : PipelineSettings} {attached : List Display} {m : Machine}
    (h : Machine.new s attached = .ok m) (registry : Registry) (moves : List Move) (k : Tally) :
    let r := (start m registry).play c moves
    (r.next c .tick).machine.controller.series k =
      (ControllerMove.marks k ((start m registry).telemetry c moves)).within r.machine.now s.bandwidth.window := by
  intro r
  have hordered := ControllerMove.isOrdered_of_pairwise ((start m registry).telemetry_ordered (c := c) (moves ++ [.tick])).1
  rw [telemetry_append] at hordered
  have hkeeps := (Controller.KeepsMarks.start s.bandwidth).play hordered.of_append
  have hgauges := start_gauges_play (c := c) h registry moves
  calc (r.next c .tick).machine.controller.series k
      = (r.machine.controller.gauges.process r.machine.now).series k := by cases k <;> rfl
    _ = (((Controller.new s.bandwidth).play ((start m registry).telemetry c moves)).process r.machine.now).series k := by
        rw [hgauges]
    _ = _ := hkeeps.series_process hordered k

end Screencast
