import Screencast.Proofs.Run

/-!
# What an action of the loop does

`Action` has one constructor for each way through a step: the phase and the guards that lead there, the machine
after it and the event it leaves. `Waits` has one for each way to have no step. Steps are taken apart and put
together here (`action_step`, `waits_of_stuck`, `step_of_action`); what one does to the channel, the controller,
the registry or the trace is then told by cases on the action.
-/

namespace Screencast

inductive Action (c : Compressor) (m : Machine) : Option Event → Machine → Prop where
  | reserved (phase : m.phase = .ready) :
      Action c m none { m with channel := m.channel.reserve.2, phase := .awaitSlot m.channel.reserve.1 }
  | granted {t : Nat} (phase : m.phase = .awaitSlot t) (running : m.isCancelled = false)
      (held : m.channel.stateOf t = .held) : Action c m none { m with phase := .awaitGate t }
  /-- The reader is gone: what was asked is refused. -/
  | denied {t : Nat} (phase : m.phase = .awaitSlot t) (running : m.isCancelled = false)
      (unheld : m.channel.stateOf t ≠ .held) (refused : m.channel.stateOf t ≠ .waiting) : Action c m none m.stop
  | cancelled {t : Nat} (phase : m.phase = .awaitSlot t ∨ m.phase = .awaitGate t ∨ ∃ d, m.phase = .capturing t d)
      (cancelled : m.isCancelled = true) : Action c m none (m.stopWith t)
  | acquired {t : Nat} {d : Display} (phase : m.phase = .awaitGate t) (running : m.isCancelled = false)
      (gate : m.controller.isGateOpen = true) (selected : m.registry.selectPrimary.selected = some d) :
      Action c m (some (.acquired d))
        { m with
          registry := m.registry.selectPrimary
          controller := m.controller.markIteration m.now
          phase := .capturing t d }
  /-- There is no display to capture. -/
  | unattended {t : Nat} (phase : m.phase = .awaitGate t) (running : m.isCancelled = false)
      (gate : m.controller.isGateOpen = true) (selected : m.registry.selectPrimary.selected = none) :
      Action c m none
        ({ m with registry := m.registry.selectPrimary, controller := m.controller.markIteration m.now }.rest t
          m.settings.failureDelay)
  | idled {t : Nat} {d : Display} (phase : m.phase = .idle t d)
      (unasked : m.isRequested = false ∨ m.memory.baselineOf d.name = none) :
      Action c m none (m.rest t m.settings.noChangeDelay)
  | resend {t : Nat} {d : Display} {f : Frame} (phase : m.phase = .idle t d) (flag : m.isRequested = true)
      (baseline : m.memory.baselineOf d.name = some f) :
      Action c m none
        { m with memory := { m.memory with baseline := none }, phase := .lowering ⟨t, d, f⟩ .requested }
  | keyframe {t : Nat} {d : Display} {f : CapturedFrame} {b : Bool} {reason : KeyframeReason}
      (phase : m.phase = .choosing t d f b) (choice : m.choice d f b = .keyframe reason) :
      Action c m none { m with memory := m.memoryAtChoice d b, phase := .lowering ⟨t, d, f.frame⟩ reason }
  | delta {t : Nat} {d : Display} {f : CapturedFrame} {b : Bool} {region : Rect}
      (phase : m.phase = .choosing t d f b) (choice : m.choice d f b = .delta region) :
      Action c m none { m with memory := m.memoryAtChoice d b, phase := .encodingDelta ⟨t, d, f.frame⟩ region }
  | unchanged {t : Nat} {d : Display} {f : CapturedFrame} {b : Bool} (phase : m.phase = .choosing t d f b)
      (choice : m.choice d f b = .unchanged) :
      Action c m none
        ({ m with memory := (m.memoryAtChoice d b).noteFrame d f.frame }.rest t m.settings.noChangeDelay)
  | lowered {s : Shipment} {reason : KeyframeReason} (phase : m.phase = .lowering s reason) :
      Action c m none { m with isRequested := false, phase := .encodingKeyframe s reason }
  | encodedKeyframe {s : Shipment} {reason : KeyframeReason} {data : ByteArray}
      (phase : m.phase = .encodingKeyframe s reason)
      (data_eq : s.frame.encodeRegion c s.frame.bounds m.settings.keyframeQuality = .ok data) :
      Action c m none { m with phase := .sendingKeyframe s data }
  | refusedKeyframe {s : Shipment} {reason : KeyframeReason} {fault : StreamError}
      (phase : m.phase = .encodingKeyframe s reason)
      (fault_eq : s.frame.encodeRegion c s.frame.bounds m.settings.keyframeQuality = .error fault) :
      Action c m (some (.refused true)) { m with phase := .raising s.ticket none }
  | sentKeyframe {s : Shipment} {data : ByteArray} (phase : m.phase = .sendingKeyframe s data) :
      Action c m (m.taken s.ticket (.ofRect s.frame.bounds true data)) (m.sendKeyframe s data).1
  | encodedDelta {s : Shipment} {region : Rect} {data : ByteArray} (phase : m.phase = .encodingDelta s region)
      (data_eq : s.frame.encodeRegion c region m.controller.quality = .ok data) :
      Action c m none { m with phase := .sendingDelta s region data }
  | refusedDelta {s : Shipment} {region : Rect} {fault : StreamError} (phase : m.phase = .encodingDelta s region)
      (fault_eq : s.frame.encodeRegion c region m.controller.quality = .error fault) :
      Action c m (some (.refused false)) { m with phase := .raising s.ticket none }
  | sentDelta {s : Shipment} {region : Rect} {data : ByteArray} (phase : m.phase = .sendingDelta s region data) :
      Action c m (m.taken s.ticket (.ofRect region false data)) (m.sendDelta s region data).1
  | raised {t : Nat} (phase : m.phase = .raising t none) :
      Action c m (some .raised) ({ m with isRequested := true }.again t)
  | raisedLate {t : Nat} {delay : Micros} (phase : m.phase = .raising t (some delay)) :
      Action c m (some .raised) ({ m with isRequested := true }.rest t delay)
  | woken {wake : Micros} (phase : m.phase = .resting wake) (running : m.isCancelled = false) (due : wake ≤ m.now) :
      Action c m none { m with phase := .ready }
  | left {wake : Micros} (phase : m.phase = .resting wake) (cancelled : m.isCancelled = true) : Action c m none m.stop

namespace Machine

/-- What a machine waits for. -/
inductive Waits (m : Machine) : Prop where
  | room {t : Nat} (phase : m.phase = .awaitSlot t) (running : m.isCancelled = false)
      (waiting : m.channel.stateOf t = .waiting)
  | gate {t : Nat} (phase : m.phase = .awaitGate t) (running : m.isCancelled = false)
      (gate : m.controller.isGateOpen = false)
  | answer {t : Nat} {d : Display} (phase : m.phase = .capturing t d) (running : m.isCancelled = false)
  | wake {wake : Micros} (phase : m.phase = .resting wake) (running : m.isCancelled = false) (early : m.now < wake)
  | stopped (phase : m.phase = .stopped)

variable {c : Compressor} {m : Machine} {r : Machine × List Happening}

theorem event_nil (h : ∀ t delay, m.phase ≠ .raising t delay) (after : Machine) : m.event after [] = none := by
  unfold event
  cases hp : m.phase with
  | raising t delay => exact absurd hp (h t delay)
  | _ => rfl

theorem action_acquire {t : Nat} (hp : m.phase = .awaitGate t) (hrun : m.isCancelled = false)
    (hgate : m.controller.isGateOpen = true) :
    Action c m (m.event (m.acquire t).1 (m.acquire t).2) (m.acquire t).1 := by
  simp only [acquire, Registry.selectedOrPrimary]
  cases hs : m.registry.selectPrimary.selected with
  | none =>
    rw [event_nil (by simp [hp])]
    exact .unattended hp hrun hgate hs
  | some d =>
    simp only [event, hp]
    exact .acquired hp hrun hgate hs

theorem action_answerIdle {t : Nat} {d : Display} (hp : m.phase = .idle t d) :
    Action c m none (m.answerIdle t d) := by
  unfold answerIdle
  split
  · rename_i hbaseline
    split
    · rename_i hflag
      exact .resend hp hflag hbaseline
    · rename_i hflag
      exact .idled hp (.inl (Bool.eq_false_iff.mpr hflag))
  · rename_i hbaseline
    exact .idled hp (.inr hbaseline)

theorem action_choose {t : Nat} {d : Display} {f : CapturedFrame} {b : Bool} (hp : m.phase = .choosing t d f b) :
    Action c m none (m.choose t d f b) := by
  simp only [choose]
  split
  · rename_i hchoice
    exact .keyframe hp hchoice
  · rename_i hchoice
    exact .delta hp hchoice
  · rename_i hchoice
    exact .unchanged hp hchoice

theorem action_awaitSlot {t : Nat} (hp : m.phase = .awaitSlot t) (hs : m.step c = some r) :
    Action c m (m.event r.1 r.2) r.1 := by
  simp only [step, hp] at hs
  split at hs
  · rename_i hcancel
    cases hs
    rw [event_nil (by simp [hp])]
    exact .cancelled (.inl hp) hcancel
  · rename_i hrun
    split at hs
    · rename_i hheld
      cases hs
      rw [event_nil (by simp [hp])]
      exact .granted hp (Bool.eq_false_iff.mpr hrun) hheld
    · cases hs
    · rename_i hunheld hrefused
      cases hs
      rw [event_nil (by simp [hp])]
      exact .denied hp (Bool.eq_false_iff.mpr hrun) hunheld hrefused

theorem action_awaitGate {t : Nat} (hp : m.phase = .awaitGate t) (hs : m.step c = some r) :
    Action c m (m.event r.1 r.2) r.1 := by
  simp only [step, hp] at hs
  split at hs
  · rename_i hcancel
    cases hs
    rw [event_nil (by simp [hp])]
    exact .cancelled (.inr (.inl hp)) hcancel
  · rename_i hrun
    split at hs
    · rename_i hgate
      obtain rfl := Option.some.inj hs
      exact action_acquire hp (Bool.eq_false_iff.mpr hrun) hgate
    · cases hs

theorem action_capturing {t : Nat} {d : Display} (hp : m.phase = .capturing t d) (hs : m.step c = some r) :
    Action c m (m.event r.1 r.2) r.1 := by
  simp only [step, hp] at hs
  split at hs
  · rename_i hcancel
    cases hs
    rw [event_nil (by simp [hp])]
    exact .cancelled (.inr (.inr ⟨d, hp⟩)) hcancel
  · cases hs

theorem action_encodingKeyframe {s : Shipment} {reason : KeyframeReason} (hp : m.phase = .encodingKeyframe s reason)
    (hs : m.step c = some r) : Action c m (m.event r.1 r.2) r.1 := by
  simp only [step, hp] at hs
  split at hs
  · rename_i data hdata
    cases hs
    rw [event_nil (by simp [hp])]
    exact .encodedKeyframe hp hdata
  · rename_i fault hfault
    cases hs
    simp only [event, hp]
    exact .refusedKeyframe hp hfault

theorem action_encodingDelta {s : Shipment} {region : Rect} (hp : m.phase = .encodingDelta s region)
    (hs : m.step c = some r) : Action c m (m.event r.1 r.2) r.1 := by
  simp only [step, hp] at hs
  split at hs
  · rename_i data hdata
    cases hs
    rw [event_nil (by simp [hp])]
    exact .encodedDelta hp hdata
  · rename_i fault hfault
    cases hs
    simp only [event, hp]
    exact .refusedDelta hp hfault

theorem action_sendingKeyframe {s : Shipment} {data : ByteArray} (hp : m.phase = .sendingKeyframe s data)
    (hs : m.step c = some r) : Action c m (m.event r.1 r.2) r.1 := by
  simp only [step, hp, Option.some.injEq] at hs
  subst hs
  have he : m.event (m.sendKeyframe s data).1 (m.sendKeyframe s data).2 =
      m.taken s.ticket (.ofRect s.frame.bounds true data) := by
    simp [event, hp, sendKeyframe, Phase.ticket?]
  rw [he]
  exact .sentKeyframe hp

theorem action_sendingDelta {s : Shipment} {region : Rect} {data : ByteArray}
    (hp : m.phase = .sendingDelta s region data) (hs : m.step c = some r) : Action c m (m.event r.1 r.2) r.1 := by
  simp only [step, hp, Option.some.injEq] at hs
  subst hs
  have he : m.event (m.sendDelta s region data).1 (m.sendDelta s region data).2 =
      m.taken s.ticket (.ofRect region false data) := by
    simp [event, hp, sendDelta, Phase.ticket?]
  rw [he]
  exact .sentDelta hp

theorem action_resting {wake : Micros} (hp : m.phase = .resting wake) (hs : m.step c = some r) :
    Action c m (m.event r.1 r.2) r.1 := by
  simp only [step, hp] at hs
  split at hs
  · rename_i hcancel
    cases hs
    rw [event_nil (by simp [hp])]
    exact .left hp hcancel
  · rename_i hrun
    split at hs
    · rename_i hdue
      cases hs
      rw [event_nil (by simp [hp])]
      exact .woken hp (Bool.eq_false_iff.mpr hrun) hdue
    · cases hs

theorem action_raising {t : Nat} {delay : Option Micros} (hp : m.phase = .raising t delay) (hs : m.step c = some r) :
    Action c m (m.event r.1 r.2) r.1 := by
  simp only [step, hp, Option.some.injEq] at hs
  subst hs
  simp only [event, hp]
  cases delay with
  | none => exact .raised hp
  | some delay => exact .raisedLate hp

theorem action_of_silent (hs : m.step c = some r) {after : Machine} (h : m.step c = some (after, []))
    (hp : ∀ t delay, m.phase ≠ .raising t delay) (ha : Action c m none after) : Action c m (m.event r.1 r.2) r.1 := by
  obtain rfl := Option.some.inj (h.symm.trans hs)
  rw [event_nil hp]
  exact ha

/-- Every step is an action. -/
theorem action_step (hs : m.step c = some r) : Action c m (m.event r.1 r.2) r.1 := by
  cases hp : m.phase with
  | ready => exact action_of_silent hs (by simp only [step, hp]) (by simp [hp]) (.reserved hp)
  | awaitSlot t => exact action_awaitSlot hp hs
  | awaitGate t => exact action_awaitGate hp hs
  | capturing t d => exact action_capturing hp hs
  | idle t d => exact action_of_silent hs (by simp only [step, hp]) (by simp [hp]) (action_answerIdle hp)
  | choosing t d f b => exact action_of_silent hs (by simp only [step, hp]) (by simp [hp]) (action_choose hp)
  | lowering s reason => exact action_of_silent hs (by simp only [step, hp]) (by simp [hp]) (.lowered hp)
  | encodingKeyframe s reason => exact action_encodingKeyframe hp hs
  | sendingKeyframe s data => exact action_sendingKeyframe hp hs
  | encodingDelta s region => exact action_encodingDelta hp hs
  | sendingDelta s region data => exact action_sendingDelta hp hs
  | raising t delay => exact action_raising hp hs
  | resting wake => exact action_resting hp hs
  | stopped => simp [step, hp] at hs

/-- Without a step the machine waits. -/
theorem waits_of_stuck (hs : m.step c = none) : m.Waits := by
  cases hp : m.phase <;> simp only [step, hp] at hs
  case awaitSlot t =>
    split at hs
    · cases hs
    · rename_i hrun
      split at hs
      · cases hs
      · rename_i hwaiting
        exact .room hp (Bool.eq_false_iff.mpr hrun) hwaiting
      · cases hs
  case awaitGate t =>
    split at hs
    · cases hs
    · rename_i hrun
      split at hs
      · cases hs
      · rename_i hgate
        exact .gate hp (Bool.eq_false_iff.mpr hrun) (Bool.eq_false_iff.mpr hgate)
  case capturing t d =>
    split at hs
    · cases hs
    · rename_i hrun
      exact .answer hp (Bool.eq_false_iff.mpr hrun)
  case resting wake =>
    split at hs
    · cases hs
    · rename_i hrun
      split at hs
      · cases hs
      · rename_i hearly
        exact .wake hp (Bool.eq_false_iff.mpr hrun) (Int.not_le.mp hearly)
  case encodingKeyframe | encodingDelta => split at hs <;> cases hs
  case stopped => exact .stopped hp
  all_goals cases hs

variable {after : Machine} {e : Option Event}

theorem answerIdle_of_unasked {t : Nat} {d : Display}
    (unasked : m.isRequested = false ∨ m.memory.baselineOf d.name = none) :
    m.answerIdle t d = m.rest t m.settings.noChangeDelay := by
  unfold answerIdle
  rcases unasked with hflag | hnone
  · rw [hflag]
    split <;> rfl
  · rw [hnone]

/-- An action that the list allows is the one that happens. -/
theorem step_of_action (h : Action c m e after) :
    ((m.step c).map fun (after, seen) => (after, m.event after seen)) = some (after, e) := by
  cases h with
  | reserved phase | lowered phase | raised phase | raisedLate phase => simp [step, phase, event]
  | granted phase running held => simp [step, phase, running, held, event]
  | denied phase running unheld refused => simp [step, phase, running, event]
  | cancelled phase cancelled =>
    obtain phase | phase | ⟨d, phase⟩ := phase <;> simp [step, phase, cancelled, event]
  | acquired phase running gate selected | unattended phase running gate selected =>
    simp [step, phase, running, gate, acquire, Registry.selectedOrPrimary, selected, event]
  | idled phase unasked => simp [step, phase, answerIdle_of_unasked unasked, event]
  | resend phase flag baseline => simp [step, phase, answerIdle, baseline, flag, event]
  | keyframe phase choice | delta phase choice | unchanged phase choice => simp [step, phase, choose, choice, event]
  | encodedKeyframe phase data_eq | encodedDelta phase data_eq => simp [step, phase, data_eq, event]
  | refusedKeyframe phase fault_eq | refusedDelta phase fault_eq => simp [step, phase, fault_eq, event]
  | sentKeyframe phase => simp [step, phase, sendKeyframe, event, Phase.ticket?]
  | sentDelta phase => simp [step, phase, sendDelta, event, Phase.ticket?]
  | woken phase running due => simp [step, phase, running, due, event]
  | left phase cancelled => simp [step, phase, cancelled, event]

theorem map_step_iff :
    ((m.step c).map fun (after, seen) => (after, m.event after seen)) = some (after, e) ↔ Action c m e after := by
  refine ⟨fun h => ?_, step_of_action⟩
  obtain ⟨r, hs, hr⟩ := Option.map_eq_some_iff.mp h
  cases hr
  exact action_step hs

theorem move_act_iff : m.move c .act = some (after, e) ↔ Action c m e after := map_step_iff

theorem move_fail_iff : m.move c .fail = some (after, e) ↔ Action .failing m e after := map_step_iff

end Machine
end Screencast
