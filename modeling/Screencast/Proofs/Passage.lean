import Screencast.Proofs.Action

/-!
# What a move can do

`Passage` lists what one move can do to the loop, with all that it leaves as it was. Moves that
neither bring a frame nor pass one on are taken together: `aside` for what others do, `quiet` for the
parts of a pass that have nothing in hand. Every move of a run is a passage. What only the channel, the
controller or the registry can tell of an action is left to `Action`.
-/

namespace Screencast

/-- No frame is in hand and no request is on its way. -/
def Phase.isOpen : Phase → Bool
  | .ready | .awaitSlot _ | .awaitGate _ | .capturing _ _ | .idle _ _ | .resting _ | .stopped => true
  | _ => false

/-- Nothing came of it. -/
def Event.isQuiet : Event → Bool
  | .acquired _ | .answered _ .noChanges | .answered _ .timedOut => true
  | _ => false

namespace PayloadChannel

theorem settle_holder {c : PayloadChannel} {t : Nat} (h : c.holder = some t) : c.settle.holder = some t := by
  unfold settle
  split
  · exact h
  · split
    · rename_i hn _
      rw [h] at hn
      cases hn
    · exact h

theorem holder_of_stateOf {c : PayloadChannel} {t : Nat} (h : c.stateOf t = .held) : c.holder = some t := by
  unfold stateOf at h
  split at h
  · cases h
  · split at h
    · assumption
    · split at h <;> cases h

theorem send?_isSome {c : PayloadChannel} {t : Nat} (h : c.holder = some t) (p : RegionPayload) :
    (c.send? t p).isSome = true := by
  rw [send?, if_pos h]
  rfl

end PayloadChannel

namespace Machine

/-- The reservation of the pass is the one that holds the channel's room. -/
def HoldsSlot (m : Machine) : Prop := ∀ t, m.phase.ticket? = some t → m.channel.holder = some t

theorem holdsSlot_of_eq {m after : Machine} (h : m.HoldsSlot) (ht : after.phase.ticket? = m.phase.ticket?)
    (hc : ∀ t, m.channel.holder = some t → after.channel.holder = some t) : after.HoldsSlot :=
  fun t ha => hc t (h t (ht ▸ ha))

theorem holdsSlot_of_none {m : Machine} (h : m.phase.ticket? = none) : m.HoldsSlot := by
  intro t ht
  rw [h] at ht
  cases ht

end Machine

/-- What one move can do to a machine, with the event it leaves. Compression is that of `c`; whether it
may also fail for no reason of its own is left to `mayFail`. -/
inductive Passage (c : Compressor) (mayFail : Prop) (m : Machine) : Option Event → Machine → Prop where
  | aside {after : Machine} (phase : after.phase = m.phase) (memory : after.memory = m.memory)
      (flag : after.isRequested = m.isRequested) (settings : after.settings = m.settings)
      (slot : ∀ t, m.channel.holder = some t → after.channel.holder = some t) : Passage c mayFail m none after
  | requested : Passage c mayFail m (some .requested) m.requestKeyframe
  | quiet {after : Machine} {e : Option Event} (before : m.phase.isOpen = true) (isOpen : after.phase.isOpen = true)
      (memory : after.memory = m.memory) (flag : after.isRequested = m.isRequested)
      (settings : after.settings = m.settings) (slot : m.HoldsSlot → after.HoldsSlot)
      (isQuiet : e.all Event.isQuiet = true) : Passage c mayFail m e after
  | captured {t : Nat} {d : Display} {f : CapturedFrame} (phase : m.phase = .capturing t d) :
      Passage c mayFail m (some (.answered d (.captured f)))
        { m with
          memory := { m.memory with lastUsingGpu := some f.isUsingGpu }
          controller := m.controller.setUsingGpu f.isUsingGpu
          phase := .choosing t d f (m.memory.originChanged f) }
  | failed {t : Nat} {d : Display} {reason : String} {isGpuFault : Bool} (phase : m.phase = .capturing t d) :
      Passage c mayFail m (some (.answered d (.failed reason isGpuFault)))
        { m with
          registry := m.registry.reload (enumerate m.attached)
          memory := { m.memory with baseline := none }
          phase := .raising t (some m.settings.failureDelay) }
  | resend {t : Nat} {d : Display} {f : Frame} (phase : m.phase = .idle t d) (flag : m.isRequested = true)
      (baseline : m.memory.baselineOf d.name = some f) :
      Passage c mayFail m none
        { m with memory := { m.memory with baseline := none }, phase := .lowering ⟨t, d, f⟩ .requested }
  | keyframe {t : Nat} {d : Display} {f : CapturedFrame} {b : Bool} {reason : KeyframeReason}
      (phase : m.phase = .choosing t d f b) (choice : m.choice d f b = .keyframe reason) :
      Passage c mayFail m none { m with memory := m.memoryAtChoice d b, phase := .lowering ⟨t, d, f.frame⟩ reason }
  | delta {t : Nat} {d : Display} {f : CapturedFrame} {b : Bool} {region : Rect}
      (phase : m.phase = .choosing t d f b) (choice : m.choice d f b = .delta region) :
      Passage c mayFail m none { m with memory := m.memoryAtChoice d b, phase := .encodingDelta ⟨t, d, f.frame⟩ region }
  | unchanged {t : Nat} {d : Display} {f : CapturedFrame} {b : Bool} (phase : m.phase = .choosing t d f b)
      (choice : m.choice d f b = .unchanged) :
      Passage c mayFail m none
        ({ m with memory := (m.memoryAtChoice d b).noteFrame d f.frame }.rest t m.settings.noChangeDelay)
  | lowered {s : Shipment} {reason : KeyframeReason} (phase : m.phase = .lowering s reason) :
      Passage c mayFail m none { m with isRequested := false, phase := .encodingKeyframe s reason }
  | encodedKeyframe {s : Shipment} {reason : KeyframeReason} {data : ByteArray}
      (phase : m.phase = .encodingKeyframe s reason)
      (data_eq : s.frame.encodeRegion c s.frame.bounds m.settings.keyframeQuality = .ok data) :
      Passage c mayFail m none { m with phase := .sendingKeyframe s data }
  | refusedKeyframe {s : Shipment} {reason : KeyframeReason} (phase : m.phase = .encodingKeyframe s reason)
      (cause : mayFail ∨
        ∃ fault, s.frame.encodeRegion c s.frame.bounds m.settings.keyframeQuality = .error fault) :
      Passage c mayFail m (some (.refused true)) { m with phase := .raising s.ticket none }
  | sentKeyframe {s : Shipment} {data : ByteArray} (phase : m.phase = .sendingKeyframe s data) :
      Passage c mayFail m (m.taken s.ticket (.ofRect s.frame.bounds true data)) (m.sendKeyframe s data).1
  | encodedDelta {s : Shipment} {region : Rect} {data : ByteArray} (phase : m.phase = .encodingDelta s region)
      (data_eq : s.frame.encodeRegion c region m.controller.quality = .ok data) :
      Passage c mayFail m none { m with phase := .sendingDelta s region data }
  | refusedDelta {s : Shipment} {region : Rect} (phase : m.phase = .encodingDelta s region)
      (cause : mayFail ∨ ∃ fault, s.frame.encodeRegion c region m.controller.quality = .error fault) :
      Passage c mayFail m (some (.refused false)) { m with phase := .raising s.ticket none }
  | sentDelta {s : Shipment} {region : Rect} {data : ByteArray} (phase : m.phase = .sendingDelta s region data) :
      Passage c mayFail m (m.taken s.ticket (.ofRect region false data)) (m.sendDelta s region data).1
  | raised {t : Nat} {delay : Option Micros} {after : Machine} (phase : m.phase = .raising t delay)
      (isOpen : after.phase.isOpen = true) (ticket : after.phase.ticket? = none)
      (memory : after.memory = m.memory) (flag : after.isRequested = true)
      (settings : after.settings = m.settings) : Passage c mayFail m (some .raised) after

namespace Machine

variable {c : Compressor} {mayFail : Prop} {m : Machine}

theorem encodeRegion_failing (f : Frame) (region : Rect) (q : UInt8) (data : ByteArray) :
    f.encodeRegion .failing region q ≠ .ok data := by
  intro h
  unfold Frame.encodeRegion at h
  dsimp only at h
  split at h
  · cases h
  · split at h <;> cases h

section Coder

variable {coder : Compressor} {f : Frame} {region : Rect} {q : UInt8}

theorem coder_of_encoded {data : ByteArray} (hc : coder = c ∨ mayFail ∧ coder = .failing)
    (h : f.encodeRegion coder region q = .ok data) : coder = c := by
  rcases hc with rfl | ⟨-, rfl⟩
  · rfl
  · exact absurd h (encodeRegion_failing f region q data)

/-- A compression fails for a reason of its own, or because it may. -/
theorem cause_of_refused {fault : StreamError} (hc : coder = c ∨ mayFail ∧ coder = .failing)
    (h : f.encodeRegion coder region q = .error fault) :
    mayFail ∨ ∃ fault, f.encodeRegion c region q = .error fault := by
  rcases hc with rfl | ⟨hfail, -⟩
  · exact .inr ⟨fault, h⟩
  · exact .inl hfail

end Coder

section Steps

variable {after : Machine} {e : Option Event}

theorem passage_quiet (before : m.phase.isOpen = true) (isOpen : after.phase.isOpen = true)
    (ticket : after.phase.ticket? = none) (memory : after.memory = m.memory)
    (flag : after.isRequested = m.isRequested) (settings : after.settings = m.settings)
    (isQuiet : e.all Event.isQuiet = true) : Passage c mayFail m e after :=
  .quiet before isOpen memory flag settings (fun _ => holdsSlot_of_none ticket) isQuiet

theorem passage_action {coder : Compressor} (hc : coder = c ∨ mayFail ∧ coder = .failing)
    (h : Action coder m e after) : Passage c mayFail m e after := by
  cases h with
  | reserved phase | denied phase | unattended phase | idled phase | woken phase | left phase =>
    exact passage_quiet (by rw [phase]; rfl) rfl rfl rfl rfl rfl rfl
  | cancelled phase =>
    refine passage_quiet ?_ rfl rfl rfl rfl rfl rfl
    obtain phase | phase | ⟨d, phase⟩ := phase <;> (rw [phase]; rfl)
  | granted phase _ held =>
    refine .quiet (by rw [phase]; rfl) rfl rfl rfl rfl (fun _ u hu => ?_) rfl
    cases hu
    exact PayloadChannel.holder_of_stateOf held
  | acquired phase =>
    refine .quiet (by rw [phase]; rfl) rfl rfl rfl rfl (fun h => ?_) rfl
    exact holdsSlot_of_eq h (by rw [phase]; rfl) fun _ => id
  | resend phase flag baseline => exact .resend phase flag baseline
  | keyframe phase choice => exact .keyframe phase choice
  | delta phase choice => exact .delta phase choice
  | unchanged phase choice => exact .unchanged phase choice
  | lowered phase => exact .lowered phase
  | encodedKeyframe phase data_eq =>
    obtain rfl := coder_of_encoded hc data_eq
    exact .encodedKeyframe phase data_eq
  | refusedKeyframe phase fault_eq => exact .refusedKeyframe phase (cause_of_refused hc fault_eq)
  | sentKeyframe phase => exact .sentKeyframe phase
  | encodedDelta phase data_eq =>
    obtain rfl := coder_of_encoded hc data_eq
    exact .encodedDelta phase data_eq
  | refusedDelta phase fault_eq => exact .refusedDelta phase (cause_of_refused hc fault_eq)
  | sentDelta phase => exact .sentDelta phase
  | raised phase | raisedLate phase => exact .raised phase rfl rfl rfl rfl rfl

theorem passage_supply {t : Nat} {d : Display} (hp : m.phase = .capturing t d) (r : CaptureResult) :
    Passage c mayFail m (some (.answered d r)) (m.supply r) := by
  have hb : m.phase.isOpen = true := by rw [hp]; rfl
  unfold supply
  rw [hp]
  cases r with
  | captured f => exact .captured hp
  | noChanges =>
    refine .quiet hb rfl rfl rfl rfl (fun h => ?_) rfl
    exact holdsSlot_of_eq h (by rw [hp]; rfl) fun _ => id
  | timedOut => exact passage_quiet hb rfl rfl rfl rfl rfl rfl
  | failed reason isGpuFault => exact .failed hp

theorem passage_move {mv : Move} (hfail : mv = .fail → mayFail) (h : m.move c mv = some (after, e)) :
    Passage c mayFail m e after := by
  cases mv with
  | act => exact passage_action (.inl rfl) (move_act_iff.mp h)
  | fail => exact passage_action (.inr ⟨hfail rfl, rfl⟩) (move_fail_iff.mp h)
  | answer r =>
    obtain ⟨t, d, hp, rfl, rfl⟩ := answer_of_move h
    exact passage_supply hp r
  | request => cases h; exact .requested
  | select name =>
    obtain ⟨d, rfl, rfl⟩ := select_of_move h
    exact .aside rfl rfl rfl rfl fun _ => id
  | receive | dropReader =>
    cases h
    exact .aside rfl rfl rfl rfl fun _ ht => PayloadChannel.settle_holder ht
  | _ =>
    cases h
    exact .aside rfl rfl rfl rfl fun _ => id

end Steps

end Machine

end Screencast
