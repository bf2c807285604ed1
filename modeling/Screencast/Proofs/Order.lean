import Screencast.Proofs.Passage

/-!
# Machines in order

What a machine keeps to by itself, whatever happened before. It holds the channel's room while it
has a frame in hand, so that the channel takes whatever it sends. What it sends was compressed from
that frame. With the flag down it has a baseline, of the device that the last keyframe was sent for,
so that no capture is compared with nothing.
-/

namespace Screencast

theorem keyframeReason_eq_none {m : Memory} {c : Controller} {ratio : Float} {isRequested b : Bool} {d : Display}
    (h : m.keyframeReason c ratio isRequested d b = none) :
    isRequested = false ∧ b = false ∧ m.lastKeyframe = some d.mark := by
  unfold Memory.keyframeReason at h
  split at h
  · cases h
  · rename_i hf
    split at h
    · cases h
    · rename_i hb
      split at h
      · cases h
      · rename_i mark hk
        split at h
        · cases h
        · rename_i hdevice
          split at h
          · cases h
          · rename_i harea
            have hmark : mark = d.mark := by
              obtain ⟨device, area⟩ := mark
              obtain rfl : device = d.name := Decidable.not_not.mp hdevice
              obtain rfl : area = d.area := Decidable.not_not.mp harea
              rfl
            exact ⟨Bool.eq_false_iff.mpr hf, Bool.eq_false_iff.mpr hb, hmark ▸ hk⟩

theorem Memory.baselineOf_eq_some {m : Memory} {name : String} {f : Frame} (h : m.baselineOf name = some f) :
    ∃ b, m.baseline = some b ∧ b.device = name ∧ b.frame = f := by
  obtain ⟨b, hb, hf⟩ := Option.map_eq_some_iff.mp h
  obtain ⟨hsome, hdevice⟩ := Option.filter_eq_some_iff.mp hb
  exact ⟨b, hsome, beq_iff_eq.mp hdevice, hf⟩

namespace Machine

variable {c : Compressor} {m : Machine} {d : Display} {f : CapturedFrame} {b : Bool}

/-! ### Choices -/

theorem memoryAtChoice_baseline (m : Machine) (d : Display) (b : Bool) :
    (m.memoryAtChoice d b).baseline = m.memory.baseline := by
  unfold memoryAtChoice
  split <;> rfl

theorem memoryAtChoice_lastKeyframe (m : Machine) (d : Display) (b : Bool) :
    (m.memoryAtChoice d b).lastKeyframe = m.memory.lastKeyframe := by
  unfold memoryAtChoice
  split <;> rfl

theorem memoryAtChoice_lastUsingGpu (m : Machine) (d : Display) (b : Bool) :
    (m.memoryAtChoice d b).lastUsingGpu = m.memory.lastUsingGpu := by
  unfold memoryAtChoice
  split <;> rfl

theorem ne_keyframe_of_delta {region : Rect} (h : m.choice d f b = .delta region) (reason : KeyframeReason) :
    m.choice d f b ≠ .keyframe reason := by
  intro hk
  rw [h] at hk
  cases hk

theorem ne_keyframe_of_unchanged (h : m.choice d f b = .unchanged) (reason : KeyframeReason) :
    m.choice d f b ≠ .keyframe reason := by
  intro hk
  rw [h] at hk
  cases hk

/-- What does not go out whole is of the display that the last keyframe was sent for. -/
theorem choice_of_ne_keyframe (h : ∀ reason, m.choice d f b ≠ .keyframe reason) :
    m.isRequested = false ∧ b = false ∧ m.memory.lastKeyframe = some d.mark ∧
      m.choice d f b = m.memory.change d m.settings.diffPadding f := by
  unfold choice at h ⊢
  cases hr : m.memory.keyframeReason m.controller m.settings.qualityRefreshRatio m.isRequested d b with
  | some reason =>
    rw [hr] at h
    exact absurd rfl (h reason)
  | none =>
    obtain ⟨hf, hb, hk⟩ := keyframeReason_eq_none hr
    exact ⟨hf, hb, hk, rfl⟩

/-! ### Order -/

/-- What is about to go out was compressed from the frame in hand. -/
def HasEncoded (c : Compressor) (m : Machine) : Prop :=
  match m.phase with
  | .sendingKeyframe s data => s.frame.encodeRegion c s.frame.bounds m.settings.keyframeQuality = .ok data
  | .sendingDelta s region data => ∃ q, s.frame.encodeRegion c region q = .ok data
  | _ => True

theorem hasEncoded_of_isOpen (c : Compressor) {m : Machine} (h : m.phase.isOpen = true) : m.HasEncoded c := by
  unfold HasEncoded
  cases hp : m.phase with
  | sendingKeyframe => rw [hp] at h; cases h
  | sendingDelta => rw [hp] at h; cases h
  | _ => trivial

/-- With the flag down there is a baseline, of the device of the last keyframe. -/
def IsMarked (m : Machine) : Prop :=
  match m.phase with
  | .lowering _ _ | .encodingKeyframe _ _ | .sendingKeyframe _ _ | .raising _ _ => True
  | .encodingDelta s _ | .sendingDelta s _ _ => m.memory.lastKeyframe = some s.display.mark
  | _ => m.isRequested = false →
    ∃ b k, m.memory.baseline = some b ∧ m.memory.lastKeyframe = some k ∧ b.device = k.device

structure InOrder (c : Compressor) (m : Machine) : Prop where
  holdsSlot : m.HoldsSlot
  hasEncoded : m.HasEncoded c
  isMarked : m.IsMarked

theorem isMarked_of_isOpen (h : m.phase.isOpen = true) : m.IsMarked ↔ (m.isRequested = false →
    ∃ b k, m.memory.baseline = some b ∧ m.memory.lastKeyframe = some k ∧ b.device = k.device) := by
  unfold IsMarked
  cases hp : m.phase <;> first | rfl | (rw [hp] at h; cases h)

theorem isMarked_of_flag (h : m.phase.isOpen = true) (hf : m.isRequested = true) : m.IsMarked := by
  rw [isMarked_of_isOpen h]
  intro hn
  rw [hf] at hn
  cases hn

theorem InOrder.taken (h : m.InOrder c) {t : Nat} (ht : m.phase.ticket? = some t) (p : RegionPayload) :
    m.taken t p = some (.sent p) :=
  if_pos (PayloadChannel.send?_isSome (h.holdsSlot t ht) p)

theorem InOrder.keyframe_data (h : m.InOrder c) {s : Shipment} {data : ByteArray}
    (hp : m.phase = .sendingKeyframe s data) :
    s.frame.encodeRegion c s.frame.bounds m.settings.keyframeQuality = .ok data := by
  have hdata := h.hasEncoded
  unfold HasEncoded at hdata
  rw [hp] at hdata
  exact hdata

theorem InOrder.delta_data (h : m.InOrder c) {s : Shipment} {region : Rect} {data : ByteArray}
    (hp : m.phase = .sendingDelta s region data) : ∃ q, s.frame.encodeRegion c region q = .ok data := by
  have hdata := h.hasEncoded
  unfold HasEncoded at hdata
  rw [hp] at hdata
  exact hdata

/-- With the flag down, a capture of the display that the last keyframe was sent for has a baseline of its device. -/
theorem baselineOf_of_mark {t : Nat} (hm : m.IsMarked) (hp : m.phase = .choosing t d f b)
    (hflag : m.isRequested = false) (hmark : m.memory.lastKeyframe = some d.mark) :
    ∃ base, m.memory.baseline = some base ∧ m.memory.baselineOf d.name = some base.frame := by
  unfold IsMarked at hm
  rw [hp] at hm
  obtain ⟨base, mark, hbase, hlast, hdevice⟩ := hm hflag
  obtain rfl : mark = d.mark := Option.some.inj (hlast.symm.trans hmark)
  have hname : (base.device == d.name) = true := beq_iff_eq.mpr hdevice
  refine ⟨base, hbase, ?_⟩
  unfold Memory.baselineOf
  rw [hbase, Option.filter_some, if_pos hname]
  rfl

/-- A capture that does not go out whole has a baseline of its own device. -/
theorem baselineOf_of_ne_keyframe {t : Nat} (hm : m.IsMarked) (hp : m.phase = .choosing t d f b)
    (hc : ∀ reason, m.choice d f b ≠ .keyframe reason) :
    ∃ base, m.memory.baseline = some base ∧ m.memory.baselineOf d.name = some base.frame := by
  obtain ⟨hflag, -, hmark, -⟩ := choice_of_ne_keyframe hc
  exact baselineOf_of_mark hm hp hflag hmark

end Machine

namespace Passage

variable {c : Compressor} {mayFail : Prop} {m after : Machine} {e : Option Event}

theorem settings_eq (h : Passage c mayFail m e after) : after.settings = m.settings := by
  cases h <;> first | assumption | rfl

theorem holdsSlot (h : Passage c mayFail m e after) (hs : m.HoldsSlot) : after.HoldsSlot := by
  cases h with
  | aside phase _ _ _ slot => exact Machine.holdsSlot_of_eq hs (by rw [phase]) slot
  | quiet _ _ _ _ _ slot _ => exact slot hs
  | raised _ _ ticket => exact Machine.holdsSlot_of_none ticket
  | unchanged | sentKeyframe | sentDelta => exact Machine.holdsSlot_of_none rfl
  | requested => exact hs
  | captured phase | failed phase | resend phase | keyframe phase | delta phase | lowered phase
  | encodedKeyframe phase | refusedKeyframe phase | encodedDelta phase | refusedDelta phase =>
    exact Machine.holdsSlot_of_eq hs (by rw [phase]; rfl) fun _ => id

theorem hasEncoded (h : Passage c mayFail m e after) (hm : m.HasEncoded c) : after.HasEncoded c := by
  cases h with
  | aside phase _ _ settings =>
    unfold Machine.HasEncoded at hm ⊢
    rw [phase, settings]
    exact hm
  | requested => exact hm
  | quiet _ isOpen => exact Machine.hasEncoded_of_isOpen c isOpen
  | raised _ isOpen => exact Machine.hasEncoded_of_isOpen c isOpen
  | encodedKeyframe _ data_eq => exact data_eq
  | encodedDelta _ data_eq => exact ⟨_, data_eq⟩
  | _ => exact trivial

theorem isMarked (h : Passage c mayFail m e after) (hm : m.IsMarked) : after.IsMarked := by
  cases h with
  | aside phase memory flag =>
    unfold Machine.IsMarked at hm ⊢
    rw [phase, memory, flag]
    exact hm
  | requested =>
    unfold Machine.IsMarked at hm ⊢
    cases hp : m.phase <;> simp only [Machine.requestKeyframe, hp] at hm ⊢ <;>
      first | exact hm | (intro hf; cases hf)
  | quiet before isOpen memory flag =>
    rw [Machine.isMarked_of_isOpen before] at hm
    rw [Machine.isMarked_of_isOpen isOpen, memory, flag]
    exact hm
  | captured phase =>
    rw [Machine.isMarked_of_isOpen (by rw [phase]; rfl)] at hm
    exact hm
  | delta phase choice =>
    obtain ⟨-, -, hk, -⟩ := Machine.choice_of_ne_keyframe (Machine.ne_keyframe_of_delta choice)
    exact (Machine.memoryAtChoice_lastKeyframe _ _ _).trans hk
  | @unchanged t d f b phase choice =>
    obtain ⟨-, -, hk, -⟩ := Machine.choice_of_ne_keyframe (Machine.ne_keyframe_of_unchanged choice)
    intro _
    exact ⟨⟨f.frame, d.name⟩, d.mark, rfl, (Machine.memoryAtChoice_lastKeyframe _ _ _).trans hk, rfl⟩
  | @sentKeyframe s data phase => exact fun _ => ⟨⟨s.frame, s.display.name⟩, s.display.mark, rfl, rfl, rfl⟩
  | @encodedDelta s region data phase =>
    unfold Machine.IsMarked at hm
    rw [phase] at hm
    exact hm
  | @sentDelta s region data phase =>
    unfold Machine.IsMarked at hm
    rw [phase] at hm
    exact fun _ => ⟨⟨s.frame, s.display.name⟩, s.display.mark, rfl, hm, rfl⟩
  | raised _ isOpen _ _ flag => exact Machine.isMarked_of_flag isOpen flag
  | _ => exact trivial

theorem inOrder (h : Passage c mayFail m e after) (hm : m.InOrder c) : after.InOrder c :=
  ⟨h.holdsSlot hm.holdsSlot, h.hasEncoded hm.hasEncoded, h.isMarked hm.isMarked⟩

end Passage

namespace Machine

/-- A new machine: a keyframe is due and nothing is remembered. -/
theorem new_ok {s : PipelineSettings} {attached : List Display} {m : Machine} (h : new s attached = .ok m) :
    m.settings = s ∧ m.phase = .ready ∧ m.memory = .empty ∧ m.isRequested = true := by
  unfold new at h
  split at h
  · cases h
  · cases h
    exact ⟨rfl, rfl, rfl, rfl⟩

end Machine

namespace Run

variable {c : Compressor} {mayFail : Prop}

theorem next_inOrder {r : Run} (hi : r.machine.InOrder c) (mv : Move) : (r.next c mv).machine.InOrder c := by
  unfold next
  split
  · rename_i after e hm
    have hp : Passage c True r.machine e after := Machine.passage_move (fun _ => trivial) hm
    exact hp.inOrder hi
  · exact hi

theorem inOrder_play {r : Run} (hi : r.machine.InOrder c) (moves : List Move) : (r.play c moves).machine.InOrder c :=
  play_keeps (P := fun r => r.machine.InOrder c) (fun _ mv _ hi => next_inOrder hi mv) hi

theorem play_induction {P : Run → Prop}
    (step : ∀ (r : Run) (e : Option Event) (after : Machine), r.machine.InOrder c →
      Passage c mayFail r.machine e after → P r → P ⟨after, e.toList ++ r.trace⟩)
    {r : Run} (hs : r.machine.InOrder c) (h : P r) {moves : List Move} (hfail : .fail ∈ moves → mayFail) :
    P (r.play c moves) := by
  have hkeep : ∀ r, ∀ mv ∈ moves, r.machine.InOrder c ∧ P r → (r.next c mv).machine.InOrder c ∧ P (r.next c mv) := by
    intro r mv hmv hr
    unfold next
    split
    · -- The order of the machine is carried along, for `step` to use.
      rename_i after e hm
      have hp : Passage c mayFail r.machine e after := Machine.passage_move (fun heq => hfail (heq ▸ hmv)) hm
      exact ⟨hp.inOrder hr.1, step r e after hr.1 hp hr.2⟩
    · exact hr
  exact (play_keeps hkeep ⟨hs, h⟩).2

theorem settings_play {s : PipelineSettings} {r : Run} (hi : r.machine.InOrder c) (h : r.machine.settings = s)
    (moves : List Move) : (r.play c moves).machine.settings = s :=
  play_induction (P := fun r => r.machine.settings = s)
    (fun r e after _ (hp : Passage c True r.machine e after) h => hp.settings_eq.trans h) hi h fun _ => trivial

/-- A run starts with the machine as it was made, but for the displays it is told of. -/
theorem start_ok {s : PipelineSettings} {attached : List Display} {m : Machine} (h : Machine.new s attached = .ok m)
    (registry : Registry) :
    (start m registry).machine.settings = s ∧ (start m registry).machine.phase = .ready ∧
      (start m registry).machine.memory = .empty ∧ (start m registry).machine.isRequested = true := by
  obtain ⟨hsettings, hphase, hmemory, hflag⟩ := Machine.new_ok h
  exact ⟨hsettings, hphase, hmemory, hflag⟩

theorem start_inOrder {s : PipelineSettings} {attached : List Display} {m : Machine}
    (h : Machine.new s attached = .ok m) (registry : Registry) : (start m registry).machine.InOrder c := by
  obtain ⟨-, hp, -, hf⟩ := start_ok h registry
  constructor
  · exact Machine.holdsSlot_of_none (by rw [hp]; rfl)
  · exact Machine.hasEncoded_of_isOpen c (by rw [hp]; rfl)
  · exact Machine.isMarked_of_flag (by rw [hp]; rfl) hf

end Run
end Screencast
