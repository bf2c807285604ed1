import Screencast.Proofs.Trace

/-!
# What a pass has in hand

A pass picks its display once and keeps it to its end, and what it does not send whole is the capture
that it got. So the trace tells what is in hand: the display acquired last and the frame captured last.
The loop's memory of where frames come from is that of the last capture.
-/

namespace Screencast

namespace Event

def acquired? : Event → Option Display
  | .acquired d => some d
  | _ => none

end Event

def acquisitions (t : List Event) : List Display := t.filterMap Event.acquired?

theorem acquisitions_cons (e : Event) (t : List Event) :
    acquisitions (e :: t) = e.acquired?.toList ++ acquisitions t := by
  unfold acquisitions
  rw [List.filterMap_cons]
  cases e.acquired? <;> rfl

theorem acquisitions_append {e : Option Event} (he : e.bind Event.acquired? = none) (t : List Event) :
    acquisitions (e.toList ++ t) = acquisitions t := by
  cases e with
  | none => rfl
  | some x =>
    show acquisitions (x :: t) = acquisitions t
    rw [acquisitions_cons, show x.acquired? = none from he]
    rfl

theorem length_acquisitions_append (e : Option Event) (t : List Event) :
    (acquisitions (e.toList ++ t)).length = (e.bind Event.acquired?).toList.length + (acquisitions t).length := by
  cases e with
  | none => exact (Nat.zero_add _).symm
  | some x =>
    show (acquisitions (x :: t)).length = _
    rw [acquisitions_cons, List.length_append]
    rfl

namespace Phase

def display? : Phase → Option Display
  | .capturing _ d | .idle _ d | .choosing _ d _ _ => some d
  | .lowering s _ | .encodingKeyframe s _ | .sendingKeyframe s _ | .encodingDelta s _ | .sendingDelta s _ _ =>
    some s.display
  | _ => none

/-- The frame in hand, unless a keyframe is in the making. -/
def fresh? : Phase → Option Frame
  | .choosing _ _ c _ => some c.frame
  | .encodingDelta s _ | .sendingDelta s _ _ => some s.frame
  | _ => none

theorem fresh?_of_isOpen {p : Phase} (h : p.isOpen = true) : p.fresh? = none := by
  cases p <;> first | rfl | cases h

end Phase

namespace Machine

variable {c : Compressor} {m after : Machine} {e : Option Event}

/-- How a move treats the display in hand: it picks one, or lays it down, or keeps it. -/
def KeepsDisplay (m after : Machine) (e : Option Event) : Prop :=
  (∃ d, e = some (.acquired d) ∧ after.phase.display? = some d) ∨
    (e.bind Event.acquired? = none ∧ (after.phase.display? = none ∨ after.phase.display? = m.phase.display?))

theorem keepsDisplay_of_none (he : e.bind Event.acquired? = none) (h : after.phase.display? = none) :
    m.KeepsDisplay after e := .inr ⟨he, .inl h⟩

theorem keepsDisplay_of_eq (he : e.bind Event.acquired? = none) (h : after.phase.display? = m.phase.display?) :
    m.KeepsDisplay after e := .inr ⟨he, .inr h⟩

theorem acquired?_of_taken (m : Machine) (t : Nat) (p : RegionPayload) : (m.taken t p).bind Event.acquired? = none := by
  unfold taken
  split <;> rfl

theorem keepsDisplay_action (h : Action c m e after) : m.KeepsDisplay after e := by
  cases h with
  | @acquired t d => exact .inl ⟨d, rfl, rfl⟩
  | resend phase | keyframe phase | delta phase | lowered phase | encodedKeyframe phase | encodedDelta phase =>
    exact keepsDisplay_of_eq rfl (by rw [phase]; rfl)
  | sentKeyframe | sentDelta => exact keepsDisplay_of_none (acquired?_of_taken _ _ _) rfl
  | _ => exact keepsDisplay_of_none rfl rfl

theorem keepsDisplay_move {mv : Move} (h : m.move c mv = some (after, e)) : m.KeepsDisplay after e := by
  cases mv with
  | act => exact keepsDisplay_action (move_act_iff.mp h)
  | fail => exact keepsDisplay_action (move_fail_iff.mp h)
  | answer r =>
    obtain ⟨t, d, hp, rfl, rfl⟩ := answer_of_move h
    simp only [supply, hp]
    cases r with
    | captured f => exact keepsDisplay_of_eq rfl (by rw [hp]; rfl)
    | noChanges => exact keepsDisplay_of_eq rfl (by rw [hp]; rfl)
    | timedOut => exact keepsDisplay_of_none rfl rfl
    | failed reason isGpuFault => exact keepsDisplay_of_none rfl rfl
  | select name =>
    obtain ⟨d, rfl, rfl⟩ := select_of_move h
    exact keepsDisplay_of_eq rfl rfl
  | _ =>
    cases h
    exact keepsDisplay_of_eq rfl rfl

end Machine

/-! ### In hand and in the trace -/

structure Run.KeepsHand (r : Run) : Prop where
  display : ∀ d, r.machine.phase.display? = some d → (acquisitions r.trace).head? = some d
  origin : r.machine.memory.lastUsingGpu = (captures r.trace).head?.map fun x => x.2.isUsingGpu
  fresh : ∀ f, r.machine.phase.fresh? = some f → ((captures r.trace).head?.map fun x => x.2.frame) = some f

namespace Passage

variable {c : Compressor} {mayFail : Prop} {m after : Machine} {e : Option Event}

theorem capture?_of_taken (m : Machine) (t : Nat) (p : RegionPayload) : (m.taken t p).bind Event.capture? = none := by
  unfold Machine.taken
  split <;> rfl

/-- A move brings a capture, or leaves the memory of where the last one came from. -/
theorem origin_cases (h : Passage c mayFail m e after) :
    (∃ t d f, e = some (.answered d (.captured f)) ∧ after.memory.lastUsingGpu = some f.isUsingGpu ∧
      after.phase = .choosing t d f (m.memory.originChanged f)) ∨
    (e.bind Event.capture? = none ∧ after.memory.lastUsingGpu = m.memory.lastUsingGpu ∧
      (after.phase.fresh? = none ∨ after.phase.fresh? = m.phase.fresh?)) := by
  cases h with
  | @captured t d f phase => exact .inl ⟨t, d, f, rfl, rfl, rfl⟩
  | aside phase memory => exact .inr ⟨rfl, by rw [memory], .inr (by rw [phase])⟩
  | requested => exact .inr ⟨rfl, rfl, .inr rfl⟩
  | quiet _ isOpen memory _ _ _ isQuiet =>
    exact .inr ⟨(Event.bind_of_isQuiet isQuiet).1, by rw [memory], .inl (Phase.fresh?_of_isOpen isOpen)⟩
  | failed | resend | refusedKeyframe | refusedDelta | lowered | encodedKeyframe => exact .inr ⟨rfl, rfl, .inl rfl⟩
  | keyframe => exact .inr ⟨rfl, Machine.memoryAtChoice_lastUsingGpu _ _ _, .inl rfl⟩
  | delta phase => exact .inr ⟨rfl, Machine.memoryAtChoice_lastUsingGpu _ _ _, .inr (by rw [phase]; rfl)⟩
  | unchanged => exact .inr ⟨rfl, Machine.memoryAtChoice_lastUsingGpu _ _ _, .inl rfl⟩
  | encodedDelta phase => exact .inr ⟨rfl, rfl, .inr (by rw [phase]; rfl)⟩
  | sentKeyframe | sentDelta => exact .inr ⟨capture?_of_taken _ _ _, rfl, .inl rfl⟩
  | raised _ isOpen _ memory => exact .inr ⟨rfl, by rw [memory], .inl (Phase.fresh?_of_isOpen isOpen)⟩

end Passage

namespace Run

variable {c : Compressor} {mayFail : Prop}

theorem keepsHand_passage (r : Run) (e : Option Event) (after : Machine) (hd : r.machine.KeepsDisplay after e)
    (hp : Passage c mayFail r.machine e after) (hr : r.KeepsHand) : KeepsHand ⟨after, e.toList ++ r.trace⟩ := by
  have hdisplay : ∀ d, after.phase.display? = some d → (acquisitions (e.toList ++ r.trace)).head? = some d := by
    intro d h
    rcases hd with ⟨d', rfl, hafter⟩ | ⟨he, hnone | heq⟩
    · rw [hafter] at h
      cases h
      rfl
    · rw [hnone] at h
      cases h
    · rw [acquisitions_append he]
      exact hr.display d (heq ▸ h)
  rcases hp.origin_cases with ⟨t, d, f, rfl, horigin, hphase⟩ | ⟨he, horigin, hfresh⟩
  · refine ⟨hdisplay, horigin, ?_⟩
    intro g hg
    rw [hphase] at hg
    cases hg
    rfl
  · have hc := captures_append he r.trace
    refine ⟨hdisplay, ?_, ?_⟩
    · rw [hc]
      exact horigin.trans hr.origin
    · intro g hg
      rw [hc]
      rcases hfresh with hnone | heq
      · rw [hnone] at hg
        cases hg
      · exact hr.fresh g (heq ▸ hg)

theorem start_keepsHand {s : PipelineSettings} {attached : List Display} {m : Machine}
    (h : Machine.new s attached = .ok m) (registry : Registry) : (start m registry).KeepsHand := by
  obtain ⟨-, hphase, hmemory, -⟩ := start_ok h registry
  refine ⟨fun d hd => ?_, by rw [hmemory]; rfl, fun f hf => ?_⟩
  · rw [hphase] at hd
    cases hd
  · rw [hphase] at hf
    cases hf

/-- What every move keeps, of a machine in order and a trace that tells what is in hand, holds of a whole run. -/
theorem play_steps {P : Run → Prop}
    (step : ∀ (r : Run) (mv : Move) (e : Option Event) (after : Machine), r.machine.InOrder c → r.KeepsHand →
      r.machine.move c mv = some (after, e) → Passage c True r.machine e after → P r → P ⟨after, e.toList ++ r.trace⟩)
    {r : Run} (hi : r.machine.InOrder c) (hk : r.KeepsHand) (h : P r) (moves : List Move) :
    (r.play c moves).machine.InOrder c ∧ (r.play c moves).KeepsHand ∧ P (r.play c moves) := by
  refine play_keeps (P := fun r => r.machine.InOrder c ∧ r.KeepsHand ∧ P r) (fun r mv _ hr => ?_) ⟨hi, hk, h⟩
  obtain ⟨hi, hk, h⟩ := hr
  unfold next
  split
  · rename_i after e hm
    have hp : Passage c True r.machine e after := Machine.passage_move (fun _ => trivial) hm
    have hhand := keepsHand_passage r e after (Machine.keepsDisplay_move hm) hp hk
    exact ⟨hp.inOrder hi, hhand, step r mv e after hi hk hm hp h⟩
  · exact ⟨hi, hk, h⟩

end Run
end Screencast
