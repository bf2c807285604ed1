import Screencast.Proofs.Order

/-!
# Requests for a keyframe

The flag is lowered before a keyframe is compressed, and others may raise it at any moment. While it
is down and no keyframe is on its way, a keyframe went out after the latest request.
-/

namespace Screencast

namespace Event

/-- The flag was raised, by others or by the loop. -/
def isRequest : Event → Bool
  | .requested | .raised => true
  | _ => false

def refusal? : Event → Option Bool
  | .refused isKeyframe => some isKeyframe
  | _ => none

theorem isRequest_of_isQuiet {e : Event} (h : e.isQuiet = true) : e.isRequest = false := by
  cases e <;> first | rfl | cases h

end Event

/-- A keyframe went out after the latest request. -/
def IsAnswered (t : List Event) : Prop :=
  ∃ later p earlier, t = later ++ .sent p :: earlier ∧ p.isKeyframe = true ∧ ∀ e ∈ later, e.isRequest = false

theorem isAnswered_sent {p : RegionPayload} (h : p.isKeyframe = true) (t : List Event) : IsAnswered (.sent p :: t) :=
  ⟨[], p, t, rfl, h, by simp⟩

theorem IsAnswered.cons {t : List Event} {e : Event} (h : IsAnswered t) (he : e.isRequest = false) :
    IsAnswered (e :: t) := by
  obtain ⟨later, p, earlier, rfl, hp, hl⟩ := h
  refine ⟨e :: later, p, earlier, rfl, hp, ?_⟩
  intro x hx
  rcases List.mem_cons.mp hx with rfl | hx
  · exact he
  · exact hl x hx

theorem IsAnswered.append {t : List Event} {e : Option Event} (h : IsAnswered t)
    (he : ∀ x ∈ e, x.isRequest = false) : IsAnswered (e.toList ++ t) := by
  cases e with
  | none => exact h
  | some x => exact h.cons (he x rfl)

namespace Run

/-- The flag is lowered for a keyframe that has neither gone out nor, after a refusal, had the flag
raised again. -/
def isSendingKeyframe (r : Run) : Bool :=
  match r.machine.phase with
  | .encodingKeyframe _ _ | .sendingKeyframe _ _ => true
  | .raising _ none => r.trace.findSome? Event.refusal? == some true
  | _ => false

def KeepsRequests (r : Run) : Prop :=
  r.machine.isRequested = false → r.isSendingKeyframe = false → IsAnswered r.trace

theorem isSendingKeyframe_of_isOpen {r : Run} (h : r.machine.phase.isOpen = true) : r.isSendingKeyframe = false := by
  unfold isSendingKeyframe
  cases hp : r.machine.phase <;> simp [hp, Phase.isOpen] at h ⊢

theorem keepsRequests_passage {c : Compressor} (r : Run) (e : Option Event) (after : Machine)
    (hs : r.machine.InOrder c) (hp : Passage c True r.machine e after) (hr : r.KeepsRequests) :
    KeepsRequests ⟨after, e.toList ++ r.trace⟩ := by
  intro hf hn
  cases hp with
  | aside phase _ flag =>
    refine hr (flag ▸ hf) ?_
    simpa [isSendingKeyframe, phase] using hn
  | requested => cases hf
  | quiet before _ _ flag _ _ isQuiet =>
    have ht := hr (flag ▸ hf) (isSendingKeyframe_of_isOpen before)
    refine ht.append ?_
    intro x hx
    subst hx
    exact Event.isRequest_of_isQuiet isQuiet
  | captured phase | failed phase =>
    exact (hr hf (isSendingKeyframe_of_isOpen (by rw [phase]; rfl))).cons rfl
  | resend phase => exact hr hf (isSendingKeyframe_of_isOpen (by rw [phase]; rfl))
  | keyframe phase | delta phase | unchanged phase | encodedDelta phase =>
    exact hr hf (by simp [isSendingKeyframe, phase])
  -- Between the lowering and the sending a keyframe is on its way.
  | lowered | encodedKeyframe => simp [isSendingKeyframe] at hn
  -- The refusal is the latest one, so the keyframe counts as on its way until the flag is raised.
  | refusedKeyframe => simp [isSendingKeyframe, Event.refusal?, List.findSome?_cons] at hn
  | sentKeyframe phase =>
    rw [hs.taken (by rw [phase]; rfl)]
    exact isAnswered_sent rfl _
  | refusedDelta phase => exact (hr hf (by simp [isSendingKeyframe, phase])).cons rfl
  | sentDelta phase =>
    rw [hs.taken (by rw [phase]; rfl)]
    exact (hr hf (by simp [isSendingKeyframe, phase])).cons rfl
  | raised _ _ _ _ flag => rw [flag] at hf; cases hf

end Run

variable {c : Compressor} {s : PipelineSettings} {attached : List Display} {m : Machine}

/-- No request is lost: whatever others do between the actions of the loop, a lowered flag with no
keyframe on its way means that a keyframe was handed to the channel after the latest request. -/
theorem keyframe_after_latest_request (h : Machine.new s attached = .ok m) (registry : Registry) (moves : List Move)
    (hflag : ((Run.start m registry).play c moves).machine.isRequested = false)
    (hidle : ((Run.start m registry).play c moves).isSendingKeyframe = false) :
    ∃ later p earlier, ((Run.start m registry).play c moves).trace = later ++ .sent p :: earlier ∧
      p.isKeyframe = true ∧ ∀ e ∈ later, e.isRequest = false := by
  have h0 : (Run.start m registry).KeepsRequests := by
    intro hf
    rw [show (Run.start m registry).machine.isRequested = true from (Machine.new_ok h).2.2.2] at hf
    cases hf
  exact Run.play_induction Run.keepsRequests_passage (Run.start_inOrder h registry) h0 (fun _ => trivial) hflag hidle

/-- The first keyframe, and a second one that a pass without changes sends on request. -/
theorem keyframe_after_latest_request_idle :
    let moves := Move.pass (.captured (.plain (.filled 1 1 .rgb 7))) 4 ++ [.receive, .request] ++ Move.pass .noChanges 4
    let r := (Run.start .small .small).play .plain moves
    Machine.new .lossless [.small] = .ok .small ∧ r.machine.isRequested = false ∧ r.isSendingKeyframe = false ∧
      ∃ later p earlier, r.trace = later ++ .sent p :: earlier ∧ p.isKeyframe = true ∧
        ∀ e ∈ later, e.isRequest = false :=
  ⟨Machine.new_small, rfl, rfl, keyframe_after_latest_request Machine.new_small _ _ rfl rfl⟩

end Screencast
