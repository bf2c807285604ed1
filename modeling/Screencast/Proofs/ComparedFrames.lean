import Screencast.Proofs.Switch

/-!
# What a capture is compared with

The frame that captures are compared with is taken out, dropped and replaced at many places of a pass. Wherever it
is lost the flag goes up before the pass is over, so that with the flag down there is one, and it is of the device
of the last keyframe. The device's name is only written beside the frame; that the frame was in truth captured from
a display of that name is an invariant of its own, which follows the frame into the hand and back.
-/

namespace Screencast

/-- The frame is one of these captures, of a display of the name. -/
def IsFrameOf (l : List (Display × CapturedFrame)) (name : String) (f : Frame) : Prop :=
  ∃ x ∈ l, x.1.name = name ∧ x.2.frame = f

theorem IsFrameOf.mono {l l' : List (Display × CapturedFrame)} {name : String} {f : Frame} (h : IsFrameOf l name f)
    (hl : l ⊆ l') : IsFrameOf l' name f := by
  obtain ⟨x, hx, hname, hf⟩ := h
  exact ⟨x, hl hx, hname, hf⟩

namespace Run

/-- The captures that are not in hand. -/
def past (r : Run) : List (Display × CapturedFrame) :=
  if r.machine.phase.frame?.isSome then (captures r.trace).tail else captures r.trace

/-- The names beside the frames are right. While a frame is in hand, the baseline is an earlier one. -/
structure KeepsOwners (r : Run) : Prop where
  baseline : ∀ b, r.machine.memory.baseline = some b → IsFrameOf r.past b.device b.frame
  inHand : ∀ d f, r.machine.phase.display? = some d → r.machine.phase.frame? = some f →
    IsFrameOf (captures r.trace) d.name f

variable {c : Compressor} {mayFail : Prop} {r : Run} {after : Machine} {e : Option Event}

theorem past_subset (r : Run) : r.past ⊆ captures r.trace := by
  unfold past
  split
  · exact (List.tail_sublist _).subset
  · exact List.Subset.refl _

theorem past_eq_captures (h : r.machine.phase.frame? = none) : r.past = captures r.trace := by
  unfold past
  rw [h]
  rfl

theorem past_eq_tail {f : Frame} (h : r.machine.phase.frame? = some f) : r.past = (captures r.trace).tail := by
  unfold past
  rw [h]
  rfl

/-- No capture comes in, and the baseline and what is in hand are kept or lost. -/
theorem keepsOwners_keeps (hr : r.KeepsOwners) (he : e.bind Event.capture? = none)
    (hb : after.memory.baseline = none ∨ after.memory.baseline = r.machine.memory.baseline)
    (hp : after.phase.frame? = none ∨
      after.phase.display? = r.machine.phase.display? ∧ after.phase.frame? = r.machine.phase.frame?) :
    KeepsOwners ⟨after, e.toList ++ r.trace⟩ := by
  have hcaptures := captures_append he r.trace
  have hpast : r.past ⊆ past ⟨after, e.toList ++ r.trace⟩ := by
    rcases hp with hnone | ⟨-, hframe⟩
    · rw [past_eq_captures (r := ⟨after, e.toList ++ r.trace⟩) hnone, hcaptures]
      exact r.past_subset
    · unfold past
      rw [hcaptures, hframe]
      exact List.Subset.refl _
  constructor
  · intro b hbase
    rcases hb with hb | hb
    · rw [hb] at hbase
      cases hbase
    · exact (hr.baseline b (hb ▸ hbase)).mono hpast
  · intro d f hd hf
    rw [hcaptures]
    rcases hp with hnone | ⟨hdisplay, hframe⟩
    · rw [hnone] at hf
      cases hf
    · exact hr.inHand d f (hdisplay ▸ hd) (hframe ▸ hf)

theorem keepsOwners_noted (hr : r.KeepsOwners) (he : e.bind Event.capture? = none) {d : Display} {f : Frame}
    (hd : r.machine.phase.display? = some d) (hf : r.machine.phase.frame? = some f)
    (hb : after.memory.baseline = some ⟨f, d.name⟩) (hnone : after.phase.frame? = none) :
    KeepsOwners ⟨after, e.toList ++ r.trace⟩ := by
  constructor
  · intro b hbase
    obtain rfl : ⟨f, d.name⟩ = b := Option.some.inj (hb.symm.trans hbase)
    rw [past_eq_captures (r := ⟨after, e.toList ++ r.trace⟩) hnone, captures_append he]
    exact hr.inHand d f hd hf
  · intro x g _ hg
    rw [hnone] at hg
    cases hg

theorem keepsOwners_captured (hr : r.KeepsOwners) {t : Nat} {d : Display} {f : CapturedFrame} {b : Bool}
    (hp : r.machine.phase = .capturing t d) (hafter : after.phase = .choosing t d f b)
    (hb : after.memory.baseline = r.machine.memory.baseline) :
    KeepsOwners ⟨after, .answered d (.captured f) :: r.trace⟩ := by
  have hframe : after.phase.frame? = some f.frame := by
    rw [hafter]
    rfl
  have hbefore : r.past = captures r.trace := past_eq_captures (by rw [hp]; rfl)
  have hpast : past ⟨after, .answered d (.captured f) :: r.trace⟩ = captures r.trace :=
    past_eq_tail (r := ⟨after, .answered d (.captured f) :: r.trace⟩) hframe
  constructor
  · intro base hbase
    rw [hpast, ← hbefore]
    exact hr.baseline base (hb ▸ hbase)
  · intro x g hx hg
    rw [hafter] at hx hg
    cases hx
    cases hg
    exact ⟨(d, f), List.mem_cons_self, rfl, rfl⟩

/-- The baseline goes into the hand, and what it was captured from goes with it. -/
theorem keepsOwners_resend (hr : r.KeepsOwners) {t : Nat} {d : Display} {f : Frame} {reason : KeyframeReason}
    (hbase : r.machine.memory.baselineOf d.name = some f) (hafter : after.phase = .lowering ⟨t, d, f⟩ reason)
    (hb : after.memory.baseline = none) : KeepsOwners ⟨after, r.trace⟩ := by
  constructor
  · intro b hb'
    rw [hb] at hb'
    cases hb'
  · intro x g hx hg
    rw [hafter] at hx hg
    cases hx
    cases hg
    obtain ⟨b, hb, hdevice, hframe⟩ := Memory.baselineOf_eq_some hbase
    have howner := (hr.baseline b hb).mono r.past_subset
    rwa [hdevice, hframe] at howner

theorem keepsOwners_passage (hp : Passage c mayFail r.machine e after) (hr : r.KeepsOwners) :
    KeepsOwners ⟨after, e.toList ++ r.trace⟩ := by
  cases hp with
  | aside phase memory => exact keepsOwners_keeps hr rfl (.inr (by rw [memory])) (.inr (by rw [phase]; exact ⟨rfl, rfl⟩))
  | requested => exact keepsOwners_keeps (e := some .requested) hr rfl (.inr rfl) (.inr ⟨rfl, rfl⟩)
  | quiet _ isOpen memory _ _ _ isQuiet =>
    exact keepsOwners_keeps hr (Event.bind_of_isQuiet isQuiet).1 (.inr (by rw [memory])) (.inl (Phase.frame?_of_isOpen isOpen))
  | captured phase => exact keepsOwners_captured hr phase rfl rfl
  | failed => exact keepsOwners_keeps hr rfl (.inl rfl) (.inl rfl)
  | resend _ _ baseline => exact keepsOwners_resend hr baseline rfl rfl
  | keyframe phase | delta phase =>
    refine keepsOwners_keeps (e := none) hr rfl (.inr (Machine.memoryAtChoice_baseline _ _ _)) (.inr ?_)
    rw [phase]
    exact ⟨rfl, rfl⟩
  | @unchanged t d f b phase =>
    exact keepsOwners_noted (e := none) (d := d) (f := f.frame) hr rfl (by rw [phase]; rfl) (by rw [phase]; rfl) rfl rfl
  | lowered phase | encodedKeyframe phase | encodedDelta phase =>
    refine keepsOwners_keeps (e := none) hr rfl (.inr rfl) (.inr ?_)
    rw [phase]
    exact ⟨rfl, rfl⟩
  | refusedKeyframe | refusedDelta => exact keepsOwners_keeps hr rfl (.inr rfl) (.inl rfl)
  | sentKeyframe phase | sentDelta phase =>
    exact keepsOwners_noted hr (Passage.capture?_of_taken _ _ _) (by rw [phase]; rfl) (by rw [phase]; rfl) rfl rfl
  | raised _ isOpen _ memory =>
    exact keepsOwners_keeps (e := some .raised) hr rfl (.inr (by rw [memory])) (.inl (Phase.frame?_of_isOpen isOpen))

theorem start_keepsOwners {s : PipelineSettings} {attached : List Display} {m : Machine}
    (h : Machine.new s attached = .ok m) (registry : Registry) : (start m registry).KeepsOwners := by
  obtain ⟨-, hphase, hmemory, -⟩ := start_ok h registry
  constructor
  · intro b hb
    rw [hmemory] at hb
    cases hb
  · intro d f hd
    rw [hphase] at hd
    cases hd

end Run

variable {c : Compressor} {s : PipelineSettings} {attached : List Display} {m : Machine}

/-- Whenever nothing is in hand and the flag is down, a keyframe went out, and the frame to compare with is of the
device of the last one. So a capture that nothing but its picture decides about, with the flag down and of the
display that the last keyframe was sent for, is compared with an earlier capture from a display of its name. -/
theorem compared_with_own_display (h : Machine.new s attached = .ok m) (registry : Registry) (moves : List Move) :
    let r := (Run.start m registry).play c moves
    let memory := r.machine.memory
    (r.machine.phase.isOpen = true → r.machine.isRequested = false →
      ∃ b d since k before, memory.baseline = some b ∧ memory.lastKeyframe = some d.mark ∧ b.device = d.name ∧
        r.trace = since ++ .sent k :: before ∧ k.isKeyframe = true ∧ (∀ p, .sent p ∈ since → p.isKeyframe = false) ∧
        (acquisitions before).head? = some d) ∧
      ∀ t d f b, r.machine.phase = .choosing t d f b →
        memory.keyframeReason r.machine.controller r.machine.settings.qualityRefreshRatio r.machine.isRequested d b =
          none →
        r.machine.isRequested = false ∧ memory.lastKeyframe = some d.mark ∧
          r.machine.choice d f b = memory.change d r.machine.settings.diffPadding f ∧
          ∃ x ∈ (captures r.trace).tail, x.1.name = d.name ∧ memory.baselineOf d.name = some x.2.frame := by
  obtain ⟨hi, -, hgoing, howners⟩ := Run.play_steps (P := fun r => r.KeepsGoing c s ∧ r.KeepsOwners)
    (fun r _ e after hi hk _ hp hr => ⟨Run.keepsGoing_passage hi hk hp hr.1, Run.keepsOwners_passage hp hr.2⟩)
    (Run.start_inOrder h registry) (Run.start_keepsHand h registry)
    ⟨Run.start_keepsGoing h registry, Run.start_keepsOwners h registry⟩ moves
  intro r memory
  constructor
  · intro hopen hflag
    obtain ⟨b, mark, hbase, hlast, hdevice⟩ := (Machine.isMarked_of_isOpen hopen).mp hi.isMarked hflag
    obtain ⟨mark', hlast', gpu, -, since, k, before, d, last, ht, hk, hd, hmark, -, -, hsince⟩ :=
      (Run.keepsLine_of_isOpen hopen).mp hgoing.line hflag
    obtain rfl : mark = mark' := Option.some.inj (hlast.symm.trans hlast')
    subst hmark
    refine ⟨b, d, since, k, before, hbase, hlast, hdevice, ht, hk, fun p hp => ?_, hd⟩
    simpa [Event.goesOn] using hsince _ hp
  · intro t d f b hp hreason
    obtain ⟨hflag, -, hmark⟩ := keyframeReason_eq_none hreason
    refine ⟨hflag, hmark, by unfold Machine.choice; rw [hreason], ?_⟩
    obtain ⟨base, hbase, hof⟩ := Machine.baselineOf_of_mark hi.isMarked hp hflag hmark
    obtain ⟨b', hb', hdevice, hframe⟩ := Memory.baselineOf_eq_some hof
    obtain ⟨x, hx, hname, hxframe⟩ := howners.baseline b' hb'
    have hpast : r.past = (captures r.trace).tail := Run.past_eq_tail (f := f.frame) (by rw [hp]; rfl)
    exact ⟨x, hpast ▸ hx, hname.trans hdevice, by rw [hxframe, hframe]; exact hof⟩

/-- A keyframe, and a capture that came without areas and is yet to be compared with it. -/
theorem compared_with_own_display_second :
    let first := Move.pass (.captured (.tracked (.filled 1 1 .rgb 7) [])) 4 ++ [.receive]
    let f : CapturedFrame := ⟨.filled 1 1 .rgb 9, true, none, false⟩
    let r := (Run.start .small .small).play .plain first
    let r' := (Run.start .small .small).play .plain (first ++ Move.pass (.captured f) 0)
    let memory := r'.machine.memory
    Machine.new .lossless [.small] = .ok .small ∧ r.machine.phase.isOpen = true ∧ r.machine.isRequested = false ∧
      r'.machine.phase = .choosing 1 .small f false ∧
      memory.keyframeReason r'.machine.controller r'.machine.settings.qualityRefreshRatio r'.machine.isRequested .small
        false = none ∧
      (∃ b d since k before, r.machine.memory.baseline = some b ∧ r.machine.memory.lastKeyframe = some d.mark ∧
        b.device = d.name ∧ r.trace = since ++ .sent k :: before ∧ k.isKeyframe = true ∧
        (∀ p, .sent p ∈ since → p.isKeyframe = false) ∧ (acquisitions before).head? = some d) ∧
      r'.machine.isRequested = false ∧ memory.lastKeyframe = some Display.small.mark ∧
      r'.machine.choice .small f false = memory.change .small r'.machine.settings.diffPadding f ∧
      ∃ x ∈ (captures r'.trace).tail, x.1.name = Display.small.name ∧
        memory.baselineOf Display.small.name = some x.2.frame := by
  intro first f r r' memory
  have hopen := (compared_with_own_display (c := .plain) Machine.new_small .small first).1 rfl rfl
  have hchoice := (compared_with_own_display (c := .plain) Machine.new_small .small
    (first ++ Move.pass (.captured f) 0)).2 1 .small f false rfl rfl
  exact ⟨Machine.new_small, rfl, rfl, rfl, rfl, hopen, hchoice⟩

end Screencast
