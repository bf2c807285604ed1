import Screencast.Proofs.Baseline
import Screencast.Proofs.InHand

/-!
# What a delta goes on from

The mark of the last keyframe, the origin of the last capture and the flag are kept at different
moments of a pass. Together they keep a line: from its last keyframe on, the loop sends deltas for one
display at one place, of captures from one kind of source, and no capture failed. Whatever ends the
line raises the flag or shows in the next choice. A failure ends it with nothing left to send but a
fresh capture.
-/

namespace Screencast

/-! ### Lines -/

/-- Neither a keyframe nor a failure nor a capture of another origin. -/
def Event.goesOn (gpu : Bool) : Event → Bool
  | .answered _ (.captured f) => f.isUsingGpu == gpu
  | .answered _ (.failed _ _) => false
  | .sent p => !p.isKeyframe
  | _ => true

theorem Event.goesOn_of_isQuiet (gpu : Bool) {e : Event} (h : e.isQuiet = true) : e.goesOn gpu = true := by
  cases e with
  | answered d r => cases r <;> first | rfl | cases h
  | sent => cases h
  | _ => rfl

/-- The last keyframe went out in a pass for a display with the mark, and from the capture before it on
all came from the same kind of source. -/
def IsLine (mark : KeyframeMark) (gpu : Bool) (t : List Event) : Prop :=
  ∃ since k before d last, t = since ++ .sent k :: before ∧ k.isKeyframe = true ∧
    (acquisitions before).head? = some d ∧ d.mark = mark ∧ (captures before).head? = some last ∧
    last.2.isUsingGpu = gpu ∧ ∀ e ∈ since, e.goesOn gpu = true

theorem IsLine.cons {mark : KeyframeMark} {gpu : Bool} {t : List Event} (h : IsLine mark gpu t) {e : Event}
    (he : e.goesOn gpu = true) : IsLine mark gpu (e :: t) := by
  obtain ⟨since, k, before, d, last, rfl, hk, hd, hmark, hlast, hgpu, hsince⟩ := h
  refine ⟨e :: since, k, before, d, last, rfl, hk, hd, hmark, hlast, hgpu, ?_⟩
  intro x hx
  rcases List.mem_cons.mp hx with rfl | hx
  · exact he
  · exact hsince x hx

namespace Run

variable {c : Compressor} {s : PipelineSettings} {mayFail : Prop} {r : Run} {after : Machine} {e : Option Event}

/-- What the loop remembers is what the line of its trace tells. -/
def OnLine (r : Run) (mark : KeyframeMark) : Prop :=
  r.machine.memory.lastKeyframe = some mark ∧
    ∃ gpu, r.machine.memory.lastUsingGpu = some gpu ∧ IsLine mark gpu r.trace

theorem OnLine.append {mark : KeyframeMark} (h : r.OnLine mark)
    (hk : after.memory.lastKeyframe = r.machine.memory.lastKeyframe)
    (hg : after.memory.lastUsingGpu = r.machine.memory.lastUsingGpu)
    (he : ∀ gpu, ∀ x ∈ e, x.goesOn gpu = true) : OnLine ⟨after, e.toList ++ r.trace⟩ mark := by
  obtain ⟨hlast, gpu, hgpu, hline⟩ := h
  refine ⟨hk.trans hlast, gpu, hg.trans hgpu, ?_⟩
  cases e with
  | none => exact hline
  | some x => exact hline.cons (he gpu x rfl)

/-- With the flag down the loop is on its line, unless the capture in hand is known to leave it. -/
def KeepsLine (r : Run) : Prop :=
  match r.machine.phase with
  | .lowering _ _ | .encodingKeyframe _ _ | .sendingKeyframe _ _ | .raising _ _ => True
  | .encodingDelta s _ | .sendingDelta s _ _ => r.OnLine s.display.mark
  | .choosing _ _ _ b => r.machine.isRequested = false → b = false → ∃ mark, r.OnLine mark
  | _ => r.machine.isRequested = false → ∃ mark, r.OnLine mark

theorem keepsLine_of_isOpen (h : r.machine.phase.isOpen = true) :
    r.KeepsLine ↔ (r.machine.isRequested = false → ∃ mark, r.OnLine mark) := by
  unfold KeepsLine
  cases hp : r.machine.phase <;> first | rfl | (rw [hp] at h; cases h)

/-- A capture of another origin than the line's is known as such. -/
theorem onLine_captured {mark : KeyframeMark} (h : r.OnLine mark) {d : Display} {f : CapturedFrame}
    (hb : r.machine.memory.originChanged f = false) (hk : after.memory.lastKeyframe = r.machine.memory.lastKeyframe)
    (hg : after.memory.lastUsingGpu = some f.isUsingGpu) :
    OnLine ⟨after, .answered d (.captured f) :: r.trace⟩ mark := by
  obtain ⟨hlast, gpu, hgpu, hline⟩ := h
  have hsame : gpu = f.isUsingGpu := by
    unfold Memory.originChanged at hb
    rw [hgpu] at hb
    simpa using hb
  subst hsame
  exact ⟨hk.trans hlast, _, hg, hline.cons (beq_self_eq_true _)⟩

/-- A keyframe begins a line of its own. -/
theorem onLine_sentKeyframe (hk : r.KeepsHand) (hf : r.KeepsFrames c s) {shipment : Shipment} {data : ByteArray}
    (hp : r.machine.phase = .sendingKeyframe shipment data) {p : RegionPayload} (hkey : p.isKeyframe = true) :
    OnLine ⟨(r.machine.sendKeyframe shipment data).1, .sent p :: r.trace⟩ shipment.display.mark := by
  have hdisplay : (acquisitions r.trace).head? = some shipment.display := hk.display _ (by rw [hp]; rfl)
  obtain ⟨n, d, x, hn, -⟩ := hf.inHand shipment.frame (by rw [hp]; rfl)
  have horigin := hk.origin
  cases hc : captures r.trace with
  | nil =>
    rw [hc] at hn
    cases hn
  | cons last rest =>
    rw [hc] at horigin
    have hlast : (captures r.trace).head? = some last := by
      rw [hc]
      rfl
    exact ⟨rfl, last.2.isUsingGpu, horigin, [], p, r.trace, shipment.display, last, rfl, hkey, hdisplay, rfl, hlast, rfl,
      nofun⟩

theorem keepsLine_requested (hl : r.KeepsLine) :
    KeepsLine ⟨r.machine.requestKeyframe, .requested :: r.trace⟩ := by
  unfold KeepsLine at hl ⊢
  cases hphase : r.machine.phase <;> simp only [Machine.requestKeyframe, hphase] at hl ⊢
  case encodingDelta | sendingDelta => exact hl.append (e := some .requested) rfl rfl (by rintro _ _ ⟨⟩; rfl)
  all_goals
    intro hflag
    cases hflag

theorem keepsLine_quiet (before : r.machine.phase.isOpen = true) (isOpen : after.phase.isOpen = true)
    (memory : after.memory = r.machine.memory) (flag : after.isRequested = r.machine.isRequested)
    (isQuiet : e.all Event.isQuiet = true) (hl : r.KeepsLine) : KeepsLine ⟨after, e.toList ++ r.trace⟩ := by
  refine (keepsLine_of_isOpen isOpen).mpr fun hflag => ?_
  obtain ⟨mark, hmark⟩ := (keepsLine_of_isOpen before).mp hl (flag ▸ hflag)
  refine ⟨mark, hmark.append (by rw [memory]) (by rw [memory]) ?_⟩
  rintro gpu x rfl
  exact Event.goesOn_of_isQuiet gpu isQuiet

/-- What does not go out whole is on the line of its display. -/
theorem onLine_of_choice {t : Nat} {d : Display} {f : CapturedFrame} {b : Bool} (hl : r.KeepsLine)
    (hp : r.machine.phase = .choosing t d f b) (hc : ∀ reason, r.machine.choice d f b ≠ .keyframe reason) :
    r.OnLine d.mark := by
  obtain ⟨hflag, hb, hlast, -⟩ := Machine.choice_of_ne_keyframe hc
  unfold KeepsLine at hl
  rw [hp] at hl
  obtain ⟨mark, hmark⟩ := hl hflag hb
  obtain rfl := Option.some.inj (hmark.1.symm.trans hlast)
  exact hmark

theorem OnLine.chosen {mark : KeyframeMark} {d : Display} {b : Bool} (h : r.OnLine mark)
    (hk : after.memory.lastKeyframe = (r.machine.memoryAtChoice d b).lastKeyframe)
    (hg : after.memory.lastUsingGpu = (r.machine.memoryAtChoice d b).lastUsingGpu) : OnLine ⟨after, r.trace⟩ mark :=
  h.append (e := none) (hk.trans (Machine.memoryAtChoice_lastKeyframe _ _ _))
    (hg.trans (Machine.memoryAtChoice_lastUsingGpu _ _ _)) nofun

theorem keepsLine_passage (hi : r.machine.InOrder c) (hk : r.KeepsHand) (hf : r.KeepsFrames c s)
    (hp : Passage c mayFail r.machine e after) (hl : r.KeepsLine) : KeepsLine ⟨after, e.toList ++ r.trace⟩ := by
  cases hp with
  | aside phase memory flag =>
    unfold KeepsLine OnLine at hl ⊢
    rw [phase, memory, flag]
    exact hl
  | requested => exact keepsLine_requested hl
  | quiet before isOpen memory flag _ _ isQuiet => exact keepsLine_quiet before isOpen memory flag isQuiet hl
  | captured phase =>
    intro hflag hb
    obtain ⟨mark, hmark⟩ := (keepsLine_of_isOpen (by rw [phase]; rfl)).mp hl hflag
    exact ⟨mark, onLine_captured hmark hb rfl rfl⟩
  | delta phase choice =>
    have hline := onLine_of_choice hl phase (Machine.ne_keyframe_of_delta choice)
    exact hline.chosen rfl rfl
  | unchanged phase choice =>
    have hline := onLine_of_choice hl phase (Machine.ne_keyframe_of_unchanged choice)
    exact fun _ => ⟨_, hline.chosen rfl rfl⟩
  | encodedDelta phase =>
    unfold KeepsLine at hl
    rw [phase] at hl
    exact hl
  | sentKeyframe phase =>
    rw [hi.taken (by rw [phase]; rfl)]
    exact fun _ => ⟨_, onLine_sentKeyframe hk hf phase rfl⟩
  | sentDelta phase =>
    unfold KeepsLine at hl
    rw [phase] at hl
    rw [hi.taken (by rw [phase]; rfl)]
    exact fun _ => ⟨_, hl.append (e := some (.sent _)) rfl rfl (by rintro _ _ ⟨⟩; rfl)⟩
  | raised _ isOpen _ _ flag =>
    refine (keepsLine_of_isOpen isOpen).mpr fun hflag => ?_
    rw [flag] at hflag
    cases hflag
  | _ => exact trivial

end Run

/-! ### After a failure -/

/-- `Q` holds of what came after each failure, up to the next payload. -/
def AfterFailures (Q : List Event → Prop) (t : List Event) : Prop :=
  ∀ since d reason fault before, t = since ++ .answered d (.failed reason fault) :: before →
    payloads since = [] → Q since

section AfterFailures

variable {P Q : List Event → Prop} {t : List Event}

theorem AfterFailures.append (h : AfterFailures P t) {e : Option Event}
    (he : ∀ d reason fault, e = some (.answered d (.failed reason fault)) → Q [])
    (hstep : ∀ since, P since → Q (e.toList ++ since)) : AfterFailures Q (e.toList ++ t) := by
  intro since d reason fault before ht hnone
  cases e with
  | none => exact hstep since (h since d reason fault before ht hnone)
  | some x =>
    have ht : x :: t = since ++ .answered d (.failed reason fault) :: before := ht
    cases since with
    | nil =>
      obtain ⟨rfl, -⟩ := List.cons.inj ht
      exact he d reason fault rfl
    | cons y since =>
      obtain ⟨rfl, hrest⟩ := List.cons.inj ht
      rw [payloads_cons] at hnone
      exact hstep since (h since d reason fault before hrest (List.append_eq_nil_iff.mp hnone).2)

theorem afterFailures_sent (p : RegionPayload) : AfterFailures Q (.sent p :: t) := by
  intro since d reason fault before ht hnone
  cases since with
  | nil => cases ht
  | cons y since =>
    obtain ⟨rfl, -⟩ := List.cons.inj ht
    cases hnone

end AfterFailures

namespace Machine

/-- A keyframe is due, or in the making. -/
def IsDue (m : Machine) : Prop :=
  match m.phase with
  | .lowering _ _ | .encodingKeyframe _ _ | .sendingKeyframe _ _ | .raising _ _ => True
  | .encodingDelta _ _ | .sendingDelta _ _ _ => False
  | _ => m.isRequested = true

theorem isDue_of_isOpen {m : Machine} (h : m.phase.isOpen = true) : m.IsDue ↔ m.isRequested = true := by
  unfold IsDue
  cases hp : m.phase <;> first | rfl | (rw [hp] at h; cases h)

theorem isDue_requestKeyframe {m : Machine} (h : m.IsDue) : m.requestKeyframe.IsDue := by
  unfold IsDue at h ⊢
  cases hp : m.phase <;> simp only [requestKeyframe, hp] at h ⊢

theorem isDue_congr {m after : Machine} (phase : after.phase = m.phase) (flag : after.isRequested = m.isRequested)
    (h : m.IsDue) : after.IsDue := by
  unfold IsDue at h ⊢
  rw [phase, flag]
  exact h

/-- What is due goes out whole. -/
theorem not_isDue_of_choice {m : Machine} {t : Nat} {d : Display} {f : CapturedFrame} {b : Bool}
    (hp : m.phase = .choosing t d f b) (hc : ∀ reason, m.choice d f b ≠ .keyframe reason) : ¬ m.IsDue := by
  have hflag := (choice_of_ne_keyframe hc).1
  unfold IsDue
  rw [hp, hflag]
  exact Bool.false_ne_true

end Machine

namespace Run

variable {c : Compressor} {s : PipelineSettings} {mayFail : Prop} {r : Run} {after : Machine} {e : Option Event}

/-- Nothing of before is left to send, and what is in hand was captured since. -/
structure Recovers (r : Run) (since : List Event) : Prop where
  baseline : r.machine.memory.baseline = none
  isDue : r.machine.IsDue
  frame : ∀ f, r.machine.phase.frame? = some f → ((captures since).head?.map fun x => x.2.frame) = some f

theorem Recovers.append {since t : List Event} (h : r.Recovers since)
    (hb : after.memory.baseline = none ∨ after.memory.baseline = r.machine.memory.baseline) (hd : after.IsDue)
    (hf : after.phase.frame? = none ∨
      e.bind Event.capture? = none ∧ after.phase.frame? = r.machine.phase.frame?) :
    Recovers ⟨after, t⟩ (e.toList ++ since) := by
  refine ⟨hb.elim id fun hb => hb.trans h.baseline, hd, fun f hframe => ?_⟩
  rcases hf with hf | ⟨he, hf⟩
  · rw [hf] at hframe
    cases hframe
  · rw [captures_append he]
    exact h.frame f (hf ▸ hframe)

theorem recovers_passage {since : List Event} (hi : r.machine.InOrder c) (hp : Passage c mayFail r.machine e after)
    (hr : r.Recovers since) (he : e.bind Event.payload? = none) (t : List Event) :
    Recovers ⟨after, t⟩ (e.toList ++ since) := by
  have hdue := hr.isDue
  cases hp with
  | aside phase memory flag =>
    exact hr.append (e := none) (.inr (by rw [memory])) (Machine.isDue_congr phase flag hdue) (.inr ⟨rfl, by rw [phase]⟩)
  | requested =>
    exact hr.append (e := some .requested) (.inr rfl) (Machine.isDue_requestKeyframe hdue) (.inr ⟨rfl, rfl⟩)
  | quiet before isOpen memory flag =>
    have hafter : after.IsDue := (Machine.isDue_of_isOpen isOpen).mpr (flag ▸ (Machine.isDue_of_isOpen before).mp hdue)
    exact hr.append (.inr (by rw [memory])) hafter (.inl (Phase.frame?_of_isOpen isOpen))
  | captured phase =>
    have hflag : r.machine.isRequested = true := (Machine.isDue_of_isOpen (by rw [phase]; rfl)).mp hdue
    refine ⟨hr.baseline, hflag, fun g hg => ?_⟩
    cases hg
    rfl
  | failed => exact hr.append (.inl rfl) trivial (.inl rfl)
  | resend _ _ baseline =>
    obtain ⟨b, hb, -⟩ := Memory.baselineOf_eq_some baseline
    rw [hr.baseline] at hb
    cases hb
  | keyframe phase =>
    exact hr.append (e := none) (.inr (Machine.memoryAtChoice_baseline _ _ _)) trivial (.inr ⟨rfl, by rw [phase]; rfl⟩)
  | delta phase choice =>
    exact absurd hdue (Machine.not_isDue_of_choice phase (Machine.ne_keyframe_of_delta choice))
  | unchanged phase choice =>
    exact absurd hdue (Machine.not_isDue_of_choice phase (Machine.ne_keyframe_of_unchanged choice))
  | lowered phase | encodedKeyframe phase =>
    exact hr.append (e := none) (.inr rfl) trivial (.inr ⟨rfl, by rw [phase]; rfl⟩)
  | refusedKeyframe => exact hr.append (.inr rfl) trivial (.inl rfl)
  | encodedDelta phase | refusedDelta phase =>
    unfold Machine.IsDue at hdue
    rw [phase] at hdue
    exact hdue.elim
  | sentKeyframe phase | sentDelta phase =>
    rw [hi.taken (by rw [phase]; rfl)] at he
    cases he
  | raised _ isOpen _ memory flag =>
    exact hr.append (.inr (by rw [memory])) ((Machine.isDue_of_isOpen isOpen).mpr flag)
      (.inl (Phase.frame?_of_isOpen isOpen))

theorem recovers_failed (hp : Passage c mayFail r.machine e after) {d : Display} {reason : String} {fault : Bool}
    (he : e = some (.answered d (.failed reason fault))) (t : List Event) : Recovers ⟨after, t⟩ [] := by
  cases hp with
  | failed => exact ⟨rfl, trivial, fun f hf => (by cases hf)⟩
  | quiet _ _ _ _ _ _ isQuiet => rw [he] at isQuiet; cases isQuiet
  | sentKeyframe | sentDelta => unfold Machine.taken at he; split at he <;> cases he
  | _ => cases he

theorem afterFailures_passage (hi : r.machine.InOrder c) (hp : Passage c mayFail r.machine e after)
    (h : AfterFailures r.Recovers r.trace) :
    AfterFailures (Recovers ⟨after, e.toList ++ r.trace⟩) (e.toList ++ r.trace) := by
  cases hsent : e.bind Event.payload? with
  | none =>
    exact h.append (fun _ _ _ he => recovers_failed hp he _) fun _ hr => recovers_passage hi hp hr hsent _
  | some p =>
    obtain ⟨x, rfl, hx⟩ := Option.bind_eq_some_iff.mp hsent
    cases x <;> cases hx
    exact afterFailures_sent p

/-! ### Payloads -/

/-- The payload is the latest of these captures, whole. -/
def IsFresh (c : Compressor) (q : UInt8) (p : RegionPayload) (since : List Event) : Prop :=
  p.isKeyframe = true ∧ ∃ x, (captures since).head? = some x ∧ p.region = x.2.frame.bounds ∧
    x.2.frame.encodeRegion c x.2.frame.bounds q = .ok p.data

/-- A delta is on the line of the display in hand, and what follows a failure is fresh. -/
def GoesOn (c : Compressor) (q : UInt8) (p : RegionPayload) (earlier : List Event) : Prop :=
  (p.isKeyframe = false → ∃ d gpu, (acquisitions earlier).head? = some d ∧ IsLine d.mark gpu earlier) ∧
    AfterFailures (IsFresh c q p) earlier

theorem goesOn_sentKeyframe (hi : r.machine.InOrder c) (hs : r.machine.settings = s)
    (h : AfterFailures r.Recovers r.trace) {shipment : Shipment} {data : ByteArray}
    (hp : r.machine.phase = .sendingKeyframe shipment data) :
    GoesOn c s.keyframeQuality (.ofRect shipment.frame.bounds true data) r.trace := by
  have hdata := hi.keyframe_data hp
  rw [hs] at hdata
  refine ⟨nofun, fun since d reason fault before ht hnone => ⟨rfl, ?_⟩⟩
  have hframe := (h since d reason fault before ht hnone).frame shipment.frame (by rw [hp]; rfl)
  obtain ⟨x, hx, hf⟩ := Option.map_eq_some_iff.mp hframe
  rw [← hf] at hdata
  exact ⟨x, hx, by rw [hf]; rfl, hdata⟩

theorem goesOn_sentDelta (hk : r.KeepsHand) (hl : r.KeepsLine) (h : AfterFailures r.Recovers r.trace)
    {shipment : Shipment} {region : Rect} {data : ByteArray}
    (hp : r.machine.phase = .sendingDelta shipment region data) :
    GoesOn c s.keyframeQuality (.ofRect region false data) r.trace := by
  unfold KeepsLine at hl
  rw [hp] at hl
  obtain ⟨-, gpu, -, hline⟩ := hl
  refine ⟨fun _ => ⟨shipment.display, gpu, hk.display _ (by rw [hp]; rfl), hline⟩, ?_⟩
  intro since d reason fault before ht hnone
  have hdue := (h since d reason fault before ht hnone).isDue
  unfold Machine.IsDue at hdue
  rw [hp] at hdue
  exact hdue.elim

structure KeepsGoing (c : Compressor) (s : PipelineSettings) (r : Run) : Prop where
  frames : r.KeepsFrames c s
  line : r.KeepsLine
  failures : AfterFailures r.Recovers r.trace
  sent : EverySent (GoesOn c s.keyframeQuality) r.trace

theorem keepsGoing_passage (hi : r.machine.InOrder c) (hk : r.KeepsHand) (hp : Passage c mayFail r.machine e after)
    (hr : r.KeepsGoing c s) : KeepsGoing c s ⟨after, e.toList ++ r.trace⟩ := by
  refine ⟨keepsFrames_passage r e after hi hp hr.frames, keepsLine_passage hi hk hr.frames hp hr.line,
    afterFailures_passage hi hp hr.failures, ?_⟩
  cases hp with
  | sentKeyframe phase =>
    rw [hi.taken (by rw [phase]; rfl)]
    refine hr.sent.cons fun p hp => ?_
    cases hp
    exact goesOn_sentKeyframe hi hr.frames.settings hr.failures phase
  | sentDelta phase =>
    rw [hi.taken (by rw [phase]; rfl)]
    refine hr.sent.cons fun p hp => ?_
    cases hp
    exact goesOn_sentDelta hk hr.line hr.failures phase
  | quiet _ _ _ _ _ _ isQuiet => exact hr.sent.append (Event.bind_of_isQuiet isQuiet).2.1
  | _ => exact hr.sent.append rfl

theorem start_keepsGoing {attached : List Display} {m : Machine} (h : Machine.new s attached = .ok m)
    (registry : Registry) : (start m registry).KeepsGoing c s := by
  obtain ⟨-, hphase, -, hflag⟩ := start_ok h registry
  refine ⟨start_keepsFrames h registry, ?_, ?_, everySent_nil⟩
  · refine (keepsLine_of_isOpen (by rw [hphase]; rfl)).mpr fun hf => ?_
    rw [hflag] at hf
    cases hf
  · intro since d reason fault before ht
    exact absurd ht.symm (by simp [start])

end Run

variable {c : Compressor} {s : PipelineSettings} {attached : List Display} {m : Machine}

/-- A delta goes on from a keyframe of the same display at the same place: from the capture before that keyframe
on all captures have one origin, and none failed. The first payload after a failure is a keyframe of
a frame captured since. -/
theorem delta_goes_on (h : Machine.new s attached = .ok m) (registry : Registry) (moves : List Move)
    (later : List Event) {earlier : List Event} {p : RegionPayload}
    (ht : ((Run.start m registry).play c moves).trace = later ++ .sent p :: earlier) :
    (p.isKeyframe = false → ∃ since k before dk d last, earlier = since ++ .sent k :: before ∧ k.isKeyframe = true ∧
      (acquisitions before).head? = some dk ∧ (acquisitions earlier).head? = some d ∧ dk.name = d.name ∧
      dk.area = d.area ∧ (captures before).head? = some last ∧ ∀ e ∈ since, e.goesOn last.2.isUsingGpu = true) ∧
    ∀ since d reason fault before, earlier = since ++ .answered d (.failed reason fault) :: before →
      payloads since = [] → p.isKeyframe = true ∧ ∃ x, (captures since).head? = some x ∧
        p.region = x.2.frame.bounds ∧ x.2.frame.encodeRegion c x.2.frame.bounds s.keyframeQuality = .ok p.data := by
  obtain ⟨-, -, hkeeps⟩ := Run.play_steps (P := Run.KeepsGoing c s)
    (fun r _ e after hi hk _ hp hr => Run.keepsGoing_passage hi hk hp hr) (Run.start_inOrder h registry)
    (Run.start_keepsHand h registry) (Run.start_keepsGoing h registry) moves
  obtain ⟨hdelta, hfresh⟩ := hkeeps.sent later p earlier ht
  refine ⟨fun hk => ?_, hfresh⟩
  obtain ⟨d, gpu, hd, since, k, before, dk, last, ht, hkey, hdk, hmark, hlast, rfl, hsince⟩ := hdelta hk
  exact ⟨since, k, before, dk, d, last, ht, hkey, hdk, hd, congrArg KeyframeMark.device hmark,
    congrArg KeyframeMark.area hmark, hlast, hsince⟩

/-- A keyframe, a failed capture, the keyframe that follows it and a delta. -/
theorem delta_goes_on_after_failure :
    let moves := Move.pass (.captured (.tracked (.filled 1 1 .rgb 7) [])) 4 ++ [.receive] ++
      Move.pass (.failed "lost" true) 1 ++ [.wait 1000000, .act] ++
      Move.pass (.captured (.tracked (.filled 1 1 .rgb 8) [])) 4 ++ [.receive] ++
      Move.pass (.captured (.tracked (.filled 1 1 .rgb 9) [⟨0, 0, 1, 1⟩])) 3
    let r := (Run.start .small .small).play .plain moves
    let p : RegionPayload := ⟨0, 0, 1, 1, false, ⟨#[9, 9, 9]⟩⟩
    Machine.new .lossless [.small] = .ok .small ∧ r.trace = [] ++ .sent p :: r.trace.tail ∧ p.isKeyframe = false ∧
      ((p.isKeyframe = false → ∃ since k before dk d last, r.trace.tail = since ++ .sent k :: before ∧
        k.isKeyframe = true ∧ (acquisitions before).head? = some dk ∧ (acquisitions r.trace.tail).head? = some d ∧
        dk.name = d.name ∧ dk.area = d.area ∧ (captures before).head? = some last ∧
        ∀ e ∈ since, e.goesOn last.2.isUsingGpu = true) ∧
      ∀ since d reason fault before, r.trace.tail = since ++ .answered d (.failed reason fault) :: before →
        payloads since = [] → p.isKeyframe = true ∧ ∃ x, (captures since).head? = some x ∧
          p.region = x.2.frame.bounds ∧
          x.2.frame.encodeRegion .plain x.2.frame.bounds PipelineSettings.lossless.keyframeQuality = .ok p.data) := by
  intro moves r p
  have ht : r.trace = [] ++ .sent p :: r.trace.tail := rfl
  exact ⟨Machine.new_small, ht, rfl, delta_goes_on Machine.new_small .small moves [] ht⟩

end Screencast
