import Screencast.Proofs.Trace

/-!
# Which frame a keyframe shows

A frame whose compression fails is lost, while the baseline of before is kept. The next pass without
a change answers the raised flag from that baseline. So a keyframe shows the latest capture exactly
if no compression failed after that capture.
-/

namespace Screencast

/-- The frame of a capture; of the latest one exactly if no compression failed since. -/
def IsCaptured (t : List Event) (f : Frame) : Prop :=
  ∃ n d x, (captures t)[n]? = some (d, x) ∧ x.frame = f ∧ (n = 0 ↔ isStale t = false)

/-- The frame of a capture before the latest. -/
def IsOlder (t : List Event) (f : Frame) : Prop := ∃ n d x, (captures t)[n + 1]? = some (d, x) ∧ x.frame = f

theorem isCaptured_congr {t u : List Event} (hc : captures u = captures t) (hs : isStale u = isStale t) {f : Frame}
    (h : IsCaptured t f) : IsCaptured u f := by
  unfold IsCaptured
  rw [hc, hs]
  exact h

theorem isOlder_congr {t u : List Event} (hc : captures u = captures t) {f : Frame} (h : IsOlder t f) :
    IsOlder u f := by
  unfold IsOlder
  rw [hc]
  exact h

theorem isCaptured_captured (d : Display) (f : CapturedFrame) (t : List Event) :
    IsCaptured (.answered d (.captured f) :: t) f.frame := by
  refine ⟨0, d, f, ?_, rfl, ?_⟩
  · rw [captures_cons]
    rfl
  · rw [isStale_cons]
    exact ⟨fun _ => rfl, fun _ => rfl⟩

/-- With every capture the frames before it become older. -/
theorem IsCaptured.isOlder {t : List Event} {f : Frame} (h : IsCaptured t f) (d : Display) (x : CapturedFrame) :
    IsOlder (.answered d (.captured x) :: t) f := by
  obtain ⟨n, e, y, hn, hf, -⟩ := h
  refine ⟨n, e, y, ?_, hf⟩
  rw [captures_cons]
  exact hn

/-- After a failed compression an older frame is as good as it gets. -/
theorem IsOlder.isCaptured {t : List Event} {f : Frame} (h : IsOlder t f) (isKeyframe : Bool) :
    IsCaptured (.refused isKeyframe :: t) f := by
  obtain ⟨n, e, y, hn, hf⟩ := h
  refine ⟨n + 1, e, y, ?_, hf, ?_⟩
  · rw [captures_cons]
    exact hn
  · rw [isStale_cons]
    constructor
    · intro h0
      omega
    · intro hs
      cases hs

/-- The frame in hand. -/
def Phase.frame? : Phase → Option Frame
  | .choosing _ _ c _ => some c.frame
  | .lowering s _ | .encodingKeyframe s _ | .sendingKeyframe s _ | .encodingDelta s _ | .sendingDelta s _ _ =>
    some s.frame
  | _ => none

theorem Phase.frame?_of_isOpen {p : Phase} (h : p.isOpen = true) : p.frame? = none := by
  cases p <;> first | rfl | cases h

namespace Run

/-- A sent keyframe holds a capture whole. -/
def ShowsCapture (c : Compressor) (q : UInt8) (p : RegionPayload) (t : List Event) : Prop :=
  p.isKeyframe = true → ∃ f, IsCaptured t f ∧ p.region = f.bounds ∧ f.encodeRegion c f.bounds q = .ok p.data

structure KeepsFrames (c : Compressor) (s : PipelineSettings) (r : Run) : Prop where
  settings : r.machine.settings = s
  baseline : ∀ b, r.machine.memory.baseline = some b →
    if r.machine.phase.frame?.isSome then IsOlder r.trace b.frame else IsCaptured r.trace b.frame
  inHand : ∀ f, r.machine.phase.frame? = some f → IsCaptured r.trace f
  sent : EverySent (ShowsCapture c s.keyframeQuality) r.trace

variable {c : Compressor} {s : PipelineSettings} {mayFail : Prop} {r : Run} {after : Machine} {e : Option Event}

/-- Events that are neither captures nor refusals, while the hand stays full or empty. -/
theorem keepsFrames_keeps (hr : r.KeepsFrames c s) (settings : after.settings = r.machine.settings)
    (hb : after.memory.baseline = none ∨ after.memory.baseline = r.machine.memory.baseline)
    (hf : after.phase.frame? = r.machine.phase.frame?)
    (hc : e.bind Event.capture? = none) (he : e.bind Event.payload? = none) (hv : e.bind Event.verdict? = none) :
    KeepsFrames c s ⟨after, e.toList ++ r.trace⟩ := by
  have hc := captures_append hc r.trace
  have hs := isStale_append hv r.trace
  refine ⟨settings.trans hr.settings, ?_, ?_, hr.sent.append he⟩
  · intro b hbb
    rcases hb with hb | hb
    · rw [hb] at hbb
      cases hbb
    · have h := hr.baseline b (hb ▸ hbb)
      simp only [hf]
      split at h
      · rw [if_pos ‹_›]
        exact isOlder_congr hc h
      · rw [if_neg ‹_›]
        exact isCaptured_congr hc hs h
  · intro f hff
    exact isCaptured_congr hc hs (hr.inHand f (hf ▸ hff))

/-- The hand is full from here on, so whatever the baseline holds is older now. -/
theorem keepsFrames_captured {d : Display} {f : CapturedFrame} (hr : r.KeepsFrames c s)
    (settings : after.settings = r.machine.settings) (empty : r.machine.phase.frame? = none)
    (baseline : after.memory.baseline = r.machine.memory.baseline) (hand : after.phase.frame? = some f.frame) :
    KeepsFrames c s ⟨after, .answered d (.captured f) :: r.trace⟩ := by
  refine ⟨settings.trans hr.settings, fun b hb => ?_, fun g hg => ?_, hr.sent.cons fun q hq => (by cases hq)⟩
  · have h := hr.baseline b (baseline ▸ hb)
    rw [empty] at h
    rw [hand]
    exact IsCaptured.isOlder h d f
  · rw [hand] at hg
    cases hg
    exact isCaptured_captured d f r.trace

/-- The baseline goes into the hand as it is, older or not. -/
theorem keepsFrames_resend {device : String} {f : Frame} (hr : r.KeepsFrames c s)
    (settings : after.settings = r.machine.settings) (empty : r.machine.phase.frame? = none)
    (hf : r.machine.memory.baselineOf device = some f) (baseline : after.memory.baseline = none)
    (hand : after.phase.frame? = some f) : KeepsFrames c s ⟨after, r.trace⟩ := by
  obtain ⟨b, hb, -, rfl⟩ := Memory.baselineOf_eq_some hf
  have h := hr.baseline b hb
  rw [empty] at h
  refine ⟨settings.trans hr.settings, fun x hx => ?_, fun g hg => ?_, hr.sent⟩
  · rw [baseline] at hx
    cases hx
  · rw [hand] at hg
    cases hg
    exact h

/-- The frame in hand becomes the baseline, and the hand is empty. -/
theorem keepsFrames_noted {f : Frame} (hr : r.KeepsFrames c s) (settings : after.settings = r.machine.settings)
    (hf : r.machine.phase.frame? = some f) (hb : ∀ b, after.memory.baseline = some b → b.frame = f)
    (hnone : after.phase.frame? = none) (hc : e.bind Event.capture? = none) (hv : e.bind Event.verdict? = none)
    (sent : EverySent (ShowsCapture c s.keyframeQuality) (e.toList ++ r.trace)) :
    KeepsFrames c s ⟨after, e.toList ++ r.trace⟩ := by
  refine ⟨settings.trans hr.settings, fun b hbb => ?_, fun g hg => ?_, sent⟩
  · rw [hnone, hb b hbb]
    exact isCaptured_congr (captures_append hc r.trace) (isStale_append hv r.trace) (hr.inHand f hf)
  · rw [hnone] at hg
    cases hg

theorem keepsFrames_sentKeyframe {shipment : Shipment} {data : ByteArray} (hi : r.machine.InOrder c)
    (hr : r.KeepsFrames c s) (phase : r.machine.phase = .sendingKeyframe shipment data) :
    KeepsFrames c s ⟨(r.machine.sendKeyframe shipment data).1,
      .sent (.ofRect shipment.frame.bounds true data) :: r.trace⟩ := by
  have hframe : r.machine.phase.frame? = some shipment.frame := by rw [phase]; rfl
  have hdata := hi.keyframe_data phase
  rw [hr.settings] at hdata
  refine keepsFrames_noted (e := some (.sent _)) hr rfl hframe (fun b hb => (by cases hb; rfl)) rfl rfl rfl ?_
  refine hr.sent.cons fun p hp _ => ?_
  cases hp
  exact ⟨shipment.frame, hr.inHand _ hframe, rfl, hdata⟩

theorem keepsFrames_sentDelta {shipment : Shipment} {region : Rect} {data : ByteArray} (hr : r.KeepsFrames c s)
    (phase : r.machine.phase = .sendingDelta shipment region data) :
    KeepsFrames c s ⟨(r.machine.sendDelta shipment region data).1, .sent (.ofRect region false data) :: r.trace⟩ := by
  have hframe : r.machine.phase.frame? = some shipment.frame := by rw [phase]; rfl
  refine keepsFrames_noted (e := some (.sent _)) hr rfl hframe (fun b hb => (by cases hb; rfl)) rfl rfl rfl ?_
  refine hr.sent.cons fun p hp hk => ?_
  cases hp
  cases hk

theorem keepsFrames_refused {isKeyframe : Bool} (hr : r.KeepsFrames c s)
    (settings : after.settings = r.machine.settings)
    (hb : after.memory = r.machine.memory) (hf : r.machine.phase.frame?.isSome = true)
    (hnone : after.phase.frame? = none) :
    KeepsFrames c s ⟨after, .refused isKeyframe :: r.trace⟩ := by
  refine ⟨settings.trans hr.settings, ?_, ?_, ?_⟩
  · intro b hbb
    have h := hr.baseline b (hb ▸ hbb)
    rw [if_pos hf] at h
    rw [hnone]
    exact h.isCaptured isKeyframe
  · intro g hg
    rw [hnone] at hg
    cases hg
  · exact hr.sent.cons fun q hq => by cases hq

theorem keepsFrames_passage (r : Run) (e : Option Event) (after : Machine) (hi : r.machine.InOrder c)
    (hp : Passage c mayFail r.machine e after) (hr : r.KeepsFrames c s) :
    KeepsFrames c s ⟨after, e.toList ++ r.trace⟩ := by
  have hsettings := hp.settings_eq
  cases hp with
  | aside phase memory =>
    exact keepsFrames_keeps hr hsettings (.inr (by rw [memory])) (by rw [phase]) rfl rfl rfl
  | requested => exact keepsFrames_keeps hr hsettings (.inr rfl) rfl rfl rfl rfl
  | quiet before isOpen memory _ _ _ isQuiet =>
    have hf : after.phase.frame? = r.machine.phase.frame? := by
      rw [Phase.frame?_of_isOpen isOpen, Phase.frame?_of_isOpen before]
    obtain ⟨hc, he, hv⟩ := Event.bind_of_isQuiet isQuiet
    exact keepsFrames_keeps hr hsettings (.inr (by rw [memory])) hf hc he hv
  | captured phase => exact keepsFrames_captured hr hsettings (by rw [phase]; rfl) rfl rfl
  | failed phase => exact keepsFrames_keeps hr hsettings (.inl rfl) (by rw [phase]; rfl) rfl rfl rfl
  | resend phase _ baseline => exact keepsFrames_resend hr hsettings (by rw [phase]; rfl) baseline rfl rfl
  | keyframe phase | delta phase =>
    refine keepsFrames_keeps (e := none) hr hsettings (.inr ?_) (by rw [phase]; rfl) rfl rfl rfl
    exact Machine.memoryAtChoice_baseline _ _ _
  | @unchanged t d f b phase =>
    refine keepsFrames_noted (e := none) (f := f.frame) hr hsettings (by rw [phase]; rfl) ?_ rfl rfl rfl hr.sent
    intro base hbase
    cases hbase
    rfl
  | lowered phase | encodedKeyframe phase | encodedDelta phase =>
    exact keepsFrames_keeps (e := none) hr hsettings (.inr rfl) (by rw [phase]; rfl) rfl rfl rfl
  | refusedKeyframe phase | refusedDelta phase =>
    exact keepsFrames_refused hr hsettings rfl (by rw [phase]; rfl) rfl
  | sentKeyframe phase =>
    rw [hi.taken (by rw [phase]; rfl)]
    exact keepsFrames_sentKeyframe hi hr phase
  | sentDelta phase =>
    rw [hi.taken (by rw [phase]; rfl)]
    exact keepsFrames_sentDelta hr phase
  | raised phase isOpen _ memory =>
    refine keepsFrames_keeps (e := some .raised) hr hsettings (.inr (by rw [memory])) ?_ rfl rfl rfl
    rw [phase, Phase.frame?_of_isOpen isOpen]
    rfl

theorem start_keepsFrames {attached : List Display} {m : Machine} (h : Machine.new s attached = .ok m)
    (registry : Registry) : (start m registry).KeepsFrames c s := by
  obtain ⟨hs, hphase, hmemory, -⟩ := start_ok h registry
  refine ⟨hs, ?_, ?_, everySent_nil⟩
  · intro b hb
    rw [hmemory] at hb
    cases hb
  · intro f hf
    rw [hphase] at hf
    cases hf

end Run

variable {c : Compressor} {s : PipelineSettings} {attached : List Display} {m : Machine}

/-- Every keyframe holds a captured frame whole, at the quality of keyframes. It is the frame of the
latest capture exactly if no compression failed between that capture and the keyframe. -/
theorem keyframe_shows_capture (h : Machine.new s attached = .ok m) (registry : Registry) (moves : List Move)
    (later : List Event) {earlier : List Event} {p : RegionPayload}
    (ht : ((Run.start m registry).play c moves).trace = later ++ .sent p :: earlier) (hk : p.isKeyframe = true) :
    ∃ n d f, (captures earlier)[n]? = some (d, f) ∧ p.region = f.frame.bounds ∧
      f.frame.encodeRegion c f.frame.bounds s.keyframeQuality = .ok p.data ∧ (n = 0 ↔ isStale earlier = false) := by
  have hkeeps : ((Run.start m registry).play c moves).KeepsFrames c s :=
    Run.play_induction Run.keepsFrames_passage (Run.start_inOrder h registry)
      (Run.start_keepsFrames h registry) (fun _ => trivial)
  obtain ⟨_, ⟨n, d, f, hn, rfl, hstale⟩, hregion, hdata⟩ := hkeeps.sent _ _ _ ht hk
  exact ⟨n, d, f, hn, hregion, hdata, hstale⟩

/-- A first capture goes out. The compression of the next one fails, and a pass without changes follows. -/
def lostFrameMoves : List Move :=
  Move.pass (.captured (.tracked (.filled 1 1 .rgb 7) [])) 4 ++ [.receive] ++
    Move.pass (.captured (.tracked (.filled 2 1 .rgb 9) [⟨0, 0, 2, 1⟩])) 1 ++ [.fail, .act] ++
    Move.pass .noChanges 4

theorem keyframe_shows_capture_lost :
    let r := (Run.start .small .small).play .plain lostFrameMoves
    let p : RegionPayload := ⟨0, 0, 1, 1, true, ⟨#[7, 7, 7]⟩⟩
    Machine.new .lossless [.small] = .ok .small ∧ r.trace = [] ++ .sent p :: r.trace.tail ∧ p.isKeyframe = true ∧
      ∃ n d f, (captures r.trace.tail)[n]? = some (d, f) ∧ p.region = f.frame.bounds ∧
        f.frame.encodeRegion .plain f.frame.bounds PipelineSettings.lossless.keyframeQuality = .ok p.data ∧
        (n = 0 ↔ isStale r.trace.tail = false) :=
  ⟨Machine.new_small, rfl, rfl, keyframe_shows_capture Machine.new_small .small lostFrameMoves [] rfl rfl⟩

/-- The keyframe that follows the failure is of one pixel, though the latest capture has two. -/
theorem keyframe_shows_older_capture :
    let r := (Run.start .small .small).play .plain lostFrameMoves
    ∃ p earlier d f, Machine.new .lossless [.small] = .ok .small ∧ r.trace = .sent p :: earlier ∧
      p.isKeyframe = true ∧ (captures earlier).head? = some (d, f) ∧ p.region ≠ f.frame.bounds :=
  ⟨_, _, _, _, Machine.new_small, rfl, rfl, rfl, by decide⟩

end Screencast
