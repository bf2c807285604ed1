import Screencast.Proofs.Viewer
import Screencast.Proofs.Zstd

/-!
# The viewer's picture is the screen

With a lossless coder, and a source of captures that keeps its promises, the picture of a viewer that
took all payloads is that of the latest capture whenever no frame is in hand. The proof follows the
frame: while it is in hand, the picture is that of the capture before, and the region to be drawn
covers all that differs.
-/

namespace Screencast

/-! ### Sources of captures -/

/-- What every capture has to be. -/
structure CapturedFrame.IsSound (f : CapturedFrame) : Prop where
  wellFormed : f.frame.WellFormed
  width_ne : f.frame.width ≠ 0
  height_ne : f.frame.height ≠ 0
  fits : ∀ rects, f.dirtyRects = some rects → ∀ r ∈ rects, r.Fits

/-- The areas of the capture, if it came with any, cover all that differs from the capture before. -/
def CapturedFrame.Tracks (f previous : CapturedFrame) : Prop :=
  ∀ rects, f.dirtyRects = some rects → f.frame.Alike previous.frame ∧
    ∀ x y, f.frame.Differ previous.frame x y → ∃ r ∈ rects, r.Covers x y

/-- Captures, the latest first, each sound and with areas that count from the capture before it, if that
was of the same device and of the same origin. -/
def IsHonest : List (Display × CapturedFrame) → Prop
  | [] => True
  | (d, f) :: rest => f.IsSound ∧
    (∀ e g, rest.head? = some (e, g) → e.name = d.name → g.isUsingGpu = f.isUsingGpu → f.Tracks g) ∧ IsHonest rest

theorem IsHonest.of_append {l rest : List (Display × CapturedFrame)} (h : IsHonest (l ++ rest)) : IsHonest rest := by
  induction l with
  | nil => exact h
  | cons x l ih => exact ih h.2.2

theorem isHonest_before {e : Option Event} {t : List Event} (h : IsHonest (captures (e.toList ++ t))) :
    IsHonest (captures t) := by
  unfold captures at h ⊢
  rw [List.filterMap_append] at h
  exact h.of_append

theorem IsHonest.isSound {l : List (Display × CapturedFrame)} (h : IsHonest l) {d : Display} {f : CapturedFrame}
    (hf : l.head? = some (d, f)) : f.IsSound := by
  obtain ⟨rest, rfl⟩ := List.head?_eq_some_iff.mp hf
  exact h.1

theorem CapturedFrame.IsSound.nonempty {f : CapturedFrame} (h : f.IsSound) : f.frame.bounds.isEmpty = false := by
  have hw := mt UInt32.toNat_inj.mp h.width_ne
  have hh := mt UInt32.toNat_inj.mp h.height_ne
  rw [Bool.eq_false_iff]
  exact fun he => (Rect.isEmpty_iff _).mp he |>.elim hw hh

/-- The region of a change covers all differences to the capture that is the baseline. -/
theorem Memory.change_covers {m : Memory} {d : Display} {padding : UInt32} {f g : CapturedFrame} (hf : f.IsSound)
    (hg : g.IsSound) (ht : f.Tracks g) (hb : m.baselineOf d.name = some g.frame)
    (hc : ∀ reason, m.change d padding f ≠ .keyframe reason) :
    f.frame.Alike g.frame ∧ ∃ r : Rect, m.change d padding f = (if r.isEmpty then .unchanged else .delta r) ∧
      ∀ x y, f.frame.Differ g.frame x y → r.Covers x y := by
  cases hd : f.dirtyRects with
  | some rects =>
    obtain ⟨hab, hcover⟩ := ht rects hd
    refine ⟨hab, unionWithin rects f.frame.bounds, change_tracked hd, ?_⟩
    intro x y hxy
    obtain ⟨r, hr, hcr⟩ := hcover x y hxy
    exact covers_unionWithin (Rect.liesIn_bounds _ _).fits (hf.fits rects hd) hr hcr (Rect.covers_bounds.mpr hxy.1)
  | none =>
    have hab := change_of_ne_keyframe hc hd hb
    obtain ⟨r, hr, hcover⟩ := Frame.change_covers hf.wellFormed hg.wellFormed hab padding
    rw [← hb] at hr
    exact ⟨hab, r, change_compared hd hr, hcover⟩

/-! ### The invariant -/

/-- The baseline, if there is one, is the latest capture. -/
def HoldsLatest (baseline : Option Baseline) (latest : Option (Display × CapturedFrame)) : Prop :=
  ∀ b, baseline = some b → ∃ d f, latest = some (d, f) ∧ b = ⟨f.frame, d.name⟩

/-- The latest capture, that of the shipment, is to be drawn over the one before, which the viewer has. -/
structure Redraws (s : Shipment) (region : Rect) (l : List (Display × CapturedFrame)) (v : Option Picture)
    (f g : CapturedFrame) : Prop where
  captures : ∃ e rest, l = (s.display, f) :: (e, g) :: rest
  frame_eq : f.frame = s.frame
  view_eq : v = some g.frame.picture
  alike : f.frame.Alike g.frame
  nonempty : region.isEmpty = false
  liesIn : region.LiesIn f.frame.width f.frame.height
  covers : ∀ x y, f.frame.Differ g.frame x y → region.Covers x y

/-- How phase, memory, captures and the viewer's picture go together. -/
def Agrees (p : Phase) (m : Memory) (l : List (Display × CapturedFrame)) (v : Option Picture) : Prop :=
  m.lastUsingGpu = l.head?.map (fun x => x.2.isUsingGpu) ∧
    match p with
    | .choosing _ d f b => ∃ rest, l = (d, f) :: rest ∧ v = rest.head?.map (fun x => x.2.frame.picture) ∧
        HoldsLatest m.baseline rest.head? ∧ b = rest.head?.any (fun x => x.2.isUsingGpu != f.isUsingGpu)
    | .lowering s _ | .encodingKeyframe s _ | .sendingKeyframe s _ =>
        ∃ d f, l.head? = some (d, f) ∧ f.frame = s.frame ∧ d.name = s.display.name
    | .encodingDelta s region | .sendingDelta s region _ => ∃ f g, Redraws s region l v f g
    | _ => v = l.head?.map (fun x => x.2.frame.picture) ∧ HoldsLatest m.baseline l.head?

def Run.KeepsPicture (c : Compressor) (r : Run) : Prop :=
  IsHonest (captures r.trace) → Agrees r.machine.phase r.machine.memory (captures r.trace) (view c r.trace)

theorem agrees_of_isOpen {p : Phase} (h : p.isOpen = true) {m : Memory} {l : List (Display × CapturedFrame)}
    {v : Option Picture} : Agrees p m l v ↔ m.lastUsingGpu = l.head?.map (fun x => x.2.isUsingGpu) ∧
      v = l.head?.map (fun x => x.2.frame.picture) ∧ HoldsLatest m.baseline l.head? := by
  unfold Agrees
  cases p <;> first | rfl | cases h

section Transitions

variable {c : Compressor} {m : Machine} {l : List (Display × CapturedFrame)} {v : Option Picture} {t : Nat}
  {d : Display} {f : CapturedFrame} {b : Bool}

theorem agrees_captured (hp : m.phase = .capturing t d) (ha : Agrees m.phase m.memory l v) :
    Agrees (.choosing t d f (m.memory.originChanged f)) { m.memory with lastUsingGpu := some f.isUsingGpu }
      ((d, f) :: l) v := by
  rw [agrees_of_isOpen (by rw [hp]; rfl)] at ha
  obtain ⟨hgpu, hv, hholds⟩ := ha
  refine ⟨rfl, l, rfl, hv, hholds, ?_⟩
  -- The origin that the memory has is that of the capture before.
  unfold Memory.originChanged
  rw [hgpu, Option.any_map]

theorem agrees_failed (hp : m.phase = .capturing t d) (ha : Agrees m.phase m.memory l v) (delay : Option Micros) :
    Agrees (.raising t delay) { m.memory with baseline := none } l v := by
  rw [agrees_of_isOpen (by rw [hp]; rfl)] at ha
  exact ⟨ha.1, ha.2.1, fun base hbase => (by cases hbase)⟩

/-- The baseline that is sent again is the latest capture, of the display at hand. -/
theorem agrees_resend {g : Frame} (hp : m.phase = .idle t d) (hb : m.memory.baselineOf d.name = some g)
    (ha : Agrees m.phase m.memory l v) (reason : KeyframeReason) :
    Agrees (.lowering ⟨t, d, g⟩ reason) { m.memory with baseline := none } l v := by
  rw [agrees_of_isOpen (by rw [hp]; rfl)] at ha
  obtain ⟨hgpu, -, hholds⟩ := ha
  obtain ⟨base, hbase, hdevice, rfl⟩ := Memory.baselineOf_eq_some hb
  obtain ⟨e, x, hhead, rfl⟩ := hholds base hbase
  exact ⟨hgpu, e, x, hhead, rfl, hdevice⟩

theorem agrees_keyframe (hp : m.phase = .choosing t d f b) (ha : Agrees m.phase m.memory l v)
    (reason : KeyframeReason) : Agrees (.lowering ⟨t, d, f.frame⟩ reason) (m.memoryAtChoice d b) l v := by
  rw [hp] at ha
  obtain ⟨hgpu, rest, rfl, -, -, -⟩ := ha
  exact ⟨(m.memoryAtChoice_lastUsingGpu d b).trans hgpu, d, f, rfl, rfl, rfl⟩

/-- A capture that does not go out whole counts from the capture before it, which the viewer has, and
its region covers all that differs. -/
theorem change_at_choice (hm : m.IsMarked) (hp : m.phase = .choosing t d f b) (hh : IsHonest l)
    (ha : Agrees m.phase m.memory l v) (hc : ∀ reason, m.choice d f b ≠ .keyframe reason) :
    ∃ e g rest, l = (d, f) :: (e, g) :: rest ∧ v = some g.frame.picture ∧ f.IsSound ∧ g.IsSound ∧
      f.frame.Alike g.frame ∧ ∃ region : Rect,
        m.choice d f b = (if region.isEmpty then .unchanged else .delta region) ∧
        ∀ x y, f.frame.Differ g.frame x y → region.Covers x y := by
  obtain ⟨-, hb, -, hchange⟩ := Machine.choice_of_ne_keyframe hc
  obtain ⟨base, hbase, hof⟩ := Machine.baselineOf_of_ne_keyframe hm hp hc
  rw [hp] at ha
  obtain ⟨-, rest, rfl, hv, hholds, horigin⟩ := ha
  obtain ⟨e, g, hhead, rfl⟩ := hholds base hbase
  obtain ⟨rest, rfl⟩ := List.head?_eq_some_iff.mp hhead
  have hname : e.name = d.name := by
    obtain ⟨b, hsome, hdevice, -⟩ := Memory.baselineOf_eq_some hof
    obtain rfl := Option.some.inj (hbase.symm.trans hsome)
    exact hdevice
  have hgpu : g.isUsingGpu = f.isUsingGpu := by
    rw [hb] at horigin
    exact Decidable.not_not.mp fun hne => Bool.noConfusion (horigin.trans (bne_iff_ne.mpr hne))
  obtain ⟨hf, htracks, hg, -⟩ := hh
  rw [hchange] at hc ⊢
  obtain ⟨hab, region, hregion, hcover⟩ := Memory.change_covers hf hg (htracks e g rfl hname hgpu) hof hc
  exact ⟨e, g, rest, rfl, hv, hf, hg, hab, region, hregion, hcover⟩

theorem agrees_delta {region : Rect} (hm : m.IsMarked) (hp : m.phase = .choosing t d f b) (hh : IsHonest l)
    (ha : Agrees m.phase m.memory l v) (hc : m.choice d f b = .delta region) :
    Agrees (.encodingDelta ⟨t, d, f.frame⟩ region) (m.memoryAtChoice d b) l v := by
  have hne := Machine.ne_keyframe_of_delta hc
  obtain ⟨-, -, -, hchange⟩ := Machine.choice_of_ne_keyframe hne
  obtain ⟨hnonempty, hlies⟩ := Memory.change_delta (hchange.symm.trans hc)
  obtain ⟨e, g, rest, hl, hv, -, -, hab, area, harea, hcover⟩ := change_at_choice hm hp hh ha hne
  rw [hc] at harea
  split at harea
  · cases harea
  · cases harea
    refine ⟨(m.memoryAtChoice_lastUsingGpu d b).trans ha.1, f, g, ?_⟩
    exact ⟨⟨e, rest, hl⟩, rfl, hv, hab, hnonempty, hlies, hcover⟩

theorem agrees_unchanged {wake : Micros} (hm : m.IsMarked) (hp : m.phase = .choosing t d f b) (hh : IsHonest l)
    (ha : Agrees m.phase m.memory l v) (hc : m.choice d f b = .unchanged) :
    Agrees (.resting wake) ((m.memoryAtChoice d b).noteFrame d f.frame) l v := by
  have hne := Machine.ne_keyframe_of_unchanged hc
  obtain ⟨e, g, rest, rfl, hv, hf, hg, hab, area, harea, hcover⟩ := change_at_choice hm hp hh ha hne
  rw [hc] at harea
  split at harea
  · rename_i hempty
    have hsame : f.frame.picture = g.frame.picture := by
      refine picture_eq hf.wellFormed hg.wellFormed hab fun x y hxy => ?_
      rw [(hcover x y hxy).nonempty] at hempty
      cases hempty
    refine ⟨(m.memoryAtChoice_lastUsingGpu d b).trans ha.1, ?_, ?_⟩
    · rw [hv, ← hsame]
      rfl
    · intro base hbase
      cases hbase
      exact ⟨d, f, rfl, rfl⟩
  · cases harea

theorem show_keyframe (hc : c.IsLossless) (hf : f.IsSound) {q : UInt8} {data : ByteArray}
    (hd : f.frame.encodeRegion c f.frame.bounds q = .ok data) (v : Option Picture) :
    (RegionPayload.ofRect f.frame.bounds true data).show c v = some f.frame.picture := by
  have hdecode := decodeRegion_of_encodeRegion hc hf.wellFormed (Rect.liesIn_bounds _ _) hf.nonempty hd
  exact show_keyframe_of_decode (p := .ofRect f.frame.bounds true data) hdecode rfl

/-- The payload of a delta turns the picture of the capture before into that of its own. -/
theorem show_delta (hc : c.IsLossless) {s : Shipment} {region : Rect} {g : CapturedFrame}
    (h : Redraws s region l v f g) (hf : f.IsSound) (hg : g.IsSound) {q : UInt8} {data : ByteArray}
    (hd : s.frame.encodeRegion c region q = .ok data) :
    (RegionPayload.ofRect region false data).show c v = some f.frame.picture := by
  rw [← h.frame_eq] at hd
  have hdecode := decodeRegion_of_encodeRegion hc hf.wellFormed h.liesIn h.nonempty hd
  have hlies : region.LiesIn g.frame.picture.width g.frame.picture.height := by
    obtain ⟨hw, hh, -⟩ := h.alike
    show region.LiesIn g.frame.width g.frame.height
    rw [← hw, ← hh]
    exact h.liesIn
  rw [h.view_eq, show_delta_of_decode (p := .ofRect region false data) hdecode rfl hlies]
  exact congrArg some (paint_colours hf.wellFormed hg.wellFormed h.alike h.covers)

theorem agrees_sentKeyframe {s : Shipment} {data : ByteArray} (hc : c.IsLossless) (hi : m.InOrder c)
    (hp : m.phase = .sendingKeyframe s data) (hh : IsHonest l) (ha : Agrees m.phase m.memory l v) :
    Agrees .ready (m.sendKeyframe s data).1.memory l ((RegionPayload.ofRect s.frame.bounds true data).show c v) := by
  have hdata := hi.keyframe_data hp
  rw [hp] at ha
  obtain ⟨hgpu, e, x, hhead, hframe, hname⟩ := ha
  rw [← hframe] at hdata ⊢
  rw [show_keyframe hc (hh.isSound hhead) hdata]
  refine ⟨hgpu, ?_, ?_⟩
  · rw [hhead]
    rfl
  · intro base hbase
    cases hbase
    exact ⟨e, x, hhead, by rw [hframe, hname]⟩

theorem agrees_sentDelta {s : Shipment} {region : Rect} {data : ByteArray} (hc : c.IsLossless) (hi : m.InOrder c)
    (hp : m.phase = .sendingDelta s region data) (hh : IsHonest l) (ha : Agrees m.phase m.memory l v) :
    Agrees .ready (m.sendDelta s region data).1.memory l ((RegionPayload.ofRect region false data).show c v) := by
  obtain ⟨q, hdata⟩ := hi.delta_data hp
  rw [hp] at ha
  obtain ⟨hgpu, x, g, hredraws⟩ := ha
  obtain ⟨e, rest, rfl⟩ := hredraws.captures
  rw [show_delta hc hredraws hh.1 hh.2.2.1 hdata]
  refine ⟨hgpu, rfl, ?_⟩
  intro base hbase
  cases hbase
  exact ⟨s.display, x, rfl, by rw [hredraws.frame_eq]⟩

theorem encodes_keyframe {s : Shipment} {reason : KeyframeReason} (hc : c.IsLossless)
    (hp : m.phase = .encodingKeyframe s reason) (hh : IsHonest l) (ha : Agrees m.phase m.memory l v) (q : UInt8)
    (fault : StreamError) : s.frame.encodeRegion c s.frame.bounds q ≠ .error fault := by
  rw [hp] at ha
  obtain ⟨-, e, x, hhead, hframe, -⟩ := ha
  have hx := hh.isSound hhead
  obtain ⟨data, hdata, -⟩ := Frame.encodeRegion_lossless hc hx.wellFormed (Rect.liesIn_bounds _ _) hx.nonempty q
  intro hfault
  rw [← hframe] at hfault
  cases hdata.symm.trans hfault

theorem encodes_delta {s : Shipment} {region : Rect} (hc : c.IsLossless) (hp : m.phase = .encodingDelta s region)
    (hh : IsHonest l) (ha : Agrees m.phase m.memory l v) (q : UInt8) (fault : StreamError) :
    s.frame.encodeRegion c region q ≠ .error fault := by
  rw [hp] at ha
  obtain ⟨-, x, g, hredraws⟩ := ha
  obtain ⟨e, rest, rfl⟩ := hredraws.captures
  obtain ⟨data, hdata, -⟩ := Frame.encodeRegion_lossless hc hh.1.wellFormed hredraws.liesIn hredraws.nonempty q
  intro hfault
  rw [← hredraws.frame_eq] at hfault
  cases hdata.symm.trans hfault

end Transitions

namespace Run

variable {c : Compressor}

/-- An event that is neither a capture nor a payload does not count. -/
theorem agrees_append {p : Phase} {m : Memory} {e : Option Event} {t : List Event}
    (hcapture : e.bind Event.capture? = none) (hpayload : e.bind Event.payload? = none)
    (h : Agrees p m (captures t) (view c t)) :
    Agrees p m (captures (e.toList ++ t)) (view c (e.toList ++ t)) := by
  rw [captures_append hcapture, view_append hpayload]
  exact h

theorem agrees_sent {p : Phase} {m : Memory} {payload : RegionPayload} {t : List Event}
    (h : Agrees p m (captures t) (payload.show c (view c t))) :
    Agrees p m (captures (.sent payload :: t)) (view c (.sent payload :: t)) := by
  rw [captures_cons, view_sent]
  exact h

theorem keepsPicture_passage (hc : c.IsLossless) (r : Run) (e : Option Event) (after : Machine)
    (hi : r.machine.InOrder c) (hp : Passage c False r.machine e after) (hr : r.KeepsPicture c) :
    KeepsPicture c ⟨after, e.toList ++ r.trace⟩ := by
  intro hall
  -- The source is only trusted for the captures up to the end, so for those before this move too.
  have hh : IsHonest (captures r.trace) := isHonest_before hall
  have ha := hr hh
  cases hp with
  | aside phase memory =>
    rw [phase, memory]
    exact ha
  | requested => exact agrees_append (e := some .requested) rfl rfl ha
  | quiet before isOpen memory _ _ _ isQuiet =>
    obtain ⟨hcapture, hpayload, -⟩ := Event.bind_of_isQuiet isQuiet
    refine agrees_append hcapture hpayload ?_
    rw [agrees_of_isOpen before] at ha
    rw [agrees_of_isOpen isOpen, memory]
    exact ha
  | captured phase =>
    rw [view_append rfl]
    exact agrees_captured phase ha
  | failed phase => exact agrees_append (e := some _) rfl rfl (agrees_failed phase ha _)
  | resend phase _ baseline => exact agrees_resend phase baseline ha _
  | keyframe phase _ => exact agrees_keyframe phase ha _
  | delta phase choice => exact agrees_delta hi.isMarked phase hh ha choice
  | unchanged phase choice => exact agrees_unchanged hi.isMarked phase hh ha choice
  | lowered phase | encodedKeyframe phase | encodedDelta phase =>
    rw [phase] at ha
    exact ha
  -- A refusal would lose the frame in hand, but a lossless coder refuses nothing.
  | refusedKeyframe phase cause =>
    obtain ⟨fault, hfault⟩ := cause.resolve_left id
    exact absurd hfault (encodes_keyframe hc phase hh ha _ fault)
  | refusedDelta phase cause =>
    obtain ⟨fault, hfault⟩ := cause.resolve_left id
    exact absurd hfault (encodes_delta hc phase hh ha _ fault)
  | sentKeyframe phase =>
    rw [hi.taken (by rw [phase]; rfl)]
    exact agrees_sent (agrees_sentKeyframe hc hi phase hh ha)
  | sentDelta phase =>
    rw [hi.taken (by rw [phase]; rfl)]
    exact agrees_sent (agrees_sentDelta hc hi phase hh ha)
  | raised phase isOpen _ memory =>
    refine agrees_append (e := some .raised) rfl rfl ?_
    rw [phase] at ha
    rw [agrees_of_isOpen isOpen, memory]
    exact ha

theorem start_keepsPicture {s : PipelineSettings} {attached : List Display} {m : Machine}
    (h : Machine.new s attached = .ok m) (registry : Registry) : (start m registry).KeepsPicture c := by
  obtain ⟨-, hphase, hmemory, -⟩ := start_ok h registry
  intro _
  rw [hphase, hmemory]
  exact ⟨rfl, rfl, fun b hb => nomatch hb⟩

end Run

variable {c : Compressor} {s : PipelineSettings} {attached : List Display} {m : Machine}

/-- Whatever is captured, requested and selected: once no frame is in hand, as at the end of every pass,
the viewer has the picture of the latest capture. -/
theorem view_eq_screen (h : Machine.new s attached = .ok m) (hc : c.IsLossless) (registry : Registry)
    (moves : List Move) (hfail : .fail ∉ moves)
    (hh : IsHonest (captures ((Run.start m registry).play c moves).trace))
    (ho : ((Run.start m registry).play c moves).machine.phase.isOpen = true) :
    view c ((Run.start m registry).play c moves).trace = screen ((Run.start m registry).play c moves).trace := by
  have hkeeps : ((Run.start m registry).play c moves).KeepsPicture c :=
    Run.play_induction (Run.keepsPicture_passage hc) (Run.start_inOrder h registry)
      (Run.start_keepsPicture h registry) (fun hmem => hfail hmem)
  exact ((agrees_of_isOpen ho).mp (hkeeps hh)).2.1

/-- A frame goes out whole; of the next one, the areas that it came with. -/
def twoFrameMoves : List Move :=
  Move.pass (.captured (.tracked (.filled 2 1 .rgb 7) [])) 4 ++ [.receive] ++
    Move.pass (.captured (.tracked (.filled 2 1 .rgb 9) [⟨0, 0, 2, 1⟩])) 3

/-- A keyframe and a delta go out, and the viewer has the second frame. -/
theorem view_eq_screen_two_frames :
    let r := (Run.start .small .small).play .zstd twoFrameMoves
    Machine.new .lossless [.small] = .ok .small ∧ Compressor.zstd.IsLossless ∧ .fail ∉ twoFrameMoves ∧
      IsHonest (captures r.trace) ∧ r.machine.phase.isOpen = true ∧ view .zstd r.trace = screen r.trace ∧
      (payloads r.trace).map (fun p => p.isKeyframe) = [false, true] ∧
      view .zstd r.trace = some (Frame.filled 2 1 .rgb 9).picture := by
  have hfail : .fail ∉ twoFrameMoves := by simp [twoFrameMoves, Move.pass, List.replicate]
  have hsound (byte : UInt8) (rects : List Rect) (hr : ∀ r ∈ rects, r.Fits) :
      (CapturedFrame.tracked (.filled 2 1 .rgb byte) rects).IsSound := by
    refine ⟨?_, (by decide : (2 : UInt32) ≠ 0), (by decide : (1 : UInt32) ≠ 0), ?_⟩
    · exact ⟨Nat.le_refl 6, Nat.le_refl 6⟩
    · intro _ h
      cases h
      exact hr
  have hhonest : IsHonest (captures ((Run.start .small .small).play .zstd twoFrameMoves).trace) := by
    refine ⟨hsound 9 _ (by decide), ?_, hsound 7 _ (by decide), fun _ _ h => (nomatch h), trivial⟩
    intro e g hg _ _ rects hrects
    cases hg
    cases hrects
    exact ⟨⟨rfl, rfl, rfl⟩, fun x y hxy => ⟨_, List.mem_singleton_self _, Rect.covers_bounds.mpr hxy.1⟩⟩
  have hview := view_eq_screen Machine.new_small isLossless_zstd .small twoFrameMoves hfail hhonest rfl
  exact ⟨Machine.new_small, isLossless_zstd, hfail, hhonest, rfl, hview, rfl, hview.trans rfl⟩

end Screencast
