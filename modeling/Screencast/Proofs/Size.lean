import Screencast.Proofs.Change
import Screencast.Proofs.Trace

/-!
# The frames that deltas are cut from

A comparison notices that a frame took another size, and the frame goes out whole. Areas that came
with a frame are taken as they are. So the bounds that deltas are cut in are those of the last
keyframe until a capture with areas comes, and from then on those of the latest such capture.
-/

namespace Screencast

/-- The keyframe `k` is the last one of the trace, and `since` came after it. -/
def Follows (t : List Event) (k : RegionPayload) (since : List Event) : Prop :=
  k.isKeyframe = true ∧ (∀ p, .sent p ∈ since → p.isKeyframe = false) ∧ ∃ before, t = since ++ .sent k :: before

/-- The bounds of the latest capture that came with areas, or else those of the keyframe. -/
def boundsAfter (k : RegionPayload) (since : List Event) : Rect :=
  (((captures since).find? fun x => x.2.dirtyRects.isSome).map fun x => x.2.frame.bounds).getD k.region

theorem follows_sent {k : RegionPayload} (h : k.isKeyframe = true) (t : List Event) : Follows (.sent k :: t) k [] :=
  ⟨h, fun _ hp => (nomatch hp), t, rfl⟩

theorem Follows.cons {t since : List Event} {k : RegionPayload} (h : Follows t k since) {e : Event}
    (he : ∀ p, e = .sent p → p.isKeyframe = false) : Follows (e :: t) k (e :: since) := by
  obtain ⟨hk, hs, before, rfl⟩ := h
  refine ⟨hk, ?_, before, rfl⟩
  intro p hp
  rcases List.mem_cons.mp hp with heq | hp
  · exact he p heq.symm
  · exact hs p hp

theorem Follows.append {t since : List Event} {k : RegionPayload} (h : Follows t k since) {e : Option Event}
    (he : e.bind Event.payload? = none) : Follows (e.toList ++ t) k (e.toList ++ since) := by
  cases e with
  | none => exact h
  | some x =>
    refine h.cons ?_
    rintro p rfl
    cases he

theorem boundsAfter_congr {since later : List Event} (k : RegionPayload) (h : captures later = captures since) :
    boundsAfter k later = boundsAfter k since := by
  unfold boundsAfter
  rw [h]

theorem boundsAfter_tracked {since : List Event} {d : Display} {f : CapturedFrame} (k : RegionPayload)
    (h : (captures since).head? = some (d, f)) (hd : f.dirtyRects.isSome = true) :
    boundsAfter k since = f.frame.bounds := by
  unfold boundsAfter
  obtain ⟨rest, hr⟩ := List.head?_eq_some_iff.mp h
  have hfind : (captures since).find? (fun x => x.2.dirtyRects.isSome) = some (d, f) := by
    rw [hr]
    exact List.find?_cons_of_pos hd
  rw [hfind]
  rfl

theorem boundsAfter_untracked {d : Display} {f : CapturedFrame} (k : RegionPayload) (since : List Event)
    (hd : f.dirtyRects = none) : boundsAfter k (.answered d (.captured f) :: since) = boundsAfter k since := by
  unfold boundsAfter
  rw [captures_cons]
  show ((((d, f) :: captures since).find? _).map _).getD _ = _
  rw [List.find?_cons_of_neg (by simp [hd])]

namespace Run

/-- The region is cut from the latest capture, whose bounds are those in force since the keyframe. -/
def CutFrom (t : List Event) (s : Shipment) (region : Rect) : Prop :=
  ∃ k since f, Follows t k since ∧ (captures since).head? = some (s.display, f) ∧ f.frame = s.frame ∧
    f.frame.bounds = boundsAfter k since ∧ region.LiesIn f.frame.width f.frame.height

/-- With the flag down the baseline has the bounds in force. A capture is yet to be compared with it. -/
def KeepsBounds (r : Run) : Prop :=
  match r.machine.phase with
  | .lowering _ _ | .encodingKeyframe _ _ | .sendingKeyframe _ _ | .raising _ _ => True
  | .encodingDelta s region | .sendingDelta s region _ => CutFrom r.trace s region
  | .choosing _ d f _ => r.machine.isRequested = false →
    ∃ k since, Follows r.trace k since ∧ (captures since).head? = some (d, f) ∧
      (f.dirtyRects = none → ∀ b, r.machine.memory.baseline = some b → b.frame.bounds = boundsAfter k since)
  | _ => r.machine.isRequested = false →
    ∃ k since, Follows r.trace k since ∧
      ∀ b, r.machine.memory.baseline = some b → b.frame.bounds = boundsAfter k since

/-- A sent delta was cut from the latest capture. -/
def FitsCapture (c : Compressor) (p : RegionPayload) (t : List Event) : Prop :=
  p.isKeyframe = false → ∃ s q, CutFrom t s p.region ∧ s.frame.encodeRegion c p.region q = .ok p.data

theorem CutFrom.append {t : List Event} {s : Shipment} {region : Rect} (h : CutFrom t s region) {e : Option Event}
    (hc : e.bind Event.capture? = none) (he : e.bind Event.payload? = none) : CutFrom (e.toList ++ t) s region := by
  obtain ⟨k, since, f, hf, hh, hs, hb, hl⟩ := h
  have hcap := captures_append hc since
  refine ⟨k, e.toList ++ since, f, hf.append he, ?_, hs, ?_, hl⟩
  · rw [hcap]
    exact hh
  · rw [boundsAfter_congr k hcap]
    exact hb

variable {c : Compressor} {mayFail : Prop} {r : Run}

theorem keepsBounds_of_isOpen (h : r.machine.phase.isOpen = true) : r.KeepsBounds ↔ (r.machine.isRequested = false →
    ∃ k since, Follows r.trace k since ∧
      ∀ b, r.machine.memory.baseline = some b → b.frame.bounds = boundsAfter k since) := by
  unfold KeepsBounds
  cases hp : r.machine.phase <;> first | rfl | (rw [hp] at h; cases h)

theorem keepsBounds_of_flag (h : r.machine.phase.isOpen = true) (hf : r.machine.isRequested = true) :
    r.KeepsBounds := by
  rw [keepsBounds_of_isOpen h]
  intro hn
  rw [hf] at hn
  cases hn

/-- At the choice of anything but a keyframe, the capture has the bounds in force. -/
theorem bounds_at_choice {t : Nat} {d : Display} {f : CapturedFrame} {b : Bool} (hi : r.machine.InOrder c)
    (hp : r.machine.phase = .choosing t d f b) (hr : r.KeepsBounds)
    (hc : ∀ reason, r.machine.choice d f b ≠ .keyframe reason) :
    ∃ k since, Follows r.trace k since ∧ (captures since).head? = some (d, f) ∧
      f.frame.bounds = boundsAfter k since := by
  obtain ⟨hflag, -, -, hchange⟩ := Machine.choice_of_ne_keyframe hc
  obtain ⟨base, hbase, hof⟩ := Machine.baselineOf_of_ne_keyframe hi.isMarked hp hc
  unfold KeepsBounds at hr
  rw [hp] at hr
  obtain ⟨k, since, hf, hh, hb⟩ := hr hflag
  refine ⟨k, since, hf, hh, ?_⟩
  cases hd : f.dirtyRects with
  -- Areas that came with the frame are not checked against the baseline.
  | some rects => exact (boundsAfter_tracked k hh (by rw [hd]; rfl)).symm
  | none =>
    rw [hchange] at hc
    obtain ⟨hw, hh, -⟩ := Memory.change_of_ne_keyframe hc hd hof
    rw [← hb hd base hbase]
    unfold Frame.bounds
    rw [hw, hh]

theorem keepsBounds_requested (hr : r.KeepsBounds) : KeepsBounds ⟨r.machine.requestKeyframe, .requested :: r.trace⟩ := by
  unfold KeepsBounds at hr ⊢
  cases hp : r.machine.phase <;> simp only [Machine.requestKeyframe, hp] at hr ⊢
  case encodingDelta => exact hr.append (e := some .requested) rfl rfl
  case sendingDelta => exact hr.append (e := some .requested) rfl rfl
  -- Everywhere else the flag is up, and nothing is to be kept.
  all_goals intro hf; cases hf

theorem keepsBounds_quiet {after : Machine} {e : Option Event} (before : r.machine.phase.isOpen = true)
    (isOpen : after.phase.isOpen = true) (memory : after.memory = r.machine.memory)
    (flag : after.isRequested = r.machine.isRequested) (isQuiet : e.all Event.isQuiet = true)
    (hr : r.KeepsBounds) : KeepsBounds ⟨after, e.toList ++ r.trace⟩ := by
  rw [keepsBounds_of_isOpen before] at hr
  rw [keepsBounds_of_isOpen isOpen, memory, flag]
  intro hf
  obtain ⟨hc, he, -⟩ := Event.bind_of_isQuiet isQuiet
  obtain ⟨k, since, hfol, hb⟩ := hr hf
  refine ⟨k, e.toList ++ since, hfol.append he, ?_⟩
  rw [boundsAfter_congr k (captures_append hc since)]
  exact hb

/-- A capture with areas sets the bounds in force; one without is yet to be compared. -/
theorem keepsBounds_captured {after : Machine} {t : Nat} {d : Display} {f : CapturedFrame} {b : Bool}
    (before : r.machine.phase.isOpen = true) (phase : after.phase = .choosing t d f b)
    (baseline : after.memory.baseline = r.machine.memory.baseline)
    (flag : after.isRequested = r.machine.isRequested) (hr : r.KeepsBounds) :
    KeepsBounds ⟨after, .answered d (.captured f) :: r.trace⟩ := by
  rw [keepsBounds_of_isOpen before] at hr
  unfold KeepsBounds
  simp only [phase, baseline, flag]
  intro hf
  obtain ⟨k, since, hfol, hb⟩ := hr hf
  refine ⟨k, .answered d (.captured f) :: since, hfol.cons (fun p hp => (by cases hp)), ?_, ?_⟩
  · rw [captures_cons]
    rfl
  · intro hd base hbase
    rw [boundsAfter_untracked k since hd]
    exact hb base hbase

/-- A delta leaves its frame as the baseline, which has the bounds in force. -/
theorem keepsBounds_sentDelta {s : Shipment} {region : Rect} {data : ByteArray} (hr : CutFrom r.trace s region) :
    KeepsBounds ⟨(r.machine.sendDelta s region data).1, .sent (.ofRect region false data) :: r.trace⟩ := by
  obtain ⟨k, since, f, hfol, -, hs, hb, -⟩ := hr
  intro _
  refine ⟨k, .sent (.ofRect region false data) :: since, hfol.cons (fun p hp => by cases hp; rfl), ?_⟩
  intro base hbase
  cases hbase
  rw [boundsAfter_congr k (captures_cons _ since), ← hs]
  exact hb

theorem keepsBounds_passage (r : Run) (e : Option Event) (after : Machine) (hi : r.machine.InOrder c)
    (hp : Passage c mayFail r.machine e after) (hr : r.KeepsBounds) :
    KeepsBounds ⟨after, e.toList ++ r.trace⟩ := by
  cases hp with
  | aside phase memory flag =>
    unfold KeepsBounds at hr ⊢
    rw [phase, memory, flag]
    exact hr
  | requested => exact keepsBounds_requested hr
  | quiet before isOpen memory flag _ _ isQuiet => exact keepsBounds_quiet before isOpen memory flag isQuiet hr
  | captured phase => exact keepsBounds_captured (by rw [phase]; rfl) rfl rfl rfl hr
  | @delta t d f b region phase choice =>
    have hc := Machine.ne_keyframe_of_delta choice
    obtain ⟨k, since, hfol, hh, hb⟩ := bounds_at_choice hi phase hr hc
    obtain ⟨-, -, -, hchange⟩ := Machine.choice_of_ne_keyframe hc
    exact ⟨k, since, f, hfol, hh, rfl, hb, (Memory.change_delta (hchange.symm.trans choice)).2⟩
  | unchanged phase choice =>
    have hc := Machine.ne_keyframe_of_unchanged choice
    obtain ⟨k, since, hfol, hh, hb⟩ := bounds_at_choice hi phase hr hc
    intro _
    refine ⟨k, since, hfol, ?_⟩
    intro base hbase
    cases hbase
    exact hb
  | encodedDelta phase =>
    unfold KeepsBounds at hr
    rw [phase] at hr
    exact hr
  | @sentKeyframe s data phase =>
    rw [hi.taken (by rw [phase]; rfl)]
    intro _
    refine ⟨_, [], follows_sent rfl r.trace, ?_⟩
    intro base hbase
    cases hbase
    rfl
  | @sentDelta s region data phase =>
    unfold KeepsBounds at hr
    rw [phase] at hr
    rw [hi.taken (by rw [phase]; rfl)]
    exact keepsBounds_sentDelta hr
  | raised _ isOpen _ _ flag => exact keepsBounds_of_flag isOpen flag
  | _ => exact trivial

/-- What is known of every payload as it goes out. -/
theorem fitsCapture_passage (r : Run) (e : Option Event) (after : Machine) (hi : r.machine.InOrder c)
    (hp : Passage c mayFail r.machine e after) (hb : r.KeepsBounds) (hr : EverySent (FitsCapture c) r.trace) :
    EverySent (FitsCapture c) (e.toList ++ r.trace) := by
  cases hp with
  | sentKeyframe phase =>
    rw [hi.taken (by rw [phase]; rfl)]
    refine hr.cons ?_
    rintro p hp hk
    cases hp
    cases hk
  | @sentDelta s region data phase =>
    obtain ⟨q, hdata⟩ := hi.delta_data phase
    unfold KeepsBounds at hb
    rw [phase] at hb
    rw [hi.taken (by rw [phase]; rfl)]
    refine hr.cons ?_
    rintro p hp -
    cases hp
    exact ⟨s, q, hb, hdata⟩
  | quiet _ _ _ _ _ _ isQuiet => exact hr.append (Event.bind_of_isQuiet isQuiet).2.1
  | _ => exact hr.append rfl

theorem start_keepsBounds {s : PipelineSettings} {attached : List Display} {m : Machine}
    (h : Machine.new s attached = .ok m) (registry : Registry) : (start m registry).KeepsBounds := by
  obtain ⟨-, hphase, -, hflag⟩ := start_ok h registry
  exact keepsBounds_of_flag (by rw [hphase]; rfl) hflag

end Run

variable {c : Compressor} {s : PipelineSettings} {attached : List Display} {m : Machine}

/-- A keyframe precedes every delta, and the delta is a region of the latest capture, which came after
that keyframe. The capture has the bounds of the keyframe exactly if the latest capture since then
that came with areas, if there is one, has them. -/
theorem delta_bounds (h : Machine.new s attached = .ok m) (registry : Registry) (moves : List Move)
    (later : List Event) {earlier : List Event} {p : RegionPayload}
    (ht : ((Run.start m registry).play c moves).trace = later ++ .sent p :: earlier) (hk : p.isKeyframe = false) :
    ∃ since k before d f q, earlier = since ++ .sent k :: before ∧ k.isKeyframe = true ∧
      (∀ x, .sent x ∈ since → x.isKeyframe = false) ∧ (captures since).head? = some (d, f) ∧
      f.frame.encodeRegion c p.region q = .ok p.data ∧ p.region.LiesIn f.frame.width f.frame.height ∧
      (f.frame.bounds = k.region ↔
        ∀ x, (captures since).find? (fun x => x.2.dirtyRects.isSome) = some x → x.2.frame.bounds = k.region) := by
  have hkeeps : ((Run.start m registry).play c moves).KeepsBounds ∧
      EverySent (Run.FitsCapture c) ((Run.start m registry).play c moves).trace :=
    Run.play_induction (P := fun r => r.KeepsBounds ∧ EverySent (Run.FitsCapture c) r.trace)
      (fun r e after hi hp hr =>
        ⟨Run.keepsBounds_passage r e after hi hp hr.1, Run.fitsCapture_passage r e after hi hp hr.1 hr.2⟩)
      (Run.start_inOrder h registry) ⟨Run.start_keepsBounds h registry, everySent_nil⟩ (fun _ => trivial)
  obtain ⟨shipment, q, ⟨k, since, f, ⟨hkey, hsince, before, rfl⟩, hhead, hframe, hbounds, hl⟩, hdata⟩ :=
    hkeeps.2 _ _ _ ht hk
  refine ⟨since, k, before, _, f, q, rfl, hkey, hsince, hhead, ?_, hl, ?_⟩
  · rw [hframe]
    exact hdata
  · rw [hbounds]
    unfold boundsAfter
    cases (captures since).find? fun x => x.2.dirtyRects.isSome with
    | none => exact iff_of_true rfl fun x hx => nomatch hx
    | some x =>
      constructor
      · intro hb y hy
        cases hy
        exact hb
      · exact fun hb => hb x rfl

/-- A frame goes out whole. The next one is wider and comes with its areas. -/
def widerFrameMoves : List Move :=
  Move.pass (.captured (.tracked (.filled 1 1 .rgb 7) [])) 4 ++ [.receive] ++
    Move.pass (.captured (.tracked (.filled 2 1 .rgb 9) [⟨0, 0, 2, 1⟩])) 3

theorem delta_bounds_wider :
    let r := (Run.start .small .small).play .plain widerFrameMoves
    let p : RegionPayload := ⟨0, 0, 2, 1, false, ⟨#[9, 9, 9, 9, 9, 9]⟩⟩
    Machine.new .lossless [.small] = .ok .small ∧ r.trace = [] ++ .sent p :: r.trace.tail ∧ p.isKeyframe = false ∧
      ∃ since k before d f q, r.trace.tail = since ++ .sent k :: before ∧ k.isKeyframe = true ∧
        (∀ x, .sent x ∈ since → x.isKeyframe = false) ∧ (captures since).head? = some (d, f) ∧
        f.frame.encodeRegion .plain p.region q = .ok p.data ∧ p.region.LiesIn f.frame.width f.frame.height ∧
        (f.frame.bounds = k.region ↔
          ∀ x, (captures since).find? (fun x => x.2.dirtyRects.isSome) = some x → x.2.frame.bounds = k.region) :=
  ⟨Machine.new_small, rfl, rfl, delta_bounds Machine.new_small .small widerFrameMoves [] rfl rfl⟩

/-- The delta is wider than the keyframe it is to be drawn on. -/
theorem delta_exceeds_keyframe :
    let r := (Run.start .small .small).play .plain widerFrameMoves
    let p : RegionPayload := ⟨0, 0, 2, 1, false, ⟨#[9, 9, 9, 9, 9, 9]⟩⟩
    let k : RegionPayload := ⟨0, 0, 1, 1, true, ⟨#[7, 7, 7]⟩⟩
    Machine.new .lossless [.small] = .ok .small ∧
      (∃ since before, r.trace = .sent p :: (since ++ .sent k :: before) ∧ payloads since = []) ∧
      ¬p.region.LiesIn k.width k.height := by
  refine ⟨Machine.new_small, ⟨[_, _], _, rfl, rfl⟩, ?_⟩
  exact fun h => absurd h.1 (by decide)

end Screencast
