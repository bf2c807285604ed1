import Screencast.Proofs.Payment
import Screencast.Proofs.Request

/-!
# Refreshing the picture after a drop in quality

A delta that goes out at reduced quality notes that a refresh is due, if quality fell after the last
keyframe. The note stays until a keyframe goes out. With throughput low, a pass that captures something
then sends it whole, but a pass in which nothing changed looks at the request flag only: on a screen
that has gone still no refresh goes out.
-/

namespace Screencast

def Move.isTick : Move → Bool
  | .tick => true
  | _ => false

/-- A metrics pass comes only while no frame is in hand. -/
def Run.ticksApart (c : Compressor) : Run → List Move → Bool
  | _, [] => true
  | r, mv :: rest => (!mv.isTick || r.machine.phase.isOpen) && ticksApart c (r.next c mv) rest

/-! ### Noting a refresh -/

theorem Memory.keyframeReason_of_due {m : Memory} {c : Controller} {ratio : Float}
    (h : m.isRefreshDue c ratio = true) (isRequested : Bool) (d : Display) (b : Bool) :
    ∃ reason, m.keyframeReason c ratio isRequested d b = some reason := by
  unfold keyframeReason
  simp only [h, if_true]
  repeat' split
  all_goals exact ⟨_, rfl⟩

namespace Machine

variable {c : Compressor} {m after : Machine} {e : Option Event}

theorem memoryAtChoice_of_delta {d : Display} {f : CapturedFrame} {b : Bool} {region : Rect}
    (h : m.choice d f b = .delta region) : m.memoryAtChoice d b = m.memory.track m.controller := by
  unfold choice at h
  unfold memoryAtChoice
  split at h
  · cases h
  · rfl

theorem choice_of_due {d : Display} (f : CapturedFrame) (b : Bool)
    (h : m.memory.isRefreshDue m.controller m.settings.qualityRefreshRatio = true) :
    ∃ reason, m.choice d f b = .keyframe reason := by
  obtain ⟨reason, hreason⟩ := Memory.keyframeReason_of_due h m.isRequested d b
  exact ⟨reason, by rw [choice, hreason]⟩

/-- Whoever compresses a delta at reduced quality has noted a drop that came after the last keyframe. -/
def IsArmed (m : Machine) : Prop :=
  match m.phase with
  | .encodingDelta _ _ => m.controller.isQualityReduced = true →
    m.memory.reductionsAtKeyframe < m.controller.reductions → m.memory.needsRefresh = true
  | _ => True

theorem isArmed_of_isOpen (h : m.phase.isOpen = true) : m.IsArmed := by
  unfold IsArmed
  cases hp : m.phase with
  | encodingDelta s region =>
    rw [hp] at h
    cases h
  | _ => trivial

theorem isArmed_move {mv : Move} (h : m.move c mv = some (after, e)) (hp : Passage c True m e after)
    (htick : mv = .tick → m.phase.isOpen = true) (hm : m.IsArmed) : after.IsArmed := by
  cases hp with
  | aside phase memory =>
    by_cases hmv : mv = .tick
    · refine isArmed_of_isOpen ?_
      rw [phase]
      exact htick hmv
    · obtain ⟨hquality, hreductions⟩ := quality_of_ne_tick h hmv
      have hsettings := settings_of_move h
      unfold IsArmed Controller.isQualityReduced at hm ⊢
      rw [phase, memory, hquality, hreductions, hsettings]
      exact hm
  | requested => exact hm
  | quiet _ isOpen => exact isArmed_of_isOpen isOpen
  | raised _ isOpen => exact isArmed_of_isOpen isOpen
  | delta _ choice =>
    intro hreduced hlt
    dsimp only at hlt ⊢
    rw [memoryAtChoice_of_delta choice] at hlt ⊢
    have hcount : m.memory.reductionsAtKeyframe < m.controller.reductions := hlt
    have hquality : m.controller.isQualityReduced = true := hreduced
    simp [Memory.track, hcount, hquality]
  | _ => exact trivial

end Machine

namespace Run

variable {c : Compressor} {mayFail : Prop}

theorem isArmed_play {moves : List Move} {r : Run} (hr : r.machine.IsArmed)
    (hapart : r.ticksApart c moves = true) : (r.play c moves).machine.IsArmed := by
  induction moves generalizing r with
  | nil => exact hr
  | cons mv rest ih =>
    obtain ⟨hfirst, hrest⟩ := Bool.and_eq_true_iff.mp hapart
    refine ih ?_ hrest
    unfold next
    split
    · rename_i after e hm
      refine Machine.isArmed_move hm (Machine.passage_move (fun _ => trivial) hm) (fun htick => ?_) hr
      subst htick
      exact (Bool.or_eq_true_iff.mp hfirst).resolve_left Bool.false_ne_true
    · exact hr

/-! ### What is noted until a keyframe goes out -/

/-- A keyframe goes out, or the note stays and so does the count of drops that it is compared with. -/
theorem note_passage {r : Run} {e : Option Event} {after : Machine} (hi : r.machine.InOrder c)
    (hp : Passage c mayFail r.machine e after) :
    (keyframes (e.toList ++ r.trace) = keyframes r.trace + 1 ∧
        after.memory.reductionsAtKeyframe = r.machine.controller.reductions) ∨
      (keyframes (e.toList ++ r.trace) = keyframes r.trace ∧
        after.memory.reductionsAtKeyframe = r.machine.memory.reductionsAtKeyframe ∧
        (r.machine.memory.needsRefresh = true → after.memory.needsRefresh = true)) := by
  have of_choice (d : Display) (b : Bool) (h : r.machine.memory.needsRefresh = true) :
      (r.machine.memoryAtChoice d b).needsRefresh = true := by
    unfold Machine.memoryAtChoice
    split
    · exact h
    · simp [Memory.track, h]
  cases hp with
  | aside _ memory => exact .inr ⟨rfl, by rw [memory], fun h => by rw [memory]; exact h⟩
  | quiet _ _ memory _ _ _ isQuiet =>
    have hpayload := (Event.bind_of_isQuiet isQuiet).2.1
    exact .inr ⟨keyframes_append hpayload, by rw [memory], fun h => by rw [memory]; exact h⟩
  | raised _ _ _ memory =>
    exact .inr ⟨keyframes_append rfl, by rw [memory], fun h => by rw [memory]; exact h⟩
  | keyframe | delta | unchanged =>
    exact .inr ⟨rfl, Machine.memoryAtChoice_reductionsAt _ _ _, of_choice _ _⟩
  | @sentKeyframe s data phase =>
    rw [hi.taken (by rw [phase]; rfl)]
    refine .inl ⟨keyframes_sent _ _, ?_⟩
    simp only [Machine.sendKeyframe, Memory.noteKeyframe]
    split <;> rfl
  | sentDelta phase =>
    rw [hi.taken (by rw [phase]; rfl)]
    exact .inr ⟨keyframes_sent _ _, rfl, id⟩
  | _ => exact .inr ⟨keyframes_append rfl, rfl, id⟩

/-- Since `base` a keyframe went out, or what was noted then is noted still. -/
structure KeepsNote (base r : Run) : Prop where
  grown : keyframes base.trace ≤ keyframes r.trace
  kept : keyframes r.trace = keyframes base.trace →
    r.machine.memory.reductionsAtKeyframe = base.machine.memory.reductionsAtKeyframe ∧
      (base.machine.memory.needsRefresh = true → r.machine.memory.needsRefresh = true)

theorem keepsNote_play {r : Run} (hi : r.machine.InOrder c) (moves : List Move) : KeepsNote r (r.play c moves) := by
  refine play_induction (fun r' e after hi (hp : Passage c True r'.machine e after) hr => ?_) hi
    ⟨Nat.le_refl _, fun _ => ⟨rfl, id⟩⟩ fun _ => trivial
  have hgrown := hr.grown
  rcases note_passage hi hp with ⟨hkey, -⟩ | ⟨hkey, hcount, hnote⟩
  · refine ⟨?_, fun heq => ?_⟩
    · dsimp only
      omega
    · dsimp only at heq
      omega
  · refine ⟨?_, fun heq => ?_⟩
    · dsimp only
      omega
    · -- No keyframe now, so none before this move either.
      obtain ⟨hat, hneeds⟩ := hr.kept (hkey.symm.trans heq)
      exact ⟨hcount.trans hat, fun h => hnote (hneeds h)⟩

theorem reductionsAt_play {r : Run} (hi : r.machine.InOrder c)
    (h : r.machine.memory.reductionsAtKeyframe ≤ r.machine.controller.reductions) (moves : List Move) :
    (r.play c moves).machine.memory.reductionsAtKeyframe ≤ (r.play c moves).machine.controller.reductions := by
  refine (play_keeps (P := fun r => r.machine.InOrder c ∧
    r.machine.memory.reductionsAtKeyframe ≤ r.machine.controller.reductions) (fun r' mv _ hr => ?_) ⟨hi, h⟩).2
  obtain ⟨hi, hle⟩ := hr
  refine ⟨next_inOrder hi mv, ?_⟩
  unfold next
  split
  · rename_i after e hm
    have hp : Passage c True r'.machine e after := Machine.passage_move (fun _ => trivial) hm
    have hred := Machine.reductions_move hm
    rcases note_passage hi hp with ⟨-, hcount⟩ | ⟨-, hcount, -⟩
    · dsimp only
      omega
    · dsimp only
      omega
  · exact hle

/-! ### The end of a pass -/

/-- The pass is over, and these payloads went out up to its end. -/
structure IsOver (sent : List RegionPayload) (r : Run) : Prop where
  isOpen : r.machine.phase.isOpen = true
  display : r.machine.phase.display? = none
  payloads_eq : payloads r.trace = sent

structure ShowsWhole (c : Compressor) (q : UInt8) (f : Frame) (p : RegionPayload) : Prop where
  isKeyframe : p.isKeyframe = true
  region : p.region = f.bounds
  data : f.encodeRegion c f.bounds q = .ok p.data

/-- The frame is on its way out whole, after these payloads, or it went out and the pass is over. -/
def Sends (c : Compressor) (s : PipelineSettings) (f : Frame) (sent : List RegionPayload) (r : Run) : Prop :=
  r.machine.settings = s ∧
    ((r.machine.phase.whole? = some f ∧ payloads r.trace = sent) ∨
      ∃ p, ShowsWhole c s.keyframeQuality f p ∧ r.IsOver (p :: sent))

/-- After the end of a pass nothing goes out before the next capture begins. -/
theorem isOver_passage {sent : List RegionPayload} {r : Run} {e : Option Event} {after : Machine}
    (hd : r.machine.KeepsDisplay after e) (hp : Passage c mayFail r.machine e after) (h : r.IsOver sent) :
    (∃ d, e = some (.acquired d)) ∨ IsOver sent ⟨after, e.toList ++ r.trace⟩ := by
  have hopen := h.isOpen
  have hdisplay := h.display
  cases hp with
  | aside phase =>
    have hafter : after.phase.isOpen = true := (congrArg Phase.isOpen phase).trans hopen
    exact .inr ⟨hafter, (congrArg Phase.display? phase).trans hdisplay, h.payloads_eq⟩
  | requested => exact .inr ⟨hopen, hdisplay, (payloads_append (e := some .requested) rfl _).trans h.payloads_eq⟩
  | quiet _ isOpen _ _ _ _ isQuiet =>
    rcases hd with ⟨d, he, -⟩ | ⟨-, hnone | hsame⟩
    · exact .inl ⟨d, he⟩
    · exact .inr ⟨isOpen, hnone, (payloads_append (Event.bind_of_isQuiet isQuiet).2.1 _).trans h.payloads_eq⟩
    · exact .inr ⟨isOpen, hsame.trans hdisplay,
        (payloads_append (Event.bind_of_isQuiet isQuiet).2.1 _).trans h.payloads_eq⟩
  | captured phase | failed phase | resend phase =>
    rw [phase] at hdisplay
    cases hdisplay
  | keyframe phase | delta phase | unchanged phase | lowered phase | encodedKeyframe phase | refusedKeyframe phase
  | sentKeyframe phase | encodedDelta phase | refusedDelta phase | sentDelta phase | raised phase =>
    rw [phase] at hopen
    cases hopen

theorem sends_passage {s : PipelineSettings} {f : Frame} {sent : List RegionPayload} {r : Run} {e : Option Event}
    {after : Machine} (hi : r.machine.InOrder c) (hd : r.machine.KeepsDisplay after e)
    (hp : Passage c mayFail r.machine e after) (h : r.Sends c s f sent) :
    (∃ d, e = some (.acquired d)) ∨ (∃ k, e = some (.refused k)) ∨
      Sends c s f sent ⟨after, e.toList ++ r.trace⟩ := by
  obtain ⟨hsettings, ⟨hwhole, hpayloads⟩ | ⟨p, hshows, hover⟩⟩ := h
  · have hkept := hp.settings_eq.trans hsettings
    cases hp with
    | aside phase =>
      have hphase : after.phase.whole? = some f := (congrArg Phase.whole? phase).trans hwhole
      exact .inr (.inr ⟨hkept, .inl ⟨hphase, hpayloads⟩⟩)
    | requested =>
      exact .inr (.inr ⟨hkept, .inl ⟨hwhole, (payloads_append (e := some .requested) rfl _).trans hpayloads⟩⟩)
    | quiet before =>
      rw [Phase.whole?_of_isOpen before] at hwhole
      cases hwhole
    | lowered phase | encodedKeyframe phase =>
      rw [phase] at hwhole
      exact .inr (.inr ⟨hkept, .inl ⟨hwhole, hpayloads⟩⟩)
    | refusedKeyframe => exact .inr (.inl ⟨true, rfl⟩)
    | @sentKeyframe shipment data phase =>
      have hdata := hi.keyframe_data phase
      rw [hsettings] at hdata
      rw [phase] at hwhole
      cases hwhole
      rw [hi.taken (by rw [phase]; rfl)]
      have hshows : ShowsWhole c s.keyframeQuality shipment.frame (.ofRect shipment.frame.bounds true data) :=
        ⟨rfl, rfl, hdata⟩
      refine .inr (.inr ⟨hkept, .inr ⟨_, hshows, rfl, rfl, ?_⟩⟩)
      rw [← hpayloads]
      exact payloads_cons _ _
    | captured phase | failed phase | resend phase | keyframe phase | delta phase | unchanged phase
    | encodedDelta phase | refusedDelta phase | sentDelta phase | raised phase =>
      rw [phase] at hwhole
      cases hwhole
  · rcases isOver_passage hd hp hover with hacquired | hafter
    · exact .inl hacquired
    · exact .inr (.inr ⟨hp.settings_eq.trans hsettings, .inr ⟨p, hshows, hafter⟩⟩)

/-- `P` holds, unless the next capture has begun or a compression failed. -/
structure OnPass (c : Compressor) (n : Nat) (P : Run → Prop) (r : Run) : Prop where
  inOrder : r.machine.InOrder c
  begun : n ≤ (acquisitions r.trace).length
  holds : n < (acquisitions r.trace).length ∨ (∃ k, .refused k ∈ r.trace) ∨ P r

section Pass

variable {P : Run → Prop}
  (step : ∀ (r : Run) (e : Option Event) (after : Machine), r.machine.InOrder c → r.machine.KeepsDisplay after e →
    Passage c True r.machine e after → P r →
    (∃ d, e = some (.acquired d)) ∨ (∃ k, e = some (.refused k)) ∨ P ⟨after, e.toList ++ r.trace⟩)

include step

theorem onPass_next {n : Nat} {r : Run} (h : r.OnPass c n P) (mv : Move) : (r.next c mv).OnPass c n P := by
  refine ⟨next_inOrder h.inOrder mv, ?_, ?_⟩ <;> unfold next <;> split
  · have hbegun := h.begun
    rw [length_acquisitions_append]
    omega
  · exact h.begun
  · rename_i after e hm
    have hbegun := h.begun
    have hlength := length_acquisitions_append e r.trace
    rcases h.holds with hlater | ⟨k, hk⟩ | hP
    · refine .inl ?_
      dsimp only
      omega
    · exact .inr (.inl ⟨k, List.mem_append_right _ hk⟩)
    · have hp : Passage c True r.machine e after := Machine.passage_move (fun _ => trivial) hm
      rcases step r e after h.inOrder (Machine.keepsDisplay_move hm) hp hP with ⟨d, rfl⟩ | ⟨k, rfl⟩ | hafter
      · exact .inl (Nat.lt_succ_of_le hbegun)
      · exact .inr (.inl ⟨k, List.mem_cons_self⟩)
      · exact .inr (.inr hafter)
  · exact h.holds

/-- What every move of a pass keeps holds up to the next capture, if no compression fails. -/
theorem play_pass {r : Run} (hi : r.machine.InOrder c) (h : P r) {moves : List Move}
    (hpass : acquisitions (r.play c moves).trace = acquisitions r.trace)
    (hfail : ∀ k, .refused k ∉ (r.play c moves).trace) : P (r.play c moves) := by
  have hkept : (r.play c moves).OnPass c (acquisitions r.trace).length P :=
    play_keeps (P := OnPass c (acquisitions r.trace).length P) (fun _ mv _ hr => onPass_next step hr mv)
      ⟨hi, Nat.le_refl _, .inr (.inr h)⟩
  rcases hkept.holds with hlater | ⟨k, hk⟩ | hP
  · rw [hpass] at hlater
    exact absurd hlater (Nat.lt_irrefl _)
  · exact absurd hk (hfail k)
  · exact hP

end Pass

theorem sent_whole {s : PipelineSettings} {f : Frame} {sent : List RegionPayload} {r : Run} (hi : r.machine.InOrder c)
    (h : r.Sends c s f sent) {moves : List Move} (hover : (r.play c moves).machine.phase.isOpen = true)
    (hpass : acquisitions (r.play c moves).trace = acquisitions r.trace)
    (hfail : ∀ k, .refused k ∉ (r.play c moves).trace) :
    ∃ p, ShowsWhole c s.keyframeQuality f p ∧ payloads (r.play c moves).trace = p :: sent := by
  have hsends : (r.play c moves).Sends c s f sent :=
    play_pass (fun _ _ _ hi hd hp h => sends_passage hi hd hp h) hi h hpass hfail
  rcases hsends.2 with ⟨hwhole, -⟩ | ⟨p, hshows, hdone⟩
  · rw [Phase.whole?_of_isOpen hover] at hwhole
    cases hwhole
  · exact ⟨p, hshows, hdone.payloads_eq⟩

theorem sent_nothing {sent : List RegionPayload} {r : Run} (hi : r.machine.InOrder c) (h : r.IsOver sent)
    {moves : List Move} (hpass : acquisitions (r.play c moves).trace = acquisitions r.trace)
    (hfail : ∀ k, .refused k ∉ (r.play c moves).trace) : payloads (r.play c moves).trace = sent := by
  have hover : (r.play c moves).IsOver sent :=
    play_pass (fun _ _ _ _ hd hp h => (isOver_passage hd hp h).imp_right .inr) hi h hpass hfail
  exact hover.payloads_eq

/-! ### Decisions -/

/-- A drop after the last keyframe, and a delta at reduced quality after the drop, leave a note. -/
theorem needsRefresh_of_lowered {s : PipelineSettings} {attached : List Display} {m : Machine}
    (h : Machine.new s attached = .ok m) (registry : Registry) {before between later : List Move}
    (hapart : (start m registry).ticksApart c (before ++ between) = true) :
    let r1 := (start m registry).play c before
    let r2 := r1.play c between
    let r3 := r2.play c later
    r1.machine.controller.reductions < r2.machine.controller.reductions →
    (∃ shipment region, r2.machine.phase = .encodingDelta shipment region) →
    r2.machine.controller.quality < s.bandwidth.defaultQuality →
    keyframes r3.trace = keyframes r1.trace → r3.machine.memory.needsRefresh = true := by
  intro r1 r2 r3 hlowered hdelta hquality hkeyframes
  have hi0 : (start m registry).machine.InOrder c := start_inOrder h registry
  have hstart : (start m registry).machine.phase = .ready := (Machine.new_ok h).2.1
  have hmemory : (start m registry).machine.memory = .empty := (Machine.new_ok h).2.2.1
  have hi1 : r1.machine.InOrder c := inOrder_play hi0 before
  have hcount : r1.machine.memory.reductionsAtKeyframe ≤ r1.machine.controller.reductions :=
    reductionsAt_play hi0 (by rw [hmemory]; exact Nat.zero_le _) before
  have hnote12 : KeepsNote r1 r2 := keepsNote_play hi1 between
  have hnote23 : KeepsNote r2 r3 := keepsNote_play (inOrder_play hi1 between) later
  -- Keyframes are only ever added: no more of them at the end than at the start, so none in either part.
  have hgrown12 := hnote12.grown
  have hgrown23 := hnote23.grown
  have hat : r2.machine.memory.reductionsAtKeyframe = r1.machine.memory.reductionsAtKeyframe :=
    (hnote12.kept (by omega)).1
  have harmed : r2.machine.IsArmed := by
    have hopen : (start m registry).machine.IsArmed := Machine.isArmed_of_isOpen (by rw [hstart]; rfl)
    have hall := isArmed_play hopen hapart
    rwa [play_append] at hall
  have hreduced : r2.machine.controller.isQualityReduced = true := by
    have hbandwidth := settings_controller (c := c) h registry (before ++ between)
    rw [play_append] at hbandwidth
    unfold Controller.isQualityReduced
    rw [show r2.machine.controller.settings = s.bandwidth from hbandwidth]
    simpa using hquality
  obtain ⟨shipment, region, hphase⟩ := hdelta
  unfold Machine.IsArmed at harmed
  rw [hphase] at harmed
  exact (hnote23.kept (by omega)).2 (harmed hreduced (by omega))

theorem next_of_action {r : Run} {after : Machine} (h : Action c r.machine none after) :
    r.next c .act = ⟨after, r.trace⟩ := by
  unfold next
  rw [Machine.move_act_iff.mpr h]
  rfl

theorem sends_of_due {s : PipelineSettings} {r : Run} (hs : r.machine.settings = s) {t : Nat} {d : Display}
    {f : CapturedFrame} {b : Bool} (hp : r.machine.phase = .choosing t d f b)
    (hdue : r.machine.memory.isRefreshDue r.machine.controller r.machine.settings.qualityRefreshRatio = true) :
    (r.next c .act).Sends c s f.frame (payloads r.trace) ∧
      acquisitions (r.next c .act).trace = acquisitions r.trace := by
  obtain ⟨reason, hchoice⟩ := Machine.choice_of_due (d := d) f b hdue
  rw [next_of_action (.keyframe hp hchoice)]
  exact ⟨⟨hs, .inl ⟨rfl, rfl⟩⟩, rfl⟩

/-- In a pass without changes a request is answered with the baseline, and nothing else is looked at. -/
theorem sends_of_idle {s : PipelineSettings} {r : Run} (hs : r.machine.settings = s) {t : Nat} {d : Display}
    {base : Frame} (hp : r.machine.phase = .idle t d) (hbase : r.machine.memory.baselineOf d.name = some base) :
    acquisitions (r.next c .act).trace = acquisitions r.trace ∧
      if r.machine.isRequested then (r.next c .act).Sends c s base (payloads r.trace)
      else (r.next c .act).IsOver (payloads r.trace) := by
  cases hflag : r.machine.isRequested with
  | true =>
    rw [next_of_action (.resend hp hflag hbase)]
    exact ⟨rfl, hs, .inl ⟨rfl, rfl⟩⟩
  | false =>
    rw [next_of_action (.idled hp (.inl hflag))]
    exact ⟨rfl, rfl, rfl, rfl⟩

end Run

variable {c : Compressor} {s : PipelineSettings} {attached : List Display} {m : Machine}

/-- Quality fell after the last keyframe, a delta was compressed below the standard quality since, and throughput
is below the given part of the target. Then a pass that captured something sends it whole at the quality of
keyframes. A pass without changes sends its baseline so if a keyframe was requested, and nothing otherwise. -/
theorem refresh_sent (h : Machine.new s attached = .ok m) (registry : Registry)
    (before between later rest : List Move)
    (hapart : (Run.start m registry).ticksApart c (before ++ between) = true) :
    let r1 := (Run.start m registry).play c before
    let r2 := r1.play c between
    let r3 := r2.play c later
    let r4 := (r3.next c .act).play c rest
    r1.machine.controller.reductions < r2.machine.controller.reductions →
    (∃ shipment region, r2.machine.phase = .encodingDelta shipment region) →
    r2.machine.controller.quality < s.bandwidth.defaultQuality →
    keyframes r3.trace = keyframes r1.trace →
    r3.machine.controller.mbps < s.bandwidth.targetMbps * s.qualityRefreshRatio →
    (∀ k, .refused k ∉ r4.trace) →
    r4.machine.phase.isOpen = true → acquisitions r4.trace = acquisitions r3.trace →
    (∀ t d f b, r3.machine.phase = .choosing t d f b →
      ∃ p, Run.ShowsWhole c s.keyframeQuality f.frame p ∧ payloads r4.trace = p :: payloads r3.trace) ∧
    (∀ t d base, r3.machine.phase = .idle t d → r3.machine.memory.baselineOf d.name = some base →
      if r3.machine.isRequested then
        ∃ p, Run.ShowsWhole c s.keyframeQuality base p ∧ payloads r4.trace = p :: payloads r3.trace
      else payloads r4.trace = payloads r3.trace) := by
  intro r1 r2 r3 r4 hlowered hdelta hquality hkeyframes hmbps hfail hover hpass
  have hi0 : (Run.start m registry).machine.InOrder c := Run.start_inOrder h registry
  have hi3 : r3.machine.InOrder c := Run.inOrder_play (Run.inOrder_play (Run.inOrder_play hi0 before) between) later
  have hsettings : r3.machine.settings = s := by
    have hall := Run.settings_play hi0 (Machine.new_ok h).1 (before ++ between ++ later)
    rwa [Run.play_append, Run.play_append] at hall
  have hneeds : r3.machine.memory.needsRefresh = true :=
    Run.needsRefresh_of_lowered h registry hapart hlowered hdelta hquality hkeyframes
  have hdue : r3.machine.memory.isRefreshDue r3.machine.controller
      r3.machine.settings.qualityRefreshRatio = true := by
    have hbandwidth := Run.settings_controller (c := c) h registry (before ++ between ++ later)
    rw [Run.play_append, Run.play_append] at hbandwidth
    unfold Memory.isRefreshDue
    rw [hneeds, hsettings, show r3.machine.controller.settings = s.bandwidth from hbandwidth]
    simpa using hmbps
  have hinext : (r3.next c .act).machine.InOrder c := Run.next_inOrder hi3 .act
  refine ⟨fun t d f b hp => ?_, fun t d base hp hbase => ?_⟩
  · obtain ⟨hsends, hkept⟩ := Run.sends_of_due (c := c) hsettings hp hdue
    exact Run.sent_whole hinext hsends hover (hpass.trans hkept.symm) hfail
  · obtain ⟨hkept, hidle⟩ := Run.sends_of_idle (c := c) hsettings hp hbase
    split
    · rename_i hflag
      rw [if_pos hflag] at hidle
      exact Run.sent_whole hinext hidle hover (hpass.trans hkept.symm) hfail
    · rename_i hflag
      rw [if_neg hflag] at hidle
      exact Run.sent_nothing hinext hidle (hpass.trans hkept.symm) hfail

/-! ### A screen that moves and one that has gone still -/

/-- A target that any delta exceeds. -/
def PipelineSettings.slow : PipelineSettings :=
  { PipelineSettings.lossless with bandwidth := { BandwidthSettings.standard with targetMbps := 0.000001 } }

def Machine.slow : Machine :=
  ⟨.slow, [.small], .small, .new PipelineSettings.slow.bandwidth, true, .empty, .new, .ready, false, 0⟩

theorem Machine.new_slow : Machine.new .slow [.small] = .ok .slow := rfl

/-- A keyframe and a delta go out. -/
def busyMoves : List Move :=
  Move.pass (.captured (.tracked (.filled 2 1 .rgb 7) [])) 4 ++ [.receive] ++
    Move.pass (.captured (.tracked (.filled 2 1 .rgb 9) [⟨0, 0, 1, 1⟩])) 3 ++ [.receive]

/-- Quality is lowered, and the next delta is about to be compressed. -/
def loweredMoves : List Move := [.tick] ++ Move.pass (.captured (.tracked (.filled 2 1 .rgb 11) [⟨0, 0, 1, 1⟩])) 1

/-- The delta goes out, the window passes over it, and the next capture is answered. -/
def calmMoves (r : CaptureResult) : List Move := [.act, .act, .receive, .wait 4000000, .tick] ++ Move.pass r 0

theorem not_refused_of_refusals {t : List Event} (h : t.filterMap Event.refusal? = []) (k : Bool) :
    .refused k ∉ t := by
  intro hk
  have hmem : k ∈ t.filterMap Event.refusal? := List.mem_filterMap.mpr ⟨.refused k, hk, rfl⟩
  rw [h] at hmem
  cases hmem

set_option maxRecDepth 4096 in
theorem refresh_sent_moving :
    let r1 := (Run.start .slow .small).play .plain busyMoves
    let r2 := r1.play .plain loweredMoves
    let r3 := r2.play .plain (calmMoves (.captured (.tracked (.filled 2 1 .rgb 13) [])))
    let r4 := (r3.next .plain .act).play .plain [.act, .act, .act]
    Machine.new .slow [.small] = .ok .slow ∧ r2.machine.controller.quality = 20 ∧
      ∃ p, Run.ShowsWhole .plain PipelineSettings.slow.keyframeQuality (.filled 2 1 .rgb 13) p ∧
        payloads r4.trace = p :: payloads r3.trace :=
  ⟨Machine.new_slow, by decide +kernel,
    (refresh_sent (c := .plain) Machine.new_slow .small busyMoves loweredMoves
      (calmMoves (.captured (.tracked (.filled 2 1 .rgb 13) []))) [.act, .act, .act] (by decide +kernel)
      (by decide +kernel) ⟨_, _, rfl⟩ (by decide +kernel) (by decide +kernel) (by decide +kernel)
      (not_refused_of_refusals (by decide +kernel)) (by decide +kernel) (by decide +kernel)).1 _ _ _ _ rfl⟩

/-- The next pass without changes, after the rest of the one before. -/
def stillMoves : List Move := [.act, .wait 10000, .act] ++ Move.pass .noChanges 1

set_option maxRecDepth 4096 in
/-- The screen goes still after a delta at reduced quality: two passes in a row find no change, and no refresh
goes out, though throughput is zero and there is a baseline. -/
theorem refresh_missed_on_still_screen :
    let r1 := (Run.start .slow .small).play .plain busyMoves
    let r2 := r1.play .plain loweredMoves
    let r3 := r2.play .plain (calmMoves .noChanges)
    let r4 := r3.play .plain stillMoves
    let noted := PipelineSettings.slow.bandwidth.targetMbps * PipelineSettings.slow.qualityRefreshRatio
    Machine.new .slow [.small] = .ok .slow ∧
      (Run.start .slow .small).ticksApart .plain
        (busyMoves ++ loweredMoves ++ calmMoves .noChanges ++ stillMoves) = true ∧
      (∀ k, .refused k ∉ r4.trace) ∧ r1.machine.controller.reductions < r2.machine.controller.reductions ∧
      (∃ shipment region, r2.machine.phase = .encodingDelta shipment region) ∧
      r2.machine.controller.quality < PipelineSettings.slow.bandwidth.defaultQuality ∧
      keyframes r3.trace = keyframes r1.trace ∧ r3.machine.controller.mbps < noted ∧
      r4.machine.controller.mbps < noted ∧
      (∃ earlier, r4.trace = [.answered .small .noChanges, .acquired .small, .answered .small .noChanges,
        .acquired .small] ++ earlier) ∧
      (r3.machine.memory.baselineOf Display.small.name).isSome = true ∧ r4.machine.phase.isOpen = true ∧
      payloads r4.trace = payloads r3.trace :=
  ⟨Machine.new_slow, by decide +kernel, not_refused_of_refusals (by decide +kernel), by decide +kernel,
    ⟨_, _, rfl⟩, by decide +kernel, by decide +kernel, by decide +kernel, by decide +kernel, ⟨_, rfl⟩,
    by decide +kernel, by decide +kernel, by decide +kernel⟩

end Screencast
