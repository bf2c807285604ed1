import Screencast.Proofs.Charge

/-!
# Keyframes are paid for

`Run.owed` is a potential. An event adds what it calls for, and a keyframe that goes out takes one away. So
over a run every keyframe is paid for by an event of its own, and a first keyframe leaves no debt behind but for a
request that came while it was in the making.
-/

namespace Screencast
namespace Run

variable {c : Compressor} {r : Run}

/-- Whatever goes out or comes to be owed in between is paid for by what happens in between. -/
def Pays (r after : Run) : Prop :=
  keyframes after.trace + after.owed + (charges r.trace + r.machine.controller.reductions) ≤
    keyframes r.trace + r.owed + (charges after.trace + after.machine.controller.reductions)

variable {after : Machine} {e : Option Event} {mayFail : Prop}

/-- With the captures and acquisitions as they were, debts grow only by a quality that falls. -/
theorem debts_le {r' : Run} (hc : captures r'.trace = captures r.trace)
    (ha : acquisitions r'.trace = acquisitions r.trace)
    (hk : r'.machine.memory.lastKeyframe = r.machine.memory.lastKeyframe)
    (hb : r'.machine.memory.baseline = none ∨ r'.machine.memory.baseline = r.machine.memory.baseline)
    (hq : r'.machine.memory.reductionsAtKeyframe = r.machine.memory.reductionsAtKeyframe)
    (hred : r.machine.controller.reductions ≤ r'.machine.controller.reductions) :
    r'.debts ≤ r.debts + (r'.machine.controller.reductions - r.machine.controller.reductions) := by
  have hbase : lag ((captures r.trace).head?.map fun x => x.2.frame.shape)
      (r'.machine.memory.baseline.map fun b => b.frame.shape) ≤
      lag ((captures r.trace).head?.map fun x => x.2.frame.shape)
        (r.machine.memory.baseline.map fun b => b.frame.shape) := by
    rcases hb with hb | hb
    · rw [hb]
      exact Nat.zero_le _
    · exact Nat.le_of_eq (by rw [hb])
  unfold debts
  rw [hc, ha, hk, hq]
  split <;> split <;> omega

/-- A move that brings neither a capture nor a display nor a payload, and after which no more is noted. -/
theorem pays_of_owed (he : e.bind Event.payload? = none) (hc : e.bind Event.capture? = none)
    (ha : e.bind Event.acquired? = none) (hk : after.memory.lastKeyframe = r.machine.memory.lastKeyframe)
    (hb : after.memory.baseline = none ∨ after.memory.baseline = r.machine.memory.baseline)
    (hq : after.memory.reductionsAtKeyframe = r.machine.memory.reductionsAtKeyframe)
    (hred : r.machine.controller.reductions ≤ after.controller.reductions)
    (h : ∀ n debts, debts ≤ r.debts + n →
      after.phase.owed after.isRequested r.gap debts ≤ r.owed + (e.any Event.isCharge).toNat + n) :
    r.Pays ⟨after, e.toList ++ r.trace⟩ := by
  have hgap : gap ⟨after, e.toList ++ r.trace⟩ = r.gap := by
    funext f
    unfold gap
    rw [captures_append hc]
  have hdebts : debts ⟨after, e.toList ++ r.trace⟩ ≤
      r.debts + (after.controller.reductions - r.machine.controller.reductions) :=
    debts_le (captures_append hc _) (acquisitions_append ha _) hk hb hq hred
  have howed := h _ _ hdebts
  have heq : owed ⟨after, e.toList ++ r.trace⟩ =
      after.phase.owed after.isRequested r.gap (debts ⟨after, e.toList ++ r.trace⟩) := by
    unfold owed
    rw [hgap]
  unfold Pays
  rw [keyframes_append he, charges_append hc ha, heq]
  dsimp only
  omega

theorem pays_aside (phase : after.phase = r.machine.phase) (memory : after.memory = r.machine.memory)
    (flag : after.isRequested = r.machine.isRequested)
    (hred : r.machine.controller.reductions ≤ after.controller.reductions) : r.Pays ⟨after, r.trace⟩ := by
  refine pays_of_owed (e := none) rfl rfl rfl (by rw [memory]) (.inr (by rw [memory])) (by rw [memory]) hred ?_
  intro n debts h
  rw [phase, flag]
  exact owed_mono h

theorem pays_acquired {d : Display} (before : r.machine.phase.isOpen = true) (isOpen : after.phase.isOpen = true)
    (memory : after.memory = r.machine.memory) (flag : after.isRequested = r.machine.isRequested)
    (hred : r.machine.controller.reductions ≤ after.controller.reductions) :
    r.Pays ⟨after, .acquired d :: r.trace⟩ := by
  have hbefore : r.owed = r.machine.isRequested.toNat + r.debts := owed_of_isOpen before
  have hafter : owed ⟨after, .acquired d :: r.trace⟩ =
      r.machine.isRequested.toNat + debts ⟨after, .acquired d :: r.trace⟩ := by
    unfold owed
    rw [owed_of_isOpen isOpen, flag]
  -- Another display pays for the mark that it leaves behind.
  have hturn := lag_turns Display.mark d (acquisitions r.trace) r.machine.memory.lastKeyframe
  have hdebts : debts ⟨after, .acquired d :: r.trace⟩ = lag (some d.mark) r.machine.memory.lastKeyframe +
      lag ((captures r.trace).head?.map fun x => x.2.frame.shape)
        (r.machine.memory.baseline.map fun b => b.frame.shape) +
      if r.machine.memory.reductionsAtKeyframe < after.controller.reductions then 1 else 0 := by
    unfold debts
    rw [memory]
    rfl
  have hsum : debts ⟨after, .acquired d :: r.trace⟩ + turns Display.mark (acquisitions r.trace) ≤
      r.debts + (after.controller.reductions - r.machine.controller.reductions) +
        turns Display.mark (d :: acquisitions r.trace) := by
    rw [hdebts]
    unfold debts
    split <;> split <;> omega
  have hkeyframes : keyframes (.acquired d :: r.trace) = keyframes r.trace :=
    keyframes_append (e := some (.acquired d)) rfl
  unfold Pays
  dsimp only
  rw [hkeyframes, charges_acquired, hafter, hbefore]
  unfold charges
  omega

theorem pays_quiet (before : r.machine.phase.isOpen = true) (isOpen : after.phase.isOpen = true)
    (memory : after.memory = r.machine.memory) (flag : after.isRequested = r.machine.isRequested)
    (isQuiet : e.all Event.isQuiet = true)
    (hred : r.machine.controller.reductions ≤ after.controller.reductions) : r.Pays ⟨after, e.toList ++ r.trace⟩ := by
  cases ha : e.bind Event.acquired? with
  | none =>
    obtain ⟨hc, hp, -⟩ := Event.bind_of_isQuiet isQuiet
    have hbefore : r.owed = r.machine.isRequested.toNat + r.debts := owed_of_isOpen before
    refine pays_of_owed hp hc ha (by rw [memory]) (.inr (by rw [memory])) (by rw [memory]) hred ?_
    intro n debts h
    rw [owed_of_isOpen isOpen, flag, hbefore]
    omega
  | some d =>
    obtain ⟨x, rfl, hx⟩ := Option.bind_eq_some_iff.mp ha
    obtain rfl : x = .acquired d := by cases x <;> cases hx; rfl
    exact pays_acquired before isOpen memory flag hred

/-- The flag apart, a capture of another origin or another shape pays for what it calls for. -/
theorem pays_captured {t : Nat} {d : Display} {f : CapturedFrame} (hk : r.KeepsHand)
    (phase : r.machine.phase = .capturing t d)
    (after_phase : after.phase = .choosing t d f (r.machine.memory.originChanged f))
    (flag : after.isRequested = r.machine.isRequested)
    (lastKeyframe : after.memory.lastKeyframe = r.machine.memory.lastKeyframe)
    (baseline : after.memory.baseline = r.machine.memory.baseline)
    (reductionsAt : after.memory.reductionsAtKeyframe = r.machine.memory.reductionsAtKeyframe)
    (reductions : after.controller.reductions = r.machine.controller.reductions) :
    r.Pays ⟨after, .answered d (.captured f) :: r.trace⟩ := by
  have hbefore : r.owed = r.machine.isRequested.toNat + r.debts := owed_of_isOpen (by rw [phase]; rfl)
  have hafter : owed ⟨after, .answered d (.captured f) :: r.trace⟩ =
      r.machine.isRequested.toNat + (r.machine.memory.originChanged f).toNat +
        debts ⟨after, .answered d (.captured f) :: r.trace⟩ := by
    unfold owed
    rw [after_phase, flag]
    rfl
  have hshape := lag_turns (fun x : Display × CapturedFrame => x.2.frame.shape) (d, f) (captures r.trace)
    (r.machine.memory.baseline.map fun b => b.frame.shape)
  have horigin := lag_turns (fun x : Display × CapturedFrame => x.2.isUsingGpu) (d, f) (captures r.trace)
    r.machine.memory.lastUsingGpu
  have hchanged := Memory.toNat_originChanged r.machine.memory f
  dsimp only at hshape horigin
  have hself : lag ((captures r.trace).head?.map fun x => x.2.isUsingGpu) r.machine.memory.lastUsingGpu = 0 := by
    rw [hk.origin, lag_self]
  have hdebts : debts ⟨after, .answered d (.captured f) :: r.trace⟩ =
      lag ((acquisitions r.trace).head?.map Display.mark) r.machine.memory.lastKeyframe +
      lag (some f.frame.shape) (r.machine.memory.baseline.map fun b => b.frame.shape) +
      if r.machine.memory.reductionsAtKeyframe < r.machine.controller.reductions then 1 else 0 := by
    unfold debts
    rw [lastKeyframe, baseline, reductionsAt, reductions]
    rfl
  have hsum : debts ⟨after, .answered d (.captured f) :: r.trace⟩ +
      turns (fun x => x.2.frame.shape) (captures r.trace) ≤
      r.debts + turns (fun x => x.2.frame.shape) ((d, f) :: captures r.trace) := by
    rw [hdebts]
    unfold debts
    omega
  have hkeyframes : keyframes (.answered d (.captured f) :: r.trace) = keyframes r.trace :=
    keyframes_append (e := some (.answered d (.captured f))) rfl
  unfold Pays
  dsimp only
  rw [hkeyframes, charges_captured, hafter, hbefore, reductions]
  unfold charges
  omega

/-- A keyframe settles what is owed, but for a flag raised meanwhile and a frame that is not the latest. -/
theorem owed_sentKeyframe {s : Shipment} {data : ByteArray} (hk : r.KeepsHand)
    (phase : r.machine.phase = .sendingKeyframe s data) (p : RegionPayload) :
    owed ⟨(r.machine.sendKeyframe s data).1, .sent p :: r.trace⟩ = r.machine.isRequested.toNat + r.gap s.frame := by
  have hmark : lag ((acquisitions r.trace).head?.map Display.mark) (some s.display.mark) = 0 := by
    rw [hk.display s.display (by rw [phase]; rfl)]
    exact lag_self _
  have hdebts : debts ⟨(r.machine.sendKeyframe s data).1, .sent p :: r.trace⟩ = r.gap s.frame := by
    show lag ((acquisitions r.trace).head?.map Display.mark) (some s.display.mark) + r.gap s.frame +
      (if (r.machine.sendKeyframe s data).1.controller.reductions <
        (r.machine.sendKeyframe s data).1.controller.reductions then 1 else 0) = _
    rw [hmark, if_neg (Nat.lt_irrefl _)]
    omega
  rw [← hdebts]
  rfl

theorem pays_sentKeyframe {s : Shipment} {data : ByteArray} (hk : r.KeepsHand)
    (phase : r.machine.phase = .sendingKeyframe s data) {p : RegionPayload} (hp : p.isKeyframe = true) :
    r.Pays ⟨(r.machine.sendKeyframe s data).1, .sent p :: r.trace⟩ := by
  have howed := owed_of_phase phase
  have hgauges := (Machine.tells_sendKeyframe r.machine s data).gauges
  have hreductions : (r.machine.sendKeyframe s data).1.controller.reductions = r.machine.controller.reductions :=
    (congrArg Controller.reductions hgauges).trans rfl
  have hcharges : charges (.sent p :: r.trace) = charges r.trace := charges_append (e := some (.sent p)) rfl rfl
  unfold Pays
  dsimp only [Phase.owed] at howed ⊢
  rw [keyframes_sent, hp, hcharges, owed_sentKeyframe hk phase, howed, hreductions, Bool.toNat_true]
  omega

/-- A delta, or a capture without a change, leaves the latest capture as the baseline. -/
theorem pays_fresh {f : Frame} {b : Baseline} (hf : ((captures r.trace).head?.map fun x => x.2.frame) = some f)
    (he : keyframes (e.toList ++ r.trace) = keyframes r.trace) (hc : e.bind Event.capture? = none)
    (ha : e.bind Event.acquired? = none) (isOpen : after.phase.isOpen = true)
    (flag : after.isRequested = r.machine.isRequested)
    (lastKeyframe : after.memory.lastKeyframe = r.machine.memory.lastKeyframe)
    (baseline : after.memory.baseline = some b) (frame : b.frame = f)
    (reductionsAt : after.memory.reductionsAtKeyframe = r.machine.memory.reductionsAtKeyframe)
    (reductions : after.controller.reductions = r.machine.controller.reductions)
    (howed : r.machine.isRequested.toNat + r.debts ≤ r.owed) : r.Pays ⟨after, e.toList ++ r.trace⟩ := by
  have hlag : lag ((captures r.trace).head?.map fun x => x.2.frame.shape)
      (after.memory.baseline.map fun b => b.frame.shape) = 0 := by
    rw [shape_of_frame hf, baseline, ← frame]
    exact lag_self _
  have hdebts : debts ⟨after, e.toList ++ r.trace⟩ ≤ r.debts := by
    unfold debts
    dsimp only
    rw [captures_append hc, acquisitions_append ha, lastKeyframe, reductionsAt, reductions, hlag]
    omega
  have hafter : owed ⟨after, e.toList ++ r.trace⟩ =
      r.machine.isRequested.toNat + debts ⟨after, e.toList ++ r.trace⟩ := by
    unfold owed
    rw [owed_of_isOpen isOpen, flag]
  unfold Pays
  dsimp only
  rw [he, charges_append hc ha, hafter, reductions]
  omega

theorem pays_requested : r.Pays ⟨r.machine.requestKeyframe, .requested :: r.trace⟩ := by
  refine pays_of_owed (e := some .requested) rfl rfl rfl rfl (.inr rfl) rfl (Nat.le_refl _) fun n debts h => ?_
  have hmono : r.machine.phase.owed r.machine.isRequested r.gap debts ≤ r.owed + n := owed_mono h
  have hflag : r.machine.phase.owed true r.gap debts ≤
      r.machine.phase.owed r.machine.isRequested r.gap debts + 1 := owed_flag
  show r.machine.phase.owed true r.gap debts ≤ r.owed + 1 + n
  omega

section Choices

variable {t : Nat} {d : Display} {f : CapturedFrame} {b : Bool}

/-- The flag pays for the frame that is sent again, and the baseline's debt for the one that replaces it. -/
theorem pays_resend {g : Frame} (phase : r.machine.phase = .idle t d) (flag : r.machine.isRequested = true)
    (baseline : r.machine.memory.baselineOf d.name = some g) :
    r.Pays ⟨{ r.machine with
      memory := { r.machine.memory with baseline := none }, phase := .lowering ⟨t, d, g⟩ .requested }, r.trace⟩ := by
  obtain ⟨base, hbaseline, -, rfl⟩ := Memory.baselineOf_eq_some baseline
  have hgap : r.gap base.frame ≤ r.debts := by
    unfold gap debts
    rw [hbaseline]
    exact Nat.le_trans (Nat.le_add_left _ _) (Nat.le_add_right _ _)
  have howed := owed_of_phase phase
  refine pays_of_owed (e := none) rfl rfl rfl rfl (.inl rfl) rfl (Nat.le_refl _) fun n debts h => ?_
  simp only [Phase.owed, flag, Bool.toNat_true] at howed ⊢
  omega

theorem pays_chosen (memory : after.memory = r.machine.memoryAtChoice d b)
    (reductions : after.controller.reductions = r.machine.controller.reductions)
    (h : ∀ n debts, debts ≤ r.debts + n → after.phase.owed after.isRequested r.gap debts ≤ r.owed + n) :
    r.Pays ⟨after, r.trace⟩ := by
  refine pays_of_owed (e := none) rfl rfl rfl ?_ (.inr ?_) ?_ (Nat.le_of_eq reductions.symm) h
  · rw [memory, Machine.memoryAtChoice_lastKeyframe]
  · rw [memory, Machine.memoryAtChoice_baseline]
  · rw [memory, Machine.memoryAtChoice_reductionsAt]

theorem pays_keyframe {reason : KeyframeReason} (hi : r.machine.InOrder c) (hk : r.KeepsHand) (hq : r.KeepsRefresh)
    (phase : r.machine.phase = .choosing t d f b) (choice : r.machine.choice d f b = .keyframe reason) :
    r.Pays ⟨{ r.machine with
      memory := r.machine.memoryAtChoice d b, phase := .lowering ⟨t, d, f.frame⟩ reason }, r.trace⟩ := by
  have howes := owes_of_keyframe hi hk hq phase choice
  have hgap : r.gap f.frame = 0 := gap_of_latest (hk.fresh f.frame (by rw [phase]; rfl))
  have howed := owed_of_phase phase
  refine pays_chosen rfl rfl fun n debts h => ?_
  simp only [Phase.owed, hgap] at howed ⊢
  omega

theorem pays_delta {region : Rect} (phase : r.machine.phase = .choosing t d f b) :
    r.Pays ⟨{ r.machine with
      memory := r.machine.memoryAtChoice d b, phase := .encodingDelta ⟨t, d, f.frame⟩ region }, r.trace⟩ := by
  have howed := owed_of_phase phase
  refine pays_chosen rfl rfl fun n debts h => ?_
  simp only [Phase.owed] at howed ⊢
  omega

theorem pays_unchanged (hk : r.KeepsHand) (phase : r.machine.phase = .choosing t d f b) (delay : Micros) :
    r.Pays ⟨{ r.machine with
      memory := (r.machine.memoryAtChoice d b).noteFrame d f.frame }.rest t delay, r.trace⟩ := by
  have howed := owed_of_phase phase
  refine pays_fresh (e := none) (hk.fresh f.frame (by rw [phase]; rfl)) rfl rfl rfl rfl rfl
    (Machine.memoryAtChoice_lastKeyframe _ _ _) rfl rfl (Machine.memoryAtChoice_reductionsAt _ _ _) rfl ?_
  simp only [Phase.owed] at howed
  omega

end Choices

theorem pays_sentDelta {s : Shipment} {region : Rect} {data : ByteArray} (hk : r.KeepsHand)
    (phase : r.machine.phase = .sendingDelta s region data) :
    r.Pays ⟨(r.machine.sendDelta s region data).1, .sent (.ofRect region false data) :: r.trace⟩ := by
  have howed := owed_of_phase phase
  refine pays_fresh (e := some (.sent _)) (hk.fresh s.frame (by rw [phase]; rfl)) (keyframes_sent _ _) rfl rfl rfl rfl
    rfl rfl rfl rfl rfl ?_
  simp only [Phase.owed] at howed
  omega

theorem pays_raised {t : Nat} {delay : Option Micros} (phase : r.machine.phase = .raising t delay)
    (isOpen : after.phase.isOpen = true) (memory : after.memory = r.machine.memory) (flag : after.isRequested = true)
    (hred : r.machine.controller.reductions ≤ after.controller.reductions) :
    r.Pays ⟨after, .raised :: r.trace⟩ := by
  have howed := owed_of_phase phase
  refine pays_of_owed (e := some .raised) rfl rfl rfl (by rw [memory]) (.inr (by rw [memory])) (by rw [memory]) hred
    fun n debts h => ?_
  rw [owed_of_isOpen isOpen, flag]
  simp only [Phase.owed, Bool.toNat_true] at howed ⊢
  omega

theorem pays_passage (hi : r.machine.InOrder c) (hk : r.KeepsHand) (hq : r.KeepsRefresh)
    (hp : Passage c mayFail r.machine e after)
    (hred : r.machine.controller.reductions ≤ after.controller.reductions) : r.Pays ⟨after, e.toList ++ r.trace⟩ := by
  cases hp with
  | aside phase memory flag => exact pays_aside phase memory flag hred
  | requested => exact pays_requested
  | quiet before isOpen memory flag _ _ isQuiet => exact pays_quiet before isOpen memory flag isQuiet hred
  | captured phase => exact pays_captured hk phase rfl rfl rfl rfl rfl rfl
  | failed phase =>
    have howed := owed_of_phase phase
    refine pays_of_owed rfl rfl rfl rfl (.inl rfl) rfl hred fun n debts h => ?_
    simp only [Phase.owed, Option.any_some, Event.isCharge, Bool.toNat_true] at howed ⊢
    omega
  | resend phase flag baseline => exact pays_resend phase flag baseline
  | keyframe phase choice => exact pays_keyframe hi hk hq phase choice
  | delta phase => exact pays_delta phase
  | unchanged phase => exact pays_unchanged hk phase _
  | lowered phase | encodedKeyframe phase | refusedKeyframe phase | encodedDelta phase | refusedDelta phase =>
    have howed := owed_of_phase phase
    refine pays_of_owed rfl rfl rfl rfl (.inr rfl) rfl hred fun n debts h => ?_
    simp only [Phase.owed, Option.any_some, Option.any_none, Event.isCharge, Bool.toNat_true, Bool.toNat_false]
      at howed ⊢
    omega
  | sentKeyframe phase =>
    rw [hi.taken (by rw [phase]; rfl)]
    exact pays_sentKeyframe hk phase rfl
  | sentDelta phase =>
    rw [hi.taken (by rw [phase]; rfl)]
    exact pays_sentDelta hk phase
  | raised phase isOpen _ memory flag => exact pays_raised phase isOpen memory flag hred

theorem keepsRefresh_of_memory {t : List Event} (hq : r.KeepsRefresh)
    (due : after.memory.needsRefresh = r.machine.memory.needsRefresh)
    (reductionsAt : after.memory.reductionsAtKeyframe = r.machine.memory.reductionsAtKeyframe)
    (hred : r.machine.controller.reductions ≤ after.controller.reductions) : KeepsRefresh ⟨after, t⟩ := by
  intro hn
  have hlt := hq (due ▸ hn)
  dsimp only
  omega

/-- The choice takes note of a quality that fell since the last keyframe, and of no other. -/
theorem reductions_lt_of_choice {d : Display} {b : Bool} (hq : r.KeepsRefresh)
    (hn : (r.machine.memoryAtChoice d b).needsRefresh = true) :
    r.machine.memory.reductionsAtKeyframe < r.machine.controller.reductions := by
  unfold Machine.memoryAtChoice at hn
  split at hn
  · exact hq hn
  · simp only [Memory.track, Bool.or_eq_true, Bool.and_eq_true, decide_eq_true_eq] at hn
    rcases hn with hn | ⟨-, hlt⟩
    · exact hq hn
    · exact hlt

theorem keepsRefresh_passage (hq : r.KeepsRefresh) (hp : Passage c mayFail r.machine e after)
    (hred : r.machine.controller.reductions ≤ after.controller.reductions) (t : List Event) :
    KeepsRefresh ⟨after, t⟩ := by
  cases hp with
  | aside _ memory | quiet _ _ memory | raised _ _ _ memory =>
    exact keepsRefresh_of_memory hq (by rw [memory]) (by rw [memory]) hred
  | sentKeyframe => exact fun hn => nomatch hn
  | keyframe | delta | unchanged =>
    intro hn
    have hlt := reductions_lt_of_choice hq hn
    dsimp only [Memory.noteFrame, Machine.rest]
    rw [Machine.memoryAtChoice_reductionsAt]
    exact hlt
  | _ => exact keepsRefresh_of_memory hq rfl rfl hred

/-- Before the first keyframe there is no baseline, so that what goes out whole is the latest capture. -/
def KeepsFirst (r : Run) : Prop := keyframes r.trace = 0 →
  r.machine.memory.lastKeyframe = none ∧ r.machine.memory.baseline = none ∧
    ∀ f, r.machine.phase.whole? = some f → r.gap f = 0

theorem keepsFirst_of_whole (hf : r.KeepsFirst) (he : e.bind Event.payload? = none)
    (hk : after.memory.lastKeyframe = r.machine.memory.lastKeyframe)
    (hb : after.memory.baseline = none ∨ after.memory.baseline = r.machine.memory.baseline)
    (hp : after.phase.whole? = none ∨
      e.bind Event.capture? = none ∧ ∀ f, after.phase.whole? = some f → r.machine.phase.whole? = some f ∨ r.gap f = 0) :
    KeepsFirst ⟨after, e.toList ++ r.trace⟩ := by
  intro h0
  rw [keyframes_append he] at h0
  obtain ⟨hl, hn, hw⟩ := hf h0
  refine ⟨hk.trans hl, hb.elim id fun hb => hb.trans hn, fun f hwhole => ?_⟩
  rcases hp with hp | ⟨hc, hp⟩
  · rw [hp] at hwhole
    cases hwhole
  · have hgap : gap ⟨after, e.toList ++ r.trace⟩ f = r.gap f := by
      unfold gap
      rw [captures_append hc]
    rw [hgap]
    exact (hp f hwhole).elim (hw f) id

/-- What is not sent whole needs a keyframe before it. -/
theorem keepsFirst_of_mark {t : List Event} (hf : r.KeepsFirst) (ht : keyframes t = keyframes r.trace)
    {mark : KeyframeMark} (hm : r.machine.memory.lastKeyframe = some mark) : KeepsFirst ⟨after, t⟩ := by
  intro h0
  rw [(hf (ht ▸ h0)).1] at hm
  cases hm

theorem keepsFirst_of_isOpen (hf : r.KeepsFirst) (isOpen : after.phase.isOpen = true)
    (memory : after.memory = r.machine.memory) (he : e.bind Event.payload? = none) :
    KeepsFirst ⟨after, e.toList ++ r.trace⟩ :=
  keepsFirst_of_whole hf he (by rw [memory]) (.inr (by rw [memory])) (.inl (Phase.whole?_of_isOpen isOpen))

theorem keepsFirst_keyframe {t : Nat} {d : Display} {f : CapturedFrame} {b : Bool} {reason : KeyframeReason}
    (hk : r.KeepsHand) (hf : r.KeepsFirst) (phase : r.machine.phase = .choosing t d f b) :
    KeepsFirst ⟨{ r.machine with
      memory := r.machine.memoryAtChoice d b, phase := .lowering ⟨t, d, f.frame⟩ reason }, r.trace⟩ := by
  refine keepsFirst_of_whole (e := none) hf rfl (Machine.memoryAtChoice_lastKeyframe _ _ _)
    (.inr (Machine.memoryAtChoice_baseline _ _ _)) (.inr ⟨rfl, fun g h => .inr ?_⟩)
  cases h
  exact gap_of_latest (hk.fresh f.frame (by rw [phase]; rfl))

theorem keepsFirst_sentDelta {s : Shipment} {region : Rect} {data : ByteArray} (hi : r.machine.InOrder c)
    (hf : r.KeepsFirst) (phase : r.machine.phase = .sendingDelta s region data) :
    KeepsFirst ⟨after, .sent (.ofRect region false data) :: r.trace⟩ := by
  have hmarked := hi.isMarked
  unfold Machine.IsMarked at hmarked
  rw [phase] at hmarked
  exact keepsFirst_of_mark hf (keyframes_sent _ _) hmarked

theorem keepsFirst_passage (hi : r.machine.InOrder c) (hk : r.KeepsHand) (hp : Passage c mayFail r.machine e after)
    (hf : r.KeepsFirst) : KeepsFirst ⟨after, e.toList ++ r.trace⟩ := by
  cases hp with
  | aside phase memory =>
    exact keepsFirst_of_whole (e := none) hf rfl (by rw [memory]) (.inr (by rw [memory]))
      (.inr ⟨rfl, fun f h => .inl (phase ▸ h)⟩)
  | requested => exact keepsFirst_of_whole (e := some .requested) hf rfl rfl (.inr rfl) (.inr ⟨rfl, fun f h => .inl h⟩)
  | quiet _ isOpen memory _ _ _ isQuiet =>
    exact keepsFirst_of_isOpen hf isOpen memory (Event.bind_of_isQuiet isQuiet).2.1
  | captured | encodedDelta | refusedKeyframe | refusedDelta =>
    exact keepsFirst_of_whole hf rfl rfl (.inr rfl) (.inl rfl)
  | failed => exact keepsFirst_of_whole hf rfl rfl (.inl rfl) (.inl rfl)
  | raised _ isOpen _ memory => exact keepsFirst_of_isOpen hf isOpen memory rfl
  | lowered phase | encodedKeyframe phase =>
    refine keepsFirst_of_whole (e := none) hf rfl rfl (.inr rfl) (.inr ⟨rfl, fun f h => .inl ?_⟩)
    rw [phase]
    exact h
  | resend phase flag baseline =>
    intro h0
    obtain ⟨b, hb, -⟩ := Memory.baselineOf_eq_some baseline
    rw [(hf h0).2.1] at hb
    cases hb
  | keyframe phase => exact keepsFirst_keyframe hk hf phase
  | delta _ choice =>
    exact keepsFirst_of_mark hf rfl (Machine.choice_of_ne_keyframe (Machine.ne_keyframe_of_delta choice)).2.2.1
  | unchanged _ choice =>
    exact keepsFirst_of_mark hf rfl (Machine.choice_of_ne_keyframe (Machine.ne_keyframe_of_unchanged choice)).2.2.1
  | sentKeyframe phase =>
    rw [hi.taken (by rw [phase]; rfl)]
    intro h0
    exact absurd ((keyframes_sent _ _).symm.trans h0) (Nat.succ_ne_zero _)
  | sentDelta phase =>
    rw [hi.taken (by rw [phase]; rfl)]
    exact keepsFirst_sentDelta hi hf phase

/-- A flag that is up while a keyframe is compressed was raised in that pass. -/
def KeepsAsked (r : Run) : Prop :=
  match r.machine.phase with
  | .encodingKeyframe _ _ | .sendingKeyframe _ _ => r.machine.isRequested = true → .requested ∈ lastPass r.trace
  | _ => True

theorem keepsAsked_passage (hp : Passage c mayFail r.machine e after) (ha : r.KeepsAsked) :
    KeepsAsked ⟨after, e.toList ++ r.trace⟩ := by
  have of_isOpen {t : List Event} (h : after.phase.isOpen = true) : KeepsAsked ⟨after, t⟩ := by
    unfold KeepsAsked
    cases hphase : after.phase <;> first | trivial | (rw [hphase] at h; cases h)
  cases hp with
  | aside phase memory flag =>
    unfold KeepsAsked at ha ⊢
    rw [phase, flag]
    exact ha
  | requested =>
    unfold KeepsAsked
    cases hphase : r.machine.requestKeyframe.phase <;> first | trivial | exact fun _ => List.mem_cons_self
  | quiet _ isOpen => exact of_isOpen isOpen
  | raised _ isOpen => exact of_isOpen isOpen
  | lowered => exact fun h => nomatch h
  | encodedKeyframe phase =>
    unfold KeepsAsked at ha
    rw [phase] at ha
    exact ha
  | _ => exact trivial

/-- A keyframe goes out by its sending only. -/
theorem keyframes_passage (hi : r.machine.InOrder c) (hp : Passage c mayFail r.machine e after) :
    keyframes (e.toList ++ r.trace) = keyframes r.trace ∨
      ∃ s data p, r.machine.phase = .sendingKeyframe s data ∧ after = (r.machine.sendKeyframe s data).1 ∧
        e = some (.sent p) := by
  cases hp with
  | @sentKeyframe s data phase => exact .inr ⟨s, data, _, phase, rfl, hi.taken (by rw [phase]; rfl) _⟩
  | sentDelta phase =>
    rw [hi.taken (by rw [phase]; rfl)]
    exact .inl (keyframes_sent _ _)
  | quiet _ _ _ _ _ _ isQuiet => exact .inl (keyframes_append (Event.bind_of_isQuiet isQuiet).2.1)
  | _ => exact .inl (keyframes_append rfl)

/-! ### Runs -/

/-- What the moves of a run keep, and that they pay for themselves. -/
structure Ledger (r after : Run) : Prop where
  refresh : after.KeepsRefresh
  first : after.KeepsFirst
  asked : after.KeepsAsked
  pays : r.Pays after

theorem play_ledger (hi : r.machine.InOrder c) (hk : r.KeepsHand) (hq : r.KeepsRefresh) (hf : r.KeepsFirst)
    (ha : r.KeepsAsked) (moves : List Move) :
    (r.play c moves).machine.InOrder c ∧ (r.play c moves).KeepsHand ∧ r.Ledger (r.play c moves) := by
  refine play_steps (P := r.Ledger) ?_ hi hk ⟨hq, hf, ha, Nat.le_refl _⟩ moves
  intro r' mv e after hi hk hm hp h
  have hred : r'.machine.controller.reductions ≤ after.controller.reductions := by
    rw [Machine.reductions_move hm]
    exact Nat.le_add_right _ _
  have hpays := pays_passage hi hk h.refresh hp hred
  refine ⟨keepsRefresh_passage h.refresh hp hred _, keepsFirst_passage hi hk hp h.first,
    keepsAsked_passage hp h.asked, ?_⟩
  have hbefore := h.pays
  unfold Pays at hbefore hpays ⊢
  omega

theorem reductions_play (r : Run) (moves : List Move) : (r.play c moves).machine.controller.reductions =
    r.machine.controller.reductions + lowerings c r moves := by
  induction moves generalizing r with
  | nil => rfl
  | cons mv rest ih =>
    have hnext : (r.next c mv).machine.controller.reductions = r.machine.controller.reductions +
        if (r.next c mv).machine.controller.quality < r.machine.controller.quality then 1 else 0 := by
      unfold next
      split
      · rename_i hm
        exact Machine.reductions_move hm
      · rw [if_neg (UInt8.lt_irrefl _), Nat.add_zero]
    have hcount : lowerings c r (mv :: rest) =
        (if (r.next c mv).machine.controller.quality < r.machine.controller.quality then 1 else 0) +
          lowerings c (r.next c mv) rest := rfl
    show ((r.next c mv).play c rest).machine.controller.reductions = _
    rw [ih, hnext, hcount]
    omega

/-- The state after its first keyframe owes no more than the flag, which is down again unless somebody asked for
another keyframe while this one was in the making. -/
theorem owed_first {mv : Move} (hi : r.machine.InOrder c) (hk : r.KeepsHand) (hf : r.KeepsFirst) (ha : r.KeepsAsked)
    (hbefore : keyframes r.trace = 0) (hafter : keyframes (r.next c mv).trace = 1) :
    (r.next c mv).owed = (r.next c mv).machine.isRequested.toNat ∧
      ((r.next c mv).machine.isRequested = true → .requested ∈ lastPass r.trace) := by
  unfold next at hafter ⊢
  split at hafter
  · rename_i after e hm
    have hp : Passage c True r.machine e after := Machine.passage_move (fun _ => trivial) hm
    rcases keyframes_passage hi hp with hsame | ⟨s, data, p, phase, rfl, rfl⟩
    · rw [hsame, hbefore] at hafter
      cases hafter
    · have hgap : r.gap s.frame = 0 := (hf hbefore).2.2 s.frame (by rw [phase]; rfl)
      unfold KeepsAsked at ha
      rw [phase] at ha
      refine ⟨(owed_sentKeyframe hk phase p).trans ?_, ha⟩
      rw [hgap]
      rfl
  · rw [hbefore] at hafter
    cases hafter

theorem start_ledger {s : PipelineSettings} {attached : List Display} {m : Machine}
    (h : Machine.new s attached = .ok m) (registry : Registry) :
    (start m registry).KeepsRefresh ∧ (start m registry).KeepsFirst ∧ (start m registry).KeepsAsked ∧
      (start m registry).owed = 1 := by
  obtain ⟨-, hphase, hmemory, hflag⟩ := start_ok h registry
  have hreductions : (start m registry).machine.controller.reductions = 0 :=
    show m.controller.reductions = 0 from Machine.new_reductions h
  refine ⟨?_, ?_, ?_, ?_⟩
  · intro hn
    rw [hmemory] at hn
    cases hn
  · intro _
    rw [hmemory, hphase]
    exact ⟨rfl, rfl, fun f hf => nomatch hf⟩
  · unfold KeepsAsked
    rw [hphase]
    trivial
  · rw [owed_of_phase hphase, hflag]
    unfold debts
    rw [hmemory, hreductions]
    rfl

end Run

variable {c : Compressor} {s : PipelineSettings} {attached : List Display} {m : Machine}

/-- Each keyframe but the first is paid for by an event of its own: a request, a failure or a refusal, another
origin, another display or area, another size or format, or a lowering of quality. What follows the first keyframe
is paid for by later events only, and by the one request that can be pending by then: a request that came while
that keyframe was in the making. -/
theorem keyframes_le_charges (h : Machine.new s attached = .ok m) (registry : Registry) (moves : List Move) :
    let r := (Run.start m registry).play c moves
    keyframes r.trace ≤ 1 + charges r.trace + Run.lowerings c (Run.start m registry) moves ∧
    ∀ mv rest, keyframes r.trace = 0 → keyframes (r.next c mv).trace = 1 →
      ((r.next c mv).machine.isRequested = true → .requested ∈ lastPass r.trace) ∧
      keyframes ((r.next c mv).play c rest).trace + charges (r.next c mv).trace ≤
        1 + (r.next c mv).machine.isRequested.toNat + charges ((r.next c mv).play c rest).trace +
          Run.lowerings c (r.next c mv) rest := by
  intro r
  obtain ⟨hq, hf, ha, howed⟩ := Run.start_ledger h registry
  obtain ⟨hi, hk, hr⟩ : r.machine.InOrder c ∧ r.KeepsHand ∧ (Run.start m registry).Ledger r :=
    Run.play_ledger (Run.start_inOrder h registry) (Run.start_keepsHand h registry) hq hf ha moves
  constructor
  · have hpays := hr.pays
    have hreductions : r.machine.controller.reductions = _ := Run.reductions_play (Run.start m registry) moves
    unfold Run.Pays at hpays
    rw [howed, hreductions] at hpays
    have hstart : keyframes (Run.start m registry).trace = 0 ∧ charges (Run.start m registry).trace = 0 := ⟨rfl, rfl⟩
    omega
  · intro mv rest hbefore hafter
    obtain ⟨hflag, hasked⟩ := Run.owed_first hi hk hr.first hr.asked hbefore hafter
    obtain ⟨hi', hk', hr'⟩ := Run.play_ledger hi hk hr.refresh hr.first hr.asked [mv]
    obtain ⟨-, -, hlater⟩ := Run.play_ledger (r := r.next c mv) hi' hk' hr'.refresh hr'.first hr'.asked rest
    refine ⟨hasked, ?_⟩
    have hpays := hlater.pays
    unfold Run.Pays at hpays
    rw [hflag, hafter, Run.reductions_play (r.next c mv) rest] at hpays
    omega

/-- A keyframe, a delta and a second keyframe on request, which the request pays for. -/
theorem keyframes_le_charges_requested :
    let moves := Move.pass (.captured (.tracked (.filled 1 1 .rgb 7) [])) 3
    let rest := [.receive] ++ Move.pass (.captured (.tracked (.filled 1 1 .rgb 9) [⟨0, 0, 1, 1⟩])) 3 ++
      [.receive, .request] ++ Move.pass .noChanges 4
    let r := (Run.start .small .small).play .plain moves
    Machine.new .lossless [.small] = .ok .small ∧ keyframes r.trace = 0 ∧ keyframes (r.next .plain .act).trace = 1 ∧
      (r.next .plain .act).machine.isRequested = false ∧
      keyframes ((r.next .plain .act).play .plain rest).trace = 2 ∧
      (keyframes r.trace ≤ 1 + charges r.trace + Run.lowerings .plain (Run.start .small .small) moves) ∧
      ((r.next .plain .act).machine.isRequested = true → .requested ∈ lastPass r.trace) ∧
      keyframes ((r.next .plain .act).play .plain rest).trace + charges (r.next .plain .act).trace ≤
        1 + (r.next .plain .act).machine.isRequested.toNat + charges ((r.next .plain .act).play .plain rest).trace +
          Run.lowerings .plain (r.next .plain .act) rest := by
  intro moves rest r
  have hbefore : keyframes r.trace = 0 := by decide +kernel
  have hafter : keyframes (r.next .plain .act).trace = 1 := by decide +kernel
  have hflag : (r.next .plain .act).machine.isRequested = false := by decide +kernel
  have hsecond : keyframes ((r.next .plain .act).play .plain rest).trace = 2 := by decide +kernel
  have hlaw := keyframes_le_charges (c := .plain) Machine.new_small .small moves
  exact ⟨Machine.new_small, hbefore, hafter, hflag, hsecond, hlaw.1, hlaw.2 .act rest hbefore hafter⟩

end Screencast
