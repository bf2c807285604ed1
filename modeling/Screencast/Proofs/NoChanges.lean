import Screencast.Proofs.GpuRun

/-!
# Which display an answer without changes is about

The health of an output is remembered for as long as the output lives, and captures of a blocked
display go past the live output. So an answer that nothing changed tells of the display whose output
is live. The latest frame may be of another one, which was then captured without asking any output.
-/

namespace Screencast

/-- The capture brought a frame, from whatever source. -/
def GpuEntry.isShot (e : GpuEntry) : Bool :=
  match e.result? with
  | some (.captured _) => true
  | _ => false

/-- The latest frame is of the device exactly if an output was asked for it, and an output of the device
gave a frame at time `t`. -/
def IsSeen (device : String) (t : Micros) (log : List GpuEntry) : Prop :=
  (∃ call a events, log.find? GpuEntry.isShot = some (.attempted call a events) ∧
    (call.display.name = device ↔ .acquire call.display.name ∈ events)) ∧
  ∃ call f events, .attempted call (.result (.captured f)) events ∈ log ∧ call.display.name = device ∧
    call.surroundings.now = t

theorem IsSeen.attempted {device : String} {t : Micros} {log : List GpuEntry} (h : IsSeen device t log)
    {call : GpuCall} (a : Attempt) {events : List OutputEvent}
    (hasked : call.display.name = device ↔ .acquire call.display.name ∈ events) :
    IsSeen device t (.attempted call a events :: log) := by
  obtain ⟨⟨latest, b, asked, hfind, hlatest⟩, shot, f, found, hmem, hdevice, hnow⟩ := h
  refine ⟨?_, shot, f, found, List.mem_cons_of_mem _ hmem, hdevice, hnow⟩
  rw [List.find?_cons]
  split
  · exact ⟨call, a, events, rfl, hasked⟩
  · exact ⟨latest, b, asked, hfind, hlatest⟩

namespace Outputs.Found

variable {s after : Outputs} {now : Micros} {make : String → Option OutputGeometry} {device : String}
  {o : Output} {events : List OutputEvent}

/-- An output that gave a frame before was live before. -/
theorem current_of_lastCapture (h : s.Found now make device (some o) after events) {t : Micros}
    (ht : o.lastCapture = some t) : s.current = some o := by
  cases h with
  | live _ current => exact current
  | made => cases ht

end Outputs.Found

namespace GpuRun

variable {s : CaptureSettings} {r : GpuRun}

structure KeepsSeen (s : CaptureSettings) (r : GpuRun) : Prop where
  window : r.source.healthWindow = s.gpuHealthWindow
  isClear : r.source.outputs.IsClear
  seen : ∀ o t, r.source.outputs.current = some o → o.lastCapture = some t → IsSeen o.device t r.log

/-- With the output of the captured display live as before. -/
theorem seen_asked (hr : r.KeepsSeen s) {call : GpuCall} {o : Output} {outputs : Outputs} {found : List OutputEvent}
    (hf : r.source.outputs.Found call.surroundings.now call.surroundings.make call.display.name (some o) outputs found)
    (a : Attempt) {t : Micros} (ht : o.lastCapture = some t) :
    IsSeen o.device t (.attempted call a (found ++ [.acquire o.device]) :: r.log) := by
  refine (hr.seen o t (hf.current_of_lastCapture ht) ht).attempted a ?_
  rw [hf.current_eq.2]
  simp

theorem keepsSeen_attempted {call : GpuCall} {a : Attempt} {source : GpuCapture} {events : List OutputEvent}
    (h : Attempting r.source call a source events) (hr : r.KeepsSeen s) :
    KeepsSeen s ⟨source, .attempted call a events :: r.log⟩ := by
  cases h with
  | unavailable found =>
    refine ⟨hr.window, found.isClear hr.isClear, fun o t ho ht => ?_⟩
    rcases found.none_cases with ⟨hblocked, hcurrent, rfl⟩ | hnone
    · -- A blocked display is not the live one, and no output was asked.
      have hlive : r.source.outputs.current = some o := hcurrent ▸ ho
      refine (hr.seen o t hlive ht).attempted _ (iff_of_false ?_ List.not_mem_nil)
      intro hname
      rw [hname, hr.isClear o hlive] at hblocked
      cases hblocked
    · rw [hnone] at ho
      cases ho
  | @unchanged o outputs found hf =>
    refine ⟨hr.window, hf.isClear hr.isClear, fun u t hu ht => ?_⟩
    obtain rfl : o = u := Option.some.inj (hf.current_eq.1.symm.trans hu)
    exact seen_asked hr hf _ ht
  | @faulted o outputs found reason hf =>
    refine ⟨hr.window, Outputs.isClear_recycle _ (hf.isClear hr.isClear) _, fun u t hu => ?_⟩
    have hnone : (outputs.recycle call.surroundings.now).1.current = none := by
      unfold Outputs.recycle
      rw [hf.current_eq.1]
    rw [show (outputs.recycle call.surroundings.now).1.current = some u from hu] at hnone
    cases hnone
  | @blank o outputs found raw dirty hf =>
    have hclear := hf.isClear hr.isClear o hf.current_eq.1
    refine ⟨hr.window, fun u hu => ?_, fun u t hu ht => ?_⟩ <;> cases hu
    · exact hclear
    · exact seen_asked hr hf _ ht
  | @captured o outputs found raw upright frame dirty rects pointerArea hf =>
    have hclear := hf.isClear hr.isClear o hf.current_eq.1
    have hname := hf.current_eq.2
    refine ⟨hr.window, fun u hu => ?_, fun u t hu ht => ?_⟩ <;> cases hu
    · exact hclear
    · cases ht
      refine ⟨⟨call, _, _, rfl, ?_⟩, call, _, _, List.mem_cons_self, hname.symm, rfl⟩
      simp [hname]

theorem keepsSeen_shutdown (hr : r.KeepsSeen s) :
    KeepsSeen s ⟨r.source.shutdown.1, .shutDown r.source.shutdown.2 :: r.log⟩ := by
  have hnone : r.source.outputs.release.1.current = none := by
    unfold Outputs.release
    split
    · rfl
    · assumption
  refine ⟨hr.window, fun o ho => ?_, fun o t ho => ?_⟩
  · rw [show r.source.outputs.release.1.current = some o from ho] at hnone
    cases hnone
  · rw [show r.source.outputs.release.1.current = some o from ho] at hnone
    cases hnone

theorem start_keepsSeen (s : CaptureSettings) : (start s).KeepsSeen s :=
  ⟨rfl, nofun, nofun⟩

end GpuRun

theorem Attempt.eq_noChanges {a : Attempt} {fallback : CaptureResult} (h : a.resolve fallback = .noChanges)
    (hf : fallback ≠ .noChanges) : a = .result .noChanges := by
  cases a with
  | result r => exact congrArg Attempt.result h
  | fallBack isLate =>
    cases fallback with
    | noChanges => exact absurd rfl hf
    | _ => cases h

/-- Nothing changed only if the display's output is live and gave a frame lately. -/
theorem Attempting.noChanges {g after : GpuCapture} {call : GpuCall} {a : Attempt} {events : List OutputEvent}
    (h : Attempting g call a after events) (ha : a = .result .noChanges) :
    ∃ o t, g.outputs.current = some o ∧ o.device = call.display.name ∧ o.lastCapture = some t ∧
      call.surroundings.now - t < g.healthWindow := by
  cases h with
  | unavailable | blank =>
    rcases g.unavailable_cases _ with hu | hu <;> (rw [hu] at ha; cases ha)
  | faulted | captured => cases ha
  | @unchanged o outputs found hf =>
    rcases g.withoutFrame_cases o call.surroundings.now with ⟨-, hhealthy⟩ | hlate | hlate
    · unfold Output.isHealthy at hhealthy
      split at hhealthy
      · rename_i t ht
        exact ⟨o, t, hf.current_of_lastCapture ht, hf.current_eq.2, ht, of_decide_eq_true hhealthy⟩
      · cases hhealthy
    all_goals
      rw [hlate] at ha
      cases ha

/-- A capture that tells of no changes is about a display whose output gave a frame within the window. The
latest frame before it is of that same display exactly if an output was asked for that frame. -/
theorem noChanges_latest {s : CaptureSettings} {moves : List GpuMove} {r : GpuRun}
    (hplay : (GpuRun.start s).play moves = .ok r) {call : GpuCall} (hfallback : call.fallback ≠ .noChanges)
    {after : GpuCapture} {events : List OutputEvent}
    (hc : r.source.capture call.surroundings call.fallback call.display call.drawsPointer =
      .ok (.noChanges, after, events)) :
    (∃ latest a asked, r.log.find? GpuEntry.isShot = some (.attempted latest a asked) ∧
      (latest.display.name = call.display.name ↔ .acquire latest.display.name ∈ asked)) ∧
    ∃ shot f asked, .attempted shot (.result (.captured f)) asked ∈ r.log ∧ shot.display.name = call.display.name ∧
      call.surroundings.now - shot.surroundings.now < s.gpuHealthWindow := by
  have hr : r.KeepsSeen s := GpuRun.play_keeps (fun _ _ _ _ _ => GpuRun.keepsSeen_attempted)
    (fun _ => GpuRun.keepsSeen_shutdown) (GpuRun.start_keepsSeen s) hplay
  unfold GpuCapture.capture at hc
  split at hc
  · cases hc
  · rename_i a g events hattempt
    obtain ⟨hresolve, -⟩ := Prod.mk.inj (Except.ok.inj hc)
    have ha := Attempt.eq_noChanges hresolve hfallback
    obtain ⟨o, t, ho, hname, ht, hlate⟩ := (GpuCapture.attempting_attempt hattempt).noChanges ha
    rw [hr.window] at hlate
    obtain ⟨⟨latest, b, asked, hfind, hiff⟩, shot, f, found, hmem, hdevice, rfl⟩ := hr.seen o t ho ht
    exact ⟨⟨latest, b, asked, hfind, hname ▸ hiff⟩, shot, f, found, hmem, hdevice.trans hname, hlate⟩

/-- A capture at time zero, in a system where only the first display can have an output. -/
def GpuCall.still (device : String) (acquisition : Acquisition) (fallback : CaptureResult) : GpuCall :=
  ⟨⟨0, fun name => if name = "D1" then some ⟨⟨0, 0, 1, 1⟩, .identity⟩ else none, acquisition, none⟩, fallback,
    ⟨device, device, ⟨0, 0, 1, 1⟩, true, default⟩, false⟩

/-- A frame of the first display, and one of the second display, which has no output. -/
def alternatingMoves : List GpuMove :=
  [.capture (.still "D2" .timeout (.failed "lost" false)),
    .capture (.still "D1" (.frames 1 (some (.filled 1 1 .rgb 1)) []) (.failed "lost" false)),
    .capture (.still "D2" .timeout (.captured (.plain (.filled 1 1 .rgb 2))))]

theorem noChanges_latest_alternating :
    let call := GpuCall.still "D1" .timeout (.failed "lost" false)
    ∃ r after events, (GpuRun.start .standard).play alternatingMoves = .ok r ∧ call.fallback ≠ .noChanges ∧
      r.source.capture call.surroundings call.fallback call.display call.drawsPointer =
        .ok (.noChanges, after, events) ∧
      (∃ latest a asked, r.log.find? GpuEntry.isShot = some (.attempted latest a asked) ∧
        (latest.display.name = call.display.name ↔ .acquire latest.display.name ∈ asked)) ∧
      ∃ shot f asked, .attempted shot (.result (.captured f)) asked ∈ r.log ∧
        shot.display.name = call.display.name ∧
        call.surroundings.now - shot.surroundings.now < CaptureSettings.standard.gpuHealthWindow := by
  intro call
  have hne : call.fallback ≠ .noChanges := by simp [call, GpuCall.still]
  obtain ⟨r, hplay, after, events, hc⟩ : ∃ r, (GpuRun.start .standard).play alternatingMoves = .ok r ∧
      ∃ after events, r.source.capture call.surroundings call.fallback call.display call.drawsPointer =
        .ok (.noChanges, after, events) := ⟨_, rfl, _, _, rfl⟩
  exact ⟨r, after, events, hplay, hne, hc, noChanges_latest hplay hne hc⟩

/-- The answer is about the first display, while the latest frame is of the second. -/
theorem noChanges_of_other_display :
    let call := GpuCall.still "D1" .timeout (.failed "lost" false)
    ∃ r after events latest a asked, (GpuRun.start .standard).play alternatingMoves = .ok r ∧
      r.source.capture call.surroundings call.fallback call.display call.drawsPointer =
        .ok (.noChanges, after, events) ∧
      r.log.find? GpuEntry.isShot = some (.attempted latest a asked) ∧
      latest.display.name ≠ call.display.name :=
  ⟨_, _, _, _, _, _, rfl, rfl, rfl, by decide⟩

end Screencast
