import Screencast.Proofs.Difference
import Screencast.Proofs.GpuRun

/-!
# Dirty areas of captured pictures

An output tells which areas of its raw picture changed since the raw picture before. A captured frame is
that picture turned upright, with the pointer in it. Its dirty areas cover all that differs from the
frame before if the output stayed live and handed out nothing in between: the raw changes are turned along,
and the pointer changes no more than the area it was drawn in before and the one it is drawn in now.
-/

namespace Screencast

/-! ### Raw pictures -/

namespace GpuEntry

/-- The new picture that the output handed out, if one was asked. -/
def handed? : GpuEntry → Option (Frame × List Rect)
  | .attempted call _ events =>
    if .acquire call.display.name ∈ events then call.surroundings.acquisition.picture? else none
  | .shutDown _ => none

/-- An output was asked for. -/
def isCreation : GpuEntry → Bool
  | .attempted call _ events => .create call.display.name ∈ events
  | .shutDown _ => false

end GpuEntry

/-- The last picture of the output that was made last. -/
def lastRaw : List GpuEntry → Option Frame
  | [] => none
  | e :: log =>
    match e.handed? with
    | some picture => some picture.1
    | none => if e.isCreation then none else lastRaw log

/-- A raw picture in good shape and not too large, whose areas lie inside it. It is of the size and the format of
the one before, if there was one, and the areas cover all that changed since. -/
structure IsTracked (raw : Frame) (dirty : List Rect) (before : Option Frame) : Prop where
  wellFormed : raw.WellFormed
  width : raw.width.toNat < 2 ^ 30
  height : raw.height.toNat < 2 ^ 30
  liesIn : ∀ r ∈ dirty, r.LiesIn raw.width raw.height
  changes : ∀ last, before = some last → raw.DiffersWithin last dirty

/-- Outputs keep track: each picture follows the one that the same output handed out before. -/
def Tracks : List GpuEntry → Prop
  | [] => True
  | e :: log =>
    (∀ raw dirty, e.handed? = some (raw, dirty) → IsTracked raw dirty (if e.isCreation then none else lastRaw log)) ∧
      Tracks log

/-! ### The pointer -/

/-- The areas that hold the pointer, if it is drawn at all. -/
def drawnAreas (drawsPointer : Bool) (area : Option Rect) : List Rect := if drawsPointer then area.toList else []

theorem withPointer_differs {upright frame : Frame} (hu : upright.WellFormed) {dirty rects : List Rect} {o : Output}
    {pointer : Option Pointer} {area : Area} {drawsPointer : Bool} {pointerArea : Option Rect}
    (h : GpuCapture.withPointer upright dirty o pointer area drawsPointer = .ok (frame, rects, pointerArea)) :
    frame.DiffersWithin upright (drawnAreas drawsPointer pointerArea) ∧
      ∀ r ∈ drawnAreas drawsPointer pointerArea ++ (dirty ++ drawnAreas drawsPointer o.pointerArea), r ∈ rects := by
  unfold GpuCapture.withPointer at h
  cases drawsPointer with
  | false =>
    cases h
    exact ⟨.refl _ _, by simp [drawnAreas]⟩
  | true =>
    simp only [if_true] at h
    cases pointer with
    | none =>
      cases h
      exact ⟨.refl _ _, by simp [drawnAreas]⟩
    | some p =>
      dsimp only at h
      split at h
      · cases h
      · rename_i hdrawn
        cases h
        refine ⟨Frame.differsWithin_drawPointer hu hdrawn, fun r hr => ?_⟩
        simp only [drawnAreas, if_true, List.mem_append] at hr ⊢
        exact hr.symm

/-! ### Attempts -/

namespace Attempting

variable {g after : GpuCapture} {call : GpuCall} {a : Attempt} {events : List OutputEvent}

theorem captured_of_eq (h : Attempting g call a after events) {f : CapturedFrame} (ha : a = .result (.captured f)) :
    ∃ o outputs found raw dirty upright rects pointerArea,
      g.outputs.Found call.surroundings.now call.surroundings.make call.display.name (some o) outputs found ∧
      call.surroundings.acquisition.picture? = some (raw, dirty) ∧ raw.rotate o.geometry.rotation = .ok upright ∧
      GpuCapture.withPointer upright (dirty.map fun r => r.rotate o.geometry.rotation raw.width raw.height) o
        call.surroundings.pointer call.display.area call.drawsPointer = .ok (f.frame, rects, pointerArea) ∧
      f.dirtyRects = some rects ∧
      after.outputs.current = some { o with lastCapture := some call.surroundings.now, pointerArea } ∧
      events = found ++ [.acquire o.device] := by
  cases h with
  | @captured o outputs found raw upright frame dirty rects pointerArea hf hpicture hturned hdrawn =>
    cases ha
    exact ⟨o, outputs, found, raw, dirty, upright, rects, pointerArea, hf, hpicture, hturned, hdrawn, rfl, rfl, rfl⟩
  | unavailable | blank =>
    rcases g.unavailable_cases _ with hu | hu <;> (rw [hu] at ha; cases ha)
  | @unchanged o =>
    rcases g.withoutFrame_cases o call.surroundings.now with ⟨hw, -⟩ | hw | hw <;> (rw [hw] at ha; cases ha)
  | faulted => cases ha

theorem unchanged_of_eq (h : Attempting g call a after events)
    (ha : a = .result .noChanges ∨ a = .result .timedOut) :
    ∃ o outputs found,
      g.outputs.Found call.surroundings.now call.surroundings.make call.display.name (some o) outputs found ∧
      call.surroundings.acquisition.picture? = none ∧ after.outputs = outputs ∧
      events = found ++ [.acquire o.device] := by
  cases h with
  | @unchanged o outputs found hf hpicture => exact ⟨o, outputs, found, hf, hpicture, rfl, rfl⟩
  | unavailable | blank =>
    rcases g.unavailable_cases _ with hu | hu <;> (rw [hu] at ha; rcases ha with ha | ha <;> cases ha)
  | faulted | captured => rcases ha with ha | ha <;> cases ha

end Attempting

/-! ### Runs -/

def CaptureResult.isIdle : CaptureResult → Bool
  | .noChanges | .timedOut => true
  | _ => false

namespace GpuEntry

/-- The captured display. -/
def device? : GpuEntry → Option String
  | .attempted call _ _ => some call.display.name
  | .shutDown _ => none

/-- A capture of the device that brought neither a frame nor a failure. -/
def IsIdle (device : String) (e : GpuEntry) : Prop :=
  e.device? = some device ∧ e.result?.any CaptureResult.isIdle = true

/-- The fallback would bring a frame or fail. -/
def FallsBack : GpuEntry → Prop
  | .attempted call _ _ => call.fallback.isIdle = false
  | .shutDown _ => True

end GpuEntry

theorem Attempt.idle_cases {a : Attempt} {fallback : CaptureResult} (h : (a.resolve fallback).isIdle = true)
    (hf : fallback.isIdle = false) : a = .result .noChanges ∨ a = .result .timedOut := by
  cases a with
  | result r => cases r <;> first | exact .inl rfl | exact .inr rfl | cases h
  | fallBack isLate =>
    cases fallback with
    | noChanges | timedOut => cases hf
    | captured | failed => cases h

namespace GpuRun

variable {r : GpuRun}

/-- The frame is the last raw picture of the live output, turned and with the pointer where the output
remembers it. -/
def Shows (r : GpuRun) (call : GpuCall) (frame : Frame) : Prop :=
  ∃ o raw upright, r.source.outputs.current = some o ∧ o.device = call.display.name ∧ lastRaw r.log = some raw ∧
    raw.IsTurned o.geometry.rotation upright ∧
    frame.DiffersWithin upright (drawnAreas call.drawsPointer o.pointerArea)

theorem handed_attempted {call : GpuCall} (a : Attempt) {o : Output} (found : List OutputEvent)
    (ho : o.device = call.display.name) :
    (GpuEntry.attempted call a (found ++ [.acquire o.device])).handed? = call.surroundings.acquisition.picture? := by
  refine if_pos ?_
  rw [ho]
  simp

theorem shows_captured {call : GpuCall} {f : CapturedFrame} {source : GpuCapture} {events : List OutputEvent}
    (h : Attempting r.source call (.result (.captured f)) source events)
    (ht : Tracks (.attempted call (.result (.captured f)) events :: r.log)) :
    Shows ⟨source, .attempted call (.result (.captured f)) events :: r.log⟩ call f.frame := by
  obtain ⟨o, outputs, found, raw, dirty, upright, rects, pointerArea, hf, hpicture, hturned, hdrawn, -, hcurrent,
    rfl⟩ := h.captured_of_eq rfl
  have hhanded := (handed_attempted (.result (.captured f)) found hf.current_eq.2).trans hpicture
  have htracked := ht.1 raw dirty hhanded
  have hup := Frame.isTurned_rotate htracked.wellFormed htracked.width htracked.height hturned
  refine ⟨_, raw, upright, hcurrent, hf.current_eq.2, ?_, hup, (withPointer_differs hup.wellFormed hdrawn).1⟩
  unfold lastRaw
  rw [hhanded]

theorem shows_idle {call p : GpuCall} {frame : Frame} (hr : r.Shows p frame) {a : Attempt} {source : GpuCapture}
    {events : List OutputEvent} (h : Attempting r.source call a source events)
    (hname : call.display.name = p.display.name) (ha : a = .result .noChanges ∨ a = .result .timedOut) :
    Shows ⟨source, .attempted call a events :: r.log⟩ p frame := by
  obtain ⟨u, raw, upright, hu, hdevice, hraw, hturned, hdiffers⟩ := hr
  obtain ⟨o, outputs, found, hf, hpicture, hsource, rfl⟩ := h.unchanged_of_eq ha
  obtain ⟨rfl, rfl⟩ := hf.of_current hu (hdevice.trans hname.symm)
  refine ⟨u, raw, upright, ?_, hdevice, ?_, hturned, hdiffers⟩
  · rw [hsource]
    exact hf.current_eq.1
  · unfold lastRaw
    rw [handed_attempted a [] hf.current_eq.2, hpicture]
    exact hraw

/-- A frame of an output stays shown while nothing new comes for its display. -/
def KeepsShown (r : GpuRun) : Prop :=
  Tracks r.log → (∀ e ∈ r.log, e.FallsBack) → ∀ between p shown asked before,
    r.log = between ++ .attempted p (.result (.captured shown)) asked :: before →
    (∀ e ∈ between, e.IsIdle p.display.name) → r.Shows p shown.frame

theorem keepsShown_attempted {call : GpuCall} {a : Attempt} {source : GpuCapture} {events : List OutputEvent}
    (h : Attempting r.source call a source events) (hr : r.KeepsShown) :
    KeepsShown ⟨source, .attempted call a events :: r.log⟩ := by
  intro ht hfalls between p shown asked before hlog hidle
  cases between with
  | nil =>
    -- The shown frame is the one that was captured just now.
    obtain ⟨⟨rfl, rfl, rfl⟩, rfl⟩ : (call = p ∧ a = .result (.captured shown) ∧ events = asked) ∧ r.log = before := by
      simpa using hlog
    exact shows_captured h ht
  | cons e between =>
    -- It was shown before, and this capture of the same display brought nothing.
    obtain ⟨rfl, hrest⟩ := List.cons.inj hlog
    obtain ⟨hname, hresult⟩ := hidle _ List.mem_cons_self
    have hshown : r.Shows p shown.frame :=
      hr ht.2 (fun e he => hfalls e (List.mem_cons_of_mem _ he)) between p shown asked before hrest
        fun e he => hidle e (List.mem_cons_of_mem _ he)
    exact shows_idle hshown h (Option.some.inj hname) (Attempt.idle_cases hresult (hfalls _ List.mem_cons_self))

theorem keepsShown_shutDown {source : GpuCapture} {events : List OutputEvent} :
    KeepsShown ⟨source, .shutDown events :: r.log⟩ := by
  intro ht hfalls between p shown asked before hlog hidle
  cases between with
  | nil => cases hlog
  | cons e between =>
    obtain ⟨rfl, -⟩ := List.cons.inj hlog
    obtain ⟨hname, -⟩ := hidle _ List.mem_cons_self
    cases hname

end GpuRun

/-- Of two frames of one display with nothing new between them, the second differs from the first only where its
dirty areas say so. -/
theorem dirtyRects_cover {s : CaptureSettings} {moves : List GpuMove} {r : GpuRun}
    (hplay : (GpuRun.start s).play moves = .ok r) (hfalls : ∀ e ∈ r.log, e.FallsBack) {p n : GpuCall}
    {shown new : CapturedFrame} {asked events : List OutputEvent} {between before : List GpuEntry} {after : GpuCapture}
    (hlog : r.log = between ++ .attempted p (.result (.captured shown)) asked :: before)
    (hidle : ∀ e ∈ between, e.IsIdle p.display.name) (hname : n.display.name = p.display.name)
    (hdraws : n.drawsPointer = p.drawsPointer)
    (hnew : r.source.attempt n.surroundings n.display n.drawsPointer = .ok (.result (.captured new), after, events))
    (htracks : Tracks (.attempted n (.result (.captured new)) events :: r.log)) :
    ∃ rects, new.dirtyRects = some rects ∧ new.frame.width = shown.frame.width ∧
      new.frame.height = shown.frame.height ∧
      ∀ x y, new.frame.Differ shown.frame x y → ∃ rect ∈ rects, rect.Covers x y := by
  have hkeeps : r.KeepsShown := GpuRun.play_keeps (fun _ _ _ _ _ => GpuRun.keepsShown_attempted)
    (fun _ _ => GpuRun.keepsShown_shutDown) (by intro _ _ between _ _ _ _ hnil; cases between <;> cases hnil) hplay
  obtain ⟨u, last, upright', hu, hdevice, hraw, hlast, hshown⟩ :=
    hkeeps htracks.2 hfalls between p shown asked before hlog hidle
  obtain ⟨o, outputs, found, raw, dirty, upright, rects, pointerArea, hf, hpicture, hturned, hdrawn, hrects, -, rfl⟩ :=
    (GpuCapture.attempting_attempt hnew).captured_of_eq rfl
  obtain ⟨rfl, rfl⟩ := hf.of_current hu (hdevice.trans hname.symm)
  have htracked := htracks.1 raw dirty ((GpuRun.handed_attempted _ [] hf.current_eq.2).trans hpicture)
  have hup := Frame.isTurned_rotate htracked.wellFormed htracked.width htracked.height hturned
  obtain ⟨hpointer, hsub⟩ := withPointer_differs hup.wellFormed hdrawn
  -- From the new frame to its picture, to the picture before, and on to the frame that showed that one.
  have hturn := (htracked.changes last hraw).turn hup hlast htracked.liesIn
  have hback := hshown.symm
  rw [← hdraws] at hback
  obtain ⟨⟨hw, hh, -⟩, hcover⟩ := (hpointer.trans (hturn.trans hback)).mono hsub
  exact ⟨rects, hrects, hw, hh, hcover⟩

namespace Turned

/-- A capture of an output that stands on its side, with a pointer of one pixel in row `y`. -/
def call (acquisition : Acquisition) (y : Int32) : GpuCall :=
  ⟨⟨0, fun _ => some ⟨⟨0, 0, 2, 1⟩, .quarter⟩, acquisition, some ⟨0, y, 0, 0, 1, 1, ⟨#[9, 9, 9, 255]⟩⟩⟩,
    .failed "lost" false, ⟨"D1", "Display D1", ⟨0, 0, 1, 2⟩, true, default⟩, true⟩

def first : GpuCall := call (.frames 1 (some (.filled 2 1 .rgb 1)) []) 0

def second : GpuCall := call (.frames 1 (some (.filled 2 1 .rgb 2)) [⟨0, 0, 2, 1⟩]) 1

def shown : CapturedFrame := ⟨⟨1, 2, 3, .rgb, ⟨#[9, 9, 9, 1, 1, 1]⟩⟩, true, some [⟨0, 0, 1, 1⟩], false⟩

def new : CapturedFrame :=
  ⟨⟨1, 2, 3, .rgb, ⟨#[2, 2, 2, 9, 9, 9]⟩⟩, true, some [⟨0, 0, 1, 2⟩, ⟨0, 0, 1, 1⟩, ⟨0, 1, 1, 1⟩], false⟩

/-- After the first picture and a wait in which nothing came. -/
def run : GpuRun :=
  ⟨(GpuCapture.new .standard).keep ⟨"D1", ⟨⟨0, 0, 2, 1⟩, .quarter⟩, some 0, some ⟨0, 0, 1, 1⟩⟩,
    [.attempted (call .timeout 1) (.result .noChanges) [.acquire "D1"],
      .attempted first (.result (.captured shown)) [.create "D1", .acquire "D1"]]⟩

theorem play_run : (GpuRun.start .standard).play [.capture first, .capture (call .timeout 1)] = .ok run := rfl

theorem attempt_second : ∃ after, run.source.attempt second.surroundings second.display second.drawsPointer =
    .ok (.result (.captured new), after, [.acquire "D1"]) := ⟨_, rfl⟩

theorem tracks_second : Tracks (.attempted second (.result (.captured new)) [.acquire "D1"] :: run.log) := by
  refine ⟨fun raw dirty h => ?_, fun raw dirty h => (by cases h), fun raw dirty h => ?_, trivial⟩ <;> cases h
  · refine ⟨by decide, by decide, by decide, by decide, fun last hlast => ⟨?_, fun x y hd => ?_⟩⟩
    · cases hlast
      exact ⟨rfl, rfl, rfl⟩
    · exact ⟨_, List.mem_singleton_self _, ⟨Nat.zero_le x, hd.1.1⟩, Nat.zero_le y, hd.1.2⟩
  · exact ⟨by decide, by decide, by decide, nofun, nofun⟩

end Turned

/-- The picture changes and the pointer moves, after a wait in which nothing came. -/
theorem dirtyRects_cover_turned :
    let idle : GpuEntry := .attempted (Turned.call .timeout 1) (.result .noChanges) [.acquire "D1"]
    (GpuRun.start .standard).play [.capture Turned.first, .capture (Turned.call .timeout 1)] = .ok Turned.run ∧
      (∀ e ∈ Turned.run.log, e.FallsBack) ∧
      Turned.run.log = [idle] ++ .attempted Turned.first (.result (.captured Turned.shown))
        [.create "D1", .acquire "D1"] :: [] ∧
      (∀ e ∈ [idle], e.IsIdle Turned.first.display.name) ∧
      Turned.second.display.name = Turned.first.display.name ∧
      Turned.second.drawsPointer = Turned.first.drawsPointer ∧
      (∃ after, Turned.run.source.attempt Turned.second.surroundings Turned.second.display Turned.second.drawsPointer =
        .ok (.result (.captured Turned.new), after, [.acquire "D1"])) ∧
      Tracks (.attempted Turned.second (.result (.captured Turned.new)) [.acquire "D1"] :: Turned.run.log) ∧
      ∃ rects, Turned.new.dirtyRects = some rects ∧ Turned.new.frame.width = Turned.shown.frame.width ∧
        Turned.new.frame.height = Turned.shown.frame.height ∧
        ∀ x y, Turned.new.frame.Differ Turned.shown.frame x y → ∃ rect ∈ rects, rect.Covers x y := by
  intro idle
  have hfalls : ∀ e ∈ Turned.run.log, e.FallsBack := by
    rintro e (_ | ⟨_, _ | ⟨_, ⟨⟩⟩⟩) <;> rfl
  have hidle : ∀ e ∈ [idle], e.IsIdle Turned.first.display.name := by
    intro e he
    obtain rfl := List.mem_singleton.mp he
    exact ⟨rfl, rfl⟩
  have hname : Turned.second.display.name = Turned.first.display.name := rfl
  have hdraws : Turned.second.drawsPointer = Turned.first.drawsPointer := rfl
  obtain ⟨after, hnew⟩ := Turned.attempt_second
  exact ⟨Turned.play_run, hfalls, rfl, hidle, hname, hdraws, ⟨after, hnew⟩, Turned.tracks_second,
    dirtyRects_cover Turned.play_run hfalls rfl hidle hname hdraws hnew Turned.tracks_second⟩

end Screencast
