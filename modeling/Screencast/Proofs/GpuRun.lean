import Screencast.Capture.Gpu

/-!
# Runs of GPU capture

A run is a list of captures, each with the answers of its surroundings, and of shutdowns; its log keeps
what each of them came to, the latest first. `Outputs.Found` and `Attempting` list what the
choice of an output and an attempt can do. The live output never belongs to a blocked display.
-/

namespace Screencast

/-! ### Outputs -/

theorem Faults.holds_purge {f : Faults} {name : String} (h : f.holds name = false) (now : Micros) :
    (f.purge now).holds name = false := by
  unfold holds purge at *
  simp only [List.any_eq_false, beq_iff_eq, List.mem_filter, and_imp] at h ⊢
  exact fun e he _ => h e he

namespace Outputs

/-- The requests by which a live output is given up. -/
def releases (s : Outputs) : List OutputEvent := (s.current.map fun o => .release o.device).toList

/-- How the output of a device is found. -/
inductive Found (s : Outputs) (now : Micros) (make : String → Option OutputGeometry) (device : String) :
    Option Output → Outputs → List OutputEvent → Prop where
  | blocked (faults : (s.faults.purge now).holds device = true) :
      Found s now make device none { s with faults := s.faults.purge now } []
  | live {o : Output} (faults : (s.faults.purge now).holds device = false) (current : s.current = some o)
      (device_eq : o.device = device) : Found s now make device (some o) { s with faults := s.faults.purge now } []
  | made {geometry : OutputGeometry} (faults : (s.faults.purge now).holds device = false)
      (other : ∀ o, s.current = some o → o.device ≠ device) (answer : make device = some geometry) :
      Found s now make device (some ⟨device, geometry, none, none⟩)
        ⟨some ⟨device, geometry, none, none⟩, s.faults.purge now, s.faultTtl⟩ (s.releases ++ [.create device])
  | refused (faults : (s.faults.purge now).holds device = false)
      (other : ∀ o, s.current = some o → o.device ≠ device) (answer : make device = none) :
      Found s now make device none ⟨none, (s.faults.purge now).insert device (now + s.faultTtl), s.faultTtl⟩
        (s.releases ++ [.create device])

theorem found_get (s : Outputs) (now : Micros) (make : String → Option OutputGeometry) (device : String) :
    s.Found now make device (s.get now make device).1 (s.get now make device).2.1 (s.get now make device).2.2 := by
  unfold get Faults.contains
  cases hb : (s.faults.purge now).holds device with
  | true => exact .blocked hb
  | false =>
    cases hc : s.current with
    | none =>
      have other : ∀ o, s.current = some o → o.device ≠ device := by simp [hc]
      have hreleases : s.releases = [] := by simp [releases, hc]
      simp only [Bool.false_eq_true, if_false, create]
      cases ha : make device with
      | none => simpa [hreleases, hc] using Found.refused hb other ha
      | some geometry => simpa [hreleases, hc] using Found.made hb other ha
    | some o =>
      simp only [Bool.false_eq_true, if_false]
      split
      · rename_i hd
        simpa [hc] using Found.live hb hc hd
      · rename_i hd
        have other : ∀ u, s.current = some u → u.device ≠ device := by
          intro u hu
          rw [hc] at hu
          exact Option.some.inj hu ▸ hd
        have hreleases : s.releases = [.release o.device] := by simp [releases, hc]
        simp only [create]
        cases ha : make device with
        | none => simpa [hreleases] using Found.refused hb other ha
        | some geometry => simpa [hreleases] using Found.made hb other ha

def IsClear (s : Outputs) : Prop := ∀ o, s.current = some o → s.faults.holds o.device = false

namespace Found

variable {s after : Outputs} {now : Micros} {make : String → Option OutputGeometry} {device : String}
  {o : Output} {events : List OutputEvent}

/-- What is found is live from then on. -/
theorem current_eq (h : s.Found now make device (some o) after events) :
    after.current = some o ∧ o.device = device := by
  cases h with
  | live _ current device_eq => exact ⟨current, device_eq⟩
  | made => exact ⟨rfl, rfl⟩

theorem isClear {found : Option Output} (h : s.Found now make device found after events) (hs : s.IsClear) :
    after.IsClear := by
  cases h with
  | blocked => exact fun u hu => Faults.holds_purge (hs u hu) now
  | live => exact fun u hu => Faults.holds_purge (hs u hu) now
  | made faults =>
    intro u hu
    cases hu
    exact faults
  | refused => exact fun u hu => nomatch hu

/-- An output that is live for its display stays, and nothing is asked for it. -/
theorem of_current (h : s.Found now make device (some o) after events) {u : Output} (hu : s.current = some u)
    (hd : u.device = device) : u = o ∧ events = [] := by
  cases h with
  | live _ current => exact ⟨Option.some.inj (hu.symm.trans current), rfl⟩
  | made _ other => exact absurd hd (other u hu)

/-- A display without an output is blocked, or there is no live output at all. -/
theorem none_cases (h : s.Found now make device none after events) :
    (s.faults.holds device = true ∧ after.current = s.current ∧ events = []) ∨ after.current = none := by
  cases h with
  | blocked faults =>
    refine .inl ⟨?_, rfl, rfl⟩
    cases hb : s.faults.holds device with
    | true => rfl
    | false => rw [Faults.holds_purge hb now] at faults; cases faults
  | refused => exact .inr rfl

end Found

theorem isClear_recycle (s : Outputs) (hs : s.IsClear) (now : Micros) : (s.recycle now).1.IsClear := by
  unfold recycle
  split
  · exact fun u hu => nomatch hu
  · exact hs

end Outputs

/-! ### Attempts -/

/-- One capture of a display, with the answers of its surroundings. -/
structure GpuCall where
  surroundings : Surroundings
  /-- What the fallback would answer. -/
  fallback : CaptureResult
  display : Display
  drawsPointer : Bool

/-- The new picture that a wait brought, with the areas that changed. Where none is counted only the pointer moved. -/
def Acquisition.picture? : Acquisition → Option (Frame × List Rect)
  | .frames count (some frame) dirty => if count = 0 then none else some (frame, dirty)
  | _ => none

inductive Attempting (g : GpuCapture) (call : GpuCall) : Attempt → GpuCapture → List OutputEvent → Prop where
  | unavailable {outputs : Outputs} {events : List OutputEvent}
      (found : g.outputs.Found call.surroundings.now call.surroundings.make call.display.name none outputs events) :
      Attempting g call (g.unavailable "gpu output unavailable") { g with outputs } events
  | unchanged {o : Output} {outputs : Outputs} {events : List OutputEvent}
      (found : g.outputs.Found call.surroundings.now call.surroundings.make call.display.name (some o) outputs events)
      (picture : call.surroundings.acquisition.picture? = none) :
      Attempting g call (g.withoutFrame o call.surroundings.now) { g with outputs } (events ++ [.acquire o.device])
  | faulted {o : Output} {outputs : Outputs} {events : List OutputEvent} {reason : String}
      (found : g.outputs.Found call.surroundings.now call.surroundings.make call.display.name (some o) outputs events)
      (acquisition : call.surroundings.acquisition = .fault reason) :
      Attempting g call (.result (.failed reason true)) { g with outputs := (outputs.recycle call.surroundings.now).1 }
        (events ++ [.acquire o.device] ++ (outputs.recycle call.surroundings.now).2)
  | blank {o : Output} {outputs : Outputs} {events : List OutputEvent} {raw : Frame} {dirty : List Rect}
      (found : g.outputs.Found call.surroundings.now call.surroundings.make call.display.name (some o) outputs events)
      (picture : call.surroundings.acquisition.picture? = some (raw, dirty)) :
      Attempting g call (g.unavailable "gpu returned a blank frame") ({ g with outputs }.keep o)
        (events ++ [.acquire o.device])
  | captured {o : Output} {outputs : Outputs} {events : List OutputEvent} {raw upright frame : Frame}
      {dirty rects : List Rect} {pointerArea : Option Rect}
      (found : g.outputs.Found call.surroundings.now call.surroundings.make call.display.name (some o) outputs events)
      (picture : call.surroundings.acquisition.picture? = some (raw, dirty))
      (turned : raw.rotate o.geometry.rotation = .ok upright)
      (drawn : GpuCapture.withPointer upright (dirty.map fun r => r.rotate o.geometry.rotation raw.width raw.height) o
        call.surroundings.pointer call.display.area call.drawsPointer = .ok (frame, rects, pointerArea)) :
      Attempting g call (.result (.captured ⟨frame, true, some rects, false⟩))
        ({ g with outputs }.keep { o with lastCapture := some call.surroundings.now, pointerArea })
        (events ++ [.acquire o.device])

namespace GpuCapture

variable {g after : GpuCapture} {call : GpuCall} {a : Attempt} {events : List OutputEvent}

theorem unavailable_cases (g : GpuCapture) (reason : String) :
    g.unavailable reason = .fallBack false ∨ g.unavailable reason = .result (.failed reason false) := by
  unfold unavailable
  split
  · exact .inl rfl
  · exact .inr rfl

theorem withoutFrame_cases (g : GpuCapture) (o : Output) (now : Micros) :
    (g.withoutFrame o now = .result .noChanges ∧ o.isHealthy now g.healthWindow = true) ∨
      g.withoutFrame o now = .fallBack true ∨ g.withoutFrame o now = .result .timedOut := by
  unfold withoutFrame
  split
  · exact .inl ⟨rfl, ‹_›⟩
  · split
    · exact .inr (.inl rfl)
    · exact .inr (.inr rfl)

theorem attempting_picture {o : Output} {outputs : Outputs} {found : List OutputEvent} {raw : Frame} {dirty : List Rect}
    (hf : g.outputs.Found call.surroundings.now call.surroundings.make call.display.name (some o) outputs found)
    (hp : call.surroundings.acquisition.picture? = some (raw, dirty)) {u : Output}
    (h : { g with outputs }.withFrame o raw dirty call.surroundings call.display.area call.drawsPointer = .ok (a, u)) :
    Attempting g call a ({ g with outputs }.keep u) (found ++ [.acquire o.device]) := by
  unfold withFrame at h
  split at h
  · cases h
  · cases h
    exact .blank hf hp
  · dsimp only at h
    split at h
    · cases h
    · rename_i upright hturned
      split at h
      · cases h
      · rename_i frame rects pointerArea hdrawn
        cases h
        exact .captured hf hp hturned hdrawn

theorem attempting_attempt (h : g.attempt call.surroundings call.display call.drawsPointer = .ok (a, after, events)) :
    Attempting g call a after events := by
  unfold attempt at h
  have hf := g.outputs.found_get call.surroundings.now call.surroundings.make call.display.name
  generalize g.outputs.get call.surroundings.now call.surroundings.make call.display.name = got at h hf
  obtain ⟨output, outputs, found⟩ := got
  dsimp only at h hf
  cases output with
  | none =>
    cases h
    exact .unavailable hf
  | some o =>
    dsimp only at h
    split at h
    · rename_i hq
      cases h
      exact .unchanged hf (by rw [hq]; rfl)
    · rename_i reason hq
      cases h
      exact .faulted hf hq
    · rename_i count frame dirty hq
      split at h
      · cases h
        exact .unchanged hf (by rw [hq]; rfl)
      · rename_i raw
        split at h
        · rename_i hcount
          cases h
          exact .unchanged hf (by rw [hq]; exact if_pos hcount)
        · rename_i hcount
          split at h
          · cases h
          · rename_i hw
            cases h
            exact attempting_picture hf (by rw [hq]; exact if_neg hcount) hw

end GpuCapture

/-! ### Runs -/

inductive GpuMove where
  | capture (call : GpuCall)
  | shutdown

/-- What came of a move, with the requests made of the system. -/
inductive GpuEntry where
  | attempted (call : GpuCall) (attempt : Attempt) (events : List OutputEvent)
  | shutDown (events : List OutputEvent)

/-- What the capture answered. -/
def GpuEntry.result? : GpuEntry → Option CaptureResult
  | .attempted call attempt _ => some (attempt.resolve call.fallback)
  | .shutDown _ => none

/-- A source and what happened up to it. -/
structure GpuRun where
  source : GpuCapture
  /-- The latest entry comes first. -/
  log : List GpuEntry

namespace GpuRun

def start (s : CaptureSettings) : GpuRun := ⟨.new s, []⟩

def next (r : GpuRun) : GpuMove → Except StreamError GpuRun
  | .capture call =>
    match r.source.attempt call.surroundings call.display call.drawsPointer with
    | .error e => .error e
    | .ok (a, source, events) => .ok ⟨source, .attempted call a events :: r.log⟩
  | .shutdown => .ok ⟨r.source.shutdown.1, .shutDown r.source.shutdown.2 :: r.log⟩

def play (r : GpuRun) : List GpuMove → Except StreamError GpuRun
  | [] => .ok r
  | mv :: rest =>
    match r.next mv with
    | .error e => .error e
    | .ok after => after.play rest

/-- What captures and shutdowns keep holds after any number of them. -/
theorem play_keeps {P : GpuRun → Prop}
    (attempted : ∀ (r : GpuRun) (call : GpuCall) (a : Attempt) (source : GpuCapture) (events : List OutputEvent),
      Attempting r.source call a source events → P r → P ⟨source, .attempted call a events :: r.log⟩)
    (shutDown : ∀ r : GpuRun, P r → P ⟨r.source.shutdown.1, .shutDown r.source.shutdown.2 :: r.log⟩)
    {r after : GpuRun} {moves : List GpuMove} (h : P r) (hplay : r.play moves = .ok after) : P after := by
  induction moves generalizing r with
  | nil =>
    cases hplay
    exact h
  | cons mv rest ih =>
    unfold play at hplay
    split at hplay
    · cases hplay
    · rename_i next hnext
      refine ih ?_ hplay
      cases mv with
      | shutdown =>
        cases hnext
        exact shutDown r h
      | capture call =>
        unfold GpuRun.next at hnext
        dsimp only at hnext
        split at hnext
        · cases hnext
        · rename_i hattempt
          cases hnext
          exact attempted r call _ _ _ (GpuCapture.attempting_attempt hattempt) h

end GpuRun
end Screencast
