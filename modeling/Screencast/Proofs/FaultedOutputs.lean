import Screencast.Proofs.GpuRun

/-!
# Faulted outputs are left alone

A device fails when the system refuses it an output or when a wait on its output ends in a fault. The
cache then blocks it for the time to live, so at any moment it blocks exactly the devices that failed
less than that time ago. A capture of a blocked device asks the system for nothing; any other asks for
an output or waits on the live one. Outputs are asked for only while none is live.
-/

namespace Screencast

/-! ### The cache -/

namespace Faults

theorem holds_eq_true {f : Faults} {name : String} : f.holds name = true ↔ ∃ expiry, (name, expiry) ∈ f.entries := by
  unfold holds
  rw [List.any_eq_true]
  constructor
  · rintro ⟨⟨n, expiry⟩, hmem, hn⟩
    exact ⟨expiry, beq_iff_eq.mp hn ▸ hmem⟩
  · rintro ⟨expiry, hmem⟩
    exact ⟨(name, expiry), hmem, beq_iff_eq.mpr rfl⟩

theorem mem_purge {f : Faults} {now expiry : Micros} {name : String} :
    (name, expiry) ∈ (f.purge now).entries ↔ (name, expiry) ∈ f.entries ∧ now < expiry := by
  unfold purge
  rw [List.mem_filter, decide_eq_true_eq]

theorem mem_insert {f : Faults} {device name : String} {expiry e : Micros} :
    (name, e) ∈ (f.insert device expiry).entries ↔
      name = device ∧ e = expiry ∨ name ≠ device ∧ (name, e) ∈ f.entries := by
  unfold insert
  rw [List.mem_cons, Prod.mk.injEq, List.mem_filter, bne_iff_ne, and_comm (a := _ ∈ _)]

/-- What was forgotten at one time is forgotten at every later one. -/
theorem holds_purge_purge {f : Faults} {p now : Micros} (h : p ≤ now) (name : String) :
    ((f.purge p).purge now).holds name = true ↔ (f.purge now).holds name = true := by
  simp only [holds_eq_true, mem_purge]
  constructor
  · rintro ⟨e, ⟨hmem, -⟩, hlt⟩
    exact ⟨e, hmem, hlt⟩
  · rintro ⟨e, hmem, hlt⟩
    exact ⟨e, ⟨hmem, Int.lt_of_le_of_lt h hlt⟩, hlt⟩

theorem holds_purge_insert {f : Faults} {device name : String} {expiry now : Micros} :
    ((f.insert device expiry).purge now).holds name = true ↔
      name = device ∧ now < expiry ∨ name ≠ device ∧ (f.purge now).holds name = true := by
  simp only [holds_eq_true, mem_purge, mem_insert]
  constructor
  · rintro ⟨e, ⟨rfl, rfl⟩ | ⟨hne, hmem⟩, hlt⟩
    · exact .inl ⟨rfl, hlt⟩
    · exact .inr ⟨hne, e, hmem, hlt⟩
  · rintro (⟨rfl, hlt⟩ | ⟨hne, e, hmem, hlt⟩)
    · exact ⟨expiry, .inl ⟨rfl, rfl⟩, hlt⟩
    · exact ⟨e, .inr ⟨hne, hmem⟩, hlt⟩

end Faults

/-! ### Live outputs -/

/-- The devices with a live output after one more request, given what the system would make. -/
def OutputEvent.live (make : String → Option OutputGeometry) (devices : List String) : OutputEvent → List String
  | create d => if (make d).isSome then d :: devices else devices
  | release d => devices.erase d
  | acquire _ => devices

/-- The devices with a live output once the entry is past. -/
def GpuEntry.live (e : GpuEntry) (devices : List String) : List String :=
  match e with
  | .attempted call _ events => events.foldl (OutputEvent.live call.surroundings.make) devices
  | .shutDown events => events.foldl (OutputEvent.live fun _ => none) devices

/-- The devices with a live output at the end of a log. -/
def liveDevices (log : List GpuEntry) : List String := log.foldr GpuEntry.live []

/-- At most one output is live at every point of the requests. One is asked for while none is live, and waited on
while it alone is live, each for the given device. -/
def IsOrderly (make : String → Option OutputGeometry) (device : String) :
    (live : List String) → List OutputEvent → Prop
  | live, [] => live.length ≤ 1
  | live, x :: rest =>
    live.length ≤ 1 ∧ (∀ d, x = .create d → d = device ∧ live = []) ∧
      (∀ d, x = .acquire d → d = device ∧ live = [d]) ∧ IsOrderly make device (x.live make live) rest

/-- The system refuses the output, or the wait on it ends in a fault. -/
def GpuCall.Fails (call : GpuCall) : OutputEvent → Prop
  | .create d => call.surroundings.make d = none
  | .acquire _ => ∃ reason, call.surroundings.acquisition = .fault reason
  | .release _ => False

/-- The requests of a capture, whatever becomes of the frame. -/
def GpuCapture.requests (g : GpuCapture) (call : GpuCall) : List OutputEvent :=
  let (output, outputs, events) := g.outputs.get call.surroundings.now call.surroundings.make call.display.name
  match output, call.surroundings.acquisition with
  | none, _ => events
  | some o, .fault _ => events ++ [.acquire o.device] ++ (outputs.recycle call.surroundings.now).2
  | some o, _ => events ++ [.acquire o.device]

/-- A capture that gives a result made just these requests. -/
theorem GpuCapture.requests_eq {g after : GpuCapture} {call : GpuCall} {a : Attempt} {events : List OutputEvent}
    (h : g.attempt call.surroundings call.display call.drawsPointer = .ok (a, after, events)) :
    events = g.requests call := by
  unfold attempt at h
  unfold requests
  generalize g.outputs.get call.surroundings.now call.surroundings.make call.display.name = got at h ⊢
  obtain ⟨output, outputs, found⟩ := got
  cases output with
  | none =>
    cases h
    rfl
  | some o =>
    cases hq : call.surroundings.acquisition with
    | timeout | fault reason =>
      simp only [hq] at h
      cases h
      rfl
    | frames count frame dirty =>
      simp only [hq] at h
      split at h
      · cases h
        rfl
      · split at h
        · cases h
          rfl
        · split at h <;> cases h
          rfl

section

variable {make : String → Option OutputGeometry} {device : String}

theorem isOrderly_append {live : List String} {xs ys : List OutputEvent} (hx : IsOrderly make device live xs)
    (hy : IsOrderly make device (xs.foldl (OutputEvent.live make) live) ys) : IsOrderly make device live (xs ++ ys) := by
  induction xs generalizing live with
  | nil => exact hy
  | cons x xs ih =>
    obtain ⟨hlen, hcreate, hacquire, hrest⟩ := hx
    exact ⟨hlen, hcreate, hacquire, ih hrest hy⟩

theorem isOrderly_release (d : String) : IsOrderly make device [d] [.release d] := by
  simp [IsOrderly, OutputEvent.live]

theorem isOrderly_acquire : IsOrderly make device [device] [.acquire device] := by
  simp [IsOrderly, OutputEvent.live]

theorem isOrderly_create : IsOrderly make device [] [.create device] := by
  cases h : make device <;> simp [IsOrderly, OutputEvent.live, h]

end

namespace Outputs

/-- The device of the live output. -/
def devices (s : Outputs) : List String := (s.current.map Output.device).toList

theorem length_devices_le (s : Outputs) : s.devices.length ≤ 1 := by
  unfold devices
  cases s.current <;> simp

/-- Giving the live output up leaves none. -/
theorem live_releases (s : Outputs) (make : String → Option OutputGeometry) :
    s.releases.foldl (OutputEvent.live make) s.devices = [] := by
  unfold releases devices
  cases s.current <;> simp [OutputEvent.live]

theorem isOrderly_releases (s : Outputs) (make : String → Option OutputGeometry) (device : String) :
    IsOrderly make device s.devices s.releases := by
  unfold releases devices
  cases s.current with
  | none => exact Nat.zero_le 1
  | some o => exact isOrderly_release o.device

namespace Found

variable {s after : Outputs} {now : Micros} {make : String → Option OutputGeometry} {device : String}
  {found : Option Output} {events : List OutputEvent}

theorem live_eq (h : s.Found now make device found after events) :
    events.foldl (OutputEvent.live make) s.devices = after.devices := by
  cases h with
  | blocked | live => rfl
  | made faults other answer =>
    rw [List.foldl_append, live_releases]
    simp [OutputEvent.live, answer, devices]
  | refused faults other answer =>
    rw [List.foldl_append, live_releases]
    simp [OutputEvent.live, answer, devices]

theorem isOrderly (h : s.Found now make device found after events) : IsOrderly make device s.devices events := by
  cases h with
  | blocked | live => exact s.length_devices_le
  | made | refused =>
    refine isOrderly_append (s.isOrderly_releases make device) ?_
    rw [live_releases]
    exact isOrderly_create

theorem not_blocked {o : Output} (h : s.Found now make device (some o) after events) :
    (s.faults.purge now).holds device = false := by
  cases h with
  | live faults => exact faults
  | made faults => exact faults

theorem faultTtl_eq (h : s.Found now make device found after events) : after.faultTtl = s.faultTtl := by
  cases h <;> rfl

/-- A refusal blocks a device that was not blocked, and nothing else does. -/
theorem faults_cases (h : s.Found now make device found after events) :
    (found = none ∧ .create device ∈ events ∧ make device = none) ∧ (s.faults.purge now).holds device = false ∧
        after.faults = (s.faults.purge now).insert device (now + s.faultTtl) ∨
      ¬(.create device ∈ events ∧ make device = none) ∧ after.faults = s.faults.purge now := by
  cases h with
  | blocked | live => exact .inr ⟨fun h => (nomatch h.1), rfl⟩
  | made _ _ answer => exact .inr ⟨fun h => (nomatch answer.symm.trans h.2), rfl⟩
  | refused faults _ answer => exact .inl ⟨⟨rfl, by simp, answer⟩, faults, rfl⟩

end Found

theorem devices_of_current {s : Outputs} {o : Output} (h : s.current = some o) : s.devices = [o.device] := by
  unfold devices
  rw [h]
  rfl

theorem release_eq (s : Outputs) : s.release = ({ s with current := none }, s.releases) := by
  obtain ⟨current, faults, ttl⟩ := s
  cases current <;> rfl

/-- A recycled output is given up and its device blocked. -/
theorem recycle_of_current {s : Outputs} {o : Output} (h : s.current = some o) (now : Micros) :
    s.recycle now = (⟨none, s.faults.insert o.device (now + s.faultTtl), s.faultTtl⟩, [.release o.device]) := by
  unfold recycle
  rw [h]

end Outputs

namespace GpuCall

variable {call : GpuCall} {s after : Outputs} {events : List OutputEvent}

theorem not_fails_releases (call : GpuCall) (s : Outputs) : ∀ x ∈ s.releases, ¬call.Fails x := by
  intro x hx
  obtain ⟨o, -, rfl⟩ := Option.map_eq_some_iff.mp (Option.mem_toList.mp hx)
  exact id

/-- An output is found only if the system does not refuse it. -/
theorem not_fails_found {o : Output}
    (h : s.Found call.surroundings.now call.surroundings.make call.display.name (some o) after events) :
    ∀ x ∈ events, ¬call.Fails x := by
  cases h with
  | live => exact nofun
  | made _ _ answer =>
    intro x hx
    rcases List.mem_append.mp hx with hx | hx
    · exact call.not_fails_releases s x hx
    · obtain rfl := List.mem_singleton.mp hx
      exact fun hnone => nomatch answer.symm.trans hnone

/-- At most the last request is refused. -/
theorem pairwise_found {found : Option Output}
    (h : s.Found call.surroundings.now call.surroundings.make call.display.name found after events) :
    events.Pairwise fun x y => call.Fails x → ∃ d, y = .release d := by
  cases h with
  | blocked | live => exact List.Pairwise.nil
  | made | refused =>
    refine List.pairwise_append.mpr ⟨?_, List.pairwise_singleton _ _, fun x hx _ _ hfails => ?_⟩
    · unfold Outputs.releases
      cases s.current <;> simp
    · exact absurd hfails (call.not_fails_releases s x hx)

end GpuCall

/-! ### What a capture asks for -/

namespace GpuCapture

/-- With no output there is no wait; a wait that faults is the last but the output is given up. -/
theorem requests_cases (g : GpuCapture) (call : GpuCall) :
    ∃ output outputs events,
      g.outputs.Found call.surroundings.now call.surroundings.make call.display.name output outputs events ∧
      (output = none ∧ g.requests call = events ∨
        output ≠ none ∧ (∀ reason, call.surroundings.acquisition ≠ .fault reason) ∧
          g.requests call = events ++ [.acquire call.display.name] ∨
        output ≠ none ∧ g.requests call = events ++ [.acquire call.display.name] ++ [.release call.display.name]) := by
  have hf := g.outputs.found_get call.surroundings.now call.surroundings.make call.display.name
  unfold requests
  generalize g.outputs.get call.surroundings.now call.surroundings.make call.display.name = got at hf
  obtain ⟨output, outputs, events⟩ := got
  refine ⟨output, outputs, events, hf, ?_⟩
  dsimp only at hf ⊢
  cases output with
  | none => exact .inl ⟨rfl, rfl⟩
  | some o =>
    obtain ⟨hcurrent, hdevice⟩ := hf.current_eq
    refine .inr ?_
    rw [← hdevice, Outputs.recycle_of_current hcurrent]
    cases hq : call.surroundings.acquisition with
    | timeout | frames => exact .inl ⟨nofun, nofun, rfl⟩
    | fault reason => exact .inr ⟨nofun, rfl⟩

theorem isOrderly_requests (g : GpuCapture) (call : GpuCall) :
    IsOrderly call.surroundings.make call.display.name g.outputs.devices (g.requests call) := by
  obtain ⟨output, outputs, events, hf, ⟨-, hr⟩ | ⟨hsome, -, hr⟩ | ⟨hsome, hr⟩⟩ := g.requests_cases call
  · rw [hr]
    exact hf.isOrderly
  all_goals
    obtain ⟨o, rfl⟩ := Option.ne_none_iff_exists'.mp hsome
    have hdevices : outputs.devices = [call.display.name] :=
      hf.current_eq.2 ▸ Outputs.devices_of_current hf.current_eq.1
    have hwait : IsOrderly call.surroundings.make call.display.name g.outputs.devices
        (events ++ [.acquire call.display.name]) := by
      refine isOrderly_append hf.isOrderly ?_
      rw [hf.live_eq, hdevices]
      exact isOrderly_acquire
    rw [hr]
  · exact hwait
  · refine isOrderly_append hwait ?_
    rw [List.foldl_append, hf.live_eq, hdevices]
    exact isOrderly_release call.display.name

/-- After a failure nothing is asked but to give outputs up. -/
theorem pairwise_requests (g : GpuCapture) (call : GpuCall) :
    (g.requests call).Pairwise fun x y => call.Fails x → ∃ d, y = .release d := by
  obtain ⟨output, outputs, events, hf, ⟨-, hr⟩ | ⟨hsome, hfault, hr⟩ | ⟨hsome, hr⟩⟩ := g.requests_cases call <;> rw [hr]
  · exact call.pairwise_found hf
  all_goals
    obtain ⟨o, rfl⟩ := Option.ne_none_iff_exists'.mp hsome
    have hwait : (events ++ [OutputEvent.acquire call.display.name]).Pairwise
        fun x y => call.Fails x → ∃ d, y = OutputEvent.release d := by
      refine List.pairwise_append.mpr ⟨call.pairwise_found hf, List.pairwise_singleton _ _, fun x hx _ _ hfails => ?_⟩
      exact absurd hfails (call.not_fails_found hf x hx)
  · exact hwait
  · refine List.pairwise_append.mpr ⟨hwait, List.pairwise_singleton _ _, fun _ _ y hy _ => ?_⟩
    exact ⟨_, List.mem_singleton.mp hy⟩

/-- A blocked device is left alone, and any other is asked for or waited on. -/
theorem asks_iff (g : GpuCapture) (call : GpuCall) :
    (.create call.display.name ∈ g.requests call ∨ .acquire call.display.name ∈ g.requests call) ↔
      (g.outputs.faults.purge call.surroundings.now).holds call.display.name = false := by
  obtain ⟨output, outputs, events, hf, ⟨rfl, hr⟩ | ⟨hsome, -, hr⟩ | ⟨hsome, hr⟩⟩ := g.requests_cases call <;> rw [hr]
  · cases hf with
    | blocked faults => simp [faults]
    | refused faults => simp [faults]
  all_goals
    obtain ⟨o, rfl⟩ := Option.ne_none_iff_exists'.mp hsome
    exact iff_of_true (.inr (by simp)) hf.not_blocked

end GpuCapture

/-! ### What the cache knows of a run -/

/-- The result is that an output faulted. -/
def Attempt.TellsFault (a : Attempt) : Prop := ∃ reason, a = .result (.failed reason true)

theorem GpuCapture.not_tellsFault_unavailable (g : GpuCapture) (reason : String) :
    ¬(g.unavailable reason).TellsFault := by
  rintro ⟨r, hr⟩
  rcases g.unavailable_cases reason with h | h <;> (rw [h] at hr; cases hr)

theorem GpuCapture.not_tellsFault_withoutFrame (g : GpuCapture) (o : Output) (now : Micros) :
    ¬(g.withoutFrame o now).TellsFault := by
  rintro ⟨r, hr⟩
  rcases g.withoutFrame_cases o now with ⟨h, -⟩ | h | h <;> (rw [h] at hr; cases hr)

namespace GpuEntry

def time? : GpuEntry → Option Micros
  | attempted call _ _ => some call.surroundings.now
  | shutDown _ => none

/-- A capture of the device at a time. -/
def IsCapture (e : GpuEntry) (device : String) (t : Micros) : Prop :=
  match e with
  | attempted call _ _ => call.display.name = device ∧ call.surroundings.now = t
  | shutDown _ => False

/-- A capture of the device, at a time, for which the system refused an output or which told of a fault. -/
def IsFailure (e : GpuEntry) (device : String) (t : Micros) : Prop :=
  match e with
  | attempted call a events =>
    (call.display.name = device ∧ call.surroundings.now = t) ∧
      (.create device ∈ events ∧ call.surroundings.make device = none ∨ a.TellsFault)
  | shutDown _ => False

theorem IsFailure.isCapture {e : GpuEntry} {device : String} {t : Micros} (h : e.IsFailure device t) :
    e.IsCapture device t := by
  cases e with
  | attempted call a events => exact h.1
  | shutDown events => exact h.elim

theorem IsCapture.time_eq {e : GpuEntry} {device : String} {t : Micros} (h : e.IsCapture device t) :
    e.time? = some t := by
  cases e with
  | attempted call a events => exact congrArg some h.2
  | shutDown events => exact h.elim

theorem IsCapture.mem_times {e : GpuEntry} {device : String} {t : Micros} (h : e.IsCapture device t)
    {log : List GpuEntry} (he : e ∈ log) : t ∈ log.filterMap time? :=
  List.mem_filterMap.mpr ⟨e, he, h.time_eq⟩

end GpuEntry

/-- The times of the captures, the latest first, never go back. -/
def IsClocked (times : List Micros) : Prop := times.Pairwise fun later earlier => earlier ≤ later

/-- No capture up to another one came after it. -/
theorem IsClocked.le_of_mem {e e' : GpuEntry} {earlier : List GpuEntry} {device device' : String} {t t' : Micros}
    (h : IsClocked ((e :: earlier).filterMap GpuEntry.time?)) (he : e.IsCapture device t) (he' : e' ∈ e :: earlier)
    (hc : e'.IsCapture device' t') : t' ≤ t := by
  rw [List.filterMap_cons_some he.time_eq] at h
  rcases List.mem_cons.mp he' with rfl | hmem
  · exact Int.le_of_eq (Option.some.inj (hc.time_eq.symm.trans he.time_eq))
  · exact (List.pairwise_cons.mp h).1 t' (hc.mem_times hmem)

namespace Attempting

variable {g after : GpuCapture} {call : GpuCall} {a : Attempt} {events : List OutputEvent}

theorem faultTtl_eq (h : Attempting g call a after events) : after.outputs.faultTtl = g.outputs.faultTtl := by
  cases h with
  | unavailable hf | unchanged hf | blank hf | captured hf => exact hf.faultTtl_eq
  | faulted hf => rw [Outputs.recycle_of_current hf.current_eq.1]; exact hf.faultTtl_eq

theorem live_eq (h : Attempting g call a after events) :
    events.foldl (OutputEvent.live call.surroundings.make) g.outputs.devices = after.outputs.devices := by
  cases h with
  | unavailable hf => exact hf.live_eq
  | unchanged hf =>
    rw [List.foldl_append, hf.live_eq]
    rfl
  | faulted hf =>
    rw [List.foldl_append, List.foldl_append, hf.live_eq, Outputs.recycle_of_current hf.current_eq.1,
      Outputs.devices_of_current hf.current_eq.1]
    simp [OutputEvent.live, Outputs.devices]
  | blank hf | captured hf =>
    rw [List.foldl_append, hf.live_eq, Outputs.devices_of_current hf.current_eq.1]
    rfl

/-- A failure blocks a device that was not blocked, and nothing else does. -/
theorem faults_cases (h : Attempting g call a after events) :
    let faults := g.outputs.faults.purge call.surroundings.now
    let device := call.display.name
    let failed := GpuEntry.IsFailure (.attempted call a events) device call.surroundings.now
    failed ∧ faults.holds device = false ∧
        after.outputs.faults = faults.insert device (call.surroundings.now + g.outputs.faultTtl) ∨
      ¬failed ∧ after.outputs.faults = faults := by
  -- Where an output is found nothing is refused, so only a fault is a failure.
  have hfound {o : Output} {outputs : Outputs} {found : List OutputEvent}
      (hf : g.outputs.Found call.surroundings.now call.surroundings.make call.display.name (some o) outputs found) :
      ¬(.create call.display.name ∈ found ∧ call.surroundings.make call.display.name = none) ∧
        outputs.faults = g.outputs.faults.purge call.surroundings.now := by
    rcases hf.faults_cases with ⟨⟨hnone, -⟩, -⟩ | hok
    · cases hnone
    · exact hok
  have hquiet {o : Output} {outputs : Outputs} {found : List OutputEvent}
      (hf : g.outputs.Found call.surroundings.now call.surroundings.make call.display.name (some o) outputs found)
      (hfault : ¬a.TellsFault) :
      ¬GpuEntry.IsFailure (.attempted call a (found ++ [.acquire o.device])) call.display.name call.surroundings.now :=
    fun hfailed => hfailed.2.elim (fun hrefused => (hfound hf).1 (by simpa using hrefused)) hfault
  cases h with
  | unavailable hf =>
    rcases hf.faults_cases with ⟨⟨-, hfailed⟩, hfree, hfaults⟩ | ⟨hok, hfaults⟩
    · exact .inl ⟨⟨⟨rfl, rfl⟩, .inl hfailed⟩, hfree, hfaults⟩
    · exact .inr ⟨fun hfailed => hfailed.2.elim hok (g.not_tellsFault_unavailable _), hfaults⟩
  | @faulted o outputs found reason hf =>
    refine .inl ⟨⟨⟨rfl, rfl⟩, .inr ⟨reason, rfl⟩⟩, hf.not_blocked, ?_⟩
    rw [Outputs.recycle_of_current hf.current_eq.1, hf.current_eq.2, (hfound hf).2, hf.faultTtl_eq]
  | unchanged hf => exact .inr ⟨hquiet hf (g.not_tellsFault_withoutFrame _ _), (hfound hf).2⟩
  | blank hf => exact .inr ⟨hquiet hf (g.not_tellsFault_unavailable _), (hfound hf).2⟩
  | captured hf => exact .inr ⟨hquiet hf (fun hfault => nomatch hfault.choose_spec), (hfound hf).2⟩

end Attempting

namespace GpuRun

variable {s : CaptureSettings} {r : GpuRun}

/-- The cache blocks the devices that failed less than the time to live ago, failures of a device lie at least
that time apart, and the live output is the one that the requests tell of. -/
structure KeepsFaults (s : CaptureSettings) (r : GpuRun) : Prop where
  ttl : r.source.outputs.faultTtl = s.faultTtl
  live : liveDevices r.log = r.source.outputs.devices
  blocked : ∀ now, (∀ t ∈ r.log.filterMap GpuEntry.time?, t ≤ now) → ∀ device,
    ((r.source.outputs.faults.purge now).holds device = true ↔
      ∃ e ∈ r.log, ∃ t, e.IsFailure device t ∧ now < t + s.faultTtl)
  spaced : r.log.Pairwise fun later earlier => ∀ device t t',
    later.IsFailure device t' → earlier.IsFailure device t → t + s.faultTtl ≤ t'

/-- A device that is not blocked failed at least the time to live ago, if ever. -/
theorem KeepsFaults.le_of_free (h : r.KeepsFaults s) {now : Micros}
    (hnow : ∀ t ∈ r.log.filterMap GpuEntry.time?, t ≤ now) {device : String}
    (hfree : (r.source.outputs.faults.purge now).holds device = false) {e : GpuEntry} (he : e ∈ r.log) {t : Micros}
    (hfailed : e.IsFailure device t) : t + s.faultTtl ≤ now := by
  refine Int.not_lt.mp fun hlt => ?_
  rw [(h.blocked now hnow device).mpr ⟨e, he, t, hfailed, hlt⟩] at hfree
  cases hfree

theorem keepsFaults_attempted {call : GpuCall} {a : Attempt} {source : GpuCapture} {events : List OutputEvent}
    (h : Attempting r.source call a source events) (hr : r.KeepsFaults s)
    (hclock : IsClocked ((GpuEntry.attempted call a events :: r.log).filterMap GpuEntry.time?)) :
    KeepsFaults s ⟨source, .attempted call a events :: r.log⟩ := by
  have hnow : ∀ t ∈ r.log.filterMap GpuEntry.time?, t ≤ call.surroundings.now := (List.pairwise_cons.mp hclock).1
  refine ⟨h.faultTtl_eq.trans hr.ttl, ?_, fun now hle device => ?_, List.pairwise_cons.mpr ⟨?_, hr.spaced⟩⟩
  · show events.foldl _ (liveDevices r.log) = _
    rw [hr.live]
    exact h.live_eq
  · have hlater : call.surroundings.now ≤ now := hle _ List.mem_cons_self
    have hold := hr.blocked now (fun t ht => hle t (List.mem_cons_of_mem _ ht)) device
    rcases h.faults_cases with ⟨hfailed, -, hfaults⟩ | ⟨hquiet, hfaults⟩
    · rw [hfaults, Faults.holds_purge_insert, Faults.holds_purge_purge hlater, hold, hr.ttl]
      constructor
      · rintro (⟨rfl, hlt⟩ | ⟨-, e, he, hfound⟩)
        · exact ⟨_, List.mem_cons_self, _, hfailed, hlt⟩
        · exact ⟨e, List.mem_cons_of_mem _ he, hfound⟩
      · rintro ⟨e, he, t, hdone, hlt⟩
        rcases List.mem_cons.mp he with rfl | he
        · obtain ⟨⟨rfl, rfl⟩, -⟩ := hdone
          exact .inl ⟨rfl, hlt⟩
        · by_cases hname : device = call.display.name
          · -- An older failure of the device blocks it for less long than this one.
            have ht := hnow t (hdone.isCapture.mem_times he)
            exact .inl ⟨hname, Int.lt_of_lt_of_le hlt (Int.add_le_add_right ht _)⟩
          · exact .inr ⟨hname, e, he, t, hdone, hlt⟩
    · rw [hfaults, Faults.holds_purge_purge hlater, hold]
      constructor
      · rintro ⟨e, he, hfound⟩
        exact ⟨e, List.mem_cons_of_mem _ he, hfound⟩
      · rintro ⟨e, he, t, hdone, hlt⟩
        rcases List.mem_cons.mp he with rfl | he
        · obtain ⟨rfl, rfl⟩ := hdone.1
          exact absurd hdone hquiet
        · exact ⟨e, he, t, hdone, hlt⟩
  · intro e he device t t' hfailed hdone
    obtain ⟨rfl, rfl⟩ := hfailed.1
    rcases h.faults_cases with ⟨-, hfree, -⟩ | ⟨hquiet, -⟩
    · exact hr.le_of_free hnow hfree he hdone
    · exact absurd hfailed hquiet

theorem keepsFaults_shutdown (hr : r.KeepsFaults s) :
    KeepsFaults s ⟨r.source.shutdown.1, .shutDown r.source.shutdown.2 :: r.log⟩ := by
  have hshutdown : r.source.shutdown =
      ({ r.source with outputs := { r.source.outputs with current := none } }, r.source.outputs.releases) := by
    unfold GpuCapture.shutdown
    rw [Outputs.release_eq]
  rw [hshutdown]
  refine ⟨hr.ttl, ?_, fun now hnow device => ?_, List.pairwise_cons.mpr ⟨fun _ _ _ _ _ hdone => hdone.elim, hr.spaced⟩⟩
  · show r.source.outputs.releases.foldl _ (liveDevices r.log) = _
    rw [hr.live, Outputs.live_releases]
    rfl
  · rw [hr.blocked now hnow device]
    constructor
    · rintro ⟨e, he, hfound⟩
      exact ⟨e, List.mem_cons_of_mem _ he, hfound⟩
    · rintro ⟨e, he, t, hdone, hlt⟩
      rcases List.mem_cons.mp he with rfl | he
      · exact hdone.elim
      · exact ⟨e, he, t, hdone, hlt⟩

theorem start_keepsFaults (s : CaptureSettings) : (start s).KeepsFaults s :=
  ⟨rfl, rfl, fun _ _ _ => by simp [start, GpuCapture.new, Outputs.new, Faults.empty, Faults.purge, Faults.holds], .nil⟩

theorem keepsFaults {moves : List GpuMove} (hplay : (start s).play moves = .ok r)
    (hclock : IsClocked (r.log.filterMap GpuEntry.time?)) : r.KeepsFaults s := by
  refine play_keeps (P := fun r => IsClocked (r.log.filterMap GpuEntry.time?) → r.KeepsFaults s) ?_ ?_ ?_ hplay hclock
  · intro r call a source events h hr hclock
    exact keepsFaults_attempted h (hr (List.pairwise_cons.mp hclock).2) hclock
  · exact fun r hr hclock => keepsFaults_shutdown (hr hclock)
  · exact fun _ => start_keepsFaults s

end GpuRun

/-- The requests of a capture after any run, as long as the clock does not go back. At most one output is live at
every point, and one is asked for while none is live, waited on while it alone is live, for the captured device
only. After a failure nothing more is asked in the same capture, and nothing in any other capture of the device
within the time to live; the first one after that asks again. -/
theorem failed_device_left_alone {s : CaptureSettings} {moves : List GpuMove} {r : GpuRun}
    (hplay : (GpuRun.start s).play moves = .ok r) {call : GpuCall}
    (hclock : IsClocked (call.surroundings.now :: r.log.filterMap GpuEntry.time?)) :
    let asked := r.source.requests call
    let device := call.display.name
    let now := call.surroundings.now
    (∀ a after events, r.source.attempt call.surroundings call.display call.drawsPointer = .ok (a, after, events) →
      events = asked) ∧
    IsOrderly call.surroundings.make device (liveDevices r.log) asked ∧
    (asked.Pairwise fun x y => call.Fails x → ∃ d, y = .release d) ∧
    (∀ e ∈ r.log, ∀ t, e.IsFailure device t → now < t + s.faultTtl →
      .create device ∉ asked ∧ .acquire device ∉ asked) ∧
    ∀ later e earlier t, r.log = later ++ e :: earlier → e.IsFailure device t → t + s.faultTtl ≤ now →
      (∀ e' ∈ later, ∀ t', e'.IsCapture device t' → t' < t + s.faultTtl) →
      .create device ∈ asked ∨ .acquire device ∈ asked := by
  intro asked device now
  obtain ⟨hnow, hlog⟩ := List.pairwise_cons.mp hclock
  have hkeeps := GpuRun.keepsFaults hplay hlog
  have hasks := r.source.asks_iff call
  refine ⟨fun a after events h => GpuCapture.requests_eq h, hkeeps.live ▸ r.source.isOrderly_requests call,
    r.source.pairwise_requests call, fun e he t hfailed hlt => ?_, fun later e earlier t hsplit hfailed hle hfirst => ?_⟩
  · have hblocked := (hkeeps.blocked now hnow device).mpr ⟨e, he, t, hfailed, hlt⟩
    rw [hblocked] at hasks
    exact not_or.mp fun h => nomatch hasks.mp h
  · refine hasks.mpr (Bool.eq_false_iff.mpr fun hblocked => ?_)
    obtain ⟨e', he', t', hfailed', hlt⟩ := (hkeeps.blocked now hnow device).mp hblocked
    have hspaced := hkeeps.spaced
    rw [hsplit] at hspaced hlog he'
    rcases List.mem_append.mp he' with hmem | hmem
    · have hapart := (List.pairwise_append.mp hspaced).2.2 e' hmem e List.mem_cons_self device t t' hfailed' hfailed
      exact Int.not_lt.mpr hapart (hfirst e' hmem t' hfailed'.isCapture)
    · rw [List.filterMap_append] at hlog
      have hle' := IsClocked.le_of_mem (List.pairwise_append.mp hlog).2.1 hfailed.isCapture hmem hfailed'.isCapture
      exact Int.not_lt.mpr hle (Int.lt_of_lt_of_le hlt (Int.add_le_add_right hle' _))

/-- A capture at a time, in a system where only the first display can have an output. -/
def GpuCall.timed (now : Micros) (device : String) (acquisition : Acquisition) : GpuCall :=
  ⟨⟨now, fun name => if name = "D1" then some ⟨⟨0, 0, 1, 1⟩, .identity⟩ else none, acquisition, none⟩,
    .failed "lost" false, ⟨device, device, ⟨0, 0, 1, 1⟩, true, default⟩, false⟩

/-- The first display faults, and three seconds later the second one is refused. -/
def faultingMoves : List GpuMove :=
  [.capture (.timed 0 "D1" (.fault "gone")), .capture (.timed 3000000 "D2" .timeout)]

/-- The first display is asked again ten seconds after it faulted, and not a microsecond before. -/
theorem failed_device_left_alone_boundary :
    let early := GpuCall.timed 9999999 "D1" .timeout
    let due := GpuCall.timed 10000000 "D1" .timeout
    ∃ r, (GpuRun.start .standard).play faultingMoves = .ok r ∧
      IsClocked (early.surroundings.now :: r.log.filterMap GpuEntry.time?) ∧
      IsClocked (due.surroundings.now :: r.log.filterMap GpuEntry.time?) ∧
      .create "D1" ∉ r.source.requests early ∧ .acquire "D1" ∉ r.source.requests early ∧
      (.create "D1" ∈ r.source.requests due ∨ .acquire "D1" ∈ r.source.requests due) := by
  intro early due
  obtain ⟨r, hplay, hearly, hdue, e, hlog, hfailed⟩ : ∃ r, (GpuRun.start .standard).play faultingMoves = .ok r ∧
      IsClocked (early.surroundings.now :: r.log.filterMap GpuEntry.time?) ∧
      IsClocked (due.surroundings.now :: r.log.filterMap GpuEntry.time?) ∧
      ∃ e, r.log = [.attempted (.timed 3000000 "D2" .timeout) (.fallBack false) [.create "D2"]] ++ [e] ∧
        e.IsFailure "D1" 0 :=
    ⟨_, rfl, by unfold IsClocked; decide, by unfold IsClocked; decide, _, rfl, ⟨rfl, rfl⟩, .inr ⟨"gone", rfl⟩⟩
  obtain ⟨-, -, -, hspared, -⟩ := failed_device_left_alone hplay hearly
  obtain ⟨-, -, -, -, hretried⟩ := failed_device_left_alone hplay hdue
  obtain ⟨hcreate, hacquire⟩ := hspared e (by simp [hlog]) 0 hfailed (by decide)
  refine ⟨r, hplay, hearly, hdue, hcreate, hacquire, hretried _ e [] 0 hlog hfailed (by decide) ?_⟩
  intro e' he' t' hc
  obtain rfl := List.mem_singleton.mp he'
  exact absurd hc.1 (by decide)

end Screencast
