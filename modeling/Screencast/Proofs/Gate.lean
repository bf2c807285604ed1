import Mathlib.Data.List.TakeWhile
import Screencast.Proofs.Quality
import Screencast.Proofs.Telemetry

/-!
# The gate after a silence

A pass that finds no bytes in its window reads a throughput of zero, and opens the gate if zero is below
the ceiling. The check of the settings refuses a ceiling that is zero or less, but lets one through that
is no number; nothing is below that, so that the gate closes with the first pass and stays closed.
-/

namespace Screencast

/-! ### Doubles against zero -/

theorem float_le_iff (x y : Float) : x ≤ y ↔ x.toModel.unpack.le y.toModel.unpack = true := by
  show x.le y = true ↔ _
  unfold Float.le
  rw [decide_eq_true_eq]
  rfl

theorem float_lt_iff (x y : Float) : x < y ↔ x.toModel.unpack.lt y.toModel.unpack = true := by
  show x.lt y = true ↔ _
  unfold Float.lt
  rw [decide_eq_true_eq]
  rfl

theorem unpack_zero : (0.0 : Float).toModel.unpack = .zero .positive := rfl

/-- What is not at most zero is above it, or no number. -/
theorem unpacked_zero_lt {u : Float.Model.UnpackedFloat} (h : u.le (.zero .positive) = false) :
    Float.Model.UnpackedFloat.lt (.zero .positive) u = !u.isNaN := by
  cases u with
  | notANumber => rfl
  | zero s => cases s <;> cases h
  | infinity s =>
    cases s with
    | positive => rfl
    | negative => cases h
  | finite s mantissa exponent hpos =>
    cases s with
    | positive => rfl
    | negative => cases h

theorem zero_lt_iff {x : Float} (h : ¬ x ≤ 0.0) : 0.0 < x ↔ x.isNaN = false := by
  rw [float_le_iff, unpack_zero, Bool.not_eq_true] at h
  rw [float_lt_iff, unpack_zero, unpacked_zero_lt h, Bool.not_eq_true']
  rfl

theorem not_lt_of_isNaN {x y : Float} (h : y.isNaN = true) : ¬ x < y := by
  rw [float_lt_iff]
  have hnan : y.toModel.unpack.isNaN = true := h
  cases hy : y.toModel.unpack with
  | notANumber => cases x.toModel.unpack <;> exact Bool.false_ne_true
  | _ =>
    rw [hy] at hnan
    cases hnan

/-! ### Passes after a silence -/

theorem PipelineSettings.isAccepted_of_validate {s : PipelineSettings} (h : s.validate = .ok ()) :
    s.bandwidth.IsAccepted := by
  unfold validate at h
  split at h
  · cases h
  · split at h
    · cases h
    · exact BandwidthSettings.isAccepted_of_validate h

namespace Controller

open ControllerMove (marks)

theorem mem_series_move {c : Controller} {mv : ControllerMove} {k : Tally} {x : Mark} (hx : x ∈ (c.move mv).series k) :
    x ∈ c.series k ∨ x ∈ (mv.mark? k).toList := by
  cases hpass : mv.pass? with
  | none =>
    rw [series_move c hpass] at hx
    exact (List.mem_append.mp hx).symm
  | some now =>
    obtain rfl : mv = .process now := ControllerMove.eq_process hpass
    have hprune : x ∈ (c.process now).series k := hx
    rw [series_process, Series.prune, List.mem_reverse] at hprune
    exact .inl (List.mem_reverse.mp (List.dropWhile_subset _ hprune))

/-- Whatever the order of their times, the marks in a series were there or were made. -/
theorem mem_series_play {c : Controller} {k : Tally} {moves : List ControllerMove} {x : Mark}
    (hx : x ∈ (c.play moves).series k) : x ∈ c.series k ∨ x ∈ marks k moves := by
  induction moves generalizing c with
  | nil => exact .inl hx
  | cons mv rest ih =>
    have hmarks : marks k (mv :: rest) = marks k rest ++ marks k [mv] := ControllerMove.marks_append k [mv] rest
    have hfirst : marks k [mv] = (mv.mark? k).toList := by cases hm : mv.mark? k <;> simp [marks, hm]
    rw [hmarks, hfirst, List.mem_append]
    rcases ih (c := c.move mv) hx with hx | hx
    · exact (mem_series_move hx).imp_right .inr
    · exact .inr (.inl hx)

theorem prune_eq_nil {t : Series} {now window : Micros} (h : ∀ x ∈ t, window < now - x.time) :
    t.prune now window = [] := by
  have hexpired : t.reverse.dropWhile (fun x => x.isExpired now window) = [] := by
    rw [List.dropWhile_eq_nil_iff]
    intro x hx
    exact decide_eq_true (h x (List.mem_reverse.mp hx))
  unfold Series.prune
  rw [hexpired]
  rfl

theorem gate_process {c : Controller} {now : Micros} (h : ∀ x ∈ c.series .bytes, c.settings.window < now - x.time) :
    (c.process now).isGateOpen = true ↔ 0.0 < c.settings.maxMbps := by
  have hmbps : (c.process now).mbps = 0.0 := by
    show seriesThroughput ((c.series .bytes).prune now c.settings.window) c.settings.window = 0.0
    rw [prune_eq_nil h]
    rfl
  show decide ((c.process now).mbps < c.settings.maxMbps) = true ↔ _
  rw [hmbps, decide_eq_true_eq]

/-- With accepted settings, a pass later than the window after all bytes opens the gate exactly if the ceiling is a
number, and the loop that waits at the gate goes on exactly then. -/
theorem gate_after_silence {s : PipelineSettings} (h : s.validate = .ok ()) {moves : List ControllerMove}
    {now : Micros} (hold : ∀ x ∈ marks .bytes moves, s.bandwidth.window < now - x.time) :
    let c := (new s.bandwidth).play (moves ++ [.process now])
    (c.isGateOpen = true ↔ s.bandwidth.maxMbps.isNaN = false) ∧
    ∀ (coder : Compressor) (m : Machine) (ticket : Nat), m.controller.gauges = c → m.phase = .awaitGate ticket →
      m.isCancelled = false →
      m.step coder = if s.bandwidth.maxMbps.isNaN then none else some (m.acquire ticket) := by
  have hsettings : ((new s.bandwidth).play moves).settings = s.bandwidth := settings_play _ _
  have hgate : ((new s.bandwidth).play (moves ++ [.process now])).isGateOpen = true ↔
      s.bandwidth.maxMbps.isNaN = false := by
    rw [play_concat]
    refine (gate_process fun x hx => ?_).trans ?_
    · rw [hsettings]
      exact hold x ((mem_series_play hx).resolve_left (by simp [new, series]))
    · rw [hsettings]
      exact zero_lt_iff (PipelineSettings.isAccepted_of_validate h).ceiling
  refine ⟨hgate, fun coder m ticket hm hp hcancel => ?_⟩
  rw [← hm] at hgate
  have hopen : m.controller.isGateOpen = true ↔ s.bandwidth.maxMbps.isNaN = false := hgate
  simp only [Machine.step, hp, hcancel, Bool.false_eq_true, if_false]
  by_cases hnan : s.bandwidth.maxMbps.isNaN = true
  · have hclosed : ¬ m.controller.isGateOpen = true := fun hgoes => by
      rw [hopen.mp hgoes] at hnan
      cases hnan
    rw [if_pos hnan, if_neg hclosed]
  · rw [if_neg hnan, if_pos (hopen.mpr (Bool.not_eq_true _ ▸ hnan))]

/-- The gate that a burst closes is open again four seconds later. -/
theorem gate_after_silence_burst :
    let s : PipelineSettings := .standard
    let moves : List ControllerMove := [.bytes 0 10485760, .process 0]
    s.validate = .ok () ∧ (∀ x ∈ marks .bytes moves, s.bandwidth.window < 4000000 - x.time) ∧
      ((new s.bandwidth).play moves).isGateOpen = false ∧
      ((new s.bandwidth).play (moves ++ [.process 4000000])).isGateOpen = true := by
  have hvalid : PipelineSettings.standard.validate = .ok () := rfl
  have hold : ∀ x ∈ marks .bytes [.bytes 0 10485760, .process 0],
      PipelineSettings.standard.bandwidth.window < 4000000 - x.time := by decide
  exact ⟨hvalid, hold, by decide +kernel, (gate_after_silence hvalid hold).1.mpr (by decide +kernel)⟩

/-- A ceiling that is no number is accepted, and every pass closes the gate, even if nothing was ever sent. -/
theorem gate_closed_for_ever :
    let s : PipelineSettings := { PipelineSettings.standard with
      bandwidth := { BandwidthSettings.standard with maxMbps := 0.0 / 0.0 } }
    s.validate = .ok () ∧ ∀ moves now,
      ((new s.bandwidth).play (moves ++ [.process now])).isGateOpen = false := by
  refine ⟨rfl, fun moves now => ?_⟩
  rw [play_concat]
  refine decide_eq_false ?_
  rw [settings_play]
  exact not_lt_of_isNaN (by decide +kernel)

end Controller
end Screencast
