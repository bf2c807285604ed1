import Screencast.Proofs.TrailingWindow

/-!
# The range of quality

A reading asks for some goal, and the rule holds it within the bounds whatever byte it is. So no reading,
be it zero, without bound or no number at all, takes quality below the minimum, above the standard or up
by more than a step.
-/

namespace Screencast

/-! ### One step of the rule -/

namespace QualityRule

theorem toNat_max (a b : UInt8) : (max a b).toNat = max a.toNat b.toNat := by
  by_cases h : a ≤ b
  · have hle := UInt8.le_iff_toNat_le.mp h
    rw [show max a b = b from if_pos h, Nat.max_eq_right hle]
  · have hle : ¬ a.toNat ≤ b.toNat := fun hn => h (UInt8.le_iff_toNat_le.mpr hn)
    rw [show max a b = a from if_neg h, Nat.max_eq_left (by omega)]

theorem toNat_min (a b : UInt8) : (min a b).toNat = min a.toNat b.toNat := by
  by_cases h : a ≤ b
  · have hle := UInt8.le_iff_toNat_le.mp h
    rw [show min a b = a from if_pos h, Nat.min_eq_left hle]
  · have hle : ¬ a.toNat ≤ b.toNat := fun hn => h (UInt8.le_iff_toNat_le.mpr hn)
    rw [show min a b = b from if_neg h, Nat.min_eq_right (by omega)]

theorem toNat_raised (q step : UInt8) : (raised q step).toNat = min (q.toNat + step.toNat) 255 := by
  unfold raised
  by_cases h : q.toNat + step.toNat < 256
  · rw [if_pos h, UInt8.toNat_add]
    omega
  · rw [if_neg h]
    have hlast : (255 : UInt8).toNat = 255 := rfl
    omega

variable {α : Type} (r : QualityRule α)

/-- The quality that a step starts from. -/
def clamped (q : UInt8) : UInt8 := min (max q r.minimum) r.ceiling

theorem toNat_ceiling : r.ceiling.toNat = max r.standard.toNat r.minimum.toNat := toNat_max _ _

theorem toNat_clamped (q : UInt8) :
    (r.clamped q).toNat = min (max q.toNat r.minimum.toNat) r.ceiling.toNat := by
  unfold clamped
  rw [toNat_min, toNat_max]

variable [Reckoning α]

/-- The rule in natural numbers. -/
theorem toNat_next (q : UInt8) (reading : α) :
    (r.next q reading).toNat =
      if (r.goal (r.clamped q) reading).toNat < (r.clamped q).toNat then
        max (r.goal (r.clamped q) reading).toNat r.minimum.toNat
      else
        min (min ((r.clamped q).toNat + r.step.toNat) 255)
          (min (r.goal (r.clamped q) reading).toNat r.ceiling.toNat) := by
  have hnext : r.next q reading =
      if r.goal (r.clamped q) reading < r.clamped q then max (r.goal (r.clamped q) reading) r.minimum
      else min (raised (r.clamped q) r.step) (min (r.goal (r.clamped q) reading) r.ceiling) := rfl
  rw [hnext]
  by_cases h : r.goal (r.clamped q) reading < r.clamped q
  · rw [if_pos h, if_pos (UInt8.lt_iff_toNat_lt.mp h), toNat_max]
  · rw [if_neg h, if_neg (fun hn => h (UInt8.lt_iff_toNat_lt.mpr hn)), toNat_min, toNat_min, toNat_raised]

theorem next_bounds (q : UInt8) (reading : α) :
    r.minimum.toNat ≤ (r.next q reading).toNat ∧ (r.next q reading).toNat ≤ r.ceiling.toNat ∧
      (r.next q reading).toNat ≤ (r.clamped q).toNat + r.step.toNat := by
  have hceiling := r.toNat_ceiling
  have hclamped := r.toNat_clamped q
  have hbyte := (r.clamped q).toNat_lt
  -- Whatever the goal is, the two branches keep what they give within the bounds.
  rw [toNat_next]
  split <;> omega

end QualityRule

/-! ### Runs -/

theorem BandwidthSettings.of_validate {s : BandwidthSettings} (h : s.validate = .ok ()) :
    (isPercentage s.minimumQuality = true ∧ isPercentage s.defaultQuality = true ∧
      s.minimumQuality ≤ s.defaultQuality) ∧ ¬ s.targetMbps ≤ 0.0 ∧ ¬ s.maxMbps ≤ 0.0 := by
  unfold validate at h
  split at h
  · cases h
  · split at h
    · cases h
    · rename_i hquality
      split at h
      · cases h
      · rename_i hmbps
        simp only [Bool.or_eq_true, Bool.not_eq_true', decide_eq_true_eq, not_or, Bool.not_eq_false] at hquality hmbps
        exact ⟨⟨hquality.1.1, hquality.1.2, UInt8.not_lt.mp hquality.2⟩, hmbps⟩

/-- What steering quality and the gate relies on, of all that `validate` looks at. -/
structure BandwidthSettings.IsAccepted (s : BandwidthSettings) : Prop where
  minimum_le : s.minimumQuality ≤ s.defaultQuality
  ceiling : ¬ s.maxMbps ≤ 0.0

theorem BandwidthSettings.isAccepted_of_validate {s : BandwidthSettings} (h : s.validate = .ok ()) :
    s.IsAccepted :=
  ⟨(of_validate h).1.2.2, (of_validate h).2.2⟩

namespace Controller

variable {s : BandwidthSettings} {c : Controller}

/-- The settings stay, and quality lies between their bounds. -/
structure KeepsRange (s : BandwidthSettings) (c : Controller) : Prop where
  settings : c.settings = s
  minimum_le : s.minimumQuality.toNat ≤ c.quality.toNat
  le_default : c.quality.toNat ≤ s.defaultQuality.toNat

theorem KeepsRange.start (h : s.IsAccepted) : (new s).KeepsRange s :=
  ⟨rfl, UInt8.le_iff_toNat_le.mp h.minimum_le, Nat.le_refl _⟩

/-- With quality in its range the rule starts from it, and its ceiling is the standard quality. -/
theorem KeepsRange.process (h : s.IsAccepted) (hc : c.KeepsRange s) (now : Micros) :
    (c.process now).KeepsRange s ∧ (c.process now).quality.toNat ≤ c.quality.toNat + s.qualityStep.toNat := by
  obtain ⟨rfl, hlow, hhigh⟩ := hc
  have hminimum := UInt8.le_iff_toNat_le.mp h.minimum_le
  have hbounds : c.settings.minimumQuality.toNat ≤ (c.process now).quality.toNat ∧
      (c.process now).quality.toNat ≤ c.settings.qualityRule.ceiling.toNat ∧
      (c.process now).quality.toNat ≤ (c.settings.qualityRule.clamped c.quality).toNat + c.settings.qualityStep.toNat :=
    c.settings.qualityRule.next_bounds c.quality (c.process now).mbps
  have hceiling : c.settings.qualityRule.ceiling.toNat =
      max c.settings.defaultQuality.toNat c.settings.minimumQuality.toNat := c.settings.qualityRule.toNat_ceiling
  have hclamped : (c.settings.qualityRule.clamped c.quality).toNat =
      min (max c.quality.toNat c.settings.minimumQuality.toNat) c.settings.qualityRule.ceiling.toNat :=
    c.settings.qualityRule.toNat_clamped c.quality
  exact ⟨⟨rfl, hbounds.1, by omega⟩, by omega⟩

theorem KeepsRange.move (h : s.IsAccepted) (hc : c.KeepsRange s) (mv : ControllerMove) : (c.move mv).KeepsRange s := by
  cases mv with
  | process now => exact (hc.process h now).1
  | bytes | frame | iteration => exact ⟨hc.settings, hc.minimum_le, hc.le_default⟩

theorem KeepsRange.play (h : s.IsAccepted) (hc : c.KeepsRange s) (moves : List ControllerMove) :
    (c.play moves).KeepsRange s := by
  induction moves generalizing c with
  | nil => exact hc
  | cons mv rest ih => exact ih (hc.move h mv)

theorem reductions_process (c : Controller) (now : Micros) : (c.process now).reductions =
    c.reductions + if (c.process now).quality < c.quality then 1 else 0 := by
  by_cases hq : (c.process now).quality < c.quality
  · rw [if_pos hq]
    exact if_pos hq
  · rw [if_neg hq]
    exact if_neg hq

/-- With accepted settings quality is in its range after any marks and passes, whatever they read. A pass raises it by
one step at most, and counts a reduction exactly if it lowers it. -/
theorem quality_in_range {s : BandwidthSettings} (h : s.validate = .ok ()) (moves : List ControllerMove)
    (now : Micros) :
    let c := (new s).play moves
    let after := c.process now
    (s.minimumQuality ≤ c.quality ∧ c.quality ≤ s.defaultQuality) ∧
    (s.minimumQuality ≤ after.quality ∧ after.quality ≤ s.defaultQuality) ∧
    after.quality.toNat ≤ c.quality.toNat + s.qualityStep.toNat ∧
    after.reductions = c.reductions + if after.quality < c.quality then 1 else 0 := by
  intro c after
  have haccepted := BandwidthSettings.isAccepted_of_validate h
  have hbefore : c.KeepsRange s := (KeepsRange.start haccepted).play haccepted moves
  obtain ⟨hafter, hstep⟩ := hbefore.process haccepted now
  refine ⟨⟨?_, ?_⟩, ⟨?_, ?_⟩, hstep, reductions_process c now⟩
  · exact UInt8.le_iff_toNat_le.mpr hbefore.minimum_le
  · exact UInt8.le_iff_toNat_le.mpr hbefore.le_default
  · exact UInt8.le_iff_toNat_le.mpr hafter.minimum_le
  · exact UInt8.le_iff_toNat_le.mpr hafter.le_default

/-- Ten mebibytes at once take quality to its minimum, and it rises by a step when they are gone. -/
theorem quality_in_range_burst :
    let s : BandwidthSettings := .standard
    let c := (new s).play [.bytes 0 10485760, .process 0]
    let after := c.process 4000000
    s.validate = .ok () ∧ c.quality = 20 ∧ c.reductions = 1 ∧ after.quality = 22 ∧
      (s.minimumQuality ≤ after.quality ∧ after.quality ≤ s.defaultQuality) ∧ after.reductions = c.reductions := by
  have hvalid : BandwidthSettings.standard.validate = .ok () := rfl
  obtain ⟨-, hrange, -, hreductions⟩ := quality_in_range hvalid [.bytes 0 10485760, .process 0] 4000000
  refine ⟨hvalid, by decide +kernel, by decide +kernel, by decide +kernel, hrange, ?_⟩
  exact hreductions.trans (by decide +kernel)

end Controller
end Screencast
