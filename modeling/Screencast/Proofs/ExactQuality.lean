import Mathlib.Algebra.Order.Field.Power
import Mathlib.Data.List.Forall2
import Mathlib.Data.Rat.Floor
import Mathlib.Tactic.Positivity
import Screencast.Proofs.Gate

/-!
# The quality rule in exact fractions

Read in exact fractions, a step of the rule does one of two things. A reading up to the target asks for the
standard quality or more, so quality rises by a step and stops at the standard one. A reading above the target
asks for less than there is, so quality falls at once to the whole part of its share, and stops at the minimum.
Either way a step keeps the order of qualities, and a larger reading never leaves more.
-/

namespace Screencast

/-- The number that a double stands for. -/
def exactValue? (x : Float) : Option Rat :=
  match x.toModel.unpack with
  | .zero _ => some 0
  | .finite s mantissa exponent _ => some ((s.apply (mantissa : Int) : Rat) * 2 ^ exponent)
  | .infinity _ => none
  | .notANumber => none

theorem exactValue?_pos {x : Float} {t : Rat} (h : ¬ x ≤ 0.0) (hx : exactValue? x = some t) : 0 < t := by
  rw [float_le_iff, unpack_zero] at h
  unfold exactValue? at hx
  cases hu : x.toModel.unpack with
  | notANumber =>
    rw [hu] at hx
    cases hx
  | infinity s =>
    rw [hu] at hx
    cases hx
  | zero s =>
    rw [hu] at h
    exact absurd (by cases s <;> rfl) h
  | finite s mantissa exponent hpos =>
    rw [hu] at h hx
    cases s with
    | negative => exact absurd rfl h
    | positive =>
      cases hx
      have hmantissa : (0 : Rat) < ((mantissa : Int) : Rat) := by exact_mod_cast hpos
      exact mul_pos hmantissa (zpow_pos two_pos exponent)

/-- The rule of the settings in exact fractions, if the target is a number. -/
def BandwidthSettings.exactRule? (s : BandwidthSettings) : Option (QualityRule Rat) :=
  (exactValue? s.targetMbps).map fun target => ⟨target, s.defaultQuality, s.minimumQuality, s.qualityStep⟩

namespace QualityRule

/-- What the settings are checked for. -/
structure IsSound (r : QualityRule Rat) : Prop where
  target_pos : 0 < r.target
  minimum_pos : 0 < r.minimum.toNat
  minimum_le : r.minimum.toNat ≤ r.standard.toNat
  standard_le : r.standard.toNat ≤ 100

theorem isSound_of_validate {s : BandwidthSettings} {r : QualityRule Rat} (h : s.validate = .ok ())
    (hr : s.exactRule? = some r) : r.IsSound := by
  obtain ⟨⟨hminimum, hstandard, hle⟩, hmbps, -⟩ := BandwidthSettings.of_validate h
  obtain ⟨target, htarget, rfl⟩ := Option.map_eq_some_iff.mp hr
  simp only [BandwidthSettings.isPercentage, Bool.and_eq_true, decide_eq_true_eq] at hminimum hstandard
  exact ⟨exactValue?_pos hmbps htarget, UInt8.le_iff_toNat_le.mp hminimum.1, UInt8.le_iff_toNat_le.mp hle,
    UInt8.le_iff_toNat_le.mp hstandard.2⟩

variable {r : QualityRule Rat} {q q' : UInt8} {x y : Rat} {c c' : Nat}

/-! ### One step -/

theorem toNat_toQuality (y : Rat) : (Reckoning.toQuality y : UInt8).toNat = min (Nat.floor y) 255 := by
  have hbyte : min (Nat.floor y) 255 < 256 := by omega
  exact UInt8.toNat_ofNat_of_lt' hbyte

/-- What a reading above the target leaves of a quality, in whole numbers. -/
def share (r : QualityRule Rat) (c : Nat) (x : Rat) : Nat := Nat.floor (r.target / x * c)

theorem share_lt (h : 0 < r.target) (hx : r.target < x) (hc : 0 < c) : r.share c x < c := by
  have hpos : 0 < x := h.trans hx
  have hc : (0 : Rat) < c := Nat.cast_pos.mpr hc
  have hratio : r.target / x < 1 := (div_lt_one hpos).mpr hx
  rw [share, Nat.floor_lt (by positivity)]
  exact mul_lt_of_lt_one_left hc hratio

theorem share_le_share (h : 0 < r.target) (hx : r.target < x) (hxy : x ≤ y) (hc : c' ≤ c) :
    r.share c' y ≤ r.share c x := by
  have hpos : 0 < x := h.trans hx
  have hratio : r.target / y ≤ r.target / x := div_le_div_of_nonneg_left h.le hpos hxy
  have hc : (c' : Rat) ≤ c := Nat.cast_le.mpr hc
  exact Nat.floor_mono (mul_le_mul hratio hc (Nat.cast_nonneg c') (by positivity))

theorem goal_eq (r : QualityRule Rat) (current : UInt8) (x : Rat) : r.goal current x =
    if 0 < x then Reckoning.toQuality (r.target / x * (if r.target < x then current else r.ceiling).toNat)
    else r.ceiling := by
  simp only [goal, Reckoning.isPositive, Reckoning.exceeds, Reckoning.ratioTimes, Reckoning.ofQuality, decide_eq_true_eq]

theorem ceiling_le_goal (hle : x ≤ r.target) (current : UInt8) :
    r.ceiling.toNat ≤ (r.goal current x).toNat := by
  rw [goal_eq]
  split
  · rename_i hpos
    have hratio : 1 ≤ r.target / x := (one_le_div hpos).mpr hle
    have hfloor : r.ceiling.toNat ≤ Nat.floor (r.target / x * r.ceiling.toNat) :=
      Nat.le_floor (le_mul_of_one_le_left (Nat.cast_nonneg _) hratio)
    have hbyte := r.ceiling.toNat_lt
    rw [if_neg (not_lt.mpr hle), toNat_toQuality]
    omega
  · exact Nat.le_refl _

theorem toNat_goal_above (h : 0 < r.target) (hx : r.target < x) {current : UInt8} (hc : 0 < current.toNat) :
    (r.goal current x).toNat = r.share current.toNat x := by
  have hshare := share_lt h hx hc
  have hbyte := current.toNat_lt
  rw [goal_eq, if_pos (h.trans hx), if_pos hx, toNat_toQuality]
  exact Nat.min_eq_left (by rw [share] at hshare; omega)

theorem toNat_clamped_eq (h : r.IsSound) (q : UInt8) :
    (r.clamped q).toNat = min (max q.toNat r.minimum.toNat) r.standard.toNat := by
  rw [toNat_clamped, toNat_ceiling, Nat.max_eq_left h.minimum_le]

/-- Up to the target quality rises by a step, to the standard one at most. -/
theorem toNat_next_below (h : r.IsSound) (q : UInt8) (hle : x ≤ r.target) :
    (r.next q x).toNat = min ((r.clamped q).toNat + r.step.toNat) r.standard.toNat := by
  have hgoal := ceiling_le_goal hle (r.clamped q)
  have hclamped := r.toNat_clamped q
  have hceiling := r.toNat_ceiling
  have hminimum := h.minimum_le
  have hstandard := h.standard_le
  rw [toNat_next]
  split <;> omega

/-- Above the target quality falls to its share, to the minimum at least. -/
theorem toNat_next_above (h : r.IsSound) (q : UInt8) (hx : r.target < x) :
    (r.next q x).toNat = max (r.share (r.clamped q).toNat x) r.minimum.toNat := by
  have hclamped := toNat_clamped_eq h q
  have hpos : 0 < (r.clamped q).toNat := by
    have hminimum := h.minimum_pos
    have hle := h.minimum_le
    omega
  have hgoal := toNat_goal_above h.target_pos hx hpos
  rw [toNat_next, hgoal, if_pos (share_lt h.target_pos hx hpos)]

theorem next_le_next (h : r.IsSound) (hq : q'.toNat ≤ q.toNat) (hxy : x ≤ y) :
    (r.next q' y).toNat ≤ (r.next q x).toNat := by
  have hc := toNat_clamped_eq h q
  have hc' := toNat_clamped_eq h q'
  have hminimum := h.minimum_le
  have hclamped : (r.clamped q').toNat ≤ (r.clamped q).toNat := by omega
  rcases le_or_gt y r.target with hy | hy
  · rw [toNat_next_below h q' hy, toNat_next_below h q (hxy.trans hy)]
    omega
  · rw [toNat_next_above h q' hy]
    rcases le_or_gt x r.target with hx' | hx'
    · -- Across the target: what is left is less than there was, and that does not fall.
      have hpos := h.minimum_pos
      have hshare := share_lt h.target_pos hy (show 0 < (r.clamped q').toNat by omega)
      rw [toNat_next_below h q hx']
      omega
    · have hshare := share_le_share h.target_pos hx' hxy hclamped
      rw [toNat_next_above h q hx']
      omega

/-! ### Runs -/

theorem run_le_run {xs ys : List Rat} (h : r.IsSound) (hle : List.Forall₂ (· ≤ ·) xs ys) (hq : q' ≤ q) :
    List.Forall₂ (fun a b => b ≤ a) (r.run q xs) (r.run q' ys) := by
  induction hle generalizing q q' with
  | nil => exact .nil
  | cons hxy _ ih =>
    have hnext := UInt8.le_iff_toNat_le.mpr (next_le_next h (UInt8.le_iff_toNat_le.mp hq) hxy)
    exact .cons hnext (ih hnext)

/-- With accepted settings whose target is a number, more traffic never means better quality: of two runs in exact
fractions, the one that starts from no higher a quality and reads no less at any step is at every step no higher.
Readings below zero, which do not occur, count as none. -/
theorem quality_antitone {s : BandwidthSettings} {r : QualityRule Rat} (h : s.validate = .ok ())
    (hr : s.exactRule? = some r) {xs ys : List Rat} (hle : List.Forall₂ (· ≤ ·) xs ys) {q q' : UInt8} (hq : q' ≤ q) :
    List.Forall₂ (fun a b => b ≤ a) (r.run q xs) (r.run q' ys) :=
  run_le_run (isSound_of_validate h hr) hle hq

/-- Two runs that cross the target of three at different steps. -/
theorem quality_antitone_standard :
    let r : QualityRule Rat := ⟨3, 75, 20, 2⟩
    BandwidthSettings.standard.validate = .ok () ∧ BandwidthSettings.standard.exactRule? = some r ∧
      r.run 60 [0, 3, 4] = [62, 64, 48] ∧ r.run 50 [3, 4, 60] = [52, 39, 20] ∧
      List.Forall₂ (fun a b => b ≤ a) (r.run 60 [0, 3, 4]) (r.run 50 [3, 4, 60]) := by
  intro r
  have htarget : exactValue? BandwidthSettings.standard.targetMbps = some 3 := by decide +kernel
  have hr : BandwidthSettings.standard.exactRule? = some r := by
    rw [BandwidthSettings.exactRule?, htarget]
    rfl
  have hle : List.Forall₂ (· ≤ ·) ([0, 3, 4] : List Rat) [3, 4, 60] :=
    .cons (by decide) (.cons (by decide) (.cons (by decide) .nil))
  exact ⟨rfl, hr, by decide +kernel, by decide +kernel, quality_antitone rfl hr hle (by decide)⟩

end QualityRule
end Screencast
