import Mathlib.Data.List.Chain
import Screencast.Proofs.ExactQuality

/-!
# The quality loop settles

A link that stays above the target takes quality down at every step, however little it is above, since the
share of a whole number cut down to a whole number is less. A link that stays at the target or below takes it
up by the step, cut off at the standard quality. So both loops end, and neither passes its end.
-/

namespace Screencast
namespace QualityRule

variable {r : QualityRule Rat} {q p : UInt8} {x : Rat} {xs : List Rat}

/-- Between the minimum and the standard quality. -/
def InRange (r : QualityRule Rat) (q : UInt8) : Prop := r.minimum ≤ q ∧ q ≤ r.standard

instance (r : QualityRule Rat) (q : UInt8) : Decidable (r.InRange q) := inferInstanceAs (Decidable (_ ∧ _))

/-- From the minimum nothing changes, and from any other quality to a lower one. -/
def Falls (r : QualityRule Rat) (before after : UInt8) : Prop :=
  if before = r.minimum then after = r.minimum else r.minimum ≤ after ∧ after < before

/-- Up by the step, or by what is left to the standard quality. -/
def Climbs (r : QualityRule Rat) (before after : UInt8) : Prop :=
  after.toNat = before.toNat + min r.step.toNat (r.standard.toNat - before.toNat)

/-! ### One step -/

theorem inRange_iff : r.InRange q ↔ r.minimum.toNat ≤ q.toNat ∧ q.toNat ≤ r.standard.toNat := by
  simp only [InRange, UInt8.le_iff_toNat_le]

theorem toNat_clamped_of_inRange (h : r.IsSound) (hq : r.InRange q) : (r.clamped q).toNat = q.toNat := by
  rw [inRange_iff] at hq
  rw [toNat_clamped_eq h]
  omega

theorem inRange_next (h : r.IsSound) (q : UInt8) (x : Rat) : r.InRange (r.next q x) := by
  have hbounds := r.next_bounds q x
  have hceiling := r.toNat_ceiling
  have hminimum := h.minimum_le
  rw [inRange_iff]
  omega

theorem falls_next (h : r.IsSound) (hq : r.InRange q) (hx : r.target < x) : r.Falls q (r.next q x) := by
  have hclamped := toNat_clamped_of_inRange h hq
  have hnext := toNat_next_above h q hx
  have hpos := h.minimum_pos
  rw [inRange_iff] at hq
  rw [hclamped] at hnext
  have hshare := share_lt h.target_pos hx (show 0 < q.toNat by omega)
  unfold Falls
  split
  · rename_i heq
    subst heq
    rw [← UInt8.toNat_inj]
    omega
  · rename_i hne
    rw [← UInt8.toNat_inj] at hne
    rw [UInt8.le_iff_toNat_le, UInt8.lt_iff_toNat_lt]
    omega

theorem climbs_next (h : r.IsSound) (hq : r.InRange q) (hx : x ≤ r.target) : r.Climbs q (r.next q x) := by
  have hclamped := toNat_clamped_of_inRange h hq
  have hnext := toNat_next_below h q hx
  rw [inRange_iff] at hq
  unfold Climbs
  omega

theorem Falls.eq_minimum (h : r.Falls r.minimum q) : q = r.minimum := by simpa [Falls] using h

theorem Climbs.eq_standard (h : r.Climbs r.standard q) : q = r.standard := by
  unfold Climbs at h
  rw [← UInt8.toNat_inj]
  omega

/-! ### Runs -/

/-- What every step does from within the range, all of a run does. -/
theorem isChain_run {R : UInt8 → UInt8 → Prop} {P : Rat → Prop} (h : r.IsSound)
    (hstep : ∀ q x, r.InRange q → P x → R q (r.next q x)) (hxs : ∀ x ∈ xs, P x) (hq : r.InRange q) :
    (q :: r.run q xs).IsChain R := by
  induction xs generalizing q with
  | nil => exact .singleton q
  | cons x xs ih =>
    have hx := hxs x List.mem_cons_self
    have hrest := ih (fun y hy => hxs y (List.mem_cons_of_mem x hy)) (inRange_next h q x)
    exact .cons_cons (hstep q x hq hx) hrest

theorem inRange_of_mem_run (h : r.IsSound) (hp : p ∈ r.run q xs) : r.InRange p := by
  induction xs generalizing q with
  | nil => cases hp
  | cons x xs ih =>
    rcases List.mem_cons.mp hp with rfl | hp
    · exact inRange_next h q x
    · exact ih hp

/-- A chain does not leave a quality that no step leaves. -/
theorem eq_of_isChain {R : UInt8 → UInt8 → Prop} (hstay : ∀ p, R q p → p = q) {qs : List UInt8}
    (h : (q :: qs).IsChain R) (hp : p ∈ qs) : p = q := by
  induction qs with
  | nil => cases hp
  | cons b qs ih =>
    obtain ⟨hb, hrest⟩ := List.isChain_cons_cons.mp h
    obtain rfl := hstay b hb
    rcases List.mem_cons.mp hp with rfl | hp
    · rfl
    · exact ih hrest hp

/-- A falling chain is at the minimum once it has made as many steps as it stands above it. -/
theorem eq_minimum_of_falls {qs : List UInt8} {n : Nat} (h : (q :: qs).IsChain r.Falls) (hq : r.minimum ≤ q)
    (hn : q.toNat ≤ r.minimum.toNat + n) (hp : p ∈ (q :: qs).drop n) : p = r.minimum := by
  induction n generalizing q qs with
  | zero =>
    rw [UInt8.le_iff_toNat_le] at hq
    obtain rfl : q = r.minimum := UInt8.toNat_inj.mp (Nat.le_antisymm hn hq)
    rcases List.mem_cons.mp hp with rfl | hp
    · rfl
    · exact eq_of_isChain (fun _ => Falls.eq_minimum) h hp
  | succ n ih =>
    cases qs with
    | nil => simp at hp
    | cons b qs =>
      obtain ⟨hb, hrest⟩ := List.isChain_cons_cons.mp h
      unfold Falls at hb
      split at hb
      · subst hb
        exact ih hrest (UInt8.le_refl _) (Nat.le_add_right _ _) hp
      · have hlt := UInt8.lt_iff_toNat_lt.mp hb.2
        exact ih hrest hb.1 (by omega) hp

/-- With accepted settings whose target is a number, and from any quality between the minimum and the standard one:
readings above the target take quality down at every step to the minimum, after no more steps than there are
between the two bounds; readings up to the target take it up at every step, never past the standard one. What is
reached is kept. -/
theorem quality_settles {s : BandwidthSettings} (h : s.validate = .ok ()) (hr : s.exactRule? = some r)
    (hq : r.InRange q) (xs : List Rat) :
    ((∀ x ∈ xs, r.target < x) → (q :: r.run q xs).IsChain r.Falls ∧
      ∀ p ∈ (q :: r.run q xs).drop (r.standard.toNat - r.minimum.toNat), p = r.minimum) ∧
    ((∀ x ∈ xs, 0 ≤ x ∧ x ≤ r.target) → (q :: r.run q xs).IsChain r.Climbs ∧ (∀ p ∈ r.run q xs, p ≤ r.standard) ∧
      ∀ before after, q :: r.run q xs = before ++ r.standard :: after → ∀ p ∈ after, p = r.standard) := by
  have hs := isSound_of_validate h hr
  constructor
  · intro habove
    have hchain := isChain_run hs (fun _ _ => falls_next hs) habove hq
    refine ⟨hchain, fun p hp => eq_minimum_of_falls hchain hq.1 ?_ hp⟩
    rw [inRange_iff] at hq
    omega
  · intro hbelow
    have hchain := isChain_run hs (fun _ _ hq hx => climbs_next hs hq hx.2) hbelow hq
    refine ⟨hchain, fun p hp => (inRange_of_mem_run hs hp).2, fun before after hsplit p hp => ?_⟩
    rw [hsplit] at hchain
    exact eq_of_isChain (fun _ => Climbs.eq_standard) hchain.right_of_append hp

/-- One part in three hundred above the target takes quality down by one at a time; at the target it climbs by two,
and by one at the end. -/
theorem quality_settles_close_to_target :
    let r : QualityRule Rat := ⟨3, 75, 20, 2⟩
    BandwidthSettings.standard.validate = .ok () ∧ BandwidthSettings.standard.exactRule? = some r ∧
      (r.InRange 22 ∧ r.run 22 [3.01, 3.01, 3.01] = [21, 20, 20] ∧
        (22 :: r.run 22 [3.01, 3.01, 3.01]).IsChain r.Falls) ∧
      r.InRange 72 ∧ r.run 72 [3, 0, 3] = [74, 75, 75] ∧ (72 :: r.run 72 [3, 0, 3]).IsChain r.Climbs := by
  intro r
  have htarget : exactValue? BandwidthSettings.standard.targetMbps = some 3 := by decide +kernel
  have hr : BandwidthSettings.standard.exactRule? = some r := by
    rw [BandwidthSettings.exactRule?, htarget]
    rfl
  have hfalls := (quality_settles rfl hr (q := 22) (by decide) [3.01, 3.01, 3.01]).1 (by decide +kernel)
  have hclimbs := (quality_settles rfl hr (q := 72) (by decide) [3, 0, 3]).2 (by decide +kernel)
  exact ⟨rfl, hr, ⟨by decide, by decide +kernel, hfalls.1⟩, by decide, by decide +kernel, hclimbs.1⟩

end QualityRule
end Screencast
