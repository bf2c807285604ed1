import Screencast.Instances

/-!
# Saturating 32-bit arithmetic

Sums that stop at the largest word and differences that stop at zero. The two laws
`toNat_satAdd` and `toNat_satSub` read both operations in the natural numbers.
-/

namespace Screencast

/-- The sum, or the largest word if the sum does not fit. -/
def satAdd (a b : UInt32) : UInt32 := if a.toNat + b.toNat < 2 ^ 32 then a + b else 0xFFFFFFFF

/-- The difference, or zero if `b` is the larger. -/
def satSub (a b : UInt32) : UInt32 := if b ≤ a then a - b else 0

theorem toNat_satAdd (a b : UInt32) : (satAdd a b).toNat = min (a.toNat + b.toNat) (2 ^ 32 - 1) := by
  unfold satAdd
  split
  · rw [UInt32.toNat_add]; omega
  · have h : (0xFFFFFFFF : UInt32).toNat = 2 ^ 32 - 1 := rfl
    rw [h]; omega

theorem toNat_satSub (a b : UInt32) : (satSub a b).toNat = a.toNat - b.toNat := by
  unfold satSub
  split
  · rename_i h
    exact UInt32.toNat_sub_of_le _ _ h
  · rename_i h
    have h' : a.toNat < b.toNat := by rw [← UInt32.lt_iff_toNat_lt]; exact UInt32.not_le.mp h
    have h0 : (0 : UInt32).toNat = 0 := rfl
    rw [h0]; omega

end Screencast
