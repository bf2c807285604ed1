import Mathlib.Data.Nat.Dist
import Screencast.Proofs.MergedAreas

/-!
# Operations on sets of pixels

A rectangle is read as its set of pixels, so that all ways to write one without pixels are the same. Cutting is
the common part, merging the least rectangle around both, and growing reaches the pixels within a distance.
The laws of merging are those of least rectangles: whatever has the same pixels to be around is the same.
-/

namespace Screencast

namespace Rect

variable {a b c r : Rect}

def SamePixels (a b : Rect) : Prop := ∀ x y, a.Covers x y ↔ b.Covers x y

/-- One of the rectangle's pixels is at most `n` columns and at most `n` rows away. -/
def IsNear (r : Rect) (n x y : Nat) : Prop := ∃ px py, r.Covers px py ∧ Nat.dist x px ≤ n ∧ Nat.dist y py ≤ n

/-! ### Merging -/

theorem union_comm (ha : a.Fits) (hb : b.Fits) : (a.union b).SamePixels (b.union a) := by
  have hab := isAround_union ha hb
  have hba := (isAround_union hb ha).congr fun x y => Or.comm
  exact hab.covers_iff hba

theorem union_assoc (ha : a.Fits) (hb : b.Fits) (hc : c.Fits) :
    ((a.union b).union c).SamePixels (a.union (b.union c)) := by
  have hleft := (isAround_union ha hb).union (isAround_self c) (fits_union ha hb) hc
  have hright := (isAround_self a).union (isAround_union hb hc) ha (fits_union hb hc)
  exact hleft.covers_iff (hright.congr fun x y => or_assoc.symm)

theorem union_self (ha : a.Fits) : (a.union a).SamePixels a := by
  have h := (isAround_union ha ha).congr fun x y => or_self_iff
  exact h.covers_iff (isAround_self a)

/-! ### Growing -/

/-- The nearest column or row of a side is one of its ends, or the place itself. -/
theorem exists_dist_le {near size n x : Nat} (h : 0 < size) :
    (∃ p, (near ≤ p ∧ p < near + size) ∧ Nat.dist x p ≤ n) ↔ near ≤ x + n ∧ x < near + size + n := by
  unfold Nat.dist
  constructor
  · rintro ⟨p, hp, hdist⟩
    omega
  · intro hx
    refine ⟨max near (min x (near + size - 1)), ?_, ?_⟩ <;> omega

theorem isNear_iff (h : r.isEmpty = false) (n x y : Nat) :
    r.IsNear n x y ↔ (r.x.toNat ≤ x + n ∧ x < r.x.toNat + r.width.toNat + n) ∧
      (r.y.toNat ≤ y + n ∧ y < r.y.toNat + r.height.toNat + n) := by
  have hsize := mt (isEmpty_iff r).mpr (Bool.eq_false_iff.mp h)
  have hwidth : 0 < r.width.toNat := by omega
  have hheight : 0 < r.height.toNat := by omega
  rw [← exists_dist_le hwidth, ← exists_dist_le hheight]
  constructor
  · rintro ⟨px, py, ⟨hpx, hpy⟩, hx, hy⟩
    exact ⟨⟨px, hpx, hx⟩, py, hpy, hy⟩
  · rintro ⟨⟨px, hpx, hx⟩, py, hpy, hy⟩
    exact ⟨px, py, ⟨hpx, hpy⟩, hx, hy⟩

theorem pad_of_isEmpty (h : r.isEmpty = true) (amount : UInt32) (bounds : Rect) : r.pad amount bounds = empty :=
  if_pos h

/-- A rectangle grown by an amount and cut to the bounds has the pixels of the bounds within that distance. -/
theorem covers_pad_iff (hr : r.Fits) (hb : b.Fits) (amount : UInt32) (x y : Nat) :
    (r.pad amount b).Covers x y ↔ b.Covers x y ∧ r.IsNear amount.toNat x y := by
  cases he : r.isEmpty with
  | true =>
    rw [pad_of_isEmpty he]
    refine iff_of_false (not_covers_empty x y) ?_
    rintro ⟨-, px, py, hc, -⟩
    rw [hc.nonempty] at he
    cases he
  | false => rw [covers_pad hr hb amount he, isNear_iff he]

/-- With far edges that are words, the common part of two rectangles has their common pixels; merging leads to the
least rectangle around the pixels of both, in any order and grouping, and changes nothing where both are one; and
a rectangle grown within bounds has the pixels of these that are near enough to it, and none if it has none. -/
theorem operations_exact (ha : a.Fits) (hb : b.Fits) (hc : c.Fits) :
    (∀ x y, (a.intersect b).Covers x y ↔ a.Covers x y ∧ b.Covers x y) ∧
      (a.union b).IsAround (fun x y => a.Covers x y ∨ b.Covers x y) ∧
      (a.union b).SamePixels (b.union a) ∧
      ((a.union b).union c).SamePixels (a.union (b.union c)) ∧
      (a.union a).SamePixels a ∧
      (∀ (amount : UInt32) (x y : Nat),
        (a.pad amount b).Covers x y ↔ b.Covers x y ∧ a.IsNear amount.toNat x y) ∧
      (a.isEmpty = true → ∀ amount : UInt32, (a.pad amount b).isEmpty = true) := by
  refine ⟨fun x y => covers_intersect ha hb, isAround_union ha hb, union_comm ha hb, union_assoc ha hb hc,
    union_self ha, covers_pad_iff ha hb, fun he amount => ?_⟩
  rw [pad_of_isEmpty he]
  exact isEmpty_empty

/-- A rectangle that ends with the last word takes in all of it what is grown without end, and one without rows
does not count. -/
theorem operations_exact_at_last_word :
    let a : Rect := ⟨2, 3, 4, 5⟩
    let b : Rect := ⟨4294967290, 0, 5, 10⟩
    let c : Rect := ⟨9, 4294967295, 7, 0⟩
    a.Fits ∧ b.Fits ∧ c.Fits ∧ a.pad 4294967295 b = b ∧ a.union c = a ∧
      (∀ x y, (a.intersect b).Covers x y ↔ a.Covers x y ∧ b.Covers x y) ∧
      (a.union b).IsAround (fun x y => a.Covers x y ∨ b.Covers x y) ∧
      (a.union b).SamePixels (b.union a) ∧
      ((a.union b).union c).SamePixels (a.union (b.union c)) ∧
      (a.union a).SamePixels a ∧
      (∀ (amount : UInt32) (x y : Nat),
        (a.pad amount b).Covers x y ↔ b.Covers x y ∧ a.IsNear amount.toNat x y) ∧
      (a.isEmpty = true → ∀ amount : UInt32, (a.pad amount b).isEmpty = true) := by
  intro a b c
  have ha : a.Fits := by decide
  have hb : b.Fits := by decide
  have hc : c.Fits := by decide
  exact ⟨ha, hb, hc, by decide, by decide, operations_exact ha hb hc⟩

end Rect
end Screencast
