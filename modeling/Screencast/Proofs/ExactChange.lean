import Screencast.Proofs.Change

/-!
# A changed region is exact

The region of a change is the smallest rectangle around all pixels in which two frames differ, with the
margin added on every side as far as the frame reaches. How the rows of a frame lie in memory does not
matter. Frames of different sizes or formats are not compared.
-/

namespace Screencast

namespace Rect

variable {r box : Rect} {P : Nat → Nat → Prop}

/-- The smallest rectangle with all pixels of `P`. -/
structure IsAround (r : Rect) (P : Nat → Nat → Prop) : Prop where
  covers : ∀ x y, P x y → r.Covers x y
  least : ∀ other : Rect, (∀ x y, P x y → other.Covers x y) → ∀ x y, r.Covers x y → other.Covers x y

/-- Each of the four sides has a pixel of `P`. -/
structure Touches (r : Rect) (P : Nat → Nat → Prop) : Prop where
  left : ∃ y, P r.x.toNat y
  top : ∃ x, P x r.y.toNat
  right : ∃ y, P (r.x.toNat + r.width.toNat - 1) y
  bottom : ∃ x, P x (r.y.toNat + r.height.toNat - 1)

/-- `r` is `box` with `margin` more columns and rows on each side, as far as a frame of this size reaches. -/
structure IsGrown (r box : Rect) (margin width height : Nat) : Prop where
  left : r.x.toNat = box.x.toNat - margin
  top : r.y.toNat = box.y.toNat - margin
  right : r.x.toNat + r.width.toNat = min (box.x.toNat + box.width.toNat + margin) width
  bottom : r.y.toNat + r.height.toNat = min (box.y.toNat + box.height.toNat + margin) height

theorem isAround_of_touches (hc : ∀ x y, P x y → r.Covers x y) (ht : r.Touches P) : r.IsAround P := by
  refine ⟨hc, fun other ho x y hxy => ?_⟩
  obtain ⟨yl, hl⟩ := ht.left
  obtain ⟨xt, ht'⟩ := ht.top
  obtain ⟨yr, hr⟩ := ht.right
  obtain ⟨xb, hb⟩ := ht.bottom
  have hol := (ho _ _ hl).1
  have hot := (ho _ _ ht').2
  have hor := (ho _ _ hr).1
  have hob := (ho _ _ hb).2
  unfold Covers at hxy ⊢
  omega

theorem isGrown_pad {width height : UInt32} (hl : box.LiesIn width height) (he : box.isEmpty = false)
    (margin : UInt32) :
    (box.pad margin ⟨0, 0, width, height⟩).IsGrown box margin.toNat width.toNat height.toNat := by
  have hsize := mt (isEmpty_iff box).mpr (Bool.eq_false_iff.mp he)
  have hbounds := (liesIn_bounds width height).fits
  have hw := width.toNat_lt
  have hh := height.toNat_lt
  have h0 : (0 : UInt32).toNat = 0 := rfl
  have hfits := hl.fits
  obtain ⟨hlw, hlh⟩ := hl
  have hleft : (max (satSub box.x margin) 0).toNat = box.x.toNat - margin.toNat := by
    rw [toNat_max, toNat_satSub, h0, Nat.max_zero]
  have htop : (max (satSub box.y margin) 0).toNat = box.y.toNat - margin.toNat := by
    rw [toNat_max, toNat_satSub, h0, Nat.max_zero]
  have hright : (min (satAdd box.right margin) (right ⟨0, 0, width, height⟩)).toNat =
      min (box.x.toNat + box.width.toNat + margin.toNat) width.toNat := by
    rw [toNat_min, toNat_satAdd, toNat_right hfits, toNat_right hbounds, h0, Nat.zero_add, Nat.min_assoc,
      Nat.min_eq_right (Nat.le_sub_one_of_lt hw)]
  have hbottom : (min (satAdd box.bottom margin) (bottom ⟨0, 0, width, height⟩)).toNat =
      min (box.y.toNat + box.height.toNat + margin.toNat) height.toNat := by
    rw [toNat_min, toNat_satAdd, toNat_bottom hfits, toNat_bottom hbounds, h0, Nat.zero_add, Nat.min_assoc,
      Nat.min_eq_right (Nat.le_sub_one_of_lt hh)]
  -- Grown and cut, a rectangle that lies in the frame keeps its near edges before its far ones.
  obtain ⟨hx, hy, hsx, hsy⟩ := edges_ofEdges (max (satSub box.x margin) 0) (max (satSub box.y margin) 0)
    (min (satAdd box.right margin) (right ⟨0, 0, width, height⟩))
    (min (satAdd box.bottom margin) (bottom ⟨0, 0, width, height⟩)) (by omega) (by omega)
  have hpad : box.pad margin ⟨0, 0, width, height⟩ = ofEdges (max (satSub box.x margin) 0)
      (max (satSub box.y margin) 0) (min (satAdd box.right margin) (right ⟨0, 0, width, height⟩))
      (min (satAdd box.bottom margin) (bottom ⟨0, 0, width, height⟩)) := if_neg (by rw [he]; decide)
  rw [hpad]
  exact ⟨hx.trans hleft, hy.trans htop, hsx.trans hright, hsy.trans hbottom⟩

theorem IsGrown.eq_of_zero {width height : UInt32} (h : r.IsGrown box 0 width.toNat height.toNat)
    (hl : box.LiesIn width height) : r = box := by
  obtain ⟨hlw, hlh⟩ := hl
  have hx : r.x = box.x := UInt32.toNat_inj.mp h.left
  have hy : r.y = box.y := UInt32.toNat_inj.mp h.top
  have hright := h.right
  have hbottom := h.bottom
  refine eq_of_edges hx hy ?_ ?_ <;> omega

theorem IsGrown.covers {margin : Nat} {width height : UInt32} (h : r.IsGrown box margin width.toNat height.toNat)
    (hl : box.LiesIn width height) {x y : Nat} (hc : box.Covers x y) : r.Covers x y := by
  have hin := hl.covers hc
  have hleft := h.left
  have htop := h.top
  have hright := h.right
  have hbottom := h.bottom
  unfold Covers at hc ⊢
  omega

end Rect

namespace Frame

section Box

variable {P : Nat → Nat → Prop} {width height : UInt32} {b : ChangeBox}

theorem rect_touches (hP : ∀ x y, P x y → x < width.toNat ∧ y < height.toNat) (hb : IsHull P (some b)) :
    b.rect.Touches P := by
  obtain ⟨hx, hy, hright, hbottom⟩ := rect_edges hP hb
  obtain ⟨-, hl, hr, ht, hb⟩ := hb
  refine ⟨?_, ?_, ?_, ?_⟩
  · rw [hx]
    exact hl
  · rw [hy]
    exact ht
  · rw [hright]
    exact hr
  · rw [hbottom]
    exact hb

end Box

/-! ### The answer of a comparison -/

/-- What the changed region of `current` has to be. -/
structure IsChange (current previous : Frame) (padding : UInt32) (r : Rect) : Prop where
  empty_iff : r = Rect.empty ↔ ∀ x y, ¬current.Differ previous x y
  grown : (∃ x y, current.Differ previous x y) → ∃ box : Rect, box.IsAround (current.Differ previous) ∧
    r.IsGrown box padding.toNat current.width.toNat current.height.toNat
  covers : ∀ x y, current.Differ previous x y → r.Covers x y
  touches : padding = 0 → (∃ x y, current.Differ previous x y) → r.Touches (current.Differ previous)

variable {current previous : Frame}

theorem isChange_region {box : Option ChangeBox} (hb : IsHull (current.Differ previous) box) (padding : UInt32) :
    current.IsChange previous padding (ChangeBox.region padding current.bounds box) := by
  have hP : ∀ x y, current.Differ previous x y → x < current.width.toNat ∧ y < current.height.toNat :=
    fun x y h => h.1
  cases box with
  | none =>
    refine ⟨⟨fun _ => hb, fun _ => rfl⟩, ?_, fun x y h => absurd h (hb x y), fun _ => ?_⟩
    · rintro ⟨x, y, h⟩
      exact absurd h (hb x y)
    · rintro ⟨x, y, h⟩
      exact absurd h (hb x y)
  | some b =>
    have hl := rect_liesIn hP hb
    have hcovers : ∀ x y, current.Differ previous x y → b.rect.Covers x y := fun x y h => rect_covers hP hb h
    have htouches := rect_touches hP hb
    obtain ⟨y, hdiffer⟩ := htouches.left
    have hgrown : (ChangeBox.region padding current.bounds (some b)).IsGrown b.rect padding.toNat
        current.width.toNat current.height.toNat := Rect.isGrown_pad hl (hcovers _ _ hdiffer).nonempty padding
    refine ⟨?_, fun _ => ⟨b.rect, Rect.isAround_of_touches hcovers htouches, hgrown⟩,
      fun x y h => hgrown.covers hl (hcovers x y h), ?_⟩
    · refine ⟨fun hempty => ?_, fun hnone => absurd hdiffer (hnone _ y)⟩
      have hcover := hgrown.covers hl (hcovers _ _ hdiffer)
      rw [hempty] at hcover
      exact absurd hcover (Rect.not_covers_empty _ _)
    · rintro rfl -
      rw [hgrown.eq_of_zero hl]
      exact htouches

end Frame

variable {current previous : Frame}

/-- A comparison of two well-formed frames of one size and one format gives the smallest rectangle around
their differences, grown by the margin and cut to the frame; any other two are refused with the reason. -/
theorem change_exact (hc : current.WellFormed) (hp : previous.WellFormed) (padding : UInt32) :
    (current.Alike previous → ∃ r, current.change (some previous) padding = .ok r ∧
        current.IsChange previous padding r) ∧
      (current.width ≠ previous.width ∨ current.height ≠ previous.height →
        current.change (some previous) padding = .error
          (.dimensionMismatch (current.width, current.height) (previous.width, previous.height))) ∧
      (current.width = previous.width → current.height = previous.height → current.format ≠ previous.format →
        current.change (some previous) padding = .error .pixelFormatMismatch) := by
  refine ⟨fun hcp => ?_, Frame.change_error padding, Frame.change_format_error padding⟩
  obtain ⟨box, hbox, hr⟩ := Frame.change_hull hc hp hcp padding
  exact ⟨_, hr, Frame.isChange_region hbox padding⟩

/-- Packed rows over rows with one more byte each and one more byte behind them. -/
theorem change_exact_padded :
    let current : Frame := ⟨1, 2, 3, .rgb, ⟨#[1, 1, 1, 2, 2, 9]⟩⟩
    let previous : Frame := ⟨1, 2, 4, .rgb, ⟨#[1, 1, 1, 7, 2, 2, 2, 8, 0]⟩⟩
    current.WellFormed ∧ previous.WellFormed ∧ current.Alike previous ∧ current.Differ previous 0 1 ∧
      ∃ r, current.change (some previous) 1 = .ok r ∧ current.IsChange previous 1 r := by
  intro current previous
  have hc : current.WellFormed := by decide
  have hp : previous.WellFormed := by decide
  have hdiffer : current.Differ previous 0 1 := by
    refine ⟨by decide, ?_⟩
    rw [Frame.pixel_ok hc (by decide) (by decide), Frame.pixel_ok hp (by decide) (by decide), ne_eq, Except.ok.injEq]
    decide
  exact ⟨hc, hp, ⟨rfl, rfl, rfl⟩, hdiffer, (change_exact hc hp 1).1 ⟨rfl, rfl, rfl⟩⟩

end Screencast
