import Screencast.Geometry.Rect

/-!
# Rectangles as sets of pixels

Each operation read on the pixels it covers. The laws are exact where the far edges are words; that
a cut rectangle stays inside its bounds needs no such thing.
-/

namespace Screencast

theorem toNat_max (a b : UInt32) : (max a b).toNat = max a.toNat b.toNat := by
  rcases Nat.le_total a.toNat b.toNat with h | h
  · have hab : a ≤ b := UInt32.le_iff_toNat_le.mpr h
    rw [Nat.max_eq_right h, show max a b = b from if_pos hab]
  · rw [Nat.max_eq_left h]
    show (if a ≤ b then b else a).toNat = a.toNat
    split
    · rename_i hab
      have hle := UInt32.le_iff_toNat_le.mp hab
      omega
    · rfl

theorem toNat_min (a b : UInt32) : (min a b).toNat = min a.toNat b.toNat := by
  rcases Nat.le_total a.toNat b.toNat with h | h
  · have hab : a ≤ b := UInt32.le_iff_toNat_le.mpr h
    rw [Nat.min_eq_left h, show min a b = a from if_pos hab]
  · rw [Nat.min_eq_right h]
    show (if a ≤ b then a else b).toNat = b.toNat
    split
    · rename_i hab
      have hle := UInt32.le_iff_toNat_le.mp hab
      omega
    · rfl

namespace Rect

variable {a b r : Rect} {px py : Nat}

/-- The near edges with the far ones in the natural numbers. -/
theorem ofEdges_cases (left top right bottom : UInt32) :
    (ofEdges left top right bottom = empty ∧ (right.toNat ≤ left.toNat ∨ bottom.toNat ≤ top.toNat)) ∨
      ((ofEdges left top right bottom).x = left ∧ (ofEdges left top right bottom).y = top ∧
        left.toNat + (ofEdges left top right bottom).width.toNat = right.toNat ∧
        top.toNat + (ofEdges left top right bottom).height.toNat = bottom.toNat ∧
        left.toNat < right.toNat ∧ top.toNat < bottom.toNat) := by
  unfold ofEdges
  split
  · rename_i h
    exact .inl ⟨rfl, h.imp UInt32.le_iff_toNat_le.mp UInt32.le_iff_toNat_le.mp⟩
  · rename_i h
    obtain ⟨hw, hh⟩ := not_or.mp h
    have hl : left.toNat < right.toNat := UInt32.lt_iff_toNat_lt.mp (UInt32.not_le.mp hw)
    have ht : top.toNat < bottom.toNat := UInt32.lt_iff_toNat_lt.mp (UInt32.not_le.mp hh)
    refine .inr ⟨rfl, rfl, ?_, ?_, hl, ht⟩
    · show left.toNat + (right - left).toNat = right.toNat
      rw [UInt32.toNat_sub_of_le _ _ (UInt32.le_iff_toNat_le.mpr (Nat.le_of_lt hl))]
      omega
    · show top.toNat + (bottom - top).toNat = bottom.toNat
      rw [UInt32.toNat_sub_of_le _ _ (UInt32.le_iff_toNat_le.mpr (Nat.le_of_lt ht))]
      omega

theorem not_covers_empty (px py : Nat) : ¬empty.Covers px py := by
  rintro ⟨⟨-, h⟩, -⟩
  exact absurd h (Nat.not_lt_zero px)

theorem covers_ofEdges {left top right bottom : UInt32} :
    (ofEdges left top right bottom).Covers px py ↔
      (left.toNat ≤ px ∧ px < right.toNat) ∧ (top.toNat ≤ py ∧ py < bottom.toNat) := by
  rcases ofEdges_cases left top right bottom with ⟨he, h⟩ | ⟨hx, hy, hw, hh, -, -⟩
  · rw [he]
    refine iff_of_false (not_covers_empty px py) ?_
    omega
  · unfold Covers
    rw [hx, hy, hw, hh]

theorem edges_ofEdges (left top right bottom : UInt32) (hw : left.toNat < right.toNat)
    (hh : top.toNat < bottom.toNat) :
    (ofEdges left top right bottom).x.toNat = left.toNat ∧ (ofEdges left top right bottom).y.toNat = top.toNat ∧
      (ofEdges left top right bottom).x.toNat + (ofEdges left top right bottom).width.toNat = right.toNat ∧
      (ofEdges left top right bottom).y.toNat + (ofEdges left top right bottom).height.toNat = bottom.toNat := by
  rcases ofEdges_cases left top right bottom with ⟨-, hinverted⟩ | ⟨hx, hy, hsx, hsy, -, -⟩
  · omega
  · rw [hx, hy]
    exact ⟨rfl, rfl, hsx, hsy⟩

theorem ofEdges_edges_le (left top right bottom : UInt32) :
    (ofEdges left top right bottom).x.toNat + (ofEdges left top right bottom).width.toNat ≤ right.toNat ∧
      (ofEdges left top right bottom).y.toNat + (ofEdges left top right bottom).height.toNat ≤ bottom.toNat := by
  rcases ofEdges_cases left top right bottom with ⟨he, -⟩ | ⟨hx, hy, hw, hh, -, -⟩
  · rw [he]
    exact ⟨Nat.zero_le _, Nat.zero_le _⟩
  · rw [hx, hy]
    exact ⟨Nat.le_of_eq hw, Nat.le_of_eq hh⟩

theorem fits_ofEdges (left top right bottom : UInt32) : (ofEdges left top right bottom).Fits := by
  obtain ⟨hw, hh⟩ := ofEdges_edges_le left top right bottom
  exact ⟨Nat.lt_of_le_of_lt hw right.toNat_lt, Nat.lt_of_le_of_lt hh bottom.toNat_lt⟩

theorem ofEdges_nonempty {left top right bottom : UInt32} (h : (ofEdges left top right bottom).isEmpty = false) :
    (ofEdges left top right bottom).x = left ∧ (ofEdges left top right bottom).y = top ∧
      left.toNat + (ofEdges left top right bottom).width.toNat = right.toNat ∧
      top.toNat + (ofEdges left top right bottom).height.toNat = bottom.toNat := by
  rcases ofEdges_cases left top right bottom with ⟨he, -⟩ | ⟨hx, hy, hw, hh, -, -⟩
  · rw [he] at h
    cases h
  · exact ⟨hx, hy, hw, hh⟩

theorem Covers.nonempty (h : r.Covers px py) : r.isEmpty = false := by
  obtain ⟨⟨hl, hr⟩, ht, hb⟩ := h
  rw [← Bool.not_eq_true, isEmpty_iff]
  omega

theorem covers_corner (h : r.isEmpty = false) : r.Covers r.x.toNat r.y.toNat := by
  rw [← Bool.not_eq_true, isEmpty_iff] at h
  unfold Covers
  omega

theorem covers_intersect (ha : a.Fits) (hb : b.Fits) : (a.intersect b).Covers px py ↔ a.Covers px py ∧ b.Covers px py := by
  unfold intersect
  rw [covers_ofEdges, toNat_max, toNat_max, toNat_min, toNat_min, toNat_right ha, toNat_right hb, toNat_bottom ha,
    toNat_bottom hb]
  simp only [Covers, Nat.max_le, Nat.lt_min]
  omega

theorem covers_union (ha : a.Fits) (hb : b.Fits) (hae : a.isEmpty = false) (hbe : b.isEmpty = false) :
    (a.union b).Covers px py ↔
      (min a.x.toNat b.x.toNat ≤ px ∧ px < max (a.x.toNat + a.width.toNat) (b.x.toNat + b.width.toNat)) ∧
      (min a.y.toNat b.y.toNat ≤ py ∧ py < max (a.y.toNat + a.height.toNat) (b.y.toNat + b.height.toNat)) := by
  unfold union
  rw [if_neg (by rw [hae]; decide), if_neg (by rw [hbe]; decide), covers_ofEdges, toNat_max, toNat_max, toNat_min,
    toNat_min, toNat_right ha, toNat_right hb, toNat_bottom ha, toNat_bottom hb]

theorem fits_union (ha : a.Fits) (hb : b.Fits) : (a.union b).Fits := by
  unfold union
  split
  · exact hb
  · split
    · exact ha
    · exact fits_ofEdges _ _ _ _

theorem covers_union_of (ha : a.Fits) (hb : b.Fits) (h : a.Covers px py ∨ b.Covers px py) :
    (a.union b).Covers px py := by
  cases hae : a.isEmpty with
  | true =>
    rw [union, if_pos hae]
    refine h.resolve_left fun hc => ?_
    rw [hc.nonempty] at hae
    cases hae
  | false =>
    cases hbe : b.isEmpty with
    | true =>
      rw [union, if_neg (by rw [hae]; decide), if_pos hbe]
      refine h.resolve_right fun hc => ?_
      rw [hc.nonempty] at hbe
      cases hbe
    | false =>
      rw [covers_union ha hb hae hbe]
      rcases h with ⟨hx, hy⟩ | ⟨hx, hy⟩
      · exact ⟨⟨Nat.le_trans (Nat.min_le_left _ _) hx.1, Nat.lt_of_lt_of_le hx.2 (Nat.le_max_left _ _)⟩,
          Nat.le_trans (Nat.min_le_left _ _) hy.1, Nat.lt_of_lt_of_le hy.2 (Nat.le_max_left _ _)⟩
      · exact ⟨⟨Nat.le_trans (Nat.min_le_right _ _) hx.1, Nat.lt_of_lt_of_le hx.2 (Nat.le_max_right _ _)⟩,
          Nat.le_trans (Nat.min_le_right _ _) hy.1, Nat.lt_of_lt_of_le hy.2 (Nat.le_max_right _ _)⟩

theorem covers_pad (hr : r.Fits) (hb : b.Fits) (amount : UInt32) (he : r.isEmpty = false) :
    (r.pad amount b).Covers px py ↔ b.Covers px py ∧
      (r.x.toNat ≤ px + amount.toNat ∧ px < r.x.toNat + r.width.toNat + amount.toNat) ∧
      (r.y.toNat ≤ py + amount.toNat ∧ py < r.y.toNat + r.height.toNat + amount.toNat) := by
  have hfits := hb
  unfold Fits at hfits
  unfold pad
  rw [if_neg (by rw [he]; decide), covers_ofEdges, toNat_max, toNat_max, toNat_min, toNat_min, toNat_satSub,
    toNat_satSub, toNat_satAdd, toNat_satAdd, toNat_right hr, toNat_right hb, toNat_bottom hr, toNat_bottom hb]
  simp only [Covers, Nat.max_le, Nat.lt_min, Nat.sub_le_iff_le_add]
  omega

/-- The rectangle lies in a frame of this size. -/
def LiesIn (r : Rect) (width height : UInt32) : Prop :=
  r.x.toNat + r.width.toNat ≤ width.toNat ∧ r.y.toNat + r.height.toNat ≤ height.toNat

instance (r : Rect) (width height : UInt32) : Decidable (r.LiesIn width height) :=
  inferInstanceAs (Decidable (_ ∧ _))

theorem LiesIn.fits {width height : UInt32} (h : r.LiesIn width height) : r.Fits :=
  ⟨Nat.lt_of_le_of_lt h.1 width.toNat_lt, Nat.lt_of_le_of_lt h.2 height.toNat_lt⟩

theorem LiesIn.covers {width height : UInt32} (h : r.LiesIn width height) (hc : r.Covers px py) :
    px < width.toNat ∧ py < height.toNat := by
  obtain ⟨hw, hh⟩ := h
  unfold Covers at hc
  omega

theorem liesIn_bounds (width height : UInt32) : (⟨0, 0, width, height⟩ : Rect).LiesIn width height :=
  ⟨Nat.le_of_eq (Nat.zero_add _), Nat.le_of_eq (Nat.zero_add _)⟩

theorem covers_bounds {width height : UInt32} :
    (⟨0, 0, width, height⟩ : Rect).Covers px py ↔ px < width.toNat ∧ py < height.toNat := by
  have h0 : (0 : UInt32).toNat = 0 := rfl
  simp only [Covers, h0]
  omega

private theorem liesIn_ofEdges {width height : UInt32} (left top right bottom : UInt32)
    (hr : right.toNat ≤ width.toNat) (hb : bottom.toNat ≤ height.toNat) :
    (ofEdges left top right bottom).LiesIn width height := by
  obtain ⟨hw, hh⟩ := ofEdges_edges_le left top right bottom
  exact ⟨Nat.le_trans hw hr, Nat.le_trans hh hb⟩

theorem liesIn_intersect (a : Rect) (width height : UInt32) :
    (a.intersect ⟨0, 0, width, height⟩).LiesIn width height := by
  have hfits := (liesIn_bounds width height).fits
  refine liesIn_ofEdges _ _ _ _ ?_ ?_
  · rw [toNat_min, toNat_right hfits]
    exact Nat.le_trans (Nat.min_le_right _ _) (liesIn_bounds width height).1
  · rw [toNat_min, toNat_bottom hfits]
    exact Nat.le_trans (Nat.min_le_right _ _) (liesIn_bounds width height).2

theorem liesIn_pad (a : Rect) (amount width height : UInt32) :
    (a.pad amount ⟨0, 0, width, height⟩).LiesIn width height := by
  have hfits := (liesIn_bounds width height).fits
  unfold pad
  split
  · exact ⟨Nat.zero_le _, Nat.zero_le _⟩
  · refine liesIn_ofEdges _ _ _ _ ?_ ?_
    · rw [toNat_min, toNat_right hfits]
      exact Nat.le_trans (Nat.min_le_right _ _) (liesIn_bounds width height).1
    · rw [toNat_min, toNat_bottom hfits]
      exact Nat.le_trans (Nat.min_le_right _ _) (liesIn_bounds width height).2

theorem eq_of_edges {a b : Rect} (hx : a.x = b.x) (hy : a.y = b.y)
    (hw : a.x.toNat + a.width.toNat = b.x.toNat + b.width.toNat)
    (hh : a.y.toNat + a.height.toNat = b.y.toNat + b.height.toNat) : a = b := by
  obtain ⟨ax, ay, aw, ah⟩ := a
  obtain ⟨bx, bY, bw, bh⟩ := b
  obtain rfl : ax = bx := hx
  obtain rfl : ay = bY := hy
  obtain rfl : aw = bw := UInt32.toNat_inj.mp (Nat.add_left_cancel hw)
  obtain rfl : ah = bh := UInt32.toNat_inj.mp (Nat.add_left_cancel hh)
  rfl

theorem ofEdges_self (h : r.Fits) (he : r.isEmpty = false) : ofEdges r.x r.y r.right r.bottom = r := by
  have hc : (ofEdges r.x r.y r.right r.bottom).Covers r.x.toNat r.y.toNat := by
    rw [covers_ofEdges, toNat_right h, toNat_bottom h]
    exact covers_corner he
  obtain ⟨hx, hy, hw, hh⟩ := ofEdges_nonempty hc.nonempty
  rw [toNat_right h] at hw
  rw [toNat_bottom h] at hh
  exact eq_of_edges hx hy (by rw [hx]; exact hw) (by rw [hy]; exact hh)

/-- Cutting a nonempty rectangle to a frame that it lies in changes nothing. -/
theorem intersect_eq_self {width height : UInt32} (h : r.LiesIn width height) (he : r.isEmpty = false) :
    r.intersect ⟨0, 0, width, height⟩ = r := by
  have hb := (liesIn_bounds width height).fits
  have h0 : (0 : UInt32).toNat = 0 := rfl
  have hx : max r.x 0 = r.x := UInt32.toNat_inj.mp (by rw [toNat_max, h0, Nat.max_zero])
  have hy : max r.y 0 = r.y := UInt32.toNat_inj.mp (by rw [toNat_max, h0, Nat.max_zero])
  have hr : min r.right (right ⟨0, 0, width, height⟩) = r.right := by
    refine UInt32.toNat_inj.mp ?_
    rw [toNat_min, toNat_right h.fits, toNat_right hb, h0, Nat.zero_add, Nat.min_eq_left h.1]
  have ht : min r.bottom (bottom ⟨0, 0, width, height⟩) = r.bottom := by
    refine UInt32.toNat_inj.mp ?_
    rw [toNat_min, toNat_bottom h.fits, toNat_bottom hb, h0, Nat.zero_add, Nat.min_eq_left h.2]
  unfold intersect
  rw [hx, hy, hr, ht, ofEdges_self h.fits he]

end Rect

section Union

variable {rects : List Rect} {px py : Nat}

theorem covers_foldl_union {start : Rect} (hs : start.Fits) (h : ∀ r ∈ rects, r.Fits)
    (hc : start.Covers px py ∨ ∃ r ∈ rects, r.Covers px py) : (rects.foldl Rect.union start).Covers px py := by
  induction rects generalizing start with
  | nil => simpa using hc
  | cons r rest ih =>
    have hr := h r List.mem_cons_self
    refine ih (Rect.fits_union hs hr) (fun x hx => h x (List.mem_cons_of_mem r hx)) ?_
    rcases hc with hc | ⟨x, hx, hc⟩
    · exact .inl (Rect.covers_union_of hs hr (.inl hc))
    · rcases List.mem_cons.mp hx with rfl | hx
      · exact .inl (Rect.covers_union_of hs hr (.inr hc))
      · exact .inr ⟨x, hx, hc⟩

theorem fits_foldl_union {start : Rect} (hs : start.Fits) (h : ∀ r ∈ rects, r.Fits) :
    (rects.foldl Rect.union start).Fits := by
  induction rects generalizing start with
  | nil => exact hs
  | cons r rest ih =>
    have hr := h r List.mem_cons_self
    exact ih (Rect.fits_union hs hr) fun x hx => h x (List.mem_cons_of_mem r hx)

/-- The merged areas cover every pixel of the bounds that one of them covers. -/
theorem covers_unionWithin {bounds : Rect} (hb : bounds.Fits) (h : ∀ r ∈ rects, r.Fits) {r : Rect} (hr : r ∈ rects)
    (hc : r.Covers px py) (hbc : bounds.Covers px py) : (unionWithin rects bounds).Covers px py := by
  have hempty : Rect.empty.Fits := by decide
  have hf : ∀ x ∈ rects.filter fun r => !r.isEmpty, x.Fits := fun x hx => h x (List.mem_filter.mp hx).1
  refine (Rect.covers_intersect (fits_foldl_union hempty hf) hb).mpr ⟨?_, hbc⟩
  refine covers_foldl_union hempty hf (.inr ⟨r, ?_, hc⟩)
  rw [List.mem_filter, hc.nonempty]
  exact ⟨hr, rfl⟩

end Union
end Screencast
