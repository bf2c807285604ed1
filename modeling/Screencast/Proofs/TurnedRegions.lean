import Screencast.Proofs.Turns

/-!
# Turned regions

A rectangle of a frame turns with the frame: it covers the places to which its pixels move, it keeps its
area, and it stays inside. So to crop the turned frame at the turned rectangle is to turn the crop.
-/

namespace Screencast

namespace Rect

variable {r : Rect} {width height : UInt32}

theorem area_rotate (r : Rect) (rotation : Rotation) (width height : UInt32) :
    (r.rotate rotation width height).area = r.area := by
  cases rotation
  · rfl
  · exact Nat.mul_comm _ _
  · rfl
  · exact Nat.mul_comm _ _

theorem width_rotate (r : Rect) (rotation : Rotation) (width height : UInt32) :
    (r.rotate rotation width height).width = if rotation.isSideways then r.height else r.width := by
  cases rotation <;> rfl

theorem height_rotate (r : Rect) (rotation : Rotation) (width height : UInt32) :
    (r.rotate rotation width height).height = if rotation.isSideways then r.width else r.height := by
  cases rotation <;> rfl

theorem isEmpty_rotate (r : Rect) (rotation : Rotation) (width height : UInt32) :
    (r.rotate rotation width height).isEmpty = r.isEmpty := by
  cases rotation
  · rfl
  · exact Bool.or_comm _ _
  · rfl
  · exact Bool.or_comm _ _

theorem liesIn_rotate (h : r.LiesIn width height) (rotation : Rotation) :
    (r.rotate rotation width height).LiesIn (if rotation.isSideways then height else width)
      (if rotation.isSideways then width else height) := by
  have hright := toNat_right h.fits
  have hbottom := toNat_bottom h.fits
  obtain ⟨hw, hh⟩ := h
  unfold LiesIn
  cases rotation <;>
    simp only [Rotation.isSideways, rotate, toNat_satSub, Bool.false_eq_true, if_false, if_true] <;> omega

/-- A place in the turned rectangle comes from the place in the rectangle that turning it alone gives. -/
theorem origin_rotate (h : r.LiesIn width height) (rotation : Rotation) {x y : Nat}
    (hx : x < (r.rotate rotation width height).width.toNat) (hy : y < (r.rotate rotation width height).height.toNat) :
    rotation.origin width.toNat height.toNat ((r.rotate rotation width height).x.toNat + x)
        ((r.rotate rotation width height).y.toNat + y) =
      (r.x.toNat + (rotation.origin r.width.toNat r.height.toNat x y).1,
        r.y.toNat + (rotation.origin r.width.toNat r.height.toNat x y).2) := by
  have hright := toNat_right h.fits
  have hbottom := toNat_bottom h.fits
  obtain ⟨hw, hh⟩ := h
  cases rotation <;> simp only [rotate] at hx hy <;> refine Prod.ext ?_ ?_ <;>
    simp only [Rotation.origin, rotate, toNat_satSub] <;> omega

end Rect

namespace Frame

/-! ### Packed colours as a frame -/

def ofRgb (width height : UInt32) (rgb : ByteArray) : Frame :=
  ⟨width, height, UInt32.ofNat (width.toNat * PixelFormat.rgb.size), .rgb, rgb⟩

section Rgb

variable {f g : Frame} {r : Rect}

theorem isPacked_ofRgb {width height : UInt32} (h : width.toNat < 2 ^ 30) {rgb : ByteArray}
    (hsize : rgb.size = width.toNat * height.toNat * 3) : (ofRgb width height rgb).IsPacked := by
  have hstride := toNat_rowSize h .rgb
  refine ⟨hstride, ?_⟩
  show rgb.size = (UInt32.ofNat (width.toNat * PixelFormat.rgb.size)).toNat * height.toNat
  rw [hstride, hsize, Nat.mul_right_comm]
  rfl

/-- The buffer of a packed frame of red, green, blue holds its colours and nothing else. -/
theorem IsPacked.data_eq_colours (h : f.IsPacked) (hformat : f.format = .rgb) : f.data = f.colours f.bounds := by
  obtain ⟨hstride, hsize⟩ := h
  have hrow : f.stride.toNat = f.width.toNat * 3 := by
    rw [hstride]
    unfold rowSize
    rw [hformat]
    rfl
  have h0 : (0 : UInt32).toNat = 0 := rfl
  have harea : f.data.size = f.bounds.area * 3 := by
    rw [hsize, hrow, Nat.mul_right_comm]
    rfl
  -- Without padding a byte has the number of its pixel three times over, and its colour.
  refine Bytes.ext_getOrZero (by rw [harea, size_colours]) fun i hi => ?_
  unfold colours
  rw [Bytes.getOrZero_tabulate _ (by omega)]
  unfold colourAt pixelStart
  rw [hrow, hformat]
  show _ = Bytes.getOrZero f.data ((0 + i / 3 / f.width.toNat) * (f.width.toNat * 3) + (0 + i / 3 % f.width.toNat) * 3 + i % 3)
  have hdiv := Nat.div_add_mod' (i / 3) f.width.toNat
  have hmul : i / 3 / f.width.toNat * (f.width.toNat * 3) = i / 3 / f.width.toNat * f.width.toNat * 3 :=
    (Nat.mul_assoc _ _ _).symm
  rw [Nat.zero_add, Nat.zero_add, hmul]
  congr 1
  omega

/-- The cut region as a frame has the colours that the region has in the whole frame. -/
theorem colourAt_ofRgb_colours (hw : r.width.toNat < 2 ^ 30) {u v k : Nat} (hu : u < r.width.toNat) (hv : v < r.height.toNat)
    (hk : k < 3) :
    (ofRgb r.width r.height (f.colours r)).colourAt u v k = f.colourAt (r.x.toNat + u) (r.y.toNat + v) k := by
  have hstart : (ofRgb r.width r.height (f.colours r)).pixelStart u v = (v * r.width.toNat + u) * 3 := by
    have hstride := toNat_rowSize hw .rgb
    show v * (UInt32.ofNat (r.width.toNat * PixelFormat.rgb.size)).toNat + u * 3 = _
    rw [hstride, Nat.add_mul, Nat.mul_assoc]
    rfl
  rw [← getOrZero_colours_at hu hv hk, ← hstart]
  rfl

/-- Where a pixel of the turned region comes from is one place, found in the whole frame or in the cut region. -/
theorem colourAt_turned {part : Frame} {rotation : Rotation} (hf : f.WellFormed) (hw : f.width.toNat < 2 ^ 30)
    (hl : r.LiesIn f.width f.height) (hg : f.IsTurned rotation g)
    (hpart : (ofRgb r.width r.height (f.colours r)).IsTurned rotation part) {x y k : Nat}
    (hx : x < (r.rotate rotation f.width f.height).width.toNat)
    (hy : y < (r.rotate rotation f.width f.height).height.toNat) (hk : k < 3) :
    part.colourAt x y k = g.colourAt ((r.rotate rotation f.width f.height).x.toNat + x)
      ((r.rotate rotation f.width f.height).y.toNat + y) k := by
  have hrw : r.width.toNat < 2 ^ 30 := by
    have hlw := hl.1
    omega
  have hcrop := (isPacked_ofRgb hrw (size_colours f r)).wellFormed
  have hpx : x < part.width.toNat := by
    rw [Rect.width_rotate] at hx
    rw [hpart.width]
    exact hx
  have hpy : y < part.height.toNat := by
    rw [Rect.height_rotate] at hy
    rw [hpart.height]
    exact hy
  have hin := Rect.liesIn_rotate hl rotation
  rw [← hg.width, ← hg.height] at hin
  have hgx := hin.1
  have hgy := hin.2
  -- The pixel of the cut region, in the region and in the frame.
  obtain ⟨hu, hv⟩ := origin_lt rotation (hpart.width ▸ hpx) (hpart.height ▸ hpy)
  have hpixel := hpart.pixel x y hpx hpy
  have hleft := colourAt_of_pixel hpart.wellFormed hcrop hpart.format hpx hpy hu hv hpixel hk
  have hmid := colourAt_ofRgb_colours (f := f) hrw hu hv hk
  -- The pixel of the turned frame comes from the same place.
  have hpixel' := hg.pixel _ _ (Nat.lt_of_lt_of_le (Nat.add_lt_add_left hx _) hgx)
    (Nat.lt_of_lt_of_le (Nat.add_lt_add_left hy _) hgy)
  rw [Rect.origin_rotate hl rotation hx hy] at hpixel'
  have hfx := hl.1
  have hfy := hl.2
  have hright := colourAt_of_pixel hg.wellFormed hf hg.format (Nat.lt_of_lt_of_le (Nat.add_lt_add_left hx _) hgx)
    (Nat.lt_of_lt_of_le (Nat.add_lt_add_left hy _) hgy) (Nat.lt_of_lt_of_le (Nat.add_lt_add_left hu _) hfx)
    (Nat.lt_of_lt_of_le (Nat.add_lt_add_left hv _) hfy) hpixel' hk
  exact (hleft.trans hmid).trans hright.symm

/-- The colours of the turned region are the turned colours of the region. -/
theorem colours_turned {part : Frame} {rotation : Rotation} (hf : f.WellFormed) (hw : f.width.toNat < 2 ^ 30)
    (hl : r.LiesIn f.width f.height) (hg : f.IsTurned rotation g)
    (hpart : (ofRgb r.width r.height (f.colours r)).IsTurned rotation part) :
    part.colours part.bounds = g.colours (r.rotate rotation f.width f.height) := by
  have hwidth : part.width = (r.rotate rotation f.width f.height).width := by
    rw [Rect.width_rotate]
    exact hpart.width
  have hheight : part.height = (r.rotate rotation f.width f.height).height := by
    rw [Rect.height_rotate]
    exact hpart.height
  have hbounds : part.bounds = ⟨0, 0, (r.rotate rotation f.width f.height).width,
      (r.rotate rotation f.width f.height).height⟩ := by
    unfold bounds
    rw [hwidth, hheight]
  rw [hbounds]
  refine Bytes.tabulate_congr fun i hi => ?_
  obtain ⟨hx, hy⟩ := place_lt hi
  have hturned := colourAt_turned hf hw hl hg hpart hx hy (Nat.mod_lt i (by decide))
  have h0 : (0 : UInt32).toNat = 0 := rfl
  simp only [h0, Nat.zero_add]
  exact hturned

end Rgb
end Frame

variable {f : Frame} {r : Rect}

/-- A region of a well-formed frame turns with the frame, pixel by pixel, and so do its packed colours. -/
theorem crop_rotate (hf : f.WellFormed) (hw : f.width.toNat < 2 ^ 30) (hh : f.height.toNat < 2 ^ 30)
    (hl : r.LiesIn f.width f.height) (he : r.isEmpty = false) (rotation : Rotation) :
    ∃ g, f.rotate rotation = .ok g ∧ (r.rotate rotation f.width f.height).LiesIn g.width g.height ∧
      (r.rotate rotation f.width f.height).area = r.area ∧ f.IsMoved rotation g ∧
      (∀ x y, x < f.width.toNat → y < f.height.toNat →
        (r.Covers x y ↔ (r.rotate rotation f.width f.height).Covers
          (rotation.target f.width.toNat f.height.toNat x y).1 (rotation.target f.width.toNat f.height.toNat x y).2)) ∧
      ∃ rgb part, f.cropRgb r = .ok rgb ∧ (Frame.ofRgb r.width r.height rgb).rotate rotation = .ok part ∧
        part.width = (r.rotate rotation f.width f.height).width ∧
        part.height = (r.rotate rotation f.width f.height).height ∧ part.format = .rgb ∧ part.IsPacked ∧
        g.cropRgb (r.rotate rotation f.width f.height) = .ok part.data := by
  obtain ⟨g, hrotate⟩ := Frame.rotate_total hf rotation
  have hg := Frame.isTurned_rotate hf hw hh hrotate
  have hin := Rect.liesIn_rotate hl rotation
  rw [← hg.width, ← hg.height] at hin
  have hrw : r.width.toNat < 2 ^ 30 := by
    have hlw := hl.1
    omega
  have hrh : r.height.toNat < 2 ^ 30 := by
    have hlh := hl.2
    omega
  have hcrop := Frame.isPacked_ofRgb hrw (Frame.size_colours f r)
  obtain ⟨part, hturn⟩ := Frame.rotate_total hcrop.wellFormed rotation
  have hpart := Frame.isTurned_rotate hcrop.wellFormed hrw hrh hturn
  have hpacked : part.IsPacked := by
    by_cases hid : rotation = .identity
    · subst hid
      obtain rfl := Except.ok.inj hturn
      exact hcrop
    · exact (Frame.rotate_written hrw hrh hid hturn).1
  have hcolours : g.cropRgb (r.rotate rotation f.width f.height) = .ok part.data := by
    rw [Frame.cropRgb_ok hg.wellFormed hin (by rw [Rect.isEmpty_rotate, he]), hpacked.data_eq_colours hpart.format,
      Frame.colours_turned hf hw hl hg hpart]
  refine ⟨g, hrotate, hin, Rect.area_rotate r rotation _ _, hg.isMoved, fun x y hx hy => ?_, f.colours r, part,
    Frame.cropRgb_ok hf hl he, hturn, ?_, ?_, hpart.format, hpacked, hcolours⟩
  · obtain ⟨htx, hty⟩ := (hg.isMoved.moved x y hx hy).1
    rw [Rect.covers_rotate hl rotation (hg.width ▸ htx) (hg.height ▸ hty), rotation.origin_target hx hy]
  · rw [Rect.width_rotate]
    exact hpart.width
  · rw [Rect.height_rotate]
    exact hpart.height

/-- The lower right pixel of a padded frame, turned by a quarter. -/
theorem crop_rotate_padded :
    let f : Frame := ⟨2, 2, 9, .bgra, ⟨#[1, 2, 3, 4, 5, 6, 7, 8, 0, 9, 8, 7, 6, 5, 4, 3, 2, 0]⟩⟩
    let r : Rect := ⟨1, 1, 1, 1⟩
    f.WellFormed ∧ f.width.toNat < 2 ^ 30 ∧ f.height.toNat < 2 ^ 30 ∧ r.LiesIn f.width f.height ∧
      r.isEmpty = false ∧ r.rotate .quarter f.width f.height = ⟨1, 0, 1, 1⟩ ∧
      ∃ g rgb part, f.rotate .quarter = .ok g ∧ f.cropRgb r = .ok rgb ∧
        (Frame.ofRgb 1 1 rgb).rotate .quarter = .ok part ∧ g.cropRgb ⟨1, 0, 1, 1⟩ = .ok part.data := by
  intro f r
  have hf : f.WellFormed := by decide
  have hw : f.width.toNat < 2 ^ 30 := by decide
  have hh : f.height.toNat < 2 ^ 30 := by decide
  have hl : r.LiesIn f.width f.height := by decide
  have he : r.isEmpty = false := by decide
  have hr : r.rotate .quarter f.width f.height = ⟨1, 0, 1, 1⟩ := by decide
  obtain ⟨g, hg, -, -, -, -, rgb, part, hrgb, hpart, -, -, -, -, hcrop⟩ := crop_rotate hf hw hh hl he .quarter
  rw [hr] at hcrop
  exact ⟨hf, hw, hh, hl, he, hr, g, rgb, part, hg, hrgb, hpart, hcrop⟩

end Screencast
