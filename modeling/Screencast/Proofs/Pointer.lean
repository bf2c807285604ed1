import Screencast.Proofs.RegionColours
import Screencast.Proofs.Turns

/-!
# The pointer changes what it reports

The pointer is drawn exactly if its box lies wholly inside the frame, and that box is reported. Every byte
that is not of one of the box's pixels stays, padding and what follows the rows included, and so does a pixel
under a clear one of the image. Every other pixel takes a colour between its own and the image's.
-/

namespace Screencast

/-! ### Colours -/

/-- `new` is `source` laid over `old` with the weight `alpha`, rounded down. -/
structure IsLaid (source old alpha new : UInt8) : Prop where
  value : new.toNat = (source.toNat * alpha.toNat + old.toNat * (255 - alpha.toNat)) / 255
  lower : min source.toNat old.toNat ≤ new.toNat
  upper : new.toNat ≤ max source.toNat old.toNat

theorem blend_between (source old alpha : UInt8) :
    min source.toNat old.toNat ≤ (source.toNat * alpha.toNat + old.toNat * (255 - alpha.toNat)) / 255 ∧
      (source.toNat * alpha.toNat + old.toNat * (255 - alpha.toNat)) / 255 ≤ max source.toNat old.toNat := by
  -- The weights sum up to 255.
  obtain ⟨rest, hrest⟩ := Nat.exists_eq_add_of_le (Nat.le_of_lt_succ alpha.toNat_lt)
  have hweight : 255 - alpha.toNat = rest := by omega
  rw [hweight]
  constructor
  · have hsource := Nat.mul_le_mul_right alpha.toNat (Nat.min_le_left source.toNat old.toNat)
    have hold := Nat.mul_le_mul_right rest (Nat.min_le_right source.toNat old.toNat)
    rw [Nat.le_div_iff_mul_le (by decide), show (255 : Nat) = alpha.toNat + rest from hrest, Nat.mul_add]
    exact Nat.add_le_add hsource hold
  · have hsource := Nat.mul_le_mul_right alpha.toNat (Nat.le_max_left source.toNat old.toNat)
    have hold := Nat.mul_le_mul_right rest (Nat.le_max_right source.toNat old.toNat)
    refine Nat.div_le_of_le_mul ?_
    rw [Nat.mul_comm 255, show (255 : Nat) = alpha.toNat + rest from hrest, Nat.mul_add]
    exact Nat.add_le_add hsource hold

theorem isLaid_blend (source old alpha : UInt8) : IsLaid source old alpha (blend source old alpha) := by
  obtain ⟨hlower, hupper⟩ := blend_between source old alpha
  have hbyte : max source.toNat old.toNat < 256 := Nat.max_lt.mpr ⟨source.toNat_lt, old.toNat_lt⟩
  have hvalue : (blend source old alpha).toNat =
      (source.toNat * alpha.toNat + old.toNat * (255 - alpha.toNat)) / 255 :=
    UInt8.toNat_ofNat_of_lt' (Nat.lt_of_le_of_lt hupper hbyte)
  exact ⟨hvalue, hvalue ▸ hlower, hvalue ▸ hupper⟩

/-- Each of the three is laid over the old one. -/
structure Colour.IsLaid (source old : Colour) (alpha : UInt8) (new : Colour) : Prop where
  red : Screencast.IsLaid source.red old.red alpha new.red
  green : Screencast.IsLaid source.green old.green alpha new.green
  blue : Screencast.IsLaid source.blue old.blue alpha new.blue

namespace PixelFormat

theorem offset_lt_three (format : PixelFormat) {c : Nat} (h : c < 3) : format.offset c < 3 := by
  cases format <;> simp only [offset] <;> omega

theorem size_of_hasAlpha {format : PixelFormat} (h : format.hasAlpha = true) : format.size = 4 := by
  cases format with
  | bgra | rgba => rfl
  | rgb => cases h

end PixelFormat

/-! ### The image -/

namespace Pointer

variable {p : Pointer} {area : Area} {f : Frame} {r : Rect} {u v : Nat}

/-- The image has pixels, and the buffer holds them. -/
structure IsWhole (p : Pointer) : Prop where
  width_pos : 0 < p.width.toNat
  height_pos : 0 < p.height.toNat
  size_le : p.width.toNat * p.height.toNat * 4 ≤ p.pixels.size

/-- The image falls on the pixels of `r`, all of the frame, when its hotspot stands where the pointer is. -/
structure FallsOn (p : Pointer) (area : Area) (f : Frame) (r : Rect) : Prop where
  isWhole : p.IsWhole
  left : (r.x.toNat : Int) = p.x.toInt - area.left.toInt - p.hotspotX.toNat
  top : (r.y.toNat : Int) = p.y.toInt - area.top.toInt - p.hotspotY.toNat
  width : r.width = p.width
  height : r.height = p.height
  liesIn : r.LiesIn f.width f.height

theorem box_eq_some_iff : p.box f area = some r ↔ p.FallsOn area f r := by
  have hzero : (0 : UInt32).toNat = 0 := rfl
  have hwidth := f.width.toNat_lt
  have hheight := f.height.toNat_lt
  unfold box
  dsimp only
  constructor
  · intro h
    split at h
    · cases h
    rename_i hpos
    split at h
    · cases h
    rename_i hsize
    split at h
    · cases h
    rename_i hin
    obtain rfl := Option.some.inj h
    rw [← UInt32.toNat_inj, ← UInt32.toNat_inj] at hpos
    -- Inside the frame the near edges are words.
    have hx : (UInt32.ofNat (p.x.toInt - area.left.toInt - p.hotspotX.toNat).toNat).toNat =
        (p.x.toInt - area.left.toInt - p.hotspotX.toNat).toNat := UInt32.toNat_ofNat_of_lt' (by rw [UInt32.size]; omega)
    have hy : (UInt32.ofNat (p.y.toInt - area.top.toInt - p.hotspotY.toNat).toNat).toNat =
        (p.y.toInt - area.top.toInt - p.hotspotY.toNat).toNat := UInt32.toNat_ofNat_of_lt' (by rw [UInt32.size]; omega)
    refine ⟨⟨by omega, by omega, Nat.not_lt.mp hsize⟩, ?_, ?_, rfl, rfl, ?_, ?_⟩ <;> dsimp only <;> omega
  · rintro ⟨⟨hw, hh, hsize⟩, hleft, htop, hrw, hrh, hlx, hly⟩
    rw [hrw] at hlx
    rw [hrh] at hly
    rw [if_neg, if_neg (Nat.not_lt.mpr hsize), if_neg (by omega), ← hleft, ← htop, Int.toNat_natCast, Int.toNat_natCast,
      UInt32.ofNat_toNat, UInt32.ofNat_toNat, ← hrw, ← hrh]
    rw [← UInt32.toNat_inj, ← UInt32.toNat_inj]
    omega

/-- Byte `k` of an image pixel: blue, green, red and alpha. -/
def imageByte (p : Pointer) (u v k : Nat) : UInt8 := Bytes.getOrZero p.pixels ((v * p.width.toNat + u) * 4 + k)

/-- The pixel in column `u` and row `v` of the image has this colour and alpha. -/
def Holds (p : Pointer) (u v : Nat) (c : Colour) (alpha : UInt8) : Prop :=
  Bytes.slice p.pixels ((v * p.width.toNat + u) * 4) 4 = .ok ⟨#[c.blue, c.green, c.red, alpha]⟩

theorem IsWhole.image_end_le (h : p.IsWhole) (hu : u < p.width.toNat) (hv : v < p.height.toNat) :
    (v * p.width.toNat + u) * 4 + 4 ≤ p.pixels.size := by
  have hrows : (v + 1) * p.width.toNat ≤ p.height.toNat * p.width.toNat := Nat.mul_le_mul_right _ hv
  have hsize := h.size_le
  rw [Nat.add_mul, Nat.one_mul] at hrows
  rw [Nat.mul_comm p.width.toNat] at hsize
  omega

theorem IsWhole.byteAt_image (h : p.IsWhole) (hu : u < p.width.toNat) (hv : v < p.height.toNat) {k : Nat} (hk : k < 4) :
    Bytes.byteAt p.pixels ((v * p.width.toNat + u) * 4 + k) = .ok (p.imageByte u v k) := by
  have hend := h.image_end_le hu hv
  have hlt : (v * p.width.toNat + u) * 4 + k < p.pixels.size := by omega
  rw [Bytes.byteAt_ok hlt, imageByte, Bytes.getOrZero_of_lt hlt]

theorem IsWhole.holds (h : p.IsWhole) (hu : u < p.width.toNat) (hv : v < p.height.toNat) :
    p.Holds u v ⟨p.imageByte u v 2, p.imageByte u v 1, p.imageByte u v 0⟩ (p.imageByte u v 3) := by
  have hend := h.image_end_le hu hv
  unfold Holds
  rw [Bytes.slice_ok hend, Except.ok.injEq]
  have hsize : (p.pixels.extract ((v * p.width.toNat + u) * 4) ((v * p.width.toNat + u) * 4 + 4)).size = 4 := by
    rw [ByteArray.size_extract]
    omega
  refine Bytes.ext_getOrZero hsize fun k hk => ?_
  rw [hsize] at hk
  rw [Bytes.getOrZero_extract (by omega) hend]
  match k, hk with
  | 0, _ | 1, _ | 2, _ | 3, _ => rfl

theorem sourceOffset_offset (format : PixelFormat) {c : Nat} (h : c < 3) :
    sourceOffset format (format.offset c) = 2 - c := by
  match c, h with
  | 0, _ | 1, _ | 2, _ => cases format <;> rfl

/-- What drawing makes of byte `k` of a pixel under an image pixel. -/
def laidByte (p : Pointer) (format : PixelFormat) (u v k : Nat) (old : UInt8) : UInt8 :=
  if p.imageByte u v 3 = 0 then old
  else if k = 3 then 0xFF
  else blend (p.imageByte u v (sourceOffset format k)) old (p.imageByte u v 3)

theorem IsWhole.paint_eq (h : p.IsWhole) (hu : u < p.width.toNat) (hv : v < p.height.toNat) (format : PixelFormat)
    (k : Nat) (old : UInt8) : p.paint format u v k old = .ok (p.laidByte format u v k old) := by
  have hoffset : sourceOffset format k < 4 := by
    unfold sourceOffset
    split
    · decide
    · split <;> decide
  unfold paint laidByte
  simp only [h.byteAt_image hu hv (by decide : 3 < 4), h.byteAt_image hu hv hoffset]
  split
  · rfl
  · split <;> rfl

theorem laidByte_clear (h : p.imageByte u v 3 = 0) (format : PixelFormat) (k : Nat) (old : UInt8) :
    p.laidByte format u v k old = old := if_pos h

theorem laidByte_alpha (h : p.imageByte u v 3 ≠ 0) (format : PixelFormat) (old : UInt8) :
    p.laidByte format u v 3 old = 0xFF := by
  unfold laidByte
  rw [if_neg h, if_pos rfl]

/-- The image has blue first, whatever the order of the format is. -/
theorem isLaid_laidByte (h : p.imageByte u v 3 ≠ 0) (format : PixelFormat) {c : Nat} (hc : c < 3) (old : UInt8) :
    IsLaid (p.imageByte u v (2 - c)) old (p.imageByte u v 3) (p.laidByte format u v (format.offset c) old) := by
  have hthird : format.offset c ≠ 3 := Nat.ne_of_lt (format.offset_lt_three hc)
  unfold laidByte
  rw [if_neg h, if_neg hthird, sourceOffset_offset format hc]
  exact isLaid_blend _ _ _

end Pointer

/-! ### The frame -/

namespace Frame

variable {f g : Frame} {p : Pointer} {area : Area} {r : Rect} {x y u v i k : Nat}

/-- Byte `i` of the buffer is of no pixel of `r`. -/
def IsOutside (f : Frame) (r : Rect) (i : Nat) : Prop :=
  ∀ x y k, r.Covers x y → k < f.format.size → f.pixelStart x y + k ≠ i

/-- `g` is `f` with the image of the pointer laid over the pixels of `r`. -/
structure IsDrawn (f : Frame) (p : Pointer) (r : Rect) (g : Frame) : Prop where
  layout : g.SameLayout f
  outside : ∀ i, i < f.data.size → f.IsOutside r i → Bytes.byteAt g.data i = Bytes.byteAt f.data i
  inside : ∀ u v, u < r.width.toNat → v < r.height.toNat → ∃ source old : Colour, ∃ alpha,
    p.Holds u v source alpha ∧ f.Shows (r.x.toNat + u) (r.y.toNat + v) old ∧
    (alpha = 0 → g.pixel (r.x.toNat + u) (r.y.toNat + v) = f.pixel (r.x.toNat + u) (r.y.toNat + v)) ∧
    (alpha ≠ 0 → (∃ new, g.Shows (r.x.toNat + u) (r.y.toNat + v) new ∧ source.IsLaid old alpha new) ∧
      (f.format.hasAlpha = true → g.pixelByte (r.x.toNat + u) (r.y.toNat + v) 3 = .ok 0xFF))

theorem covers_offset (hu : u < r.width.toNat) (hv : v < r.height.toNat) : r.Covers (r.x.toNat + u) (r.y.toNat + v) := by
  unfold Rect.Covers
  omega

theorem drawnByte_outside (hout : f.IsOutside r i) (hi : i < f.data.size) :
    p.drawnByte f r i = Bytes.byteAt f.data i := by
  have hnot : ¬r.Covers (i % f.stride.toNat / f.format.size) (i / f.stride.toNat) := fun hc =>
    hout _ _ _ hc (Nat.mod_lt _ f.format.size_pos) (f.byte_of_place i)
  unfold Pointer.drawnByte
  rw [Bytes.byteAt_ok hi]
  exact if_neg hnot

theorem drawnByte_inside (hf : f.WellFormed) (hr : p.FallsOn area f r) (hu : u < r.width.toNat)
    (hv : v < r.height.toNat) (hk : k < f.format.size) :
    p.drawnByte f r (f.pixelStart (r.x.toNat + u) (r.y.toNat + v) + k) =
      .ok (p.laidByte f.format u v k
        (Bytes.getOrZero f.data (f.pixelStart (r.x.toNat + u) (r.y.toNat + v) + k))) := by
  obtain ⟨hx, hy⟩ := hr.liesIn.covers (covers_offset hu hv)
  have hend := pixelStart_add_le hf hx hy
  have hlt : f.pixelStart (r.x.toNat + u) (r.y.toNat + v) + k < f.data.size := by omega
  obtain ⟨hrow, hplace, hcolumn, hrest⟩ := place_of_byte (y := r.y.toNat + v) hf hx hk
  rw [← hr.isWhole.paint_eq (hr.width ▸ hu) (hr.height ▸ hv)]
  unfold Pointer.drawnByte
  simp only [Bytes.byteAt_ok hlt, hrow, hplace, hcolumn, hrest, Nat.add_sub_cancel_left, Bytes.getOrZero_of_lt hlt]
  exact if_pos (covers_offset hu hv)

/-- In a box where the image falls every byte can be drawn. -/
theorem drawnByte_total (hf : f.WellFormed) (hr : p.FallsOn area f r) (hi : i < f.data.size) :
    ∃ b, p.drawnByte f r i = .ok b := by
  by_cases hout : f.IsOutside r i
  · exact ⟨f.data[i], (drawnByte_outside hout hi).trans (Bytes.byteAt_ok hi)⟩
  · unfold IsOutside at hout
    push Not at hout
    obtain ⟨x, y, k, ⟨⟨hx, hxw⟩, hy, hyh⟩, hk, rfl⟩ := hout
    obtain ⟨u, rfl⟩ := Nat.exists_eq_add_of_le hx
    obtain ⟨v, rfl⟩ := Nat.exists_eq_add_of_le hy
    exact ⟨_, drawnByte_inside hf hr (by omega) (by omega) hk⟩

theorem drawPointer_total (hf : f.WellFormed) (p : Pointer) (area : Area) :
    ∃ g drawn, f.drawPointer p area = .ok (g, drawn) := by
  unfold drawPointer
  split
  · exact ⟨f, none, rfl⟩
  · rename_i target hbox
    split
    · rename_i e hdata
      obtain ⟨i, hi, hfault⟩ := Bytes.build_error hdata
      obtain ⟨b, hb⟩ := drawnByte_total hf (Pointer.box_eq_some_iff.mp hbox) hi
      rw [hfault] at hb
      cases hb
    · exact ⟨_, some target, rfl⟩

theorem isDrawn_of_bytes (hf : f.WellFormed) (hr : p.FallsOn area f r) {data : ByteArray}
    (hsize : data.size = f.data.size) (hbyte : ∀ i, i < f.data.size → Bytes.byteAt data i = p.drawnByte f r i) :
    f.IsDrawn p r { f with data := data } := by
  have hlayout : ({ f with data := data } : Frame).SameLayout f := ⟨rfl, rfl, rfl, rfl, hsize⟩
  have hg := hlayout.wellFormed hf
  refine ⟨hlayout, fun i hi hout => (hbyte i hi).trans (drawnByte_outside hout hi), fun u v hu hv => ?_⟩
  obtain ⟨hx, hy⟩ := hr.liesIn.covers (covers_offset hu hv)
  have hend := pixelStart_add_le hf hx hy
  have hdrawn (k : Nat) (hk : k < f.format.size) :
      ({ f with data := data } : Frame).pixelByte (r.x.toNat + u) (r.y.toNat + v) k = .ok (p.laidByte f.format u v k
        (Bytes.getOrZero f.data (f.pixelStart (r.x.toNat + u) (r.y.toNat + v) + k))) :=
    (hbyte (f.pixelStart (r.x.toNat + u) (r.y.toNat + v) + k) (by omega)).trans (drawnByte_inside hf hr hu hv hk)
  refine ⟨_, _, _, hr.isWhole.holds (hr.width ▸ hu) (hr.height ▸ hv), (shows_iff hf hx hy).mpr rfl, fun hclear => ?_,
    fun hopaque => ⟨?_, fun halpha => ?_⟩⟩
  · refine pixel_ext hg hf rfl hx hy hx hy fun k hk => ?_
    rw [hdrawn k hk, Pointer.laidByte_clear hclear, pixelByte_ok hf hx hy hk]
  · have hlaid (c : Nat) (hc : c < 3) : IsLaid (p.imageByte u v (2 - c)) (f.colourAt (r.x.toNat + u) (r.y.toNat + v) c)
        (p.imageByte u v 3) (({ f with data := data } : Frame).colourAt (r.x.toNat + u) (r.y.toNat + v) c) := by
      have hcolour := (colour_ok hg hx hy hc).symm.trans (hdrawn _ (f.format.offset_lt hc))
      rw [Except.ok.inj hcolour]
      exact Pointer.isLaid_laidByte hopaque f.format hc _
    exact ⟨_, (shows_iff hg hx hy).mpr rfl, hlaid 0 (by decide), hlaid 1 (by decide), hlaid 2 (by decide)⟩
  · have hfour : 3 < f.format.size := PixelFormat.size_of_hasAlpha halpha ▸ (by decide)
    rw [hdrawn 3 hfour, Pointer.laidByte_alpha hopaque]

end Frame

variable {f : Frame}

/-- Drawing always gives a frame. The pointer is reported where its image falls, if it falls wholly inside the frame,
and only the pixels there change, each as the image says; otherwise the frame stays as it was. -/
theorem drawPointer_exact (hf : f.WellFormed) (p : Pointer) (area : Area) :
    ∃ g drawn, f.drawPointer p area = .ok (g, drawn) ∧ (∀ r, drawn = some r ↔ p.FallsOn area f r) ∧
      (drawn = none → g = f) ∧ ∀ r, drawn = some r → f.IsDrawn p r g := by
  obtain ⟨g, drawn, h⟩ := Frame.drawPointer_total hf p area
  refine ⟨g, drawn, h, ?_⟩
  obtain ⟨hbox, rfl, rfl⟩ | ⟨target, data, hbox, rfl, rfl, hsize, hbyte⟩ := Frame.drawPointer_cases h
  · refine ⟨fun r => ?_, fun _ => rfl, nofun⟩
    rw [← Pointer.box_eq_some_iff, hbox]
  · refine ⟨fun r => ?_, nofun, fun r hr => ?_⟩
    · rw [← Pointer.box_eq_some_iff, hbox]
    · obtain rfl := Option.some.inj hr
      exact Frame.isDrawn_of_bytes hf (Pointer.box_eq_some_iff.mp hbox) hsize hbyte

/-- On a monitor left of the primary one, a half clear and a clear pixel over the end of a padded row. -/
theorem drawPointer_exact_negative_origin :
    let f : Frame := ⟨3, 2, 14, .bgra, Bytes.replicate 30 100⟩
    let p : Pointer := ⟨-5, 7, 1, 0, 2, 1, ⟨#[0, 255, 10, 128, 9, 9, 9, 0]⟩⟩
    let area : Area := ⟨-7, 6, 3, 2⟩
    f.WellFormed ∧ p.FallsOn area f ⟨1, 1, 2, 1⟩ ∧
      ∃ g, f.drawPointer p area = .ok (g, some ⟨1, 1, 2, 1⟩) ∧ f.IsDrawn p ⟨1, 1, 2, 1⟩ g := by
  intro f p area
  have hf : f.WellFormed := by decide
  have hfalls : p.FallsOn area f ⟨1, 1, 2, 1⟩ := Pointer.box_eq_some_iff.mp (by decide)
  obtain ⟨g, drawn, hdraw, hdrawn, -, hshown⟩ := drawPointer_exact hf p area
  obtain rfl := (hdrawn _).mpr hfalls
  exact ⟨hf, hfalls, g, hdraw, hshown _ rfl⟩

end Screencast
