import Screencast.Proofs.Change
import Screencast.Region.Coder

/-!
# Colours of a region

What a region looks like, and that a lossless coder gives it back. The bytes of a pixel decide its
colours; the way a frame lies in memory does not matter.
-/

namespace Screencast

/-- What is compressed is given back, up to the greatest size that the coder can name. -/
def Compressor.IsLossless (c : Compressor) : Prop :=
  ∀ (rgb : ByteArray) (width height : UInt32) (q : UInt8), rgb.size < 2 ^ 64 →
    ∃ data, c.compress rgb width height q = some data ∧ c.decompress data = some rgb

namespace Frame

/-- One colour of a pixel, zero outside the buffer. -/
def colourAt (f : Frame) (x y k : Nat) : UInt8 := Bytes.getOrZero f.data (f.pixelStart x y + f.format.offset k)

/-- The region as packed red, green, blue. -/
def colours (f : Frame) (r : Rect) : ByteArray :=
  Bytes.tabulate (r.area * 3) fun i =>
    f.colourAt (r.x.toNat + i / 3 % r.width.toNat) (r.y.toNat + i / 3 / r.width.toNat) (i % 3)

theorem place_lt {w h i : Nat} (hi : i < w * h * 3) : i / 3 % w < w ∧ i / 3 / w < h := by
  have hlt : i / 3 < w * h := Nat.div_lt_of_lt_mul (by omega)
  have hw : 0 < w := Nat.pos_of_mul_pos_right (Nat.zero_lt_of_lt hlt)
  exact ⟨Nat.mod_lt _ hw, Nat.div_lt_of_lt_mul hlt⟩

section Colours

variable {f a b : Frame} {x y k : Nat}

theorem pixelByte_ok (h : f.WellFormed) (hx : x < f.width.toNat) (hy : y < f.height.toNat) (hk : k < f.format.size) :
    f.pixelByte x y k = .ok (Bytes.getOrZero f.data (f.pixelStart x y + k)) := by
  have hend := pixelStart_add_le h hx hy
  have hlt : f.pixelStart x y + k < f.data.size := by omega
  unfold pixelByte
  rw [Bytes.byteAt_ok hlt, Bytes.getOrZero_of_lt hlt]

theorem colour_ok (h : f.WellFormed) (hx : x < f.width.toNat) (hy : y < f.height.toNat) (hk : k < 3) :
    f.colour x y k = .ok (f.colourAt x y k) := pixelByte_ok h hx hy (f.format.offset_lt hk)

/-- Equal pixels have equal bytes, wherever they lie. -/
theorem byte_of_pixel {u v : Nat} (ha : a.WellFormed) (hb : b.WellFormed) (hformat : a.format = b.format)
    (hx : x < a.width.toNat) (hy : y < a.height.toNat) (hu : u < b.width.toNat) (hv : v < b.height.toNat)
    (h : a.pixel x y = b.pixel u v) {i : Nat} (hi : i < a.format.size) :
    Bytes.getOrZero a.data (a.pixelStart x y + i) = Bytes.getOrZero b.data (b.pixelStart u v + i) := by
  rw [pixel_ok ha hx hy, pixel_ok hb hu hv, Except.ok.injEq] at h
  rw [← Bytes.getOrZero_extract (Nat.add_lt_add_left hi _) (pixelStart_add_le ha hx hy), h,
    Bytes.getOrZero_extract (Nat.add_lt_add_left (hformat ▸ hi) _) (pixelStart_add_le hb hu hv)]

theorem colourAt_of_pixel {u v : Nat} (ha : a.WellFormed) (hb : b.WellFormed) (hformat : a.format = b.format)
    (hx : x < a.width.toNat) (hy : y < a.height.toNat) (hu : u < b.width.toNat) (hv : v < b.height.toNat)
    (h : a.pixel x y = b.pixel u v) (hk : k < 3) : a.colourAt x y k = b.colourAt u v k := by
  have hbyte := byte_of_pixel ha hb hformat hx hy hu hv h (a.format.offset_lt hk)
  unfold colourAt
  rw [hbyte, hformat]

theorem colourAt_of_not_differ (ha : a.WellFormed) (hb : b.WellFormed) (hab : a.Alike b) (hx : x < a.width.toNat)
    (hy : y < a.height.toNat) (hk : k < 3) (hd : ¬a.Differ b x y) : a.colourAt x y k = b.colourAt x y k := by
  obtain ⟨hw, hh, hf⟩ := hab
  have hp : a.pixel x y = b.pixel x y := Classical.not_not.mp fun hne => hd ⟨⟨hx, hy⟩, hne⟩
  exact colourAt_of_pixel ha hb hf hx hy (hw ▸ hx) (hh ▸ hy) hp hk

end Colours

section Crop

variable {f : Frame} {r : Rect} {c : Compressor}

theorem size_colours (f : Frame) (r : Rect) : (f.colours r).size = r.area * 3 := Bytes.size_tabulate _ _

/-- The packed place of a pixel's colour gives the pixel and the colour back. -/
theorem place_eq {w x y k : Nat} (hx : x < w) (hk : k < 3) :
    ((y * w + x) * 3 + k) / 3 % w = x ∧ ((y * w + x) * 3 + k) / 3 / w = y ∧ ((y * w + x) * 3 + k) % 3 = k := by
  have hdiv : ((y * w + x) * 3 + k) / 3 = y * w + x := by omega
  have hmod : ((y * w + x) * 3 + k) % 3 = k := by omega
  have hw : 0 < w := Nat.zero_lt_of_lt hx
  rw [hdiv, hmod, Nat.mul_comm y w]
  refine ⟨?_, ?_, rfl⟩
  · rw [Nat.mul_add_mod, Nat.mod_eq_of_lt hx]
  · rw [Nat.mul_add_div hw, Nat.div_eq_of_lt hx, Nat.add_zero]

theorem place_end_le {u v : Nat} (hu : u < r.width.toNat) (hv : v < r.height.toNat) :
    (v * r.width.toNat + u) * 3 + 3 ≤ r.area * 3 := by
  have hrows : (v + 1) * r.width.toNat ≤ r.height.toNat * r.width.toNat := Nat.mul_le_mul_right _ hv
  rw [Nat.add_mul, Nat.one_mul] at hrows
  rw [Rect.area, Nat.mul_comm r.width.toNat]
  omega

/-- The colours of a region, found by their place in it. -/
theorem getOrZero_colours_at {u v k : Nat} (hu : u < r.width.toNat) (hv : v < r.height.toNat) (hk : k < 3) :
    Bytes.getOrZero (f.colours r) ((v * r.width.toNat + u) * 3 + k) = f.colourAt (r.x.toNat + u) (r.y.toNat + v) k := by
  obtain ⟨hcol, hrow, hcolour⟩ := place_eq (y := v) hu hk
  have hend := place_end_le hu hv
  unfold colours
  rw [Bytes.getOrZero_tabulate _ (by omega), hcol, hrow, hcolour]

/-- The colours of a region, found by their pixel. -/
theorem getOrZero_colours {x y k : Nat} (h : r.Covers x y) (hk : k < 3) :
    Bytes.getOrZero (f.colours r) (((y - r.y.toNat) * r.width.toNat + (x - r.x.toNat)) * 3 + k) =
      f.colourAt x y k := by
  obtain ⟨⟨hx, hxw⟩, hy, hyh⟩ := h
  have hat := getOrZero_colours_at (f := f) (r := r) (u := x - r.x.toNat) (v := y - r.y.toNat) (by omega) (by omega) hk
  rwa [Nat.add_sub_of_le hx, Nat.add_sub_of_le hy] at hat

/-- A region's colours are not more than a 64-bit word counts. -/
theorem size_colours_lt (h : f.WellFormed) (hl : r.LiesIn f.width f.height) : (f.colours r).size < 2 ^ 64 := by
  have hrow := h.1
  have hsize : 3 ≤ f.format.size := by cases f.format <;> decide
  have hmul : f.width.toNat * 3 ≤ f.width.toNat * f.format.size := Nat.mul_le_mul_left _ hsize
  have hstride := f.stride.toNat_lt
  have hheight := f.height.toNat_lt
  unfold rowSize at hrow
  have hw : r.width.toNat * 3 < 2 ^ 32 := by
    have hlw := hl.1
    omega
  have hh : r.height.toNat < 2 ^ 32 := by
    have hlh := hl.2
    omega
  rw [size_colours, Rect.area, Nat.mul_right_comm]
  calc r.width.toNat * 3 * r.height.toNat < 2 ^ 32 * 2 ^ 32 := Nat.mul_lt_mul'' hw hh
    _ = 2 ^ 64 := by decide

theorem cropRgb_ok (h : f.WellFormed) (hl : r.LiesIn f.width f.height) (he : r.isEmpty = false) :
    f.cropRgb r = .ok (f.colours r) := by
  unfold cropRgb bounds
  simp only [Rect.intersect_eq_self hl he, he, Bool.false_eq_true, if_false]
  refine Bytes.build_ok fun i hi => ?_
  obtain ⟨hx, hy⟩ := place_lt hi
  obtain ⟨hlw, hlh⟩ := hl
  exact colour_ok h (by omega) (by omega) (Nat.mod_lt _ (by decide))

/-- Through a lossless coder a region of the frame comes back as it was. -/
theorem encodeRegion_lossless (hc : c.IsLossless) (h : f.WellFormed) (hl : r.LiesIn f.width f.height)
    (he : r.isEmpty = false) (q : UInt8) :
    ∃ data, f.encodeRegion c r q = .ok data ∧ decodeRegion c data r.width r.height = .ok (f.colours r) := by
  obtain ⟨data, hcompress, hdecompress⟩ := hc (f.colours r) r.width r.height (clampQuality q) (size_colours_lt h hl)
  refine ⟨data, ?_, ?_⟩
  · unfold encodeRegion bounds
    simp only [Rect.intersect_eq_self hl he, he, Bool.false_eq_true, if_false, cropRgb_ok h hl he, hcompress]
  · unfold decodeRegion
    rw [hdecompress]
    exact if_pos (size_colours f r)

end Crop
end Frame
end Screencast
