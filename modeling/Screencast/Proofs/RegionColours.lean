import Mathlib.Data.Nat.ModEq
import Screencast.Proofs.Zstd

/-!
# A coded region holds what is seen

The bytes of a pixel hold its red, green and blue in the order of the format. Through a lossless coder the
part of a region that lies in the frame comes back as these colours, pixel by pixel. So neither the quality
nor the way in which the frame lies in memory matters, and a claim of another number of pixels is refused.
-/

namespace Screencast

structure Colour where
  red : UInt8
  green : UInt8
  blue : UInt8
  deriving DecidableEq

def Colour.packed (c : Colour) : ByteArray := ⟨#[c.red, c.green, c.blue]⟩

/-- The colour that the bytes of a pixel hold. -/
inductive PixelFormat.Holds : PixelFormat → List UInt8 → Colour → Prop
  | bgra (blue green red alpha : UInt8) : Holds .bgra [blue, green, red, alpha] ⟨red, green, blue⟩
  | rgba (red green blue alpha : UInt8) : Holds .rgba [red, green, blue, alpha] ⟨red, green, blue⟩
  | rgb (red green blue : UInt8) : Holds .rgb [red, green, blue] ⟨red, green, blue⟩

theorem PixelFormat.Holds.unique {format : PixelFormat} {bytes : List UInt8} {c d : Colour}
    (hc : format.Holds bytes c) (hd : format.Holds bytes d) : c = d := by
  cases hc <;> cases hd <;> rfl

theorem PixelFormat.holds_of_size (format : PixelFormat) (bytes : ByteArray) (h : bytes.size = format.size) :
    format.Holds bytes.data.toList ⟨Bytes.getOrZero bytes (format.offset 0), Bytes.getOrZero bytes (format.offset 1),
      Bytes.getOrZero bytes (format.offset 2)⟩ := by
  -- Its size tells how many bytes the pixel has, its format which of them is which.
  obtain ⟨⟨l⟩⟩ := bytes
  cases format with
  | bgra =>
    match l, h with
    | [blue, green, red, alpha], _ => exact .bgra blue green red alpha
  | rgba =>
    match l, h with
    | [red, green, blue, alpha], _ => exact .rgba red green blue alpha
  | rgb =>
    match l, h with
    | [red, green, blue], _ => exact .rgb red green blue

/-- The coded bytes give the colours of a region back, and are refused for any other number of pixels. That
holds also where the number of claimed bytes is counted by a 64-bit word. -/
structure Rect.IsCoded (c : Compressor) (r : Rect) (rgb data : ByteArray) : Prop where
  decoded : decodeRegion c data r.width r.height = .ok rgb
  refused : ∀ width height : UInt32, width.toNat * height.toNat ≠ r.area →
    width.toNat * height.toNat * 3 % 2 ^ 64 ≠ rgb.size ∧
      decodeRegion c data width height =
        .error (.encoding (.wrongSize rgb.size (width.toNat * height.toNat * 3) width height))

/-- Two counts of pixels differ in their bytes even where these are counted by a 64-bit word. -/
theorem bytes_ne_of_ne {n m : Nat} (hn : n < 2 ^ 64) (hm : m < 2 ^ 64) (h : n ≠ m) :
    n * 3 % 2 ^ 64 ≠ m * 3 % 2 ^ 64 := by
  intro heq
  have hcancel : n ≡ m [MOD 2 ^ 64] := Nat.ModEq.cancel_right_of_coprime (by decide) heq
  exact h (hcancel.eq_of_lt_of_lt hn hm)

theorem Rect.isCoded_of_decode {c : Compressor} {r : Rect} {rgb data : ByteArray}
    (h : decodeRegion c data r.width r.height = .ok rgb) (hsize : rgb.size = r.area * 3) (hlt : rgb.size < 2 ^ 64) :
    r.IsCoded c rgb data := by
  refine ⟨h, fun width height hne => ?_⟩
  have hcount : width.toNat * height.toNat < 2 ^ 32 * 2 ^ 32 := Nat.mul_lt_mul'' width.toNat_lt height.toNat_lt
  have hbytes := bytes_ne_of_ne hcount (by omega) hne
  rw [← hsize, Nat.mod_eq_of_lt hlt] at hbytes
  have hother : rgb.size ≠ width.toNat * height.toNat * 3 := by omega
  refine ⟨hbytes, ?_⟩
  unfold decodeRegion at h ⊢
  split at h
  · cases h
  · dsimp only at h
    split at h
    · obtain rfl := Except.ok.inj h
      exact if_neg hother
    · cases h

namespace Frame

/-- A pixel of the frame has this colour. -/
def Shows (f : Frame) (x y : Nat) (c : Colour) : Prop :=
  ∃ bytes, f.pixel x y = .ok bytes ∧ f.format.Holds bytes.data.toList c

/-- The bytes are the colours of the region, three for each pixel, row after row. -/
def Packs (f : Frame) (r : Rect) (rgb : ByteArray) : Prop :=
  rgb.size = 3 * (r.width.toNat * r.height.toNat) ∧
    ∀ i j, i < r.width.toNat → j < r.height.toNat →
      ∃ c : Colour, f.Shows (r.x.toNat + i) (r.y.toNat + j) c ∧
        Bytes.slice rgb ((j * r.width.toNat + i) * 3) 3 = .ok c.packed

/-- One size and one colour everywhere, whatever the format and the rows. -/
def SameColours (a b : Frame) : Prop :=
  a.width = b.width ∧ a.height = b.height ∧
    ∀ x y, x < a.width.toNat → y < a.height.toNat → ∀ c, a.Shows x y c ↔ b.Shows x y c

def Meets (f : Frame) (region : Rect) : Prop :=
  ∃ x y, region.Covers x y ∧ x < f.width.toNat ∧ y < f.height.toNat

section Pixel

variable {f a b : Frame} {r : Rect} {x y : Nat}

/-- The colour of a pixel, black outside the buffer. -/
def shown (f : Frame) (x y : Nat) : Colour := ⟨f.colourAt x y 0, f.colourAt x y 1, f.colourAt x y 2⟩

/-- A pixel has one colour. -/
theorem shows_iff (h : f.WellFormed) (hx : x < f.width.toNat) (hy : y < f.height.toNat) {c : Colour} :
    f.Shows x y c ↔ f.shown x y = c := by
  have hend := pixelStart_add_le h hx hy
  have hpixel := pixel_ok h hx hy
  have hcolour {k : Nat} (hk : k < 3) := Bytes.getOrZero_extract (b := f.data)
    (Nat.add_lt_add_left (f.format.offset_lt hk) (f.pixelStart x y)) hend
  -- The bytes of the pixel, found by their place in the buffer.
  have hholds := f.format.holds_of_size (f.data.extract (f.pixelStart x y) (f.pixelStart x y + f.format.size))
    (by rw [ByteArray.size_extract]; omega)
  rw [hcolour (by decide), hcolour (by decide), hcolour (by decide)] at hholds
  constructor
  · rintro ⟨bytes, hbytes, hc⟩
    obtain rfl := Except.ok.inj (hpixel.symm.trans hbytes)
    exact hholds.unique hc
  · rintro rfl
    exact ⟨_, hpixel, hholds⟩

theorem SameColours.shown_eq (h : a.SameColours b) (ha : a.WellFormed) (hb : b.WellFormed) (hx : x < a.width.toNat)
    (hy : y < a.height.toNat) : a.shown x y = b.shown x y := by
  obtain ⟨hw, hh, hshows⟩ := h
  have hshown := (hshows x y hx hy (a.shown x y)).mp ((shows_iff ha hx hy).mpr rfl)
  exact ((shows_iff hb (hw ▸ hx) (hh ▸ hy)).mp hshown).symm

theorem sameColours_of_shown (ha : a.WellFormed) (hb : b.WellFormed) (hw : a.width = b.width)
    (hh : a.height = b.height) (h : ∀ x, x < a.width.toNat → ∀ y, y < a.height.toNat → a.shown x y = b.shown x y) :
    a.SameColours b := by
  refine ⟨hw, hh, fun x y hx hy c => ?_⟩
  rw [shows_iff ha hx hy, shows_iff hb (hw ▸ hx) (hh ▸ hy), h x hx y hy]

theorem colourAt_of_shown {u v k : Nat} (h : a.shown x y = b.shown u v) (hk : k < 3) :
    a.colourAt x y k = b.colourAt u v k := by
  obtain ⟨hred, hgreen, hblue⟩ := Colour.mk.inj h
  match k, hk with
  | 0, _ => exact hred
  | 1, _ => exact hgreen
  | 2, _ => exact hblue

theorem SameColours.colours_eq (h : a.SameColours b) (ha : a.WellFormed) (hb : b.WellFormed)
    (hl : r.LiesIn a.width a.height) : a.colours r = b.colours r := by
  refine Bytes.tabulate_congr fun i hi => ?_
  obtain ⟨hx, hy⟩ := place_lt hi
  obtain ⟨hlw, hlh⟩ := hl
  exact colourAt_of_shown (h.shown_eq ha hb (by omega) (by omega)) (Nat.mod_lt i (by decide))

theorem slice_colours {i j : Nat} (hi : i < r.width.toNat) (hj : j < r.height.toNat) :
    Bytes.slice (f.colours r) ((j * r.width.toNat + i) * 3) 3 =
      .ok (f.shown (r.x.toNat + i) (r.y.toNat + j)).packed := by
  have hend := place_end_le hi hj
  rw [← size_colours f r] at hend
  rw [Bytes.slice_ok hend, Except.ok.injEq]
  have hsize : ((f.colours r).extract ((j * r.width.toNat + i) * 3) ((j * r.width.toNat + i) * 3 + 3)).size = 3 := by
    rw [ByteArray.size_extract]
    omega
  refine Bytes.ext_getOrZero hsize fun k hk => ?_
  rw [hsize] at hk
  rw [Bytes.getOrZero_extract (Nat.add_lt_add_left hk _) hend, getOrZero_colours_at hi hj hk]
  match k, hk with
  | 0, _ => rfl
  | 1, _ => rfl
  | 2, _ => rfl

theorem packs_colours (h : f.WellFormed) (hl : r.LiesIn f.width f.height) : f.Packs r (f.colours r) := by
  refine ⟨(size_colours f r).trans (Nat.mul_comm _ _), fun i j hi hj => ?_⟩
  obtain ⟨hlw, hlh⟩ := hl
  exact ⟨_, (shows_iff h (by omega) (by omega)).mpr rfl, slice_colours hi hj⟩

end Pixel

section Region

variable {f : Frame} {region : Rect} {c : Compressor} {q : UInt8}

theorem covers_clipped (hr : region.Fits) (x y : Nat) :
    (region.intersect f.bounds).Covers x y ↔ region.Covers x y ∧ x < f.width.toNat ∧ y < f.height.toNat := by
  unfold bounds
  rw [Rect.covers_intersect hr (Rect.liesIn_bounds _ _).fits, Rect.covers_bounds]

theorem meets_iff (hr : region.Fits) : f.Meets region ↔ (region.intersect f.bounds).isEmpty = false := by
  constructor
  · rintro ⟨x, y, h⟩
    exact ((covers_clipped hr x y).mpr h).nonempty
  · intro he
    exact ⟨_, _, (covers_clipped hr _ _).mp (Rect.covers_corner he)⟩

/-- To cut a region that is cut already changes nothing. -/
theorem encodeRegion_clipped (he : (region.intersect f.bounds).isEmpty = false) :
    f.encodeRegion c region q = f.encodeRegion c (region.intersect f.bounds) q := by
  have hcut : (region.intersect f.bounds).intersect f.bounds = region.intersect f.bounds :=
    Rect.intersect_eq_self (Rect.liesIn_intersect region f.width f.height) he
  unfold encodeRegion
  rw [hcut]

theorem encodeRegion_out_iff (h : f.WellFormed) (hr : region.Fits) :
    (∃ r, f.encodeRegion c region q = .error (.regionOutOfBounds r)) ↔ ¬f.Meets region := by
  rw [meets_iff hr, Bool.not_eq_false]
  constructor
  · rintro ⟨r, herror⟩
    by_contra he
    have hne := Bool.eq_false_iff.mpr he
    have hcrop := cropRgb_ok h (Rect.liesIn_intersect region f.width f.height) hne
    have hcrop' : f.cropRgb (region.intersect f.bounds) = .ok (f.colours (region.intersect f.bounds)) := hcrop
    unfold encodeRegion at herror
    simp only [hne, Bool.false_eq_true, if_false, hcrop'] at herror
    -- The coder can still fail, but not for the region.
    split at herror <;> cases herror
  · intro he
    exact ⟨_, if_pos he⟩

theorem encodeRegion_isCoded (hc : c.IsLossless) (h : f.WellFormed) (hr : region.Fits) (hm : f.Meets region)
    (q : UInt8) :
    ∃ data, f.encodeRegion c region q = .ok data ∧
      (region.intersect f.bounds).IsCoded c (f.colours (region.intersect f.bounds)) data := by
  have he := (meets_iff hr).mp hm
  have hl : (region.intersect f.bounds).LiesIn f.width f.height := Rect.liesIn_intersect region f.width f.height
  obtain ⟨data, hdata, hdecode⟩ := encodeRegion_lossless hc h hl he q
  exact ⟨data, (encodeRegion_clipped he).trans hdata,
    Rect.isCoded_of_decode hdecode (size_colours f _) (size_colours_lt h hl)⟩

end Region
end Frame

variable {f : Frame} {region : Rect}

/-- A region is refused as outside if and only if it does not meet the frame. Otherwise a lossless coder gives
the colours of its visible part back, for every quality and for every frame with the same colours. -/
theorem encodeRegion_exact (hf : f.WellFormed) (hr : region.Fits) (c : Compressor) :
    (∀ q, (∃ r, f.encodeRegion c region q = .error (.regionOutOfBounds r)) ↔ ¬f.Meets region) ∧
      (c.IsLossless → f.Meets region → ∃ r rgb, r = region.intersect f.bounds ∧
        (∀ x y, r.Covers x y ↔ region.Covers x y ∧ x < f.width.toNat ∧ y < f.height.toNat) ∧ f.Packs r rgb ∧
        (∀ q, ∃ data, f.encodeRegion c region q = .ok data ∧ r.IsCoded c rgb data) ∧
        ∀ g : Frame, g.WellFormed → f.SameColours g →
          ∀ q, ∃ data, g.encodeRegion c region q = .ok data ∧ r.IsCoded c rgb data) := by
  refine ⟨fun q => Frame.encodeRegion_out_iff hf hr, fun hc hm => ?_⟩
  have hl : (region.intersect f.bounds).LiesIn f.width f.height := Rect.liesIn_intersect region f.width f.height
  refine ⟨_, f.colours (region.intersect f.bounds), rfl, Frame.covers_clipped hr, Frame.packs_colours hf hl,
    Frame.encodeRegion_isCoded hc hf hr hm, fun g hg hsame => ?_⟩
  rw [hsame.colours_eq hf hg hl]
  obtain ⟨hw, hh, -⟩ := hsame
  have hbounds : f.bounds = g.bounds := by
    unfold Frame.bounds
    rw [hw, hh]
  rw [hbounds]
  refine Frame.encodeRegion_isCoded hc hg hr ?_
  unfold Frame.Meets
  rw [← hw, ← hh]
  exact hm

/-- A region over the lower right corner of a padded frame, and a packed frame of the other order with the
same colours. -/
theorem encodeRegion_exact_overhanging :
    let f : Frame := ⟨2, 2, 9, .bgra, ⟨#[1, 2, 3, 4, 5, 6, 7, 8, 0, 9, 8, 7, 6, 5, 4, 3, 2, 0]⟩⟩
    let g : Frame := ⟨2, 2, 8, .rgba, ⟨#[3, 2, 1, 0, 7, 6, 5, 0, 7, 8, 9, 0, 3, 4, 5, 0]⟩⟩
    let region : Rect := ⟨1, 1, 5, 5⟩
    f.WellFormed ∧ g.WellFormed ∧ region.Fits ∧ f.Meets region ∧ f.SameColours g ∧
      ∃ rgb data other, f.Packs ⟨1, 1, 1, 1⟩ rgb ∧ f.encodeRegion .zstd region 1 = .ok data ∧
        decodeRegion .zstd data 1 1 = .ok rgb ∧ g.encodeRegion .zstd region 100 = .ok other ∧
        decodeRegion .zstd other 1 1 = .ok rgb ∧
        decodeRegion .zstd data 1 2 = .error (.encoding (.wrongSize rgb.size 6 1 2)) := by
  intro f g region
  have hf : f.WellFormed := by decide
  have hg : g.WellFormed := by decide
  have hr : region.Fits := by decide
  have hm : f.Meets region := ⟨1, 1, by decide, by decide, by decide⟩
  have hsame : f.SameColours g := Frame.sameColours_of_shown hf hg rfl rfl (by decide)
  have hcut : region.intersect f.bounds = ⟨1, 1, 1, 1⟩ := by decide
  obtain ⟨r, rgb, hrect, -, hpacks, hcoded, hother⟩ := (encodeRegion_exact hf hr .zstd).2 isLossless_zstd hm
  rw [hcut] at hrect
  subst hrect
  obtain ⟨data, hdata, hdecoded, hrefused⟩ := hcoded 1
  obtain ⟨other, hdata', hdecoded', -⟩ := hother g hg hsame 100
  exact ⟨hf, hg, hr, hm, hsame, rgb, data, other, hpacks, hdata, hdecoded, hdata', hdecoded', (hrefused 1 2 (by decide)).2⟩

end Screencast
