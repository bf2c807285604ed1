import Screencast.Proofs.PointerRows

/-!
# Frames are never read or written outside their buffers

A frame comes from a buffer that is large enough or from a fill, and from there on through operations that write
rows or pixels, turn it or draw the pointer. Each of them leaves rows that hold their pixels and a buffer that holds
the rows. That is all any operation needs, so however many of them follow each other, no slice is out of range.
-/

namespace Screencast
namespace Frame

variable {f g other : Frame} {x y : Nat}

/-- The frames that operations can give, from frames with sides below `2 ^ 30` on. -/
inductive IsMade : Frame → Prop
  | ofBytes {width height stride : UInt32} {format : PixelFormat} {data : ByteArray} {f : Frame}
      (hw : width.toNat < 2 ^ 30) (hh : height.toNat < 2 ^ 30)
      (h : Frame.ofBytes width height stride format data = .ok f) : IsMade f
  | filled {width height : UInt32} (hw : width.toNat < 2 ^ 30) (hh : height.toNat < 2 ^ 30) (format : PixelFormat)
      (byte : UInt8) : IsMade (.filled width height format byte)
  | setRow {f g : Frame} {y : Nat} {bytes : ByteArray} (hf : IsMade f) (h : f.setRow y bytes = .ok g) : IsMade g
  | setPixel {f g : Frame} {x y : Nat} {bytes : ByteArray} (hf : IsMade f) (h : f.setPixel x y bytes = .ok g) : IsMade g
  | rotate {f g : Frame} {rotation : Rotation} (hf : IsMade f) (h : f.rotate rotation = .ok g) : IsMade g
  | drawPointer {f g : Frame} {p : Pointer} {area : Area} {drawn : Option Rect} (hf : IsMade f)
      (h : f.drawPointer p area = .ok (g, drawn)) : IsMade g

structure IsSound (f : Frame) : Prop where
  wellFormed : f.WellFormed
  width_lt : f.width.toNat < 2 ^ 30
  height_lt : f.height.toNat < 2 ^ 30

/-! ### What operations keep -/

theorem IsSound.sameLayout (h : f.IsSound) (hg : g.SameLayout f) : g.IsSound := by
  refine ⟨hg.wellFormed h.wellFormed, ?_, ?_⟩
  · rw [hg.1]
    exact h.width_lt
  · rw [hg.2.1]
    exact h.height_lt

theorem IsSound.turned {rotation : Rotation} (h : f.IsSound) (hg : f.rotate rotation = .ok g) : g.IsSound := by
  have hturned := isTurned_rotate h.wellFormed h.width_lt h.height_lt hg
  have hw := h.width_lt
  have hh := h.height_lt
  refine ⟨hturned.wellFormed, ?_, ?_⟩
  · rw [hturned.toNat_width]
    split <;> assumption
  · rw [hturned.toNat_height]
    split <;> assumption

theorem sameLayout_of_setPixel {bytes : ByteArray} (h : f.setPixel x y bytes = .ok g) : g.SameLayout f := by
  unfold setPixel at h
  split at h
  · cases hdata : Bytes.overwrite f.data (f.pixelStart x y) bytes with
    | error e =>
      rw [hdata] at h
      cases h
    | ok data =>
      rw [hdata] at h
      cases h
      exact sameLayout_of_size (Bytes.size_of_overwrite hdata)
  · cases h

theorem sameLayout_of_drawPointer {p : Pointer} {area : Area} {drawn : Option Rect}
    (h : f.drawPointer p area = .ok (g, drawn)) : g.SameLayout f := by
  obtain ⟨-, -, rfl⟩ | ⟨target, data, -, -, rfl, hsize, -⟩ := drawPointer_cases h
  · exact ⟨rfl, rfl, rfl, rfl, rfl⟩
  · exact sameLayout_of_size hsize

theorem IsMade.isSound (h : f.IsMade) : f.IsSound := by
  induction h with
  | ofBytes hw hh h =>
    obtain ⟨rfl, hf⟩ := ofBytes_ok_iff.mp h
    exact ⟨hf, hw, hh⟩
  | filled hw hh format byte => exact ⟨(isPacked_filled hw _ format byte).wellFormed, hw, hh⟩
  | setRow _ h ih => exact ih.sameLayout (sameLayout_of_setRow h)
  | setPixel _ h ih => exact ih.sameLayout (sameLayout_of_setPixel h)
  | rotate _ h ih => exact ih.turned h
  | drawPointer _ h ih => exact ih.sameLayout (sameLayout_of_drawPointer h)

/-! ### What operations need -/

theorem row_total (hf : f.WellFormed) (hy : y < f.height.toNat) :
    ∃ bytes, f.row y = .ok bytes ∧ bytes.size = f.stride.toNat := by
  have hrows : (y + 1) * f.stride.toNat ≤ f.height.toNat * f.stride.toNat := Nat.mul_le_mul_right _ hy
  have hsize := hf.2
  rw [Nat.add_mul, Nat.one_mul] at hrows
  rw [Nat.mul_comm] at hsize
  refine ⟨_, Bytes.slice_ok (by omega), ?_⟩
  rw [ByteArray.size_extract]
  omega

theorem setRow_total (hf : f.WellFormed) (hy : y < f.height.toNat) {bytes : ByteArray} (hb : bytes.size = f.rowSize) :
    ∃ g, f.setRow y bytes = .ok g := by
  have hend := row_end_le hf hy
  have hfits : y * f.stride.toNat + bytes.size ≤ f.data.size := by omega
  obtain ⟨data, hdata, -⟩ := Bytes.overwrite_ok hfits
  unfold setRow Bytes.editAt
  simp only [Bytes.slice_ok hend, hb, if_true, hdata]
  exact ⟨_, rfl⟩

theorem blankFrom_total {todo : Nat} (hf : f.WellFormed) (hy : y + todo ≤ f.height.toNat) :
    ∃ b, f.blankFrom todo y = .ok b := by
  induction todo generalizing y with
  | zero => exact ⟨true, rfl⟩
  | succ todo ih =>
    rw [blankFrom, rowPixels_eq hf (by omega)]
    dsimp only
    split
    · exact ih (by omega)
    · exact ⟨false, rfl⟩

theorem cropRgb_ne (hf : f.WellFormed) (region : Rect) : f.cropRgb region ≠ .error .outOfBuffer := by
  cases he : (region.intersect f.bounds).isEmpty with
  | true =>
    have hrefused : f.cropRgb region = .error (.regionOutOfBounds (region.intersect f.bounds)) := if_pos he
    rw [hrefused]
    simp
  | false =>
    have hl : (region.intersect f.bounds).LiesIn f.width f.height := Rect.liesIn_intersect region f.width f.height
    rw [cropRgb_clipped he, cropRgb_ok hf hl he]
    simp

theorem encodeRegion_ne (hf : f.WellFormed) (c : Compressor) (region : Rect) (q : UInt8) :
    f.encodeRegion c region q ≠ .error .outOfBuffer := by
  unfold encodeRegion
  dsimp only
  split
  · simp
  · split
    · rename_i e he
      have hcrop := cropRgb_ne hf (region.intersect f.bounds)
      rw [he] at hcrop
      simpa using hcrop
    · split <;> simp

theorem change_ne (hf : f.WellFormed) (ho : other.WellFormed) (padding : UInt32) :
    f.change (some other) padding ≠ .error .outOfBuffer := by
  by_cases hsize : f.width ≠ other.width ∨ f.height ≠ other.height
  · rw [change_error padding hsize]
    simp
  · obtain ⟨hw, hh⟩ := not_or.mp hsize
    rw [ne_eq, Classical.not_not] at hw hh
    by_cases hformat : f.format = other.format
    · obtain ⟨r, hr, -⟩ := change_covers hf ho ⟨hw, hh, hformat⟩ padding
      rw [hr]
      simp
    · rw [change_format_error padding hw hh hformat]
      simp

/-- No operation on the frame reaches outside a buffer; those that loop over rows do not in any of their slices. -/
structure IsSafe (f : Frame) : Prop where
  row : ∀ y, y < f.height.toNat → ∃ bytes, f.row y = .ok bytes ∧ bytes.size = f.stride.toNat
  rowPixels : ∀ y, y < f.height.toNat → ∃ bytes, f.rowPixels y = .ok bytes ∧ bytes.size = f.rowSize
  setRow : ∀ y bytes, y < f.height.toNat → bytes.size = f.rowSize → ∃ g, f.setRow y bytes = .ok g
  pixel : ∀ x y, x < f.width.toNat → y < f.height.toNat → ∃ bytes, f.pixel x y = .ok bytes ∧ bytes.size = f.format.size
  setPixel : ∀ x y bytes, x < f.width.toNat → y < f.height.toNat → bytes.size = f.format.size →
    ∃ g, f.setPixel x y bytes = .ok g
  isBlank : ∃ b, f.isBlank = .ok b
  crop : ∀ region, f.cropRgb region ≠ .error .outOfBuffer ∧ f.cropByRows region = f.cropRgb region
  encode : ∀ c region q, f.encodeRegion c region q ≠ .error .outOfBuffer
  rotate : ∀ rotation, ∃ g, f.rotate rotation = .ok g ∧ f.rotateByRows rotation = .ok g
  change : ∀ other padding, other.IsMade → f.change (some other) padding ≠ .error .outOfBuffer
  drawPointer : ∀ p area, p.pixels.size < 2 ^ 32 →
    ∃ g drawn, f.drawPointer p area = .ok (g, drawn) ∧ f.drawPointerByRows p area = .ok (g, drawn)

theorem IsSound.isSafe (h : f.IsSound) : f.IsSafe where
  row y hy := row_total h.wellFormed hy
  rowPixels y hy := ⟨_, rowPixels_eq h.wellFormed hy, size_rowBytes h.wellFormed hy⟩
  setRow y bytes hy hb := setRow_total h.wellFormed hy hb
  pixel x y hx hy := by
    have hend := pixelStart_add_le h.wellFormed hx hy
    refine ⟨_, pixel_ok h.wellFormed hx hy, ?_⟩
    rw [ByteArray.size_extract]
    omega
  setPixel x y bytes hx hy hb := by
    obtain ⟨g, hg, -⟩ := setPixel_ok h.wellFormed hx hy hb
    exact ⟨g, hg⟩
  isBlank := blankFrom_total h.wellFormed (Nat.le_of_eq (Nat.zero_add _))
  crop region := ⟨cropRgb_ne h.wellFormed region, cropByRows_eq h.wellFormed region⟩
  encode c region q := encodeRegion_ne h.wellFormed c region q
  rotate rotation := by
    obtain ⟨g, hg⟩ := rotate_total h.wellFormed rotation
    exact ⟨g, hg, rotateByRows_eq h.wellFormed h.width_lt h.height_lt hg⟩
  change other padding ho := change_ne h.wellFormed ho.isSound.wellFormed padding
  drawPointer p area hp := by
    obtain ⟨g, drawn, hg⟩ := drawPointer_total h.wellFormed p area
    exact ⟨g, drawn, hg, (drawPointerByRows_eq h.wellFormed hp area).trans hg⟩

end Frame

/-- Whatever has been done to a frame, its rows hold their pixels, its buffer holds the rows, and no operation on it
reaches outside a buffer. -/
theorem frame_in_range {f : Frame} (h : f.IsMade) : f.IsSound ∧ f.IsSafe :=
  ⟨h.isSound, h.isSound.isSafe⟩

/-- A padded row over a buffer with a byte to spare, turned by a quarter, with the pointer drawn over its last pixel. -/
theorem frame_in_range_turned :
    let f : Frame := ⟨2, 1, 9, .bgra, ⟨#[1, 2, 3, 4, 5, 6, 7, 8, 0, 9]⟩⟩
    let turned : Frame := ⟨1, 2, 4, .bgra, ⟨#[5, 6, 7, 8, 1, 2, 3, 4]⟩⟩
    let drawn : Frame := ⟨1, 2, 4, .bgra, ⟨#[5, 6, 7, 8, 9, 9, 9, 255]⟩⟩
    Frame.ofBytes 2 1 9 .bgra ⟨#[1, 2, 3, 4, 5, 6, 7, 8, 0, 9]⟩ = .ok f ∧ f.rotate .quarter = .ok turned ∧
      turned.drawPointer ⟨0, 1, 0, 0, 1, 1, ⟨#[9, 9, 9, 255]⟩⟩ ⟨0, 0, 1, 2⟩ = .ok (drawn, some ⟨0, 1, 1, 1⟩) ∧
      drawn.IsMade ∧ drawn.IsSound ∧ drawn.IsSafe := by
  intro f turned drawn
  have hf : Frame.ofBytes 2 1 9 .bgra ⟨#[1, 2, 3, 4, 5, 6, 7, 8, 0, 9]⟩ = .ok f := rfl
  have hturned : f.rotate .quarter = .ok turned := by decide
  have hdrawn : turned.drawPointer ⟨0, 1, 0, 0, 1, 1, ⟨#[9, 9, 9, 255]⟩⟩ ⟨0, 0, 1, 2⟩ =
      .ok (drawn, some ⟨0, 1, 1, 1⟩) := by decide
  have hmade : drawn.IsMade := ((Frame.IsMade.ofBytes (by decide) (by decide) hf).rotate hturned).drawPointer hdrawn
  exact ⟨hf, hturned, hdrawn, hmade, frame_in_range hmade⟩

end Screencast
