import Screencast.Frame.Pointer
import Screencast.Frame.Turn
import Screencast.Proofs.Change

/-!
# Where pictures differ

Two frames of one size and one format, and areas that cover every pixel in which they differ. Turning
both frames turns the areas with them; drawing the pointer adds the area it was drawn in.
-/

namespace Screencast

namespace Bytes

theorem buildFrom_total {ε : Type} {f : Nat → Except ε UInt8} {b : ByteArray} :
    ∀ {todo i : Nat} {acc : ByteArray}, buildFrom f todo i acc = .ok b → ∀ j, i ≤ j → j < i + todo → ∃ v, f j = .ok v
  | 0, _, _, _, j, hi, hj => by omega
  | todo + 1, i, acc, h, j, hi, hj => by
    rw [buildFrom] at h
    split at h
    · cases h
    · rename_i v hv
      rcases Nat.eq_or_lt_of_le hi with rfl | hlt
      · exact ⟨v, hv⟩
      · exact buildFrom_total h j hlt (by omega)

theorem buildFrom_error {ε : Type} {f : Nat → Except ε UInt8} {fault : ε} {todo i : Nat} {acc : ByteArray}
    (h : buildFrom f todo i acc = .error fault) : ∃ j, j < i + todo ∧ f j = .error fault := by
  induction todo generalizing i acc with
  | zero => cases h
  | succ todo ih =>
    rw [buildFrom] at h
    split at h
    · rename_i e he
      cases h
      exact ⟨i, by omega, he⟩
    · obtain ⟨j, hj, hfault⟩ := ih h
      exact ⟨j, by omega, hfault⟩

/-- A table is refused for one of its bytes. -/
theorem build_error {ε : Type} {n : Nat} {f : Nat → Except ε UInt8} {fault : ε} (h : build n f = .error fault) :
    ∃ i, i < n ∧ f i = .error fault := by
  obtain ⟨i, hi, hfault⟩ := buildFrom_error h
  exact ⟨i, by omega, hfault⟩

/-- A table holds what its rule says. -/
theorem byteAt_build {n : Nat} {f : Nat → Except StreamError UInt8} {b : ByteArray} (h : build n f = .ok b) :
    b.size = n ∧ ∀ i, i < n → byteAt b i = f i := by
  have htotal : ∀ i, i < n → f i = .ok ((f i).toOption.getD 0) := by
    intro i hi
    obtain ⟨v, hv⟩ := buildFrom_total h i (Nat.zero_le i) (by omega)
    rw [hv]
    rfl
  obtain rfl : tabulate n _ = b := Except.ok.inj ((build_ok htotal).symm.trans h)
  refine ⟨size_tabulate _ _, fun i hi => ?_⟩
  rw [byteAt_ok (by rw [size_tabulate]; exact hi), getElem_tabulate]
  exact (htotal i hi).symm

end Bytes

/-- A turned rectangle covers the places whose pixels come from the rectangle. -/
theorem Rect.covers_rotate {r : Rect} {width height : UInt32} (h : r.LiesIn width height) (rotation : Rotation)
    {x y : Nat} (hx : x < (if rotation.isSideways then height else width).toNat)
    (hy : y < (if rotation.isSideways then width else height).toNat) :
    (r.rotate rotation width height).Covers x y ↔
      r.Covers (rotation.origin width.toNat height.toNat x y).1 (rotation.origin width.toNat height.toNat x y).2 := by
  have hright := toNat_right h.fits
  have hbottom := toNat_bottom h.fits
  obtain ⟨hw, hh⟩ := h
  unfold Covers
  cases rotation <;>
    simp only [Rotation.origin, Rotation.isSideways, rotate, toNat_satSub, Bool.false_eq_true, if_false, if_true]
      at hx hy ⊢ <;>
    omega

namespace Frame

/-- Both have one size and one format, and each pixel in which they differ lies in one of the areas. -/
def DiffersWithin (a b : Frame) (rects : List Rect) : Prop :=
  a.Alike b ∧ ∀ x y, a.Differ b x y → ∃ r ∈ rects, r.Covers x y

section DiffersWithin

variable {a b c : Frame} {rects more : List Rect}

theorem DiffersWithin.refl (a : Frame) (rects : List Rect) : a.DiffersWithin a rects :=
  ⟨⟨rfl, rfl, rfl⟩, fun _ _ h => absurd rfl h.2⟩

theorem DiffersWithin.symm (h : a.DiffersWithin b rects) : b.DiffersWithin a rects := by
  obtain ⟨⟨hw, hh, hf⟩, hd⟩ := h
  refine ⟨⟨hw.symm, hh.symm, hf.symm⟩, fun x y ⟨hxy, hne⟩ => hd x y ⟨?_, hne.symm⟩⟩
  rw [hw, hh]
  exact hxy

theorem DiffersWithin.trans (hab : a.DiffersWithin b rects) (hbc : b.DiffersWithin c more) :
    a.DiffersWithin c (rects ++ more) := by
  obtain ⟨⟨hw, hh, hf⟩, hd⟩ := hab
  obtain ⟨⟨hw', hh', hf'⟩, hd'⟩ := hbc
  refine ⟨⟨hw.trans hw', hh.trans hh', hf.trans hf'⟩, fun x y ⟨hxy, hne⟩ => ?_⟩
  -- A pixel that differs from the last frame differs already in the first step, or else in the second.
  rcases Classical.em (a.pixel x y = b.pixel x y) with heq | hne'
  · rw [heq] at hne
    rw [hw, hh] at hxy
    obtain ⟨r, hr, hc⟩ := hd' x y ⟨hxy, hne⟩
    exact ⟨r, List.mem_append_right _ hr, hc⟩
  · obtain ⟨r, hr, hc⟩ := hd x y ⟨hxy, hne'⟩
    exact ⟨r, List.mem_append_left _ hr, hc⟩

theorem DiffersWithin.mono (h : a.DiffersWithin b rects) (hsub : ∀ r ∈ rects, r ∈ more) : a.DiffersWithin b more := by
  refine ⟨h.1, fun x y hd => ?_⟩
  obtain ⟨r, hr, hc⟩ := h.2 x y hd
  exact ⟨r, hsub r hr, hc⟩

end DiffersWithin

section Pixels

variable {f g : Frame} {x y u v : Nat}

theorem pixel_ext (hf : f.WellFormed) (hg : g.WellFormed) (hformat : f.format = g.format) (hx : x < f.width.toNat)
    (hy : y < f.height.toNat) (hu : u < g.width.toNat) (hv : v < g.height.toNat)
    (h : ∀ k, k < f.format.size → f.pixelByte x y k = g.pixelByte u v k) : f.pixel x y = g.pixel u v := by
  have hend := pixelStart_add_le hf hx hy
  have hend' := pixelStart_add_le hg hu hv
  rw [← hformat] at hend'
  rw [pixel_ok hf hx hy, pixel_ok hg hu hv, Except.ok.injEq, ← hformat]
  refine ByteArray.ext_getElem ?_ fun k hk hk' => ?_
  · rw [ByteArray.size_extract, ByteArray.size_extract]
    omega
  · rw [ByteArray.size_extract] at hk
    have hbyte := h k (by omega)
    unfold pixelByte at hbyte
    rw [Bytes.byteAt_ok (by omega), Bytes.byteAt_ok (by omega), Except.ok.injEq] at hbyte
    rw [ByteArray.getElem_extract, ByteArray.getElem_extract]
    exact hbyte

/-- Where a byte of a pixel lies, row by row. -/
theorem place_of_byte (h : f.WellFormed) (hx : x < f.width.toNat) {k : Nat} (hk : k < f.format.size) :
    (f.pixelStart x y + k) / f.stride.toNat = y ∧ (f.pixelStart x y + k) % f.stride.toNat = x * f.format.size + k ∧
      (x * f.format.size + k) / f.format.size = x ∧ (x * f.format.size + k) % f.format.size = k := by
  have hrow := h.1
  have hpixel := pixel_end_le hx
  have hlt : x * f.format.size + k < f.stride.toNat := by omega
  have hstart : f.pixelStart x y + k = x * f.format.size + k + f.stride.toNat * y := by
    unfold pixelStart
    rw [Nat.mul_comm f.stride.toNat]
    omega
  have hinner : x * f.format.size + k = k + f.format.size * x := by
    rw [Nat.mul_comm f.format.size]
    omega
  rw [hstart, Nat.add_mul_div_left _ _ (by omega), Nat.add_mul_mod_self_left, Nat.div_eq_of_lt hlt,
    Nat.mod_eq_of_lt hlt, Nat.zero_add, hinner, Nat.add_mul_div_left _ _ (by omega), Nat.add_mul_mod_self_left, Nat.div_eq_of_lt hk,
    Nat.mod_eq_of_lt hk]
  exact ⟨rfl, rfl, Nat.zero_add x, rfl⟩

/-- Every byte of the buffer has a place by its row, what is left over telling the column. -/
theorem byte_of_place (f : Frame) (i : Nat) :
    f.pixelStart (i % f.stride.toNat / f.format.size) (i / f.stride.toNat) + i % f.stride.toNat % f.format.size = i := by
  have hrow := Nat.div_add_mod' i f.stride.toNat
  have hcolumn := Nat.div_add_mod' (i % f.stride.toNat) f.format.size
  unfold pixelStart
  omega

end Pixels

/-! ### Turns -/

section Turns

variable {f g a b c d : Frame} {r : Rotation}

theorem origin_lt (r : Rotation) {w h : UInt32} {x y : Nat} (hx : x < (if r.isSideways then h else w).toNat)
    (hy : y < (if r.isSideways then w else h).toNat) :
    (r.origin w.toNat h.toNat x y).1 < w.toNat ∧ (r.origin w.toNat h.toNat x y).2 < h.toNat := by
  cases r <;>
    simp only [Rotation.origin, Rotation.isSideways, Bool.false_eq_true, if_false, if_true] at hx hy ⊢ <;>
    omega

/-- A turned frame is packed, and its pixels are those of the frame it was turned from. -/
structure IsTurned (f : Frame) (r : Rotation) (g : Frame) : Prop where
  wellFormed : g.WellFormed
  format : g.format = f.format
  width : g.width = if r.isSideways then f.height else f.width
  height : g.height = if r.isSideways then f.width else f.height
  pixel : ∀ x y, x < g.width.toNat → y < g.height.toNat →
    g.pixel x y = f.pixel (r.origin f.width.toNat f.height.toNat x y).1 (r.origin f.width.toNat f.height.toNat x y).2

/-- The rows follow each other without padding, and nothing follows them. -/
def IsPacked (f : Frame) : Prop := f.stride.toNat = f.rowSize ∧ f.data.size = f.stride.toNat * f.height.toNat

theorem IsPacked.wellFormed (h : f.IsPacked) : f.WellFormed := ⟨Nat.le_of_eq h.1.symm, Nat.le_of_eq h.2.symm⟩

/-- A row of less than `2 ^ 30` pixels is counted by a word. -/
theorem toNat_rowSize {width : UInt32} (h : width.toNat < 2 ^ 30) (format : PixelFormat) :
    (UInt32.ofNat (width.toNat * format.size)).toNat = width.toNat * format.size := by
  have hfour : format.size ≤ 4 := by cases format <;> decide
  have hmul := Nat.mul_le_mul_left width.toNat hfour
  exact UInt32.toNat_ofNat_of_lt' (by simp only [UInt32.size]; omega)

/-- What a turn writes: a packed frame of the turned size, each byte taken from where its pixel comes from. -/
theorem rotate_written (hw : f.width.toNat < 2 ^ 30) (hh : f.height.toNat < 2 ^ 30) (hr : r ≠ .identity)
    (h : f.rotate r = .ok g) :
    g.IsPacked ∧ g.format = f.format ∧ g.width = (if r.isSideways then f.height else f.width) ∧
      g.height = (if r.isSideways then f.width else f.height) ∧
      ∀ i, i < g.data.size → Bytes.byteAt g.data i =
        f.pixelByte (r.origin f.width.toNat f.height.toNat (i % g.stride.toNat / f.format.size) (i / g.stride.toNat)).1
          (r.origin f.width.toNat f.height.toNat (i % g.stride.toNat / f.format.size) (i / g.stride.toNat)).2
          (i % f.format.size) := by
  unfold rotate at h
  rw [if_neg hr] at h
  dsimp only at h
  split at h
  · cases h
  · rename_i data hdata
    obtain ⟨hsize, hbyte⟩ := Bytes.byteAt_build hdata
    have hlt : (if r.isSideways then f.height else f.width).toNat < 2 ^ 30 := by split <;> assumption
    have hstride := toNat_rowSize hlt f.format
    obtain rfl := Except.ok.inj h
    refine ⟨⟨hstride, ?_⟩, rfl, rfl, rfl, fun i hi => ?_⟩
    · rw [hsize, hstride]
    · rw [hsize] at hi
      rw [hbyte i hi, hstride]

theorem isTurned_rotate (hf : f.WellFormed) (hw : f.width.toNat < 2 ^ 30) (hh : f.height.toNat < 2 ^ 30)
    (h : f.rotate r = .ok g) : f.IsTurned r g := by
  by_cases hr : r = .identity
  · subst hr
    obtain rfl : f = g := Except.ok.inj h
    exact ⟨hf, rfl, rfl, rfl, fun x y _ _ => rfl⟩
  · obtain ⟨hpacked, hformat, hwidth, hheight, hbyte⟩ := rotate_written hw hh hr h
    have hg := hpacked.wellFormed
    refine ⟨hg, hformat, hwidth, hheight, fun x y hx hy => ?_⟩
    obtain ⟨hu, hv⟩ := origin_lt r (hwidth ▸ hx) (hheight ▸ hy)
    refine pixel_ext hg hf hformat hx hy hu hv fun k hk => ?_
    obtain ⟨hrow, hplace, hcolumn, hrest⟩ := place_of_byte (y := y) hg hx hk
    have hend := pixelStart_add_le hg hx hy
    -- The stride is a whole number of pixels, so that the place in the row tells the byte of the pixel.
    have hdvd : g.format.size ∣ g.stride.toNat := by
      rw [hpacked.1]
      exact Nat.dvd_mul_left _ _
    show Bytes.byteAt g.data _ = _
    rw [hbyte _ (by omega), ← hformat, hrow, hplace, hcolumn, ← Nat.mod_mod_of_dvd _ hdvd, hplace, hrest]

theorem DiffersWithin.turn {rects : List Rect} (h : a.DiffersWithin b rects) (hc : a.IsTurned r c) (hd : b.IsTurned r d)
    (hrects : ∀ x ∈ rects, x.LiesIn a.width a.height) :
    c.DiffersWithin d (rects.map fun x => x.rotate r a.width a.height) := by
  obtain ⟨⟨hw, hh, hf⟩, hdiffer⟩ := h
  have hwidth : c.width = d.width := by rw [hc.width, hd.width, hw, hh]
  have hheight : c.height = d.height := by rw [hc.height, hd.height, hw, hh]
  refine ⟨⟨hwidth, hheight, by rw [hc.format, hd.format, hf]⟩, fun x y ⟨⟨hx, hy⟩, hne⟩ => ?_⟩
  rw [hc.pixel x y hx hy, hd.pixel x y (hwidth ▸ hx) (hheight ▸ hy), ← hw, ← hh] at hne
  rw [hc.width] at hx
  rw [hc.height] at hy
  obtain ⟨rect, hmem, hcover⟩ := hdiffer _ _ ⟨origin_lt r hx hy, hne⟩
  exact ⟨_, List.mem_map_of_mem hmem, (Rect.covers_rotate (hrects rect hmem) r hx hy).mpr hcover⟩

end Turns

/-- Either the pointer cannot be drawn, or each byte is what drawing it in its box makes of it. -/
theorem drawPointer_cases {f g : Frame} {p : Pointer} {area : Area} {drawn : Option Rect}
    (h : f.drawPointer p area = .ok (g, drawn)) :
    (p.box f area = none ∧ drawn = none ∧ g = f) ∨
      ∃ target data, p.box f area = some target ∧ drawn = some target ∧ g = { f with data := data } ∧
        data.size = f.data.size ∧ ∀ i, i < f.data.size → Bytes.byteAt data i = p.drawnByte f target i := by
  unfold drawPointer at h
  split at h
  · rename_i hbox
    cases h
    exact .inl ⟨hbox, rfl, rfl⟩
  · rename_i target hbox
    split at h
    · cases h
    · rename_i data hdata
      cases h
      obtain ⟨hsize, hbyte⟩ := Bytes.byteAt_build hdata
      exact .inr ⟨target, data, hbox, rfl, rfl, hsize, hbyte⟩

/-- The pointer changes nothing outside the area that it was drawn in. -/
theorem differsWithin_drawPointer {f g : Frame} (hf : f.WellFormed) {p : Pointer} {area : Area} {drawn : Option Rect}
    (h : f.drawPointer p area = .ok (g, drawn)) : g.DiffersWithin f drawn.toList := by
  obtain ⟨-, rfl, rfl⟩ | ⟨target, data, -, rfl, rfl, hsize, hbyte⟩ := drawPointer_cases h
  · exact .refl g []
  · have hg : ({ f with data := data } : Frame).WellFormed := by
      obtain ⟨hrow, hrows⟩ := hf
      exact ⟨hrow, by rw [hsize]; exact hrows⟩
    refine ⟨⟨rfl, rfl, rfl⟩, fun x y ⟨⟨hx, hy⟩, hne⟩ => ⟨target, List.mem_singleton_self target, ?_⟩⟩
    refine Classical.byContradiction fun hout => hne (pixel_ext hg hf rfl hx hy hx hy fun k hk => ?_)
    obtain ⟨hrow, hplace, hcolumn, -⟩ := place_of_byte (y := y) hf hx hk
    have hend := pixelStart_add_le hf hx hy
    have hlt : f.pixelStart x y + k < f.data.size := by
      dsimp only at hk
      omega
    show Bytes.byteAt data (f.pixelStart x y + k) = Bytes.byteAt f.data (f.pixelStart x y + k)
    rw [hbyte _ hlt]
    unfold Pointer.drawnByte
    dsimp only
    rw [Bytes.byteAt_ok hlt, hrow, hplace, hcolumn]
    exact if_neg hout

end Frame
end Screencast
