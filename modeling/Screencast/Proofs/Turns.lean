import Screencast.Proofs.Crop
import Screencast.Proofs.Difference

/-!
# Turns compose

Turning a frame and then turning the result is turning once by the sum of the angles. A turn moves every
pixel to a place of its own and leaves no place free, so nothing is lost and opposite turns undo each
other. The new buffer is filled from where its pixels come from; writing the pixels of the frame one after
the other to where they go ends in the same buffer.
-/

namespace Screencast

/-! ### Places -/

namespace Rotation

/-- The angle, below a full turn. -/
def degrees (r : Rotation) : Nat := 90 * r.quarters

variable {w h x y : Nat}

theorem add_eq (a b : Rotation) : a + b = ofQuarters (a.quarters + b.quarters) := rfl

theorem add_identity (a : Rotation) : a + .identity = a := by cases a <;> rfl

theorem degrees_add (a b : Rotation) : (a + b).degrees = (a.degrees + b.degrees) % 360 := by
  cases a <;> cases b <;> rfl

theorem isSideways_add (a b : Rotation) : (a + b).isSideways = (a.isSideways ^^ b.isSideways) := by
  cases a <;> cases b <;> rfl

theorem target_lt (r : Rotation) (hx : x < w) (hy : y < h) :
    (r.target w h x y).1 < (if r.isSideways then h else w) ∧ (r.target w h x y).2 < (if r.isSideways then w else h) := by
  cases r <;> simp only [target, isSideways, Bool.false_eq_true, if_false, if_true] <;> omega

theorem target_origin (r : Rotation) (hx : x < (if r.isSideways then h else w)) (hy : y < (if r.isSideways then w else h)) :
    r.target w h (r.origin w h x y).1 (r.origin w h x y).2 = (x, y) := by
  cases r <;> simp only [isSideways, Bool.false_eq_true, if_false, if_true] at hx hy <;>
    refine Prod.ext ?_ ?_ <;> simp only [target, origin] <;> omega

/-- Where a pixel comes from through two turns is where it comes from through their sum. -/
theorem origin_add (a b : Rotation) (hx : x < (if (a + b).isSideways then h else w))
    (hy : y < (if (a + b).isSideways then w else h)) :
    a.origin w h (b.origin (if a.isSideways then h else w) (if a.isSideways then w else h) x y).1
        (b.origin (if a.isSideways then h else w) (if a.isSideways then w else h) x y).2 =
      (a + b).origin w h x y := by
  cases a <;> cases b <;>
    simp only [add_eq, quarters, ofQuarters, Nat.reduceAdd, Nat.reduceMod, isSideways, Bool.false_eq_true, if_false,
      if_true] at hx hy ⊢ <;>
    refine Prod.ext ?_ ?_ <;> simp only [origin] <;> omega

end Rotation

namespace Frame

/-! ### Packed frames -/

section Packed

variable {f g : Frame} {x y u v : Nat}

/-- One size, one format and equal pixels. -/
def SamePixels (a b : Frame) : Prop :=
  a.Alike b ∧ ∀ x y, x < a.width.toNat → y < a.height.toNat → a.pixel x y = b.pixel x y

/-- A byte of a packed frame belongs to a pixel. -/
theorem IsPacked.exists_place (h : f.IsPacked) {i : Nat} (hi : i < f.data.size) :
    ∃ x y k, x < f.width.toNat ∧ y < f.height.toNat ∧ k < f.format.size ∧ f.pixelStart x y + k = i := by
  -- The row is told by the stride, the column and the byte by what is left over.
  obtain ⟨hstride, hsize⟩ := h
  rw [hsize] at hi
  have hpos := f.format.size_pos
  have hspos : 0 < f.stride.toNat := Nat.pos_of_mul_pos_right (Nat.zero_lt_of_lt hi)
  have hy : i / f.stride.toNat < f.height.toNat := Nat.div_lt_of_lt_mul hi
  have hrest : i % f.stride.toNat < f.width.toNat * f.format.size := by
    have hmod := Nat.mod_lt i hspos
    rw [hstride] at hmod ⊢
    exact hmod
  have hx : i % f.stride.toNat / f.format.size < f.width.toNat :=
    Nat.div_lt_of_lt_mul (by rw [Nat.mul_comm]; exact hrest)
  exact ⟨i % f.stride.toNat / f.format.size, i / f.stride.toNat, i % f.stride.toNat % f.format.size, hx, hy,
    Nat.mod_lt _ hpos, f.byte_of_place i⟩

/-- A packed frame is told by its size, its format and its pixels. -/
theorem SamePixels.eq (h : f.SamePixels g) (hf : f.IsPacked) (hg : g.IsPacked) : f = g := by
  obtain ⟨⟨hw, hh, hformat⟩, hpixel⟩ := h
  have hrow : f.rowSize = g.rowSize := by
    unfold rowSize
    rw [hw, hformat]
  have hstride : f.stride = g.stride := UInt32.toNat_inj.mp (by rw [hf.1, hg.1, hrow])
  have hdata : f.data = g.data := by
    refine Bytes.ext_getOrZero (by rw [hf.2, hg.2, hstride, hh]) fun i hi => ?_
    obtain ⟨x, y, k, hx, hy, hk, rfl⟩ := hf.exists_place hi
    have hbyte := byte_of_pixel hf.wellFormed hg.wellFormed hformat hx hy (hw ▸ hx) (hh ▸ hy) (hpixel x y hx hy) hk
    have hstart : g.pixelStart x y = f.pixelStart x y := by
      unfold pixelStart
      rw [hstride, hformat]
    rw [hbyte, hstart]
  obtain ⟨fw, fh, fs, ff, fd⟩ := f
  obtain ⟨gw, gh, gs, gf, gd⟩ := g
  cases hw
  cases hh
  cases hstride
  cases hformat
  cases hdata
  rfl

end Packed

/-! ### One turn -/

section Turn

variable {f g k : Frame} {a b r : Rotation}

theorem rotate_total (hf : f.WellFormed) (r : Rotation) : ∃ g, f.rotate r = .ok g := by
  by_cases hr : r = .identity
  · exact ⟨f, if_pos hr⟩
  · unfold rotate
    rw [if_neg hr]
    dsimp only
    split
    · -- Every place of the new buffer comes from a pixel, and its byte is there.
      rename_i fault hbuild
      obtain ⟨i, hi, hfault⟩ := Bytes.build_error hbuild
      have hpos := f.format.size_pos
      have hy := Nat.div_lt_of_lt_mul hi
      have hrow := Nat.mod_lt i (Nat.pos_of_mul_pos_right (Nat.zero_lt_of_lt hi))
      have hx := Nat.div_lt_of_lt_mul (Nat.lt_of_lt_of_eq hrow (Nat.mul_comm _ _))
      obtain ⟨hu, hv⟩ := origin_lt r hx hy
      rw [pixelByte_ok hf hu hv (Nat.mod_lt i hpos)] at hfault
      cases hfault
    · exact ⟨_, rfl⟩

theorem IsTurned.toNat_width (h : f.IsTurned r g) :
    g.width.toNat = if r.isSideways then f.height.toNat else f.width.toNat := by
  rw [h.width, apply_ite UInt32.toNat]

theorem IsTurned.toNat_height (h : f.IsTurned r g) :
    g.height.toNat = if r.isSideways then f.width.toNat else f.height.toNat := by
  rw [h.height, apply_ite UInt32.toNat]

/-- A turned frame that is turned again is the frame turned by the sum. -/
theorem IsTurned.trans (hg : f.IsTurned a g) (hk : g.IsTurned b k) : f.IsTurned (a + b) k := by
  have hwidth : k.width = if (a + b).isSideways then f.height else f.width := by
    rw [hk.width, hg.width, hg.height, Rotation.isSideways_add]
    cases a.isSideways <;> cases b.isSideways <;> rfl
  have hheight : k.height = if (a + b).isSideways then f.width else f.height := by
    rw [hk.height, hg.width, hg.height, Rotation.isSideways_add]
    cases a.isSideways <;> cases b.isSideways <;> rfl
  refine ⟨hk.wellFormed, hk.format.trans hg.format, hwidth, hheight, fun x y hx hy => ?_⟩
  have hpixel := hk.pixel x y hx hy
  obtain ⟨hu, hv⟩ := origin_lt b (hk.width ▸ hx) (hk.height ▸ hy)
  rw [hwidth, apply_ite UInt32.toNat] at hx
  rw [hheight, apply_ite UInt32.toNat] at hy
  have hadd := Rotation.origin_add a b hx hy
  rw [← hg.toNat_width, ← hg.toNat_height] at hadd
  rw [hpixel, hg.pixel _ _ hu hv, hadd]

/-- There is one way to turn a frame, up to the layout of the rows. -/
theorem IsTurned.samePixels (hg : f.IsTurned r g) (hk : f.IsTurned r k) : g.SamePixels k := by
  have hwidth : g.width = k.width := hg.width.trans hk.width.symm
  have hheight : g.height = k.height := hg.height.trans hk.height.symm
  refine ⟨⟨hwidth, hheight, hg.format.trans hk.format.symm⟩, fun x y hx hy => ?_⟩
  rw [hg.pixel x y hx hy, hk.pixel x y (hwidth ▸ hx) (hheight ▸ hy)]

/-- Every pixel has its place in the turned frame, and every place has one pixel. -/
structure IsMoved (f : Frame) (r : Rotation) (g : Frame) : Prop where
  moved : ∀ x y, x < f.width.toNat → y < f.height.toNat →
    ((r.target f.width.toNat f.height.toNat x y).1 < g.width.toNat ∧
      (r.target f.width.toNat f.height.toNat x y).2 < g.height.toNat) ∧
    g.pixel (r.target f.width.toNat f.height.toNat x y).1 (r.target f.width.toNat f.height.toNat x y).2 = f.pixel x y
  unique : ∀ u v, u < g.width.toNat → v < g.height.toNat →
    ∃ x y, (x < f.width.toNat ∧ y < f.height.toNat) ∧ r.target f.width.toNat f.height.toNat x y = (u, v) ∧
      ∀ x' y', x' < f.width.toNat → y' < f.height.toNat →
        r.target f.width.toNat f.height.toNat x' y' = (u, v) → x' = x ∧ y' = y

theorem IsTurned.isMoved (h : f.IsTurned r g) : f.IsMoved r g := by
  refine ⟨fun x y hx hy => ?_, fun u v hu hv => ?_⟩
  · have hlt := r.target_lt hx hy
    rw [← h.toNat_width, ← h.toNat_height] at hlt
    refine ⟨hlt, ?_⟩
    rw [h.pixel _ _ hlt.1 hlt.2, r.origin_target hx hy]
  · obtain ⟨hx, hy⟩ := origin_lt r (h.width ▸ hu) (h.height ▸ hv)
    rw [h.toNat_width] at hu
    rw [h.toNat_height] at hv
    refine ⟨_, _, ⟨hx, hy⟩, r.target_origin hu hv, fun x' y' hx' hy' htarget => ?_⟩
    have horigin := r.origin_target hx' hy'
    rw [htarget] at horigin
    rw [horigin]
    exact ⟨rfl, rfl⟩

end Turn

/-! ### Pixels written one after the other -/

section Copy

variable {f g out : Frame} {r : Rotation} {x y u v : Nat}

def SameLayout (a b : Frame) : Prop :=
  a.width = b.width ∧ a.height = b.height ∧ a.stride = b.stride ∧ a.format = b.format ∧ a.data.size = b.data.size

theorem SameLayout.rowSize_eq (h : f.SameLayout g) : f.rowSize = g.rowSize := by
  obtain ⟨hw, -, -, hformat, -⟩ := h
  unfold rowSize
  rw [hw, hformat]

theorem SameLayout.pixelStart_eq (h : f.SameLayout g) (x y : Nat) : f.pixelStart x y = g.pixelStart x y := by
  obtain ⟨-, -, hs, hformat, -⟩ := h
  unfold pixelStart
  rw [hs, hformat]

theorem SameLayout.wellFormed (h : f.SameLayout g) (hg : g.WellFormed) : f.WellFormed := by
  have hrow := h.rowSize_eq
  obtain ⟨-, hh, hs, -, hd⟩ := h
  obtain ⟨hstride, hsize⟩ := hg
  unfold WellFormed
  rw [hrow, hs, hh, hd]
  exact ⟨hstride, hsize⟩

theorem SameLayout.isPacked (h : f.SameLayout g) (hg : g.IsPacked) : f.IsPacked := by
  have hrow := h.rowSize_eq
  obtain ⟨-, hh, hs, -, hd⟩ := h
  obtain ⟨hstride, hsize⟩ := hg
  unfold IsPacked
  rw [hrow, hs, hh, hd]
  exact ⟨hstride, hsize⟩

theorem isPacked_filled {width : UInt32} (h : width.toNat < 2 ^ 30) (height : UInt32) (format : PixelFormat)
    (byte : UInt8) : (filled width height format byte).IsPacked := by
  have hrow := toNat_rowSize h format
  have hsmall : (UInt32.ofNat format.size).toNat = format.size := by cases format <;> rfl
  refine ⟨?_, Bytes.size_tabulate _ _⟩
  show (width * UInt32.ofNat format.size).toNat = width.toNat * format.size
  rw [UInt32.toNat_mul, hsmall]
  rw [UInt32.toNat_ofNat'] at hrow
  exact hrow

/-- A byte belongs to one pixel only. -/
theorem pixelStart_inj (h : f.WellFormed) (hx : x < f.width.toNat) (hu : u < f.width.toNat) {i j : Nat}
    (hi : i < f.format.size) (hj : j < f.format.size) (heq : f.pixelStart x y + i = f.pixelStart u v + j) :
    x = u ∧ y = v := by
  obtain ⟨hrow, hplace, hcolumn, -⟩ := place_of_byte (y := y) h hx hi
  obtain ⟨hrow', hplace', hcolumn', -⟩ := place_of_byte (y := v) h hu hj
  rw [heq] at hrow hplace
  refine ⟨?_, hrow.symm.trans hrow'⟩
  rw [← hcolumn, ← hcolumn', ← hplace, ← hplace']

/-- A written pixel is there, and all other pixels stay. -/
theorem setPixel_ok (hf : f.WellFormed) (hx : x < f.width.toNat) (hy : y < f.height.toNat) {bytes : ByteArray}
    (hb : bytes.size = f.format.size) :
    ∃ after, f.setPixel x y bytes = .ok after ∧ after.SameLayout f ∧ after.pixel x y = .ok bytes ∧
      ∀ u v, u < f.width.toNat → v < f.height.toNat → ¬(u = x ∧ v = y) → after.pixel u v = f.pixel u v := by
  have hend := pixelStart_add_le hf hx hy
  rw [← hb] at hend
  obtain ⟨data, hdata, hsize, hin, hout⟩ := Bytes.overwrite_ok hend
  have hset : f.setPixel x y bytes = .ok { f with data := data } := by
    unfold setPixel
    rw [if_pos hb, hdata]
    rfl
  generalize hafter : ({ f with data := data } : Frame) = after at hset
  have hlayout : after.SameLayout f := by
    rw [← hafter]
    exact ⟨rfl, rfl, rfl, rfl, hsize⟩
  have hbytes : after.data = data := by rw [← hafter]
  have hwf := hlayout.wellFormed hf
  have hstart := hlayout.pixelStart_eq
  have hformat := hlayout.2.2.2.1
  refine ⟨after, hset, hlayout, ?_, fun u v hu hv hne => ?_⟩
  · rw [pixel_ok hwf (hlayout.1 ▸ hx) (hlayout.2.1 ▸ hy), hbytes, hstart, hformat, Except.ok.injEq]
    have hpatch : (data.extract (f.pixelStart x y) (f.pixelStart x y + f.format.size)).size = bytes.size := by
      rw [ByteArray.size_extract]
      omega
    refine Bytes.ext_getOrZero hpatch fun i hi => ?_
    rw [Bytes.getOrZero_extract (by omega) (by omega)]
    exact hin i (by omega)
  · refine pixel_ext hwf hf hformat (hlayout.1 ▸ hu) (hlayout.2.1 ▸ hv) hu hv fun k hk => ?_
    rw [hformat] at hk
    have hend' := pixelStart_add_le hf hu hv
    rw [pixelByte_ok hwf (hlayout.1 ▸ hu) (hlayout.2.1 ▸ hv) (hformat ▸ hk), pixelByte_ok hf hu hv hk, hbytes, hstart,
      Except.ok.injEq]
    refine hout _ (by omega) ?_
    -- Inside the patch the byte would belong to both pixels.
    by_cases hlt : f.pixelStart u v + k < f.pixelStart x y
    · exact .inl hlt
    · refine .inr (Nat.le_of_not_lt fun hin => hne ?_)
      exact pixelStart_inj hf hu hx hk (j := f.pixelStart u v + k - f.pixelStart x y) (by omega) (by omega)

/-- The columns and rows of all pixels, row after row. -/
def places (f : Frame) : List (Nat × Nat) :=
  (List.range f.height.toNat).flatMap fun y => (List.range f.width.toNat).map fun x => (x, y)

theorem mem_places {p : Nat × Nat} : p ∈ f.places ↔ p.1 < f.width.toNat ∧ p.2 < f.height.toNat := by
  obtain ⟨x, y⟩ := p
  simp only [places, List.mem_flatMap, List.mem_map, List.mem_range, Prod.mk.injEq]
  constructor
  · rintro ⟨y, hy, x, hx, rfl, rfl⟩
    exact ⟨hx, hy⟩
  · rintro ⟨hx, hy⟩
    exact ⟨y, hy, x, hx, rfl, rfl⟩

/-- The listed pixels of `f` written to where a turn moves them. -/
def copyPixels (f : Frame) (r : Rotation) : List (Nat × Nat) → Frame → Except StreamError Frame
  | [], out => .ok out
  | p :: rest, out =>
    match f.pixel p.1 p.2 with
    | .error e => .error e
    | .ok bytes =>
      let place := r.target f.width.toNat f.height.toNat p.1 p.2
      match out.setPixel place.1 place.2 bytes with
      | .error e => .error e
      | .ok after => copyPixels f r rest after

def IsPlaced (f : Frame) (r : Rotation) (out : Frame) (p : Nat × Nat) : Prop :=
  out.pixel (r.target f.width.toNat f.height.toNat p.1 p.2).1 (r.target f.width.toNat f.height.toNat p.1 p.2).2 =
    f.pixel p.1 p.2

/-- One pixel written: it is placed, and so are those that were before. -/
theorem isPlaced_setPixel (hf : f.WellFormed) (ho : out.WellFormed) (hg : f.IsTurned r g)
    (hsize : out.width = g.width ∧ out.height = g.height ∧ out.format = f.format) {p : Nat × Nat}
    (hp : p.1 < f.width.toNat ∧ p.2 < f.height.toNat) :
    ∃ bytes after, f.pixel p.1 p.2 = .ok bytes ∧
      out.setPixel (r.target f.width.toNat f.height.toNat p.1 p.2).1
        (r.target f.width.toNat f.height.toNat p.1 p.2).2 bytes = .ok after ∧
      after.SameLayout out ∧ f.IsPlaced r after p ∧
      ∀ q : Nat × Nat, q.1 < f.width.toNat ∧ q.2 < f.height.toNat → f.IsPlaced r out q → f.IsPlaced r after q := by
  obtain ⟨hwidth, hheight, hformat⟩ := hsize
  have hin {q : Nat × Nat} (hq : q.1 < f.width.toNat ∧ q.2 < f.height.toNat) := (hg.isMoved.moved q.1 q.2 hq.1 hq.2).1
  rw [← hwidth, ← hheight] at hin
  have hpixel := pixel_ok hf hp.1 hp.2
  have hend := pixelStart_add_le hf hp.1 hp.2
  have hbytes : (f.data.extract (f.pixelStart p.1 p.2) (f.pixelStart p.1 p.2 + f.format.size)).size =
      out.format.size := by
    rw [ByteArray.size_extract, hformat]
    omega
  obtain ⟨after, hset, hlayout, hthere, hstay⟩ := setPixel_ok ho (hin hp).1 (hin hp).2 hbytes
  have hplaced : f.IsPlaced r after p := by
    unfold IsPlaced
    rw [hthere, hpixel]
  refine ⟨_, after, hpixel, hset, hlayout, hplaced, fun q hq hbefore => ?_⟩
  by_cases heq : q = p
  · rw [heq]
    exact hplaced
  · -- Two pixels have two places.
    unfold IsPlaced
    rw [hstay _ _ (hin hq).1 (hin hq).2 fun hsame => heq ?_]
    · exact hbefore
    · have horigin := r.origin_target hq.1 hq.2
      rw [hsame.1, hsame.2, r.origin_target hp.1 hp.2] at horigin
      exact horigin.symm

/-- The loop over a list of pixels: those of the list are placed in the end, and those that were before. -/
theorem isPlaced_copyPixels (hf : f.WellFormed) (hg : f.IsTurned r g) (l : List (Nat × Nat))
    (hl : ∀ p ∈ l, p.1 < f.width.toNat ∧ p.2 < f.height.toNat) (ho : out.WellFormed)
    (hsize : out.width = g.width ∧ out.height = g.height ∧ out.format = f.format) :
    ∃ after, f.copyPixels r l out = .ok after ∧ after.SameLayout out ∧
      ∀ p : Nat × Nat, p.1 < f.width.toNat ∧ p.2 < f.height.toNat → p ∈ l ∨ f.IsPlaced r out p →
        f.IsPlaced r after p := by
  -- On the pixels still to be written; the frame changes with each of them, its layout does not.
  induction l generalizing out with
  | nil =>
    refine ⟨out, rfl, ⟨rfl, rfl, rfl, rfl, rfl⟩, fun p _ hp => ?_⟩
    rcases hp with hp | hp
    · cases hp
    · exact hp
  | cons q l ih =>
    have hq := hl q List.mem_cons_self
    obtain ⟨bytes, mid, hpixel, hset, hlayout, hplaced, hstay⟩ := isPlaced_setPixel hf ho hg hsize hq
    obtain ⟨after, hcopy, hlayout', hafter⟩ := ih (fun p hp => hl p (List.mem_cons_of_mem q hp))
      (hlayout.wellFormed ho)
      ⟨hlayout.1.trans hsize.1, hlayout.2.1.trans hsize.2.1, hlayout.2.2.2.1.trans hsize.2.2⟩
    refine ⟨after, ?_, ?_, fun p hp hcase => hafter p hp ?_⟩
    · rw [copyPixels, hpixel]
      dsimp only
      rw [hset]
      exact hcopy
    · obtain ⟨h1, h2, h3, h4, h5⟩ := hlayout
      obtain ⟨h1', h2', h3', h4', h5'⟩ := hlayout'
      exact ⟨h1'.trans h1, h2'.trans h2, h3'.trans h3, h4'.trans h4, h5'.trans h5⟩
    · rcases hcase with hmem | hbefore
      · rcases List.mem_cons.mp hmem with rfl | hmem
        · exact .inr hplaced
        · exact .inl hmem
      · exact .inr (hstay p hp hbefore)

/-- Written one by one into a blank frame of the turned size, the pixels give the turned frame. -/
theorem copyPixels_eq_rotate (hf : f.WellFormed) (hw : f.width.toNat < 2 ^ 30) (hh : f.height.toNat < 2 ^ 30)
    (hr : r ≠ .identity) (h : f.rotate r = .ok g) :
    f.copyPixels r f.places (filled g.width g.height f.format 0) = .ok g := by
  have hg := isTurned_rotate hf hw hh h
  obtain ⟨hpacked, hformat, -⟩ := rotate_written hw hh hr h
  have hlt : g.width.toNat < 2 ^ 30 := by
    rw [hg.toNat_width]
    split <;> assumption
  have hblank := isPacked_filled hlt g.height f.format 0
  obtain ⟨after, hcopy, hlayout, hplaced⟩ :=
    isPlaced_copyPixels hf hg f.places (fun p hp => mem_places.mp hp) hblank.wellFormed ⟨rfl, rfl, rfl⟩
  have hsame : after.SamePixels g := by
    refine ⟨⟨hlayout.1, hlayout.2.1, hlayout.2.2.2.1.trans hformat.symm⟩, fun u v hu hv => ?_⟩
    have hu' : u < g.width.toNat := hlayout.1 ▸ hu
    have hv' : v < g.height.toNat := hlayout.2.1 ▸ hv
    obtain ⟨x, y, hxy, htarget, -⟩ := hg.isMoved.unique u v hu' hv'
    have hthere := hplaced (x, y) hxy (.inl (mem_places.mpr hxy))
    have hmoved := (hg.isMoved.moved x y hxy.1 hxy.2).2
    unfold IsPlaced at hthere
    rw [htarget] at hthere hmoved
    exact hthere.trans hmoved.symm
  rw [hcopy, hsame.eq (hlayout.isPacked hblank) hpacked]

end Copy
end Frame

variable {f : Frame}

/-- Two turns of a well-formed frame make the turn by the sum of their angles. -/
theorem rotate_rotate (hf : f.WellFormed) (hw : f.width.toNat < 2 ^ 30) (hh : f.height.toNat < 2 ^ 30)
    (a b : Rotation) :
    (a + b).degrees = (a.degrees + b.degrees) % 360 ∧
      ∃ first second once, f.rotate a = .ok first ∧ first.rotate b = .ok second ∧ f.rotate (a + b) = .ok once ∧
        second.SamePixels once ∧ (a + b ≠ .identity → second = once) ∧ (a + b = .identity → second.SamePixels f) ∧
        f.IsMoved a first ∧ first.WellFormed ∧ second.WellFormed ∧
        (a ≠ .identity → first.IsPacked ∧
          f.copyPixels a f.places (.filled first.width first.height f.format 0) = .ok first) := by
  obtain ⟨first, hfirst⟩ := Frame.rotate_total hf a
  have ha := Frame.isTurned_rotate hf hw hh hfirst
  have hwfirst : first.width.toNat < 2 ^ 30 := by
    rw [ha.toNat_width]
    split <;> assumption
  have hhfirst : first.height.toNat < 2 ^ 30 := by
    rw [ha.toNat_height]
    split <;> assumption
  obtain ⟨second, hsecond⟩ := Frame.rotate_total ha.wellFormed b
  have hb := Frame.isTurned_rotate ha.wellFormed hwfirst hhfirst hsecond
  obtain ⟨once, honce⟩ := Frame.rotate_total hf (a + b)
  have hsum := Frame.isTurned_rotate hf hw hh honce
  have hsame : second.SamePixels once := (ha.trans hb).samePixels hsum
  refine ⟨Rotation.degrees_add a b, first, second, once, hfirst, hsecond, honce, hsame, fun hne => ?_, fun heq => ?_,
    ha.isMoved, ha.wellFormed, hb.wellFormed, fun hne =>
      ⟨(Frame.rotate_written hw hh hne hfirst).1, Frame.copyPixels_eq_rotate hf hw hh hne hfirst⟩⟩
  · by_cases hid : b = .identity
    · subst hid
      rw [Rotation.add_identity] at honce
      obtain rfl : first = second := Except.ok.inj hsecond
      exact Except.ok.inj (hfirst.symm.trans honce)
    · exact hsame.eq (Frame.rotate_written hwfirst hhfirst hid hsecond).1 (Frame.rotate_written hw hh hne honce).1
  · rw [heq] at honce
    obtain rfl : f = once := Except.ok.inj honce
    exact hsame

/-- A padded frame turned by a quarter and back. -/
theorem rotate_rotate_opposite :
    let f : Frame := ⟨2, 1, 9, .bgra, ⟨#[1, 2, 3, 4, 5, 6, 7, 8, 0, 9]⟩⟩
    f.WellFormed ∧ f.width.toNat < 2 ^ 30 ∧ f.height.toNat < 2 ^ 30 ∧
      Rotation.quarter + Rotation.threeQuarters = .identity ∧
      ∃ first second, f.rotate .quarter = .ok first ∧ first.rotate .threeQuarters = .ok second ∧
        second.SamePixels f ∧ first.IsPacked := by
  intro f
  have hf : f.WellFormed := by decide
  have hw : f.width.toNat < 2 ^ 30 := by decide
  have hh : f.height.toNat < 2 ^ 30 := by decide
  obtain ⟨-, first, second, -, hfirst, hsecond, -, -, -, hback, -, -, -, hpacked⟩ :=
    rotate_rotate hf hw hh .quarter .threeQuarters
  exact ⟨hf, hw, hh, rfl, first, second, hfirst, hsecond, hback rfl, (hpacked (by decide)).1⟩

end Screencast
