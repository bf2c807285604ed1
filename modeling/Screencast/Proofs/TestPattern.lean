import Screencast.Capture.Pattern
import Screencast.Proofs.RowByRow

/-!
# The test pattern has no memory

The gradient is kept from one capture to the next, and the block is drawn over a copy of it. So the kept one is
always the gradient of its size, and what a capture shows is told by its number and the size of the display alone.
Gradient and block are written row by row, pixels as slices with a range check and colours in words: no check
fails, and up to `2 ^ 24` pixels a side no word overflows.
-/

namespace Screencast

theorem Bytes.extract_tabulate {n start len : Nat} (g : Nat → UInt8) (h : start + len ≤ n) :
    (tabulate n g).extract start (start + len) = tabulate len fun k => g (start + k) := by
  have hn := size_tabulate n g
  refine ext_getOrZero (by rw [ByteArray.size_extract, size_tabulate, size_tabulate]; omega) fun k hk => ?_
  rw [ByteArray.size_extract] at hk
  rw [getOrZero_extract (by omega) (by omega), getOrZero_tabulate _ (by omega), getOrZero_tabulate _ (by omega)]

theorem place_in_pixel {u k : Nat} (hk : k < 4) : (u * 4 + k) / 4 = u ∧ (u * 4 + k) % 4 = k := by omega

/-- Column, row and byte of place `i` of row `y`, where rows of `w` pixels of four bytes follow each other. -/
theorem place_in_row {w y i : Nat} (hi : i < w * 4) :
    (y * (w * 4) + i) / 4 % w = i / 4 ∧ (y * (w * 4) + i) / 4 / w = y ∧ (y * (w * 4) + i) % 4 = i % 4 := by
  have hlt : i / 4 < w := Nat.div_lt_of_lt_mul (by rwa [Nat.mul_comm])
  have hdiv : (y * (w * 4) + i) / 4 = w * y + i / 4 := by
    rw [← Nat.mul_assoc, Nat.mul_comm y]
    omega
  rw [hdiv, Nat.mul_add_mod, Nat.mod_eq_of_lt hlt, Nat.mul_add_div (Nat.zero_lt_of_lt hlt), Nat.div_eq_of_lt hlt]
  refine ⟨rfl, rfl, ?_⟩
  rw [← Nat.mul_assoc]
  omega

/-! ### The block -/

namespace PatternBlock

variable {n w h : Nat}

/-- The block stands in a frame of `w` by `h` pixels. -/
def Fits (b : PatternBlock) (w h : Nat) : Prop := b.left + b.width ≤ w ∧ b.top + b.height ≤ h

theorem fits_nth (n w h : Nat) : (nth n w h).Fits w h := by
  have hw := Nat.min_le_right side w
  have hh := Nat.min_le_right side h
  have hx : n * step % (w - min side w + 1) < w - min side w + 1 := Nat.mod_lt _ (Nat.succ_pos _)
  have hy : n * step / (w - min side w + 1) % (h - min side h + 1) < h - min side h + 1 :=
    Nat.mod_lt _ (Nat.succ_pos _)
  unfold Fits nth
  dsimp only
  omega

theorem covers_iff {b : PatternBlock} {x y : Nat} :
    b.covers x y = true ↔ (b.left ≤ x ∧ x < b.left + b.width) ∧ b.top ≤ y ∧ y < b.top + b.height := by
  simp only [covers, Bool.and_eq_true, decide_eq_true_eq, and_assoc]

end PatternBlock

/-! ### Row by row -/

namespace Frame

/-- A pixel of the gradient with its colours written one after the other; its place is counted in words. -/
def paintPixel (width height x y : UInt32) (pixel : ByteArray) : Except StreamError ByteArray := do
  let across ← Bytes.put pixel 0 (x * 255 / width).toUInt8
  let down ← Bytes.put across 1 (y * 255 / height).toUInt8
  Bytes.put down 2 0x30

def paintRow (width height : UInt32) (y : Nat) (row : ByteArray) : Except StreamError ByteArray :=
  Bytes.editEach 4 4 (fun x => paintPixel width height (UInt32.ofNat x) (UInt32.ofNat y)) (row.size / 4) 0 row

def gradientByRows (width height : UInt32) : Except StreamError Frame :=
  (filled width height .bgra 0xFF).editRows (paintRow width height) height.toNat 0

/-- The part of a row below the block, cut out of it and written white. -/
def whitenRow (b : PatternBlock) (row : ByteArray) : Except StreamError ByteArray :=
  let whiten (part : ByteArray) : Except StreamError ByteArray :=
    Bytes.editEach 4 4 (fun _ _ => .ok ⟨#[0xF0, 0xF0, 0xF0, 0xFF]⟩) (part.size / 4) 0 part
  Bytes.editAt (b.left * 4) (b.width * 4) whiten row

def drawBlockByRows (f : Frame) (b : PatternBlock) : Except StreamError Frame :=
  f.editRows (fun _ => whitenRow b) b.height b.top

variable {f : Frame} {b : PatternBlock} {width height x y : UInt32}

theorem paintPixel_eq {pixel : ByteArray} (hp : pixel.size = 4) (halpha : Bytes.getOrZero pixel 3 = 0xFF)
    (hx : x.toNat * 255 < 2 ^ 32) (hy : y.toNat * 255 < 2 ^ 32) :
    paintPixel width height x y pixel =
      .ok (Bytes.tabulate 4 (gradientByte width.toNat height.toNat x.toNat y.toNat)) := by
  have hword {u v : UInt32} (hu : u.toNat * 255 < 2 ^ 32) :
      (u * 255 / v).toUInt8 = UInt8.ofNat (u.toNat * 255 / v.toNat) := by
    have hmul : (u * 255).toNat = u.toNat * 255 := by
      rw [UInt32.toNat_mul]
      exact Nat.mod_eq_of_lt hu
    refine UInt8.toNat_inj.mp ?_
    rw [UInt32.toNat_toUInt8, UInt32.toNat_div, hmul, UInt8.toNat_ofNat']
  obtain ⟨⟨l⟩⟩ := pixel
  match l, hp with
  | [_, _, _, alpha], _ =>
    obtain rfl : alpha = 0xFF := halpha
    have hpaint : Bytes.tabulate 4 (gradientByte width.toNat height.toNat x.toNat y.toNat) =
        ⟨#[UInt8.ofNat (x.toNat * 255 / width.toNat), UInt8.ofNat (y.toNat * 255 / height.toNat), 0x30, 0xFF]⟩ := rfl
    rw [hpaint, ← hword hx, ← hword hy]
    rfl

theorem paintRow_eq {row : ByteArray} {v : Nat} (hw : width.toNat ≤ 2 ^ 24) (hv : v < 2 ^ 24)
    (hsize : row.size = width.toNat * 4) (halpha : ∀ i, i < row.size → Bytes.getOrZero row i = 0xFF) :
    paintRow width height v row =
      .ok (Bytes.tabulate row.size fun i => gradientByte width.toNat height.toNat (i / 4) v (i % 4)) := by
  have hword {u : Nat} (hu : u < 2 ^ 24) : (UInt32.ofNat u).toNat = u :=
    UInt32.toNat_ofNat_of_lt' (by rw [UInt32.size]; omega)
  unfold paintRow
  refine Bytes.editEach_all (by decide) (by omega) fun u hu => ?_
  have hx := hword (u := u) (by omega)
  have hy := hword hv
  have hlast : Bytes.getOrZero (row.extract (u * 4) (u * 4 + 4)) 3 = 0xFF := by
    rw [Bytes.getOrZero_extract (by omega) (by omega)]
    exact halpha _ (by omega)
  rw [paintPixel_eq (by rw [ByteArray.size_extract]; omega) hlast (by omega) (by omega), hx, hy]
  refine congrArg Except.ok (Bytes.tabulate_congr fun k hk => ?_)
  obtain ⟨hcolumn, hbyte⟩ := place_in_pixel (u := u) hk
  rw [hcolumn, hbyte]

/-- A byte of a packed frame belongs to a row. -/
theorem IsPacked.exists_row (h : f.IsPacked) {n : Nat} (hn : n < f.data.size) :
    ∃ v k, v < f.height.toNat ∧ k < f.rowSize ∧ v * f.stride.toNat + k = n := by
  obtain ⟨u, v, k, hu, hv, hk, rfl⟩ := h.exists_place hn
  have hend := pixel_end_le hu
  exact ⟨v, u * f.format.size + k, hv, by omega, (Nat.add_assoc _ _ _).symm⟩

theorem stride_filled (hw : width.toNat ≤ 2 ^ 24) (height : UInt32) :
    (filled width height .bgra 0xFF).stride.toNat = width.toNat * 4 :=
  (isPacked_filled (by omega) height .bgra 0xFF).1

theorem getOrZero_filled {format : PixelFormat} {byte : UInt8} {i : Nat}
    (h : i < (filled width height format byte).data.size) :
    Bytes.getOrZero (filled width height format byte).data i = byte :=
  Bytes.getOrZero_tabulate _ (Nat.lt_of_lt_of_eq h (Bytes.size_tabulate _ _))

theorem gradientByRows_eq (hw : width.toNat ≤ 2 ^ 24) (hh : height.toNat ≤ 2 ^ 24) :
    gradientByRows width height = .ok (gradient width height) := by
  have hpacked := isPacked_filled (show width.toNat < 2 ^ 30 by omega) height .bgra 0xFF
  have hstride := stride_filled hw height
  have hsize : (filled width height .bgra 0xFF).data.size = width.toNat * 4 * height.toNat := by
    rw [hpacked.2, hstride]
    rfl
  have hrow : (filled width height .bgra 0xFF).rowSize = width.toNat * 4 := rfl
  unfold gradientByRows
  rw [editRows_eq (fun i => gradientByte width.toNat height.toNat (i / 4 % width.toNat) (i / 4 / width.toNat) (i % 4))
    hpacked.wellFormed (Nat.le_of_eq (Nat.zero_add height.toNat)) (fun v _ hv => ?_) fun n hn hout => ?_]
  · rw [hsize]
    rfl
  · have hv' : v < height.toNat := by omega
    have hbytes := size_rowBytes hpacked.wellFormed hv'
    show paintRow width height v ((filled width height .bgra 0xFF).rowBytes v) = _
    rw [paintRow_eq hw (by omega) (hbytes.trans hrow) fun i hi => ?_, hbytes, hrow, hstride]
    · refine congrArg Except.ok (Bytes.tabulate_congr fun i hi => ?_)
      obtain ⟨hcolumn, hline, hbyte⟩ := place_in_row (y := v) hi
      rw [hcolumn, hline, hbyte]
    · rw [hbytes] at hi
      have hend := row_end_le hpacked.wellFormed hv'
      rw [getOrZero_rowBytes hpacked.wellFormed hv' hi, getOrZero_filled (by omega)]
  · obtain ⟨v, k, hv, hk, heq⟩ := hpacked.exists_row hn
    exact absurd heq (hout v k (Nat.zero_le v) (by rw [Nat.zero_add]; exact hv) hk)

theorem whitenRow_eq {row : ByteArray} {w v : Nat} (hsize : row.size = w * 4) (hb : b.left + b.width ≤ w)
    (hv : b.top ≤ v ∧ v < b.top + b.height) :
    whitenRow b row = .ok (Bytes.tabulate row.size fun i =>
      if b.covers (i / 4) v then blockByte (i % 4) else Bytes.getOrZero row i) := by
  unfold whitenRow
  dsimp only
  refine Bytes.editAt_eq (fun i => if b.covers (i / 4) v then blockByte (i % 4) else Bytes.getOrZero row i)
    (by omega) ?_ fun i hi hout => if_neg ?_
  · have hpart : (row.extract (b.left * 4) (b.left * 4 + b.width * 4)).size = b.width * 4 := by
      rw [ByteArray.size_extract]
      omega
    generalize row.extract (b.left * 4) (b.left * 4 + b.width * 4) = part at hpart
    rw [← hpart]
    refine Bytes.editEach_all (by decide) (by omega) fun u hu => ?_
    have hwhite : (⟨#[0xF0, 0xF0, 0xF0, 0xFF]⟩ : ByteArray) = Bytes.tabulate 4 blockByte := rfl
    rw [hwhite]
    refine congrArg Except.ok (Bytes.tabulate_congr fun k hk => ?_)
    obtain ⟨hcolumn, hbyte⟩ := place_in_pixel (u := b.left + u) hk
    rw [← Nat.add_assoc, ← Nat.add_mul, hcolumn, hbyte, if_pos (PatternBlock.covers_iff.mpr ⟨by omega, hv⟩)]
  · rw [PatternBlock.covers_iff]
    omega

theorem drawBlockByRows_eq (hf : f.IsPacked) (hformat : f.format = .bgra) (hb : b.Fits f.width.toNat f.height.toNat) :
    f.drawBlockByRows b = .ok (f.drawBlock b) := by
  have hrow : f.rowSize = f.width.toNat * 4 := by
    unfold rowSize
    rw [hformat]
    rfl
  have hstride : f.stride.toNat = f.width.toNat * 4 := hf.1.trans hrow
  have hplace {v k : Nat} (hk : k < f.rowSize) := place_in_row (y := v) (hrow ▸ hk)
  unfold drawBlockByRows
  rw [editRows_eq (fun i => if b.covers (i / 4 % f.width.toNat) (i / 4 / f.width.toNat) then blockByte (i % 4)
      else Bytes.getOrZero f.data i) hf.wellFormed hb.2 (fun v hv hv' => ?_) fun n hn hout => if_neg ?_]
  · rfl
  · have hin : v < f.height.toNat := by
      have hfits := hb.2
      omega
    have hbytes := size_rowBytes hf.wellFormed hin
    show whitenRow b (f.rowBytes v) = _
    rw [whitenRow_eq (hbytes.trans hrow) hb.1 ⟨hv, hv'⟩, hbytes]
    refine congrArg Except.ok (Bytes.tabulate_congr fun k hk => ?_)
    obtain ⟨hcolumn, hline, hbyte⟩ := hplace (v := v) hk
    rw [getOrZero_rowBytes hf.wellFormed hin hk, hstride, hcolumn, hline, hbyte]
  · obtain ⟨v, k, hv, hk, rfl⟩ := hf.exists_row hn
    rw [hstride, (hplace hk).2.1, PatternBlock.covers_iff]
    exact fun hcovers => hout v k hcovers.2.1 hcovers.2.2 hk rfl

/-! ### What a capture shows -/

section Pixels

variable {u v : Nat}

/-- White inside the block, which stands in the frame, and elsewhere the gradient of the size. -/
structure ShowsPattern (f : Frame) (width height : UInt32) (b : PatternBlock) : Prop where
  width_eq : f.width = width
  height_eq : f.height = height
  format_eq : f.format = .bgra
  isPacked : f.IsPacked
  fits : b.Fits width.toNat height.toNat
  inside : ∀ u v, b.covers u v = true → f.pixel u v = .ok ⟨#[0xF0, 0xF0, 0xF0, 0xFF]⟩
  outside : ∀ u v, u < width.toNat → v < height.toNat → b.covers u v = false →
    ∃ across down : UInt8, across.toNat = u * 255 / width.toNat ∧ down.toNat = v * 255 / height.toNat ∧
      f.pixel u v = .ok ⟨#[across, down, 0x30, 0xFF]⟩

theorem isPacked_gradient (hw : width.toNat ≤ 2 ^ 24) (height : UInt32) : (gradient width height).IsPacked := by
  have hstride : (width * 4).toNat = width.toNat * 4 := stride_filled hw height
  refine ⟨hstride, ?_⟩
  show (Bytes.tabulate _ _).size = (width * 4).toNat * height.toNat
  rw [Bytes.size_tabulate, hstride]

/-- The pixel of a packed frame whose bytes are told by column, row and place in the pixel. -/
theorem pixel_of_tabulate {n : Nat} (byte : Nat → Nat → Nat → UInt8) (hf : f.IsPacked) (hformat : f.format = .bgra)
    (hdata : f.data = Bytes.tabulate n fun i => byte (i / 4 % f.width.toNat) (i / 4 / f.width.toNat) (i % 4))
    (hu : u < f.width.toNat) (hv : v < f.height.toNat) : f.pixel u v = .ok (Bytes.tabulate 4 (byte u v)) := by
  have hsize : f.format.size = 4 := by rw [hformat]; rfl
  have hstride : f.stride.toNat = f.width.toNat * 4 := by rw [hf.1, rowSize, hsize]
  have hend := pixelStart_add_le hf.wellFormed hu hv
  have hn : f.data.size = n := by rw [hdata, Bytes.size_tabulate]
  rw [pixel_ok hf.wellFormed hu hv, hsize]
  rw [hn, hsize] at hend
  rw [hdata, Bytes.extract_tabulate _ hend]
  refine congrArg Except.ok (Bytes.tabulate_congr fun k hk => ?_)
  have hstart : f.pixelStart u v + k = v * (f.width.toNat * 4) + (u * 4 + k) := by
    rw [pixelStart, hstride, hsize, Nat.add_assoc]
  obtain ⟨hcolumn, hline, hbyte⟩ := place_in_row (y := v) (show u * 4 + k < f.width.toNat * 4 by omega)
  obtain ⟨hpixel, hcolour⟩ := place_in_pixel (u := u) hk
  rw [hstart, hcolumn, hline, hbyte, hpixel, hcolour]

theorem pixel_drawBlock (hw : width.toNat ≤ 2 ^ 24) (hu : u < width.toNat) (hv : v < height.toNat) :
    ((gradient width height).drawBlock b).pixel u v = .ok (Bytes.tabulate 4 fun k =>
      if b.covers u v then blockByte k else gradientByte width.toNat height.toNat u v k) := by
  have hpacked := isPacked_gradient hw height
  have hlayout : ((gradient width height).drawBlock b).SameLayout (gradient width height) :=
    sameLayout_of_size (Bytes.size_tabulate _ _)
  refine pixel_of_tabulate (n := (gradient width height).data.size)
    (fun u v k => if b.covers u v then blockByte k else gradientByte width.toNat height.toNat u v k)
    (hlayout.isPacked hpacked) rfl ?_ hu hv
  refine Bytes.tabulate_congr fun i hi => ?_
  have hsame : Bytes.getOrZero (gradient width height).data i = gradientByte width.toNat height.toNat
      (i / 4 % width.toNat) (i / 4 / width.toNat) (i % 4) :=
    Bytes.getOrZero_tabulate _ (Nat.lt_of_lt_of_eq hi (Bytes.size_tabulate _ _))
  rw [hsame]
  rfl

theorem showsPattern_drawBlock (hw : width.toNat ≤ 2 ^ 24) (hb : b.Fits width.toNat height.toNat) :
    ((gradient width height).drawBlock b).ShowsPattern width height b where
  width_eq := rfl
  height_eq := rfl
  format_eq := rfl
  isPacked :=
    (sameLayout_of_size (f := gradient width height) (Bytes.size_tabulate _ _)).isPacked (isPacked_gradient hw height)
  fits := hb
  inside u v hc := by
    obtain ⟨⟨-, hu⟩, -, hv⟩ := PatternBlock.covers_iff.mp hc
    rw [pixel_drawBlock hw (Nat.lt_of_lt_of_le hu hb.1) (Nat.lt_of_lt_of_le hv hb.2)]
    simp only [hc, if_true]
    rfl
  outside u v hu hv hc := by
    have hcolour {i n : Nat} (hi : i < n) : (UInt8.ofNat (i * 255 / n)).toNat = i * 255 / n := by
      have hlt : i * 255 / n < 255 := Nat.div_lt_of_lt_mul (Nat.mul_lt_mul_of_pos_right hi (by decide))
      rw [UInt8.toNat_ofNat', Nat.mod_eq_of_lt (by omega)]
    refine ⟨UInt8.ofNat (u * 255 / width.toNat), UInt8.ofNat (v * 255 / height.toNat), hcolour hu, hcolour hv, ?_⟩
    rw [pixel_drawBlock hw hu hv]
    simp only [hc, if_false, Bool.false_eq_true]
    rfl

end Pixels

end Frame

/-! ### A run of captures -/

/-- The display has no area, or its sides are at most `2 ^ 24`, so that a word holds what a colour is computed from. -/
def Display.IsPaintable (d : Display) : Prop :=
  ¬(d.area.width = 0 ∨ d.area.height = 0) → d.area.width.toNat ≤ 2 ^ 24 ∧ d.area.height.toNat ≤ 2 ^ 24

instance (d : Display) : Decidable d.IsPaintable := inferInstanceAs (Decidable (_ → _))

namespace Pattern

def backgroundByRows (p : Pattern) (width height : UInt32) : Except StreamError Frame :=
  match p.background with
  | some f => if f.width = width ∧ f.height = height then .ok f else Frame.gradientByRows width height
  | none => Frame.gradientByRows width height

/-- A capture whose gradient and block are written row by row. -/
def captureByRows (p : Pattern) (d : Display) : Except StreamError (CaptureResult × Pattern) :=
  let width := d.area.width
  let height := d.area.height
  if width = 0 ∨ height = 0 then .ok (.failed s!"display {d.name} has no area" false, p)
  else do
    let background ← p.backgroundByRows width height
    let frame ← background.drawBlockByRows (PatternBlock.nth p.captures width.toNat height.toNat)
    return (.captured (.plain frame), ⟨p.captures + 1, some background⟩)

/-- The results of captures of one display after the other, and the pattern after them. -/
def shoot (p : Pattern) : List Display → List CaptureResult × Pattern
  | [] => ([], p)
  | d :: rest =>
    let shot := p.capture d
    let later := shoot shot.2 rest
    (shot.1 :: later.1, later.2)

def shootByRows (p : Pattern) : List Display → Except StreamError (List CaptureResult × Pattern)
  | [] => .ok ([], p)
  | d :: rest => do
    let shot ← p.captureByRows d
    let later ← shootByRows shot.2 rest
    return (shot.1 :: later.1, later.2)

/-- So many captures have succeeded, and the gradient that is kept, if any, has no block in it. -/
structure IsClean (p : Pattern) (n : Nat) : Prop where
  captures : p.captures = n
  background : ∀ f, p.background = some f → f = gradient f.width f.height

variable {p : Pattern} {n : Nat} {d : Display}

theorem isClean_start : start.IsClean 0 := ⟨rfl, fun _ h => by cases h⟩

theorem backgroundFor_eq (h : p.IsClean n) (width height : UInt32) :
    p.backgroundFor width height = gradient width height := by
  unfold backgroundFor
  split
  · rename_i f hf
    split
    · rename_i hsize
      rw [h.background f hf, hsize.1, hsize.2]
    · rfl
  · rfl

theorem capture_failed (hd : d.area.width = 0 ∨ d.area.height = 0) :
    p.capture d = (.failed s!"display {d.name} has no area" false, p) := if_pos hd

theorem capture_eq (h : p.IsClean n) (hd : ¬(d.area.width = 0 ∨ d.area.height = 0)) :
    p.capture d = (.captured (.plain ((gradient d.area.width d.area.height).drawBlock
      (PatternBlock.nth n d.area.width.toNat d.area.height.toNat))),
      ⟨n + 1, some (gradient d.area.width d.area.height)⟩) := by
  unfold capture
  dsimp only
  rw [if_neg hd, backgroundFor_eq h, h.captures]

theorem isClean_capture (h : p.IsClean n) (d : Display) :
    (p.capture d).2.IsClean (n + if (p.capture d).1.isSuccess then 1 else 0) := by
  by_cases hd : d.area.width = 0 ∨ d.area.height = 0
  · rw [capture_failed hd]
    exact h
  · rw [capture_eq h hd]
    exact ⟨rfl, fun f hf => by cases hf; rfl⟩

theorem isClean_shoot (h : p.IsClean n) (l : List Display) :
    (p.shoot l).2.IsClean (n + (p.shoot l).1.countP CaptureResult.isSuccess) := by
  induction l generalizing p n with
  | nil => exact h
  | cons d rest ih =>
    have hrest := ih (isClean_capture h d)
    rw [Nat.add_assoc, Nat.add_comm (ite _ _ _)] at hrest
    rw [shoot, List.countP_cons]
    exact hrest

theorem shoot_append (p : Pattern) (l m : List Display) :
    p.shoot (l ++ m) = ((p.shoot l).1 ++ ((p.shoot l).2.shoot m).1, ((p.shoot l).2.shoot m).2) := by
  induction l generalizing p with
  | nil => rfl
  | cons d rest ih =>
    rw [List.cons_append, shoot, ih]
    rfl

theorem backgroundByRows_eq (p : Pattern) {width height : UInt32} (hw : width.toNat ≤ 2 ^ 24)
    (hh : height.toNat ≤ 2 ^ 24) : p.backgroundByRows width height = .ok (p.backgroundFor width height) := by
  unfold backgroundByRows backgroundFor
  rw [Frame.gradientByRows_eq hw hh]
  cases p.background with
  | none => rfl
  | some f =>
    dsimp only
    split <;> rfl

theorem captureByRows_eq (h : p.IsClean n) (hd : d.IsPaintable) : p.captureByRows d = .ok (p.capture d) := by
  unfold captureByRows capture
  dsimp only
  split
  · rfl
  · rename_i harea
    obtain ⟨hw, hh⟩ := hd harea
    rw [backgroundByRows_eq p hw hh, backgroundFor_eq h]
    simp only [bind, Except.bind]
    rw [Frame.drawBlockByRows_eq (Frame.isPacked_gradient hw _) rfl
      (PatternBlock.fits_nth p.captures d.area.width.toNat d.area.height.toNat)]
    rfl

theorem shootByRows_eq (h : p.IsClean n) {l : List Display} (hl : ∀ d ∈ l, d.IsPaintable) :
    p.shootByRows l = .ok (p.shoot l) := by
  induction l generalizing p n with
  | nil => rfl
  | cons d rest ih =>
    rw [shootByRows, captureByRows_eq h (hl d (List.mem_cons_self ..))]
    simp only [bind, Except.bind]
    rw [ih (isClean_capture h d) fun e he => hl e (List.mem_cons_of_mem _ he)]
    rfl

/-- Whatever was captured before, a display without area fails and counts for nothing, and the `n`-th capture of one
with sides up to `2 ^ 24` shows the block where its number puts it, inside the frame, and else the gradient. No row
or pixel that is written on the way lies outside its buffer. -/
theorem shoot_has_no_memory {before : List Display} {d : Display} (hbefore : ∀ e ∈ before, e.IsPaintable)
    (hd : d.IsPaintable) :
    let w := d.area.width.toNat
    let h := d.area.height.toNat
    let seen := start.shoot before
    let n := seen.1.countP CaptureResult.isSuccess
    let spanX := w - min 64 w + 1
    let spanY := h - min 64 h + 1
    start.shootByRows (before ++ [d]) = .ok (start.shoot (before ++ [d])) ∧
    if w = 0 ∨ h = 0 then
      start.shoot (before ++ [d]) = (seen.1 ++ [.failed s!"display {d.name} has no area" false], seen.2)
    else ∃ f : Frame, (start.shoot (before ++ [d])).1 = seen.1 ++ [.captured (.plain f)] ∧
      f.ShowsPattern d.area.width d.area.height ⟨8 * n % spanX, 8 * n / spanX % spanY, min 64 w, min 64 h⟩ := by
  intro w h seen n spanX spanY
  have hclean : seen.2.IsClean n := Nat.zero_add n ▸ isClean_shoot isClean_start before
  have hlast : start.shoot (before ++ [d]) = (seen.1 ++ [(seen.2.capture d).1], (seen.2.capture d).2) :=
    shoot_append start before [d]
  have harea : (w = 0 ∨ h = 0) ↔ (d.area.width = 0 ∨ d.area.height = 0) := by
    rw [← UInt32.toNat_inj, ← UInt32.toNat_inj]
    rfl
  refine ⟨shootByRows_eq isClean_start fun e he => ?_, ?_⟩
  · rcases List.mem_append.mp he with he | he
    · exact hbefore e he
    · exact List.mem_singleton.mp he ▸ hd
  · split
    · rename_i hzero
      rw [hlast, capture_failed (harea.mp hzero)]
    · rename_i hpos
      have hblock : PatternBlock.nth n w h = ⟨8 * n % spanX, 8 * n / spanX % spanY, min 64 w, min 64 h⟩ := by
        rw [Nat.mul_comm 8 n]
        rfl
      have hsides : ¬(d.area.width = 0 ∨ d.area.height = 0) := fun hzero => hpos (harea.mpr hzero)
      refine ⟨_, ?_, hblock ▸ Frame.showsPattern_drawBlock (hd hsides).1 (PatternBlock.fits_nth n w h)⟩
      rw [hlast, capture_eq hclean hsides, ← hblock]

/-- The third frame of a display of 70 pixels has its block two steps of 8 pixels on, modulo the 7 places there are
for it. A frame of a smaller display came between, and one of no area did not count. -/
theorem shoot_has_no_memory_third :
    let display (w h : UInt32) : Display := ⟨"S", "S", ⟨0, 0, w, h⟩, true, ⟨0x3FF0000000000000⟩⟩
    let before := [display 70 1, display 0 5, display 3 2]
    (∀ e ∈ before, e.IsPaintable) ∧ (display 70 1).IsPaintable ∧
      ∃ f : Frame, (Pattern.start.shoot (before ++ [display 70 1])).1.getLast? = some (.captured (.plain f)) ∧
        f.ShowsPattern 70 1 ⟨2, 0, 64, 1⟩ := by
  intro display before
  have hbefore : ∀ e ∈ before, e.IsPaintable := by decide
  have hd : (display 70 1).IsPaintable := by decide
  have hcount : (Pattern.start.shoot before).1.countP CaptureResult.isSuccess = 2 := rfl
  obtain ⟨f, hf, hshows⟩ := (shoot_has_no_memory hbefore hd).2
  have hblock : (⟨8 * 2 % (70 - min 64 70 + 1), 8 * 2 / (70 - min 64 70 + 1) % (1 - min 64 1 + 1), min 64 70,
      min 64 1⟩ : PatternBlock) = ⟨2, 0, 64, 1⟩ := by decide
  rw [hcount, show (display 70 1).area.width.toNat = 70 from rfl, show (display 70 1).area.height.toNat = 1 from rfl,
    hblock] at hshows
  refine ⟨hbefore, hd, f, ?_, hshows⟩
  rw [hf, List.getLast?_concat]

end Pattern
end Screencast
