import Screencast.Proofs.Pointer
import Screencast.Proofs.RowByRow

/-!
# The pointer row by row

The pointer is drawn as a loop over the rows of its image and over the pixels of a row: cut out the pixel of the
image, cut out the pixel of the frame, lay the colours one after the other, and put the pixel back. Places in the
image are counted in words. No check of a range fails as long as the image is counted by a word, and the loop ends
in what drawing gives.
-/

namespace Screencast

namespace Pointer

variable {p : Pointer} {u v : Nat}

/-- A row of the image, whose place and size are counted in words. -/
def imageRow (p : Pointer) (v : UInt32) : Except StreamError ByteArray :=
  Bytes.slice p.pixels (v * p.width * 4).toNat (p.width * 4).toNat

/-- One colour of an image pixel laid over a pixel: 0 is red, 1 green, 2 blue. -/
def layColour (format : PixelFormat) (image : ByteArray) (alpha : UInt8) (c : Nat) (pixel : ByteArray) :
    Except StreamError ByteArray := do
  let source ← Bytes.byteAt image (2 - c)
  let old ← Bytes.byteAt pixel (format.offset c)
  Bytes.put pixel (format.offset c) (blend source old alpha)

/-- An image pixel laid over a pixel of the frame. -/
def layPixel (format : PixelFormat) (image pixel : ByteArray) : Except StreamError ByteArray := do
  let alpha ← Bytes.byteAt image 3
  if alpha = 0 then return pixel
  let red ← layColour format image alpha 0 pixel
  let green ← layColour format image alpha 1 red
  let blue ← layColour format image alpha 2 green
  if format.hasAlpha then Bytes.put blue 3 0xFF else return blue

/-- A row of the image laid over row `y` of the frame. -/
def layRow (p : Pointer) (format : PixelFormat) (target : Rect) (y : Nat) (row : ByteArray) :
    Except StreamError ByteArray := do
  let image ← p.imageRow (UInt32.ofNat (y - target.y.toNat))
  let lay (x : Nat) (pixel : ByteArray) : Except StreamError ByteArray := do
    layPixel format (← Bytes.slice image ((x - target.x.toNat) * 4) 4) pixel
  Bytes.editEach format.size format.size lay p.width.toNat target.x.toNat row

theorem layPixel_eq (format : PixelFormat) {image pixel : ByteArray} (hi : image.size = 4)
    (hp : pixel.size = format.size) :
    layPixel format image pixel = .ok (Bytes.tabulate format.size fun k =>
      if Bytes.getOrZero image 3 = 0 then Bytes.getOrZero pixel k
      else if k = 3 then 0xFF
      else blend (Bytes.getOrZero image (sourceOffset format k)) (Bytes.getOrZero pixel k)
        (Bytes.getOrZero image 3)) := by
  obtain ⟨⟨l⟩⟩ := image
  obtain ⟨⟨m⟩⟩ := pixel
  match l, hi with
  | [blue, green, red, alpha], _ =>
    by_cases h : alpha = 0
    · subst h
      cases format with
      | bgra | rgba =>
        match m, hp with
        | [_, _, _, _], _ => rfl
      | rgb =>
        match m, hp with
        | [_, _, _], _ => rfl
    · have halpha : Bytes.getOrZero ⟨⟨[blue, green, red, alpha]⟩⟩ 3 = alpha := rfl
      have hread : Bytes.byteAt ⟨⟨[blue, green, red, alpha]⟩⟩ 3 = .ok alpha := rfl
      simp only [layPixel, hread, halpha, h, bind, Except.bind, if_false]
      cases format with
      | bgra | rgba =>
        match m, hp with
        | [_, _, _, _], _ => rfl
      | rgb =>
        match m, hp with
        | [_, _, _], _ => rfl

/-- The place of an image row is a word, if the size of the image is. -/
theorem imageRow_eq (h : p.IsWhole) (hsize : p.pixels.size < 2 ^ 32) (hv : v < p.height.toNat) :
    p.imageRow (UInt32.ofNat v) =
      .ok (p.pixels.extract (v * p.width.toNat * 4) (v * p.width.toNat * 4 + p.width.toNat * 4)) := by
  have hrows : (v + 1) * p.width.toNat ≤ p.height.toNat * p.width.toNat := Nat.mul_le_mul_right _ hv
  have hwhole := h.size_le
  have hheight := p.height.toNat_lt
  rw [Nat.add_mul, Nat.one_mul] at hrows
  rw [Nat.mul_comm p.width.toNat] at hwhole
  have hfour : (4 : UInt32).toNat = 4 := rfl
  have hplace : (UInt32.ofNat v * p.width * 4).toNat = v * p.width.toNat * 4 := by
    rw [UInt32.toNat_mul, UInt32.toNat_mul, UInt32.toNat_ofNat_of_lt' (by rw [UInt32.size]; omega), hfour]
    omega
  have hlen : (p.width * 4).toNat = p.width.toNat * 4 := by
    rw [UInt32.toNat_mul, hfour]
    omega
  unfold imageRow
  rw [hplace, hlen, Bytes.slice_ok (by omega)]

theorem slice_imageRow (h : p.IsWhole) (hu : u < p.width.toNat) (hv : v < p.height.toNat) :
    ∃ image, Bytes.slice (p.pixels.extract (v * p.width.toNat * 4) (v * p.width.toNat * 4 + p.width.toNat * 4))
      (u * 4) 4 = .ok image ∧ image.size = 4 ∧ ∀ k, k < 4 → Bytes.getOrZero image k = p.imageByte u v k := by
  have hrows : (v + 1) * p.width.toNat ≤ p.height.toNat * p.width.toNat := Nat.mul_le_mul_right _ hv
  have hwhole := h.size_le
  rw [Nat.add_mul, Nat.one_mul] at hrows
  rw [Nat.mul_comm p.width.toNat] at hwhole
  refine ⟨_, Bytes.slice_ok (by rw [ByteArray.size_extract]; omega), ?_, fun k hk => ?_⟩
  · simp only [ByteArray.size_extract]
    omega
  · have hplace : (v * p.width.toNat + u) * 4 + k = v * p.width.toNat * 4 + (u * 4 + k) := by omega
    rw [Bytes.getOrZero_extract (by omega) (by rw [ByteArray.size_extract]; omega),
      Bytes.getOrZero_extract (by omega) (by omega), imageByte, hplace]

end Pointer

namespace Frame

variable {p : Pointer} {f : Frame} {area : Area} {r : Rect} {v n : Nat} {value : Nat → UInt8}

def drawPointerByRows (f : Frame) (p : Pointer) (area : Area) : Except StreamError (Frame × Option Rect) :=
  match p.box f area with
  | none => .ok (f, none)
  | some target =>
    match f.editRows (p.layRow f.format target) target.height.toNat target.y.toNat with
    | .error e => .error e
    | .ok after => .ok (after, some target)

/-- A byte behind the pixels of a row, or beside those of the box, is of no pixel of the box. -/
theorem isOutside_of_row (hf : f.WellFormed) (hr : r.LiesIn f.width f.height) {y : Nat} (hn : n < f.rowSize)
    (hout : ∀ x k, r.x.toNat ≤ x → x < r.x.toNat + r.width.toNat → k < f.format.size → x * f.format.size + k ≠ n) :
    f.IsOutside r (y * f.stride.toNat + n) := by
  intro x' y' k hc hk heq
  obtain ⟨hrow, hplace, -, -⟩ := place_of_byte (y := y') hf (hr.covers hc).1 hk
  have hlt : n < f.stride.toNat := Nat.lt_of_lt_of_le hn hf.1
  rw [heq, Nat.mul_comm y, Nat.mul_add_mod, Nat.mod_eq_of_lt hlt] at hplace
  exact hout x' k hc.1.1 hc.1.2 hk hplace.symm

theorem isOutside_of_rows (hr : r.LiesIn f.width f.height)
    (hout : ∀ y k, r.y.toNat ≤ y → y < r.y.toNat + r.height.toNat → k < f.rowSize → y * f.stride.toNat + k ≠ n) :
    f.IsOutside r n := by
  intro x y k hc hk heq
  have hend := pixel_end_le (hr.covers hc).1
  refine hout y (x * f.format.size + k) hc.2.1 hc.2.2 (by omega) ?_
  rw [← heq, pixelStart, Nat.add_assoc]

theorem layRow_eq (hf : f.WellFormed) (hr : p.FallsOn area f r) (hsize : p.pixels.size < 2 ^ 32)
    (hv : v < r.height.toNat) (hvalue : ∀ i, i < f.data.size → p.drawnByte f r i = .ok (value i)) :
    p.layRow f.format r (r.y.toNat + v) (f.rowBytes (r.y.toNat + v)) =
      .ok (Bytes.tabulate f.rowSize fun k => value ((r.y.toNat + v) * f.stride.toNat + k)) := by
  have hlw := hr.liesIn.1
  have hlh := hr.liesIn.2
  have hy : r.y.toNat + v < f.height.toNat := by omega
  have hrow := row_end_le hf hy
  have hrowSize := size_rowBytes hf hy
  have hwidth : r.width.toNat = p.width.toNat := congrArg UInt32.toNat hr.width
  have hvp : v < p.height.toNat := hr.height ▸ hv
  unfold Pointer.layRow
  simp only [Nat.add_sub_cancel_left, Pointer.imageRow_eq hr.isWhole hsize hvp, bind, Except.bind]
  rw [← hrowSize]
  refine Bytes.editEach_eq (Nat.le_refl _) (fun x hx hx' => ?_) (fun x hx hx' => ?_) fun n hn hout => ?_
  · rw [hrowSize]
    exact pixel_end_le (by omega)
  · obtain ⟨u, rfl⟩ := Nat.exists_eq_add_of_le hx
    have hup : u < p.width.toNat := by omega
    have hend := pixel_end_le (f := f) (x := r.x.toNat + u) (by omega)
    obtain ⟨image, himage, hfour, hbyte⟩ := Pointer.slice_imageRow hr.isWhole hup hvp
    have hpixel : ((f.rowBytes (r.y.toNat + v)).extract ((r.x.toNat + u) * f.format.size)
        ((r.x.toNat + u) * f.format.size + f.format.size)).size = f.format.size := by
      rw [ByteArray.size_extract]
      omega
    simp only [Nat.add_sub_cancel_left, himage]
    rw [Pointer.layPixel_eq f.format hfour hpixel]
    refine congrArg Except.ok (Bytes.tabulate_congr fun k hk => ?_)
    have hplace : (r.y.toNat + v) * f.stride.toNat + ((r.x.toNat + u) * f.format.size + k) =
        f.pixelStart (r.x.toNat + u) (r.y.toNat + v) + k := (Nat.add_assoc _ _ _).symm
    have hdrawn := drawnByte_inside hf hr (hwidth ▸ hup) hv hk
    have hoffset : Pointer.sourceOffset f.format k < 4 := by
      unfold Pointer.sourceOffset
      split <;> [decide; split] <;> decide
    rw [hplace, ← Except.ok.inj (hdrawn.symm.trans (hvalue _ (by rw [← hplace]; omega))), Pointer.laidByte,
      hbyte 3 (by decide), hbyte _ hoffset, Bytes.getOrZero_extract (by omega) (by omega),
      getOrZero_rowBytes hf hy (by omega), hplace]
  · rw [hrowSize] at hn
    have houtside := isOutside_of_row (y := r.y.toNat + v) hf hr.liesIn hn fun x k hx hx' => hout x k hx (by omega)
    have hlt : (r.y.toNat + v) * f.stride.toNat + n < f.data.size := by omega
    have hbyte := (hvalue _ hlt).symm.trans (drawnByte_outside houtside hlt)
    rw [Bytes.byteAt_ok hlt, ← Bytes.getOrZero_of_lt hlt] at hbyte
    rw [getOrZero_rowBytes hf hy hn]
    exact Except.ok.inj hbyte

theorem drawPointerByRows_eq (hf : f.WellFormed) (hsize : p.pixels.size < 2 ^ 32) (area : Area) :
    f.drawPointerByRows p area = f.drawPointer p area := by
  unfold drawPointerByRows drawPointer
  cases hbox : p.box f area with
  | none => rfl
  | some r =>
    have hr := Pointer.box_eq_some_iff.mp hbox
    have hvalue : ∀ i, i < f.data.size → p.drawnByte f r i = .ok ((p.drawnByte f r i).toOption.getD 0) := by
      intro i hi
      obtain ⟨b, hb⟩ := drawnByte_total hf hr hi
      rw [hb]
      rfl
    dsimp only
    rw [Bytes.build_ok hvalue, editRows_eq _ hf hr.liesIn.2 (fun y hy hy' => ?_) fun n hn hout => ?_]
    · obtain ⟨v, rfl⟩ := Nat.exists_eq_add_of_le hy
      exact layRow_eq hf hr hsize (by omega) hvalue
    · have hbyte := (hvalue n hn).symm.trans (drawnByte_outside (isOutside_of_rows hr.liesIn hout) hn)
      rw [Bytes.byteAt_ok hn, ← Bytes.getOrZero_of_lt hn] at hbyte
      exact Except.ok.inj hbyte

end Frame
end Screencast
