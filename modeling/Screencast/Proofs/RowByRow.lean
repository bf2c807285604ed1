import Screencast.Proofs.Edits

/-!
# Row by row

Cropping and turning as loops over rows and over the pixels of a row, every read and every write of which is a
slice with a range check. In a well-formed frame no check fails, and the loops end in what the operations give.
-/

namespace Screencast

theorem Bytes.tabulate_append (n m : Nat) (g : Nat → UInt8) :
    tabulate n g ++ tabulate m (fun i => g (n + i)) = tabulate (n + m) g := by
  have hn := size_tabulate n g
  refine ext_getOrZero (by simp only [ByteArray.size_append, size_tabulate]) fun i hi => ?_
  rw [ByteArray.size_append, hn, size_tabulate] at hi
  rw [getOrZero_tabulate _ hi]
  rcases Nat.lt_or_ge i n with hlt | hge
  · rw [getOrZero_append_left (by omega), getOrZero_tabulate _ hlt]
  · obtain ⟨k, rfl⟩ := Nat.exists_eq_add_of_le hge
    have hright := getOrZero_append_right (a := tabulate n g) (b := tabulate m fun i => g (n + i)) (i := k)
      (by rw [size_tabulate]; omega)
    rw [hn] at hright
    rw [hright, getOrZero_tabulate _ (by omega)]

namespace Frame

variable {f g out : Frame} {r : Rect} {x y : Nat}

/-- The pixel bytes of a row. -/
def rowBytes (f : Frame) (y : Nat) : ByteArray := f.data.extract (y * f.stride.toNat) (y * f.stride.toNat + f.rowSize)

theorem size_rowBytes (hf : f.WellFormed) (hy : y < f.height.toNat) : (f.rowBytes y).size = f.rowSize := by
  have hend := row_end_le hf hy
  rw [rowBytes, ByteArray.size_extract]
  omega

theorem getOrZero_rowBytes (hf : f.WellFormed) (hy : y < f.height.toNat) {k : Nat} (hk : k < f.rowSize) :
    Bytes.getOrZero (f.rowBytes y) k = Bytes.getOrZero f.data (y * f.stride.toNat + k) :=
  Bytes.getOrZero_extract (Nat.add_lt_add_left hk _) (row_end_le hf hy)

theorem rowPixels_eq (hf : f.WellFormed) (hy : y < f.height.toNat) : f.rowPixels y = .ok (f.rowBytes y) :=
  rowPixels_ok hf hy

/-- A pixel cut out of its row. -/
theorem slice_rowBytes (hf : f.WellFormed) (hx : x < f.width.toNat) (hy : y < f.height.toNat) :
    Bytes.slice (f.rowBytes y) (x * f.format.size) f.format.size = f.pixel x y := by
  have hend := pixel_end_le hx
  rw [← size_rowBytes hf hy] at hend
  rw [Bytes.slice_ok hend, pixel_ok hf hx hy]
  exact congrArg Except.ok (extract_row hx)

/-! ### Cropping -/

/-- The colours of a region's part of a row. -/
def cropRow (f : Frame) (r : Rect) (y : Nat) : Except StreamError ByteArray :=
  let size := f.format.size
  match f.rowPixels y with
  | .error e => .error e
  | .ok row =>
    match Bytes.slice row (r.x.toNat * size) (r.width.toNat * size) with
    | .error e => .error e
    | .ok part =>
      Bytes.build (r.width.toNat * 3) fun i =>
        match Bytes.slice part (i / 3 * size) size with
        | .error e => .error e
        | .ok pixel => Bytes.byteAt pixel (f.format.offset (i % 3))

/-- The colours of the rows `y` to `y + todo - 1` added to `out`. -/
def cropRows (f : Frame) (r : Rect) : (todo y : Nat) → ByteArray → Except StreamError ByteArray
  | 0, _, out => .ok out
  | todo + 1, y, out =>
    match f.cropRow r y with
    | .error e => .error e
    | .ok row => cropRows f r todo (y + 1) (out ++ row)

def cropByRows (f : Frame) (region : Rect) : Except StreamError ByteArray :=
  let r := region.intersect f.bounds
  if r.isEmpty then .error (.regionOutOfBounds r) else f.cropRows r r.height.toNat r.y.toNat ByteArray.empty

theorem cropRow_eq (hf : f.WellFormed) (hl : r.LiesIn f.width f.height) (hy : y < f.height.toNat) :
    f.cropRow r y = .ok (Bytes.tabulate (r.width.toNat * 3) fun i => f.colourAt (r.x.toNat + i / 3) y (i % 3)) := by
  have hpart : r.x.toNat * f.format.size + r.width.toNat * f.format.size ≤ (f.rowBytes y).size := by
    rw [size_rowBytes hf hy, ← Nat.add_mul]
    exact Nat.mul_le_mul_right _ hl.1
  unfold cropRow
  simp only [rowPixels_eq hf hy, Bytes.slice_ok hpart]
  refine Bytes.build_ok fun i hi => ?_
  have hx : i / 3 < r.width.toNat := by omega
  have hin : r.x.toNat + i / 3 < f.width.toNat := by
    have hlw := hl.1
    omega
  have hpixel : i / 3 * f.format.size + f.format.size ≤ r.width.toNat * f.format.size := by
    rw [← Nat.succ_mul]
    exact Nat.mul_le_mul_right _ hx
  have hsub : Bytes.slice ((f.rowBytes y).extract (r.x.toNat * f.format.size)
      (r.x.toNat * f.format.size + r.width.toNat * f.format.size)) (i / 3 * f.format.size) f.format.size =
      f.pixel (r.x.toNat + i / 3) y := by
    rw [← slice_rowBytes hf hin hy, Bytes.slice_ok (by rw [ByteArray.size_extract]; omega),
      Bytes.slice_ok (by rw [Nat.add_mul]; omega), ByteArray.extract_extract, Nat.add_mul]
    congr 2
    omega
  have hend := pixelStart_add_le hf hin hy
  have hoffset := f.format.offset_lt (Nat.mod_lt i (by decide : 0 < 3))
  rw [hsub, pixel_ok hf hin hy]
  have hsize : f.format.offset (i % 3) < (f.data.extract (f.pixelStart (r.x.toNat + i / 3) y)
      (f.pixelStart (r.x.toNat + i / 3) y + f.format.size)).size := by
    rw [ByteArray.size_extract]
    omega
  simp only [Bytes.byteAt_ok hsize, Except.ok.injEq]
  rw [← Bytes.getOrZero_of_lt hsize]
  exact Bytes.getOrZero_extract (Nat.add_lt_add_left hoffset _) hend

theorem cropRows_eq (hf : f.WellFormed) (hl : r.LiesIn f.width f.height) {todo v : Nat}
    (hv : v + todo = r.height.toNat) :
    let colour i := f.colourAt (r.x.toNat + i / 3 % r.width.toNat) (r.y.toNat + i / 3 / r.width.toNat) (i % 3)
    f.cropRows r todo (r.y.toNat + v) (Bytes.tabulate (v * (r.width.toNat * 3)) colour) =
      .ok (Bytes.tabulate ((v + todo) * (r.width.toNat * 3)) colour) := by
  intro colour
  -- On the rows still to crop; the bytes so far are those of the rows before.
  induction todo generalizing v with
  | zero => rfl
  | succ todo ih =>
    have hlh := hl.2
    have hrow : (Bytes.tabulate (r.width.toNat * 3) fun i => f.colourAt (r.x.toNat + i / 3) (r.y.toNat + v) (i % 3)) =
        Bytes.tabulate (r.width.toNat * 3) fun i => colour (v * (r.width.toNat * 3) + i) := by
      refine Bytes.tabulate_congr fun i hi => ?_
      have hx : i / 3 < r.width.toNat := by omega
      have hplace : v * (r.width.toNat * 3) + i = (v * r.width.toNat + i / 3) * 3 + i % 3 := by
        rw [← Nat.mul_assoc, Nat.add_mul, Nat.add_assoc, Nat.div_add_mod']
      obtain ⟨hcolumn, hline, hcolour⟩ := place_eq (y := v) hx (Nat.mod_lt i (by decide : 0 < 3))
      simp only [colour, hplace, hcolumn, hline, hcolour]
    rw [cropRows, cropRow_eq hf hl (by omega), hrow]
    dsimp only
    rw [Bytes.tabulate_append, ← Nat.succ_mul, Nat.add_assoc, ih (by omega), Nat.succ_add_eq_add_succ]

/-- To cut a region that is cut already changes nothing. -/
theorem cropRgb_clipped {region : Rect} (he : (region.intersect f.bounds).isEmpty = false) :
    f.cropRgb region = f.cropRgb (region.intersect f.bounds) := by
  have hcut : (region.intersect f.bounds).intersect f.bounds = region.intersect f.bounds :=
    Rect.intersect_eq_self (Rect.liesIn_intersect region f.width f.height) he
  unfold cropRgb
  rw [hcut]

theorem cropByRows_eq (hf : f.WellFormed) (region : Rect) : f.cropByRows region = f.cropRgb region := by
  unfold cropByRows
  dsimp only
  split
  · rename_i he
    exact (if_pos he).symm
  · rename_i he
    rw [Bool.not_eq_true] at he
    have hl : (region.intersect f.bounds).LiesIn f.width f.height := Rect.liesIn_intersect region f.width f.height
    have hrows := cropRows_eq hf hl (Nat.zero_add _)
    rw [Nat.zero_mul, Nat.add_zero, Nat.zero_add, Nat.mul_left_comm, ← Nat.mul_assoc] at hrows
    rw [cropRgb_clipped he, cropRgb_ok hf hl he]
    exact hrows

/-! ### Turning -/

section Turn

variable {rotation : Rotation} {todo : Nat}

/-- The pixels `x` to `x + todo - 1` of a row, cut out of it and written to where a turn moves them. -/
def turnRow (f : Frame) (rotation : Rotation) (row : ByteArray) (y : Nat) :
    (todo x : Nat) → Frame → Except StreamError Frame
  | 0, _, out => .ok out
  | todo + 1, x, out =>
    match Bytes.slice row (x * f.format.size) f.format.size with
    | .error e => .error e
    | .ok pixel =>
      let place := rotation.target f.width.toNat f.height.toNat x y
      match out.setPixel place.1 place.2 pixel with
      | .error e => .error e
      | .ok after => turnRow f rotation row y todo (x + 1) after

def turnRows (f : Frame) (rotation : Rotation) : (todo y : Nat) → Frame → Except StreamError Frame
  | 0, _, out => .ok out
  | todo + 1, y, out =>
    match f.rowPixels y with
    | .error e => .error e
    | .ok row =>
      match f.turnRow rotation row y f.width.toNat 0 out with
      | .error e => .error e
      | .ok after => turnRows f rotation todo (y + 1) after

def rotateByRows (f : Frame) (rotation : Rotation) : Except StreamError Frame :=
  if rotation = .identity then .ok f
  else
    let width := if rotation.isSideways then f.height else f.width
    let height := if rotation.isSideways then f.width else f.height
    f.turnRows rotation f.height.toNat 0 (filled width height f.format 0)

theorem copyPixels_append (l m : List (Nat × Nat)) :
    f.copyPixels rotation (l ++ m) out =
      match f.copyPixels rotation l out with
      | .error e => .error e
      | .ok after => f.copyPixels rotation m after := by
  induction l generalizing out with
  | nil => rfl
  | cons p l ih =>
    simp only [List.cons_append, copyPixels]
    split
    · rfl
    · split
      · rfl
      · exact ih

theorem turnRow_eq (hf : f.WellFormed) (hy : y < f.height.toNat) (hx : x + todo ≤ f.width.toNat) :
    f.turnRow rotation (f.rowBytes y) y todo x out =
      f.copyPixels rotation ((List.range' x todo).map fun x => (x, y)) out := by
  induction todo generalizing x out with
  | zero => rfl
  | succ todo ih =>
    have hin : x < f.width.toNat := by omega
    rw [List.range'_succ, List.map_cons, turnRow, copyPixels, slice_rowBytes hf hin hy, pixel_ok hf hin hy]
    dsimp only
    generalize out.setPixel _ _ _ = written
    cases written with
    | error e => rfl
    | ok after => exact ih (by omega)

theorem turnRows_eq (hf : f.WellFormed) (hy : y + todo ≤ f.height.toNat) :
    f.turnRows rotation todo y out = f.copyPixels rotation
      ((List.range' y todo).flatMap fun y => (List.range f.width.toNat).map fun x => (x, y)) out := by
  induction todo generalizing y out with
  | zero => rfl
  | succ todo ih =>
    have hrow : f.turnRow rotation (f.rowBytes y) y f.width.toNat 0 out =
        f.copyPixels rotation ((List.range' 0 f.width.toNat).map fun x => (x, y)) out :=
      turnRow_eq hf (by omega) (Nat.le_of_eq (Nat.zero_add _))
    rw [List.range'_succ, List.flatMap_cons, copyPixels_append, turnRows, rowPixels_eq hf (by omega),
      List.range_eq_range', ← hrow]
    dsimp only
    split
    · rfl
    · rw [ih (by omega), List.range_eq_range']

theorem rotateByRows_eq (hf : f.WellFormed) (hw : f.width.toNat < 2 ^ 30) (hh : f.height.toNat < 2 ^ 30)
    (h : f.rotate rotation = .ok g) : f.rotateByRows rotation = .ok g := by
  unfold rotateByRows
  split
  · rename_i hr
    subst hr
    exact h
  · rename_i hr
    obtain ⟨-, hformat, hwidth, hheight, -⟩ := rotate_written hw hh hr h
    dsimp only
    rw [turnRows_eq hf (Nat.le_of_eq (Nat.zero_add _)), ← List.range_eq_range', ← hwidth, ← hheight]
    exact copyPixels_eq_rotate hf hw hh hr h

end Turn

end Frame

end Screencast
