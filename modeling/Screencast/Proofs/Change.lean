import Screencast.Pipeline.Keyframe
import Screencast.Proofs.Bytes
import Screencast.Proofs.Rect

/-!
# What a change covers

The scan over the rows keeps the smallest box around the differences it has passed. So the region of
a change covers every pixel in which two frames differ. It lies in its frame, and a comparison
needs frames of one size and one format.
-/

namespace Screencast

theorem firstFrom_eq_none {p : Nat → Bool} : ∀ {todo start : Nat}, firstFrom p todo start = none →
    ∀ i, i < start + todo → start ≤ i → ¬p i = true
  | 0, start, _, i, hi, hs => by omega
  | todo + 1, start, h, i, hi, hs => by
    rw [firstFrom] at h
    split at h
    · cases h
    · rename_i hp
      rcases Nat.eq_or_lt_of_le hs with rfl | hlt
      · exact hp
      · exact firstFrom_eq_none h i (by omega) hlt

theorem lastBelow_isSome {p : Nat → Bool} {i : Nat} : ∀ {n : Nat}, i < n → p i = true → ∃ k, lastBelow p n = some k
  | n + 1, hi, hp => by
    rw [lastBelow]
    split
    · exact ⟨n, rfl⟩
    · rename_i hn
      have hne : i ≠ n := by
        rintro rfl
        exact hn hp
      exact lastBelow_isSome (by omega) hp

theorem firstFrom_le {p : Nat → Bool} {n first i : Nat} (h : firstFrom p n 0 = some first) (hp : p i = true) :
    first ≤ i := by
  obtain ⟨-, hmin⟩ := firstFrom_eq_some_iff.mp h
  refine Nat.le_of_not_lt fun hlt => ?_
  rw [hmin i (Nat.zero_le i) hlt] at hp
  cases hp

theorem le_lastBelow {p : Nat → Bool} {n last i : Nat} (h : lastBelow p n = some last) (hi : i < n)
    (hp : p i = true) : i ≤ last := by
  obtain ⟨-, hmax⟩ := lastBelow_eq_some_iff.mp h
  refine Nat.le_of_not_lt fun hlt => ?_
  rw [hmax i hlt hi] at hp
  cases hp

namespace Frame

/-! ### Pixels and rows -/

/-- One size and one format. -/
def Alike (a b : Frame) : Prop := a.width = b.width ∧ a.height = b.height ∧ a.format = b.format

/-- A pixel of the frames in which they differ. -/
def Differ (a b : Frame) (x y : Nat) : Prop :=
  (x < a.width.toNat ∧ y < a.height.toNat) ∧ a.pixel x y ≠ b.pixel x y

section Pixels

variable {f a b : Frame} {x y : Nat}

theorem row_end_le (h : f.WellFormed) (hy : y < f.height.toNat) : y * f.stride.toNat + f.rowSize ≤ f.data.size := by
  obtain ⟨hw, hd⟩ := h
  have hrows : (y + 1) * f.stride.toNat ≤ f.height.toNat * f.stride.toNat := Nat.mul_le_mul_right _ hy
  rw [Nat.add_mul, Nat.one_mul, Nat.mul_comm f.height.toNat] at hrows
  omega

theorem pixel_end_le (hx : x < f.width.toNat) : x * f.format.size + f.format.size ≤ f.rowSize := by
  have h : (x + 1) * f.format.size ≤ f.width.toNat * f.format.size := Nat.mul_le_mul_right _ hx
  rw [Nat.add_mul, Nat.one_mul] at h
  exact h

theorem rowPixels_ok (h : f.WellFormed) (hy : y < f.height.toNat) :
    f.rowPixels y = .ok (f.data.extract (y * f.stride.toNat) (y * f.stride.toNat + f.rowSize)) :=
  Bytes.slice_ok (row_end_le h hy)

theorem pixelStart_add_le (h : f.WellFormed) (hx : x < f.width.toNat) (hy : y < f.height.toNat) :
    f.pixelStart x y + f.format.size ≤ f.data.size := by
  have hrow := row_end_le h hy
  have hpixel := pixel_end_le hx
  unfold pixelStart
  omega

theorem pixel_ok (h : f.WellFormed) (hx : x < f.width.toNat) (hy : y < f.height.toNat) :
    f.pixel x y = .ok (f.data.extract (f.pixelStart x y) (f.pixelStart x y + f.format.size)) :=
  Bytes.slice_ok (pixelStart_add_le h hx hy)

/-- A pixel as a part of its row. -/
theorem extract_row (hx : x < f.width.toNat) :
    (f.data.extract (y * f.stride.toNat) (y * f.stride.toNat + f.rowSize)).extract (x * f.format.size)
        (x * f.format.size + f.format.size) =
      f.data.extract (f.pixelStart x y) (f.pixelStart x y + f.format.size) := by
  have hpixel := pixel_end_le hx
  rw [ByteArray.extract_extract]
  unfold pixelStart
  congr 1
  omega

theorem rowsDifferAt_iff (ha : a.WellFormed) (hb : b.WellFormed) (hab : a.Alike b) (hx : x < a.width.toNat)
    (hy : y < a.height.toNat) :
    rowsDifferAt a.format.size (a.data.extract (y * a.stride.toNat) (y * a.stride.toNat + a.rowSize))
        (b.data.extract (y * b.stride.toNat) (y * b.stride.toNat + b.rowSize)) x = true ↔ a.Differ b x y := by
  obtain ⟨hw, hh, hf⟩ := hab
  unfold rowsDifferAt Differ
  rw [extract_row hx, hf, extract_row (hw ▸ hx), pixel_ok ha hx hy, pixel_ok hb (hw ▸ hx) (hh ▸ hy), hf]
  simp only [bne_iff_ne, ne_eq, Except.ok.injEq, hx, hy, and_self, true_and]

end Pixels

/-! ### The scan -/

/-- The smallest box around the pixels of `P`. -/
def IsHull (P : Nat → Nat → Prop) : Option ChangeBox → Prop
  | none => ∀ x y, ¬P x y
  | some b => (∀ x y, P x y → (b.left ≤ x ∧ x ≤ b.right) ∧ (b.top ≤ y ∧ y ≤ b.bottom)) ∧
    (∃ y, P b.left y) ∧ (∃ y, P b.right y) ∧ (∃ x, P x b.top) ∧ ∃ x, P x b.bottom

section Hull

variable {P Q : Nat → Nat → Prop} {box : Option ChangeBox} {y : Nat}

theorem isHull_congr (h : ∀ i j, P i j ↔ Q i j) (hb : IsHull P box) : IsHull Q box := by
  have hPQ : P = Q := funext fun i => funext fun j => propext (h i j)
  exact hPQ ▸ hb

theorem isHull_skip (hb : IsHull (fun i j => P i j ∧ j < y) box) (hrow : ∀ i, ¬P i y) :
    IsHull (fun i j => P i j ∧ j < y + 1) box := by
  refine isHull_congr (fun i j => ?_) hb
  constructor
  · rintro ⟨hp, hj⟩
    exact ⟨hp, by omega⟩
  · rintro ⟨hp, hj⟩
    refine ⟨hp, Nat.lt_of_le_of_ne (Nat.le_of_lt_succ hj) ?_⟩
    rintro rfl
    exact hrow i hp

/-- A row with its first and its last difference. -/
theorem isHull_widen {first last : Nat} (hb : IsHull (fun i j => P i j ∧ j < y) box) (hfirst : P first y)
    (hlast : P last y) (hrow : ∀ i, P i y → first ≤ i ∧ i ≤ last) :
    IsHull (fun i j => P i j ∧ j < y + 1) (some (ChangeBox.widen box first last y)) := by
  cases box with
  | none =>
    refine ⟨?_, ⟨y, hfirst, Nat.lt_succ_self y⟩, ⟨y, hlast, Nat.lt_succ_self y⟩, ⟨first, hfirst, Nat.lt_succ_self y⟩,
      ⟨last, hlast, Nat.lt_succ_self y⟩⟩
    rintro i j ⟨hp, hj⟩
    obtain rfl : j = y := Nat.le_antisymm (Nat.le_of_lt_succ hj) (Nat.le_of_not_lt fun hlt => hb i j ⟨hp, hlt⟩)
    exact ⟨hrow i hp, Nat.le_refl j, Nat.le_refl j⟩
  | some b =>
    obtain ⟨hin, ⟨yl, hl, hyl⟩, ⟨yr, hr, hyr⟩, ⟨xt, ht, hyt⟩, -⟩ := hb
    refine ⟨?_, ?_, ?_, ⟨xt, ht, Nat.lt_succ_of_lt hyt⟩, ⟨last, hlast, Nat.lt_succ_self y⟩⟩
    · rintro i j ⟨hp, hj⟩
      show (min b.left first ≤ i ∧ i ≤ max b.right last) ∧ b.top ≤ j ∧ j ≤ y
      rcases Nat.eq_or_lt_of_le (Nat.le_of_lt_succ hj) with rfl | hlt
      · have h := hrow i hp
        omega
      · have h := hin i j ⟨hp, hlt⟩
        omega
    · show ∃ j, P (min b.left first) j ∧ j < y + 1
      rcases Nat.le_total b.left first with h | h
      · rw [Nat.min_eq_left h]
        exact ⟨yl, hl, Nat.lt_succ_of_lt hyl⟩
      · rw [Nat.min_eq_right h]
        exact ⟨y, hfirst, Nat.lt_succ_self y⟩
    · show ∃ j, P (max b.right last) j ∧ j < y + 1
      rcases Nat.le_total b.right last with h | h
      · rw [Nat.max_eq_right h]
        exact ⟨y, hlast, Nat.lt_succ_self y⟩
      · rw [Nat.max_eq_left h]
        exact ⟨yr, hr, Nat.lt_succ_of_lt hyr⟩

end Hull

section Scan

variable {current previous : Frame}

theorem changeFrom_hull (hc : current.WellFormed) (hp : previous.WellFormed) (hcp : current.Alike previous)
    (todo y : Nat) (box : Option ChangeBox) (hend : y + todo = current.height.toNat)
    (hb : IsHull (fun i j => current.Differ previous i j ∧ j < y) box) :
    ∃ after, changeFrom current previous todo y box = .ok after ∧ IsHull (current.Differ previous) after := by
  -- On the rows still to scan; the box is the hull of the differences above row `y`.
  induction todo generalizing y box with
  | zero =>
    refine ⟨box, rfl, isHull_congr (fun i j => ?_) hb⟩
    refine and_iff_left_of_imp fun hd => ?_
    have hj := hd.1.2
    omega
  | succ todo ih =>
    have hy : y < current.height.toNat := by omega
    have hdiffers {x : Nat} (hx : x < current.width.toNat) := rowsDifferAt_iff hc hp hcp hx hy
    rw [changeFrom, rowPixels_ok hc hy, rowPixels_ok hp (hcp.2.1 ▸ hy)]
    simp only
    split
    · rename_i heq
      refine ih (y + 1) box (by omega) (isHull_skip hb fun i hi => ?_)
      have h := (hdiffers hi.1.1).mpr hi
      unfold rowsDifferAt at h
      rw [heq, bne_self_eq_false] at h
      cases h
    · split
      · rename_i hnone
        refine ih (y + 1) box (by omega) (isHull_skip hb fun i hi => ?_)
        exact absurd ((hdiffers hi.1.1).mpr hi) (firstFrom_eq_none hnone i (by have hi := hi.1.1; omega) (Nat.zero_le i))
      · rename_i first hfirst
        obtain ⟨⟨-, hlt, hpf⟩, -⟩ := firstFrom_eq_some_iff.mp hfirst
        rw [Nat.zero_add] at hlt
        obtain ⟨last, hlast⟩ := lastBelow_isSome hlt hpf
        rw [hlast]
        obtain ⟨⟨hltl, hpl⟩, -⟩ := lastBelow_eq_some_iff.mp hlast
        refine ih (y + 1) _ (by omega) (isHull_widen hb ((hdiffers hlt).mp hpf) ((hdiffers hltl).mp hpl) fun i hi => ?_)
        have hdiff := (hdiffers hi.1.1).mpr hi
        exact ⟨firstFrom_le hfirst hdiff, le_lastBelow hlast hi.1.1 hdiff⟩

/-- The region of a box, grown and cut to the frame. -/
def ChangeBox.region (padding : UInt32) (bounds : Rect) : Option ChangeBox → Rect
  | none => Rect.empty
  | some b =>
    (Rect.ofEdges (UInt32.ofNat b.left) (UInt32.ofNat b.top) (UInt32.ofNat (b.right + 1))
      (UInt32.ofNat (b.bottom + 1))).pad padding bounds

/-- A comparison gives the smallest box around the differences, grown and cut to the frame. -/
theorem change_hull (hc : current.WellFormed) (hp : previous.WellFormed) (hcp : current.Alike previous)
    (padding : UInt32) :
    ∃ box, IsHull (current.Differ previous) box ∧
      current.change (some previous) padding = .ok (ChangeBox.region padding current.bounds box) := by
  obtain ⟨box, hbox, hhull⟩ := changeFrom_hull hc hp hcp current.height.toNat 0 none (Nat.zero_add _)
    fun i j h => absurd h.2 (Nat.not_lt_zero j)
  refine ⟨box, hhull, ?_⟩
  obtain ⟨hw, hh, hf⟩ := hcp
  unfold change
  simp only [hw, hh, hf, ne_eq, not_true_eq_false, or_self, if_false]
  rw [hh] at hbox
  rw [hbox]
  cases box <;> rfl

/-- The rectangle of a box, both of its outermost pixels included. -/
def ChangeBox.rect (b : ChangeBox) : Rect :=
  .ofEdges (UInt32.ofNat b.left) (UInt32.ofNat b.top) (UInt32.ofNat (b.right + 1)) (UInt32.ofNat (b.bottom + 1))

variable {P : Nat → Nat → Prop} {width height : UInt32} {b : ChangeBox}

/-- The edges of the smallest box are edges of the rectangle, for they are words. -/
theorem rect_edges (hP : ∀ x y, P x y → x < width.toNat ∧ y < height.toNat) (hb : IsHull P (some b)) :
    b.rect.x.toNat = b.left ∧ b.rect.y.toNat = b.top ∧ b.rect.x.toNat + b.rect.width.toNat = b.right + 1 ∧
      b.rect.y.toNat + b.rect.height.toNat = b.bottom + 1 := by
  obtain ⟨hin, ⟨yl, hl⟩, ⟨yr, hr⟩, ⟨xt, ht⟩, ⟨xb, hbottom⟩⟩ := hb
  have hw := width.toNat_lt
  have hh := height.toNat_lt
  have hleft := (hP _ _ hl).1
  have htop := (hP _ _ ht).2
  have hright := (hP _ _ hr).1
  have hbot := (hP _ _ hbottom).2
  have horder := hin _ _ hl
  have toNat_ofNat {n : Nat} (hn : n < 2 ^ 32) : (UInt32.ofNat n).toNat = n := UInt32.toNat_ofNat_of_lt' hn
  have h1 := toNat_ofNat (n := b.left) (by omega)
  have h2 := toNat_ofNat (n := b.top) (by omega)
  have h3 := toNat_ofNat (n := b.right + 1) (by omega)
  have h4 := toNat_ofNat (n := b.bottom + 1) (by omega)
  obtain ⟨hx, hy, hsx, hsy⟩ := Rect.edges_ofEdges (UInt32.ofNat b.left) (UInt32.ofNat b.top) (UInt32.ofNat (b.right + 1))
    (UInt32.ofNat (b.bottom + 1)) (by omega) (by omega)
  exact ⟨hx.trans h1, hy.trans h2, hsx.trans h3, hsy.trans h4⟩

theorem rect_liesIn (hP : ∀ x y, P x y → x < width.toNat ∧ y < height.toNat) (hb : IsHull P (some b)) :
    b.rect.LiesIn width height := by
  obtain ⟨-, -, hright, hbottom⟩ := rect_edges hP hb
  obtain ⟨-, -, ⟨yr, hr⟩, -, ⟨xb, hb⟩⟩ := hb
  have hrw := (hP _ _ hr).1
  have hbh := (hP _ _ hb).2
  unfold Rect.LiesIn
  omega

theorem rect_covers (hP : ∀ x y, P x y → x < width.toNat ∧ y < height.toNat) (hb : IsHull P (some b)) {x y : Nat}
    (h : P x y) : b.rect.Covers x y := by
  have hedges := rect_edges hP hb
  have hin := hb.1 x y h
  unfold Rect.Covers
  omega

theorem covers_region (hP : ∀ x y, P x y → x < width.toNat ∧ y < height.toNat) {box : Option ChangeBox}
    (hb : IsHull P box) (padding : UInt32) {x y : Nat} (h : P x y) :
    (ChangeBox.region padding ⟨0, 0, width, height⟩ box).Covers x y := by
  cases box with
  | none => exact absurd h (hb x y)
  | some b =>
    have hbox := rect_covers hP hb h
    refine (Rect.covers_pad (rect_liesIn hP hb).fits (Rect.liesIn_bounds width height).fits padding
      hbox.nonempty).mpr ⟨Rect.covers_bounds.mpr (hP x y h), ?_⟩
    unfold Rect.Covers at hbox
    omega

theorem change_covers (hc : current.WellFormed) (hp : previous.WellFormed) (hcp : current.Alike previous)
    (padding : UInt32) :
    ∃ r, current.change (some previous) padding = .ok r ∧ ∀ x y, current.Differ previous x y → r.Covers x y := by
  obtain ⟨box, hbox, hr⟩ := change_hull hc hp hcp padding
  exact ⟨_, hr, fun x y h => covers_region (fun x y h => h.1) hbox padding h⟩

end Scan

/-! ### Regions and errors -/

variable {current previous : Frame} {padding : UInt32} {r : Rect}

theorem change_liesIn {before : Option Frame} (h : current.change before padding = .ok r) :
    r.LiesIn current.width current.height := by
  unfold change at h
  split at h
  · cases h
    exact Rect.liesIn_bounds _ _
  · split at h
    · cases h
    · split at h
      · cases h
      · split at h
        · cases h
        · cases h
          exact ⟨Nat.zero_le _, Nat.zero_le _⟩
        · cases h
          exact Rect.liesIn_pad _ _ _ _

theorem change_error (padding : UInt32) (h : current.width ≠ previous.width ∨ current.height ≠ previous.height) :
    current.change (some previous) padding =
      .error (.dimensionMismatch (current.width, current.height) (previous.width, previous.height)) := by
  unfold change
  exact if_pos h

theorem change_format_error (padding : UInt32) (hw : current.width = previous.width) (hh : current.height = previous.height)
    (h : current.format ≠ previous.format) : current.change (some previous) padding = .error .pixelFormatMismatch := by
  unfold change
  simp only [hw, hh, ne_eq, not_true_eq_false, or_self, if_false, h, not_false_eq_true, if_true]

theorem rowPixels_error {f : Frame} {y : Nat} {fault : StreamError} (h : f.rowPixels y = .error fault) :
    fault = .outOfBuffer := by
  unfold rowPixels Bytes.slice at h
  split at h
  · cases h
  · cases h
    rfl

theorem changeFrom_error {todo y : Nat} {box : Option ChangeBox} {fault : StreamError}
    (h : changeFrom current previous todo y box = .error fault) : fault = .outOfBuffer := by
  induction todo generalizing y box with
  | zero => cases h
  | succ todo ih =>
    rw [changeFrom] at h
    split at h
    · rename_i hrow
      cases h
      exact rowPixels_error hrow
    · rename_i hrow _
      cases h
      exact rowPixels_error hrow
    · split at h
      · exact ih h
      · dsimp only at h
        split at h
        · exact ih h
        · exact ih h

/-- Frames of one size and one format are compared, whatever becomes of it. -/
theorem change_alike {padding : UInt32} {fault : StreamError} (hab : current.Alike previous)
    (h : current.change (some previous) padding = .error fault) : fault = .outOfBuffer := by
  obtain ⟨hw, hh, hf⟩ := hab
  unfold change at h
  simp only [hw, hh, hf, ne_eq, not_true_eq_false, or_self, if_false] at h
  split at h
  · rename_i hscan
    cases h
    exact changeFrom_error hscan
  · cases h
  · cases h

end Frame

namespace Memory

variable {m : Memory} {d : Display} {padding : UInt32} {f : CapturedFrame} {region : Rect}

theorem change_tracked {rects : List Rect} (hd : f.dirtyRects = some rects) : m.change d padding f =
    if (unionWithin rects f.frame.bounds).isEmpty then .unchanged else .delta (unionWithin rects f.frame.bounds) := by
  unfold change
  rw [hd]

theorem change_compared {r : Rect} (hd : f.dirtyRects = none)
    (hr : f.frame.change (m.baselineOf d.name) padding = .ok r) :
    m.change d padding f = if r.isEmpty then .unchanged else .delta r := by
  unfold change
  rw [hd, hr]

theorem change_dimensionMismatch {a b : UInt32 × UInt32} (hd : f.dirtyRects = none)
    (hr : f.frame.change (m.baselineOf d.name) padding = .error (.dimensionMismatch a b)) :
    m.change d padding f = .keyframe .baselineMismatch := by
  unfold change
  rw [hd, hr]

theorem change_pixelFormatMismatch (hd : f.dirtyRects = none)
    (hr : f.frame.change (m.baselineOf d.name) padding = .error .pixelFormatMismatch) :
    m.change d padding f = .keyframe .baselineMismatch := by
  unfold change
  rw [hd, hr]

theorem change_refused {fault : StreamError} (hd : f.dirtyRects = none)
    (hr : f.frame.change (m.baselineOf d.name) padding = .error fault) :
    m.change d padding f = .keyframe .baselineMismatch ∨
      m.change d padding f = if f.frame.bounds.isEmpty then .unchanged else .delta f.frame.bounds := by
  unfold change
  rw [hd, hr]
  cases fault <;> first | exact .inl rfl | exact .inr rfl

theorem change_delta (h : m.change d padding f = .delta region) :
    region.isEmpty = false ∧ region.LiesIn f.frame.width f.frame.height := by
  have of_region {r : Rect} (hr : m.change d padding f = if r.isEmpty then .unchanged else .delta r)
      (hl : r.LiesIn f.frame.width f.frame.height) :
      region.isEmpty = false ∧ region.LiesIn f.frame.width f.frame.height := by
    rw [h] at hr
    split at hr
    · cases hr
    · rename_i he
      cases hr
      exact ⟨Bool.eq_false_iff.mpr he, hl⟩
  cases hd : f.dirtyRects with
  | some rects => exact of_region (change_tracked hd) (Rect.liesIn_intersect _ _ _)
  | none =>
    cases hc : f.frame.change (m.baselineOf d.name) padding with
    | ok r => exact of_region (change_compared hd hc) (Frame.change_liesIn hc)
    | error fault =>
      rcases change_refused hd hc with hr | hr
      · rw [h] at hr
        cases hr
      · exact of_region hr (Rect.liesIn_bounds _ _)

/-- A frame that came without areas is compared with one of its own size and format, or goes out whole. -/
theorem change_of_ne_keyframe (h : ∀ reason, m.change d padding f ≠ .keyframe reason) (hd : f.dirtyRects = none)
    {previous : Frame} (hb : m.baselineOf d.name = some previous) : f.frame.Alike previous := by
  by_cases hs : f.frame.width ≠ previous.width ∨ f.frame.height ≠ previous.height
  · have hr := Frame.change_error padding hs
    rw [← hb] at hr
    exact absurd (change_dimensionMismatch hd hr) (h .baselineMismatch)
  · obtain ⟨hw, hh⟩ := not_or.mp hs
    have hw := Decidable.not_not.mp hw
    have hh := Decidable.not_not.mp hh
    by_cases hf : f.frame.format = previous.format
    · exact ⟨hw, hh, hf⟩
    · have hr := Frame.change_format_error padding hw hh hf
      rw [← hb] at hr
      exact absurd (change_pixelFormatMismatch hd hr) (h .baselineMismatch)

/-- A comparison sends a frame whole only if the frame before it has another size or format. -/
theorem change_keyframe {reason : KeyframeReason} (h : m.change d padding f = .keyframe reason) :
    ∃ previous, m.baselineOf d.name = some previous ∧ ¬f.frame.Alike previous := by
  cases hd : f.dirtyRects with
  | some rects =>
    rw [change_tracked hd] at h
    split at h <;> cases h
  | none =>
    cases hb : m.baselineOf d.name with
    | none =>
      have hr : f.frame.change (m.baselineOf d.name) padding = .ok f.frame.bounds := by rw [hb]; rfl
      rw [change_compared hd hr] at h
      split at h <;> cases h
    | some previous =>
      refine ⟨previous, rfl, fun hab => ?_⟩
      cases hr : f.frame.change (m.baselineOf d.name) padding with
      | ok r =>
        rw [change_compared hd hr] at h
        split at h <;> cases h
      | error fault =>
        obtain rfl : fault = .outOfBuffer := Frame.change_alike hab (hb ▸ hr)
        unfold change at h
        simp only [hd, hr] at h
        split at h <;> cases h

end Memory
end Screencast
