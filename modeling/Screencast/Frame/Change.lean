import Screencast.Frame.Basic

/-!
# Changed regions

The box around every pixel in which two frames differ, grown by a margin so that lossy
compression leaves no seam. Rows are compared whole; of a row that differs, the first and the
last differing pixel widen the box.
-/

namespace Screencast

/-- Margin around a change unless another is configured. -/
def defaultPadding : UInt32 := 2

/-- The least `i` from `start` on, among `todo` many, with `p i`. -/
def firstFrom (p : Nat → Bool) : (todo start : Nat) → Option Nat
  | 0, _ => none
  | todo + 1, start => if p start then some start else firstFrom p todo (start + 1)

/-- The greatest `i` below the bound with `p i`. -/
def lastBelow (p : Nat → Bool) : Nat → Option Nat
  | 0 => none
  | n + 1 => if p n then some n else lastBelow p n

theorem firstFrom_eq_some_iff {p : Nat → Bool} {i : Nat} : ∀ {todo start : Nat},
    firstFrom p todo start = some i ↔
      (start ≤ i ∧ i < start + todo ∧ p i = true) ∧ ∀ j, start ≤ j → j < i → p j = false
  | 0, start => by simp only [firstFrom, reduceCtorEq, false_iff]; rintro ⟨⟨_, _, _⟩, _⟩; omega
  | todo + 1, start => by
    rw [firstFrom]
    split
    · rename_i h
      simp only [Option.some.injEq]
      constructor
      · rintro rfl; exact ⟨⟨Nat.le_refl _, by omega, h⟩, fun j _ _ => by omega⟩
      · rintro ⟨⟨hle, _, _⟩, hmin⟩
        rcases Nat.eq_or_lt_of_le hle with he | hlt
        · exact he
        · rw [hmin start (Nat.le_refl _) hlt] at h; cases h
    · rename_i h
      rw [firstFrom_eq_some_iff]
      constructor
      · rintro ⟨⟨h1, h2, h3⟩, h4⟩
        refine ⟨⟨by omega, by omega, h3⟩, fun j hj hlt => ?_⟩
        rcases Nat.eq_or_lt_of_le hj with he | hlt'
        · subst he; simpa using h
        · exact h4 j hlt' hlt
      · rintro ⟨⟨h1, h2, h3⟩, h4⟩
        have hne : start ≠ i := by rintro rfl; exact h h3
        exact ⟨⟨by omega, by omega, h3⟩, fun j hj hlt => h4 j (by omega) hlt⟩

theorem lastBelow_eq_some_iff {p : Nat → Bool} {i : Nat} : ∀ {n : Nat},
    lastBelow p n = some i ↔ (i < n ∧ p i = true) ∧ ∀ j, i < j → j < n → p j = false
  | 0 => by simp only [lastBelow, reduceCtorEq, false_iff]; rintro ⟨⟨_, _⟩, _⟩; omega
  | n + 1 => by
    rw [lastBelow]
    split
    · rename_i h
      simp only [Option.some.injEq]
      constructor
      · rintro rfl; exact ⟨⟨by omega, h⟩, fun j _ _ => by omega⟩
      · rintro ⟨⟨hlt, _⟩, hmax⟩
        rcases Nat.eq_or_lt_of_le (Nat.le_of_lt_succ hlt) with he | hl
        · exact he.symm
        · rw [hmax n hl (by omega)] at h; cases h
    · rename_i h
      rw [lastBelow_eq_some_iff]
      constructor
      · rintro ⟨⟨h1, h2⟩, h3⟩
        refine ⟨⟨by omega, h2⟩, fun j hj hlt => ?_⟩
        rcases Nat.eq_or_lt_of_le (Nat.le_of_lt_succ hlt) with he | hl
        · subst he; simpa using h
        · exact h3 j hj hl
      · rintro ⟨⟨h1, h2⟩, h3⟩
        have hne : i ≠ n := by rintro rfl; exact h h2
        exact ⟨⟨by omega, h2⟩, fun j hj hlt => h3 j hj (by omega)⟩

namespace Frame

/-- The box of the differences found so far, by its outermost pixels. -/
structure ChangeBox where
  left : Nat
  top : Nat
  right : Nat
  bottom : Nat
  deriving DecidableEq, Inhabited

/-- The box widened by a row's first and last difference. -/
def ChangeBox.widen (box : Option ChangeBox) (first last y : Nat) : ChangeBox :=
  match box with
  | none => ⟨first, y, last, y⟩
  | some b => ⟨min b.left first, b.top, max b.right last, y⟩

/-- Two rows differ in their pixel `x` of `size` bytes. -/
def rowsDifferAt (size : Nat) (a b : ByteArray) (x : Nat) : Bool :=
  a.extract (x * size) (x * size + size) != b.extract (x * size) (x * size + size)

/-- The box after rows `y` to `y + todo - 1`. -/
def changeFrom (current previous : Frame) :
    (todo y : Nat) → Option ChangeBox → Except StreamError (Option ChangeBox)
  | 0, _, box => .ok box
  | todo + 1, y, box =>
    match current.rowPixels y, previous.rowPixels y with
    | .error e, _ => .error e
    | _, .error e => .error e
    | .ok a, .ok b =>
      if a = b then changeFrom current previous todo (y + 1) box
      else
        let differs := rowsDifferAt current.format.size a b
        match firstFrom differs current.width.toNat 0 with
        | none => changeFrom current previous todo (y + 1) box
        | some first =>
          let last := (lastBelow differs current.width.toNat).getD first
          changeFrom current previous todo (y + 1) (some (ChangeBox.widen box first last y))

/-- The changed region of `current`, grown by `padding`: the whole frame without a previous one,
the empty rectangle without a difference. -/
def change (current : Frame) (previous : Option Frame) (padding : UInt32) : Except StreamError Rect :=
  match previous with
  | none => .ok current.bounds
  | some previous =>
    if current.width ≠ previous.width ∨ current.height ≠ previous.height then
      .error (.dimensionMismatch (current.width, current.height) (previous.width, previous.height))
    else if current.format ≠ previous.format then .error .pixelFormatMismatch
    else
      match changeFrom current previous current.height.toNat 0 none with
      | .error e => .error e
      | .ok none => .ok Rect.empty
      | .ok (some b) =>
        .ok ((Rect.ofEdges (UInt32.ofNat b.left) (UInt32.ofNat b.top)
          (UInt32.ofNat (b.right + 1)) (UInt32.ofNat (b.bottom + 1))).pad padding current.bounds)

end Frame
end Screencast
