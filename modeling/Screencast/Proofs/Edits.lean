import Screencast.Proofs.Turns

/-!
# Edits in place

A piece of a byte string is cut out with a range check, changed, and put back where it was. An edit of equally
spaced pieces, one after the other, is told by the bytes it ends with: those of the pieces are new, and all
others stay. The rows of a frame are such pieces, and so are the pixels of a row.
-/

namespace Screencast

namespace Bytes

/-- The byte string with its byte at `i` replaced. -/
def put (b : ByteArray) (i : Nat) (byte : UInt8) : Except StreamError ByteArray :=
  if h : i < b.size then .ok (b.set i byte h) else .error .outOfBuffer

/-- The byte string with its `len` bytes from `start` on changed; what they are changed to is as long. -/
def editAt (start len : Nat) (edit : ByteArray → Except StreamError ByteArray) (b : ByteArray) :
    Except StreamError ByteArray :=
  match slice b start len with
  | .error e => .error e
  | .ok piece =>
    match edit piece with
    | .error e => .error e
    | .ok new => if new.size = len then overwrite b start new else .error .outOfBuffer

/-- The pieces `i` to `i + todo - 1` changed one after the other, each `len` bytes at every `pitch` bytes. -/
def editEach (pitch len : Nat) (edit : Nat → ByteArray → Except StreamError ByteArray) :
    (todo i : Nat) → ByteArray → Except StreamError ByteArray
  | 0, _, b => .ok b
  | todo + 1, i, b =>
    match editAt (i * pitch) len (edit i) b with
    | .error e => .error e
    | .ok after => editEach pitch len edit todo (i + 1) after

variable {b : ByteArray} {new : Nat → UInt8} {start len pitch : Nat}

theorem tabulate_getOrZero (b : ByteArray) : tabulate b.size (getOrZero b) = b :=
  ext_getOrZero (size_tabulate _ _) fun i hi => getOrZero_tabulate _ (by rwa [size_tabulate] at hi)

theorem size_of_overwrite {patch after : ByteArray} (h : overwrite b start patch = .ok after) :
    after.size = b.size := by
  by_cases hend : start + patch.size ≤ b.size
  · obtain ⟨after', hafter, hsize, -⟩ := overwrite_ok hend
    rw [hafter] at h
    cases h
    exact hsize
  · simp [overwrite, hend] at h

theorem size_of_editAt {edit : ByteArray → Except StreamError ByteArray} {after : ByteArray}
    (h : editAt start len edit b = .ok after) : after.size = b.size := by
  unfold editAt at h
  split at h
  · cases h
  · split at h
    · cases h
    · split at h
      · exact size_of_overwrite h
      · cases h

theorem editAt_eq (new : Nat → UInt8) {edit : ByteArray → Except StreamError ByteArray} (hend : start + len ≤ b.size)
    (hedit : edit (b.extract start (start + len)) = .ok (tabulate len fun k => new (start + k)))
    (hkeep : ∀ i, i < b.size → i < start ∨ start + len ≤ i → new i = getOrZero b i) :
    editAt start len edit b = .ok (tabulate b.size new) := by
  have hsize : (tabulate len fun k => new (start + k)).size = len := size_tabulate _ _
  have hfits : start + (tabulate len fun k => new (start + k)).size ≤ b.size := by omega
  obtain ⟨after, hafter, hlen, hin, hout⟩ := overwrite_ok hfits
  unfold editAt
  simp only [slice_ok hend, hedit, hsize, if_true, hafter]
  congr 1
  refine ext_getOrZero (by rw [hlen, size_tabulate]) fun i hi => ?_
  rw [hlen] at hi
  rw [getOrZero_tabulate _ hi]
  by_cases hpiece : start ≤ i ∧ i < start + len
  · obtain ⟨k, rfl⟩ := Nat.exists_eq_add_of_le hpiece.1
    rw [hin k (by omega), getOrZero_tabulate _ (by omega)]
  · rw [hout i hi (by omega), hkeep i hi (by omega)]

/-- A byte of the piece `i` is of no other piece. -/
theorem piece_lt {i j k : Nat} (hlen : len ≤ pitch) (hk : k < len) (h : i < j) : i * pitch + k < j * pitch := by
  have hrows : (i + 1) * pitch ≤ j * pitch := Nat.mul_le_mul_right _ h
  rw [Nat.add_mul, Nat.one_mul] at hrows
  omega

theorem editEach_eq {edit : Nat → ByteArray → Except StreamError ByteArray} {todo i : Nat} (hlen : len ≤ pitch)
    (hend : ∀ j, i ≤ j → j < i + todo → j * pitch + len ≤ b.size)
    (hedit : ∀ j, i ≤ j → j < i + todo →
      edit j (b.extract (j * pitch) (j * pitch + len)) = .ok (tabulate len fun k => new (j * pitch + k)))
    (hkeep : ∀ n, n < b.size → (∀ j k, i ≤ j → j < i + todo → k < len → j * pitch + k ≠ n) → new n = getOrZero b n) :
    editEach pitch len edit todo i b = .ok (tabulate b.size new) := by
  -- On the pieces still to be changed; those that have been already hold their new bytes.
  induction todo generalizing i b with
  | zero =>
    have hsame : tabulate b.size new = b := by
      rw [tabulate_congr fun n hn => hkeep n hn fun j k hj hj' => by omega, tabulate_getOrZero]
    rw [editEach, hsame]
  | succ todo ih =>
    have hpiece := hend i (Nat.le_refl i) (by omega)
    generalize hmid : tabulate b.size
      (fun n => if i * pitch ≤ n ∧ n < i * pitch + len then new n else getOrZero b n) = mid
    have hsize : mid.size = b.size := by rw [← hmid, size_tabulate]
    have hbyte {n : Nat} (hn : n < b.size) :
        getOrZero mid n = if i * pitch ≤ n ∧ n < i * pitch + len then new n else getOrZero b n := by
      rw [← hmid, getOrZero_tabulate _ hn]
    have hfirst : editAt (i * pitch) len (edit i) b = .ok mid := by
      rw [← hmid]
      refine editAt_eq _ hpiece ?_ fun n hn hout => if_neg (by omega)
      rw [hedit i (Nat.le_refl i) (by omega)]
      exact congrArg Except.ok (tabulate_congr fun k hk => (if_pos (by omega)).symm)
    rw [editEach, hfirst, ← hsize]
    refine ih (fun j hj hj' => ?_) (fun j hj hj' => ?_) fun n hn hout => ?_
    · rw [hsize]
      exact hend j (by omega) (by omega)
    · have hjend := hend j (by omega) (by omega)
      rw [← hedit j (by omega) (by omega)]
      congr 1
      refine ext_getOrZero (by simp only [ByteArray.size_extract, hsize]) fun k hk => ?_
      rw [ByteArray.size_extract] at hk
      have hlater := piece_lt (i := i) (j := j) (k := len - 1) hlen (by omega) (by omega)
      rw [getOrZero_extract (by omega) (by omega), getOrZero_extract (by omega) (by omega), hbyte (by omega),
        if_neg (by omega)]
    · rw [hsize] at hn
      rw [hbyte hn]
      split
      · rfl
      · rename_i hfar
        refine hkeep n hn fun j k hj hj' hk heq => ?_
        rcases Nat.eq_or_lt_of_le hj with rfl | hlt
        · omega
        · exact hout j k hlt (by omega) hk heq

/-- Pieces that follow each other without a gap leave no byte as it was. -/
theorem editEach_all {edit : Nat → ByteArray → Except StreamError ByteArray} {todo : Nat} (hlen : 0 < len)
    (hsize : b.size = todo * len) (hedit : ∀ j, j < todo →
      edit j (b.extract (j * len) (j * len + len)) = .ok (tabulate len fun k => new (j * len + k))) :
    editEach len len edit todo 0 b = .ok (tabulate b.size new) := by
  refine editEach_eq (Nat.le_refl len) (fun j _ hj => ?_) (fun j _ hj => hedit j (by omega)) fun n hn hout => ?_
  · have hend : (j + 1) * len ≤ todo * len := Nat.mul_le_mul_right _ (by omega)
    rw [Nat.add_mul, Nat.one_mul] at hend
    omega
  · have hpiece : n / len < todo := Nat.div_lt_of_lt_mul (by rwa [Nat.mul_comm, ← hsize])
    exact absurd (Nat.div_add_mod' n len) (hout _ _ (Nat.zero_le _) (by omega) (Nat.mod_lt n hlen))

end Bytes

namespace Frame

variable {f g : Frame} {y : Nat}

/-- The pixel bytes of the rows `y` to `y + todo - 1` changed one after the other. -/
def editRows (f : Frame) (edit : Nat → ByteArray → Except StreamError ByteArray) (todo y : Nat) :
    Except StreamError Frame :=
  match Bytes.editEach f.stride.toNat f.rowSize edit todo y f.data with
  | .error e => .error e
  | .ok data => .ok { f with data := data }

/-- The frame with other pixel bytes for one row. -/
def setRow (f : Frame) (y : Nat) (bytes : ByteArray) : Except StreamError Frame :=
  match Bytes.editAt (y * f.stride.toNat) f.rowSize (fun _ => .ok bytes) f.data with
  | .error e => .error e
  | .ok data => .ok { f with data := data }

theorem sameLayout_of_size {data : ByteArray} (h : data.size = f.data.size) :
    ({ f with data := data } : Frame).SameLayout f := ⟨rfl, rfl, rfl, rfl, h⟩

theorem sameLayout_of_setRow {bytes : ByteArray} (h : f.setRow y bytes = .ok g) : g.SameLayout f := by
  unfold setRow at h
  split at h
  · cases h
  · rename_i data hdata
    cases h
    exact sameLayout_of_size (Bytes.size_of_editAt hdata)

theorem editRows_eq {edit : Nat → ByteArray → Except StreamError ByteArray} {todo : Nat} (new : Nat → UInt8)
    (hf : f.WellFormed) (hy : y + todo ≤ f.height.toNat)
    (hedit : ∀ v, y ≤ v → v < y + todo → edit v (f.data.extract (v * f.stride.toNat) (v * f.stride.toNat + f.rowSize)) =
      .ok (Bytes.tabulate f.rowSize fun k => new (v * f.stride.toNat + k)))
    (hkeep : ∀ n, n < f.data.size → (∀ v k, y ≤ v → v < y + todo → k < f.rowSize → v * f.stride.toNat + k ≠ n) →
      new n = Bytes.getOrZero f.data n) :
    f.editRows edit todo y = .ok { f with data := Bytes.tabulate f.data.size new } := by
  have hrows : ∀ v, y ≤ v → v < y + todo → v * f.stride.toNat + f.rowSize ≤ f.data.size :=
    fun v _ hv => row_end_le hf (by omega)
  unfold editRows
  rw [Bytes.editEach_eq hf.1 hrows hedit hkeep]

end Frame
end Screencast
