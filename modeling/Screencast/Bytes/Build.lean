import Screencast.Error

/-!
# Building and cutting byte strings

`tabulate n f` is the byte string of `f 0` to `f (n - 1)`, and `build` is the same for a rule
that may refuse. `slice` and `byteAt` read with a range check: what lies outside is the error
`outOfBuffer`, never a default.
-/

namespace Screencast.Bytes

/-! ### Building -/

/-- The bytes `f 0` to `f (n - 1)`. -/
def tabulate (n : Nat) (f : Nat → UInt8) : ByteArray :=
  n.fold (fun i _ acc => acc.push (f i)) (ByteArray.emptyWithCapacity n)

theorem data_fold_push (f : Nat → UInt8) (n : Nat) (b : ByteArray) :
    (n.fold (fun i _ acc => ByteArray.push acc (f i)) b).data.toList =
      b.data.toList ++ (List.range n).map f := by
  induction n with
  | zero => simp
  | succ n ih => simp [Nat.fold_succ, ByteArray.data_push, ih, List.range_succ]

theorem toList_tabulate (n : Nat) (f : Nat → UInt8) :
    (tabulate n f).data.toList = (List.range n).map f := by
  rw [tabulate, data_fold_push]
  rfl

theorem size_tabulate (n : Nat) (f : Nat → UInt8) : (tabulate n f).size = n := by
  have h := congrArg List.length (toList_tabulate n f)
  rwa [List.length_map, List.length_range, Array.length_toList] at h

theorem getElem_tabulate (n : Nat) (f : Nat → UInt8) (i : Nat) (h : i < (tabulate n f).size) :
    (tabulate n f)[i] = f i := by
  have hi : i < n := by rwa [size_tabulate] at h
  rw [ByteArray.getElem_eq_getElem_data, ← Array.getElem_toList]
  simp only [toList_tabulate, List.getElem_map, List.getElem_range]

/-- Steps `i` to `i + todo - 1` of `build`. -/
def buildFrom {ε : Type} (f : Nat → Except ε UInt8) : (todo i : Nat) → ByteArray → Except ε ByteArray
  | 0, _, acc => .ok acc
  | todo + 1, i, acc =>
    match f i with
    | .error e => .error e
    | .ok b => buildFrom f todo (i + 1) (acc.push b)

/-- The bytes `f 0` to `f (n - 1)`, or the first refusal. -/
def build {ε : Type} (n : Nat) (f : Nat → Except ε UInt8) : Except ε ByteArray :=
  buildFrom f n 0 (ByteArray.emptyWithCapacity n)

theorem buildFrom_ok {ε : Type} {f : Nat → Except ε UInt8} {g : Nat → UInt8} :
    ∀ (todo i : Nat) (acc : ByteArray), (∀ j, i ≤ j → j < i + todo → f j = .ok (g j)) →
      ∃ b, buildFrom f todo i acc = .ok b ∧
        b.data.toList = acc.data.toList ++ (List.range' i todo).map g
  | 0, i, acc, _ => ⟨acc, rfl, by simp⟩
  | todo + 1, i, acc, h => by
    obtain ⟨b, hb, hl⟩ := buildFrom_ok todo (i + 1) (acc.push (g i))
      (fun j hj hlt => h j (by omega) (by omega))
    refine ⟨b, by simp only [buildFrom, h i (Nat.le_refl i) (by omega), hb], ?_⟩
    simp [hl, ByteArray.data_push, List.range'_succ]

/-- A rule that never refuses builds its table. -/
theorem build_ok {ε : Type} {n : Nat} {f : Nat → Except ε UInt8} {g : Nat → UInt8}
    (h : ∀ i, i < n → f i = .ok (g i)) : build n f = .ok (tabulate n g) := by
  obtain ⟨b, hb, hl⟩ := buildFrom_ok n 0 (ByteArray.emptyWithCapacity n)
    (fun j _ hlt => h j (by omega))
  rw [build, hb]
  congr 1
  apply ByteArray.ext
  apply Array.toList_inj.mp
  rw [hl, toList_tabulate, List.range_eq_range']
  rfl

def replicate (n : Nat) (b : UInt8) : ByteArray := tabulate n fun _ => b

/-! ### Cutting -/

/-- The byte at `i`, if there is one. -/
def get? (b : ByteArray) (i : Nat) : Option UInt8 := if h : i < b.size then some b[i] else none

/-- The byte at `i`, zero beyond the end. -/
def getOrZero (b : ByteArray) (i : Nat) : UInt8 := if h : i < b.size then b[i] else 0

/-- All bytes from `i` on, `todo` many, have the value. -/
def allFrom (b : ByteArray) (byte : UInt8) : (todo i : Nat) → Bool
  | 0, _ => true
  | todo + 1, i => getOrZero b i == byte && allFrom b byte todo (i + 1)

def byteAt (b : ByteArray) (i : Nat) : Except StreamError UInt8 :=
  if h : i < b.size then .ok b[i] else .error .outOfBuffer

def slice (b : ByteArray) (start len : Nat) : Except StreamError ByteArray :=
  if start + len ≤ b.size then .ok (b.extract start (start + len)) else .error .outOfBuffer

/-- The byte string with `patch` written over it from `start` on. -/
def overwrite (b : ByteArray) (start : Nat) (patch : ByteArray) : Except StreamError ByteArray :=
  if start + patch.size ≤ b.size then .ok (patch.copySlice 0 b start patch.size)
  else .error .outOfBuffer

theorem slice_ok {b : ByteArray} {start len : Nat} (h : start + len ≤ b.size) :
    slice b start len = .ok (b.extract start (start + len)) := if_pos h

theorem byteAt_ok {b : ByteArray} {i : Nat} (h : i < b.size) : byteAt b i = .ok b[i] := dif_pos h

end Screencast.Bytes
