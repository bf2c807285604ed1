import Screencast.Bytes.Build
import Screencast.Bytes.Cursor

/-!
# Byte strings

Bytes by their place, pieces in a row, and cursors by what is still to be read.
-/

namespace Screencast

instance lawfulBEqBytes : LawfulBEq ByteArray where
  eq_of_beq {a b} h := by
    rw [ByteArray.ext_iff]
    exact beq_iff_eq.mp (show (a.data == b.data) = true from h)
  rfl {a} := show (a.data == a.data) = true from beq_self_eq_true a.data

namespace Bytes

theorem getOrZero_of_lt {b : ByteArray} {i : Nat} (h : i < b.size) : getOrZero b i = b[i] := dif_pos h

theorem getOrZero_tabulate {n i : Nat} (f : Nat → UInt8) (h : i < n) : getOrZero (tabulate n f) i = f i := by
  have hi : i < (tabulate n f).size := by
    rw [size_tabulate]
    exact h
  rw [getOrZero_of_lt hi, getElem_tabulate]

theorem tabulate_congr {n : Nat} {f g : Nat → UInt8} (h : ∀ i, i < n → f i = g i) : tabulate n f = tabulate n g := by
  refine ByteArray.ext_getElem ?_ fun i hi hi' => ?_
  · rw [size_tabulate, size_tabulate]
  · rw [getElem_tabulate, getElem_tabulate]
    exact h i (by rwa [size_tabulate] at hi)

theorem getOrZero_extract {b : ByteArray} {start stop i : Nat} (h : start + i < stop) (hs : stop ≤ b.size) :
    getOrZero (b.extract start stop) i = getOrZero b (start + i) := by
  have hi : i < (b.extract start stop).size := by
    rw [ByteArray.size_extract, Nat.min_eq_left hs]
    omega
  rw [getOrZero_of_lt hi, ByteArray.getElem_extract, getOrZero_of_lt (by omega)]

theorem ext_getOrZero {a b : ByteArray} (hs : a.size = b.size) (h : ∀ i, i < a.size → getOrZero a i = getOrZero b i) :
    a = b := by
  refine ByteArray.ext_getElem hs fun i hi hi' => ?_
  have hbyte := h i hi
  rwa [getOrZero_of_lt hi, getOrZero_of_lt hi'] at hbyte

theorem getOrZero_append_left {a b : ByteArray} {i : Nat} (h : i < a.size) : getOrZero (a ++ b) i = getOrZero a i := by
  have hi : i < (a ++ b).size := by
    rw [ByteArray.size_append]
    omega
  rw [getOrZero_of_lt hi, getOrZero_of_lt h, ByteArray.getElem_append_left h]

theorem getOrZero_append_right {a b : ByteArray} {i : Nat} (h : i < b.size) :
    getOrZero (a ++ b) (a.size + i) = getOrZero b i := by
  have hi : a.size + i < (a ++ b).size := by
    rw [ByteArray.size_append]
    omega
  have hle : a.size ≤ a.size + i := Nat.le_add_right _ _
  rw [getOrZero_of_lt hi, getOrZero_of_lt h, ByteArray.getElem_append_right hle]
  simp only [Nat.add_sub_cancel_left]

theorem getOrZero_append (a b : ByteArray) (i : Nat) :
    getOrZero (a ++ b) i = if i < a.size then getOrZero a i else getOrZero b (i - a.size) := by
  split
  · rename_i hlt
    exact getOrZero_append_left hlt
  · rename_i hge
    obtain ⟨k, rfl⟩ := Nat.exists_eq_add_of_le (Nat.not_lt.mp hge)
    rw [Nat.add_sub_cancel_left]
    by_cases hk : k < b.size
    · exact getOrZero_append_right hk
    · have hout : ¬a.size + k < (a ++ b).size := by
        rw [ByteArray.size_append]
        omega
      rw [getOrZero, dif_neg hout, getOrZero, dif_neg hk]

/-- A patch stands where it was written, and all other bytes stay. -/
theorem overwrite_ok {b patch : ByteArray} {start : Nat} (h : start + patch.size ≤ b.size) :
    ∃ after, overwrite b start patch = .ok after ∧ after.size = b.size ∧
      (∀ i, i < patch.size → getOrZero after (start + i) = getOrZero patch i) ∧
      ∀ i, i < b.size → i < start ∨ start + patch.size ≤ i → getOrZero after i = getOrZero b i := by
  have hcopy : patch.copySlice 0 b start patch.size =
      b.extract 0 start ++ patch ++ b.extract (start + patch.size) b.size := by
    rw [ByteArray.copySlice_eq_append, Nat.zero_add, ByteArray.extract_zero_size]
    simp only [ByteArray.size_data, Nat.sub_zero, Nat.min_self]
  have hhead : (b.extract 0 start).size = start := by
    rw [ByteArray.size_extract]
    omega
  have hmid : (b.extract 0 start ++ patch).size = start + patch.size := by
    rw [ByteArray.size_append, hhead]
  have htail : (b.extract (start + patch.size) b.size).size = b.size - (start + patch.size) := by
    rw [ByteArray.size_extract, Nat.min_self]
  refine ⟨_, if_pos h, ?_, fun i hi => ?_, fun i hi hout => ?_⟩
  · rw [hcopy, ByteArray.size_append, hmid, htail]
    omega
  · have hright := getOrZero_append_right (a := b.extract 0 start) hi
    rw [hhead] at hright
    rw [hcopy, getOrZero_append_left (by omega), hright]
  · rw [hcopy]
    rcases hout with hlt | hge
    · rw [getOrZero_append_left (by omega), getOrZero_append_left (by omega), getOrZero_extract (by omega) (by omega),
        Nat.zero_add]
    · obtain ⟨k, rfl⟩ := Nat.exists_eq_add_of_le hge
      have hright := getOrZero_append_right (a := b.extract 0 start ++ patch)
        (b := b.extract (start + patch.size) b.size) (i := k) (by omega)
      rw [hmid] at hright
      rw [hright, getOrZero_extract (by omega) (Nat.le_refl _)]

theorem getOrZero_of_allFrom {b : ByteArray} {byte : UInt8} {todo start i : Nat}
    (h : allFrom b byte todo start = true) (hs : start ≤ i) (hi : i < start + todo) : getOrZero b i = byte := by
  induction todo generalizing start with
  | zero => omega
  | succ todo ih =>
    rw [allFrom, Bool.and_eq_true, beq_iff_eq] at h
    rcases Nat.eq_or_lt_of_le hs with rfl | hlt
    · exact h.1
    · exact ih h.2 hlt (by omega)

/-- A byte string of one value is told by its size. -/
theorem replicate_of_allFrom {b : ByteArray} {byte : UInt8} (h : allFrom b byte b.size 0 = true) :
    replicate b.size byte = b := by
  unfold replicate
  refine ByteArray.ext_getElem (size_tabulate _ _) fun i hi hi' => ?_
  rw [getElem_tabulate, ← getOrZero_of_lt hi']
  exact (getOrZero_of_allFrom h (Nat.zero_le i) (by omega)).symm

/-! ### Pieces in a row -/

def joined (pieces : List ByteArray) : ByteArray := pieces.foldr (fun b r => b ++ r) ByteArray.empty

theorem foldl_append_eq {α : Type} (g : α → ByteArray) (l : List α) (start : ByteArray) :
    l.foldl (fun acc x => acc ++ g x) start = start ++ joined (l.map g) := by
  induction l generalizing start with
  | nil => exact ByteArray.append_empty.symm
  | cons x l ih =>
    rw [List.foldl_cons, ih, ByteArray.append_assoc]
    rfl

theorem joined_append (a b : List ByteArray) : joined (a ++ b) = joined a ++ joined b := by
  induction a with
  | nil => exact ByteArray.empty_append.symm
  | cons x a ih =>
    show x ++ joined (a ++ b) = x ++ joined a ++ joined b
    rw [ih, ByteArray.append_assoc]

theorem size_joined (l : List ByteArray) : (joined l).size = (l.map ByteArray.size).sum := by
  induction l with
  | nil => rfl
  | cons b l ih =>
    show (b ++ joined l).size = _
    rw [ByteArray.size_append, ih, List.map_cons, List.sum_cons]

end Bytes

namespace Cursor

/-- What is still to be read. -/
def IsAt (c : Cursor) (r : ByteArray) : Prop := c.pos ≤ c.bytes.size ∧ c.rest = r

theorem isAt_start (b : ByteArray) : (start b).IsAt b := ⟨Nat.zero_le _, rest_start b⟩

theorem IsAt.size_le {c : Cursor} {r : ByteArray} (h : c.IsAt r) : r.size ≤ c.bytes.size := by
  rw [← h.2, rest, ByteArray.size_extract]
  omega

theorem IsAt.pos_eq {c : Cursor} (h : c.IsAt ByteArray.empty) : c.pos = c.bytes.size := by
  obtain ⟨hpos, hrest⟩ := h
  have hsize := congrArg ByteArray.size hrest
  rw [rest, ByteArray.size_extract, ByteArray.size_empty] at hsize
  omega

theorem IsAt.take {c : Cursor} {b r : ByteArray} (h : c.IsAt (b ++ r)) {n : Nat} (hn : b.size = n) :
    ∃ after, c.take n = some (b, after) ∧ after.IsAt r ∧ after.bytes = c.bytes := by
  obtain ⟨hpos, hrest⟩ := h
  have hsize := congrArg ByteArray.size hrest
  rw [rest, ByteArray.size_extract, ByteArray.size_append] at hsize
  have hle : c.pos + n ≤ c.bytes.size := by omega
  have htake : c.take n = some (c.bytes.extract c.pos (c.pos + n), ⟨c.bytes, c.pos + n⟩) := if_pos hle
  obtain ⟨hsplit, hlen⟩ := take_eq_some htake
  rw [hrest] at hsplit
  have hb : b = c.bytes.extract c.pos (c.pos + n) := ByteArray.append_inj_left hsplit (hn.trans hlen.symm)
  rw [← hb] at hsplit htake
  exact ⟨_, htake, ⟨hle, ((ByteArray.append_right_inj b).mp hsplit).symm⟩, rfl⟩

end Cursor
end Screencast
