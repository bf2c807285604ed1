import Screencast.Proofs.Bytes
import Screencast.Wire.Record

/-!
# Records are read back as they were written

A reader that `Reads` a value from some bytes takes exactly these bytes off, whatever follows. What is
read in a row is written in a row, so each record needs one line for each of its fields. Lengths are
written in eight bytes; a record that is shorter than they can tell is read back.
-/

namespace Screencast

/-! ### Diagnostics -/

namespace Diagnostics

/-- An entry behind all others goes to the end. -/
theorem insertInto_of_lt {name text : String} {l : List (String × String)} (h : ∀ e ∈ l, e.1 < name) :
    insertInto name text l = l ++ [(name, text)] := by
  induction l with
  | nil => rfl
  | cons e rest ih =>
    have he := h e List.mem_cons_self
    have hnot : ¬name < e.1 := fun hlt => String.lt_irrefl _ (String.lt_trans he hlt)
    have hne : name ≠ e.1 := fun heq => String.lt_irrefl _ (heq ▸ he)
    rw [insertInto, if_neg hnot, if_neg hne, ih fun x hx => h x (List.mem_cons_of_mem e hx), List.cons_append]

theorem entries_foldl_insert {l : List (String × String)} {d : Diagnostics}
    (h : (d.entries ++ l).Pairwise fun a b => a.1 < b.1) :
    (l.foldl (fun d e => d.insert e.1 e.2) d).entries = d.entries ++ l := by
  induction l generalizing d with
  | nil => exact (List.append_nil _).symm
  | cons e rest ih =>
    have hbefore : ∀ x ∈ d.entries, x.1 < e.1 :=
      fun x hx => (List.pairwise_append.mp h).2.2 x hx e List.mem_cons_self
    have hinsert : (d.insert e.1 e.2).entries = d.entries ++ [e] := insertInto_of_lt hbefore
    rw [List.append_cons] at h
    rw [List.foldl_cons, ih (hinsert ▸ h), hinsert, List.append_assoc]
    rfl

/-- Diagnostics are made of their entries. -/
theorem ofList_entries (d : Diagnostics) : ofList d.entries = d := by
  have h : (ofList d.entries).entries = d.entries := entries_foldl_insert (d := empty) d.sorted
  cases hd : ofList d.entries
  cases d
  simp only [hd] at h
  subst h
  rfl

end Diagnostics

namespace Record

variable {α β : Type} {b b' : ByteArray}

/-- The reader takes `b` off, whatever follows it, and gives `a`. -/
def Reads (read : Reader α) (b : ByteArray) (a : α) : Prop :=
  ∀ (c : Cursor) (r : ByteArray), c.IsAt (b ++ r) → ∃ after, read c = .ok (a, after) ∧ after.IsAt r

namespace Reads

theorem pure (a : α) : Reads (pure a) ByteArray.empty a := by
  intro c r h
  rw [ByteArray.empty_append] at h
  exact ⟨c, rfl, h⟩

theorem bind {read : Reader α} {f : α → Reader β} {a : α} {a' : β} (h : Reads read b a) (h' : Reads (f a) b' a') :
    Reads (read >>= f) (b ++ b') a' := by
  intro c r hc
  rw [ByteArray.append_assoc] at hc
  obtain ⟨mid, hread, hmid⟩ := h c _ hc
  obtain ⟨after, hnext, hafter⟩ := h' mid r hmid
  refine ⟨after, ?_, hafter⟩
  show (read c).bind (fun p => f p.1 p.2) = _
  rw [hread]
  exact hnext

/-- What is read last decides, with nothing more to read. -/
theorem bind_empty {read : Reader α} {f : α → Reader β} {a : α} {a' : β} (h : Reads read b a)
    (h' : Reads (f a) ByteArray.empty a') : Reads (read >>= f) b a' := by
  have hboth := h.bind h'
  rwa [ByteArray.append_empty] at hboth

theorem last {read : Reader α} {a : α} (h : Reads read b a) (f : α → β) :
    Reads (read >>= fun a => Pure.pure (f a)) b (f a) :=
  h.bind_empty (pure (f a))

theorem run_append {read : Reader α} {a : α} (h : Reads read b a) (t : ByteArray) : run read (b ++ t) = .ok a := by
  obtain ⟨after, hread, -⟩ := h _ _ (Cursor.isAt_start (b ++ t))
  unfold run
  rw [hread]
  rfl

end Reads

theorem reads_bytes (b : ByteArray) (fault : PayloadFault) : Reads (bytes b.size fault) b b := by
  intro c r hc
  obtain ⟨after, htake, hafter, -⟩ := hc.take (n := b.size) rfl
  refine ⟨after, ?_, hafter⟩
  unfold bytes
  rw [htake]

/-! ### Numbers and flags -/

theorem size_writeNumber (width n : Nat) : (writeNumber width n).size = width := LittleEndian.size_encode width n

theorem reads_number {w n : Nat} (hn : n < 256 ^ w) : Reads (readNumber w) (writeNumber w n) n := by
  have h := (reads_bytes (writeNumber w n) .cutNumber).last LittleEndian.decode
  rw [size_writeNumber, writeNumber, LittleEndian.decode_encode, Nat.mod_eq_of_lt hn] at h
  exact h

/-- What is made of a number is read back if the number tells it. -/
theorem reads_made {w n : Nat} (hn : n < 256 ^ w) {make : Nat → α} {a : α} (h : make n = a) :
    Reads (readNumber w >>= fun k => Pure.pure (make k)) (writeNumber w n) a :=
  h ▸ (reads_number hn).last make

theorem reads_word8 (n : UInt8) : Reads readWord8 (writeWord8 n) n := reads_made n.toNat_lt UInt8.ofNat_toNat

theorem reads_word32 (n : UInt32) : Reads readWord32 (writeWord32 n) n := reads_made n.toNat_lt UInt32.ofNat_toNat

theorem reads_int32 (n : Int32) : Reads readInt32 (writeInt32 n) n :=
  reads_made n.toUInt32.toNat_lt (congrArg UInt32.toInt32 UInt32.ofNat_toNat)

theorem reads_double (x : Binary64) : Reads readDouble (writeDouble x) x :=
  reads_made x.bits.toNat_lt (congrArg Binary64.mk UInt64.ofNat_toNat)

theorem reads_flag (f : Bool) : Reads readFlag (writeFlag f) f := by
  have hn : (if f then 1 else 0) < 256 ^ 1 := by cases f <;> decide
  refine (reads_number hn).bind_empty ?_
  cases f
  · exact .pure false
  · exact .pure true

/-! ### Texts, data and lists -/

theorem size_writeText (s : String) : (writeText s).size = 8 + s.toUTF8.size := by
  rw [writeText, ByteArray.size_append, size_writeNumber]

theorem fromUTF8_toUTF8 (s : String) : String.fromUTF8? s.toUTF8 = some s := by
  simp only [String.fromUTF8?, String.toUTF8_eq_toByteArray, dif_pos s.isValidUTF8]
  rfl

theorem toUTF8_of_fromUTF8? {b : ByteArray} {s : String} (h : String.fromUTF8? b = some s) : s.toUTF8 = b := by
  unfold String.fromUTF8? at h
  split at h
  · cases h
    rfl
  · cases h

/-- The length of the text can be told in eight bytes. -/
def TextFits (s : String) : Prop := s.toUTF8.size < 2 ^ 64

theorem textFits_of_size {s : String} (h : (writeText s).size < 2 ^ 64) : TextFits s := by
  rw [size_writeText] at h
  exact Nat.lt_of_le_of_lt (Nat.le_add_left _ 8) h

theorem reads_text {s : String} (h : TextFits s) : Reads readText (writeText s) s := by
  refine (reads_number (w := 8) h).bind ((reads_bytes s.toUTF8 .cutText).bind_empty ?_)
  rw [fromUTF8_toUTF8]
  exact .pure s

theorem size_writeData (d : ByteArray) : (writeData d).size = 8 + d.size := by
  rw [writeData, ByteArray.size_append, size_writeNumber]

theorem reads_data {d : ByteArray} (h : d.size < 2 ^ 64) : Reads readData (writeData d) d :=
  (reads_number (w := 8) h).bind (reads_bytes d .cutNumber)

section

variable {write : α → ByteArray} {read : Reader α}

theorem reads_times {l : List α} (h : ∀ a ∈ l, Reads read (write a) a) :
    Reads (readTimes read l.length) (writeEach write l) l := by
  induction l with
  | nil => exact .pure []
  | cons a rest ih =>
    exact (h a List.mem_cons_self).bind ((ih fun x hx => h x (List.mem_cons_of_mem a hx)).last (a :: ·))

theorem size_le_writeEach (write : α → ByteArray) {l : List α} {a : α} (h : a ∈ l) :
    (write a).size ≤ (writeEach write l).size := by
  induction l with
  | nil => cases h
  | cons x rest ih =>
    rw [writeEach, ByteArray.size_append]
    rcases List.mem_cons.mp h with rfl | h
    · exact Nat.le_add_right _ _
    · exact Nat.le_trans (ih h) (Nat.le_add_left _ _)

theorem length_le_writeEach (h : ∀ a, 0 < (write a).size) (l : List α) : l.length ≤ (writeEach write l).size := by
  induction l with
  | nil => exact Nat.zero_le _
  | cons a rest ih =>
    have ha := h a
    rw [writeEach, ByteArray.size_append, List.length_cons]
    omega

/-- The length of the list can be told in eight bytes, and so can the lengths in its elements. -/
def ListFits (P : α → Prop) (l : List α) : Prop := l.length < 2 ^ 64 ∧ ∀ a ∈ l, P a

/-- Records that take space are no more than bytes. -/
theorem listFits_of_size {P : α → Prop} (hpos : ∀ a, 0 < (write a).size) (hfits : ∀ a, (write a).size < 2 ^ 64 → P a)
    {l : List α} (h : (writeList write l).size < 2 ^ 64) : ListFits P l := by
  unfold writeList at h
  rw [ByteArray.size_append] at h
  have hlength := length_le_writeEach hpos l
  refine ⟨by omega, fun a ha => hfits a ?_⟩
  have hle := size_le_writeEach write ha
  omega

theorem reads_list {P : α → Prop} (hread : ∀ a, P a → Reads read (write a) a) {l : List α} (h : ListFits P l) :
    Reads (readList read) (writeList write l) l :=
  (reads_number (w := 8) h.1).bind (reads_times fun a ha => hread a (h.2 a ha))

end

/-! ### The records of messages -/

theorem size_writeRegion (p : RegionPayload) : (writeRegion p).size = 25 + p.data.size := by
  simp only [writeRegion, writeWord32, writeFlag, ByteArray.size_append, size_writeNumber, size_writeData]
  omega

theorem reads_region {p : RegionPayload} (h : p.data.size < 2 ^ 64) : Reads readRegion (writeRegion p) p := by
  unfold writeRegion
  simp only [ByteArray.append_assoc]
  exact (reads_word32 p.x).bind <| (reads_word32 p.y).bind <| (reads_word32 p.width).bind <|
    (reads_word32 p.height).bind <| (reads_flag p.isKeyframe).bind <| (reads_data h).last _

def EntryFits (e : String × String) : Prop := TextFits e.1 ∧ TextFits e.2

theorem entryFits_of_size {e : String × String} (h : (writeEntry e).size < 2 ^ 64) : EntryFits e := by
  rw [writeEntry, ByteArray.size_append] at h
  exact ⟨textFits_of_size (by omega), textFits_of_size (by omega)⟩

theorem reads_entry {e : String × String} (h : EntryFits e) : Reads readEntry (writeEntry e) e :=
  (reads_text h.1).bind ((reads_text h.2).last _)

theorem size_writeEntry_pos (e : String × String) : 0 < (writeEntry e).size := by
  rw [writeEntry, ByteArray.size_append, size_writeText]
  omega

/-- A snapshot with its diagnostics in any order, as it may arrive. -/
def writeListed (s : Snapshot) (l : List (String × String)) : ByteArray :=
  writeDouble s.fps ++ writeDouble s.ips ++ writeDouble s.mbps ++ writeWord8 s.quality ++
    writeFlag s.isUsingGpu ++ writeFlag s.isQualityReduced ++ writeList writeEntry l

theorem reads_listed (s : Snapshot) {l : List (String × String)} (h : ListFits EntryFits l) :
    Reads readSnapshot (writeListed s l) { s with extra := .ofList l } := by
  unfold writeListed
  simp only [ByteArray.append_assoc]
  exact (reads_double s.fps).bind <| (reads_double s.ips).bind <| (reads_double s.mbps).bind <|
    (reads_word8 s.quality).bind <| (reads_flag s.isUsingGpu).bind <| (reads_flag s.isQualityReduced).bind <|
    (reads_list (fun _ => reads_entry) h).last _

theorem writeListed_entries (s : Snapshot) : writeListed s s.extra.entries = writeSnapshot s := rfl

theorem reads_snapshot {s : Snapshot} (h : ListFits EntryFits s.extra.entries) :
    Reads readSnapshot (writeSnapshot s) s := by
  have hread := reads_listed s h
  rwa [Diagnostics.ofList_entries] at hread

theorem reads_area (a : Area) : Reads readArea (writeArea a) a := by
  unfold writeArea
  simp only [ByteArray.append_assoc]
  exact (reads_int32 a.left).bind <| (reads_int32 a.top).bind <| (reads_word32 a.width).bind <|
    (reads_word32 a.height).last _

theorem size_writeDisplay_pos (d : Display) : 0 < (writeDisplay d).size := by
  simp only [writeDisplay, ByteArray.size_append, size_writeText]
  omega

def DisplayFits (d : Display) : Prop := TextFits d.name ∧ TextFits d.label

theorem displayFits_of_size {d : Display} (h : (writeDisplay d).size < 2 ^ 64) : DisplayFits d := by
  simp only [writeDisplay, ByteArray.size_append] at h
  exact ⟨textFits_of_size (by omega), textFits_of_size (by omega)⟩

theorem reads_display {d : Display} (h : DisplayFits d) : Reads readDisplay (writeDisplay d) d := by
  unfold writeDisplay
  simp only [ByteArray.append_assoc]
  exact (reads_text h.1).bind <| (reads_text h.2).bind <| (reads_area d.area).bind <|
    (reads_flag d.isPrimary).bind <| (reads_double d.scale).last _

end Record
end Screencast
