import Mathlib.Algebra.Order.BigOperators.Group.List
import Mathlib.Algebra.Order.Ring.Nat
import Mathlib.Data.List.Perm.Subperm
import Screencast.Proofs.Transmission

/-!
# Bodies have one meaning

What a reader accepts it has read off the front, and these bytes are the ones written for the value; so a body
is no beginning of another, and none of its own beginnings is a body. Only diagnostics come in more than one
form: they are read in any order and with names given twice, and written in order, each name once, which takes
no more bytes.
-/

namespace Screencast

/-! ### Diagnostics in any order -/

namespace Diagnostics

theorem insertInto_subperm (name text : String) (l : List (String × String)) :
    (insertInto name text l).Subperm ((name, text) :: l) := by
  induction l with
  | nil => exact List.Subperm.refl _
  | cons e rest ih =>
    unfold insertInto
    split
    · exact List.Subperm.refl _
    · split
      · exact (List.subperm_cons _).mpr (List.sublist_cons_self e rest).subperm
      · exact ((List.subperm_cons e).mpr ih).trans (List.Perm.swap _ _ _).subperm

theorem ofList_subperm (l : List (String × String)) : (ofList l).entries.Subperm l := by
  have hfold (d : Diagnostics) : (l.foldl (fun d e => d.insert e.1 e.2) d).entries.Subperm (l ++ d.entries) := by
    induction l generalizing d with
    | nil => exact List.Subperm.refl _
    | cons e rest ih =>
      have hinsert : (d.insert e.1 e.2).entries.Subperm (e :: d.entries) := insertInto_subperm e.1 e.2 d.entries
      exact (ih _).trans (((List.subperm_append_left rest).mpr hinsert).trans List.perm_middle.subperm)
  have h := hfold empty
  rwa [show empty.entries = [] from rfl, List.append_nil] at h

end Diagnostics

namespace Record

variable {α β : Type} {read : Reader α} {write : α → ByteArray}

/-- What the reader accepts begins with bytes that stand in this relation to the value, and these are read off. -/
def Accepts (read : Reader α) (P : ByteArray → α → Prop) : Prop :=
  ∀ (c : Cursor) (r : ByteArray) (a : α) (after : Cursor), c.IsAt r → read c = .ok (a, after) →
    ∃ b rest, r = b ++ rest ∧ after.IsAt rest ∧ P b a

namespace Accepts

variable {P : ByteArray → α → Prop} {Q : ByteArray → β → Prop}

theorem pure {a : α} (h : P ByteArray.empty a) : Accepts (pure a) P := by
  intro c r a' after hc hread
  cases hread
  exact ⟨ByteArray.empty, r, ByteArray.empty_append.symm, hc, h⟩

theorem throw (fault : PayloadFault) : Accepts (throw fault) P := by
  intro c r a after hc hread
  cases hread

theorem bind {f : α → Reader β} (h : Accepts read P)
    (h' : ∀ b a, P b a → Accepts (f a) fun b' y => Q (b ++ b') y) : Accepts (read >>= f) Q := by
  intro c r y after hc hread
  have hread : (read c).bind (fun p => f p.1 p.2) = .ok (y, after) := hread
  cases hfirst : read c with
  | error fault =>
    rw [hfirst] at hread
    cases hread
  | ok p =>
    obtain ⟨a, mid⟩ := p
    rw [hfirst] at hread
    obtain ⟨b, r', rfl, hmid, ha⟩ := h c r a mid hc hfirst
    obtain ⟨b', rest, rfl, hafter, hy⟩ := h' b a ha mid r' y after hmid hread
    exact ⟨b ++ b', rest, ByteArray.append_assoc.symm, hafter, hy⟩

theorem last {f : α → β} (h : Accepts read P) (h' : ∀ b a, P b a → Q b (f a)) :
    Accepts (read >>= fun a => Pure.pure (f a)) Q :=
  h.bind fun b a ha => .pure <| by
    rw [ByteArray.append_empty]
    exact h' b a ha

theorem mono {P' : ByteArray → α → Prop} (h : Accepts read P) (h' : ∀ b a, P b a → P' b a) : Accepts read P' := by
  intro c r a after hc hread
  obtain ⟨b, rest, hr, hafter, ha⟩ := h c r a after hc hread
  exact ⟨b, rest, hr, hafter, h' b a ha⟩

theorem run {b : ByteArray} {a : α} (h : Accepts read P) (hrun : run read b = .ok a) :
    ∃ b' rest, b = b' ++ rest ∧ P b' a := by
  unfold Record.run at hrun
  cases hread : read (Cursor.start b) with
  | error fault =>
    rw [hread] at hrun
    cases hrun
  | ok p =>
    rw [hread] at hrun
    cases hrun
    obtain ⟨b', rest, hb, -, ha⟩ := h _ b p.1 p.2 (Cursor.isAt_start b) hread
    exact ⟨b', rest, hb, ha⟩

end Accepts

theorem accepts_bytes (n : Nat) (fault : PayloadFault) : Accepts (bytes n fault) fun b x => b = x ∧ x.size = n := by
  intro c r x after hc hread
  unfold bytes at hread
  cases htake : c.take n with
  | none =>
    rw [htake] at hread
    cases hread
  | some p =>
    rw [htake] at hread
    cases hread
    obtain ⟨hrest, hsize⟩ := Cursor.take_eq_some htake
    rw [hc.2] at hrest
    subst hrest
    obtain ⟨after', htake', hafter, -⟩ := hc.take hsize
    cases htake.symm.trans htake'
    exact ⟨x, _, rfl, hafter, rfl, hsize⟩

/-! ### Numbers and flags -/

theorem accepts_number (w : Nat) : Accepts (readNumber w) fun b n => b = writeNumber w n ∧ n < 256 ^ w := by
  refine (accepts_bytes w .cutNumber).last ?_
  rintro _ x ⟨rfl, rfl⟩
  exact ⟨(LittleEndian.encode_decode _).symm, LittleEndian.decode_lt _⟩

/-- What is made of a number is written as this number. -/
theorem accepts_made {w : Nat} {make : Nat → α} (h : ∀ n, n < 256 ^ w → writeNumber w n = write (make n)) :
    Accepts (readNumber w >>= fun n => Pure.pure (make n)) fun b a => b = write a := by
  refine (accepts_number w).last ?_
  rintro _ n ⟨rfl, hn⟩
  exact h n hn

theorem accepts_word8 : Accepts readWord8 fun b n => b = writeWord8 n :=
  accepts_made fun _ hn => by rw [writeWord8, UInt8.toNat_ofNat_of_lt' hn]

theorem accepts_word32 : Accepts readWord32 fun b n => b = writeWord32 n :=
  accepts_made fun _ hn => by rw [writeWord32, UInt32.toNat_ofNat_of_lt' hn]

theorem accepts_int32 : Accepts readInt32 fun b n => b = writeInt32 n :=
  accepts_made fun _ hn => by rw [writeInt32, UInt32.toUInt32_toInt32, UInt32.toNat_ofNat_of_lt' hn]

theorem accepts_double : Accepts readDouble fun b x => b = writeDouble x :=
  accepts_made fun _ hn => by rw [writeDouble, UInt64.toNat_ofNat_of_lt' hn]

theorem accepts_flag : Accepts readFlag fun b f => b = writeFlag f := by
  refine (accepts_number 1).bind ?_
  rintro _ n ⟨rfl, -⟩
  match n with
  | 0 => exact .pure ByteArray.append_empty
  | 1 => exact .pure ByteArray.append_empty
  | n + 2 => exact .throw _

/-! ### Texts, data and lists -/

theorem accepts_text : Accepts readText fun b s => b = writeText s ∧ TextFits s := by
  refine (accepts_number 8).bind ?_
  rintro _ n ⟨rfl, hn⟩
  refine (accepts_bytes n .cutText).bind ?_
  rintro _ b ⟨rfl, rfl⟩
  cases htext : String.fromUTF8? _ with
  | none => exact .throw _
  | some s =>
    obtain rfl := toUTF8_of_fromUTF8? htext
    refine .pure ⟨?_, hn⟩
    rw [ByteArray.append_empty, writeText]

theorem accepts_data : Accepts readData fun b d => b = writeData d ∧ d.size < 2 ^ 64 := by
  refine (accepts_number 8).bind ?_
  rintro _ n ⟨rfl, hn⟩
  refine (accepts_bytes n .cutNumber).mono ?_
  rintro _ d ⟨rfl, rfl⟩
  exact ⟨rfl, hn⟩

theorem accepts_times {P : α → Prop} (h : Accepts read fun b a => b = write a ∧ P a) (n : Nat) :
    Accepts (readTimes read n) fun b l => b = writeEach write l ∧ l.length = n ∧ ∀ a ∈ l, P a := by
  induction n with
  | zero => exact .pure ⟨rfl, rfl, nofun⟩
  | succ n ih =>
    refine h.bind ?_
    rintro _ a ⟨rfl, ha⟩
    refine ih.last ?_
    rintro _ l ⟨rfl, hlength, hl⟩
    exact ⟨rfl, congrArg (· + 1) hlength, List.forall_mem_cons.mpr ⟨ha, hl⟩⟩

theorem accepts_list {P : α → Prop} (h : Accepts read fun b a => b = write a ∧ P a) :
    Accepts (readList read) fun b l => b = writeList write l ∧ ListFits P l := by
  refine (accepts_number 8).bind ?_
  rintro _ n ⟨rfl, hn⟩
  refine (accepts_times h n).mono ?_
  rintro _ l ⟨rfl, rfl, hl⟩
  exact ⟨rfl, hn, hl⟩

/-! ### The records of messages -/

theorem accepts_region : Accepts readRegion fun b p => b = writeRegion p ∧ p.data.size < 2 ^ 64 := by
  refine accepts_word32.bind fun _ x hx => accepts_word32.bind fun _ y hy => accepts_word32.bind fun _ width hwidth =>
    accepts_word32.bind fun _ height hheight => accepts_flag.bind fun _ isKeyframe hflag => accepts_data.last ?_
  rintro _ data ⟨rfl, hdata⟩
  subst hx hy hwidth hheight hflag
  refine ⟨?_, hdata⟩
  simp only [writeRegion, ByteArray.append_assoc]

theorem accepts_entry : Accepts readEntry fun b e => b = writeEntry e ∧ EntryFits e := by
  refine accepts_text.bind ?_
  rintro _ name ⟨rfl, hname⟩
  refine accepts_text.last ?_
  rintro _ text ⟨rfl, htext⟩
  exact ⟨rfl, hname, htext⟩

theorem accepts_snapshot : Accepts readSnapshot fun b s =>
    ∃ l, b = writeListed s l ∧ ListFits EntryFits l ∧ s.extra = .ofList l := by
  refine accepts_double.bind fun _ fps hfps => accepts_double.bind fun _ ips hips =>
    accepts_double.bind fun _ mbps hmbps => accepts_word8.bind fun _ quality hquality =>
    accepts_flag.bind fun _ isUsingGpu hgpu => accepts_flag.bind fun _ isQualityReduced hreduced =>
    (accepts_list accepts_entry).last ?_
  rintro _ l ⟨rfl, hl⟩
  subst hfps hips hmbps hquality hgpu hreduced
  refine ⟨l, ?_, hl, rfl⟩
  simp only [writeListed, ByteArray.append_assoc]

theorem accepts_area : Accepts readArea fun b a => b = writeArea a := by
  refine accepts_int32.bind fun _ left hleft => accepts_int32.bind fun _ top htop =>
    accepts_word32.bind fun _ width hwidth => accepts_word32.last fun _ height hheight => ?_
  subst hleft htop hwidth hheight
  simp only [writeArea, ByteArray.append_assoc]

theorem accepts_display : Accepts readDisplay fun b d => b = writeDisplay d ∧ DisplayFits d := by
  refine accepts_text.bind fun _ name hname => accepts_text.bind fun _ label hlabel =>
    accepts_area.bind fun _ area harea => accepts_flag.bind fun _ isPrimary hflag =>
    accepts_double.last fun _ scale hscale => ?_
  obtain ⟨rfl, hname⟩ := hname
  obtain ⟨rfl, hlabel⟩ := hlabel
  subst harea hflag hscale
  refine ⟨?_, hname, hlabel⟩
  simp only [writeDisplay, ByteArray.append_assoc]

theorem size_writeEach (write : α → ByteArray) (l : List α) :
    (writeEach write l).size = (l.map fun a => (write a).size).sum := by
  induction l with
  | nil => rfl
  | cons a rest ih => rw [writeEach, ByteArray.size_append, ih, List.map_cons, List.sum_cons]

theorem size_writeEach_of_subperm {l l' : List α} (h : l.Subperm l') :
    (writeEach write l).size ≤ (writeEach write l').size := by
  obtain ⟨k, hperm, hsub⟩ := h
  rw [size_writeEach, size_writeEach, ← (hperm.map _).sum_eq]
  exact (hsub.map _).sum_le_sum fun _ _ => Nat.zero_le _

theorem ListFits.of_subperm {P : α → Prop} {l l' : List α} (hfits : ListFits P l') (h : l.Subperm l') :
    ListFits P l := by
  obtain ⟨hlength, hall⟩ := hfits
  exact ⟨Nat.lt_of_le_of_lt h.length_le hlength, fun a ha => hall a (h.subset ha)⟩

theorem size_writeListed (s : Snapshot) (l : List (String × String)) :
    (writeListed s l).size = 35 + (writeEach writeEntry l).size := by
  simp only [writeListed, writeDouble, writeWord8, writeFlag, writeList, ByteArray.size_append, size_writeNumber]
  omega

/-- Entries in order, each name once, take no more bytes than they came in. -/
theorem size_writeSnapshot_le {s : Snapshot} {l : List (String × String)} (h : s.extra = .ofList l) :
    (writeSnapshot s).size ≤ (writeListed s l).size := by
  have hentries : (writeEach writeEntry s.extra.entries).size ≤ (writeEach writeEntry l).size := by
    rw [h]
    exact size_writeEach_of_subperm (Diagnostics.ofList_subperm l)
  rw [← writeListed_entries, size_writeListed, size_writeListed]
  exact Nat.add_le_add_left hentries 35

end Record

namespace Message

open Record (Reads Accepts)

variable {α : Type} {read : Record.Reader α} {make : α → Message} {m : Message} {p : ByteArray}

/-- What is accepted as a record is a value of it. -/
theorem accepted_ofRecord {P : ByteArray → α → Prop} (h : Accepts read P) (hread : ofRecord read make p = .ok m) :
    ∃ b rest a, p = b ++ rest ∧ P b a ∧ make a = m := by
  unfold ofRecord at hread
  cases hrun : Record.run read p with
  | error fault =>
    rw [hrun] at hread
    cases hread
  | ok a =>
    rw [hrun] at hread
    obtain ⟨b, rest, hp, ha⟩ := h.run hrun
    cases hread
    exact ⟨b, rest, a, hp, ha, rfl⟩

/-- An accepted body begins with the body of its message, or is one whose diagnostics came in another form. -/
theorem accepted_cases {kind : MessageKind} (h : ofBody kind p = .ok m) : m.kind = kind ∧ m.LengthsFit ∧
    ((∃ t, p = m.body ++ t) ∨ ∃ s l t, kind = .metrics ∧ m = .metrics s ∧ p = Record.writeListed s l ++ t ∧
      Record.ListFits Record.EntryFits l ∧ s.extra = .ofList l) := by
  cases kind with
  | region =>
    obtain ⟨_, t, payload, rfl, ⟨rfl, hfits⟩, rfl⟩ := accepted_ofRecord Record.accepts_region h
    exact ⟨rfl, hfits, .inl ⟨t, rfl⟩⟩
  | metrics =>
    obtain ⟨_, t, s, rfl, ⟨l, rfl, hl, hextra⟩, rfl⟩ := accepted_ofRecord Record.accepts_snapshot h
    have hfits : Record.ListFits Record.EntryFits s.extra.entries := by
      rw [hextra]
      exact hl.of_subperm (Diagnostics.ofList_subperm l)
    exact ⟨rfl, hfits, .inr ⟨s, l, t, rfl, rfl, rfl, hl, hextra⟩⟩
  | displays =>
    obtain ⟨_, t, list, rfl, ⟨rfl, hfits⟩, rfl⟩ := accepted_ofRecord (Record.accepts_list Record.accepts_display) h
    exact ⟨rfl, hfits, .inl ⟨t, rfl⟩⟩
  | selectDisplay =>
    obtain ⟨_, t, name, rfl, ⟨rfl, hfits⟩, rfl⟩ := accepted_ofRecord Record.accepts_text h
    exact ⟨rfl, hfits, .inl ⟨t, rfl⟩⟩
  | requestKeyframe =>
    cases h
    exact ⟨rfl, trivial, .inl ⟨p, ByteArray.empty_append.symm⟩⟩
  | heartbeat =>
    cases h
    exact ⟨rfl, trivial, .inl ⟨p, ByteArray.empty_append.symm⟩⟩

theorem ofBody_listed {s : Snapshot} {l : List (String × String)} (hl : Record.ListFits Record.EntryFits l)
    (hextra : s.extra = .ofList l) (t : ByteArray) : ofBody .metrics (Record.writeListed s l ++ t) = .ok (metrics s) := by
  have hread : Reads Record.readSnapshot (Record.writeListed s l) s := by
    have hlisted := Record.reads_listed s hl
    rwa [← hextra] at hlisted
  exact ofRecord_of_reads hread metrics t

theorem size_body_le {kind : MessageKind} (h : ofBody kind p = .ok m) : m.body.size ≤ p.size := by
  obtain ⟨-, -, ⟨t, rfl⟩ | ⟨s, l, t, -, rfl, rfl, -, hextra⟩⟩ := accepted_cases h
  · rw [ByteArray.size_append]
    exact Nat.le_add_right _ _
  · rw [ByteArray.size_append]
    exact Nat.le_trans (Record.size_writeSnapshot_le hextra) (Nat.le_add_right _ _)

/-- More bytes behind a body that is accepted change nothing. -/
theorem ofBody_append {kind : MessageKind} (h : ofBody kind p = .ok m) (t : ByteArray) :
    ofBody kind (p ++ t) = .ok m := by
  obtain ⟨rfl, hfits, ⟨t', rfl⟩ | ⟨s, l, t', hkind, rfl, rfl, hl, hextra⟩⟩ := accepted_cases h
  · rw [ByteArray.append_assoc]
    exact ofBody_body hfits _
  · rw [ByteArray.append_assoc]
    exact ofBody_listed hl hextra (t' ++ t)

theorem ofBody_beginning {p rest : ByteArray} (hfits : m.LengthsFit) (hbody : m.body = p ++ rest)
    (hrest : rest.size ≠ 0) : ∃ e, ofBody m.kind p = .error e := by
  cases hp : ofBody m.kind p with
  | error e => exact ⟨e, rfl⟩
  | ok m' =>
    -- With the rest behind it, it reads as the whole body does; but no body is longer than what it is read from.
    have hwhole := ofBody_body hfits ByteArray.empty
    rw [ByteArray.append_empty, hbody, ofBody_append hp rest] at hwhole
    cases hwhole
    have hsize := size_body_le hp
    rw [hbody, ByteArray.size_append] at hsize
    omega

/-- A body has one meaning. Of a message it is read back, whatever follows, and none of its beginnings is accepted;
and an accepted body begins with the body of its message. Diagnostics alone may have come in another form, and then
the message's own body is no longer. -/
theorem ofBody_exact :
    (∀ m : Message, m.LengthsFit → (∀ t, ofBody m.kind (m.body ++ t) = .ok m) ∧
      ∀ p rest, m.body = p ++ rest → rest.size ≠ 0 → ∃ e, ofBody m.kind p = .error e) ∧
    ∀ kind p m, ofBody kind p = .ok m → m.kind = kind ∧ m.LengthsFit ∧ ofBody kind m.body = .ok m ∧
      m.body.size ≤ p.size ∧ (kind ≠ .metrics → ∃ t, p = m.body ++ t) := by
  refine ⟨fun m hfits => ⟨ofBody_body hfits, fun p rest => ofBody_beginning hfits⟩, fun kind p m h => ?_⟩
  obtain ⟨hkind, hfits, hform⟩ := accepted_cases h
  have hread := ofBody_body hfits ByteArray.empty
  rw [ByteArray.append_empty, hkind] at hread
  refine ⟨hkind, hfits, hread, size_body_le h, fun hne => ?_⟩
  rcases hform with hbegins | ⟨s, l, t, hmetrics, -⟩
  · exact hbegins
  · exact absurd hmetrics hne

/-- Diagnostics out of order and with a name given twice; and the body of their message, cut in their count. -/
theorem ofBody_exact_unordered : ∃ s : Snapshot,
    let p := Record.writeListed s [("b", "1"), ("a", ""), ("b", "2")]
    let m := metrics s
    ofBody .metrics p = .ok m ∧ m.LengthsFit ∧ ofBody .metrics m.body = .ok m ∧ m.body.size ≤ p.size ∧
      ∃ e, ofBody .metrics (m.body.extract 0 34) = .error e := by
  have hl : Record.ListFits Record.EntryFits [("b", "1"), ("a", ""), ("b", "2")] :=
    ⟨by decide, by unfold Record.EntryFits Record.TextFits; decide⟩
  obtain ⟨s, hs⟩ : ∃ s : Snapshot, s.extra = .ofList [("b", "1"), ("a", ""), ("b", "2")] :=
    ⟨⟨default, default, default, 75, false, true, _⟩, rfl⟩
  have haccepted := ofBody_listed hl hs ByteArray.empty
  rw [ByteArray.append_empty] at haccepted
  obtain ⟨-, hfits, hread, hsize, -⟩ := ofBody_exact.2 .metrics _ _ haccepted
  have hcut : (metrics s).body =
      (metrics s).body.extract 0 34 ++ (metrics s).body.extract 34 (metrics s).body.size := by
    rw [ByteArray.extract_append_extract, Nat.zero_min, ByteArray.extract_zero_max_size]
  have hrest : ((metrics s).body.extract 34 (metrics s).body.size).size ≠ 0 := by
    have hbody : (metrics s).body.size = 35 + _ := Record.size_writeListed s s.extra.entries
    rw [ByteArray.size_extract]
    omega
  exact ⟨s, haccepted, hfits, hread, hsize, (ofBody_exact.1 _ hfits).2 _ _ hcut hrest⟩

end Message
end Screencast
