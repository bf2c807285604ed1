import Screencast.Proofs.Delivery
import Screencast.Proofs.Records

/-!
# What is sent is delivered

A message that is accepted goes out as a frame: its header is read back from the bytes it was laid out in,
and its body as the record it was written from. Frames in a row are what `Proofs.Delivery` takes apart, so
the messages arrive in whatever chunks the bytes come.
-/

namespace Screencast

open LittleEndian (encode size_encode)

/-! ### Headers -/

namespace Header

theorem field_append {a : ByteArray} {n : Nat} (b : ByteArray) (start stop : Nat) (h : a.size = n) :
    field (a ++ b) (n + start) (n + stop) = field b start stop := by
  have hnone : a.extract (n + start) (n + stop) = ByteArray.empty :=
    ByteArray.extract_eq_empty_iff.mpr (by omega)
  rw [field, ByteArray.extract_append, hnone, ByteArray.empty_append, h, Nat.add_sub_cancel_left,
    Nat.add_sub_cancel_left, field]

theorem field_encode {w n : Nat} (b : ByteArray) (h : n < 256 ^ w) : field (encode w n ++ b) 0 w = n := by
  rw [field, ByteArray.extract_append_eq_left (size_encode w n).symm, LittleEndian.decode_encode, Nat.mod_eq_of_lt h]

/-- A header is read back from the front of what follows it; of its flags the known one. -/
theorem ofBytes_toBytes (h : Header) (b : ByteArray) :
    ofBytes (h.toBytes ++ b) = .ok { h with flags := h.flags &&& keyframe } := by
  have hlayout : h.toBytes ++ b = magic ++ (encode 2 h.kind.code.toNat ++ (encode 2 h.flags.toNat ++
      (encode 4 h.length.toNat ++ (encode 8 h.checksum.toNat ++ (encode 4 0 ++ b))))) := by
    simp only [toBytes, ByteArray.append_assoc]
  have hmagic : magic.size = 4 := rfl
  -- To read a number, skip the pieces before it one by one.
  have hfront : (h.toBytes ++ b).extract 0 4 = magic := by
    rw [hlayout]
    exact ByteArray.extract_append_eq_left hmagic.symm
  have hkind : field (h.toBytes ++ b) 4 6 = h.kind.code.toNat := by
    rw [hlayout, field_append _ 0 2 hmagic]
    exact field_encode _ h.kind.code.toNat_lt
  have hflags : field (h.toBytes ++ b) 6 8 = h.flags.toNat := by
    rw [hlayout, field_append _ 2 4 hmagic, field_append _ 0 2 (size_encode 2 _)]
    exact field_encode _ h.flags.toNat_lt
  have hlength : field (h.toBytes ++ b) 8 12 = h.length.toNat := by
    rw [hlayout, field_append _ 4 8 hmagic, field_append _ 2 6 (size_encode 2 _), field_append _ 0 4 (size_encode 2 _)]
    exact field_encode _ h.length.toNat_lt
  have hchecksum : field (h.toBytes ++ b) 12 20 = h.checksum.toNat := by
    rw [hlayout, field_append _ 8 16 hmagic, field_append _ 6 14 (size_encode 2 _),
      field_append _ 4 12 (size_encode 2 _), field_append _ 0 8 (size_encode 4 _)]
    exact field_encode _ h.checksum.toNat_lt
  unfold ofBytes
  rw [hfront, hkind, hflags, hlength, hchecksum, UInt16.ofNat_toNat, MessageKind.ofCode_code]
  simp only [ne_eq, not_true_eq_false, if_false, UInt16.ofNat_toNat, UInt32.ofNat_toNat, UInt64.ofNat_toNat]

end Header

/-! ### Bodies -/

namespace Message

open Record (Reads)

variable {α : Type} {read : Record.Reader α} {b : ByteArray} {a : α}

theorem ofRecord_of_reads (h : Reads read b a) (make : α → Message) (t : ByteArray) :
    ofRecord read make (b ++ t) = .ok (make a) := by
  rw [ofRecord, h.run_append]

/-- Eight bytes can tell every length in the message, as they can for any message in memory. -/
def LengthsFit : Message → Prop
  | region payload => payload.data.size < 2 ^ 64
  | metrics snapshot => Record.ListFits Record.EntryFits snapshot.extra.entries
  | displays list => Record.ListFits Record.DisplayFits list
  | selectDisplay name => Record.TextFits name
  | requestKeyframe | heartbeat => True

theorem lengthsFit_of_size {m : Message} (h : m.body.size < 2 ^ 64) : m.LengthsFit := by
  cases m with
  | region payload =>
    have hsize : (Record.writeRegion payload).size < 2 ^ 64 := h
    rw [Record.size_writeRegion] at hsize
    exact Nat.lt_of_le_of_lt (Nat.le_add_left _ 25) hsize
  | metrics snapshot =>
    have hsize : (Record.writeSnapshot snapshot).size < 2 ^ 64 := h
    rw [Record.writeSnapshot, ByteArray.size_append] at hsize
    exact Record.listFits_of_size Record.size_writeEntry_pos (fun _ => Record.entryFits_of_size) (by omega)
  | displays list =>
    exact Record.listFits_of_size Record.size_writeDisplay_pos (fun _ => Record.displayFits_of_size) h
  | selectDisplay name => exact Record.textFits_of_size h
  | requestKeyframe => exact trivial
  | heartbeat => exact trivial

/-- The body of a message is read back, whatever follows it. -/
theorem ofBody_body {m : Message} (h : m.LengthsFit) (t : ByteArray) : ofBody m.kind (m.body ++ t) = .ok m := by
  cases m with
  | region payload => exact ofRecord_of_reads (Record.reads_region h) region t
  | metrics snapshot => exact ofRecord_of_reads (Record.reads_snapshot h) metrics t
  | displays list => exact ofRecord_of_reads (Record.reads_list (fun _ => Record.reads_display) h) displays t
  | selectDisplay name => exact ofRecord_of_reads (Record.reads_text h) selectDisplay t
  | requestKeyframe => rfl
  | heartbeat => rfl

/-- A region that shows a whole frame. -/
def IsKeyframe (m : Message) : Prop := ∃ payload, m = .region payload ∧ payload.isKeyframe = true

theorem flags_eq_keyframe (m : Message) : m.flags = Header.keyframe ↔ m.IsKeyframe := by
  constructor
  · intro h
    cases m with
    | region payload =>
      refine ⟨payload, rfl, ?_⟩
      cases hkey : payload.isKeyframe with
      | true => rfl
      | false => rw [flags, hkey] at h; exact absurd h (by decide)
    | _ => exact absurd (show (0 : UInt16) = Header.keyframe from h) (by decide)
  · rintro ⟨payload, rfl, hkey⟩
    rw [flags, hkey]
    rfl

/-- No other flag is ever set. -/
theorem flags_and_keyframe (m : Message) : m.flags &&& Header.keyframe = m.flags := by
  cases m with
  | region payload =>
    rw [flags]
    split <;> decide
  | _ => exact (by decide : (0 : UInt16) &&& Header.keyframe = 0)

end Message

/-! ### Frames -/

namespace Stream

/-- The header in front of a message. -/
def headerOf (m : Message) : Header :=
  ⟨m.kind, m.flags, UInt32.ofNat m.body.size, Checksum.ofBytes m.body⟩

/-- The bytes of a message. -/
def frameOf (m : Message) : ByteArray := (headerOf m).toBytes ++ m.body

/-- A message goes out exactly if its body is not too large, and then behind what the buffer holds. -/
theorem put_eq (m : Message) (buffer : ByteArray) :
    put m buffer =
      if maxBody < m.body.size then (.error (.payloadTooLarge m.body.size maxBody), buffer)
      else (.ok (), buffer ++ frameOf m) := by
  unfold put
  simp only
  split
  · rfl
  · -- What the writer accepts is far below what the header can tell.
    rename_i hsize
    have hfits : m.body.size < 2 ^ 32 := Nat.lt_of_le_of_lt (Nat.not_lt.mp hsize) (by decide)
    rw [Header.ofBody, if_pos hfits]
    rfl

theorem put_eq_ok {m : Message} {buffer : ByteArray} : (put m buffer).1 = .ok () ↔ m.body.size ≤ maxBody := by
  rw [put_eq]
  split
  · rename_i hsize
    exact ⟨nofun, fun h => absurd hsize (Nat.not_lt.mpr h)⟩
  · rename_i hsize
    exact ⟨fun _ => Nat.not_lt.mp hsize, fun _ => rfl⟩

theorem headerOf_ofBytes (m : Message) : Header.ofBytes (frameOf m) = .ok (headerOf m) := by
  have hflags : (headerOf m).flags &&& Header.keyframe = (headerOf m).flags := m.flags_and_keyframe
  rw [frameOf, Header.ofBytes_toBytes, hflags]

theorem headerOf_length {m : Message} (h : m.body.size ≤ maxBody) : (headerOf m).length.toNat = m.body.size :=
  UInt32.toNat_ofNat_of_lt' (Nat.lt_of_le_of_lt h (by decide))

theorem isFrame_frameOf {m : Message} (h : m.body.size ≤ maxBody) : IsFrame (frameOf m) m := by
  have hsize : (frameOf m).size = Header.size + m.body.size := by
    rw [frameOf, ByteArray.size_append, Header.size_toBytes]
  have hbody : (frameOf m).extract Header.size (frameOf m).size = m.body :=
    ByteArray.extract_append_eq_right (Header.size_toBytes _).symm (by rw [hsize, Header.size_toBytes])
  refine ⟨headerOf m, headerOf_ofBytes m, ?_, ?_, ?_, ?_⟩
  · rw [headerOf_length h]
    exact h
  · rw [headerOf_length h, hsize]
  · rw [hbody]
    rfl
  · have hfits : m.LengthsFit := Message.lengthsFit_of_size (Nat.lt_of_le_of_lt h (by decide))
    rw [hbody, ← ByteArray.append_empty (b := m.body)]
    exact Message.ofBody_body hfits ByteArray.empty

/-- Accepted messages, one after another, are frames that leave nothing over. -/
theorem frames_joined {ms : List Message} (h : ∀ m ∈ ms, m.body.size ≤ maxBody) :
    Frames (Bytes.joined (ms.map frameOf)) ms ByteArray.empty := by
  induction ms with
  | nil => exact .empty
  | cons m rest ih =>
    have hm : IsFrame (frameOf m) m := isFrame_frameOf (h m List.mem_cons_self)
    exact .frame hm (ih fun x hx => h x (List.mem_cons_of_mem m hx))

end Stream

/-! ### Connections -/

namespace Connection

open Screencast.Stream (Frames frameOf)

variable {ms : List Message}

theorem sent_go_eq (h : ∀ m ∈ ms, m.body.size ≤ Stream.maxBody) (buffer : ByteArray) :
    sent.go ms buffer = buffer ++ Bytes.joined (ms.map frameOf) := by
  induction ms generalizing buffer with
  | nil => exact ByteArray.append_empty.symm
  | cons m rest ih =>
    have hm : ¬Stream.maxBody < m.body.size := Nat.not_lt.mpr (h m List.mem_cons_self)
    rw [sent.go, Stream.put_eq, if_neg hm]
    simp only
    rw [ih fun x hx => h x (List.mem_cons_of_mem m hx), ByteArray.append_assoc]
    rfl

theorem sent_eq (h : ∀ m ∈ ms, m.body.size ≤ Stream.maxBody) : sent ms = Bytes.joined (ms.map frameOf) := by
  rw [sent, sent_go_eq h, ByteArray.empty_append]

/-- Whole frames leave an inbox empty. -/
theorem Inbox.Holds.eq_of_frames {i : Inbox} {b : ByteArray} (h : i.Holds b) (hb : Frames b ms ByteArray.empty) :
    i = ⟨ms, ByteArray.empty, false⟩ := by
  obtain ⟨rest, hframes, hfailed, hbuffer⟩ := h
  have heq := hframes.messages_eq.symm.trans hb.messages_eq
  have hreceived : i.received = ms := congrArg Prod.fst heq
  have hrefused : Stream.isRefused rest = false := congrArg (fun r => r.2.2) heq
  have hleft : (Stream.decode rest).2 = ByteArray.empty := congrArg (fun r => r.2.1) heq
  rw [Stream.decode_waiting hframes.no_frame hrefused] at hleft
  have hempty : rest = ByteArray.empty := hleft
  have hopen : i.isFailed = false := hfailed.trans hrefused
  obtain ⟨received, buffer, isFailed⟩ := i
  simp only at hreceived hopen hbuffer
  rw [hreceived, hopen, hbuffer hopen, hempty]

/-- What one side sends the other is given, heartbeats left out. -/
theorem received_sent {chunks : List ByteArray} (h : ∀ m ∈ ms, m.body.size ≤ Stream.maxBody)
    (hchunks : Bytes.joined chunks = sent ms) : received chunks = ms.filter fun m => m ≠ .heartbeat := by
  rw [sent_eq h] at hchunks
  exact received_of_frames (hchunks ▸ Stream.frames_joined h)

/-- Messages that are all accepted arrive as they were sent, in whatever chunks the bytes come, and nothing is left
over. The header in front of an accepted message is within the reader's limit and is flagged exactly for a keyframe; a
message that is refused leaves the buffer as it was. -/
theorem delivers_sent {chunks : List ByteArray} (haccepted : ∀ m ∈ ms, (Stream.put m ByteArray.empty).1 = .ok ())
    (hchunks : Bytes.joined chunks = sent ms) :
    chunks.foldl Inbox.feed .empty = ⟨ms, ByteArray.empty, false⟩ ∧
      (∀ m buffer after, Stream.put m buffer = (.ok (), after) →
        ∃ header : Header, after = buffer ++ (header.toBytes ++ m.body) ∧
          Header.ofBytes (header.toBytes ++ m.body) = .ok header ∧
          header.length.toNat = m.body.size ∧ header.length.toNat ≤ Stream.maxBody ∧
          (header.flags &&& Header.keyframe = Header.keyframe ↔ m.IsKeyframe)) ∧
      ∀ m buffer e after, Stream.put m buffer = (.error e, after) → after = buffer := by
  have hsizes : ∀ m ∈ ms, m.body.size ≤ Stream.maxBody := fun m hm => Stream.put_eq_ok.mp (haccepted m hm)
  refine ⟨?_, fun m buffer after hput => ?_, fun m buffer e after hput => ?_⟩
  · have hholds := Inbox.Holds.chunks chunks
    rw [hchunks, sent_eq hsizes] at hholds
    exact hholds.eq_of_frames (Stream.frames_joined hsizes)
  · have hsize : m.body.size ≤ Stream.maxBody := Stream.put_eq_ok.mp (congrArg Prod.fst hput)
    have hlength := Stream.headerOf_length hsize
    rw [Stream.put_eq, if_neg (Nat.not_lt.mpr hsize)] at hput
    have hflags : (Stream.headerOf m).flags &&& Header.keyframe = m.flags := m.flags_and_keyframe
    refine ⟨Stream.headerOf m, (congrArg Prod.snd hput).symm, Stream.headerOf_ofBytes m, hlength, ?_, ?_⟩
    · rw [hlength]
      exact hsize
    · rw [hflags]
      exact m.flags_eq_keyframe
  · rw [Stream.put_eq] at hput
    split at hput
    · exact (congrArg Prod.snd hput).symm
    · cases hput

/-- A keyframe, a selection and a heartbeat, cut inside the first header and with nothing in between. -/
theorem delivers_sent_in_pieces :
    let ms : List Message := [.region ⟨0, 0, 8, 4, true, ⟨#[1, 2, 3]⟩⟩, .selectDisplay "D2", .heartbeat]
    let chunks := [(sent ms).extract 0 10, ByteArray.empty, (sent ms).extract 10 (sent ms).size]
    (∀ m ∈ ms, (Stream.put m ByteArray.empty).1 = .ok ()) ∧ Bytes.joined chunks = sent ms ∧
      chunks.foldl Inbox.feed .empty = ⟨ms, ByteArray.empty, false⟩ := by
  intro ms chunks
  have haccepted : ∀ m ∈ ms, (Stream.put m ByteArray.empty).1 = .ok () := by
    simp only [ms, List.forall_mem_cons, Stream.put_eq_ok]
    decide
  have hchunks : Bytes.joined chunks = sent ms := by
    show (sent ms).extract 0 10 ++ (ByteArray.empty ++ ((sent ms).extract 10 (sent ms).size ++ ByteArray.empty)) = _
    rw [ByteArray.append_empty, ByteArray.empty_append, ByteArray.extract_append_extract, Nat.zero_min,
      ByteArray.extract_zero_max_size]
  exact ⟨haccepted, hchunks, (delivers_sent haccepted hchunks).1⟩

end Connection
end Screencast
