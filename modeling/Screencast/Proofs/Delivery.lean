import Screencast.Proofs.Bytes
import Screencast.Wire.Connection

/-!
# What a connection delivers

A frame is a header and the body that it announces. Bytes that follow a buffer do not change what is
decoded from its front, so it does not matter in which chunks they arrive: what is delivered are the
messages of the frames that the bytes begin with.
-/

namespace Screencast

/-! ### Fronts of byte strings -/

namespace Bytes

theorem extract_append_of_le {b : ByteArray} (x : ByteArray) {start stop : Nat} (h : stop ≤ b.size) :
    (b ++ x).extract start stop = b.extract start stop := by
  have hnone : x.extract (start - b.size) (stop - b.size) = ByteArray.empty :=
    ByteArray.extract_eq_empty_iff.mpr (by omega)
  rw [ByteArray.extract_append, hnone, ByteArray.append_empty]

theorem extract_append_size {b : ByteArray} (x : ByteArray) {start : Nat} (h : start ≤ b.size) :
    (b ++ x).extract start (b ++ x).size = b.extract start b.size ++ x := by
  have hsplit := ByteArray.extract_eq_extract_append_extract (a := b ++ x) b.size h
    (show b.size ≤ (b ++ x).size by rw [ByteArray.size_append]; omega)
  rw [hsplit, extract_append_of_le x (Nat.le_refl _), ByteArray.extract_append_eq_right rfl ByteArray.size_append]

theorem exists_front {b : ByteArray} {n : Nat} (h : n ≤ b.size) : ∃ f left, b = f ++ left ∧ f.size = n := by
  refine ⟨b.extract 0 n, b.extract n b.size, ?_, ?_⟩
  · rw [← ByteArray.extract_eq_extract_append_extract _ (Nat.zero_le _) h, ByteArray.extract_zero_size]
  · rw [ByteArray.size_extract]
    omega

end Bytes

namespace Header

/-- The first twenty-four bytes, of which the header is read. -/
def front (b : ByteArray) : ByteArray := b.extract 0 size

theorem front_extract (b : ByteArray) (start : Nat) {stop : Nat} (h : stop ≤ size) :
    (front b).extract start stop = b.extract start stop := by
  rw [front, ByteArray.extract_extract, Nat.zero_add, Nat.zero_add, Nat.min_eq_left h]

theorem ofBytes_front (b : ByteArray) : ofBytes (front b) = ofBytes b := by
  simp only [ofBytes, field, front_extract b 0 (by decide : 4 ≤ size), front_extract b 4 (by decide : 6 ≤ size),
    front_extract b 6 (by decide : 8 ≤ size), front_extract b 8 (by decide : 12 ≤ size),
    front_extract b 12 (by decide : 20 ≤ size)]

theorem front_append {b : ByteArray} (x : ByteArray) (h : size ≤ b.size) : front (b ++ x) = front b :=
  Bytes.extract_append_of_le x h

theorem ofBytes_append {b : ByteArray} (x : ByteArray) (h : size ≤ b.size) : ofBytes (b ++ x) = ofBytes b := by
  rw [← ofBytes_front, front_append x h, ofBytes_front]

end Header

namespace Stream

/-- A header and the body that it announces, which holds the message. -/
def IsFrame (f : ByteArray) (m : Message) : Prop :=
  ∃ header, Header.ofBytes f = .ok header ∧ header.length.toNat ≤ maxBody ∧
    f.size = Header.size + header.length.toNat ∧
    Checksum.ofBytes (f.extract Header.size f.size) = header.checksum ∧
    Message.ofBody header.kind (f.extract Header.size f.size) = .ok m

theorem IsFrame.size_le {f : ByteArray} {m : Message} (h : IsFrame f m) : Header.size ≤ f.size := by
  obtain ⟨header, -, -, hsize, -⟩ := h
  omega

/-- Frames of these messages, then a rest that begins with no frame. -/
inductive Frames : ByteArray → List Message → ByteArray → Prop where
  | rest {b : ByteArray} (h : ∀ f m more, IsFrame f m → b ≠ f ++ more) : Frames b [] b
  | frame {f b rest : ByteArray} {m : Message} {ms : List Message} (h : IsFrame f m) (h' : Frames b ms rest) :
      Frames (f ++ b) (m :: ms) rest

/-! ### Decoding -/

/-- What is decoded from a buffer stays so when more bytes follow. -/
theorem decode_append {b : ByteArray} (h : (decode b).1 ≠ .ok none) (x : ByteArray) :
    decode (b ++ x) = ((decode b).1, (decode b).2 ++ x) := by
  unfold decode at h ⊢
  by_cases hshort : b.size < Header.size
  · rw [if_pos hshort] at h
    exact absurd rfl h
  have hlong : ¬(b ++ x).size < Header.size := by
    rw [ByteArray.size_append]
    omega
  -- From here on only the first `size + length` bytes are looked at, and they are all there.
  rw [if_neg hshort] at h
  rw [if_neg hlong, if_neg hshort, Header.ofBytes_append x (Nat.not_lt.mp hshort)]
  cases hheader : Header.ofBytes b with
  | error e => rfl
  | ok header =>
    simp only [hheader] at h ⊢
    by_cases hlarge : maxBody < header.length.toNat
    · rw [if_pos hlarge, if_pos hlarge]
    rw [if_neg hlarge] at h
    rw [if_neg hlarge, if_neg hlarge]
    by_cases hpart : b.size < Header.size + header.length.toNat
    · rw [if_pos hpart] at h
      exact absurd rfl h
    have hwhole : ¬(b ++ x).size < Header.size + header.length.toNat := by
      rw [ByteArray.size_append]
      omega
    have hle := Nat.not_lt.mp hpart
    rw [if_neg hpart, if_neg hwhole, Bytes.extract_append_of_le x hle, Bytes.extract_append_size x hle]

theorem decodeBody_eq_ok {header : Header} {body : ByteArray} {m : Message} :
    decodeBody header body = .ok (some m) ↔
      Checksum.ofBytes body = header.checksum ∧ Message.ofBody header.kind body = .ok m := by
  unfold decodeBody Header.verify
  by_cases hsum : Checksum.ofBytes body = header.checksum
  · rw [if_pos hsum]
    cases Message.ofBody header.kind body <;> simp [Except.map, hsum]
  · simp [hsum]

theorem decodeBody_ne_none (header : Header) (body : ByteArray) : decodeBody header body ≠ .ok none := by
  unfold decodeBody Header.verify
  split
  · nofun
  · cases Message.ofBody header.kind body <;> nofun

/-- A frame is decoded as a whole. -/
theorem IsFrame.decode_eq {f : ByteArray} {m : Message} (h : IsFrame f m) :
    decode f = (.ok (some m), ByteArray.empty) := by
  have hlong : ¬f.size < Header.size := Nat.not_lt.mpr h.size_le
  obtain ⟨header, hheader, hlarge, hsize, hsum, hbody⟩ := h
  have hwhole : ¬f.size < Header.size + header.length.toNat := by omega
  unfold decode
  rw [if_neg hlong, hheader]
  simp only
  rw [if_neg (Nat.not_lt.mpr hlarge), if_neg hwhole, ← hsize, ByteArray.extract_same]
  rw [decodeBody_eq_ok.mpr ⟨hsum, hbody⟩]

/-- What is decoded stood at the front as a frame. -/
theorem isFrame_of_decode {b left : ByteArray} {m : Message} (h : decode b = (.ok (some m), left)) :
    ∃ f, IsFrame f m ∧ b = f ++ left := by
  unfold decode at h
  split at h
  · cases h
  rename_i hshort
  split at h
  · cases h
  rename_i header hheader
  simp only at h
  split at h
  · cases h
  rename_i hlarge
  split at h
  · cases h
  rename_i hpart
  obtain ⟨f, rest, rfl, hsize⟩ := Bytes.exists_front (Nat.not_lt.mp hpart)
  obtain ⟨hdecoded, hleft⟩ := Prod.mk.inj h
  rw [← hsize, ByteArray.extract_append_eq_right rfl ByteArray.size_append] at hleft
  rw [← hsize, Bytes.extract_append_of_le rest (Nat.le_refl _)] at hdecoded
  rw [Header.ofBytes_append rest (by omega)] at hheader
  exact ⟨f, ⟨header, hheader, Nat.not_lt.mp hlarge, hsize, decodeBody_eq_ok.mp hdecoded⟩, hleft ▸ rfl⟩

theorem decode_frame_append {f : ByteArray} {m : Message} (h : IsFrame f m) (more : ByteArray) :
    decode (f ++ more) = (.ok (some m), more) := by
  have hnext : (decode f).1 ≠ .ok none := by
    rw [h.decode_eq]
    nofun
  rw [decode_append hnext, h.decode_eq, ByteArray.empty_append]

/-! ### Draining -/

/-- Decoding takes a header at least off the buffer. -/
theorem size_of_decode {b left : ByteArray} {m : Message} (h : decode b = (.ok (some m), left)) :
    left.size + Header.size ≤ b.size := by
  obtain ⟨f, hf, rfl⟩ := isFrame_of_decode h
  have hsize := hf.size_le
  rw [ByteArray.size_append]
  omega

/-- Fuel for as many headers as fit is enough. -/
theorem drain_decode {n fuel : Nat} {b : ByteArray} (hn : b.size < 24 * n) (hle : n ≤ fuel) :
    drain decode fuel b = drain decode n b := by
  have hheader : Header.size = 24 := rfl
  induction n generalizing fuel b with
  | zero => omega
  | succ n ih =>
    obtain ⟨fuel, rfl⟩ : ∃ k, fuel = k + 1 := ⟨fuel - 1, by omega⟩
    unfold drain
    split
    · rename_i m left hdecode
      have hsize := size_of_decode hdecode
      rw [ih (by omega) (by omega)]
    · rfl
    · rfl

theorem messages_eq_drain {b : ByteArray} {n : Nat} (hn : b.size < 24 * n) : messages b = drain decode n b := by
  have hleast : b.size < 24 * (b.size / Header.size + 1) := by
    rw [show Header.size = 24 from rfl]
    omega
  rcases Nat.le_total n (b.size / Header.size + 1) with hle | hle
  · exact drain_decode hn hle
  · exact (drain_decode hleast hle).symm

theorem messages_frame {f : ByteArray} {m : Message} (h : IsFrame f m) (more : ByteArray) :
    messages (f ++ more) = (m :: (messages more).1, (messages more).2) := by
  have hheader : Header.size = 24 := rfl
  have hsize := h.size_le
  have hfuel : more.size < 24 * ((f ++ more).size / 24) := by
    rw [ByteArray.size_append]
    omega
  show drain decode ((f ++ more).size / Header.size + 1) (f ++ more) = _
  unfold drain
  rw [decode_frame_append h, hheader, messages_eq_drain hfuel]

/-- An error is decoded from the front. -/
def isRefused (b : ByteArray) : Bool :=
  match (decode b).1 with
  | .ok _ => false
  | .error _ => true

/-- Where no frame begins nothing is taken off. -/
theorem messages_rest {b : ByteArray} (h : ∀ f m more, IsFrame f m → b ≠ f ++ more) :
    messages b = ([], (decode b).2, isRefused b) := by
  unfold messages drain isRefused
  split
  · rename_i m left hdecode
    obtain ⟨f, hf, hb⟩ := isFrame_of_decode hdecode
    exact absurd hb (h f m left hf)
  · rename_i left hdecode
    rw [hdecode]
  · rename_i e left hdecode
    rw [hdecode]

/-- Where decoding waits it takes nothing off. -/
theorem left_of_decode_none {b left : ByteArray} (h : decode b = (.ok none, left)) : left = b := by
  unfold decode at h
  split at h
  · exact (Prod.mk.inj h).2.symm
  split at h
  · cases h
  simp only at h
  split at h
  · cases h
  split at h
  · exact (Prod.mk.inj h).2.symm
  · exact absurd (Prod.mk.inj h).1 (decodeBody_ne_none _ _)

/-- Where no frame begins and nothing is refused, decoding waits for more. -/
theorem decode_waiting {b : ByteArray} (h : ∀ f m more, IsFrame f m → b ≠ f ++ more) (hr : isRefused b = false) :
    decode b = (.ok none, b) := by
  unfold isRefused at hr
  split at hr
  · rename_i found hfound
    obtain ⟨left, hdecode⟩ : ∃ left, decode b = (.ok found, left) := ⟨_, Prod.ext hfound rfl⟩
    cases found with
    | none => rw [hdecode, left_of_decode_none hdecode]
    | some m =>
      obtain ⟨f, hf, hb⟩ := isFrame_of_decode hdecode
      exact absurd hb (h f m left hf)
  · cases hr

/-- A peer that closes while decoding waits leaves no message. -/
theorem lastMessages_waiting {b : ByteArray} (h : decode b = (.ok none, b)) : (lastMessages b).1 = [] := by
  unfold lastMessages drain decodeEnd
  rw [h]
  simp only
  split
  · rename_i heq
    split at heq <;> cases heq
  · rfl
  · rfl

theorem isRefused_append {b : ByteArray} (h : isRefused b = true) (x : ByteArray) : isRefused (b ++ x) = true := by
  have hnext : (decode b).1 ≠ .ok none := by
    intro hnone
    rw [isRefused, hnone] at h
    cases h
  rw [isRefused, decode_append hnext]
  exact h

theorem no_frame_of_isRefused {b : ByteArray} (h : isRefused b = true) (f : ByteArray) (m : Message)
    (more : ByteArray) (hf : IsFrame f m) : b ≠ f ++ more := by
  rintro rfl
  rw [isRefused, decode_frame_append hf] at h
  cases h

namespace Frames

theorem empty : Frames ByteArray.empty [] ByteArray.empty := by
  refine .rest fun f m more hf hb => ?_
  have hsize := congrArg ByteArray.size hb
  have hlarge := hf.size_le
  rw [ByteArray.size_append, ByteArray.size_empty] at hsize
  exact absurd (show Header.size ≤ 0 by omega) (by decide)

variable {b mid rest : ByteArray} {ms ms' : List Message}

theorem exists_rest (b : ByteArray) : ∃ ms rest, Frames b ms rest := by
  by_cases h : ∃ f m more, IsFrame f m ∧ b = f ++ more
  · obtain ⟨f, m, more, hf, rfl⟩ := h
    have hshorter : more.size < (f ++ more).size := by
      have hsize := hf.size_le
      rw [ByteArray.size_append]
      exact Nat.lt_add_of_pos_left (Nat.lt_of_lt_of_le (by decide) hsize)
    obtain ⟨ms, rest, hmore⟩ := exists_rest more
    exact ⟨m :: ms, rest, .frame hf hmore⟩
  · exact ⟨[], b, .rest fun f m more hf hb => h ⟨f, m, more, hf, hb⟩⟩
termination_by b.size

theorem no_frame (h : Frames b ms rest) : ∀ f m more, IsFrame f m → rest ≠ f ++ more := by
  induction h with
  | rest h => exact h
  | frame _ _ ih => exact ih

theorem messages_eq (h : Frames b ms rest) : messages b = (ms, (decode rest).2, isRefused rest) := by
  induction h with
  | rest h => exact messages_rest h
  | frame hf _ ih => rw [messages_frame hf, ih]

theorem unique {rest' : ByteArray} (h : Frames b ms rest) (h' : Frames b ms' rest') : ms = ms' :=
  (Prod.mk.inj (h.messages_eq.symm.trans h'.messages_eq)).1

/-- Bytes that follow go on from the rest. -/
theorem append (h : Frames b ms mid) (x : ByteArray) (h' : Frames (mid ++ x) ms' rest) :
    Frames (b ++ x) (ms ++ ms') rest := by
  induction h with
  | rest => exact h'
  | frame hf _ ih =>
    rw [ByteArray.append_assoc]
    exact .frame hf (ih h')

end Frames
end Stream

/-! ### Inboxes -/

namespace Connection

open Screencast.Stream (Frames isRefused)

/-- What an inbox holds after these bytes. -/
def Inbox.Holds (i : Inbox) (b : ByteArray) : Prop :=
  ∃ rest, Frames b i.received rest ∧ i.isFailed = isRefused rest ∧ (i.isFailed = false → i.buffer = rest)

namespace Inbox.Holds

variable {i : Inbox} {b : ByteArray}

theorem feed (h : i.Holds b) (chunk : ByteArray) : (i.feed chunk).Holds (b ++ chunk) := by
  obtain ⟨rest, hframes, hfailed, hbuffer⟩ := h
  unfold Inbox.feed
  split
  · -- A refused rest stays refused with the chunk behind it.
    rename_i hi
    have hrefused := Stream.isRefused_append (hfailed ▸ hi) chunk
    have hrest : Frames (rest ++ chunk) [] (rest ++ chunk) := .rest (Stream.no_frame_of_isRefused hrefused)
    exact ⟨rest ++ chunk, List.append_nil i.received ▸ hframes.append chunk hrest, hi.trans hrefused.symm,
      fun hnot => absurd hi (by simp [hnot])⟩
  · rename_i hi
    rw [hbuffer (by simpa using hi)]
    obtain ⟨ms, left, hmore⟩ := Frames.exists_rest (rest ++ chunk)
    rw [hmore.messages_eq]
    refine ⟨left, hframes.append chunk hmore, rfl, fun hnot => ?_⟩
    exact congrArg Prod.snd (Stream.decode_waiting hmore.no_frame hnot)

/-- Nothing is delivered once the peer has closed. -/
theorem close (h : i.Holds b) : i.close.received = i.received := by
  obtain ⟨rest, hframes, hfailed, hbuffer⟩ := h
  unfold Inbox.close
  split
  · rfl
  · rename_i hi
    have hnot : i.isFailed = false := by simpa using hi
    have hnone := Stream.lastMessages_waiting (Stream.decode_waiting hframes.no_frame (hfailed ▸ hnot))
    simp only [hbuffer hnot, hnone, List.append_nil]

theorem foldl (h : i.Holds b) (chunks : List ByteArray) :
    (chunks.foldl Inbox.feed i).Holds (b ++ Bytes.joined chunks) := by
  induction chunks generalizing i b with
  | nil => exact ByteArray.append_empty.symm ▸ h
  | cons c chunks ih =>
    have hstep := ih (h.feed c)
    rw [ByteArray.append_assoc] at hstep
    exact hstep

theorem empty : Inbox.empty.Holds ByteArray.empty := ⟨ByteArray.empty, .empty, rfl, fun _ => rfl⟩

/-- However the bytes are cut. -/
theorem chunks (chunks : List ByteArray) : (chunks.foldl Inbox.feed .empty).Holds (Bytes.joined chunks) := by
  have h := empty.foldl chunks
  rw [ByteArray.empty_append] at h
  exact h

end Inbox.Holds

theorem received_of_frames {chunks : List ByteArray} {ms : List Message} {rest : ByteArray}
    (h : Frames (Bytes.joined chunks) ms rest) : received chunks = ms.filter fun m => m ≠ .heartbeat := by
  have hholds := Inbox.Holds.chunks chunks
  unfold received
  rw [hholds.close]
  obtain ⟨rest', hframes, -, -⟩ := hholds
  rw [hframes.unique h]

/-- What is delivered are the messages, heartbeats left out, of the frames that the bytes begin with, up to the first
place where no frame stands. In whatever chunks the bytes arrive, it is the same list. -/
theorem received_of_bytes (b : ByteArray) :
    ∃ ms rest, Frames b ms rest ∧
      ∀ chunks, Bytes.joined chunks = b → received chunks = ms.filter fun m => m ≠ .heartbeat := by
  obtain ⟨ms, rest, hframes⟩ := Frames.exists_rest b
  refine ⟨ms, rest, hframes, fun chunks hchunks => ?_⟩
  exact received_of_frames (hchunks ▸ hframes)

end Connection
end Screencast
