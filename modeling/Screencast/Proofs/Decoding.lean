import Screencast.Proofs.Delivery

/-!
# What decoding makes of a buffer

Decoding does one of three things. It waits while the header or the body is incomplete; it refuses the header,
on that header alone, and leaves the buffer as it was; or it takes one header and the body that this announces
off the front, whatever the body turns out to be, so that what is left begins where the next frame should.
-/

namespace Screencast

theorem MessageKind.ofCode_eq_error {n : UInt16} (h : ∀ k : MessageKind, n ≠ k.code) :
    ofCode n = .error (.unknownVariant "MessageKind" n.toNat) := by
  unfold ofCode
  split
  · exact absurd rfl (h .region)
  · exact absurd rfl (h .metrics)
  · exact absurd rfl (h .displays)
  · exact absurd rfl (h .selectDisplay)
  · exact absurd rfl (h .requestKeyframe)
  · exact absurd rfl (h .heartbeat)
  · rfl

theorem MessageKind.code_of_ofCode {n : UInt16} {kind : MessageKind} (h : ofCode n = .ok kind) : kind.code = n := by
  unfold ofCode at h
  split at h <;> cases h <;> rfl

namespace Header

variable {b : ByteArray} {kind : MessageKind} {header : Header}

theorem field_lt (b : ByteArray) (start stop : Nat) : field b start stop < 256 ^ (stop - start) := by
  have hsize : (b.extract start stop).size ≤ stop - start := by
    rw [ByteArray.size_extract]
    omega
  exact Nat.lt_of_lt_of_le (LittleEndian.decode_lt _) (Nat.pow_le_pow_right (by decide) hsize)

/-- What the fields of an accepted byte string say. -/
structure Tells (b : ByteArray) (header : Header) : Prop where
  magic : b.extract 0 4 = Header.magic
  kind : header.kind.code.toNat = field b 4 6
  flags : header.flags = UInt16.ofNat (field b 6 8) &&& keyframe
  length : header.length.toNat = field b 8 12
  checksum : header.checksum.toNat = field b 12 20

theorem tells_of_ofBytes (h : ofBytes b = .ok header) : Tells b header := by
  unfold ofBytes at h
  split at h
  · cases h
  · rename_i hmagic
    split at h
    · cases h
    · rename_i kind hkind
      cases h
      refine ⟨Decidable.not_not.mp hmagic, ?_, rfl, UInt32.toNat_ofNat_of_lt' (field_lt b 8 12),
        UInt64.toNat_ofNat_of_lt' (field_lt b 12 20)⟩
      rw [MessageKind.code_of_ofCode hkind]
      exact UInt16.toNat_ofNat_of_lt' (field_lt b 4 6)

theorem ofBytes_of_kind (hmagic : b.extract 0 4 = magic) (hkind : field b 4 6 = kind.code.toNat) :
    ∃ header, ofBytes b = .ok header ∧ header.kind = kind ∧ header.length.toNat = field b 8 12 ∧
      header.checksum.toNat = field b 12 20 := by
  have hcode : UInt16.ofNat (field b 4 6) = kind.code := by rw [hkind, UInt16.ofNat_toNat]
  have hread : ofBytes b = .ok ⟨kind, UInt16.ofNat (field b 6 8) &&& keyframe, UInt32.ofNat (field b 8 12),
      UInt64.ofNat (field b 12 20)⟩ := by
    unfold ofBytes
    rw [if_neg (not_not_intro hmagic), hcode, MessageKind.ofCode_code]
  have htells := tells_of_ofBytes hread
  exact ⟨_, hread, rfl, htells.length, htells.checksum⟩

theorem ofBytes_of_magic (h : b.extract 0 4 ≠ magic) : ofBytes b = .error .invalidMagic := if_pos h

theorem ofBytes_of_unknown (hmagic : b.extract 0 4 = magic) (h : ∀ k : MessageKind, field b 4 6 ≠ k.code.toNat) :
    ofBytes b = .error (.unknownVariant "MessageKind" (field b 4 6)) := by
  have htoNat : (UInt16.ofNat (field b 4 6)).toNat = field b 4 6 := UInt16.toNat_ofNat_of_lt' (field_lt b 4 6)
  have hunknown : ∀ k : MessageKind, UInt16.ofNat (field b 4 6) ≠ k.code := by
    intro k hk
    rw [hk] at htoNat
    exact h k htoNat.symm
  unfold ofBytes
  rw [if_neg (not_not_intro hmagic), MessageKind.ofCode_eq_error hunknown, htoNat]

end Header

/-- A body is refused as a record only. -/
theorem Message.ofBody_error {kind : MessageKind} {b : ByteArray} {e : StreamError} (h : ofBody kind b = .error e) :
    ∃ fault, e = .encoding (.payload fault) := by
  have hrecord {α : Type} {read : Record.Reader α} {make : α → Message} (h : ofRecord read make b = .error e) :
      ∃ fault, e = .encoding (.payload fault) := by
    unfold ofRecord at h
    split at h
    · cases h
    · rename_i fault _
      cases h
      exact ⟨fault, rfl⟩
  cases kind with
  | region | metrics | displays | selectDisplay => exact hrecord h
  | requestKeyframe | heartbeat => cases h

namespace Stream

open Header (field front)

variable {b f left : ByteArray} {kind : MessageKind} {length : Nat} {e : StreamError}
  {r : Except StreamError (Option Message)}

/-- The header in front is accepted, with this kind and this length of the body. -/
structure Announces (b : ByteArray) (kind : MessageKind) (length : Nat) : Prop where
  magic : b.extract 0 4 = Header.magic
  kind_eq : field b 4 6 = kind.code.toNat
  length_eq : field b 8 12 = length
  length_le : length ≤ maxBody

/-- What is wrong with the header in front, the first fault of three. -/
inductive Refuses (b : ByteArray) : StreamError → Prop where
  | magic (h : b.extract 0 4 ≠ Header.magic) : Refuses b .invalidMagic
  | kind (hmagic : b.extract 0 4 = Header.magic) (h : ∀ kind : MessageKind, field b 4 6 ≠ kind.code.toNat) :
      Refuses b (.unknownVariant "MessageKind" (field b 4 6))
  | length (hmagic : b.extract 0 4 = Header.magic) {kind : MessageKind} (hkind : field b 4 6 = kind.code.toNat)
      (h : maxBody < field b 8 12) : Refuses b (.payloadTooLarge (field b 8 12) maxBody)

def bodyOf (f : ByteArray) : ByteArray := f.extract Header.size f.size

/-- What a header and its body come to. -/
inductive Yields (f : ByteArray) (kind : MessageKind) : Except StreamError (Option Message) → Prop where
  | mismatch (h : (Checksum.ofBytes (bodyOf f)).toNat ≠ field f 12 20) : Yields f kind (.error .checksumMismatch)
  | badBody {fault : PayloadFault} (hsum : (Checksum.ofBytes (bodyOf f)).toNat = field f 12 20)
      (h : Message.ofBody kind (bodyOf f) = .error (.encoding (.payload fault))) :
      Yields f kind (.error (.encoding (.payload fault)))
  | message {m : Message} (hsum : (Checksum.ofBytes (bodyOf f)).toNat = field f 12 20)
      (h : Message.ofBody kind (bodyOf f) = .ok m) : Yields f kind (.ok (some m))

/-- `f` is a header with the body that it announces, and comes to `r`. -/
def Takes (f : ByteArray) (r : Except StreamError (Option Message)) : Prop :=
  ∃ kind length, Announces (front f) kind length ∧ f.size = Header.size + length ∧ Yields f kind r

theorem exists_refuses_or_announces (b : ByteArray) :
    (∃ e, Refuses b e) ∨ ∃ kind length, Announces b kind length := by
  by_cases hmagic : b.extract 0 4 = Header.magic
  · by_cases hkind : ∃ kind : MessageKind, field b 4 6 = kind.code.toNat
    · obtain ⟨kind, hkind⟩ := hkind
      by_cases hlength : maxBody < field b 8 12
      · exact .inl ⟨_, .length hmagic hkind hlength⟩
      · exact .inr ⟨kind, _, hmagic, hkind, rfl, Nat.not_lt.mp hlength⟩
    · exact .inl ⟨_, .kind hmagic fun kind h => hkind ⟨kind, h⟩⟩
  · exact .inl ⟨_, .magic hmagic⟩

theorem decode_short (h : b.size < Header.size) : decode b = (.ok none, b) := if_pos h

theorem decode_refused (hsize : Header.size ≤ b.size) (h : Refuses (front b) e) : decode b = (.error e, b) := by
  unfold decode
  rw [if_neg (Nat.not_lt.mpr hsize), ← Header.ofBytes_front]
  cases h with
  | magic h => rw [Header.ofBytes_of_magic h]
  | kind hmagic h => rw [Header.ofBytes_of_unknown hmagic h]
  | length hmagic hkind h =>
    obtain ⟨header, hheader, -, hlength, -⟩ := Header.ofBytes_of_kind hmagic hkind
    rw [hheader]
    simp only
    rw [hlength, if_pos h]

theorem decode_part (hsize : Header.size ≤ b.size) (h : Announces (front b) kind length)
    (hpart : b.size < Header.size + length) : decode b = (.ok none, b) := by
  obtain ⟨hmagic, hkind, hlength, hle⟩ := h
  obtain ⟨header, hheader, -, hheaderLength, -⟩ := Header.ofBytes_of_kind hmagic hkind
  unfold decode
  rw [if_neg (Nat.not_lt.mpr hsize), ← Header.ofBytes_front, hheader]
  simp only
  rw [hheaderLength, hlength, if_neg (Nat.not_lt.mpr hle), if_pos hpart]

theorem exists_yields (f : ByteArray) (kind : MessageKind) : ∃ r, Yields f kind r := by
  by_cases hsum : (Checksum.ofBytes (bodyOf f)).toNat = field f 12 20
  · cases hbody : Message.ofBody kind (bodyOf f) with
    | ok m => exact ⟨_, .message hsum hbody⟩
    | error e =>
      obtain ⟨fault, rfl⟩ := Message.ofBody_error hbody
      exact ⟨_, .badBody hsum hbody⟩
  · exact ⟨_, .mismatch hsum⟩

theorem Yields.ne_none (h : Yields f kind r) : r ≠ .ok none := by
  cases h <;> nofun

theorem Yields.decodeBody_eq {header : Header} (h : Yields f kind r) (hkind : header.kind = kind)
    (hsum : header.checksum.toNat = field f 12 20) : decodeBody header (bodyOf f) = r := by
  have hverify : (Checksum.ofBytes (bodyOf f)).toNat = field f 12 20 ↔ Checksum.ofBytes (bodyOf f) = header.checksum := by
    rw [← hsum, UInt64.toNat_inj]
  unfold decodeBody Header.verify
  rw [hkind]
  cases h with
  | mismatch h => rw [if_neg (mt hverify.mpr h)]
  | badBody hmatch h =>
    rw [if_pos (hverify.mp hmatch), h]
    rfl
  | message hmatch h =>
    rw [if_pos (hverify.mp hmatch), h]
    rfl

theorem decode_whole (h : Takes f r) (left : ByteArray) : decode (f ++ left) = (r, left) := by
  obtain ⟨kind, length, hannounces, hsize, hyields⟩ := h
  obtain ⟨hmagic, hkind, hlength, hle⟩ := hannounces
  obtain ⟨header, hheader, hheaderKind, hheaderLength, hsum⟩ := Header.ofBytes_of_kind hmagic hkind
  rw [field, Header.front_extract f 12 (by decide)] at hsum
  have hlong : ¬f.size < Header.size := by omega
  have hwhole : ¬f.size < Header.size + length := by omega
  have hdecode : decode f = (r, ByteArray.empty) := by
    unfold decode
    rw [if_neg hlong, ← Header.ofBytes_front, hheader]
    simp only
    rw [hheaderLength, hlength, if_neg (Nat.not_lt.mpr hle), if_neg hwhole, ← hsize, ByteArray.extract_same]
    exact congrArg (·, ByteArray.empty) (hyields.decodeBody_eq hheaderKind hsum)
  have hnext : (decode f).1 ≠ .ok none := by
    rw [hdecode]
    exact hyields.ne_none
  rw [decode_append hnext, hdecode, ByteArray.empty_append]

/-- Nothing else can happen to a buffer. -/
theorem decode_cases (b : ByteArray) :
    (b.size < Header.size ∧ decode b = (.ok none, b)) ∨
      (Header.size ≤ b.size ∧ ∃ e, Refuses (front b) e ∧ decode b = (.error e, b)) ∨
      (∃ kind length, Announces (front b) kind length ∧ b.size < Header.size + length ∧ decode b = (.ok none, b)) ∨
      ∃ f left r, b = f ++ left ∧ Takes f r ∧ decode b = (r, left) := by
  rcases Nat.lt_or_ge b.size Header.size with hshort | hlong
  · exact .inl ⟨hshort, decode_short hshort⟩
  · refine .inr ?_
    rcases exists_refuses_or_announces (front b) with ⟨e, he⟩ | ⟨kind, length, hk⟩
    · exact .inl ⟨hlong, e, he, decode_refused hlong he⟩
    · refine .inr ?_
      rcases Nat.lt_or_ge b.size (Header.size + length) with hpart | hwhole
      · exact .inl ⟨kind, length, hk, hpart, decode_part hlong hk hpart⟩
      · -- Cut behind the body, the first part is all that the header announces.
        obtain ⟨f, left, rfl, hsize⟩ := Bytes.exists_front hwhole
        rw [Header.front_append left (by omega)] at hk
        obtain ⟨r, hr⟩ := exists_yields f kind
        exact .inr ⟨f, left, r, rfl, ⟨kind, length, hk, hsize, hr⟩, decode_whole ⟨kind, length, hk, hsize, hr⟩ left⟩

theorem Takes.size_le (h : Takes f r) : Header.size ≤ f.size := by
  obtain ⟨-, length, -, hsize, -⟩ := h
  omega

theorem Takes.ne_none (h : Takes f r) : r ≠ .ok none := by
  obtain ⟨_, _, _, _, hyields⟩ := h
  exact hyields.ne_none

theorem Takes.left_ne (h : Takes f r) (left : ByteArray) : left ≠ f ++ left := by
  intro heq
  have hsize := congrArg ByteArray.size heq
  have hle := h.size_le
  rw [ByteArray.size_append] at hsize
  exact absurd (show Header.size ≤ 0 by omega) (by decide)

/-- Decoding waits, refuses the header or takes a header and its body off; which of them it is and what comes of it
is told by the bytes alone. A message takes at least a header off. -/
theorem decode_exact (b : ByteArray) :
    (decode b = (.ok none, b) ↔
        b.size < Header.size ∨ ∃ kind length, Announces (front b) kind length ∧ b.size < Header.size + length) ∧
      (∀ e, decode b = (.error e, b) ↔ Header.size ≤ b.size ∧ Refuses (front b) e) ∧
      (∀ r left, decode b = (r, left) ∧ left ≠ b ↔ ∃ f, b = f ++ left ∧ Takes f r) ∧
      (decode b = (.ok none, b) ∨ (∃ e, decode b = (.error e, b)) ∨ (decode b).2 ≠ b) ∧
      ∀ m left, decode b = (.ok (some m), left) → left.size + Header.size ≤ b.size := by
  refine ⟨⟨fun h => ?_, ?_⟩, fun e => ⟨fun h => ?_, fun h => decode_refused h.1 h.2⟩, fun r left => ⟨?_, ?_⟩, ?_,
    fun m left => size_of_decode⟩
  · rcases decode_cases b with ⟨hsize, -⟩ | ⟨-, e, -, hd⟩ | ⟨kind, length, hk, hpart, -⟩ | ⟨f, left, r, -, hf, hd⟩
    · exact .inl hsize
    · cases hd.symm.trans h
    · exact .inr ⟨kind, length, hk, hpart⟩
    · exact absurd (Prod.mk.inj (hd.symm.trans h)).1 hf.ne_none
  · rintro (hsize | ⟨kind, length, hk, hpart⟩)
    · exact decode_short hsize
    · rcases Nat.lt_or_ge b.size Header.size with hshort | hlong
      · exact decode_short hshort
      · exact decode_part hlong hk hpart
  · rcases decode_cases b with ⟨-, hd⟩ | ⟨hsize, e', he, hd⟩ | ⟨-, -, -, -, hd⟩ | ⟨f, left, r, hb, hf, hd⟩
    · cases hd.symm.trans h
    · cases hd.symm.trans h
      exact ⟨hsize, he⟩
    · cases hd.symm.trans h
    · obtain ⟨-, rfl⟩ := Prod.mk.inj (hd.symm.trans h)
      exact absurd hb (hf.left_ne left)
  · rintro ⟨h, hne⟩
    rcases decode_cases b with ⟨-, hd⟩ | ⟨-, e, -, hd⟩ | ⟨-, -, -, -, hd⟩ | ⟨f, left', r', hb, hf, hd⟩
    · exact absurd (Prod.mk.inj (h.symm.trans hd)).2 hne
    · exact absurd (Prod.mk.inj (h.symm.trans hd)).2 hne
    · exact absurd (Prod.mk.inj (h.symm.trans hd)).2 hne
    · cases hd.symm.trans h
      exact ⟨f, hb, hf⟩
  · rintro ⟨f, rfl, hf⟩
    exact ⟨decode_whole hf left, hf.left_ne left⟩
  · rcases decode_cases b with ⟨-, hd⟩ | ⟨-, e, -, hd⟩ | ⟨-, -, -, -, hd⟩ | ⟨f, left, r, rfl, hf, hd⟩
    · exact .inl hd
    · exact .inr (.inl ⟨e, hd⟩)
    · exact .inl hd
    · rw [hd]
      exact .inr (.inr (hf.left_ne left))

end Stream
end Screencast
