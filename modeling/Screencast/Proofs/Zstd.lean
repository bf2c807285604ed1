import Screencast.Proofs.Crop

/-!
# Packing loses nothing

What is packed into a frame is unpacked from it, for every content whose length eight bytes can hold.
The blocks hold the content piece by piece; the reader takes them one by one up to the empty block
that ends them; and the frame passes, whether it is unpacked as a whole or through buffers.
-/

namespace Screencast.Zstd

open Bytes (joined foldl_append_eq joined_append size_joined)

theorem readNumber_encode {w n : Nat} (hn : n < 256 ^ w) {c : Cursor} {r : ByteArray}
    (h : c.IsAt (LittleEndian.encode w n ++ r)) :
    ∃ after, readNumber w c = some (n, after) ∧ after.IsAt r ∧ after.bytes = c.bytes := by
  obtain ⟨after, htake, hat, hbytes⟩ := h.take (LittleEndian.size_encode w n)
  refine ⟨after, ?_, hat, hbytes⟩
  unfold readNumber
  rw [htake, Option.map_some, LittleEndian.decode_encode, Nat.mod_eq_of_lt hn]

/-! ### Blocks -/

namespace Block

/-- What is written: stored bytes or a run of at most `blockSize`. -/
def IsPlain (b : Block) : Prop := b.isCoded = false ∧ b.size ≤ blockSize

theorem stated_eq_size {b : Block} (h : b.isCoded = false) : b.stated = b.size := by
  cases b with
  | stored bytes => rfl
  | run byte count => rfl
  | coded bytes => cases h

/-- The number in a block's three bytes gives its last bit, its kind and its size back. -/
theorem head_parts (size : Nat) {kind bit : Nat} (hk : kind < 4) (hb : bit < 2) :
    (size * 8 + kind * 2 + bit) % 2 = bit ∧ (size * 8 + kind * 2 + bit) / 2 % 4 = kind ∧
      (size * 8 + kind * 2 + bit) / 8 = size := by
  omega

theorem read_write {b : Block} (hb : b.IsPlain) (isLast : Bool) {c : Cursor} {r : ByteArray}
    (h : c.IsAt (b.write isLast ++ r)) :
    ∃ after, read c = some (isLast, b, after) ∧ after.IsAt r ∧ after.bytes = c.bytes := by
  obtain ⟨hcoded, hsize⟩ := hb
  have hstated := stated_eq_size hcoded
  have hbit : (if isLast then 1 else 0) < 2 := by cases isLast <;> decide
  have hkind : b.kind < 4 := by cases b <;> simp only [kind] <;> decide
  have hlimit : blockSize = 128 := rfl
  have hlt : b.stated * 8 + b.kind * 2 + (if isLast then 1 else 0) < 256 ^ 3 := by omega
  unfold write at h
  rw [ByteArray.append_assoc] at h
  obtain ⟨mid, hhead, hat, hmid⟩ := h.take (LittleEndian.size_encode 3 _)
  obtain ⟨hlast, hkindeq, hstatedeq⟩ := head_parts b.stated hkind hbit
  have hlastbit : decide ((if isLast then 1 else 0) = 1) = isLast := by cases isLast <;> rfl
  unfold read
  simp only [hhead, Option.bind_eq_bind, Option.bind_some, LittleEndian.decode_encode, Nat.mod_eq_of_lt hlt, hlast,
    hkindeq, hstatedeq, hlastbit]
  cases b with
  | stored bytes =>
    obtain ⟨after, htake, hafter, hbytes⟩ := hat.take (n := bytes.size) rfl
    refine ⟨after, ?_, hafter, hbytes.trans hmid⟩
    simp only [kind, stated, htake, Option.bind_some]
    rfl
  | run byte count =>
    obtain ⟨after, htake, hafter, hbytes⟩ := hat.take (n := 1) rfl
    refine ⟨after, ?_, hafter, hbytes.trans hmid⟩
    have hone : UInt8.ofNat (LittleEndian.decode (body (run byte count))) = byte := by
      show UInt8.ofNat (byte.toNat + 256 * 0) = byte
      rw [Nat.mul_zero, Nat.add_zero, UInt8.ofNat_toNat]
    simp only [kind, stated, htake, Option.bind_some, hone]
    rfl
  | coded bytes => cases hcoded

theorem size_write_pos (b : Block) (isLast : Bool) : 0 < (b.write isLast).size := by
  unfold write
  rw [ByteArray.size_append, LittleEndian.size_encode]
  omega

theorem isCoded_ofBytes (b : ByteArray) : (ofBytes b).isCoded = false := by
  simp only [ofBytes]
  split
  · rfl
  · split <;> rfl

theorem content_ofBytes (b : ByteArray) : (ofBytes b).content = b := by
  simp only [ofBytes]
  split
  · rfl
  · split
    · rename_i hall
      exact Bytes.replicate_of_allFrom hall
    · rfl

theorem size_body_le {b : Block} (h : b.IsPlain) : b.body.size ≤ blockSize := by
  obtain ⟨hcoded, hsize⟩ := h
  cases b with
  | stored bytes => exact hsize
  | run byte count => exact (by decide : 1 ≤ blockSize)
  | coded bytes => cases hcoded

end Block

/-- The blocks hold the content piece by piece. -/
theorem joined_pieces (data : ByteArray) (n : Nat) :
    joined ((List.range n).map fun i => data.extract (i * blockSize) (i * blockSize + blockSize)) =
      data.extract 0 (n * blockSize) := by
  induction n with
  | zero =>
    rw [Nat.zero_mul, ByteArray.extract_same]
    rfl
  | succ n ih =>
    rw [List.range_succ, List.map_append, joined_append, ih]
    show data.extract 0 (n * blockSize) ++ (data.extract (n * blockSize) (n * blockSize + blockSize) ++
      ByteArray.empty) = _
    rw [ByteArray.append_empty, ByteArray.extract_append_extract, Nat.succ_mul, Nat.zero_min,
      Nat.max_eq_right (Nat.le_add_right _ _)]

theorem joined_blocks (data : ByteArray) : joined ((blocks data).map Block.content) = data := by
  have hsize : blockSize = 128 := rfl
  have hcontent : (blocks data).map Block.content =
      (List.range ((data.size + blockSize - 1) / blockSize)).map fun i =>
        data.extract (i * blockSize) (i * blockSize + blockSize) := by
    unfold blocks
    rw [List.map_map]
    exact List.map_congr_left fun i _ => Block.content_ofBytes _
  rw [hcontent, joined_pieces]
  have hle : data.size ≤ (data.size + blockSize - 1) / blockSize * blockSize := by
    rw [hsize]
    omega
  refine ByteArray.ext_getElem ?_ fun i hi hi' => ?_
  · rw [ByteArray.size_extract]
    omega
  · rw [ByteArray.getElem_extract]
    simp only [Nat.zero_add]

theorem isPlain_of_mem_blocks {data : ByteArray} {b : Block} (h : b ∈ blocks data) : b.IsPlain := by
  obtain ⟨i, -, rfl⟩ := List.mem_map.mp h
  refine ⟨Block.isCoded_ofBytes _, ?_⟩
  rw [Block.size_ofBytes, ByteArray.size_extract]
  omega

/-- The empty block that ends a frame. -/
def lastBlock : Block := .stored ByteArray.empty

theorem isPlain_lastBlock : lastBlock.IsPlain := ⟨rfl, Nat.zero_le _⟩

theorem readBlocks_write (l : List Block) (hl : ∀ b ∈ l, b.IsPlain) {fuel : Nat} (hfuel : l.length < fuel) {c : Cursor}
    {r : ByteArray} (h : c.IsAt (joined (l.map (Block.write false)) ++ (lastBlock.write true ++ r)))
    (before : List Block) :
    ∃ after, readBlocks fuel c before = some (before.reverse ++ l ++ [lastBlock], after) ∧ after.IsAt r ∧
      after.bytes = c.bytes := by
  -- One block is read in each step; `before` holds those read so far, the latest first.
  induction l generalizing fuel c before with
  | nil =>
    obtain ⟨fuel, rfl⟩ : ∃ n, fuel = n + 1 := ⟨fuel - 1, by omega⟩
    rw [show joined (([] : List Block).map (Block.write false)) = ByteArray.empty from rfl, ByteArray.empty_append] at h
    obtain ⟨after, hread, hat, hbytes⟩ := Block.read_write isPlain_lastBlock true h
    refine ⟨after, ?_, hat, hbytes⟩
    rw [readBlocks, hread, List.append_nil, ← List.reverse_cons]
  | cons b l ih =>
    obtain ⟨fuel, rfl⟩ : ∃ n, fuel = n + 1 := ⟨fuel - 1, by omega⟩
    rw [List.length_cons] at hfuel
    rw [show joined ((b :: l).map (Block.write false)) = b.write false ++ joined (l.map (Block.write false)) from rfl,
      ByteArray.append_assoc] at h
    obtain ⟨mid, hread, hat, hmid⟩ := Block.read_write (hl b List.mem_cons_self) false h
    obtain ⟨after, hrest, hafter, hbytes⟩ :=
      ih (fun x hx => hl x (List.mem_cons_of_mem b hx)) (show l.length < fuel by omega) hat (b :: before)
    refine ⟨after, ?_, hafter, hbytes.trans hmid⟩
    rw [readBlocks, hread]
    simp only
    rw [hrest, List.reverse_cons, List.append_assoc, List.append_assoc, List.append_assoc]
    rfl

theorem length_le_size_joined (l : List Block) : l.length ≤ (joined (l.map (Block.write false))).size := by
  induction l with
  | nil => exact Nat.zero_le _
  | cons b l ih =>
    have hpos := Block.size_write_pos b false
    show l.length + 1 ≤ (b.write false ++ joined (l.map (Block.write false))).size
    rw [ByteArray.size_append]
    omega

/-! ### Frames -/

/-- What the header of a written frame says. A length of eight bytes of ones counts as unknown. -/
def headerOf (length : Nat) : FrameHeader := ⟨2 ^ 17, if length = 2 ^ 64 - 1 then none else some length, false⟩

/-- The frame that holds the data. -/
def frameOf (data : ByteArray) : Frame := ⟨headerOf data.size, blocks data ++ [lastBlock], none⟩

theorem encode_eq (data : ByteArray) :
    encode data = magic ++ (LittleEndian.encode 1 0xC0 ++ (LittleEndian.encode 1 0x38 ++
      (LittleEndian.encode 8 data.size ++
        (joined ((blocks data).map (Block.write false)) ++ (lastBlock.write true ++ ByteArray.empty))))) := by
  have hflags : (⟨#[0xC0, 0x38]⟩ : ByteArray) = LittleEndian.encode 1 0xC0 ++ LittleEndian.encode 1 0x38 := rfl
  unfold encode head
  rw [foldl_append_eq, hflags, ByteArray.append_empty]
  simp only [ByteArray.append_assoc]
  rfl

theorem readHeader_head {length : Nat} (hn : length < 2 ^ 64) {c : Cursor} {r : ByteArray}
    (h : c.IsAt (LittleEndian.encode 1 0xC0 ++ (LittleEndian.encode 1 0x38 ++ (LittleEndian.encode 8 length ++ r)))) :
    ∃ after, readHeader c = some (headerOf length, after) ∧ after.IsAt r ∧ after.bytes = c.bytes := by
  obtain ⟨second, hflags, hat, hbytes⟩ := readNumber_encode (by decide) h
  obtain ⟨third, hwindow, hat, hbytes'⟩ := readNumber_encode (by decide) hat
  obtain ⟨after, hlength, hat, hbytes''⟩ := readNumber_encode hn hat
  refine ⟨after, ?_, hat, hbytes''.trans (hbytes'.trans hbytes)⟩
  have hof : windowOf 0x38 = some (2 ^ 17) := rfl
  unfold readHeader
  simp [hflags, hwindow, hof, hlength, readDictionary, readLength, headerOf]

theorem content_frameOf (data : ByteArray) : (frameOf data).content = data := by
  unfold Frame.content frameOf
  rw [foldl_append_eq, ByteArray.empty_append, List.map_append, joined_append, joined_blocks]
  exact ByteArray.append_empty

theorem size_frameOf (data : ByteArray) : (frameOf data).size = data.size := by
  have h := congrArg ByteArray.size (joined_blocks data)
  rw [size_joined, List.map_map] at h
  have hsizes : (blocks data).map Block.size = (blocks data).map (ByteArray.size ∘ Block.content) :=
    List.map_congr_left fun b _ => (Block.size_content b).symm
  unfold Frame.size frameOf
  rw [List.map_append, List.sum_append, hsizes, h]
  rfl

theorem read_encode {data : ByteArray} (hn : data.size < 2 ^ 64) :
    ∃ after, Part.read (Cursor.start (encode data)) = some (.frame (frameOf data), after) ∧
      after.pos = after.bytes.size := by
  have h := Cursor.isAt_start (encode data)
  rw [encode_eq] at h
  obtain ⟨second, hmagic, hat, hbytes⟩ := h.take (n := 4) rfl
  obtain ⟨third, hheader, hat, hbytes'⟩ := readHeader_head hn hat
  have hlast := Block.size_write_pos lastBlock true
  have hlength := length_le_size_joined (blocks data)
  have hsize := hat.size_le
  rw [ByteArray.size_append, ByteArray.size_append] at hsize
  obtain ⟨after, hblocks, hat, -⟩ := readBlocks_write (blocks data) (fun b hb => isPlain_of_mem_blocks hb)
    (show (blocks data).length < third.bytes.size by omega) hat []
  refine ⟨after, ?_, hat.pos_eq⟩
  unfold Part.read Frame.read
  rw [← encode_eq] at hmagic
  simp only [hmagic, hheader, hblocks, Option.bind_eq_bind, Option.bind_some, if_true, headerOf, Bool.false_eq_true,
    if_false, Option.pure_def]
  rfl

theorem passes_frameOf (data : ByteArray) (room : Nat) : (frameOf data).passes room = true := by
  have hplain : ∀ b ∈ blocks data ++ [lastBlock], b.IsPlain := by
    intro b hb
    rcases List.mem_append.mp hb with hb | hb
    · exact isPlain_of_mem_blocks hb
    · obtain rfl := List.mem_singleton.mp hb
      exact isPlain_lastBlock
  have hblocks : (frameOf data).blocks.all (Block.passes (frameOf data).header.largest) = true := by
    rw [List.all_eq_true]
    intro b hb
    have hp := hplain b hb
    have hbody := Block.size_body_le hp
    have hlargest : blockSize ≤ (frameOf data).header.largest := (by decide : blockSize ≤ min (2 ^ 17) Block.limit)
    simp only [Block.passes, hp.1, Bool.and_eq_true, decide_eq_true_eq, Bool.not_false, Bool.true_or, and_true]
    exact ⟨Nat.le_trans hbody hlargest, Nat.le_trans hp.2 hlargest⟩
  have hroom : (frameOf data).hasRoom room = true := by
    unfold Frame.hasRoom
    rw [size_frameOf]
    unfold frameOf headerOf
    simp only
    split
    · rfl
    · simp only [Option.all_some, Bool.or_eq_true, decide_eq_true_eq]
      omega
  have hlast : (frameOf data).blocks.getLast?.all Block.isVoid = true := by
    unfold frameOf
    simp only [List.getLast?_append, List.getLast?_singleton, Option.some_or, Option.all_some]
    rfl
  unfold Frame.passes
  rw [hblocks, hroom, hlast]
  rfl

theorem keepsLength_frameOf (data : ByteArray) : (frameOf data).keepsLength = true := by
  unfold Frame.keepsLength
  rw [size_frameOf]
  unfold frameOf headerOf
  simp only
  split
  · rfl
  · simp only [Option.all_some, decide_true]

theorem step_frameOf (data : ByteArray) (first last : Nat) :
    ∃ u, Unpacking.start.step first last (.frame (frameOf data)) = some u ∧ u.content = data := by
  have hadd (u : Unpacking) : u.add (frameOf data) = some { u with content := u.content ++ data } := by
    unfold Unpacking.add
    rw [content_frameOf]
    rfl
  unfold Unpacking.step
  simp only
  split
  · -- Unpacked as a whole: only the length and the kinds of the blocks are checked.
    have hcoded : (frameOf data).blocks.all (fun b => !b.isCoded) = true := by
      rw [List.all_eq_true]
      intro b hb
      rcases List.mem_append.mp hb with hb | hb
      · rw [(isPlain_of_mem_blocks hb).1]
        rfl
      · obtain rfl := List.mem_singleton.mp hb
        rfl
    rw [keepsLength_frameOf, hcoded]
    exact ⟨_, hadd _, ByteArray.empty_append⟩
  · rw [passes_frameOf]
    exact ⟨_, hadd _, ByteArray.empty_append⟩

theorem decode_encode {data : ByteArray} (h : data.size < 2 ^ 64) : decode (encode data) = some data := by
  obtain ⟨after, hread, hend⟩ := read_encode h
  obtain ⟨u, hstep, rfl⟩ := step_frameOf data (Cursor.start (encode data)).pos after.pos
  unfold decode Unpacking.run
  rw [hread]
  simp only [hstep]
  exact if_pos hend

end Screencast.Zstd

namespace Screencast

theorem isLossless_zstd : Compressor.zstd.IsLossless := fun rgb _ _ _ h =>
  ⟨Zstd.encode rgb, rfl, Zstd.decode_encode h⟩

end Screencast
