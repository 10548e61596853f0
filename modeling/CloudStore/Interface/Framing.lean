import CloudStore.Model.Wire

/-!
# The frames of the protocol as a framing

The encoding of frames and the test that `onRead` makes on its buffer fit together, so the
loop of `onRead` is the reader of `CloudStore.Library.FrameStream`.
-/

set_option autoImplicit false

namespace CloudStore.Interface

open CloudStore.Library (Bytes Framing Next Reader)
open CloudStore.Model
open CloudStore.Model.Wire

/-! ## Numbers -/

theorem readU64Be_write {v : ℕ} (h : v < 2 ^ 64) : Protocol.readU64Be (writeU64Be v) = v := by
  simp only [Protocol.readU64Be, writeU64Be, List.foldl_cons, List.foldl_nil, UInt8.toNat_ofNat']
  omega

theorem readU32Be_write {v : ℕ} (h : v < 2 ^ 32) : readU32Be (writeU32Be v) = v := by
  simp only [readU32Be, writeU32Be, List.foldl_cons, List.foldl_nil, UInt8.toNat_ofNat']
  omega

theorem readU16Be_write (v : UInt16) : readU16Be (writeU16Be v) = v := by
  have hv := v.toNat_lt
  have hsum : (writeU16Be v).foldl (fun n c => 256 * n + c.toNat) 0 = v.toNat := by
    simp only [writeU16Be, List.foldl_cons, List.foldl_nil, UInt8.toNat_ofNat']
    omega
  rw [readU16Be, hsum, UInt16.ofNat_toNat]

/-- What eight bytes are read as is written as the same bytes. -/
theorem writeU64Be_read {p : Bytes} (h : p.length = 8) : writeU64Be (Protocol.readU64Be p) = p := by
  match p, h with
  | [a, b, c, d, e, f, g, i], _ =>
      have ha := a.toNat_lt
      have hb := b.toNat_lt
      have hc := c.toNat_lt
      have hd := d.toNat_lt
      have he := e.toNat_lt
      have hf := f.toNat_lt
      have hg := g.toNat_lt
      have hi := i.toNat_lt
      simp only [Protocol.readU64Be, writeU64Be, List.foldl_cons, List.foldl_nil, List.cons.injEq,
        and_true, ← UInt8.toNat_inj, UInt8.toNat_ofNat']
      omega

/-- What four bytes are read as is written as the same bytes. -/
theorem writeU32Be_read {p : Bytes} (h : p.length = 4) : writeU32Be (readU32Be p) = p := by
  match p, h with
  | [a, b, c, d], _ =>
      have ha := a.toNat_lt
      have hb := b.toNat_lt
      have hc := c.toNat_lt
      have hd := d.toNat_lt
      simp only [readU32Be, writeU32Be, List.foldl_cons, List.foldl_nil, List.cons.injEq,
        and_true, ← UInt8.toNat_inj, UInt8.toNat_ofNat']
      omega

theorem writeU16Be_read {p : Bytes} (h : p.length = 2) : writeU16Be (readU16Be p) = p := by
  match p, h with
  | [a, b], _ =>
      have ha := a.toNat_lt
      have hb := b.toNat_lt
      simp only [readU16Be, writeU16Be, List.foldl_cons, List.foldl_nil, List.cons.injEq,
        and_true, ← UInt8.toNat_inj, UInt8.toNat_ofNat', UInt16.toNat_ofNat']
      omega

/-! ## Frames -/

/-- The bytes of a frame before its payload. -/
def header (f : RawFrame) : Bytes :=
  kFrameMagic ++ [1, f.type] ++ writeU16Be f.flags ++ writeU32Be f.payload.length

@[simp] theorem header_length (f : RawFrame) : (header f).length = kHeaderSize := rfl

/-- The bytes of a frame. -/
def frameBytes (f : RawFrame) : Bytes := header f ++ f.payload

/-- `encode` writes the bytes of a frame that is not too large. -/
theorem encode_ok {f : RawFrame} (h : f.payload.length ≤ kMaxFrameSize) :
    encode f.type f.payload f.flags = .ok (frameBytes f) := by
  simp [encode, Protocol.encode, Nat.not_lt.mpr h, frameBytes, header, bind, Except.bind, pure,
    Except.pure]

/-- The header of a frame is read back. -/
theorem parseHeader_header {f : RawFrame} (h : f.payload.length ≤ kMaxFrameSize) :
    parseHeader (header f) = some ⟨f.type, f.flags, f.payload.length⟩ := by
  have hmagic : (header f).take 4 = kFrameMagic := rfl
  have hversion : (header f).getD 4 0 = 1 := rfl
  have htype : (header f).getD 5 0 = f.type := rfl
  have hflags : ((header f).drop 6).take 2 = writeU16Be f.flags := rfl
  have hlength : ((header f).drop 8).take 4 = writeU32Be f.payload.length := rfl
  have hread : readU32Be (writeU32Be f.payload.length) = f.payload.length :=
    readU32Be_write (Nat.lt_of_le_of_lt h (by decide))
  unfold parseHeader
  rw [hmagic, if_neg (by simp)]
  simp only [hversion, htype, hflags, hlength, hread, readU16Be_write]
  rw [if_pos ⟨trivial, h⟩]

/-- What `onRead` makes of its input buffer. -/
def nextFrame (input : Bytes) : Next UInt8 RawFrame :=
  if input.length < kHeaderSize then .wait
  else
    match parseHeader (input.take kHeaderSize) with
    | none => .bad
    | some h =>
      if input.length < kHeaderSize + h.length then .wait
      else
        let rest := input.drop kHeaderSize
        .frame ⟨h.type, h.flags, rest.take h.length⟩ (rest.drop h.length)

/-- A buffer that starts with a header. -/
theorem nextFrame_header {f : RawFrame} (h : f.payload.length ≤ kMaxFrameSize) (rest : Bytes) :
    nextFrame (header f ++ rest) =
      if rest.length < f.payload.length then .wait
      else .frame ⟨f.type, f.flags, rest.take f.payload.length⟩ (rest.drop f.payload.length) := by
  have htake : (header f ++ rest).take kHeaderSize = header f := List.take_left' (header_length f)
  have hdrop : (header f ++ rest).drop kHeaderSize = rest := List.drop_left' (header_length f)
  have hlen : (header f ++ rest).length = kHeaderSize + rest.length := by simp
  simp only [nextFrame, htake, parseHeader_header h, hdrop, hlen]
  rw [if_neg (by omega)]
  congr 1
  simp

/-- **The framing of the protocol.** -/
def wireFraming : Framing UInt8 RawFrame where
  encode := frameBytes
  next := nextFrame
  Ok f := f.payload.length ≤ kMaxFrameSize
  encode_ne f := by simp [frameBytes, header, writeU16Be]
  next_nil := rfl
  next_encode := by
    intro f rest h
    rw [frameBytes, List.append_assoc, nextFrame_header h, if_neg (by simp)]
    simp
  next_start := by
    intro f p q h hq hp
    have hlen := congrArg List.length hp
    have hpos := List.length_pos_iff.mpr hq
    simp only [List.length_append, frameBytes, header_length] at hlen
    by_cases hshort : p.length < kHeaderSize
    · simp [nextFrame, hshort]
    · -- the header is there
      obtain ⟨p', rfl⟩ : ∃ p', p = header f ++ p' := by
        refine @List.prefix_of_prefix_length_le _ (header f) _ (frameBytes f) ⟨_, rfl⟩ ⟨q, hp⟩ ?_
          |>.imp fun _ h => h.symm
        rw [header_length]
        omega
      rw [nextFrame_header h, if_pos]
      simp only [List.length_append, header_length] at hlen
      omega

/-- What `parseHeader` checks and reads. -/
theorem parseHeader_eq_some {hdr : Bytes} {h : Header} (hparse : parseHeader hdr = some h) :
    hdr.take 4 = kFrameMagic ∧ hdr.getD 4 0 = 1 ∧ h.length ≤ kMaxFrameSize ∧
      h = ⟨hdr.getD 5 0, readU16Be ((hdr.drop 6).take 2), readU32Be ((hdr.drop 8).take 4)⟩ := by
  unfold parseHeader at hparse
  split_ifs at hparse with hmagic
  dsimp only at hparse
  split_ifs at hparse with hok
  obtain rfl := Option.some.inj hparse
  exact ⟨not_not.mp hmagic, hok.1, hok.2, rfl⟩

/-- A header that is accepted is that of the frame that is read off it. -/
theorem header_parsed {hdr payload : Bytes} {h : Header} (hlen : hdr.length = kHeaderSize)
    (hparse : parseHeader hdr = some h) (hpayload : payload.length = h.length) :
    header ⟨h.type, h.flags, payload⟩ = hdr := by
  obtain ⟨hmagic, hversion, -, rfl⟩ := parseHeader_eq_some hparse
  dsimp only at hpayload
  have hlength : ((hdr.drop 8).take 4).length = 4 := by
    rw [List.length_take, List.length_drop, hlen]
    rfl
  have hflags : ((hdr.drop 6).take 2).length = 2 := by
    rw [List.length_take, List.length_drop, hlen]
    rfl
  unfold header
  dsimp only
  rw [hpayload, writeU32Be_read hlength, writeU16Be_read hflags, ← hmagic]
  match hdr, hlen with
  | [m₀, m₁, m₂, m₃, version, type, f₀, f₁, l₀, l₁, l₂, l₃], _ =>
      have hversion : version = 1 := hversion
      rw [hversion]
      rfl

/-- **The framing loses nothing**: what is taken off a buffer as a frame was encoded as that
frame, and a bad header stays bad. -/
theorem wire_exact : wireFraming.Exact where
  next_frame := by
    intro b rest f hnext
    have hnext : nextFrame b = .frame f rest := hnext
    unfold nextFrame at hnext
    split_ifs at hnext with hshort
    cases hparse : parseHeader (b.take kHeaderSize) with
    | none => simp [hparse] at hnext
    | some h =>
        rw [hparse] at hnext
        dsimp only at hnext
        split_ifs at hnext with hwait
        obtain ⟨rfl, rfl⟩ := Next.frame.inj hnext
        have hpayload : ((b.drop kHeaderSize).take h.length).length = h.length := by
          rw [List.length_take, List.length_drop]
          omega
        have hlen : (b.take kHeaderSize).length = kHeaderSize := by
          rw [List.length_take]
          omega
        refine ⟨hpayload.trans_le (parseHeader_eq_some hparse).2.2.1, ?_⟩
        show b = frameBytes _ ++ _
        rw [frameBytes, header_parsed hlen hparse hpayload, List.append_assoc, List.take_append_drop, List.take_append_drop]
  next_bad := by
    intro b hbad c
    have hbad : nextFrame b = .bad := hbad
    show nextFrame (b ++ c) = .bad
    unfold nextFrame at hbad ⊢
    split_ifs at hbad with hshort
    have htake : (b ++ c).take kHeaderSize = b.take kHeaderSize :=
      List.take_append_of_le_length (by omega)
    rw [htake, if_neg (by rw [List.length_append]; omega)]
    cases hparse : parseHeader (b.take kHeaderSize) with
    | none => rfl
    | some h =>
        rw [hparse] at hbad
        dsimp only at hbad
        split_ifs at hbad

/-- What is waited on fits under the read high watermark. -/
theorem waiting_length {b : Bytes} (hwait : wireFraming.next b = .wait) :
    b.length < readHighWatermark := by
  have hwait : nextFrame b = .wait := hwait
  unfold nextFrame at hwait
  unfold readHighWatermark
  split_ifs at hwait with hshort
  · omega
  · cases hparse : parseHeader (b.take kHeaderSize) with
    | none => simp [hparse] at hwait
    | some h =>
        rw [hparse] at hwait
        dsimp only at hwait
        split_ifs at hwait with hlong
        have hsize := (parseHeader_eq_some hparse).2.2.1
        omega

variable {σ : Type} (handle : σ → RawFrame → σ)

/-- The loop of `onRead` is that of the reader. -/
theorem onReadLoop_eq (n : ℕ) (s : Input σ) : onReadLoop handle n s = wireFraming.pump handle n s := by
  induction n generalizing s with
  | zero => rfl
  | succ n ih =>
      have hnext : wireFraming.next s.input = nextFrame s.input := rfl
      rw [onReadLoop, Framing.pump, hnext]
      unfold nextFrame
      split_ifs with hshort
      · rfl
      · cases hh : parseHeader (s.input.take kHeaderSize) with
        | none => rfl
        | some h =>
            dsimp only
            split_ifs with hwait
            · rfl
            · exact ih _

theorem onRead_eq (s : Input σ) (piece : Bytes) :
    onRead handle s piece = wireFraming.feed handle s piece := by
  unfold onRead Framing.feed
  split_ifs
  · rfl
  · exact onReadLoop_eq handle _ _

/-- The encodings of a list of frames that are not too large are a stream of the framing. -/
theorem encode_frames {frames : List RawFrame}
    (h : ∀ f ∈ frames, f.payload.length ≤ kMaxFrameSize) :
    frames.mapM (fun f => encode f.type f.payload f.flags) = .ok (frames.map frameBytes) := by
  induction frames with
  | nil => rfl
  | cons f frames ih =>
      rw [List.mapM_cons, encode_ok (h f List.mem_cons_self),
        ih fun g hg => h g (List.mem_cons_of_mem _ hg)]
      rfl

/-! ## Chunks -/

theorem chunkPayload_length (fileId : Bytes) (offset : ℕ) (data : Bytes) :
    (chunkPayload fileId offset data).length = fileId.length + 8 + data.length := by
  have hword : (writeU64Be offset).length = 8 := rfl
  rw [chunkPayload, List.length_append, List.length_append, hword]

theorem encodeChunk_eq {fileId : Bytes} (h : fileId.length = 32) (offset : ℕ) (data : Bytes) :
    encodeChunk fileId offset data = encode chunkType (chunkPayload fileId offset data) 0 := by
  simp [encodeChunk, h]

/-- A chunk is read back. -/
theorem decodeChunk_payload {fileId : Bytes} (hid : fileId.length = 32) {offset : ℕ}
    (hoffset : offset < 2 ^ 64) (data : Bytes) :
    Protocol.decodeChunk (chunkPayload fileId offset data) =
      some { fileId := fileId, offset := offset, data := data } := by
  have hlen := chunkPayload_length fileId offset data
  have h32 : fileId.length = 32 := hid
  have hword : (writeU64Be offset).length = 8 := rfl
  have htake : (chunkPayload fileId offset data).take 32 = fileId := by
    rw [chunkPayload, List.append_assoc]
    exact List.take_left' h32
  have hdrop : (chunkPayload fileId offset data).drop 32 = writeU64Be offset ++ data := by
    rw [chunkPayload, List.append_assoc]
    exact List.drop_left' h32
  have hrest : (chunkPayload fileId offset data).drop 40 = data := by
    rw [chunkPayload]
    exact List.drop_left' (by rw [List.length_append, h32, hword])
  unfold Protocol.decodeChunk
  rw [if_neg (by omega), htake, hdrop, List.take_left' hword, hrest, readU64Be_write hoffset]

/-- A payload that is accepted as a chunk is the payload of that chunk. -/
theorem decodeChunk_ok {payload : Bytes} {c : ChunkPayload}
    (h : Protocol.decodeChunk payload = some c) :
    c.fileId.length = 32 ∧ chunkPayload c.fileId c.offset c.data = payload := by
  unfold Protocol.decodeChunk at h
  split_ifs at h with hshort
  rw [Option.some.injEq] at h
  subst h
  have hword : ((payload.drop 32).take 8).length = 8 := by
    rw [List.length_take, List.length_drop]
    omega
  have hrest : payload.drop 40 = (payload.drop 32).drop 8 := by rw [List.drop_drop]
  refine ⟨by rw [List.length_take]; omega, ?_⟩
  rw [chunkPayload, writeU64Be_read hword, hrest, List.append_assoc, List.take_append_drop,
    List.take_append_drop]

end CloudStore.Interface
