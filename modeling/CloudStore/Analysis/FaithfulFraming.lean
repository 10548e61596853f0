import CloudStore.Interface.Framing

/-!
# Framing is faithful

Frames that are encoded, concatenated and delivered in any pieces are handled as they were
sent, and chunks are read back from their payloads.
-/

set_option autoImplicit false

namespace CloudStore.Analysis

open CloudStore.Library (Bytes Framing)
open CloudStore.Model
open CloudStore.Model.Wire
open CloudStore.Interface

/-- The connection is open, and its buffer is empty or a proper start of one of the frames, which
as a whole fits under the read high watermark. -/
def Waiting {σ : Type} (frames : List RawFrame) (r : Input σ) : Prop :=
  r.closed = false ∧ (r.input = [] ∨ ∃ f ∈ frames, r.input <+: frameBytes f ∧
    r.input ≠ frameBytes f ∧ (frameBytes f).length ≤ readHighWatermark)

variable {σ : Type} (handle : σ → RawFrame → σ)

/-- After some of the pieces of a stream, the reader waits for the rest. -/
theorem waiting_start {frames : List RawFrame} (hsize : ∀ f ∈ frames, wireFraming.Ok f)
    {pieces : List Bytes} {later : Bytes}
    (h : pieces.flatten ++ later = wireFraming.stream frames) (s : σ) :
    Waiting frames (pieces.foldl (wireFraming.feed handle) { state := s }) := by
  obtain ⟨done, todo, b, rfl, -, hpending, hfeed⟩ := Framing.feed_start handle hsize h s
  rw [hfeed]
  refine ⟨rfl, hpending.imp id ?_⟩
  rintro ⟨f, q, hf, hq, hstart⟩
  have hmem : f ∈ done ++ todo := List.mem_append_right _ (List.mem_of_mem_head? hf)
  refine ⟨f, hmem, ⟨q, hstart⟩, ?_, ?_⟩
  · intro heq
    have hlen := congrArg List.length hstart
    have hpos := List.length_pos_iff.mpr hq
    have hsame : b.length = (frameBytes f).length := congrArg List.length heq
    have henc : (wireFraming.encode f).length = (frameBytes f).length := rfl
    rw [List.length_append] at hlen
    omega
  · have hok : f.payload.length ≤ kMaxFrameSize := hsize f hmem
    rw [frameBytes, List.length_append, header_length, readHighWatermark]
    omega

/-- **Framing is faithful under any fragmentation.** The encodings of frames, cut in any way, are
handled as exactly these frames in order, nothing is left over, and between two pieces the reader
waits for a frame that fits under the read high watermark. Chunks are read back, and a payload that
is accepted as a chunk is encoded to itself. -/
theorem framing_faithful (s : σ) {frames : List RawFrame}
    (hsize : ∀ f ∈ frames, f.payload.length ≤ kMaxFrameSize) :
    (∃ raws, frames.mapM (fun f => encode f.type f.payload f.flags) = .ok raws ∧
      ∀ pieces : List Bytes, pieces.flatten = raws.flatten →
        pieces.foldl (onRead handle) { state := s } = { state := frames.foldl handle s } ∧
        ∀ n, Waiting frames ((pieces.take n).foldl (onRead handle) { state := s })) ∧
    (∀ fileId offset data, fileId.length = 32 → offset < 2 ^ 64 →
      40 + data.length ≤ kMaxFrameSize → ∃ payload raw,
        encodeChunk fileId offset data = .ok raw ∧ encode chunkType payload 0 = .ok raw ∧
        Protocol.decodeChunk payload = some { fileId := fileId, offset := offset, data := data }) ∧
    ∀ payload c, Protocol.decodeChunk payload = some c →
      chunkPayload c.fileId c.offset c.data = payload ∧
      encodeChunk c.fileId c.offset c.data = encode chunkType payload 0 := by
  refine ⟨⟨_, encode_frames hsize, fun pieces hpieces => ?_⟩, ?_, ?_⟩
  · have hstream : pieces.flatten = wireFraming.stream frames := by
      rw [hpieces, Framing.stream, List.flatMap_def]
      rfl
    have hread : onRead handle = wireFraming.feed handle := by
      funext r piece
      exact onRead_eq handle r piece
    rw [hread]
    refine ⟨Framing.feed_all handle hsize hstream s, fun n => ?_⟩
    refine @waiting_start _ handle _ hsize _ (pieces.drop n).flatten ?_ s
    rw [← List.flatten_append, List.take_append_drop, hstream]
  · intro fileId offset data hid hoffset hdata
    have hlen := chunkPayload_length fileId offset data
    have hok := encode_ok (f := ⟨chunkType, 0, chunkPayload fileId offset data⟩) (by
      rw [hlen]
      omega)
    exact ⟨chunkPayload fileId offset data, _, by rw [encodeChunk_eq hid, hok], hok,
      decodeChunk_payload hid hoffset data⟩
  · intro payload c hc
    obtain ⟨hid, hpayload⟩ := decodeChunk_ok hc
    exact ⟨hpayload, by rw [encodeChunk_eq hid, hpayload]⟩

/-- Two frames, recorded in order. -/
theorem framing_faithful_two :
    let frames : List RawFrame := [⟨jsonType, 0, []⟩, ⟨7, 5, str "a"⟩]
    (∃ raws, frames.mapM (fun f => encode f.type f.payload f.flags) = .ok raws ∧
      ∀ pieces : List Bytes, pieces.flatten = raws.flatten →
        pieces.foldl (onRead fun fs f => fs ++ [f]) { state := [] } = { state := frames } ∧
        ∀ n, Waiting frames ((pieces.take n).foldl (onRead fun fs f => fs ++ [f])
          { state := ([] : List RawFrame) })) ∧
    (∀ fileId offset data, fileId.length = 32 → offset < 2 ^ 64 →
      40 + data.length ≤ kMaxFrameSize → ∃ payload raw,
        encodeChunk fileId offset data = .ok raw ∧ encode chunkType payload 0 = .ok raw ∧
        Protocol.decodeChunk payload = some { fileId := fileId, offset := offset, data := data }) ∧
    ∀ payload c, Protocol.decodeChunk payload = some c →
      chunkPayload c.fileId c.offset c.data = payload ∧
      encodeChunk c.fileId c.offset c.data = encode chunkType payload 0 :=
  framing_faithful (fun fs f => fs ++ [f]) [] (by decide)

end CloudStore.Analysis
