import CloudStore.Library.FrameStream
import CloudStore.Model.Connection

/-!
# Frames on the wire

The bytes of `src/protocol.cpp`, the big-endian helpers of `src/utils.cpp`, and the loop of
`Connection::onRead` that cuts frames out of the input buffer. What `handleFrame` and its
handlers of exceptions do with a frame is a function `handle` on any state.
-/

set_option autoImplicit false

namespace CloudStore.Model

open CloudStore.Library (Bytes)

/-- `struct Frame`. -/
structure RawFrame where
  type : UInt8
  flags : UInt16
  payload : Bytes
  deriving DecidableEq

namespace Wire

/-- `kHeaderSize`. -/
def kHeaderSize : ℕ := 12

/-- `kFrameMagic`. -/
def kFrameMagic : Bytes := str "CSTR"

/-- `FrameType::Json` and `FrameType::Chunk`. -/
def jsonType : UInt8 := 0

def chunkType : UInt8 := 1

/-- `writeU64Be(p, v)`. -/
def writeU64Be (v : ℕ) : Bytes :=
  [UInt8.ofNat (v / 2 ^ 56), UInt8.ofNat (v / 2 ^ 48), UInt8.ofNat (v / 2 ^ 40),
    UInt8.ofNat (v / 2 ^ 32), UInt8.ofNat (v / 2 ^ 24), UInt8.ofNat (v / 2 ^ 16),
    UInt8.ofNat (v / 2 ^ 8), UInt8.ofNat v]

/-- `writeU32Be(p, v)`. -/
def writeU32Be (v : ℕ) : Bytes :=
  [UInt8.ofNat (v / 2 ^ 24), UInt8.ofNat (v / 2 ^ 16), UInt8.ofNat (v / 2 ^ 8), UInt8.ofNat v]

/-- `writeU16Be(p, v)`. -/
def writeU16Be (v : UInt16) : Bytes := [UInt8.ofNat (v.toNat / 2 ^ 8), UInt8.ofNat v.toNat]

/-- `readU32Be(p)`. -/
def readU32Be (p : Bytes) : ℕ := p.foldl (fun n c => 256 * n + c.toNat) 0

/-- `readU16Be(p)`. -/
def readU16Be (p : Bytes) : UInt16 := UInt16.ofNat (p.foldl (fun n c => 256 * n + c.toNat) 0)

/-- `Protocol::encode(type, payload, flags)`. -/
def encode (type : UInt8) (payload : Bytes) (flags : UInt16) : Except Exn Bytes := do
  Protocol.encode payload.length
  return kFrameMagic ++ [1, type] ++ writeU16Be flags ++ writeU32Be payload.length ++ payload

/-- What `Protocol::parseHeader` reads off a header. -/
structure Header where
  type : UInt8
  flags : UInt16
  length : ℕ

/-- `Protocol::parseHeader(hdr, version, type, flags, length)`. -/
def parseHeader (hdr : Bytes) : Option Header :=
  if hdr.take 4 ≠ kFrameMagic then none
  else
    let length := readU32Be ((hdr.drop 8).take 4)
    if hdr.getD 4 0 = 1 ∧ length ≤ kMaxFrameSize then
      some { type := hdr.getD 5 0, flags := readU16Be ((hdr.drop 6).take 2), length := length }
    else none

/-- The payload that `Protocol::encodeChunk` puts together. -/
def chunkPayload (fileId : Bytes) (offset : ℕ) (data : Bytes) : Bytes :=
  fileId ++ writeU64Be offset ++ data

/-- `Protocol::encodeChunk(fileId, offset, data, len)`. -/
def encodeChunk (fileId : Bytes) (offset : ℕ) (data : Bytes) : Except Exn Bytes :=
  if fileId.length ≠ 32 then .error (.cloud .badRequest (str "file_id must be 32 hex chars"))
  else encode chunkType (chunkPayload fileId offset data) 0

/-- The high watermark that the constructor of `Connection` sets for reading. -/
def readHighWatermark : ℕ := kMaxFrameSize + kHeaderSize

/-- The input side of a connection: the state that frames act on, the bytes in the input buffer,
and whether the connection has been closed. -/
abbrev Input (σ : Type) : Type := Library.Reader UInt8 σ

variable {σ : Type} (handle : σ → RawFrame → σ)

/-- The loop of `onRead`, for at most so many rounds. -/
def onReadLoop : ℕ → Input σ → Input σ
  | 0, s => s
  | fuel + 1, s =>
    if s.input.length < kHeaderSize then s
    else
      match parseHeader (s.input.take kHeaderSize) with
      | none => { s with closed := true }
      | some h =>
        if s.input.length < kHeaderSize + h.length then s
        else
          let rest := s.input.drop kHeaderSize
          onReadLoop fuel
            { s with
              state := handle s.state ⟨h.type, h.flags, rest.take h.length⟩
              input := rest.drop h.length }

/-- Bytes arrive: they are added to the input buffer and `onRead` runs. A round takes bytes off
the buffer, so its length bounds the number of rounds. -/
def onRead (s : Input σ) (piece : Bytes) : Input σ :=
  if s.closed then s
  else onReadLoop handle ((s.input ++ piece).length + 1) { s with input := s.input ++ piece }

end Wire

end CloudStore.Model
