import CloudStore.Library.Relation
import CloudStore.Model.Wire

/-!
# CloudClient

`client/client.cpp`. What the client calls is gathered in `ClientCalls`: the connection to the
server, local files by their paths, and the callback that is told the progress. A frame that is
received is given by its type and, if it is JSON, by what `parseJson` makes of it.
-/

set_option autoImplicit false

namespace CloudStore.Model

open CloudStore.Library (Bytes Action)

/-- A frame as `recvFrame` returns it. `parseJson` of a JSON frame answers `parses` and leaves
`v`. -/
inductive Received where
  | json (parses : Bool) (v : Json)
  | other (payload : Bytes)

/-- What the client calls. -/
structure ClientCalls (σ : Type) where
  /-- `socket` and `connect`, or an exception that says which of them fails. -/
  connect : Bytes → ℕ → Act σ Unit
  /-- `writeAll` of a frame on an open socket. -/
  send : Frame → Act σ Unit
  /-- `recvFrame` on an open socket. -/
  recv : Act σ Received
  /-- A bound on the number of frames that the server still sends. -/
  rounds : Act σ ℕ
  fileExists : Bytes → Act σ Bool
  fileSize : Bytes → Act σ ℕ
  md5File : Bytes → Act σ Bytes
  md5FileRange : Bytes → ℕ → ℕ → Act σ Bytes
  ensureDir : Bytes → Act σ Bool
  /-- What a stream over the file reads at an offset, of so many bytes. -/
  readAt : Bytes → ℕ → ℕ → Act σ Bytes
  /-- A stream to the file is opened with `trunc`. -/
  create : Bytes → Act σ Unit
  /-- The stream writes behind what it has written. -/
  append : Bytes → Bytes → Act σ Unit
  /-- `fs::remove`. -/
  remove : Bytes → Act σ Unit
  /-- The progress callback. -/
  progress : ℕ → ℕ → Bytes → Act σ Unit

/-- The fields of `class CloudClient`; `connected` stands for `fd_ >= 0`. -/
structure CloudClient where
  connected : Bool := false
  seq : ℕ := 0
  token : Bytes := []
  username : Bytes := []
  host : Bytes := []
  port : ℕ := 0

/-- `value[key]` on a value that may be changed. -/
def Json.ref (v : Json) (key : Bytes) : Except Exn Json :=
  match v with
  | .null => .ok .null
  | .obj ms => .ok ((ms.lookup key).getD .null)
  | _ => .error (.std (Model.str
      "in Json::Value::resolveReference(key, end): requires objectValue"))

/-- What is left of a JSON object after `value[key]`: the key is there. -/
def Json.withMember (v : Json) (key : Bytes) : Json :=
  match v with
  | .null => .obj [(key, .null)]
  | .obj ms =>
    if (ms.lookup key).isSome then v
    else .obj ((ms.takeWhile fun m => m.1 < key) ++ (key, .null) :: ms.dropWhile fun m => m.1 < key)
  | _ => v

namespace CloudClient

variable {σ : Type} (calls : ClientCalls σ)

/-- A program of the client. -/
abbrev Prog (σ α : Type) : Type := Act (σ × CloudClient) α

/-- Change the fields of the client. -/
def setClient (f : CloudClient → CloudClient) : Prog σ Unit :=
  Action.change fun s => (s.1, f s.2)

/-- `close()`. -/
def close : Prog σ Unit := setClient fun c => { c with connected := false }

/-- `reportProgress(current, total, phase)`. -/
def reportProgress (current total : ℕ) (phase : String) : Prog σ Unit :=
  Action.beside (calls.progress current total (str phase))

/-- `connectTo(host, port)`. -/
def connectTo (host : Bytes) (port : ℕ) : Prog σ Unit := do
  close
  Action.beside (calls.connect host port)
  setClient fun c =>
    { c with connected := true, host := host, port := port, token := [], username := [] }

/-- `writeAll` of an encoded frame. -/
def writeAll (frame : Frame) : Prog σ Unit := do
  if (← Action.look Prod.snd).connected then Action.beside (calls.send frame)
  else throw (.std (str "connection closed while sending"))

/-- `sendFrame` of a JSON frame. -/
def sendJson (root : Json) : Prog σ Unit := do
  Protocol.encode root.dumpText.length
  writeAll calls (.json (dumpJson root))

/-- `recvFrame()`. -/
def recvFrame : Prog σ Received := do
  if (← Action.look Prod.snd).connected then Action.beside calls.recv
  else throw (.std (str "connection closed while receiving"))

/-- `recvJson()`. -/
def recvJson : Prog σ Json := do
  match ← recvFrame calls with
  | .other _ => throw (.std (str "expected json reply"))
  | .json parses v => if parses then return v else throw (.std (str "bad json reply"))

/-- `sendChunk(fileId, offset, data, len)`. -/
def sendChunk (fileId : Bytes) (offset : ℕ) (data : Bytes) : Prog σ Unit := do
  Protocol.encodeChunk fileId data.length
  writeAll calls (.chunk (Wire.chunkPayload fileId offset data))

/-- `++seq_`. -/
def nextSeq : Prog σ ℕ :=
  Action.move fun s =>
    ((s.2.seq + 1) % 2 ^ 64, (s.1, { s.2 with seq := (s.2.seq + 1) % 2 ^ 64 }))

/-- The frame of `request(cmd, data)`. -/
def requestRoot (cmd : String) (data : Json) (seq : ℕ) (token : Bytes) : Json :=
  .obj ([(str "cmd", .str (str cmd)), (str "data", data), (str "seq", .int seq)] ++
    if token = [] then [] else [(str "token", .str token)])

/-- `request(cmd, data)`. -/
def request (cmd : String) (data : Json) : Prog σ Json := do
  let seq ← nextSeq
  let token := (← Action.look Prod.snd).token
  sendJson calls (requestRoot cmd data seq token)
  let reply ← recvJson calls
  let code ← (← reply.get (str "code") (.int 500)).asInt
  if code ≠ 0 then
    throw (.std (str cmd ++ str " failed: " ++
      (← (← reply.get (str "msg") (.str (str "error"))).asString)))
  else return reply

/-- `login(user, pass)`. -/
def login (user pass : Bytes) : Prog σ Json := do
  let r ← request calls "login"
    (.obj [(str "password", .str pass), (str "username", .str user)])
  let data ← r.ref (str "data")
  let token ← (← data.ref (str "token")).asString
  setClient fun c => { c with token := token }
  let username ← (← data.ref (str "username")).asString
  setClient fun c => { c with username := username }
  return (data.withMember (str "token")).withMember (str "username")

/-- `request(cmd, data)["data"]`. -/
def requestData (cmd : String) (members : List (Bytes × Json)) : Prog σ Json := do
  let r ← request calls cmd (.obj members)
  r.ref (str "data")

/-- `signup(user, pass)`. -/
def signup (user pass : Bytes) : Prog σ Json :=
  requestData calls "register" [(str "password", .str pass), (str "username", .str user)]

/-- `logout()`. -/
def logout : Prog σ Unit := do
  if (← Action.look Prod.snd).token ≠ [] then
    let _ ← request calls "logout" .null
    setClient fun c => { c with token := [], username := [] }
  else setClient fun c => { c with token := [], username := [] }

/-- `listEntries(path, recursive)`. -/
def listEntries (path : Bytes) (recursive : Bool) : Prog σ Json :=
  requestData calls "ls" [(str "path", .str path), (str "recursive", .bool recursive)]

/-- `makeDir(path)`. -/
def makeDir (path : Bytes) : Prog σ Json := requestData calls "mkdir" [(str "path", .str path)]

/-- `removePath(path)`. -/
def removePath (path : Bytes) : Prog σ Json := requestData calls "rm" [(str "path", .str path)]

/-- `statPath(path)`. -/
def statPath (path : Bytes) : Prog σ Json := requestData calls "stat" [(str "path", .str path)]

/-- `renamePath(from, to)`. -/
def renamePath (source dest : Bytes) : Prog σ Json :=
  requestData calls "rename" [(str "from", .str source), (str "to", .str dest)]

/-! ## `put` -/

/-- The proof for a challenge. -/
def proofOf (localPath md5 : Bytes) (off len : ℕ) : Prog σ Bytes :=
  if len = 0 then return md5 else Action.beside (calls.md5FileRange localPath off len)

/-- The part of `put` behind a hit of `instant_query`. -/
def putInstant (localPath remotePath md5 : Bytes) (size : ℕ) (overwrite : Bool) (data : Json) :
    Prog σ Json := do
  let off ← (← data.ref (str "challenge_offset")).asUInt64
  let len ← (← data.ref (str "challenge_len")).asUInt
  let proof ← proofOf calls localPath md5 off len
  let ir ← request calls "instant_upload"
    (.obj [(str "challenge_offset", .int off), (str "md5", .str md5),
      (str "overwrite", .bool overwrite), (str "path", .str remotePath),
      (str "proof_md5", .str proof), (str "size", .int size)])
  reportProgress calls size size "instant"
  return .obj [(str "detail", ← ir.ref (str "data")), (str "md5", .str md5),
    (str "mode", .str (str "instant")), (str "size", .int size)]

/-- `in.read(buf, want)`; a stream that has failed reads nothing. -/
def readPart (localPath : Bytes) (good : Bool) (sent want : ℕ) : Prog σ Bytes :=
  if good then Action.beside (calls.readAt localPath sent want) else return []

/-- The loop of `put`; `good` is the state of the stream that reads the file. -/
def putLoop (localPath fileId : Bytes) (size chunk : ℕ) : ℕ → Bool → ℕ → Prog σ Unit
  | 0, _, _ => return ()
  | fuel + 1, good, sent =>
    if sent < size then do
      let want := min chunk (size - sent)
      let data ← readPart calls localPath good sent want
      if data = [] then return ()
      else
        sendChunk calls fileId sent data
        reportProgress calls (sent + data.length) size "uploading"
        putLoop localPath fileId size chunk fuel (decide (data.length = want)) (sent + data.length)
    else return ()

/-- The part of `put` without a hit. A round of the loop sends at least a byte, so the size bounds
the number of rounds. -/
def putChunks (localPath remotePath md5 : Bytes) (size : ℕ) : Prog σ Json := do
  let br ← request calls "upload_begin"
    (.obj [(str "md5", .str md5), (str "path", .str remotePath), (str "size", .int size)])
  let data ← br.ref (str "data")
  let fileId ← (← data.ref (str "file_id")).asString
  let offset ← (← data.ref (str "offset")).asUInt64
  let chunk ← (← data.get (str "chunk_size") (.int 65536)).asUInt
  putLoop calls localPath fileId size chunk (size + 1) (decide (offset < 2 ^ 63)) offset
  let _ ← request calls "upload_end" .null
  reportProgress calls size size "done"
  return .obj [(str "md5", .str md5), (str "mode", .str (str "upload")), (str "size", .int size)]

/-- `put(localPath, remotePath, overwrite)`. -/
def put (localPath remotePath : Bytes) (overwrite : Bool) : Prog σ Json := do
  if ← Action.beside (calls.fileExists localPath) then
    let size ← Action.beside (calls.fileSize localPath)
    reportProgress calls 0 size "hashing"
    let md5 ← Action.beside (calls.md5File localPath)
    let qr ← request calls "instant_query" (.obj [(str "md5", .str md5), (str "size", .int size)])
    let data ← qr.ref (str "data")
    if ← (← data.get (str "hit") (.bool false)).asBool then
      putInstant calls localPath remotePath md5 size overwrite data
    else putChunks calls localPath remotePath md5 size
  else throw (.std (str "local file not found: " ++ localPath))

/-! ## `get` -/

/-- The frame of a `download_chunk` request. -/
def chunkRoot (fileId : Bytes) (got chunk seq : ℕ) (token : Bytes) : Json :=
  .obj [(str "cmd", .str (str "download_chunk")),
    (str "data", .obj [(str "file_id", .str fileId), (str "length", .int chunk),
      (str "offset", .int got)]),
    (str "seq", .int seq), (str "token", .str token)]

/-- What the loop of `get` makes of a JSON frame: whether it ends. -/
def chunkReply (v : Json) : Except Exn Bool := do
  if (← (← v.get (str "code") (.int 1)).asInt) ≠ 0 then
    throw (.std (← (← v.get (str "msg") (.str (str "download failed"))).asString))
  else (← (← v.ref (str "data")).get (str "eof") (.bool false)).asBool

/-- The loop of `get`: the number of bytes written. -/
def getLoop (localPath fileId : Bytes) (size chunk : ℕ) : ℕ → ℕ → Prog σ ℕ
  | 0, _ => throw (.std (str "recursion bound"))
  | fuel + 1, got =>
    if got < size then do
      let seq ← nextSeq
      let token := (← Action.look Prod.snd).token
      sendJson calls (chunkRoot fileId got chunk seq token)
      match ← recvFrame calls with
      | .json _ v =>
        if ← chunkReply v then return got else getLoop localPath fileId size chunk fuel got
      | .other payload =>
        match Protocol.decodeChunk payload with
        | none => throw (.std (str "bad download chunk"))
        | some cp =>
          Action.beside (calls.append localPath cp.data)
          reportProgress calls ((got + cp.data.length) % 2 ^ 64) size "downloading"
          getLoop localPath fileId size chunk fuel ((got + cp.data.length) % 2 ^ 64)
    else return got

/-- What `get` reads off the reply to `download_begin`: the file id, the size and the size of a
chunk. -/
def announced (br : Json) : Except Exn (Bytes × ℕ × ℕ) := do
  let data ← br.ref (str "data")
  let fileId ← (← data.ref (str "file_id")).asString
  let size ← (← data.ref (str "size")).asUInt64
  let chunk ← (← data.get (str "chunk_size") (.int 65536)).asUInt
  return (fileId, size, chunk)

/-- `get(remotePath, localPath)`. Each round of the loop takes a frame. -/
def get (remotePath localPath : Bytes) : Prog σ Json := do
  let br ← request calls "download_begin" (.obj [(str "path", .str remotePath)])
  let (fileId, size, chunk) ← announced br
  let _ ← Action.beside (calls.ensureDir (parentDir localPath))
  Action.beside (calls.create localPath)
  let got ← getLoop calls localPath fileId size chunk ((← Action.beside calls.rounds) + 1) 0
  return .obj [(str "local", .str localPath), (str "path", .str remotePath), (str "size", .int got)]

end CloudClient

end CloudStore.Model
