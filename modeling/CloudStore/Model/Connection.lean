import CloudStore.Model.Auth
import CloudStore.Model.PathGuard
import CloudStore.Model.Transfer

/-!
# Connection

The fields and handlers of `src/connection.cpp`. A handler runs on a `Turn`: the system,
the connection, the replies sent so far and the calls made so far. The calls are a record
of which functions of `AuthService`, `TransferService` and `FileManager` a handler
reaches; no handler reads it.
-/

set_option autoImplicit false

namespace CloudStore.Model

open CloudStore.Library (Bytes Action)

/-- A frame as `onRead` hands it to `handleFrame`; the text of a JSON frame is given by
the answer of `parseJson`. -/
inductive Frame where
  | json (text : JsonText)
  | chunk (payload : Bytes)
  | other (type : UInt8)

/-- `struct ChunkPayload`. -/
structure ChunkPayload where
  fileId : Bytes
  offset : ℕ
  data : Bytes

namespace Protocol

/-- `readU64Be(p)`. -/
def readU64Be (p : Bytes) : ℕ := p.foldl (fun n c => 256 * n + c.toNat) 0

/-- `Protocol::decodeChunk(payload, out)`. -/
def decodeChunk (payload : Bytes) : Option ChunkPayload :=
  if payload.length < 40 then none
  else some
    { fileId := payload.take 32, offset := readU64Be ((payload.drop 32).take 8)
      data := payload.drop 40 }

/-- The size check of `Protocol::encode`. -/
def encode (payloadSize : ℕ) : Except Exn Unit :=
  if payloadSize > kMaxFrameSize then .error (.cloud .payloadTooLarge (str "frame too large"))
  else .ok ()

/-- The checks of `Protocol::encodeChunk`. -/
def encodeChunk (fileId : Bytes) (len : ℕ) : Except Exn Unit :=
  if fileId.length ≠ 32 then .error (.cloud .badRequest (str "file_id must be 32 hex chars"))
  else encode (32 + 8 + len)

end Protocol

/-- The fields of `class Connection`. -/
structure Connection where
  peerIp : Bytes
  session : UserSession := {}
  authed : Bool := false
  upload : UploadSession := {}
  download : DownloadSession := {}

/-- What a connection sends. -/
inductive Reply where
  | json (v : Json)
  | chunk (fileId : Bytes) (offset : ℕ) (data : Bytes)

/-- A call of a service, with its arguments. -/
inductive Call where
  | registerUser (username password : Bytes)
  | login (username password ip : Bytes)
  | checkToken (token : Bytes)
  | logout (token : Bytes)
  | listDir (physical : Bytes) (recursive : Bool)
  | statPath (physical : Bytes)
  | makeDir (physical : Bytes)
  | indexFile (userId : ℤ) (virtualPath md5 : Bytes) (size : ℕ) (isDir : Bool) (status : Bytes)
  | lookupFile (userId : ℤ) (virtualPath : Bytes)
  | listIndexed (userId : ℤ) (dirLogical : Bytes)
  | removeUserPath (session : UserSession) (physical virtualPath : Bytes)
  | renameUserPath (session : UserSession) (fromPhysical fromVirtual toPhysical toVirtual : Bytes)
  | queryInstant (session : UserSession) (md5 : Bytes) (size : ℕ)
  | instantUpload (session : UserSession) (destPath virtualPath md5 : Bytes)
      (size proofOffset : ℕ) (proofMd5 : Bytes) (overwrite : Bool)
  | closeUpload
  | beginUpload (session : UserSession) (destPath virtualPath md5 : Bytes) (size : ℕ)
  | writeChunk (offset : ℕ) (data : Bytes)
  | finishUpload (session : UserSession)
  | closeDownload
  | beginDownload (session : UserSession) (physical virtualPath : Bytes)
  | readChunk (offset len : ℕ)
  deriving DecidableEq

/-- A call, with the system and the connection it was made in. -/
structure CallRecord (σ : Type) where
  sys : σ
  conn : Connection
  call : Call

/-- The state of a handler. Replies are in order, calls newest first. -/
structure Turn (σ : Type) where
  sys : σ
  conn : Connection
  sent : List Reply := []
  calls : List (CallRecord σ) := []

namespace Connection

variable {σ : Type}

/-- Run a program of the system. -/
def system {α : Type} (a : Act σ α) : Act (Turn σ) α :=
  Action.zoom Turn.sys (fun s t => { t with sys := s }) a

/-- Run a program of the system beside the upload session. -/
def withUpload {α : Type} (a : Act (σ × UploadSession) α) : Act (Turn σ) α :=
  Action.zoom (fun t => (t.sys, t.conn.upload))
    (fun x t => { t with sys := x.1, conn := { t.conn with upload := x.2 } }) a

/-- Record a call. -/
def record (c : Call) : Act (Turn σ) Unit :=
  Action.change fun t => { t with calls := ⟨t.sys, t.conn, c⟩ :: t.calls }

/-- The fields of the connection. -/
def fields : Act (Turn σ) Connection := Action.look Turn.conn

/-- Change fields of the connection. -/
def assign (f : Connection → Connection) : Act (Turn σ) Unit :=
  Action.change fun t => { t with conn := f t.conn }

/-- `sendJson(v)`. -/
def sendJson (v : Json) : Act (Turn σ) Unit := do
  Protocol.encode v.dumpText.length
  Action.change fun t => { t with sent := t.sent ++ [.json v] }

/-- `sendError(seq, code, msg)`. -/
def sendError (seq : ℕ) (code : ErrorCode) (msg : Bytes) : Act (Turn σ) Unit :=
  sendJson (makeReply seq code.toInt msg (.obj []))

/-- `sendJson(makeReply(seq, 0, "ok", data))`. -/
def sendOk (seq : ℕ) (data : Json) : Act (Turn σ) Unit :=
  sendJson (makeReply seq 0 (str "ok") data)

/-- `sendChunk(fileId, offset, data, len)`. -/
def sendChunk (fileId : Bytes) (offset : ℕ) (data : Bytes) : Act (Turn σ) Unit := do
  Protocol.encodeChunk fileId data.length
  Action.change fun t => { t with sent := t.sent ++ [.chunk fileId offset data] }

/-- `requireLogin(seq)`. -/
def requireLogin : Act (Turn σ) Unit := do
  if !(← fields).authed then fail .unauthorized (str "login required")

/-- `d.get(key, dflt).asString()`. -/
def stringArg (d : Json) (key dflt : String) : Except Exn Bytes := do
  (← d.get (str key) (.str (str dflt))).asString

/-- `d.get(key, 0).asUInt64()`. -/
def uint64Arg (d : Json) (key : String) : Except Exn ℕ := do
  (← d.get (str key) (.int 0)).asUInt64

/-- `d.get(key, false).asBool()`. -/
def boolArg (d : Json) (key : String) : Except Exn Bool := do
  (← d.get (str key) (.bool false)).asBool

variable (b : Backend σ)

/-- `resolveUserPath(logical, mustExist)`. -/
def resolveUserPath (logical : Bytes) (mustExist : Bool) : Act (Turn σ) Bytes := do
  requireLogin
  let c ← fields
  system (PathGuard.resolve b.files c.session.rootDir logical mustExist)

/-- `resolveUserPath(path, true)`, and with `false` where that finds nothing. -/
def resolveExistingOrNew (path : Bytes) : Act (Turn σ) Bytes :=
  tryCatch (resolveUserPath b path true) fun e =>
    match e with
    | .cloud .notFound _ => resolveUserPath b path false
    | e => throw e

/-! ## Accounts -/

/-- `onRegister(root, seq)`. -/
def onRegister (root : Json) (seq : ℕ) : Act (Turn σ) Unit := do
  let data ← root.item (str "data")
  let username ← stringArg data "username" ""
  let password ← stringArg data "password" ""
  record (.registerUser username password)
  let s ← system (AuthService.registerUser b username password)
  sendOk seq (.obj [(str "user_id", .int s.userId), (str "username", .str s.username)])

/-- `onLogin(root, seq)`. -/
def onLogin (root : Json) (seq : ℕ) : Act (Turn σ) Unit := do
  let data ← root.item (str "data")
  let username ← stringArg data "username" ""
  let password ← stringArg data "password" ""
  let c ← fields
  record (.login username password c.peerIp)
  let s ← system (AuthService.login b username password c.peerIp)
  assign fun c => { c with session := s, authed := true }
  sendOk seq (.obj [(str "root", .str (str "/")), (str "token", .str s.token),
    (str "user_id", .int s.userId), (str "username", .str s.username)])

/-- `onLogout(root, seq)`. -/
def onLogout (seq : ℕ) : Act (Turn σ) Unit := do
  requireLogin
  let c ← fields
  record (.logout c.session.token)
  system (AuthService.logout b c.session.token)
  assign fun c => { c with session := {}, authed := false }
  sendOk seq (.obj [])

/-! ## Files and directories -/

/-- The entry of a listing for a physical entry. -/
def entryJson (e : FileEntry) : Json :=
  .obj [(str "mtime", .int e.mtime), (str "name", .str e.name), (str "path", .str e.path),
    (str "size", .int e.size),
    (str "status", .str (if e.type = str "file" then str "ready" else str "ok")),
    (str "type", .str e.type)]

/-- The entry of a listing for an indexed file. -/
def pendingJson (f : PendingFile) : Json :=
  .obj [(str "md5", .str f.md5), (str "mtime", .int 0), (str "name", .str (baseName f.virtualPath)),
    (str "path", .str f.virtualPath), (str "size", .int f.size),
    (str "status", .str (if f.status = [] then str "ready" else f.status)),
    (str "type", .str (str "file"))]

/-- `onList(root, seq)`. -/
def onList (root : Json) (seq : ℕ) : Act (Turn σ) Unit := do
  requireLogin
  let path ← stringArg (← root.item (str "data")) "path" "/"
  let recursive ← boolArg (← root.item (str "data")) "recursive"
  let logical ← PathGuard.normalizeLogical path
  let dir := if logical = [] then str "/" else str "/" ++ logical
  let entries ← tryCatch
    (do
      let phys ← resolveUserPath b path true
      record (.listDir phys recursive)
      system (FileManager.listDir b.files phys recursive))
    fun e =>
      match e with
      | .cloud .notFound _ => return []
      | e => throw e
  let c ← fields
  record (.listIndexed c.session.userId dir)
  let indexed ← system (TransferService.listIndexed b c.session.userId dir)
  let pending := indexed.filter fun f =>
    baseName f.virtualPath ≠ [] ∧ ¬ entries.any fun e => e.name = baseName f.virtualPath
  sendOk seq (.obj [(str "entries", .arr (entries.map entryJson ++ pending.map pendingJson)),
    (str "path", .str dir)])

/-- `onMkdir(root, seq)`. -/
def onMkdir (root : Json) (seq : ℕ) : Act (Turn σ) Unit := do
  requireLogin
  let path ← stringArg (← root.item (str "data")) "path" ""
  let phys ← resolveUserPath b path false
  record (.makeDir phys)
  system (FileManager.makeDir b.files phys)
  let logical := str "/" ++ (← PathGuard.normalizeLogical path)
  let c ← fields
  record (.indexFile c.session.userId logical [] 0 true (str "ready"))
  system (TransferService.indexFile b c.session.userId logical [] 0 true (str "ready"))
  sendOk seq (.obj [])

/-- `onRm(root, seq)`. -/
def onRm (root : Json) (seq : ℕ) : Act (Turn σ) Unit := do
  requireLogin
  let path ← stringArg (← root.item (str "data")) "path" ""
  let logical ← PathGuard.normalizeLogical path
  if logical = [] then fail .forbidden (str "cannot remove user root")
  else
    let phys ← resolveUserPath b path false
    let c ← fields
    record (.removeUserPath c.session phys (str "/" ++ logical))
    system (TransferService.removeUserPath b c.session phys (str "/" ++ logical))
    sendOk seq (.obj [])

/-- `onStat(root, seq)`. -/
def onStat (root : Json) (seq : ℕ) : Act (Turn σ) Unit := do
  requireLogin
  let path ← stringArg (← root.item (str "data")) "path" "/"
  let logical ← PathGuard.normalizeLogical path
  let vpath := if logical = [] then str "/" else str "/" ++ logical
  let c ← fields
  record (.lookupFile c.session.userId vpath)
  match ← system (TransferService.lookupPlainFile b c.session.userId vpath) with
  | some indexed =>
    sendOk seq (.obj [(str "md5", .str indexed.md5), (str "mtime", .int 0),
      (str "name", .str (baseName vpath)), (str "readable", .bool true),
      (str "size", .int indexed.size),
      (str "status", .str (if indexed.status = [] then str "ready" else indexed.status)),
      (str "type", .str (str "file"))])
  | none =>
    let phys ← resolveUserPath b path true
    record (.statPath phys)
    let e ← system (FileManager.statPath b.files phys)
    sendOk seq (.obj [(str "mtime", .int e.mtime), (str "name", .str e.name),
      (str "size", .int e.size),
      (str "status", .str (if e.type = str "file" then str "ready" else str "ok")),
      (str "type", .str e.type)])

/-- `onRename(root, seq)`. -/
def onRename (root : Json) (seq : ℕ) : Act (Turn σ) Unit := do
  requireLogin
  let source ← stringArg (← root.item (str "data")) "from" ""
  let dest ← stringArg (← root.item (str "data")) "to" ""
  let fromVirtual := str "/" ++ (← PathGuard.normalizeLogical source)
  let toVirtual := str "/" ++ (← PathGuard.normalizeLogical dest)
  let fromPhys ← resolveExistingOrNew b source
  let toPhys ← resolveUserPath b dest false
  let c ← fields
  record (.renameUserPath c.session fromPhys fromVirtual toPhys toVirtual)
  system (TransferService.renameUserPath b c.session fromPhys fromVirtual toPhys toVirtual)
  sendOk seq (.obj [])

/-! ## Uploads -/

/-- `onInstantQuery(root, seq)`. -/
def onInstantQuery (root : Json) (seq : ℕ) : Act (Turn σ) Unit := do
  requireLogin
  let d ← root.item (str "data")
  let md5 ← stringArg d "md5" ""
  let size ← uint64Arg d "size"
  let c ← fields
  record (.queryInstant c.session md5 size)
  let q ← system (TransferService.queryInstant b c.session md5 size)
  sendOk seq (.obj [(str "challenge_len", .int q.challengeLen),
    (str "challenge_offset", .int q.challengeOffset), (str "hit", .bool q.hit),
    (str "size", .int q.size)])

/-- `onInstantUpload(root, seq)`. -/
def onInstantUpload (root : Json) (seq : ℕ) : Act (Turn σ) Unit := do
  requireLogin
  let d ← root.item (str "data")
  let path ← stringArg d "path" ""
  let logical ← PathGuard.normalizeLogical path
  let phys ← resolveUserPath b path false
  let md5 ← stringArg d "md5" ""
  let size ← uint64Arg d "size"
  let offset ← uint64Arg d "challenge_offset"
  let proof ← stringArg d "proof_md5" ""
  let overwrite ← boolArg d "overwrite"
  let c ← fields
  record (.instantUpload c.session phys (str "/" ++ logical) md5 size offset proof overwrite)
  system (TransferService.instantUpload b c.session phys (str "/" ++ logical) md5 size offset proof
    overwrite)
  sendOk seq (.obj [(str "instant", .bool true),
    (str "msg", .str (str "instant upload via reference counting; content shared in object store")),
    (str "readable", .bool true), (str "status", .str (str "ready"))])

/-- `onUploadBegin(root, seq)`. -/
def onUploadBegin (root : Json) (seq : ℕ) : Act (Turn σ) Unit := do
  requireLogin
  let d ← root.item (str "data")
  let path ← stringArg d "path" ""
  let logical ← PathGuard.normalizeLogical path
  record .closeUpload
  assign fun c => { c with upload := TransferService.closeUpload c.upload }
  let phys ← resolveUserPath b path false
  let md5 ← stringArg d "md5" ""
  let size ← uint64Arg d "size"
  let c ← fields
  record (.beginUpload c.session phys (str "/" ++ logical) md5 size)
  let st ← system (TransferService.beginUpload b c.session phys (str "/" ++ logical) md5 size)
  assign fun c => { c with upload := st }
  sendOk seq (.obj [(str "chunk_size", .int b.cfg.chunkSize), (str "file_id", .str st.fileId),
    (str "offset", .int st.received)])

/-- `handleChunk(chunk)`. -/
def handleChunk (chunk : ChunkPayload) : Act (Turn σ) Unit := do
  let c ← fields
  if !c.authed then fail .unauthorized (str "login required")
  else if c.upload.fileId = [] ∨ chunk.fileId ≠ c.upload.fileId then
    fail .badRequest (str "unexpected upload chunk")
  else
    record (.writeChunk chunk.offset chunk.data)
    withUpload (TransferService.writeChunk b chunk.offset chunk.data)

/-- `onUploadEnd(root, seq)`. -/
def onUploadEnd (seq : ℕ) : Act (Turn σ) Unit := do
  requireLogin
  let c ← fields
  record (.finishUpload c.session)
  withUpload (TransferService.finishUpload b c.session)
  let c ← fields
  assign fun c => { c with upload := {} }
  sendOk seq (.obj [(str "md5", .str c.upload.md5), (str "size", .int c.upload.totalSize),
    (str "status", .str (str "ready"))])

/-! ## Downloads -/

/-- `onDownloadBegin(root, seq)`. -/
def onDownloadBegin (root : Json) (seq : ℕ) : Act (Turn σ) Unit := do
  requireLogin
  let path ← stringArg (← root.item (str "data")) "path" ""
  let logical ← PathGuard.normalizeLogical path
  record .closeDownload
  assign fun c => { c with download := TransferService.closeDownload c.download }
  let phys ← resolveExistingOrNew b path
  let c ← fields
  record (.beginDownload c.session phys (str "/" ++ logical))
  let d ← system (TransferService.beginDownload b c.session (str "/" ++ logical))
  assign fun c => { c with download := d }
  sendOk seq (.obj [(str "chunk_size", .int b.cfg.chunkSize), (str "file_id", .str d.fileId),
    (str "size", .int d.totalSize)])

/-- `onDownloadChunk(root, seq)`. -/
def onDownloadChunk (root : Json) (seq : ℕ) : Act (Turn σ) Unit := do
  requireLogin
  let d ← root.item (str "data")
  let c ← fields
  let fileId ← stringArg d "file_id" ""
  if c.download.fileId = [] ∨ fileId ≠ c.download.fileId then
    fail .badRequest (str "no such download")
  else
    let offset ← uint64Arg d "offset"
    let length ← (← d.get (str "length") (.int b.cfg.chunkSize)).asUInt
    let want := if length = 0 ∨ length > kMaxFrameSize - 64 then b.cfg.chunkSize else length
    record (.readChunk offset want)
    let bytes ← system (TransferService.readChunk b c.download offset want)
    if bytes = [] then
      sendOk seq (.obj [(str "eof", .bool true), (str "offset", .int offset)])
    else sendChunk c.download.fileId offset bytes

/-! ## Frames -/

/-- The commands that `handleJson` knows. -/
inductive Command where
  | register | login | logout | ls | mkdir | rm | stat | rename | instantQuery | instantUpload
  | uploadBegin | uploadEnd | downloadBegin | downloadChunk
  deriving DecidableEq

/-- The comparisons of `cmd` in `handleJson`. -/
def Command.ofText (cmd : Bytes) : Option Command :=
  if cmd = str "register" then some .register
  else if cmd = str "login" then some .login
  else if cmd = str "logout" then some .logout
  else if cmd = str "ls" then some .ls
  else if cmd = str "mkdir" then some .mkdir
  else if cmd = str "rm" then some .rm
  else if cmd = str "stat" then some .stat
  else if cmd = str "rename" ∨ cmd = str "mv" then some .rename
  else if cmd = str "instant_query" then some .instantQuery
  else if cmd = str "instant_upload" then some .instantUpload
  else if cmd = str "upload_begin" then some .uploadBegin
  else if cmd = str "upload_end" then some .uploadEnd
  else if cmd = str "download_begin" then some .downloadBegin
  else if cmd = str "download_chunk" then some .downloadChunk
  else none

/-- The handler that `handleJson` starts for a command. -/
def handler (cmd : Command) (root : Json) (seq : ℕ) : Act (Turn σ) Unit :=
  match cmd with
  | .register => onRegister b root seq
  | .login => onLogin b root seq
  | .logout => onLogout b seq
  | .ls => onList b root seq
  | .mkdir => onMkdir b root seq
  | .rm => onRm b root seq
  | .stat => onStat b root seq
  | .rename => onRename b root seq
  | .instantQuery => onInstantQuery b root seq
  | .instantUpload => onInstantUpload b root seq
  | .uploadBegin => onUploadBegin b root seq
  | .uploadEnd => onUploadEnd b seq
  | .downloadBegin => onDownloadBegin b root seq
  | .downloadChunk => onDownloadChunk b root seq

/-- The token that `handleJson` logs in with before it looks at the command. -/
def implicitToken (authed : Bool) (root : Json) (cmd : Bytes) : Except Exn (Option Bytes) := do
  if authed then return none
  else if !(← root.isMember (str "token")) then return none
  else
    let token ← (← root.item (str "token")).asString
    if token = [] ∨ cmd = str "login" ∨ cmd = str "register" then return none
    else return some token

/-- The login by token at the start of `handleJson`. -/
def tokenLogin (root : Json) (cmd : Bytes) : Act (Turn σ) Unit := do
  let c ← fields
  match ← implicitToken c.authed root cmd with
  | none => return ()
  | some token =>
    record (.checkToken token)
    let s ← system (AuthService.checkToken b token)
    assign fun c => { c with session := s, authed := true }

/-- `handleJson(payload)`. -/
def handleJson (payload : JsonText) : Act (Turn σ) Unit := do
  match payload with
  | .error err => sendError 0 .badRequest (str "bad json: " ++ err)
  | .ok root =>
    let cmd ← stringArg root "cmd" ""
    let seq ← uint64Arg root "seq"
    tokenLogin b root cmd
    tryCatch
      (match Command.ofText cmd with
        | some c => handler b c root seq
        | none => sendError seq .badRequest (str "unknown cmd: " ++ cmd))
      fun e =>
        match e with
        | .cloud code msg => sendError seq code msg
        | e => throw e

/-- `handleFrame(frame)`. -/
def handleFrame (frame : Frame) : Act (Turn σ) Unit :=
  match frame with
  | .json text => handleJson b text
  | .chunk payload =>
    match Protocol.decodeChunk payload with
    | none => fail .badRequest (str "bad chunk")
    | some chunk => handleChunk b chunk
  | .other _ => fail .badRequest (str "unknown frame type")

/-- One round of the loop of `onRead`: `handleFrame` and its handlers of exceptions. -/
def onFrame (frame : Frame) : Act (Turn σ) Unit :=
  tryCatch (handleFrame b frame) fun e =>
    match e with
    | .cloud code msg => sendError 0 code msg
    | .std what => sendError 0 .internal what

end Connection

end CloudStore.Model
