import CloudStore.Model.FileManager
import CloudStore.Model.RedisStore

/-!
# TransferService

`src/transfer.cpp`, function by function. A function that takes an `UploadSession&` acts
on the pair of the system and that session. A descriptor that is closed is `none`.
-/

set_option autoImplicit false

namespace CloudStore.Model

open CloudStore.Library (Bytes Node Handle Action)

/-- `struct UploadSession`; the descriptor is the inode of the part file. -/
structure UploadSession where
  fileId : Bytes := []
  destPath : Bytes := []
  virtualPath : Bytes := []
  partPath : Bytes := []
  md5 : Bytes := []
  totalSize : ℕ := 0
  received : ℕ := 0
  fd : Option ℕ := none
  deriving DecidableEq

/-- `struct DownloadSession`. -/
structure DownloadSession where
  fileId : Bytes := []
  srcPath : Bytes := []
  totalSize : ℕ := 0
  fd : Option Handle := none
  deriving DecidableEq

/-- `struct InstantQuery`. -/
structure InstantQuery where
  hit : Bool := false
  size : ℕ := 0
  challengeOffset : ℕ := 0
  challengeLen : ℕ := 0
  deriving DecidableEq

/-- `struct PendingFile`. -/
structure PendingFile where
  virtualPath : Bytes
  md5 : Bytes
  size : ℕ
  status : Bytes
  deriving DecidableEq

namespace TransferService

variable {σ : Type} (b : Backend σ)

/-- `objectPathFor(md5)`. -/
def objectPathFor (md5 : Bytes) : Except Exn Bytes :=
  if md5.length < 2 then .error (.cloud .badRequest (str "bad md5"))
  else .ok (joinPath (joinPath b.cfg.objectsRoot (md5.take 2)) md5)

/-- `resolveObjectPath(md5)`. -/
def resolveObjectPath (md5 : Bytes) : Act σ Bytes := do
  let cached ← RedisStore.getObjectPath b.redis md5
  if cached ≠ [] then return cached
  else objectPathFor b md5

/-! ## The index -/

/-- `indexFile(userId, virtualPath, md5, size, isDir, status)`. -/
def indexFile (userId : ℤ) (virtualPath md5 : Bytes) (size : ℕ) (isDir : Bool)
    (status : Bytes) : Act σ Unit :=
  b.sql.withConn do
    b.sql.prepare "INSERT INTO file_index(user_id, virtual_path, md5, size, is_dir, status) VALUES(?, ?, ?, ?, ?, ?) ON DUPLICATE KEY UPDATE md5=VALUES(md5), size=VALUES(size), is_dir=VALUES(is_dir), status=VALUES(status), updated_at=NOW()"
    tryCatch (b.sql.upsertFile ⟨userId, virtualPath, md5, size, isDir, status⟩) fun e =>
      fail .internal (str "index failed: " ++ e.what)

/-- `unindex(userId, virtualPath)`. -/
def unindex (userId : ℤ) (virtualPath : Bytes) : Act σ Unit :=
  b.sql.withConn do
    b.sql.prepare "DELETE FROM file_index WHERE user_id=? AND virtual_path=?"
    b.sql.deleteFile userId virtualPath
    RedisStore.delPathMd5 b.redis userId virtualPath

/-- `lookupFile(userId, virtualPath, out)`. -/
def lookupFile (userId : ℤ) (virtualPath : Bytes) : Act σ (Option FileRow) :=
  b.sql.withConn do
    b.sql.prepare "SELECT virtual_path, md5, size, is_dir, status FROM file_index WHERE user_id=? AND virtual_path=? LIMIT 1"
    tryCatch (b.sql.selectFile userId virtualPath) fun _ => return none

/-- `lookupFile(…) && !isDir`, with the row found. -/
def lookupPlainFile (userId : ℤ) (virtualPath : Bytes) : Act σ (Option FileRow) := do
  return (← lookupFile b userId virtualPath).filter fun r => !r.isDir

/-- `fileStatus(userId, virtualPath)`. -/
def fileStatus (userId : ℤ) (virtualPath : Bytes) : Act σ Bytes := do
  match ← lookupFile b userId virtualPath with
  | none => return []
  | some info => return info.status

/-- The pattern start that `listIndexed` and `releaseIndexedUnderPrefix` build. -/
def dirPrefix (dir : Bytes) : Bytes :=
  let start := if dir = [] then str "/" else dir
  if start.getLast? = some 47 then start else start ++ str "/"

/-- The test of `listIndexed` for a path that is no direct child. -/
def nested (start virtualPath : Bytes) : Bool :=
  let rest :=
    if start ≠ str "/" ∧ start.isPrefixOf virtualPath then
      let cut := virtualPath.drop (start.length - 1)
      if cut.head? = some 47 then cut.drop 1 else cut
    else if start = str "/" ∧ virtualPath.head? = some 47 then virtualPath.drop 1
    else virtualPath
  rest.contains 47

/-- `listIndexed(userId, dirLogical)`. -/
def listIndexed (userId : ℤ) (dirLogical : Bytes) : Act σ (List PendingFile) :=
  b.sql.withConn do
    let start := dirPrefix dirLogical
    b.sql.prepare "SELECT virtual_path, md5, size, status FROM file_index WHERE user_id=? AND is_dir=0 AND (virtual_path=? OR virtual_path LIKE ?)"
    let rows ← tryCatch (b.sql.selectListing userId dirLogical (start ++ str "%")) fun _ => return []
    return (rows.filter fun r => !nested start r.virtualPath).map fun r =>
      { virtualPath := r.virtualPath, md5 := r.md5, size := r.size
        status := if r.status = [] then str "ready" else r.status }

/-! ## References and objects -/

/-- The inner loop of `copyToObjectStore`: whether all bytes were written. -/
def writeLoop (out pos : ℕ) : ℕ → Bytes → Act σ Bool
  | _, [] => return true
  | 0, _ :: _ => throw (.std (str "recursion bound"))
  | fuel + 1, c :: buf => do
    match ← b.files.pwrite out pos (c :: buf) with
    | .error _ => return false
    | .ok w => writeLoop out (pos + w) fuel ((c :: buf).drop w)

/-- The outer loop of `copyToObjectStore`: the number of bytes copied. -/
def copyLoop (input : Handle) (out : ℕ) (dest : Bytes) (bufSize : ℕ) : ℕ → ℕ → Act σ ℕ
  | 0, _ => throw (.std (str "recursion bound"))
  | fuel + 1, copied => do
    match ← b.files.pread input copied bufSize with
    | .error _ =>
      let _ ← b.files.unlink dest
      fail .internal (str "read source failed")
    | .ok [] => return copied
    | .ok (c :: buf) =>
      if ← writeLoop b out copied (buf.length + 1) (c :: buf) then
        copyLoop input out dest bufSize fuel (copied + (buf.length + 1))
      else
        let _ ← b.files.unlink dest
        fail .internal (str "write object failed")

/-- `copyToObjectStore(src, dest, expectedSize)`. -/
def copyToObjectStore (src dest : Bytes) (expectedSize : ℕ) : Act σ Unit := do
  match ← b.files.openRead src with
  | .error _ => fail .notFound (str "source missing for object publish")
  | .ok input =>
    let _ ← ensureDir b.files (parentDir dest)
    match ← b.files.openTrunc dest with
    | .error e => fail .internal (str "open object failed: " ++ strerror e)
    | .ok out =>
      let bufSize := if b.cfg.chunkSize ≠ 0 then b.cfg.chunkSize else 65536
      let copied ← copyLoop b input out dest bufSize (← b.files.reads input) 0
      if expectedSize ≠ 0 ∧ copied ≠ expectedSize then
        let _ ← b.files.unlink dest
        fail .unprocessable (str "object size mismatch")

/-- `fileExists(path) && fileSize(path) == size`. -/
def hasSize (path : Bytes) (size : ℕ) : Act σ Bool := do
  if ← fileExists b.files path then return decide ((← fileSize b.files path) = size)
  else return false

/-- `publishObject(md5, srcFile, size)`. -/
def publishObject (md5 srcFile : Bytes) (size : ℕ) : Act σ Unit := do
  let obj ← objectPathFor b md5
  if ← hasSize b obj size then RedisStore.setObject b.redis md5 obj size
  else
    let _ ← ensureDir b.files (parentDir obj)
    copyToObjectStore b srcFile obj size
    let _ ← b.files.chmod obj
    RedisStore.setObject b.redis md5 obj size

/-- `addContentRef(userId, virtualPath, md5, size)`. -/
def addContentRef (userId : ℤ) (virtualPath md5 : Bytes) (size : ℕ) : Act σ Unit := do
  RedisStore.addRef b.redis md5 userId virtualPath
  indexFile b userId virtualPath md5 size false (str "ready")
  RedisStore.setPathMd5 b.redis userId virtualPath md5

/-- The md5 that `releaseContentRef` releases: of the path key, else of the row. -/
def releasedMd5 (userId : ℤ) (virtualPath : Bytes) : Act σ Bytes := do
  let md5 ← RedisStore.getPathMd5 b.redis userId virtualPath
  if md5 = [] then
    match ← lookupPlainFile b userId virtualPath with
    | some info => return info.md5
    | none => return []
  else return md5

/-- The collection of an object in `releaseContentRef`. -/
def collectObject (md5 : Bytes) : Act σ Unit := do
  let obj ← resolveObjectPath b md5
  if ← fileExists b.files obj then
    let _ ← b.files.chmod obj
    let _ ← b.files.unlink obj
  RedisStore.deleteObjectMeta b.redis md5

/-- `releaseContentRef(userId, virtualPath)`. -/
def releaseContentRef (userId : ℤ) (virtualPath : Bytes) : Act σ Unit := do
  let md5 ← releasedMd5 b userId virtualPath
  if md5 ≠ [] then
    let refs ← RedisStore.removeRef b.redis md5 userId virtualPath
    if refs ≤ 0 then collectObject b md5
  unindex b userId virtualPath

/-- `releaseIndexedUnderPrefix(userId, dirVirtual)`. -/
def releaseIndexedUnderPrefix (userId : ℤ) (dirVirtual : Bytes) : Act σ Unit :=
  b.sql.withConn do
    b.sql.prepare "SELECT virtual_path FROM file_index WHERE user_id=? AND is_dir=0 AND virtual_path LIKE ?"
    let paths ← b.sql.selectPathsLike userId (dirPrefix dirVirtual ++ str "%")
    Action.each (fun vp => releaseContentRef b userId vp) paths

/-- `renameIndexedFile(userId, fromVirtual, toVirtual, md5, size)`. -/
def renameIndexedFile (userId : ℤ) (fromVirtual toVirtual md5 : Bytes) (size : ℕ) :
    Act σ Unit := do
  let _ ← RedisStore.removeRef b.redis md5 userId fromVirtual
  RedisStore.addRef b.redis md5 userId toVirtual
  RedisStore.delPathMd5 b.redis userId fromVirtual
  indexFile b userId toVirtual md5 size false (str "ready")
  RedisStore.setPathMd5 b.redis userId toVirtual md5
  b.sql.withConn do
    b.sql.prepare "DELETE FROM file_index WHERE user_id=? AND virtual_path=?"
    b.sql.deleteFile userId fromVirtual

/-! ## Instant upload -/

/-- The seed loop of `queryInstant`, on 64 bits. -/
def challengeSeed (s : Bytes) : ℕ := s.foldl (fun seed c => (seed * 131 + c.toNat) % 2 ^ 64) 0

/-- The challenge of `queryInstant` for a size and a seed: offset and length. -/
def challengeWindow (challengeBytes size seed : ℕ) : ℕ × ℕ :=
  if size = 0 then (0, 0)
  else
    let wanted := if challengeBytes = 0 then 4096 else challengeBytes
    let clen := if wanted > size then size else wanted
    let span := if size > clen then size - clen else 0
    (if span ≠ 0 then seed % span else 0, clen)

/-- `queryInstant(session, md5, size)`. -/
def queryInstant (session : UserSession) (md5 : Bytes) (size : ℕ) : Act σ InstantQuery := do
  if md5.length ≠ 32 then fail .badRequest (str "md5 must be 32 hex chars")
  else
    let obj ← resolveObjectPath b md5
    if ← hasSize b obj size then
      let (offset, len) :=
        challengeWindow b.cfg.challengeBytes size (challengeSeed (md5 ++ session.token))
      RedisStore.setChallenge b.redis session.token md5 offset len
      return { hit := true, size := size, challengeOffset := offset, challengeLen := len }
    else return {}

/-- The checks of `instantUpload`, before it changes anything. -/
def checkProof (session : UserSession) (md5 : Bytes) (size proofOffset : ℕ)
    (proofMd5 : Bytes) : Act σ Unit := do
  match ← RedisStore.getChallenge b.redis session.token md5 with
  | none => fail .badRequest (str "missing instant challenge, call instant_query first")
  | some (expectOff, expectLen) =>
    if proofOffset ≠ expectOff then fail .forbidden (str "challenge offset mismatch")
    else
      let obj ← resolveObjectPath b md5
      if !(← fileExists b.files obj) then fail .notFound (str "object not in store")
      else if (← fileSize b.files obj) ≠ size then fail .unprocessable (str "size mismatch")
      else if expectLen > 0 then
        let real ← md5FileRange b obj expectOff expectLen
        if real ≠ proofMd5 then fail .forbidden (str "possession proof failed")

/-- The part of `instantUpload` that makes the destination free. -/
def clearDestination (userId : ℤ) (destPath virtualPath : Bytes) (overwrite : Bool) :
    Act σ Unit := do
  match ← lookupPlainFile b userId virtualPath with
  | some _ =>
    if overwrite then releaseContentRef b userId virtualPath
    else fail .conflict (str "destination exists")
  | none =>
    if ← fileExists b.files destPath then
      if overwrite then
        let _ ← b.files.unlink destPath
      else fail .conflict (str "destination exists")

/-- `instantUpload(session, destPath, virtualPath, md5, size, proofOffset, proofMd5, overwrite)`. -/
def instantUpload (session : UserSession) (destPath virtualPath md5 : Bytes)
    (size proofOffset : ℕ) (proofMd5 : Bytes) (overwrite : Bool) : Act σ Unit := do
  checkProof b session md5 size proofOffset proofMd5
  RedisStore.delChallenge b.redis session.token md5
  clearDestination b session.userId destPath virtualPath overwrite
  let _ ← ensureDir b.files (parentDir destPath)
  addContentRef b session.userId virtualPath md5 size

/-! ## Upload in chunks -/

/-- The name of a part file in the directory of its user. -/
def partName (md5 destPath : Bytes) : Bytes :=
  md5 ++ str "_" ++ baseName destPath ++ str ".part"

/-- The bytes that `beginUpload` takes as received; a part file that is too long is
emptied. -/
def resumeAt (fd size : ℕ) : Act σ ℕ := do
  match ← b.files.fstat fd with
  | .error _ => return 0
  | .ok n =>
    if n > size then
      let _ ← b.files.ftruncate fd
      return 0
    else return n

/-- `beginUpload(session, destPath, virtualPath, md5, size)`. -/
def beginUpload (session : UserSession) (destPath virtualPath md5 : Bytes) (size : ℕ) :
    Act σ UploadSession := do
  if size > b.cfg.maxUploadBytes then fail .payloadTooLarge (str "file too large")
  else if md5.length ≠ 32 then fail .badRequest (str "md5 must be 32 hex chars")
  else
    let tmpDir := joinPath b.cfg.tmpRoot session.username
    let _ ← ensureDir b.files tmpDir
    let _ ← ensureDir b.files (parentDir destPath)
    let fileId ← randomHex b 16
    let partPath := joinPath tmpDir (partName md5 destPath)
    match ← b.files.openCreate partPath with
    | .error e => fail .internal (str "open part failed: " ++ strerror e)
    | .ok fd =>
      let received ← resumeAt b fd size
      return { fileId := fileId, destPath := destPath, virtualPath := virtualPath
               partPath := partPath, md5 := md5, totalSize := size, received := received
               fd := some fd }

section UploadSession

/-- Run a program of the system beside an upload session. -/
def onSystem {α : Type} (a : Act σ α) : Act (σ × UploadSession) α :=
  Action.zoom Prod.fst (fun s st => (s, st.2)) a

/-- Change the upload session. -/
def setSession (f : UploadSession → UploadSession) : Act (σ × UploadSession) Unit :=
  Action.change fun st => (st.1, f st.2)

/-- `writeChunk(st, offset, data, len)`, with sums on 64 bits. -/
def writeChunk (offset : ℕ) (data : Bytes) : Act (σ × UploadSession) Unit := do
  let st ← Action.look Prod.snd
  match st.fd with
  | none => fail .badRequest (str "no active upload")
  | some fd =>
    let stop := (offset + data.length) % 2 ^ 64
    if stop > st.totalSize then fail .badRequest (str "chunk out of range")
    else
      match ← onSystem (b.files.pwrite fd offset data) with
      | .error _ => fail .internal (str "pwrite failed")
      | .ok n =>
        if n ≠ data.length then fail .internal (str "pwrite failed")
        else if stop > st.received then setSession fun st => { st with received := stop }

/-- The part of `finishUpload` after the descriptor is closed. -/
def commitUpload (session : UserSession) (st : UploadSession) : Act σ Unit := do
  if (← fileSize b.files st.partPath) ≠ st.totalSize then
    fail .unprocessable (str "uploaded size mismatch")
  else if (← md5File b st.partPath) ≠ st.md5 then
    let _ ← b.files.unlink st.partPath
    fail .unprocessable (str "md5 mismatch, transfer corrupted")
  else
    match ← lookupPlainFile b session.userId st.virtualPath with
    | some _ => releaseContentRef b session.userId st.virtualPath
    | none =>
      if ← fileExists b.files st.destPath then
        let _ ← b.files.unlink st.destPath
    publishObject b st.md5 st.partPath st.totalSize
    let _ ← b.files.unlink st.partPath
    addContentRef b session.userId st.virtualPath st.md5 st.totalSize

/-- `finishUpload(session, st)`. -/
def finishUpload (session : UserSession) : Act (σ × UploadSession) Unit := do
  let st ← Action.look Prod.snd
  match st.fd with
  | none => fail .badRequest (str "no active upload")
  | some _ =>
    setSession fun st => { st with fd := none }
    onSystem (commitUpload b session st)

end UploadSession

/-- `closeUpload(st)`. -/
def closeUpload (st : UploadSession) : UploadSession := { st with fd := none }

/-! ## Download -/

/-- The md5 that `beginDownload` reads: of the path key, else of the row. -/
def downloadMd5 (userId : ℤ) (virtualPath : Bytes) : Act σ Bytes := do
  let key ← RedisStore.getPathMd5 b.redis userId virtualPath
  if key = [] then
    match ← lookupPlainFile b userId virtualPath with
    | none => fail .notFound (str "file not found")
    | some info =>
      if info.md5 = [] then fail .notFound (str "file not found") else return info.md5
  else return key

/-- `beginDownload(session, physical, virtualPath)`; the physical path is not read. -/
def beginDownload (session : UserSession) (virtualPath : Bytes) : Act σ DownloadSession := do
  let fileId ← randomHex b 16
  let md5 ← downloadMd5 b session.userId virtualPath
  let src ← resolveObjectPath b md5
  if !(← fileExists b.files src) then fail .notFound (str "object missing")
  else
    let totalSize ← fileSize b.files src
    match ← b.files.openRead src with
    | .error _ => fail .internal (str "open download failed")
    | .ok fd => return { fileId := fileId, srcPath := src, totalSize := totalSize, fd := some fd }

/-- `readChunk(st, offset, buf, len)`: the bytes read. -/
def readChunk (st : DownloadSession) (offset len : ℕ) : Act σ Bytes := do
  match st.fd with
  | none => fail .badRequest (str "no active download")
  | some fd =>
    if offset ≥ st.totalSize then return []
    else
      let len := if (offset + len) % 2 ^ 64 > st.totalSize then (st.totalSize - offset) % 2 ^ 32 else len
      match ← b.files.pread fd offset len with
      | .error _ => fail .internal (str "pread failed")
      | .ok bytes => return bytes

/-- `closeDownload(st)`. -/
def closeDownload (st : DownloadSession) : DownloadSession := { st with fd := none }

/-! ## Removing and renaming -/

/-- `removeUserPath(session, physical, virtualPath)`. -/
def removeUserPath (session : UserSession) (physical virtualPath : Bytes) : Act σ Unit := do
  match ← lookupPlainFile b session.userId virtualPath with
  | some _ =>
    releaseContentRef b session.userId virtualPath
    if ← fileExists b.files physical then
      let _ ← b.files.unlink physical
  | none =>
    match ← b.files.lstat physical with
    | .ok st =>
      if st.node = .dir then
        releaseIndexedUnderPrefix b session.userId virtualPath
        FileManager.removePath b.files physical
        unindex b session.userId virtualPath
      else
        match ← b.files.unlink physical with
        | .ok _ => releaseContentRef b session.userId virtualPath
        | .error e =>
          if e = .enoent then releaseContentRef b session.userId virtualPath
          else fail .internal (str "unlink failed: " ++ strerror e)
    | .error _ => releaseContentRef b session.userId virtualPath

/-- The part of `renameUserPath` for a path that is no indexed file. -/
def renamePhysical (userId : ℤ) (fromPhysical fromVirtual toPhysical toVirtual : Bytes) :
    Act σ Unit := do
  FileManager.renamePath b.files fromPhysical toPhysical
  let md5 ← RedisStore.getPathMd5 b.redis userId fromVirtual
  let sz ← if ← fileExists b.files toPhysical then fileSize b.files toPhysical else pure 0
  unindex b userId fromVirtual
  indexFile b userId toVirtual md5 sz false (str "ready")
  if md5 ≠ [] then RedisStore.setPathMd5 b.redis userId toVirtual md5

/-- `renameUserPath(session, fromPhysical, fromVirtual, toPhysical, toVirtual)`. -/
def renameUserPath (session : UserSession)
    (fromPhysical fromVirtual toPhysical toVirtual : Bytes) : Act σ Unit := do
  match ← lookupPlainFile b session.userId fromVirtual with
  | some info => renameIndexedFile b session.userId fromVirtual toVirtual info.md5 info.size
  | none => renamePhysical b session.userId fromPhysical fromVirtual toPhysical toVirtual

end TransferService

end CloudStore.Model
