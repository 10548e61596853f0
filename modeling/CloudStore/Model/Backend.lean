import CloudStore.Model.Json

/-!
# What the server calls

The server reaches its files, Redis and MySQL only through the calls gathered here, so
its functions are written once, over any state type and any implementation of the calls.
`CloudStore.Model.World` implements them without faults.

A file call answers with a value or an error number, as the C functions do with their
result and `errno`. A Redis or SQL call answers with the value that `RedisStore` or
`MysqlStmt` reads off the reply, or throws.
-/

set_option autoImplicit false

namespace CloudStore.Model

open CloudStore.Library (Bytes Name Node Errno Handle)

/-- `strerror(errno)`. -/
def strerror : Errno → Bytes
  | .enoent => str "No such file or directory"
  | .eexist => str "File exists"
  | .enotdir => str "Not a directory"
  | .eisdir => str "Is a directory"
  | .enotempty => str "Directory not empty"
  | .einval => str "Invalid argument"
  | .ebusy => str "Device or resource busy"
  | .eloop => str "Too many levels of symbolic links"
  | .enxio => str "No such device or address"
  | .eio => str "Input/output error"

/-- The fields of `struct stat` that are read. -/
structure FileStat where
  node : Node
  size : ℕ
  mtime : ℤ

/-- The file calls. Reads and writes take their offset explicitly; closing a descriptor
has no effect beyond dropping it, so there is no call for it. -/
structure FileCalls (σ : Type) where
  lstat : Bytes → Act σ (Except Errno FileStat)
  stat : Bytes → Act σ (Except Errno FileStat)
  realpath : Bytes → Act σ (Except Errno Bytes)
  mkdir : Bytes → Act σ (Except Errno Unit)
  rmdir : Bytes → Act σ (Except Errno Unit)
  unlink : Bytes → Act σ (Except Errno Unit)
  chmod : Bytes → Act σ (Except Errno Unit)
  rename : Bytes → Bytes → Act σ (Except Errno Unit)
  /-- `opendir`, and the names that `readdir` then delivers. -/
  opendir : Bytes → Act σ (Except Errno (List Name))
  closedir : Act σ Unit
  /-- `open` with `O_RDONLY`. -/
  openRead : Bytes → Act σ (Except Errno Handle)
  /-- `open` with `O_RDWR | O_CREAT`. -/
  openCreate : Bytes → Act σ (Except Errno ℕ)
  /-- `open` with `O_WRONLY | O_CREAT | O_TRUNC`. -/
  openTrunc : Bytes → Act σ (Except Errno ℕ)
  /-- `fstat`, for the size. -/
  fstat : ℕ → Act σ (Except Errno ℕ)
  /-- `ftruncate(fd, 0)`. -/
  ftruncate : ℕ → Act σ (Except Errno Unit)
  pread : Handle → ℕ → ℕ → Act σ (Except Errno Bytes)
  pwrite : ℕ → ℕ → Bytes → Act σ (Except Errno ℕ)
  /-- What reading a stream to its end, or to the first failing read, delivers. -/
  readAll : Handle → Act σ Bytes
  /-- A bound on the number of reads until the end of a file. -/
  reads : Handle → Act σ ℕ
  /-- A bound on the depth of the tree. -/
  depth : Act σ ℕ

/-- The commands of `RedisStore`, each with the value it reads off the reply. Sessions
are JSON texts, all other values are strings. -/
structure RedisCalls (σ : Type) where
  cmdGet : Bytes → Act σ Bytes
  cmdSet : Bytes → Bytes → Act σ Unit
  cmdSetEx : Bytes → Bytes → ℤ → Act σ Unit
  cmdDel : Bytes → Act σ Unit
  cmdSAdd : Bytes → Bytes → Act σ ℤ
  cmdSRem : Bytes → Bytes → Act σ ℤ
  cmdSCard : Bytes → Act σ ℤ
  getJson : Bytes → Act σ (Option JsonText)
  setJsonEx : Bytes → JsonText → ℤ → Act σ Unit
  delJson : Bytes → Act σ Unit

/-- A row of `users`. -/
structure UserRow where
  id : ℤ
  username : Bytes
  passwordHash : Bytes
  salt : Bytes
  rootDir : Bytes
  deriving DecidableEq

/-- A row of `file_index`. -/
structure FileRow where
  userId : ℤ
  virtualPath : Bytes
  md5 : Bytes
  size : ℕ
  isDir : Bool
  status : Bytes
  deriving DecidableEq

/-- The statements that are run, one call each. -/
structure SqlCalls (σ : Type) where
  /-- The scope of a connection of the pool: `acquire`, the body, the release. -/
  withConn : ∀ {α : Type}, Act σ α → Act σ α
  /-- `MysqlStmt(conn, sql)`. -/
  prepare : String → Act σ Unit
  selectUser : Bytes → Act σ (Option UserRow)
  /-- `SELECT COUNT(*) FROM users`. -/
  countUsers : Act σ ℤ
  /-- The new id. -/
  insertUser : Bytes → Bytes → Bytes → Bytes → Act σ ℤ
  insertLoginLog : ℤ → Bytes → Bool → Act σ Unit
  upsertFile : FileRow → Act σ Unit
  deleteFile : ℤ → Bytes → Act σ Unit
  selectFile : ℤ → Bytes → Act σ (Option FileRow)
  /-- `is_dir=0 AND virtual_path LIKE ?`. -/
  selectPathsLike : ℤ → Bytes → Act σ (List Bytes)
  /-- `is_dir=0 AND (virtual_path=? OR virtual_path LIKE ?)`. -/
  selectListing : ℤ → Bytes → Bytes → Act σ (List FileRow)

/-- Everything the server calls, with its configuration. -/
structure Backend (σ : Type) where
  cfg : Config
  files : FileCalls σ
  redis : RedisCalls σ
  sql : SqlCalls σ
  /-- OpenSSL's digests, as lowercase hex texts. -/
  md5Hex : Bytes → Bytes
  sha256Hex : Bytes → Bytes
  randomBytes : ℕ → Act σ Bytes

section

variable {σ : Type} (files : FileCalls σ)

/-- `fileExists(path)`. -/
def fileExists (path : Bytes) : Act σ Bool := do
  match ← files.lstat path with
  | .ok _ => return true
  | .error _ => return false

/-- `fileSize(path)`. -/
def fileSize (path : Bytes) : Act σ ℕ := do
  match ← files.stat path with
  | .ok st => return st.size
  | .error _ => return 0

/-- The loop of `ensureDir`. -/
def ensureDirLoop (cur : Bytes) : List Bytes → Act σ Bool
  | [] => return true
  | part :: parts =>
    if part = [] ∨ part = str "." then ensureDirLoop cur parts
    else do
      let next :=
        if cur = str "/" then cur ++ part
        else if cur = [] then part
        else cur ++ str "/" ++ part
      match ← files.mkdir next with
      | .ok _ => ensureDirLoop next parts
      | .error e => if e = .eexist then ensureDirLoop next parts else return false

/-- `ensureDir(path)`. -/
def ensureDir (path : Bytes) : Act σ Bool :=
  if path = [] then return false
  else ensureDirLoop files (if path.head? = some 47 then str "/" else []) (split path 47)

end

section

variable {σ : Type} (b : Backend σ)

/-- `randomHex(nbytes)`. -/
def randomHex (nbytes : ℕ) : Act σ Bytes := do
  return toHex (← b.randomBytes nbytes)

/-- `md5File(path)`. -/
def md5File (path : Bytes) : Act σ Bytes := do
  match ← b.files.openRead path with
  | .error _ => throw (.std (str "cannot open file for md5: " ++ path))
  | .ok h => return b.md5Hex (← b.files.readAll h)

/-- `md5FileRange(path, offset, len)`. -/
def md5FileRange (path : Bytes) (offset len : ℕ) : Act σ Bytes := do
  match ← b.files.openRead path with
  | .error _ => throw (.std (str "cannot open file for md5 range: " ++ path))
  | .ok h =>
    if 2 ^ 63 ≤ offset then
      throw (.std (str "seek failed for md5 range: " ++ path))
    else
      match ← b.files.pread h offset len with
      | .error _ =>
        if len = 0 then return b.md5Hex []
        else throw (.std (str "short read for md5 range: " ++ path))
      | .ok bytes =>
        if bytes.length = len then return b.md5Hex bytes
        else throw (.std (str "short read for md5 range: " ++ path))

/-- `hashPassword(saltHex, password)`. -/
def hashPassword (saltHex password : Bytes) : Bytes := b.sha256Hex (saltHex ++ password)

/-- `verifyPassword(saltHex, password, expectedHash)`. -/
def verifyPassword (saltHex password expectedHash : Bytes) : Bool :=
  hashPassword b saltHex password = expectedHash

end

end CloudStore.Model
