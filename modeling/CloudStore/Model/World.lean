import CloudStore.Model.Connection
import Mathlib.Data.Finset.Card

/-!
# The stores

The calls of `Backend` carried out on a state: a file tree, the tables `users` and
`file_index`, and the key space of Redis. A call fails where its arguments make it fail;
besides that, a `Disk` says which reads and writes of open files fail or fall short. The
disk of a state is without faults unless an event brings in another.

How the stores read their arguments is a `Dialect`. `Dialect.exact` takes keys, paths and
names as they are. In the dialect of the shipped servers Redis receives an argument up to
its first zero byte, and MySQL compares texts under a collation and checks the width of
the column `md5`.
-/

set_option autoImplicit false

namespace CloudStore.Model

open CloudStore.Library (Bytes Path Plain FileTree Node Handle Action)
open CloudStore.Library.Posix (cstr render)

/-- A hexadecimal digit. -/
def isHexDigit (c : UInt8) : Bool :=
  (48 ≤ c && c ≤ 57) || (65 ≤ c && c ≤ 70) || (97 ≤ c && c ≤ 102)

/-- 32 hexadecimal digits. -/
def Hex32 (m : Bytes) : Prop := m.length = 32 ∧ ∀ c ∈ m, isHexDigit c = true

instance (m : Bytes) : Decidable (Hex32 m) := inferInstanceAs (Decidable (_ ∧ _))

/-- `text LIKE pattern`, byte by byte. -/
def sqlLike : Bytes → Bytes → Bool
  | [], text => text = []
  | 37 :: pattern, text => text.tails.any fun s => sqlLike pattern s
  | 95 :: _, [] => false
  | 95 :: pattern, _ :: text => sqlLike pattern text
  | 92 :: _ :: _, [] => false
  | 92 :: c :: pattern, x :: text => c == x && sqlLike pattern text
  | _ :: _, [] => false
  | c :: pattern, x :: text => c == x && sqlLike pattern text

/-- The number of characters of an UTF-8 text. -/
def charLength (s : Bytes) : ℕ := s.countP fun c => c.toNat / 64 ≠ 2

/-- A text without the blanks at its end, as a `CHAR` column keeps it. -/
def trimEnd (s : Bytes) : Bytes := (s.reverse.dropWhile (· = 32)).reverse

/-- How the stores read their arguments. -/
structure Dialect where
  /-- Redis receives its arguments as C strings. -/
  cStrings : Bool
  /-- `virtual_path = ?`. -/
  samePath : Bytes → Bytes → Bool
  /-- Equality under the unique key of `file_index`, for rows of one user. -/
  sameKey : Bytes → Bytes → Bool
  /-- `virtual_path LIKE ?`. -/
  like : Bytes → Bytes → Bool
  /-- `username = ?`, which is the unique key of `users` too. -/
  sameName : Bytes → Bytes → Bool
  /-- What the column `md5` keeps of a text; `none` if it is too long. -/
  md5Column : Bytes → Option Bytes
  /-- A text that equals a valid username has no dot, no slash and no zero byte. -/
  sameName_plain : ∀ name username, sameName name username = true →
    validUsername username = true → 46 ∉ name ∧ 47 ∉ name ∧ 0 ∉ name
  /-- Beside a Redis that receives C strings, `md5` is a `CHAR(32)` column under strict
  mode. -/
  md5_short : cStrings = true → ∀ m kept, md5Column m = some kept →
    kept = trimEnd m ∧ charLength kept ≤ 32
  /-- Beside a Redis that takes its arguments exactly, `md5` keeps every text. -/
  md5_exact : cStrings = false → ∀ m, md5Column m = some m

namespace Dialect

/-- What Redis receives of an argument. -/
def arg (d : Dialect) (s : Bytes) : Bytes := if d.cStrings then cstr s else s

theorem nameChar_ne {c : UInt8} (h : isNameChar c = true) : c ≠ 46 ∧ c ≠ 47 ∧ c ≠ 0 := by
  refine ⟨?_, ?_, ?_⟩ <;> rintro rfl <;> exact absurd h (by decide)

/-- What a valid username is made of. -/
theorem validUsername_plain {u : Bytes} (h : validUsername u = true) :
    47 ∉ u ∧ 0 ∉ u ∧ 46 ∉ u ∧ 3 ≤ u.length := by
  simp only [validUsername, Bool.and_eq_true, decide_eq_true_eq, List.all_eq_true] at h
  refine ⟨fun hc => ?_, fun hc => ?_, fun hc => ?_, h.1.1⟩
  · exact (nameChar_ne (h.2 _ hc)).2.1 rfl
  · exact (nameChar_ne (h.2 _ hc)).2.2 rfl
  · exact (nameChar_ne (h.2 _ hc)).1 rfl

/-- Keys, paths and names are taken as they are. -/
def exact : Dialect where
  cStrings := false
  samePath a b := a == b
  sameKey a b := a == b
  like text pattern := sqlLike pattern text
  sameName a b := a == b
  md5Column m := some m
  sameName_plain := by
    intro name username h hvalid
    have heq : name = username := by simpa using h
    subst heq
    obtain ⟨hslash, hzero, hdot, -⟩ := validUsername_plain hvalid
    exact ⟨hdot, hslash, hzero⟩
  md5_short := by simp
  md5_exact := fun _ _ => rfl

end Dialect

/-- What stays the same while the server runs. -/
structure Env where
  cfg : Config
  dialect : Dialect
  md5Hex : Bytes → Bytes
  sha256Hex : Bytes → Bytes
  mtime : Node → ℤ
  /-- The storage root, which `cfg` gives as a text. -/
  root : Path
  root_ne : root ≠ []
  root_plain : ∀ n ∈ root, Plain n
  storageRoot_eq : cfg.storageRoot = render root
  md5_hex : ∀ bytes, Hex32 (md5Hex bytes)

/-- The key space of Redis, by the type of the values; a missing string reads as empty. -/
structure Redis where
  strings : Bytes → Bytes := fun _ => []
  sessions : Bytes → Option JsonText := fun _ => none
  sets : Bytes → Finset Bytes := fun _ => ∅

/-- What a disk refuses. -/
structure Disk where
  /-- Reading the file at an offset fails. -/
  readFails : Handle → ℕ → Bool := fun _ _ => false
  /-- The number of bytes that a write of the file at an offset puts down at most. -/
  room : ℕ → ℕ → Option ℕ := fun _ _ => none

/-- The part of a buffer that a write puts down. -/
def Disk.accepts (d : Disk) (i off : ℕ) (bytes : Bytes) : Bytes :=
  match d.room i off with
  | none => bytes
  | some n => bytes.take n

/-- The state of the stores. Random bytes are read off `entropy`, from `drawn` on. -/
structure World where
  fs : FileTree
  disk : Disk := {}
  redis : Redis := {}
  users : List UserRow := []
  nextId : ℤ := 1
  rows : List FileRow := []
  entropy : ℕ → UInt8
  drawn : ℕ := 0

namespace World

variable (env : Env)

/-- Change the file tree, if the call succeeds. -/
def fileCall (f : FileTree → Except Library.Errno FileTree) :
    Act World (Except Library.Errno Unit) :=
  Action.move fun w =>
    match f w.fs with
    | .ok t => (.ok (), { w with fs := t })
    | .error e => (.error e, w)

/-- Open a file for writing, if the call succeeds. -/
def openCall (f : FileTree → Except Library.Errno (ℕ × FileTree)) :
    Act World (Except Library.Errno ℕ) :=
  Action.move fun w =>
    match f w.fs with
    | .ok (i, t) => (.ok i, { w with fs := t })
    | .error e => (.error e, w)

/-- The answer of `lstat` and `stat` for a node. -/
def fileStat (t : FileTree) (node : Node) : FileStat :=
  { node := node, size := Library.Posix.sizeOf t node, mtime := env.mtime node }

/-- The bytes of a file after a write. -/
def written (old : Bytes) (off : ℕ) (bytes : Bytes) : Bytes :=
  if bytes = [] then old else Library.Posix.splice old off bytes

/-- The file calls. -/
def files : FileCalls World where
  lstat s := Action.look fun w => (Library.Posix.lstat w.fs s).map (fileStat env w.fs)
  stat s := Action.look fun w => (Library.Posix.stat w.fs s).map (fileStat env w.fs)
  realpath s := Action.look fun w => Library.Posix.realpath w.fs s
  mkdir s := fileCall fun t => Library.Posix.mkdir t s
  rmdir s := fileCall fun t => Library.Posix.rmdir t s
  unlink s := fileCall fun t => Library.Posix.unlink t s
  chmod s := Action.look fun w => (Library.Posix.stat w.fs s).map fun _ => ()
  rename s s' := fileCall fun t => Library.Posix.rename t s s'
  opendir s := Action.look fun w =>
    (Library.Posix.readdir w.fs s).map fun names => str "." :: str ".." :: names
  closedir := return ()
  openRead s := Action.look fun w => Library.Posix.openRead w.fs s
  openCreate s := openCall fun t => Library.Posix.openCreate t s
  openTrunc s := openCall fun t => Library.Posix.openTrunc t s
  fstat i := Action.look fun w => .ok (w.fs.data i).length
  ftruncate i := fileCall fun t => .ok (t.write i [])
  pread h off len := Action.look fun w =>
    match h with
    | .file i =>
      if w.disk.readFails h off then .error .eio
      else if off < 2 ^ 63 then .ok (((w.fs.data i).drop off).take len)
      else .error .einval
    | .dir => .error .eisdir
  pwrite i off bytes := Action.move fun w =>
    let part := w.disk.accepts i off bytes
    if ¬ off + bytes.length < 2 ^ 63 then (.error .einval, w)
    else if part = [] ∧ bytes ≠ [] then (.error .eio, w)
    else (.ok part.length, { w with fs := w.fs.write i (written (w.fs.data i) off part) })
  readAll h := Action.look fun w =>
    match h with
    | .file i => w.fs.data i
    | .dir => []
  reads h := Action.look fun w =>
    match h with
    | .file i => (w.fs.data i).length + 1
    | .dir => 1
  depth := Action.look fun w => (w.fs.listing.map List.length).foldr max 0 + 1

/-- Change the key space. -/
def redisCall (f : Redis → Redis) : Act World Unit :=
  Action.change fun w => { w with redis := f w.redis }

/-- The Redis commands. -/
def redisCalls : RedisCalls World where
  cmdGet key := Action.look fun w => w.redis.strings (env.dialect.arg key)
  cmdSet key value := redisCall fun r =>
    { r with strings := Function.update r.strings (env.dialect.arg key) value }
  cmdSetEx key value ttl := redisCall fun r =>
    if 0 < ttl then { r with strings := Function.update r.strings (env.dialect.arg key) value }
    else r
  cmdDel key := redisCall fun r =>
    { r with strings := Function.update r.strings (env.dialect.arg key) []
             sets := Function.update r.sets (env.dialect.arg key) ∅ }
  cmdSAdd key value := Action.move fun w =>
    let old := w.redis.sets (env.dialect.arg key)
    let new := insert (env.dialect.arg value) old
    ((new.card : ℤ) - old.card,
      { w with redis := { w.redis with sets := Function.update w.redis.sets (env.dialect.arg key) new } })
  cmdSRem key value := Action.move fun w =>
    let old := w.redis.sets (env.dialect.arg key)
    let new := old.erase (env.dialect.arg value)
    ((old.card : ℤ) - new.card,
      { w with redis := { w.redis with sets := Function.update w.redis.sets (env.dialect.arg key) new } })
  cmdSCard key := Action.look fun w => ((w.redis.sets (env.dialect.arg key)).card : ℤ)
  getJson key := Action.look fun w => w.redis.sessions (env.dialect.arg key)
  setJsonEx key value ttl := redisCall fun r =>
    if 0 < ttl then
      { r with sessions := Function.update r.sessions (env.dialect.arg key) (some value) }
    else r
  delJson key := redisCall fun r =>
    { r with sessions := Function.update r.sessions (env.dialect.arg key) none }

/-- The row of `file_index` for a user and a path. -/
def isRow (userId : ℤ) (virtualPath : Bytes) (r : FileRow) : Bool :=
  r.userId = userId && env.dialect.samePath r.virtualPath virtualPath

/-- The row that an insertion of `new` would duplicate. -/
def isDuplicate (new r : FileRow) : Bool :=
  r.userId = new.userId && env.dialect.sameKey r.virtualPath new.virtualPath

/-- `INSERT INTO file_index … ON DUPLICATE KEY UPDATE`. -/
def upsertRow (rows : List FileRow) (new : FileRow) : List FileRow :=
  if rows.any (isDuplicate env new) then
    rows.map fun r =>
      if isDuplicate env new r then
        { r with md5 := new.md5, size := new.size, isDir := new.isDir, status := new.status }
      else r
  else rows ++ [new]

/-- The SQL statements. -/
def sqlCalls : SqlCalls World where
  withConn a := a
  prepare _ := return ()
  selectUser name := Action.look fun w =>
    w.users.find? fun r => env.dialect.sameName name r.username
  countUsers := Action.look fun w => (w.users.length : ℤ)
  insertUser username passwordHash salt rootDir := fun w =>
    if w.users.any fun r => env.dialect.sameName username r.username then
      (.error (.std (str "mysql_stmt_execute: Duplicate entry")), w)
    else
      (.ok w.nextId,
        { w with users := w.users ++ [⟨w.nextId, username, passwordHash, salt, rootDir⟩]
                 nextId := w.nextId + 1 })
  insertLoginLog _ _ _ := return ()
  upsertFile row := fun w =>
    match env.dialect.md5Column row.md5 with
    | none => (.error (.std (str "mysql_stmt_execute: Data too long for column 'md5'")), w)
    | some kept => (.ok (), { w with rows := upsertRow env w.rows { row with md5 := kept } })
  deleteFile userId virtualPath := Action.change fun w =>
    { w with rows := w.rows.filter fun r => !isRow env userId virtualPath r }
  selectFile userId virtualPath := Action.look fun w => w.rows.find? (isRow env userId virtualPath)
  selectPathsLike userId pattern := Action.look fun w =>
    (w.rows.filter fun r =>
      r.userId = userId && !r.isDir && env.dialect.like r.virtualPath pattern).map
        FileRow.virtualPath
  selectListing userId path pattern := Action.look fun w =>
    w.rows.filter fun r =>
      r.userId = userId && !r.isDir &&
        (env.dialect.samePath r.virtualPath path || env.dialect.like r.virtualPath pattern)

/-- The stores as a backend of the server. -/
def backend : Backend World where
  cfg := env.cfg
  files := files env
  redis := redisCalls env
  sql := sqlCalls env
  md5Hex := env.md5Hex
  sha256Hex := env.sha256Hex
  randomBytes n := Action.move fun w =>
    ((List.range n).map fun k => w.entropy (w.drawn + k), { w with drawn := w.drawn + n })

@[simp] theorem backend_cfg : (backend env).cfg = env.cfg := rfl

@[simp] theorem backend_files : (backend env).files = files env := rfl

@[simp] theorem backend_redis : (backend env).redis = redisCalls env := rfl

@[simp] theorem backend_sql : (backend env).sql = sqlCalls env := rfl

@[simp] theorem backend_md5Hex : (backend env).md5Hex = env.md5Hex := rfl

/-- The path of a directory of the storage root. -/
def usersDir : Path := env.root ++ [str "users"]

def objectsDir : Path := env.root ++ [str "objects"]

def tmpDir : Path := env.root ++ [str "tmp"]

/-- The place of the object of an md5. -/
def objectPath (md5 : Bytes) : Path := objectsDir env ++ [md5.take 2, md5]

/-- The bytes of the object of an md5. -/
def object (w : World) (md5 : Bytes) : Option Bytes := w.fs.fileAt (objectPath env md5)

/-- No two files hold different bytes with the same md5. -/
def CollisionFree (w : World) : Prop :=
  ∀ p q x y, w.fs.fileAt p = some x → w.fs.fileAt q = some y → env.md5Hex x = env.md5Hex y → x = y

/-- The empty store: no rows, no keys, a disk without faults, and the three directories of
the storage root are there and empty. -/
structure Empty (w : World) : Prop where
  disk : w.disk = {}
  users : w.users = []
  rows : w.rows = []
  redis : w.redis = {}
  no_links : w.fs.NoLinks
  users_dir : w.fs.entry (usersDir env) = some .dir
  objects_dir : w.fs.entry (objectsDir env) = some .dir
  tmp_dir : w.fs.entry (tmpDir env) = some .dir
  empty_dirs : ∀ d ∈ [usersDir env, objectsDir env, tmpDir env], ∀ n, w.fs.entry (d ++ [n]) = none

end World

end CloudStore.Model
