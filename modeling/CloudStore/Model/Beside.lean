import CloudStore.Library.Relation
import CloudStore.Model.Backend

/-!
# A part of the state beside a backend

The calls of a backend on a larger state, of which they change their own part.
-/

set_option autoImplicit false

namespace CloudStore.Model

open CloudStore.Library (Bytes Action)

variable {σ : Type}

/-- The file calls, with a part of the state beside. -/
def FileCalls.beside (τ : Type) (f : FileCalls σ) : FileCalls (σ × τ) where
  lstat s := Action.beside (f.lstat s)
  stat s := Action.beside (f.stat s)
  realpath s := Action.beside (f.realpath s)
  mkdir s := Action.beside (f.mkdir s)
  rmdir s := Action.beside (f.rmdir s)
  unlink s := Action.beside (f.unlink s)
  chmod s := Action.beside (f.chmod s)
  rename s s' := Action.beside (f.rename s s')
  opendir s := Action.beside (f.opendir s)
  closedir := Action.beside f.closedir
  openRead s := Action.beside (f.openRead s)
  openCreate s := Action.beside (f.openCreate s)
  openTrunc s := Action.beside (f.openTrunc s)
  fstat i := Action.beside (f.fstat i)
  ftruncate i := Action.beside (f.ftruncate i)
  pread x off len := Action.beside (f.pread x off len)
  pwrite i off bytes := Action.beside (f.pwrite i off bytes)
  readAll x := Action.beside (f.readAll x)
  reads x := Action.beside (f.reads x)
  depth := Action.beside f.depth

/-- The Redis commands, with a part of the state beside. -/
def RedisCalls.beside (τ : Type) (r : RedisCalls σ) : RedisCalls (σ × τ) where
  cmdGet key := Action.beside (r.cmdGet key)
  cmdSet key value := Action.beside (r.cmdSet key value)
  cmdSetEx key value ttl := Action.beside (r.cmdSetEx key value ttl)
  cmdDel key := Action.beside (r.cmdDel key)
  cmdSAdd key value := Action.beside (r.cmdSAdd key value)
  cmdSRem key value := Action.beside (r.cmdSRem key value)
  cmdSCard key := Action.beside (r.cmdSCard key)
  getJson key := Action.beside (r.getJson key)
  setJsonEx key value ttl := Action.beside (r.setJsonEx key value ttl)
  delJson key := Action.beside (r.delJson key)

/-- The SQL statements, with a part of the state beside; `scope` is the scope of a
connection. -/
def SqlCalls.beside {τ : Type} (q : SqlCalls σ)
    (scope : ∀ {α : Type}, Act (σ × τ) α → Act (σ × τ) α) : SqlCalls (σ × τ) where
  withConn a := scope a
  prepare s := Action.beside (q.prepare s)
  selectUser name := Action.beside (q.selectUser name)
  countUsers := Action.beside q.countUsers
  insertUser name hash salt root := Action.beside (q.insertUser name hash salt root)
  insertLoginLog u ip ok := Action.beside (q.insertLoginLog u ip ok)
  upsertFile row := Action.beside (q.upsertFile row)
  deleteFile u p := Action.beside (q.deleteFile u p)
  selectFile u p := Action.beside (q.selectFile u p)
  selectPathsLike u pattern := Action.beside (q.selectPathsLike u pattern)
  selectListing u p pattern := Action.beside (q.selectListing u p pattern)

/-- A backend, with a part of the state beside. -/
def Backend.beside {τ : Type} (b : Backend σ)
    (scope : ∀ {α : Type}, Act (σ × τ) α → Act (σ × τ) α) : Backend (σ × τ) where
  cfg := b.cfg
  files := b.files.beside τ
  redis := b.redis.beside τ
  sql := b.sql.beside scope
  md5Hex := b.md5Hex
  sha256Hex := b.sha256Hex
  randomBytes n := Action.beside (b.randomBytes n)

end CloudStore.Model
