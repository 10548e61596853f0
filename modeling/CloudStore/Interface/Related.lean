import CloudStore.Model.Beside
import CloudStore.Model.Connection

/-!
# Programs over related backends

The services are written over any backend. If the calls of two backends are related by a
congruence, so are the services over them; a scope of a connection may lead from one
congruence to the next. The statements that read are kept apart from the other calls, for
backends that differ in these.
-/

set_option autoImplicit false

namespace CloudStore.Interface

open CloudStore.Library (Bytes Handle Action)
open CloudStore.Library.Action (Congruence)
open CloudStore.Model
open CloudStore.Model.RedisStore
open CloudStore.Model.TransferService

variable {σ τ : Type}

/-! ## Calls -/

/-- The file calls are related. -/
structure FilesRelated (R : Congruence Exn σ τ) (f : FileCalls σ) (f' : FileCalls τ) : Prop where
  lstat : ∀ s, R.rel (f.lstat s) (f'.lstat s)
  stat : ∀ s, R.rel (f.stat s) (f'.stat s)
  realpath : ∀ s, R.rel (f.realpath s) (f'.realpath s)
  mkdir : ∀ s, R.rel (f.mkdir s) (f'.mkdir s)
  rmdir : ∀ s, R.rel (f.rmdir s) (f'.rmdir s)
  unlink : ∀ s, R.rel (f.unlink s) (f'.unlink s)
  chmod : ∀ s, R.rel (f.chmod s) (f'.chmod s)
  rename : ∀ s s', R.rel (f.rename s s') (f'.rename s s')
  opendir : ∀ s, R.rel (f.opendir s) (f'.opendir s)
  closedir : R.rel f.closedir f'.closedir
  openRead : ∀ s, R.rel (f.openRead s) (f'.openRead s)
  openCreate : ∀ s, R.rel (f.openCreate s) (f'.openCreate s)
  openTrunc : ∀ s, R.rel (f.openTrunc s) (f'.openTrunc s)
  fstat : ∀ i, R.rel (f.fstat i) (f'.fstat i)
  ftruncate : ∀ i, R.rel (f.ftruncate i) (f'.ftruncate i)
  pread : ∀ x off len, R.rel (f.pread x off len) (f'.pread x off len)
  pwrite : ∀ i off bytes, R.rel (f.pwrite i off bytes) (f'.pwrite i off bytes)
  readAll : ∀ x, R.rel (f.readAll x) (f'.readAll x)
  reads : ∀ x, R.rel (f.reads x) (f'.reads x)
  depth : R.rel f.depth f'.depth

/-- The Redis commands are related. -/
structure RedisRelated (R : Congruence Exn σ τ) (r : RedisCalls σ) (r' : RedisCalls τ) : Prop where
  cmdGet : ∀ key, R.rel (r.cmdGet key) (r'.cmdGet key)
  cmdSet : ∀ key value, R.rel (r.cmdSet key value) (r'.cmdSet key value)
  cmdSetEx : ∀ key value ttl, R.rel (r.cmdSetEx key value ttl) (r'.cmdSetEx key value ttl)
  cmdDel : ∀ key, R.rel (r.cmdDel key) (r'.cmdDel key)
  cmdSAdd : ∀ key value, R.rel (r.cmdSAdd key value) (r'.cmdSAdd key value)
  cmdSRem : ∀ key value, R.rel (r.cmdSRem key value) (r'.cmdSRem key value)
  cmdSCard : ∀ key, R.rel (r.cmdSCard key) (r'.cmdSCard key)
  getJson : ∀ key, R.rel (r.getJson key) (r'.getJson key)
  setJsonEx : ∀ key value ttl, R.rel (r.setJsonEx key value ttl) (r'.setJsonEx key value ttl)
  delJson : ∀ key, R.rel (r.delJson key) (r'.delJson key)

/-- Two backends are related, but for the statements that read. -/
structure Related (R : ℕ → Congruence Exn σ τ) (b : Backend σ) (b' : Backend τ) : Prop where
  cfg : b'.cfg = b.cfg
  md5Hex : b'.md5Hex = b.md5Hex
  sha256Hex : b'.sha256Hex = b.sha256Hex
  files : ∀ k, FilesRelated (R k) b.files b'.files
  redis : ∀ k, RedisRelated (R k) b.redis b'.redis
  randomBytes : ∀ k n, (R k).rel (b.randomBytes n) (b'.randomBytes n)
  withConn : ∀ k {α : Type} (a : Act σ α) (a' : Act τ α), (R k).rel a a' →
    (R (k + 1)).rel (b.sql.withConn a) (b'.sql.withConn a')
  prepare : ∀ k s, (R k).rel (b.sql.prepare s) (b'.sql.prepare s)
  insertUser : ∀ k name hash salt root,
    (R k).rel (b.sql.insertUser name hash salt root) (b'.sql.insertUser name hash salt root)
  insertLoginLog : ∀ k u ip ok,
    (R k).rel (b.sql.insertLoginLog u ip ok) (b'.sql.insertLoginLog u ip ok)
  upsertFile : ∀ k row, (R k).rel (b.sql.upsertFile row) (b'.sql.upsertFile row)
  deleteFile : ∀ k u p, (R k).rel (b.sql.deleteFile u p) (b'.sql.deleteFile u p)

/-- The statements that read are related. -/
structure SelectsRelated (R : ℕ → Congruence Exn σ τ) (b : Backend σ) (b' : Backend τ) : Prop where
  selectUser : ∀ k name, (R k).rel (b.sql.selectUser name) (b'.sql.selectUser name)
  countUsers : ∀ k, (R k).rel b.sql.countUsers b'.sql.countUsers
  selectFile : ∀ k u p, (R k).rel (b.sql.selectFile u p) (b'.sql.selectFile u p)
  selectPathsLike : ∀ k u pattern,
    (R k).rel (b.sql.selectPathsLike u pattern) (b'.sql.selectPathsLike u pattern)
  selectListing : ∀ k u p pattern,
    (R k).rel (b.sql.selectListing u p pattern) (b'.sql.selectListing u p pattern)

section

variable {R : ℕ → Congruence Exn σ (σ × τ)}

/-- A congruence that relates each program to itself beside the rest relates a backend to
itself beside the rest, if it relates the scopes. -/
theorem beside_related (hbeside : ∀ k {α : Type} (a : Act σ α), (R k).rel a (Action.beside a))
    {b : Backend σ} {scope : ∀ {α : Type}, Act (σ × τ) α → Act (σ × τ) α}
    (hscope : ∀ k {α : Type} (a : Act σ α) (a' : Act (σ × τ) α), (R k).rel a a' →
      (R (k + 1)).rel (b.sql.withConn a) (scope a')) :
    Related R b (b.beside scope) where
  cfg := rfl
  md5Hex := rfl
  sha256Hex := rfl
  files k := by constructor <;> intros <;> exact hbeside k _
  redis k := by constructor <;> intros <;> exact hbeside k _
  randomBytes k _ := hbeside k _
  withConn := hscope
  prepare k _ := hbeside k _
  insertUser k _ _ _ _ := hbeside k _
  insertLoginLog k _ _ _ := hbeside k _
  upsertFile k _ := hbeside k _
  deleteFile k _ _ := hbeside k _

theorem beside_selects (hbeside : ∀ k {α : Type} (a : Act σ α), (R k).rel a (Action.beside a))
    {b : Backend σ} {scope : ∀ {α : Type}, Act (σ × τ) α → Act (σ × τ) α} :
    SelectsRelated R b (b.beside scope) where
  selectUser k _ := hbeside k _
  countUsers k := hbeside k _
  selectFile k _ _ := hbeside k _
  selectPathsLike k _ _ := hbeside k _
  selectListing k _ _ _ := hbeside k _

end

/-- Programs beside an upload session are related as those of the system are. -/
structure SessionRelated (R : Congruence Exn σ τ)
    (U : Congruence Exn (σ × UploadSession) (τ × UploadSession)) : Prop where
  look : U.rel (Action.look Prod.snd) (Action.look Prod.snd)
  setSession : ∀ f, U.rel (setSession f) (setSession f)
  onSystem : ∀ {α : Type} (a : Act σ α) (a' : Act τ α), R.rel a a' →
    U.rel (onSystem a) (onSystem a')

/-! ## Files -/

namespace FilesRelated

variable {R : Congruence Exn σ τ} {f : FileCalls σ} {f' : FileCalls τ} (h : FilesRelated R f f')
include h

omit h in
theorem fail {α : Type} (code : ErrorCode) (msg : Bytes) :
    R.rel (fail code msg : Act σ α) (Model.fail code msg : Act τ α) := R.throw _

theorem fileExists (s : Bytes) : R.rel (fileExists f s) (Model.fileExists f' s) := by
  apply R.bind (h.lstat s)
  intro r
  cases r <;> exact R.pure _

theorem fileSize (s : Bytes) : R.rel (fileSize f s) (Model.fileSize f' s) := by
  apply R.bind (h.stat s)
  intro r
  cases r <;> exact R.pure _

theorem ensureDirLoop (cur : Bytes) (parts : List Bytes) :
    R.rel (ensureDirLoop f cur parts) (Model.ensureDirLoop f' cur parts) := by
  induction parts generalizing cur with
  | nil => exact R.pure true
  | cons part parts ih =>
      apply R.ite
      · exact fun _ => ih cur
      · intro _
        apply R.bind (h.mkdir _)
        intro r
        cases r with
        | ok _ => exact ih _
        | error e => exact R.ite (fun _ => ih _) fun _ => R.pure false

theorem ensureDir (s : Bytes) : R.rel (ensureDir f s) (Model.ensureDir f' s) :=
  R.ite (fun _ => R.pure false) fun _ => h.ensureDirLoop _ _

theorem mustRealpath (s : Bytes) :
    R.rel (PathGuard.mustRealpath f s) (PathGuard.mustRealpath f' s) := by
  apply R.bind (h.realpath s)
  intro r
  cases r with
  | ok real => exact R.pure real
  | error e => exact fail _ _

theorem resolveLoop (root norm : Bytes) (mustExist : Bool) (cur : Bytes) (parts : List Bytes) :
    R.rel (PathGuard.resolveLoop f root norm mustExist cur parts)
      (PathGuard.resolveLoop f' root norm mustExist cur parts) := by
  induction parts generalizing cur with
  | nil => exact R.ite (fun _ => R.pure cur) fun _ => fail _ _
  | cons name parts ih =>
      apply R.ite
      · exact fun _ => ih cur
      · intro _
        apply R.bind (h.lstat _)
        intro r
        cases r with
        | error e =>
            apply R.ite
            · exact fun _ => R.ite (fun _ => R.pure _) fun _ => fail _ _
            · exact fun _ => fail _ _
        | ok st =>
            obtain ⟨node, size, mtime⟩ := st
            cases node with
            | link g =>
                apply R.bind (h.mustRealpath _)
                intro real
                exact R.ite (fun _ => ih real) fun _ => fail _ _
            | special k => exact ih _
            | file i => exact R.ite (fun _ => ih _) fun _ => fail _ _
            | dir => exact R.ite (fun _ => ih _) fun _ => fail _ _

theorem resolve (userRoot logical : Bytes) (mustExist : Bool) :
    R.rel (PathGuard.resolve f userRoot logical mustExist)
      (PathGuard.resolve f' userRoot logical mustExist) := by
  apply R.ite
  · exact fun _ => fail _ _
  · intro _
    apply R.bind (h.mustRealpath userRoot)
    intro root
    apply R.lift_bind
    intro norm
    exact R.ite (fun _ => R.pure root) fun _ => h.resolveLoop _ _ _ _ _

theorem statPath (s : Bytes) : R.rel (FileManager.statPath f s) (FileManager.statPath f' s) := by
  apply R.bind (h.lstat s)
  intro r
  cases r with
  | error e => exact fail _ _
  | ok st => exact R.pure _

theorem listNames {descend : Bytes → Bytes → Act σ (List FileEntry)}
    {descend' : Bytes → Bytes → Act τ (List FileEntry)}
    (hdescend : ∀ s l, R.rel (descend s l) (descend' s l)) (recursive : Bool)
    (physical logical : Bytes) (names : List Bytes) :
    R.rel (FileManager.listNames f descend recursive physical logical names)
      (FileManager.listNames f' descend' recursive physical logical names) := by
  induction names with
  | nil => exact R.pure []
  | cons name names ih =>
      apply R.ite
      · exact fun _ => ih
      · intro _
        apply R.bind (h.lstat _)
        intro r
        cases r with
        | error e => exact ih
        | ok st =>
            dsimp only
            apply R.ite
            · exact fun _ => R.bind (hdescend _ _) fun below => R.bind ih fun rest => R.pure _
            · exact fun _ => R.bind (R.pure []) fun below => R.bind ih fun rest => R.pure _

theorem listDirRecursive (recursive : Bool) (depth : ℕ) (physical logical : Bytes) :
    R.rel (FileManager.listDirRecursive f recursive depth physical logical)
      (FileManager.listDirRecursive f' recursive depth physical logical) := by
  induction depth generalizing physical logical with
  | zero => exact R.throw _
  | succ depth ih =>
      apply R.bind (h.opendir physical)
      intro r
      cases r with
      | error e => exact fail _ _
      | ok names =>
          apply R.bind (h.listNames ih recursive physical logical names)
          intro out
          exact R.bind h.closedir fun _ => R.pure out

theorem listDir (physical : Bytes) (recursive : Bool) :
    R.rel (FileManager.listDir f physical recursive) (FileManager.listDir f' physical recursive) :=
  R.bind h.depth fun depth => h.listDirRecursive recursive depth physical []

theorem makeDir (physical : Bytes) :
    R.rel (FileManager.makeDir f physical) (FileManager.makeDir f' physical) := by
  apply R.bind (h.mkdir physical)
  intro r
  cases r with
  | ok _ => exact R.pure ()
  | error e => exact R.ite (fun _ => fail _ _) fun _ => fail _ _

omit h in
theorem removeNames {remove : Bytes → Act σ Unit} {remove' : Bytes → Act τ Unit}
    (hremove : ∀ s, R.rel (remove s) (remove' s)) (physical : Bytes) (names : List Bytes) :
    R.rel (FileManager.removeNames remove physical names)
      (FileManager.removeNames remove' physical names) := by
  induction names with
  | nil => exact R.pure ()
  | cons name names ih =>
      apply R.ite
      · exact fun _ => ih
      · exact fun _ => R.bind (hremove _) fun _ => ih

theorem removeRecursive (depth : ℕ) (physical : Bytes) :
    R.rel (FileManager.removeRecursive f depth physical)
      (FileManager.removeRecursive f' depth physical) := by
  induction depth generalizing physical with
  | zero => exact R.throw _
  | succ depth ih =>
      apply R.bind (h.lstat physical)
      intro r
      cases r with
      | error e => exact fail _ _
      | ok st =>
          apply R.ite
          · intro _
            apply R.bind (h.opendir physical)
            intro r
            cases r with
            | error e => exact fail _ _
            | ok names =>
                apply R.bind (removeNames ih physical names)
                intro _
                apply R.bind h.closedir
                intro _
                apply R.bind (h.rmdir physical)
                intro r
                cases r with
                | ok _ => exact R.pure ()
                | error e => exact fail _ _
          · intro _
            apply R.bind (h.unlink physical)
            intro r
            cases r with
            | ok _ => exact R.pure ()
            | error e => exact fail _ _

theorem removePath (physical : Bytes) :
    R.rel (FileManager.removePath f physical) (FileManager.removePath f' physical) :=
  R.bind h.depth fun depth => h.removeRecursive depth physical

theorem renamePath (source dest : Bytes) :
    R.rel (FileManager.renamePath f source dest) (FileManager.renamePath f' source dest) := by
  apply R.bind (h.fileExists dest)
  intro there
  apply R.ite
  · exact fun _ => fail _ _
  · intro _
    apply R.bind (h.rename source dest)
    intro r
    cases r with
    | ok _ => exact R.pure ()
    | error e => exact fail _ _

end FilesRelated

end CloudStore.Interface
