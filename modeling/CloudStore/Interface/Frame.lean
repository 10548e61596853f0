import CloudStore.Interface.Safety

/-!
# What every call of a kind does

A relation between worlds that is kept by every call of the stores, other than those that
move, open or write files, is kept by every function of the server that makes no other
calls. The functions follow one by one; nothing about paths or about the contents of the
stores is assumed. With it, what the server does to files that are in use: outside the
uploads, they keep their bytes.
-/

set_option autoImplicit false

namespace CloudStore.Interface

open CloudStore.Library (Bytes FileTree Tame Action)
open CloudStore.Library.Action
open CloudStore.Library.Posix
open CloudStore.Model
open CloudStore.Model.TransferService
open CloudStore.Model.World (files redisCalls backend)

/-- The relation holds on the way through every call but `rmdir`, `rename`, and the calls that
open or write files. -/
structure FramedCore (env : Env) (R : World → World → Prop) : Prop where
  refl : ∀ w, R w w
  trans : ∀ w w' w'', R w w' → R w' w'' → R w w''
  mkdir : ∀ s, Moves R ((files env).mkdir s)
  unlink : ∀ s, Moves R ((files env).unlink s)
  redis : ∀ w r, R w { w with redis := r }
  rows : ∀ w rows, R w { w with rows := rows }
  users : ∀ w users n, R w { w with users := users, nextId := n }
  drawn : ∀ w n, R w { w with drawn := n }

namespace FramedCore

variable {env : Env} {R : World → World → Prop} {u : ℤ} (h : FramedCore env R)
include h

theorem pure {α : Type} (x : α) : Moves R (Pure.pure x : Act World α) := Moves.of_pure h.refl x

theorem fail {α : Type} (code : ErrorCode) (msg : Bytes) :
    Moves R (Model.fail code msg : Act World α) := Moves.of_throw h.refl _

theorem reads {α : Type} {a : Act World α} (ha : Reads a) : Moves R a := by
  intro w
  rw [ha w]
  exact h.refl w

theorem bind {α β : Type} {a : Act World α} {f : α → Act World β} (ha : Moves R a)
    (hf : ∀ x, Moves R (f x)) : Moves R (a >>= f) := Moves.bind h.trans ha hf

theorem tryCatch {α : Type} {a : Act World α} {f : Exn → Act World α} (ha : Moves R a)
    (hf : ∀ e, Moves R (f e)) : Moves R (tryCatch a f) := Moves.tryCatch h.trans ha hf

theorem each {f : Bytes → Act World Unit} (hf : ∀ x, Moves R (f x)) (xs : List Bytes) :
    Moves R (Action.each f xs) := Moves.each h.refl h.trans hf xs

theorem ensureDir (path : Bytes) : Moves R (Model.ensureDir (files env) path) :=
  ensureDir_moves h.refl h.trans h.mkdir path

/-! ## Records -/

theorem setString (key value : Bytes) : Moves R ((redisCalls env).cmdSet key value) :=
  fun w => h.redis w _

theorem delKey (key : Bytes) : Moves R ((redisCalls env).cmdDel key) := fun w => h.redis w _

theorem addMember (key value : Bytes) : Moves R ((redisCalls env).cmdSAdd key value) :=
  fun w => h.redis w _

theorem removeMember (key value : Bytes) : Moves R ((redisCalls env).cmdSRem key value) :=
  fun w => h.redis w _

theorem removeRef (md5 p : Bytes) : Moves R (RedisStore.removeRef (redisCalls env) md5 u p) := by
  unfold RedisStore.removeRef
  apply h.bind (h.removeMember _ _)
  intro _
  exact h.reads fun _ => rfl

theorem addRef (md5 p : Bytes) : Moves R (RedisStore.addRef (redisCalls env) md5 u p) := by
  unfold RedisStore.addRef
  apply h.bind (h.addMember _ _)
  intro _
  exact h.pure ()

theorem setObject (md5 path : Bytes) (size : ℕ) :
    Moves R (RedisStore.setObject (redisCalls env) md5 path size) := by
  unfold RedisStore.setObject
  apply h.bind (h.setString _ _)
  intro _
  exact h.setString _ _

theorem deleteObjectMeta (md5 : Bytes) :
    Moves R (RedisStore.deleteObjectMeta (redisCalls env) md5) := by
  unfold RedisStore.deleteObjectMeta
  apply h.bind (h.delKey _)
  intro _
  apply h.bind (h.delKey _)
  intro _
  exact h.delKey _

theorem setSession (token : Bytes) (json : JsonText) (ttl : ℤ) :
    Moves R (RedisStore.setSession (redisCalls env) token json ttl) := fun w => h.redis w _

theorem indexFile (p md5 : Bytes) (size : ℕ) (isDir : Bool) (status : Bytes) :
    Moves R (TransferService.indexFile (backend env) u p md5 size isDir status) := by
  intro w
  rcases indexFile_eq p md5 size isDir status w with ⟨kept, -, hrun⟩ | ⟨-, e, hrun⟩
  · rw [hrun]
    exact h.rows w _
  · rw [hrun]
    exact h.refl w

theorem deleteFile (p : Bytes) : Moves R ((World.sqlCalls env).deleteFile u p) :=
  fun w => h.rows w _

theorem unindex (p : Bytes) : Moves R (TransferService.unindex (backend env) u p) := by
  apply h.bind (h.reads fun _ => rfl)
  intro _
  apply h.bind (h.deleteFile p)
  intro _
  exact h.delKey _

theorem addContentRef (p md5 : Bytes) (size : ℕ) :
    Moves R (TransferService.addContentRef (backend env) u p md5 size) := by
  apply h.bind (h.addRef md5 p)
  intro _
  apply h.bind (h.indexFile p md5 size false _)
  intro _
  exact h.setString _ _

/-! ## References and objects -/

theorem collectObject (md5 : Bytes) :
    Moves R (TransferService.collectObject (backend env) md5) := by
  unfold TransferService.collectObject
  apply h.bind (h.reads (resolveObjectPath_reads md5))
  intro obj
  apply h.bind (h.reads (fileExists_reads obj))
  intro there
  cases there with
  | false => exact h.deleteObjectMeta md5
  | true =>
      apply h.bind (h.reads fun _ => rfl)
      intro _
      apply h.bind (h.unlink obj)
      intro _
      exact h.deleteObjectMeta md5

theorem releaseContentRef (p : Bytes) :
    Moves R (TransferService.releaseContentRef (backend env) u p) := by
  unfold TransferService.releaseContentRef
  apply h.bind (h.reads (releasedMd5_reads p))
  intro md5
  dsimp only
  split
  · apply h.bind (h.removeRef md5 p)
    intro refs
    split
    · apply h.bind (h.collectObject md5)
      intro _
      exact h.unindex p
    · exact h.unindex p
  · exact h.unindex p

theorem releaseIndexedUnderPrefix (dir : Bytes) :
    Moves R (TransferService.releaseIndexedUnderPrefix (backend env) u dir) := by
  apply h.bind (h.reads fun _ => rfl)
  intro _
  apply h.bind (h.reads fun _ => rfl)
  intro paths
  exact h.each (fun vp => h.releaseContentRef vp) paths

/-! ## Files and directories -/

theorem makeDir (physical : Bytes) : Moves R (FileManager.makeDir (files env) physical) := by
  apply h.bind (h.mkdir physical)
  intro r
  cases r with
  | ok _ => exact h.pure ()
  | error e =>
      dsimp only
      split
      · exact h.fail _ _
      · exact h.fail _ _

theorem removeNames {remove : Bytes → Act World Unit} (hremove : ∀ s, Moves R (remove s))
    (physical : Bytes) (names : List Bytes) :
    Moves R (FileManager.removeNames remove physical names) := by
  induction names with
  | nil => exact h.pure ()
  | cons name names ih =>
      rw [FileManager.removeNames]
      split
      · exact ih
      · apply h.bind (hremove _)
        intro _
        exact ih

/-- A rename, if the relation holds on the way through `FileManager::renamePath`. -/
theorem renameUserPath (session : UserSession) {source dest : Bytes} (p q : Bytes)
    (hrename : Moves R (FileManager.renamePath (files env) source dest)) :
    Moves R (TransferService.renameUserPath (backend env) session source p dest q) := by
  unfold TransferService.renameUserPath
  apply h.bind (h.reads (lookupPlainFile_reads p))
  intro row
  cases row with
  | some info =>
      apply h.bind (h.removeRef info.md5 p)
      intro _
      apply h.bind (h.addRef info.md5 q)
      intro _
      apply h.bind (h.delKey _)
      intro _
      apply h.bind (h.indexFile q info.md5 info.size false _)
      intro _
      apply h.bind (h.setString _ _)
      intro _
      apply h.bind (h.reads fun _ => rfl)
      intro _
      exact h.deleteFile p
  | none =>
      apply h.bind hrename
      intro _
      apply h.bind (h.reads fun _ => rfl)
      intro md5
      apply h.bind (h.reads (fileExists_reads dest))
      intro there
      have hrest : ∀ sz : ℕ, Moves R (do
          TransferService.unindex (backend env) session.userId p
          TransferService.indexFile (backend env) session.userId q md5 sz false (str "ready")
          if md5 ≠ [] then RedisStore.setPathMd5 (redisCalls env) session.userId q md5) := by
        intro sz
        apply h.bind (h.unindex p)
        intro _
        apply h.bind (h.indexFile q md5 sz false _)
        intro _
        split
        · exact h.setString _ _
        · exact h.pure ()
      cases there with
      | false => exact hrest 0
      | true =>
          apply h.bind (h.reads (fileSize_reads dest))
          intro sz
          exact hrest sz

/-! ## Transfers -/

theorem randomHex (n : ℕ) : Moves R (Model.randomHex (backend env) n) := by
  intro w
  exact h.drawn w _

theorem queryInstant (session : UserSession) (md5 : Bytes) (size : ℕ) :
    Moves R (TransferService.queryInstant (backend env) session md5 size) := by
  unfold TransferService.queryInstant
  split
  · exact h.fail _ _
  · apply h.bind (h.reads (resolveObjectPath_reads md5))
    intro obj
    apply h.bind (h.reads (hasSize_reads obj size))
    intro there
    cases there with
    | false => exact h.pure _
    | true =>
        have hchallenge : ∀ offset len, Moves R
            (RedisStore.setChallenge (redisCalls env) session.token md5 offset len) := by
          intro offset len w
          exact h.redis w _
        apply h.bind (hchallenge _ _)
        intro _
        exact h.pure _

theorem clearDestination (dest p : Bytes) (overwrite : Bool) :
    Moves R (TransferService.clearDestination (backend env) u dest p overwrite) := by
  unfold TransferService.clearDestination
  apply h.bind (h.reads (lookupPlainFile_reads p))
  intro row
  cases row with
  | some _ =>
      cases overwrite with
      | true => exact h.releaseContentRef p
      | false => exact h.fail _ _
  | none =>
      apply h.bind (h.reads (fileExists_reads dest))
      intro there
      cases there with
      | false => exact h.pure ()
      | true =>
          cases overwrite with
          | false => exact h.fail _ _
          | true =>
              apply h.bind (h.unlink dest)
              intro _
              exact h.pure ()

theorem instantUpload (session : UserSession) (dest p md5 : Bytes) (size offset : ℕ)
    (proof : Bytes) (overwrite : Bool) :
    Moves R (TransferService.instantUpload (backend env) session dest p md5 size offset proof
      overwrite) := by
  apply h.bind (h.reads (checkProof_reads session md5 size offset proof))
  intro _
  apply h.bind (h.delKey _)
  intro _
  apply h.bind (h.clearDestination dest p overwrite)
  intro _
  apply h.bind (h.ensureDir _)
  intro _
  exact h.addContentRef p md5 size

theorem beginDownload (session : UserSession) (p : Bytes) :
    Moves R (TransferService.beginDownload (backend env) session p) := by
  unfold TransferService.beginDownload
  apply h.bind (h.randomHex 16)
  intro fileId
  apply h.bind (h.reads (downloadMd5_reads p))
  intro md5
  apply h.bind (h.reads (resolveObjectPath_reads md5))
  intro src
  apply h.bind (h.reads (fileExists_reads src))
  intro there
  cases there with
  | false => exact h.fail _ _
  | true =>
      apply h.bind (h.reads (fileSize_reads src))
      intro size
      apply h.bind (h.reads fun _ => rfl)
      intro r
      cases r with
      | error e => exact h.fail _ _
      | ok fd => exact h.pure _

/-! ## Accounts -/

theorem ensureUserRoot (name : Bytes) :
    Moves R (AuthService.ensureUserRoot (backend env) name) := by
  unfold AuthService.ensureUserRoot
  apply h.bind (h.ensureDir _)
  intro made
  cases made with
  | true => exact h.pure _
  | false => exact h.fail _ _

theorem insertUser (name hash salt root : Bytes) :
    Moves R ((World.sqlCalls env).insertUser name hash salt root) := by
  intro w
  simp only [World.sqlCalls]
  split
  · exact h.refl w
  · exact h.users w _ _

theorem registerUser (name password : Bytes) :
    Moves R (AuthService.registerUser (backend env) name password) := by
  unfold AuthService.registerUser
  split
  · exact h.fail _ _
  · apply h.bind (h.randomHex 16)
    intro salt
    apply h.bind (h.ensureUserRoot name)
    intro root
    have hinsert : Moves R (do
        (World.sqlCalls env).prepare
          "INSERT INTO users(username, password_hash, salt, root_dir) VALUES(?, ?, ?, ?)"
        (World.sqlCalls env).insertUser name (hashPassword (backend env) salt password) salt root) :=
      h.bind (h.reads fun _ => rfl) fun _ => h.insertUser name _ salt root
    apply h.bind (h.tryCatch hinsert fun e => ?_)
    · intro id
      exact h.pure _
    · split
      · exact h.fail _ _
      · exact h.fail _ _

theorem login (name password ip : Bytes) :
    Moves R (AuthService.login (backend env) name password ip) := by
  apply h.bind (h.reads fun _ => rfl)
  intro _
  apply h.bind (h.reads fun _ => rfl)
  intro row
  cases row with
  | none =>
      apply h.bind (h.reads (logLogin_reads 0 ip false))
      intro _
      exact h.fail _ _
  | some row =>
      dsimp only
      split
      · apply h.bind (h.reads (logLogin_reads row.id ip false))
        intro _
        exact h.fail _ _
      · apply h.bind (h.ensureUserRoot name)
        intro root
        apply h.bind (h.randomHex 32)
        intro token
        apply h.bind (h.setSession token _ _)
        intro _
        apply h.bind (h.reads (logLogin_reads row.id ip true))
        intro _
        exact h.pure _

theorem checkToken (token : Bytes) : Moves R (AuthService.checkToken (backend env) token) := by
  unfold AuthService.checkToken
  split
  · exact h.fail _ _
  · apply h.bind (h.reads fun _ => rfl)
    intro stored
    cases stored with
    | none => exact h.fail _ _
    | some raw =>
        cases raw with
        | error e => exact h.fail _ _
        | ok js =>
            apply h.bind (h.reads (Reads.of_lift (AuthService.readSession token js)))
            intro s
            apply h.bind (h.setSession token _ _)
            intro _
            exact h.pure _

theorem logout (token : Bytes) : Moves R (AuthService.logout (backend env) token) :=
  fun w => h.redis w _

end FramedCore

/-! ## Calls that remove directories -/

/-- The relation holds on the way through every call but `rename`, and the calls that open
or write files. -/
structure Framed (env : Env) (R : World → World → Prop) : Prop extends FramedCore env R where
  rmdir : ∀ s, Moves R ((files env).rmdir s)

namespace Framed

variable {env : Env} {R : World → World → Prop} (h : Framed env R)
include h

theorem removeRecursive (depth : ℕ) (physical : Bytes) :
    Moves R (FileManager.removeRecursive (files env) depth physical) := by
  induction depth generalizing physical with
  | zero => exact Moves.of_throw h.refl _
  | succ depth ih =>
      rw [FileManager.removeRecursive]
      apply h.bind (h.reads fun _ => rfl)
      intro r
      cases r with
      | error e => exact h.fail _ _
      | ok st =>
          dsimp only
          split
          · apply h.bind (h.reads fun _ => rfl)
            intro listed
            cases listed with
            | error e => exact h.fail _ _
            | ok names =>
                apply h.bind (h.removeNames ih physical names)
                intro _
                apply h.bind (h.reads fun _ => rfl)
                intro _
                apply h.bind (h.rmdir physical)
                intro r
                cases r with
                | ok _ => exact h.pure ()
                | error e => exact h.fail _ _
          · apply h.bind (h.unlink physical)
            intro r
            cases r with
            | ok _ => exact h.pure ()
            | error e => exact h.fail _ _

theorem removePath (physical : Bytes) : Moves R (FileManager.removePath (files env) physical) := by
  apply h.bind (h.reads fun _ => rfl)
  intro depth
  exact h.removeRecursive depth physical

theorem removeUserPath (session : UserSession) (physical p : Bytes) :
    Moves R (TransferService.removeUserPath (backend env) session physical p) := by
  unfold TransferService.removeUserPath
  apply h.bind (h.reads (lookupPlainFile_reads p))
  intro row
  cases row with
  | some _ =>
      apply h.bind (h.releaseContentRef p)
      intro _
      apply h.bind (h.reads (fileExists_reads physical))
      intro there
      cases there with
      | false => exact h.pure ()
      | true =>
          apply h.bind (h.unlink physical)
          intro _
          exact h.pure ()
  | none =>
      apply h.bind (h.reads fun _ => rfl)
      intro r
      cases r with
      | error e => exact h.releaseContentRef p
      | ok st =>
          dsimp only
          split
          · apply h.bind (h.releaseIndexedUnderPrefix p)
            intro _
            apply h.bind (h.removePath physical)
            intro _
            exact h.unindex p
          · apply h.bind (h.unlink physical)
            intro r
            cases r with
            | ok _ => exact h.releaseContentRef p
            | error e =>
                dsimp only
                split
                · exact h.releaseContentRef p
                · exact h.fail _ _

end Framed

/-! ## Calls that open and write files -/

/-- The relation holds on the way through every call but `rmdir` and `rename`. -/
structure FramedWriting (env : Env) (R : World → World → Prop) : Prop extends FramedCore env R where
  openCreate : ∀ s, Moves R ((files env).openCreate s)
  openTrunc : ∀ s, Moves R ((files env).openTrunc s)
  ftruncate : ∀ i, Moves R ((files env).ftruncate i)
  pwrite : ∀ i off bytes, Moves R ((files env).pwrite i off bytes)

namespace FramedWriting

variable {env : Env} {R : World → World → Prop} (h : FramedWriting env R)
include h

theorem writeLoop (out pos fuel : ℕ) (buf : Bytes) :
    Moves R (TransferService.writeLoop (backend env) out pos fuel buf) := by
  induction fuel generalizing pos buf with
  | zero =>
      cases buf with
      | nil => exact h.pure true
      | cons c buf => exact Moves.of_throw h.refl _
  | succ fuel ih =>
      cases buf with
      | nil => exact h.pure true
      | cons c buf =>
          apply h.bind (h.pwrite out pos (c :: buf))
          intro r
          cases r with
          | error e => exact h.pure false
          | ok n => exact ih _ _

theorem copyLoop (input : Library.Handle) (out : ℕ) (dest : Bytes) (bufSize fuel copied : ℕ) :
    Moves R (TransferService.copyLoop (backend env) input out dest bufSize fuel copied) := by
  induction fuel generalizing copied with
  | zero => exact Moves.of_throw h.refl _
  | succ fuel ih =>
      apply h.bind (h.reads fun _ => rfl)
      intro r
      rcases r with e | _ | ⟨c, buf⟩
      · apply h.bind (h.unlink dest)
        intro _
        exact h.fail _ _
      · exact h.pure copied
      · apply h.bind (h.writeLoop out copied _ _)
        intro written
        cases written with
        | true => exact ih _
        | false =>
            apply h.bind (h.unlink dest)
            intro _
            exact h.fail _ _

theorem copyToObjectStore (src dest : Bytes) (size : ℕ) :
    Moves R (TransferService.copyToObjectStore (backend env) src dest size) := by
  apply h.bind (h.reads fun _ => rfl)
  intro input
  cases input with
  | error e => exact h.fail _ _
  | ok input =>
      apply h.bind (h.ensureDir _)
      intro _
      apply h.bind (h.openTrunc dest)
      intro out
      cases out with
      | error e => exact h.fail _ _
      | ok out =>
          apply h.bind (h.reads fun _ => rfl)
          intro reads
          apply h.bind (h.copyLoop input out dest _ reads 0)
          intro copied
          split
          · apply h.bind (h.unlink dest)
            intro _
            exact h.fail _ _
          · exact h.pure ()

theorem publishObject (md5 src : Bytes) (size : ℕ) :
    Moves R (TransferService.publishObject (backend env) md5 src size) := by
  apply h.bind (Moves.of_lift h.refl _)
  intro obj
  apply h.bind (h.reads (hasSize_reads obj size))
  intro there
  cases there with
  | true => exact h.setObject md5 obj size
  | false =>
      apply h.bind (h.ensureDir _)
      intro _
      apply h.bind (h.copyToObjectStore src obj size)
      intro _
      apply h.bind (h.reads fun _ => rfl)
      intro _
      exact h.setObject md5 obj size

theorem beginUpload (session : UserSession) (dest p md5 : Bytes) (size : ℕ) :
    Moves R (TransferService.beginUpload (backend env) session dest p md5 size) := by
  unfold TransferService.beginUpload
  split
  · exact h.fail _ _
  split
  · exact h.fail _ _
  apply h.bind (h.ensureDir _)
  intro _
  apply h.bind (h.ensureDir _)
  intro _
  apply h.bind (h.randomHex 16)
  intro fileId
  apply h.bind (h.openCreate _)
  intro fd
  cases fd with
  | error e => exact h.fail _ _
  | ok fd =>
      have hresume : Moves R (resumeAt (backend env) fd size) := by
        apply h.bind (h.reads fun _ => rfl)
        intro r
        cases r with
        | error e => exact h.pure 0
        | ok n =>
            dsimp only
            split
            · apply h.bind (h.ftruncate fd)
              intro _
              exact h.pure 0
            · exact h.pure n
      apply h.bind hresume
      intro received
      exact h.pure _

theorem commitUpload (session : UserSession) (st : UploadSession) :
    Moves R (TransferService.commitUpload (backend env) session st) := by
  have hrest : Moves R (do
      TransferService.publishObject (backend env) st.md5 st.partPath st.totalSize
      let _ ← (files env).unlink st.partPath
      TransferService.addContentRef (backend env) session.userId st.virtualPath st.md5
        st.totalSize) := by
    apply h.bind (h.publishObject _ _ _)
    intro _
    apply h.bind (h.unlink _)
    intro _
    exact h.addContentRef _ _ _
  apply h.bind (h.reads (fileSize_reads _))
  intro size
  split
  · exact h.fail _ _
  apply h.bind (h.reads (md5File_reads _))
  intro md5
  split
  · apply h.bind (h.unlink _)
    intro _
    exact h.fail _ _
  apply h.bind (h.reads (lookupPlainFile_reads _))
  intro row
  cases row with
  | some _ =>
      apply h.bind (h.releaseContentRef _)
      intro _
      exact hrest
  | none =>
      apply h.bind (h.reads (fileExists_reads _))
      intro there
      cases there with
      | false => exact hrest
      | true =>
          apply h.bind (h.unlink _)
          intro _
          exact hrest

theorem finishUpload (session : UserSession) (w : World) (st : UploadSession) :
    R w (TransferService.finishUpload (backend env) session (w, st)).2.1 := by
  unfold TransferService.finishUpload
  rw [bind_ok (Action.look_apply Prod.snd (w, st))]
  cases hfd : st.fd with
  | none => exact h.refl w
  | some fd => exact h.commitUpload session _ w

theorem writeChunk (offset : ℕ) (data : Bytes) (w : World) (st : UploadSession) :
    R w (TransferService.writeChunk (backend env) offset data (w, st)).2.1 := by
  unfold TransferService.writeChunk
  rw [bind_ok (Action.look_apply Prod.snd (w, st))]
  cases hfd : st.fd with
  | none => exact h.refl w
  | some fd =>
      dsimp only
      split
      · exact h.refl w
      · have hwrite := h.pwrite fd offset data w
        rcases hrun : (files env).pwrite fd offset data w with ⟨e | r, w'⟩
        · simp only [files, move_apply, Prod.mk.injEq, reduceCtorEq, false_and] at hrun
        · have hzoom : onSystem ((files env).pwrite fd offset data) (w, st) = (.ok r, (w', st)) := by
            simp only [onSystem, Action.zoom_apply, hrun]
          rw [hrun] at hwrite
          rw [World.backend_files, bind_ok hzoom]
          cases r with
          | error e => exact hwrite
          | ok n =>
              dsimp only
              split
              · exact hwrite
              · split
                · exact hwrite
                · exact hwrite

end FramedWriting

/-! ## Every call -/

/-- The relation holds on the way through every call of the stores. -/
structure FramedAll (env : Env) (R : World → World → Prop) : Prop
    extends Framed env R, FramedWriting env R where
  rename : ∀ s s', Moves R ((files env).rename s s')

namespace FramedAll

variable {env : Env} {R : World → World → Prop} (h : FramedAll env R)
include h

theorem renamePath (source dest : Bytes) :
    Moves R (FileManager.renamePath (files env) source dest) := by
  apply h.bind (h.reads (fileExists_reads dest))
  intro there
  cases there with
  | true => exact h.fail _ _
  | false =>
      apply h.bind (h.rename source dest)
      intro r
      cases r with
      | ok _ => exact h.pure ()
      | error e => exact h.fail _ _

/-- **Every call**, whoever makes it. -/
theorem call (w : World) (c : Connection) (call : Call) : R w (runCall env w c call).1 := by
  have hread : ∀ {α : Type} {a : Act World α}, Reads a → R w (a w).2 := by
    intro α a ha
    exact h.reads ha w
  cases call with
  | registerUser name password => exact (settle_fst ..).symm ▸ h.registerUser name password w
  | login name password ip => exact (settle_fst ..).symm ▸ h.login name password ip w
  | checkToken token => exact (settle_fst ..).symm ▸ h.checkToken token w
  | logout token => exact (settle_fst ..).symm ▸ h.logout token w
  | listDir physical recursive => exact (settle_fst ..).symm ▸ hread (listDir_reads _ _)
  | statPath physical => exact (settle_fst ..).symm ▸ hread (statPath_reads _)
  | makeDir physical => exact (settle_fst ..).symm ▸ h.makeDir physical w
  | indexFile u p md5 size isDir status =>
      exact (settle_fst ..).symm ▸ h.indexFile p md5 size isDir status w
  | lookupFile u p => exact (settle_fst ..).symm ▸ hread (lookupPlainFile_reads p)
  | listIndexed u dir => exact (settle_fst ..).symm ▸ hread (listIndexed_reads dir)
  | removeUserPath session physical p =>
      exact (settle_fst ..).symm ▸ h.removeUserPath session physical p w
  | renameUserPath session source p dest q =>
      exact (settle_fst ..).symm ▸ h.renameUserPath session p q (h.renamePath source dest) w
  | queryInstant session md5 size => exact (settle_fst ..).symm ▸ h.queryInstant session md5 size w
  | instantUpload session dest p md5 size offset proof overwrite =>
      exact (settle_fst ..).symm ▸ h.instantUpload session dest p md5 size offset proof overwrite w
  | closeUpload => exact h.refl w
  | beginUpload session dest p md5 size =>
      exact (settle_fst ..).symm ▸ h.beginUpload session dest p md5 size w
  | writeChunk offset data => exact h.writeChunk offset data w c.upload
  | finishUpload session =>
      have hfinish := h.finishUpload session w c.upload
      simp only [runCall]
      split
      next hrun =>
        rw [hrun] at hfinish
        exact hfinish
      next hrun =>
        rw [hrun] at hfinish
        exact hfinish
  | closeDownload => exact h.refl w
  | beginDownload session physical p => exact (settle_fst ..).symm ▸ h.beginDownload session p w
  | readChunk offset len => exact (settle_fst ..).symm ▸ hread (readChunk_reads _ _ _)

/-- The calls of a frame. -/
theorem calls {w w' : World} {c c' : Connection} {rs : List (CallRecord World)}
    (hcalls : Calls env w c rs w' c') : R w w' := by
  induction hcalls with
  | nil => exact h.refl w
  | cons call _ _ ih => exact h.trans _ _ _ ih (h.call _ _ call)

/-- **Every event** but a change of the disk. -/
theorem step (s : ServerState) {e : Event} (he : ∀ d, e ≠ .disk d) :
    R s.world (Server.step env s e).1.world := by
  cases e with
  | connect id ip =>
      unfold Server.step
      dsimp only
      split
      · exact h.refl s.world
      · exact h.refl s.world
  | close id => exact h.refl s.world
  | expire key =>
      unfold Server.step Server.expireKey
      dsimp only
      split
      · exact h.redis s.world _
      · exact h.redis s.world _
  | disk d => exact absurd rfl (he d)
  | frame id f =>
      unfold Server.step
      dsimp only
      cases hid : s.conns id with
      | none => exact h.refl s.world
      | some c => exact h.calls (onFrame_calls f s.world c)

end FramedAll

end CloudStore.Interface
