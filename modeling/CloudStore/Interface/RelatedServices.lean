import CloudStore.Interface.Related
import CloudStore.Model.Auth

/-!
# Services over related backends

One lemma for each function of the services: related calls give related services. The level
of a service is that of its calls, plus the connections it holds at one time.
-/

set_option autoImplicit false

namespace CloudStore.Interface

open CloudStore.Library (Bytes Handle Action)
open CloudStore.Library.Action (Congruence)
open CloudStore.Model
open CloudStore.Model.RedisStore
open CloudStore.Model.TransferService
open CloudStore.Model.AuthService

variable {σ τ : Type}

/-! ## Redis -/

namespace RedisRelated

variable {R : Congruence Exn σ τ} {r : RedisCalls σ} {r' : RedisCalls τ} (h : RedisRelated R r r')
include h

theorem setObject (md5 objectPath : Bytes) (size : ℕ) :
    R.rel (RedisStore.setObject r md5 objectPath size)
      (RedisStore.setObject r' md5 objectPath size) :=
  R.bind (h.cmdSet _ _) fun _ => h.cmdSet _ _

theorem deleteObjectMeta (md5 : Bytes) :
    R.rel (RedisStore.deleteObjectMeta r md5) (RedisStore.deleteObjectMeta r' md5) := by
  apply R.bind (h.cmdDel _)
  intro _
  exact R.bind (h.cmdDel _) fun _ => h.cmdDel _

theorem addRef (md5 : Bytes) (userId : ℤ) (virtualPath : Bytes) :
    R.rel (RedisStore.addRef r md5 userId virtualPath)
      (RedisStore.addRef r' md5 userId virtualPath) :=
  R.bind (h.cmdSAdd _ _) fun _ => R.pure _

theorem removeRef (md5 : Bytes) (userId : ℤ) (virtualPath : Bytes) :
    R.rel (RedisStore.removeRef r md5 userId virtualPath)
      (RedisStore.removeRef r' md5 userId virtualPath) :=
  R.bind (h.cmdSRem _ _) fun _ => h.cmdSCard _

theorem getChallenge (token md5 : Bytes) :
    R.rel (RedisStore.getChallenge r token md5) (RedisStore.getChallenge r' token md5) := by
  apply R.bind (h.cmdGet _)
  intro s
  apply R.ite
  · intro _
    apply R.lift_bind
    intro offset
    exact R.lift_bind fun len => R.pure _
  · exact fun _ => R.pure _

end RedisRelated

/-- What `releaseContentRef` does with the md5 that it releases. -/
def releaseMd5 (b : Backend σ) (userId : ℤ) (virtualPath md5 : Bytes) : Act σ Unit := do
  if md5 ≠ [] then
    let refs ← RedisStore.removeRef b.redis md5 userId virtualPath
    if refs ≤ 0 then TransferService.collectObject b md5
  TransferService.unindex b userId virtualPath

namespace Related

variable {R : ℕ → Congruence Exn σ τ} {b : Backend σ} {b' : Backend τ} (h : Related R b b')
  (k : ℕ)
include h

omit h in
theorem fail {α : Type} (code : ErrorCode) (msg : Bytes) :
    (R k).rel (Model.fail code msg : Act σ α) (Model.fail code msg : Act τ α) := (R k).throw _

theorem randomHex (n : ℕ) : (R k).rel (randomHex b n) (Model.randomHex b' n) :=
  (R k).bind (h.randomBytes k n) fun _ => (R k).pure _

theorem md5File (path : Bytes) : (R k).rel (md5File b path) (Model.md5File b' path) := by
  unfold Model.md5File
  rw [h.md5Hex]
  apply (R k).bind ((h.files k).openRead path)
  intro r
  cases r with
  | error e => exact (R k).throw _
  | ok x => exact (R k).bind ((h.files k).readAll x) fun _ => (R k).pure _

theorem md5FileRange (path : Bytes) (offset len : ℕ) :
    (R k).rel (md5FileRange b path offset len) (Model.md5FileRange b' path offset len) := by
  unfold Model.md5FileRange
  rw [h.md5Hex]
  apply (R k).bind ((h.files k).openRead path)
  intro r
  cases r with
  | error e => exact (R k).throw _
  | ok x =>
      apply (R k).ite
      · exact fun _ => (R k).throw _
      · intro _
        apply (R k).bind ((h.files k).pread x offset len)
        intro r
        cases r with
        | error e => exact (R k).ite (fun _ => (R k).pure _) fun _ => (R k).throw _
        | ok bytes => exact (R k).ite (fun _ => (R k).pure _) fun _ => (R k).throw _

/-! ## Accounts -/

theorem ensureUserRoot (username : Bytes) :
    (R k).rel (ensureUserRoot b username) (AuthService.ensureUserRoot b' username) := by
  unfold AuthService.ensureUserRoot
  rw [h.cfg]
  apply (R k).bind ((h.files k).ensureDir _)
  intro made
  exact (R k).ite (fun _ => (R k).pure _) fun _ => fail k _ _

theorem logLogin (userId : ℤ) (ip : Bytes) (ok : Bool) :
    (R (k + 1)).rel (logLogin b userId ip ok) (AuthService.logLogin b' userId ip ok) := by
  apply (R (k + 1)).tryCatch
  · apply h.withConn
    exact (R k).bind (h.prepare k _) fun _ => h.insertLoginLog k _ _ _
  · exact fun _ => (R (k + 1)).pure ()

theorem registerUser (username password : Bytes) :
    (R (k + 1)).rel (registerUser b username password)
      (AuthService.registerUser b' username password) := by
  unfold AuthService.registerUser hashPassword
  rw [h.sha256Hex]
  apply (R (k + 1)).ite
  · exact fun _ => fail _ _ _
  · intro _
    apply (R (k + 1)).bind (h.randomHex _ _)
    intro salt
    apply (R (k + 1)).bind (h.ensureUserRoot _ _)
    intro rootDir
    apply h.withConn
    apply (R k).bind
    · apply (R k).tryCatch
      · exact (R k).bind (h.prepare k _) fun _ => h.insertUser k _ _ _ _
      · exact fun e => (R k).ite (fun _ => fail k _ _) fun _ => fail k _ _
    · exact fun _ => (R k).pure _

theorem login (hs : SelectsRelated R b b') (username password ip : Bytes) :
    (R (k + 2)).rel (login b username password ip)
      (AuthService.login b' username password ip) := by
  unfold AuthService.login verifyPassword hashPassword
  rw [h.sha256Hex, h.cfg]
  apply h.withConn
  apply (R (k + 1)).bind (h.prepare _ _)
  intro _
  apply (R (k + 1)).bind (hs.selectUser _ _)
  intro row
  cases row with
  | none => exact (R (k + 1)).bind (h.logLogin k _ _ _) fun _ => fail _ _ _
  | some row =>
      apply (R (k + 1)).ite
      · exact fun _ => (R (k + 1)).bind (h.logLogin k _ _ _) fun _ => fail _ _ _
      · intro _
        apply (R (k + 1)).bind (h.ensureUserRoot _ _)
        intro root
        apply (R (k + 1)).bind (h.randomHex _ _)
        intro token
        apply (R (k + 1)).bind ((h.redis _).setJsonEx _ _ _)
        intro _
        exact (R (k + 1)).bind (h.logLogin k _ _ _) fun _ => (R (k + 1)).pure _

theorem checkToken (token : Bytes) :
    (R k).rel (checkToken b token) (AuthService.checkToken b' token) := by
  unfold AuthService.checkToken
  rw [h.cfg]
  apply (R k).ite
  · exact fun _ => fail k _ _
  · intro _
    apply (R k).bind ((h.redis k).getJson _)
    intro raw
    cases raw with
    | none => exact fail k _ _
    | some raw =>
        cases raw with
        | error e => exact fail k _ _
        | ok js =>
            apply (R k).lift_bind
            intro s
            exact (R k).bind ((h.redis k).setJsonEx _ _ _) fun _ => (R k).pure s

theorem ensureDefaultUsers (hs : SelectsRelated R b b') :
    (R (k + 2)).rel (ensureDefaultUsers b) (AuthService.ensureDefaultUsers b') := by
  apply h.withConn
  apply (R (k + 1)).bind (hs.countUsers _)
  intro count
  apply (R (k + 1)).ite
  · exact fun _ => (R (k + 1)).pure ()
  · intro _
    apply (R (k + 1)).bind (h.registerUser k _ _)
    intro _
    apply (R (k + 1)).bind (h.registerUser k _ _)
    intro _
    exact (R (k + 1)).bind (h.registerUser k _ _) fun _ => (R (k + 1)).pure ()

/-! ## The index -/

theorem objectPathFor (md5 : Bytes) :
    TransferService.objectPathFor b' md5 = TransferService.objectPathFor b md5 := by
  unfold TransferService.objectPathFor
  rw [h.cfg]

theorem resolveObjectPath (md5 : Bytes) :
    (R k).rel (resolveObjectPath b md5) (TransferService.resolveObjectPath b' md5) := by
  unfold TransferService.resolveObjectPath
  rw [h.objectPathFor]
  apply (R k).bind ((h.redis k).cmdGet _)
  intro cached
  exact (R k).ite (fun _ => (R k).pure _) fun _ => (R k).lift _

theorem indexFile (userId : ℤ) (virtualPath md5 : Bytes) (size : ℕ) (isDir : Bool)
    (status : Bytes) :
    (R (k + 1)).rel (indexFile b userId virtualPath md5 size isDir status)
      (TransferService.indexFile b' userId virtualPath md5 size isDir status) := by
  apply h.withConn
  apply (R k).bind (h.prepare k _)
  intro _
  exact (R k).tryCatch (h.upsertFile k _) fun e => fail k _ _

theorem unindex (userId : ℤ) (virtualPath : Bytes) :
    (R (k + 1)).rel (unindex b userId virtualPath)
      (TransferService.unindex b' userId virtualPath) := by
  apply h.withConn
  apply (R k).bind (h.prepare k _)
  intro _
  exact (R k).bind (h.deleteFile k _ _) fun _ => (h.redis k).cmdDel _

theorem lookupFile (hs : SelectsRelated R b b') (userId : ℤ) (virtualPath : Bytes) :
    (R (k + 1)).rel (lookupFile b userId virtualPath)
      (TransferService.lookupFile b' userId virtualPath) := by
  apply h.withConn
  apply (R k).bind (h.prepare k _)
  intro _
  exact (R k).tryCatch (hs.selectFile k _ _) fun _ => (R k).pure none

theorem lookupPlainFile (hs : SelectsRelated R b b') (userId : ℤ) (virtualPath : Bytes) :
    (R (k + 1)).rel (lookupPlainFile b userId virtualPath)
      (TransferService.lookupPlainFile b' userId virtualPath) :=
  (R (k + 1)).bind (h.lookupFile k hs _ _) fun _ => (R (k + 1)).pure _

theorem listIndexed (hs : SelectsRelated R b b') (userId : ℤ) (dirLogical : Bytes) :
    (R (k + 1)).rel (listIndexed b userId dirLogical)
      (TransferService.listIndexed b' userId dirLogical) := by
  apply h.withConn
  apply (R k).bind (h.prepare k _)
  intro _
  apply (R k).bind
  · exact (R k).tryCatch (hs.selectListing k _ _ _) fun _ => (R k).pure []
  · exact fun rows => (R k).pure _

/-! ## References and objects -/

theorem writeLoop (out pos fuel : ℕ) (bytes : Bytes) :
    (R k).rel (writeLoop b out pos fuel bytes) (TransferService.writeLoop b' out pos fuel bytes) := by
  induction fuel generalizing pos bytes with
  | zero =>
      cases bytes with
      | nil => exact (R k).pure true
      | cons c buf => exact (R k).throw _
  | succ fuel ih =>
      cases bytes with
      | nil => exact (R k).pure true
      | cons c buf =>
          apply (R k).bind ((h.files k).pwrite out pos (c :: buf))
          intro r
          cases r with
          | error e => exact (R k).pure false
          | ok w => exact ih _ _

theorem copyLoop (input : Handle) (out : ℕ) (dest : Bytes) (bufSize fuel copied : ℕ) :
    (R k).rel (copyLoop b input out dest bufSize fuel copied)
      (TransferService.copyLoop b' input out dest bufSize fuel copied) := by
  induction fuel generalizing copied with
  | zero => exact (R k).throw _
  | succ fuel ih =>
      apply (R k).bind ((h.files k).pread input copied bufSize)
      intro r
      cases r with
      | error e => exact (R k).bind ((h.files k).unlink dest) fun _ => fail k _ _
      | ok bytes =>
          cases bytes with
          | nil => exact (R k).pure copied
          | cons c buf =>
              apply (R k).bind (h.writeLoop k _ _ _ _)
              intro done
              apply (R k).ite
              · exact fun _ => ih _
              · exact fun _ => (R k).bind ((h.files k).unlink dest) fun _ => fail k _ _

theorem copyToObjectStore (src dest : Bytes) (expectedSize : ℕ) :
    (R k).rel (copyToObjectStore b src dest expectedSize)
      (TransferService.copyToObjectStore b' src dest expectedSize) := by
  unfold TransferService.copyToObjectStore
  rw [h.cfg]
  apply (R k).bind ((h.files k).openRead src)
  intro r
  cases r with
  | error e => exact fail k _ _
  | ok input =>
      apply (R k).bind ((h.files k).ensureDir _)
      intro _
      apply (R k).bind ((h.files k).openTrunc dest)
      intro r
      cases r with
      | error e => exact fail k _ _
      | ok out =>
          apply (R k).bind ((h.files k).reads input)
          intro fuel
          apply (R k).bind (h.copyLoop k _ _ _ _ _ _)
          intro copied
          apply (R k).ite
          · exact fun _ => (R k).bind ((h.files k).unlink dest) fun _ => fail k _ _
          · exact fun _ => (R k).pure ()

theorem hasSize (path : Bytes) (size : ℕ) :
    (R k).rel (hasSize b path size) (TransferService.hasSize b' path size) := by
  apply (R k).bind ((h.files k).fileExists path)
  intro there
  apply (R k).ite
  · exact fun _ => (R k).bind ((h.files k).fileSize path) fun _ => (R k).pure _
  · exact fun _ => (R k).pure false

theorem publishObject (md5 srcFile : Bytes) (size : ℕ) :
    (R k).rel (publishObject b md5 srcFile size)
      (TransferService.publishObject b' md5 srcFile size) := by
  unfold TransferService.publishObject
  rw [h.objectPathFor]
  apply (R k).lift_bind
  intro obj
  apply (R k).bind (h.hasSize k obj size)
  intro there
  apply (R k).ite
  · exact fun _ => (h.redis k).setObject _ _ _
  · intro _
    apply (R k).bind ((h.files k).ensureDir _)
    intro _
    apply (R k).bind (h.copyToObjectStore k _ _ _)
    intro _
    exact (R k).bind ((h.files k).chmod obj) fun _ => (h.redis k).setObject _ _ _

theorem addContentRef (userId : ℤ) (virtualPath md5 : Bytes) (size : ℕ) :
    (R (k + 1)).rel (addContentRef b userId virtualPath md5 size)
      (TransferService.addContentRef b' userId virtualPath md5 size) := by
  apply (R (k + 1)).bind ((h.redis _).addRef _ _ _)
  intro _
  exact (R (k + 1)).bind (h.indexFile k _ _ _ _ _ _) fun _ => (h.redis _).cmdSet _ _

theorem releasedMd5 (hs : SelectsRelated R b b') (userId : ℤ) (virtualPath : Bytes) :
    (R (k + 1)).rel (releasedMd5 b userId virtualPath)
      (TransferService.releasedMd5 b' userId virtualPath) := by
  apply (R (k + 1)).bind ((h.redis _).cmdGet _)
  intro md5
  apply (R (k + 1)).ite
  · intro _
    apply (R (k + 1)).bind (h.lookupPlainFile k hs _ _)
    intro info
    cases info <;> exact (R (k + 1)).pure _
  · exact fun _ => (R (k + 1)).pure _

theorem collectObject (md5 : Bytes) :
    (R k).rel (collectObject b md5) (TransferService.collectObject b' md5) := by
  apply (R k).bind (h.resolveObjectPath k md5)
  intro obj
  apply (R k).bind ((h.files k).fileExists obj)
  intro there
  dsimp only
  apply (R k).ite
  · intro _
    apply (R k).bind ((h.files k).chmod obj)
    intro _
    exact (R k).bind ((h.files k).unlink obj) fun _ => (h.redis k).deleteObjectMeta md5
  · exact fun _ => (h.redis k).deleteObjectMeta md5

theorem releaseMd5 (userId : ℤ) (virtualPath md5 : Bytes) :
    (R (k + 1)).rel (releaseMd5 b userId virtualPath md5)
      (Interface.releaseMd5 b' userId virtualPath md5) := by
  unfold Interface.releaseMd5
  dsimp only
  apply (R (k + 1)).ite
  · intro _
    apply (R (k + 1)).bind ((h.redis _).removeRef _ _ _)
    intro refs
    apply (R (k + 1)).ite
    · exact fun _ => (R (k + 1)).bind (h.collectObject _ md5) fun _ => h.unindex k _ _
    · exact fun _ => h.unindex k _ _
  · exact fun _ => h.unindex k _ _

theorem releaseContentRef (hs : SelectsRelated R b b') (userId : ℤ) (virtualPath : Bytes) :
    (R (k + 1)).rel (releaseContentRef b userId virtualPath)
      (TransferService.releaseContentRef b' userId virtualPath) :=
  (R (k + 1)).bind (h.releasedMd5 k hs _ _) fun _ => h.releaseMd5 k _ _ _

theorem releaseIndexedUnderPrefix (hs : SelectsRelated R b b') (userId : ℤ) (dirVirtual : Bytes) :
    (R (k + 2)).rel (releaseIndexedUnderPrefix b userId dirVirtual)
      (TransferService.releaseIndexedUnderPrefix b' userId dirVirtual) := by
  apply h.withConn
  apply (R (k + 1)).bind (h.prepare _ _)
  intro _
  apply (R (k + 1)).bind (hs.selectPathsLike _ _ _)
  intro paths
  exact (R (k + 1)).each (fun vp => h.releaseContentRef k hs userId vp) paths

theorem renameIndexedFile (userId : ℤ) (fromVirtual toVirtual md5 : Bytes) (size : ℕ) :
    (R (k + 1)).rel (renameIndexedFile b userId fromVirtual toVirtual md5 size)
      (TransferService.renameIndexedFile b' userId fromVirtual toVirtual md5 size) := by
  apply (R (k + 1)).bind ((h.redis _).removeRef _ _ _)
  intro _
  apply (R (k + 1)).bind ((h.redis _).addRef _ _ _)
  intro _
  apply (R (k + 1)).bind ((h.redis _).cmdDel _)
  intro _
  apply (R (k + 1)).bind (h.indexFile k _ _ _ _ _ _)
  intro _
  apply (R (k + 1)).bind ((h.redis _).cmdSet _ _)
  intro _
  apply h.withConn
  exact (R k).bind (h.prepare k _) fun _ => h.deleteFile k _ _

/-! ## Uploads -/

theorem queryInstant (session : UserSession) (md5 : Bytes) (size : ℕ) :
    (R k).rel (queryInstant b session md5 size)
      (TransferService.queryInstant b' session md5 size) := by
  unfold TransferService.queryInstant
  rw [h.cfg]
  apply (R k).ite
  · exact fun _ => fail k _ _
  · intro _
    apply (R k).bind (h.resolveObjectPath k md5)
    intro obj
    apply (R k).bind (h.hasSize k obj size)
    intro there
    apply (R k).ite
    · exact fun _ => (R k).bind ((h.redis k).cmdSetEx _ _ _) fun _ => (R k).pure _
    · exact fun _ => (R k).pure _

theorem checkProof (session : UserSession) (md5 : Bytes) (size proofOffset : ℕ)
    (proofMd5 : Bytes) :
    (R k).rel (checkProof b session md5 size proofOffset proofMd5)
      (TransferService.checkProof b' session md5 size proofOffset proofMd5) := by
  apply (R k).bind ((h.redis k).getChallenge _ _)
  intro challenge
  cases challenge with
  | none => exact fail k _ _
  | some expected =>
      apply (R k).ite
      · exact fun _ => fail k _ _
      · intro _
        apply (R k).bind (h.resolveObjectPath k md5)
        intro obj
        apply (R k).bind ((h.files k).fileExists obj)
        intro there
        apply (R k).ite
        · exact fun _ => fail k _ _
        · intro _
          apply (R k).bind ((h.files k).fileSize obj)
          intro found
          apply (R k).ite
          · exact fun _ => fail k _ _
          · intro _
            apply (R k).ite
            · intro _
              apply (R k).bind (h.md5FileRange k _ _ _)
              intro real
              exact (R k).ite (fun _ => fail k _ _) fun _ => (R k).pure ()
            · exact fun _ => (R k).pure ()

theorem clearDestination (hs : SelectsRelated R b b') (userId : ℤ) (destPath virtualPath : Bytes)
    (overwrite : Bool) :
    (R (k + 1)).rel (clearDestination b userId destPath virtualPath overwrite)
      (TransferService.clearDestination b' userId destPath virtualPath overwrite) := by
  apply (R (k + 1)).bind (h.lookupPlainFile k hs _ _)
  intro info
  cases info with
  | some _ =>
      exact (R (k + 1)).ite (fun _ => h.releaseContentRef k hs _ _) fun _ => fail _ _ _
  | none =>
      apply (R (k + 1)).bind ((h.files _).fileExists destPath)
      intro there
      apply (R (k + 1)).ite
      · intro _
        apply (R (k + 1)).ite
        · exact fun _ => (R (k + 1)).bind ((h.files _).unlink destPath) fun _ => (R (k + 1)).pure ()
        · exact fun _ => fail _ _ _
      · exact fun _ => (R (k + 1)).pure ()

theorem instantUpload (hs : SelectsRelated R b b') (session : UserSession)
    (destPath virtualPath md5 : Bytes) (size proofOffset : ℕ) (proofMd5 : Bytes)
    (overwrite : Bool) :
    (R (k + 1)).rel
      (instantUpload b session destPath virtualPath md5 size proofOffset proofMd5 overwrite)
      (TransferService.instantUpload b' session destPath virtualPath md5 size proofOffset proofMd5
        overwrite) := by
  apply (R (k + 1)).bind (h.checkProof _ _ _ _ _ _)
  intro _
  apply (R (k + 1)).bind ((h.redis _).cmdDel _)
  intro _
  apply (R (k + 1)).bind (h.clearDestination k hs _ _ _ _)
  intro _
  apply (R (k + 1)).bind ((h.files _).ensureDir _)
  intro _
  exact h.addContentRef k _ _ _ _

theorem resumeAt (fd size : ℕ) :
    (R k).rel (resumeAt b fd size) (TransferService.resumeAt b' fd size) := by
  apply (R k).bind ((h.files k).fstat fd)
  intro r
  cases r with
  | error e => exact (R k).pure 0
  | ok n =>
      apply (R k).ite
      · exact fun _ => (R k).bind ((h.files k).ftruncate fd) fun _ => (R k).pure 0
      · exact fun _ => (R k).pure n

theorem beginUpload (session : UserSession) (destPath virtualPath md5 : Bytes) (size : ℕ) :
    (R k).rel (beginUpload b session destPath virtualPath md5 size)
      (TransferService.beginUpload b' session destPath virtualPath md5 size) := by
  unfold TransferService.beginUpload
  rw [h.cfg]
  apply (R k).ite
  · exact fun _ => fail k _ _
  · intro _
    apply (R k).ite
    · exact fun _ => fail k _ _
    · intro _
      apply (R k).bind ((h.files k).ensureDir _)
      intro _
      apply (R k).bind ((h.files k).ensureDir _)
      intro _
      apply (R k).bind (h.randomHex k _)
      intro fileId
      apply (R k).bind ((h.files k).openCreate _)
      intro r
      cases r with
      | error e => exact fail k _ _
      | ok fd => exact (R k).bind (h.resumeAt k fd size) fun _ => (R k).pure _

theorem commitUpload (hs : SelectsRelated R b b') (session : UserSession) (st : UploadSession) :
    (R (k + 1)).rel (commitUpload b session st)
      (TransferService.commitUpload b' session st) := by
  have hrest : (R (k + 1)).rel
      (do
        TransferService.publishObject b st.md5 st.partPath st.totalSize
        let _ ← b.files.unlink st.partPath
        TransferService.addContentRef b session.userId st.virtualPath st.md5 st.totalSize)
      (do
        TransferService.publishObject b' st.md5 st.partPath st.totalSize
        let _ ← b'.files.unlink st.partPath
        TransferService.addContentRef b' session.userId st.virtualPath st.md5 st.totalSize) := by
    apply (R (k + 1)).bind (h.publishObject _ _ _ _)
    intro _
    exact (R (k + 1)).bind ((h.files _).unlink _) fun _ => h.addContentRef k _ _ _ _
  apply (R (k + 1)).bind ((h.files _).fileSize _)
  intro found
  apply (R (k + 1)).ite
  · exact fun _ => fail _ _ _
  · intro _
    apply (R (k + 1)).bind (h.md5File _ _)
    intro digest
    apply (R (k + 1)).ite
    · exact fun _ => (R (k + 1)).bind ((h.files _).unlink _) fun _ => fail _ _ _
    · intro _
      apply (R (k + 1)).bind (h.lookupPlainFile k hs _ _)
      intro info
      cases info with
      | some _ => exact (R (k + 1)).bind (h.releaseContentRef k hs _ _) fun _ => hrest
      | none =>
          apply (R (k + 1)).bind ((h.files _).fileExists _)
          intro there
          dsimp only
          apply (R (k + 1)).ite
          · exact fun _ => (R (k + 1)).bind ((h.files _).unlink _) fun _ => hrest
          · exact fun _ => hrest

section UploadSession

variable {U : Congruence Exn (σ × UploadSession) (τ × UploadSession)}

theorem writeChunk (hU : SessionRelated (R k) U) (offset : ℕ) (data : Bytes) :
    U.rel (writeChunk b offset data) (TransferService.writeChunk b' offset data) := by
  apply U.bind hU.look
  intro st
  cases st.fd with
  | none => exact U.throw _
  | some fd =>
      apply U.ite
      · exact fun _ => U.throw _
      · intro _
        apply U.bind (hU.onSystem _ _ ((h.files k).pwrite _ _ _))
        intro r
        cases r with
        | error e => exact U.throw _
        | ok n =>
            apply U.ite
            · exact fun _ => U.throw _
            · intro _
              exact U.ite (fun _ => hU.setSession _) fun _ => U.pure ()

theorem finishUpload (hs : SelectsRelated R b b') (hU : SessionRelated (R (k + 1)) U)
    (session : UserSession) :
    U.rel (finishUpload b session) (TransferService.finishUpload b' session) := by
  apply U.bind hU.look
  intro st
  cases st.fd with
  | none => exact U.throw _
  | some fd =>
      apply U.bind (hU.setSession _)
      exact fun _ => hU.onSystem _ _ (h.commitUpload k hs session st)

end UploadSession

/-! ## Downloads -/

theorem downloadMd5 (hs : SelectsRelated R b b') (userId : ℤ) (virtualPath : Bytes) :
    (R (k + 1)).rel (downloadMd5 b userId virtualPath)
      (TransferService.downloadMd5 b' userId virtualPath) := by
  apply (R (k + 1)).bind ((h.redis _).cmdGet _)
  intro key
  apply (R (k + 1)).ite
  · intro _
    apply (R (k + 1)).bind (h.lookupPlainFile k hs _ _)
    intro info
    cases info with
    | none => exact fail _ _ _
    | some info => exact (R (k + 1)).ite (fun _ => fail _ _ _) fun _ => (R (k + 1)).pure _
  · exact fun _ => (R (k + 1)).pure _

theorem beginDownload (hs : SelectsRelated R b b') (session : UserSession) (virtualPath : Bytes) :
    (R (k + 1)).rel (beginDownload b session virtualPath)
      (TransferService.beginDownload b' session virtualPath) := by
  apply (R (k + 1)).bind (h.randomHex _ _)
  intro fileId
  apply (R (k + 1)).bind (h.downloadMd5 k hs _ _)
  intro md5
  apply (R (k + 1)).bind (h.resolveObjectPath _ md5)
  intro src
  apply (R (k + 1)).bind ((h.files _).fileExists src)
  intro there
  apply (R (k + 1)).ite
  · exact fun _ => fail _ _ _
  · intro _
    apply (R (k + 1)).bind ((h.files _).fileSize src)
    intro totalSize
    apply (R (k + 1)).bind ((h.files _).openRead src)
    intro r
    cases r with
    | error e => exact fail _ _ _
    | ok fd => exact (R (k + 1)).pure _

theorem readChunk (st : DownloadSession) (offset len : ℕ) :
    (R k).rel (readChunk b st offset len) (TransferService.readChunk b' st offset len) := by
  unfold TransferService.readChunk
  cases st.fd with
  | none => exact fail k _ _
  | some fd =>
      apply (R k).ite
      · exact fun _ => (R k).pure []
      · intro _
        apply (R k).bind ((h.files k).pread fd _ _)
        intro r
        cases r with
        | error e => exact fail k _ _
        | ok bytes => exact (R k).pure bytes

/-! ## Removing and renaming -/

theorem removeUserPath (hs : SelectsRelated R b b') (session : UserSession)
    (physical virtualPath : Bytes) :
    (R (k + 2)).rel (removeUserPath b session physical virtualPath)
      (TransferService.removeUserPath b' session physical virtualPath) := by
  apply (R (k + 2)).bind (h.lookupPlainFile _ hs _ _)
  intro info
  cases info with
  | some _ =>
      apply (R (k + 2)).bind (h.releaseContentRef _ hs _ _)
      intro _
      apply (R (k + 2)).bind ((h.files _).fileExists physical)
      intro there
      apply (R (k + 2)).ite
      · exact fun _ => (R (k + 2)).bind ((h.files _).unlink physical) fun _ => (R (k + 2)).pure ()
      · exact fun _ => (R (k + 2)).pure ()
  | none =>
      apply (R (k + 2)).bind ((h.files _).lstat physical)
      intro r
      cases r with
      | error e => exact h.releaseContentRef _ hs _ _
      | ok st =>
          apply (R (k + 2)).ite
          · intro _
            apply (R (k + 2)).bind (h.releaseIndexedUnderPrefix k hs _ _)
            intro _
            apply (R (k + 2)).bind ((h.files _).removePath physical)
            intro _
            exact h.unindex _ _ _
          · intro _
            apply (R (k + 2)).bind ((h.files _).unlink physical)
            intro r
            cases r with
            | ok _ => exact h.releaseContentRef _ hs _ _
            | error e =>
                exact (R (k + 2)).ite (fun _ => h.releaseContentRef _ hs _ _) fun _ => fail _ _ _

theorem renamePhysical (userId : ℤ) (fromPhysical fromVirtual toPhysical toVirtual : Bytes) :
    (R (k + 1)).rel (renamePhysical b userId fromPhysical fromVirtual toPhysical toVirtual)
      (TransferService.renamePhysical b' userId fromPhysical fromVirtual toPhysical toVirtual) := by
  apply (R (k + 1)).bind ((h.files _).renamePath _ _)
  intro _
  apply (R (k + 1)).bind ((h.redis _).cmdGet _)
  intro md5
  apply (R (k + 1)).bind ((h.files _).fileExists toPhysical)
  intro there
  have hrest : ∀ sz, (R (k + 1)).rel
      (do
        TransferService.unindex b userId fromVirtual
        TransferService.indexFile b userId toVirtual md5 sz false (str "ready")
        if md5 ≠ [] then setPathMd5 b.redis userId toVirtual md5)
      (do
        TransferService.unindex b' userId fromVirtual
        TransferService.indexFile b' userId toVirtual md5 sz false (str "ready")
        if md5 ≠ [] then setPathMd5 b'.redis userId toVirtual md5) := by
    intro sz
    apply (R (k + 1)).bind (h.unindex k _ _)
    intro _
    apply (R (k + 1)).bind (h.indexFile k _ _ _ _ _ _)
    intro _
    exact (R (k + 1)).ite (fun _ => (h.redis _).cmdSet _ _) fun _ => (R (k + 1)).pure ()
  dsimp only
  apply (R (k + 1)).ite
  · exact fun _ => (R (k + 1)).bind ((h.files _).fileSize toPhysical) hrest
  · exact fun _ => (R (k + 1)).bind ((R (k + 1)).pure 0) hrest

theorem renameUserPath (hs : SelectsRelated R b b') (session : UserSession)
    (fromPhysical fromVirtual toPhysical toVirtual : Bytes) :
    (R (k + 1)).rel (renameUserPath b session fromPhysical fromVirtual toPhysical toVirtual)
      (TransferService.renameUserPath b' session fromPhysical fromVirtual toPhysical toVirtual) := by
  apply (R (k + 1)).bind (h.lookupPlainFile k hs _ _)
  intro info
  cases info with
  | some info => exact h.renameIndexedFile k _ _ _ _ _
  | none => exact h.renamePhysical k _ _ _ _ _

end Related

end CloudStore.Interface
