import CloudStore.Analysis.RenameFile
import CloudStore.Interface.Challenges
import CloudStore.Interface.Removal
import CloudStore.Interface.Trace
import CloudStore.Library.RefFiles

/-!
# The map of files

What the server is for: a map from the paths of the users to contents. A call changes the map at
its own path, although files with the same content share an object, and a download opens the
content that the map has at its path. So at each moment of a run the map is what the calls before
have made of the empty one.
-/

set_option autoImplicit false

namespace CloudStore.Analysis

open CloudStore.Library (Bytes Entry RefStore FileTree)
open CloudStore.Library (Action)
open CloudStore.Library.Action (bind_ok bind_error)
open CloudStore.Library.Posix (render)
open CloudStore.Model
open CloudStore.Model.RedisStore
open CloudStore.Model.TransferService
open CloudStore.Model.World (files backend)
open CloudStore.Interface

/-- The content at each path of a user. -/
abbrev FileMap : Type := ℤ × Bytes → Option Bytes

variable (env : Env)

/-- The files of all users. -/
def fileMap (w : World) : FileMap := (view env w).files

/-! ## What calls make of the map -/

/-- The files of a user below a directory are removed, as the pattern of the directory matches. -/
def removeBelow (u : ℤ) (dir : Bytes) (m : FileMap) : FileMap := fun k =>
  if k.1 = u ∧ env.dialect.like k.2 (dirPrefix dir ++ str "%") = true then none else m k

/-- The begin of a download opens a file with the content, or finds no file. -/
def Opens (r : Except Exn DownloadSession × World) (content : Option Bytes) : Prop :=
  (content = none → r.1 = .error (.cloud .notFound (str "file not found"))) ∧
  ∀ x, content = some x → ∃ d i, r.1 = .ok d ∧ d.fd = some (.file i) ∧ r.2.fs.data i = x ∧
    d.totalSize = x.length

/-- A call makes of the map `m` the map `m'`. -/
def Makes (r : CallRecord World) (m m' : FileMap) : Prop :=
  match r.call with
  | .finishUpload session =>
    let k := (session.userId, r.conn.upload.virtualPath)
    let result := (finishUpload (backend env) session (r.sys, r.conn.upload)).1
    (result.isOk = true → ∃ x, env.md5Hex x = r.conn.upload.md5 ∧
      x.length = r.conn.upload.totalSize ∧ m' = Function.update m k (some x)) ∧
    (result.isOk = false → m' = m ∨ m' = Function.update m k none)
  | .instantUpload session dest p md5 size offset proof overwrite =>
    let result := (instantUpload (backend env) session dest p md5 size offset proof overwrite r.sys).1
    (result.isOk = true → ∃ k x, m k = some x ∧ env.md5Hex x = md5 ∧ x.length = size ∧
      m' = Function.update m (session.userId, p) (some x)) ∧
    (result.isOk = false → m' = m)
  | .removeUserPath session _ p =>
    let k := (session.userId, p)
    (m k ≠ none → m' = Function.update m k none) ∧
    (m k = none → m' = m ∨ m' = removeBelow env session.userId p m)
  | .renameUserPath session _ p _ q =>
    let k := (session.userId, p)
    let k' := (session.userId, q)
    m k ≠ none ∧ m k' = none ∧ m' = Function.update (Function.update m k none) k' (m k)
  | .beginDownload session _ p =>
    m' = m ∧ Opens (beginDownload (backend env) session p r.sys) (m (session.userId, p))
  | _ => m' = m

variable {env} {w : World} {c : Connection}

/-! ## Downloads -/

/-- The begin of a download of an object that is there. -/
theorem beginDownload_object {session : UserSession} {p d x : Bytes} (hw : Sound env w)
    (hlink : w.redis.strings (pathKey session.userId (env.dialect.arg p)) = d) (hm : Hex32 d)
    (hobject : World.object env w d = some x) :
    ∃ st i, beginDownload (backend env) session p w = (.ok st, { w with drawn := w.drawn + 16 }) ∧
      st.fd = some (.file i) ∧ w.fs.data i = x ∧ st.totalSize = x.length ∧ st.fileId.length = 32 := by
  obtain ⟨fileId, hid, hdraw⟩ : ∃ fileId : Bytes, fileId.length = 32 ∧
      randomHex (backend env) 16 w = (.ok fileId, { w with drawn := w.drawn + 16 }) := by
    refine ⟨_, ?_, rfl⟩
    rw [toHex_length, List.length_map, List.length_range]
  have hne : d ≠ [] := by
    rintro rfl
    exact absurd hm (by decide)
  have hsound := (IdleOp.draw w (w.drawn + 16)).sound hw
  generalize hw' : ({ w with drawn := w.drawn + 16 } : World) = w' at hdraw hsound
  have hobject' : World.object env w' d = some x := by
    rw [← hw']
    exact hobject
  have hkey : downloadMd5 (backend env) session.userId p w' = (.ok d, w') := by
    have hget : getPathMd5 (World.redisCalls env) session.userId p w' = (.ok d, w') := by
      rw [getPathMd5_eq, ← hw', hlink]
    unfold downloadMd5
    rw [World.backend_redis, bind_ok hget, if_neg hne]
    rfl
  obtain ⟨i, hopen, hdata⟩ := openRead_object hsound hm hobject'
  have hopened : (files env).openRead (objectText env d) w' = (.ok (.ok (.file i)), w') := by
    simp [files, hopen]
  refine ⟨{ fileId := fileId, srcPath := objectText env d, totalSize := x.length
            fd := some (.file i) }, i, ?_, rfl, ?_, rfl, hid⟩
  · unfold beginDownload
    rw [bind_ok hdraw, bind_ok hkey, bind_ok (resolveObjectPath_hex hsound hm), World.backend_files,
      bind_ok (fileExists_object hsound hm), hobject']
    dsimp only [Option.isSome_some]
    rw [if_neg (by simp), bind_ok (fileSize_object hsound hm hobject'), bind_ok hopened]
    rfl
  · rw [← hdata, ← hw']

/-- Without an open part file, no upload ends. -/
theorem finishUpload_closed {session : UserSession} (hfd : c.upload.fd = none) :
    finishUpload (backend env) session (w, c.upload) =
      (.error (.cloud .badRequest (str "no active upload")), (w, c.upload)) := by
  unfold finishUpload
  rw [bind_ok (Action.look_apply Prod.snd (w, c.upload))]
  simp only [hfd]
  rfl

section

variable (hexact : env.dialect = Dialect.exact) (hw : Sound env w)
  (hview : (view env w).Coherent (scheme env))
include hexact hw hview

end

/-! ## Runs -/

/-- **An instant upload leaves what an upload in chunks leaves.** Where both would succeed in a
state that a run reaches, and the content is not that of the path already, the files, the digests
and the references afterwards are the same. -/
theorem instant_upload_agrees (hexact : env.dialect = Dialect.exact)
    {hist : List (Library.Machine.Record ServerState Event Output)} {s : ServerState}
    (run : (Server.machine env).Run (Server.Start env) (Avoids env (Unsettles env)) hist s)
    (hfree : World.CollisionFree env s.world) {id : ℕ} (hid : s.conns id = some c)
    {session : UserSession} {dest : Library.Path} (hdest : UserPath env dest) {offset : ℕ}
    {proof : Bytes} {overwrite : Bool}
    (hother : ¬ FileAt s.world session.userId c.upload.virtualPath fun d => d = c.upload.md5)
    (hend : (finishUpload (backend env) session (s.world, c.upload)).1.isOk = true)
    (hinstant : (instantUpload (backend env) session (render dest) c.upload.virtualPath c.upload.md5
      c.upload.totalSize offset proof overwrite s.world).1.isOk = true) :
    view env (instantUpload (backend env) session (render dest) c.upload.virtualPath c.upload.md5
      c.upload.totalSize offset proof overwrite s.world).2 =
    view env (finishUpload (backend env) session (s.world, c.upload)).2.1 := by
  have hsafe := run_safe run
  have hview := (run_coherent hexact run).view hexact
  obtain ⟨fd, hfd⟩ : ∃ fd, c.upload.fd = some fd := by
    refine Option.ne_none_iff_exists'.mp fun hfd => ?_
    rw [finishUpload_closed hfd] at hend
    cases hend
  rw [@finishUpload_open _ (backend env) session _ _ hfd s.world] at hend ⊢
  dsimp only at hend ⊢
  rcases @commitUpload_view env _ hexact session _ _ hsafe.world
      ((hsafe.conns id c hid).upload fd hfd) with
    ⟨e, w', hcommit, -⟩ | ⟨s₁, hcleared, ⟨e, w', hcommit, -⟩ | ⟨w', x, hcommit, hm, -, -, hsame, hview'⟩⟩
  · rw [hcommit] at hend
    cases hend
  · rw [hcommit] at hend
    cases hend
  rcases @instantUpload_view env _ hexact session _ hdest hsafe.world c.upload.virtualPath
      c.upload.md5 c.upload.totalSize offset proof overwrite with
    ⟨e, w'', hrun, -⟩ | ⟨-, hobj, s₂, w'', hrun, hview'', hcleared'⟩
  · rw [hrun] at hinstant
    cases hinstant
  rw [hcommit, hrun, hview', hview'']
  have hstores : s₂ = s₁ := by
    rcases hcleared with ⟨⟨d, n, hrow⟩, rfl⟩ | ⟨hnone, rfl⟩
    · rcases hcleared' with ⟨-, -, h⟩ | ⟨hnone, -⟩
      · exact h
      · exact absurd hrow (hnone d n)
    · rcases hcleared' with ⟨-, ⟨d, n, hrow⟩, -⟩ | ⟨-, h⟩
      · exact absurd hrow (hnone d n)
      · exact h
  obtain ⟨y, hy, -⟩ := hobj hm
  have hobject : s₁.object c.upload.md5 = some y :=
    (hview.object_cleared scheme_blank (fun n hrow => hother ((fileAt_iff hexact hsafe.world).mpr
      ⟨_, n, hrow, rfl⟩)) hcleared).trans hy
  rw [hstores, RefStore.publish_self (hsame hfree y hobject ▸ hobject)]

/-- The content of a file under another name, on the way in chunks and instantly. -/
theorem instant_upload_agrees_empty : ∃ (s : ServerState) (c : Connection),
    s.conns 0 = some c ∧ c.upload.virtualPath = str "/b" ∧
      view Sample.env (instantUpload (backend Sample.env) c.session
        (render [str "data", str "users", str "alice", str "b"]) c.upload.virtualPath c.upload.md5
        c.upload.totalSize 0 [] false s.world).2 =
      view Sample.env (finishUpload (backend Sample.env) c.session (s.world, c.upload)).2.1 := by
  let es := Sample.login ++ Sample.uploadEmpty "/a" ++
    (Sample.uploadEmpty "/b").dropLast ++ (Sample.instantEmpty "/b").dropLast
  have hrun := @playback_run Sample.env (Avoids Sample.env (Unsettles Sample.env)) 4096
    Sample.entropy es (by decide +kernel)
  have hfacts : World.CollisionFree Sample.env (playback Sample.env 4096 Sample.entropy es).2.world ∧
      ∃ c ∈ (playback Sample.env 4096 Sample.entropy es).2.conns 0,
        c.upload.virtualPath = str "/b" ∧
        (¬ FileAt (playback Sample.env 4096 Sample.entropy es).2.world c.session.userId
          c.upload.virtualPath fun d => d = c.upload.md5) ∧
        (finishUpload (backend Sample.env) c.session
          ((playback Sample.env 4096 Sample.entropy es).2.world, c.upload)).1.isOk = true ∧
        (instantUpload (backend Sample.env) c.session
          (render [str "data", str "users", str "alice", str "b"]) c.upload.virtualPath c.upload.md5
          c.upload.totalSize 0 [] false (playback Sample.env 4096 Sample.entropy es).2.world).1.isOk =
            true := by
    decide +kernel
  generalize playback Sample.env 4096 Sample.entropy es = r at hrun hfacts
  obtain ⟨hfree, c, hid, hpath, hother, hend, hinstant⟩ := hfacts
  exact ⟨r.2, c, hid, hpath, instant_upload_agrees rfl hrun hfree hid ⟨by decide, by decide⟩ hother
    hend hinstant⟩

end CloudStore.Analysis
