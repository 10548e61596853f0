import CloudStore.Interface.Coherence
import CloudStore.Interface.RelatedServices
import CloudStore.Model.FailingSelects

/-!
# Services while SELECT statements fail

What runs no SELECT statement does what it does without failures. The release of a path
whose key is set runs none; the row of a path is taken for absent if its statement fails.
-/

set_option autoImplicit false

namespace CloudStore.Interface

open CloudStore.Library (Bytes Path Action Entry RefStore Sheds)
open CloudStore.Library.Action (bind_apply bind_ok bind_error bind_eq_ok beside)
open CloudStore.Library.Posix
open CloudStore.Model
open CloudStore.Model.RedisStore
open CloudStore.Model.TransferService
open CloudStore.Model.World (files redisCalls backend)

variable {env : Env} {u : ℤ} {w w' : World} (fails : ℕ → Bool) (n : ℕ)

/-- What runs no SELECT statement is the same beside the count. -/
theorem failing_related : Related (fun _ => Action.lifted Exn World ℕ) (backend env)
    (failingSelects fails (backend env)) where
  cfg := rfl
  md5Hex := rfl
  sha256Hex := rfl
  files k := by constructor <;> intros <;> rfl
  redis k := by constructor <;> intros <;> rfl
  randomBytes _ _ := rfl
  withConn _ _ _ _ h := h
  prepare _ _ := rfl
  insertUser _ _ _ _ _ := rfl
  insertLoginLog _ _ _ _ := rfl
  upsertFile _ _ := rfl
  deleteFile _ _ _ := rfl

/-- The row of a path, and none if the statement fails. -/
theorem lookupPlainFile_failing (p : Bytes) :
    lookupPlainFile (failingSelects fails (backend env)) u p (w, n) =
      (.ok (if fails n then none
        else (w.rows.find? (World.isRow env u p)).filter fun r => !r.isDir), (w, n + 1)) := by
  have hlookup : lookupFile (failingSelects fails (backend env)) u p (w, n) =
      (.ok (if fails n then none else w.rows.find? (World.isRow env u p)), (w, n + 1)) := by
    have hrun : lookupFile (failingSelects fails (backend env)) u p (w, n) =
      (tryCatch (selecting fails ((backend env).sql.selectFile u p)) fun _ =>
        (return none : Act (World × ℕ) (Option FileRow))) (w, n) := rfl
    rw [hrun, Action.tryCatch_apply]
    unfold selecting
    cases fails n <;> rfl
  unfold lookupPlainFile
  rw [bind_ok hlookup]
  cases fails n <;> rfl

/-- The release of a path whose key is set runs no SELECT statement. -/
theorem releaseContentRef_failing (p : Bytes)
    (hkey : w.redis.strings (pathKey u (env.dialect.arg p)) ≠ []) :
    releaseContentRef (failingSelects fails (backend env)) u p (w, n) =
      beside (releaseContentRef (backend env) u p) (w, n) := by
  have hrel := @failing_related env fails
  have hget := @getPathMd5_eq env u p w
  have hreleased : releasedMd5 (backend env) u p w =
      (.ok (w.redis.strings (pathKey u (env.dialect.arg p))), w) := by
    unfold releasedMd5
    rw [World.backend_redis, bind_ok hget, if_neg hkey]
    rfl
  have hreleased' : releasedMd5 (failingSelects fails (backend env)) u p (w, n) =
      (.ok (w.redis.strings (pathKey u (env.dialect.arg p))), (w, n)) := by
    have hget' : getPathMd5 (failingSelects fails (backend env)).redis u p (w, n) =
        (.ok (w.redis.strings (pathKey u (env.dialect.arg p))), (w, n)) := by
      have hbeside : getPathMd5 (failingSelects fails (backend env)).redis u p =
        beside (getPathMd5 (World.redisCalls env) u p) := rfl
      rw [hbeside, Action.beside_apply, hget]
    unfold releasedMd5
    rw [bind_ok hget', if_neg hkey]
    rfl
  have hrest := congrFun (hrel.releaseMd5 0 u p
    (w.redis.strings (pathKey u (env.dialect.arg p)))) (w, n)
  rw [Action.beside_apply]
  unfold releaseContentRef
  rw [bind_ok hreleased', bind_ok hreleased]
  exact hrest

/-! ## Coherent stores -/

section

variable (hexact : env.dialect = Dialect.exact)
include hexact

/-- The release of several paths whose keys are set runs no SELECT statement. -/
theorem releaseAll_failing (hw : Sound env w) {ps : List Bytes} (hps : ps.Nodup)
    (hkeys : ∀ p ∈ ps, (view env w).link (u, p) ≠ []) :
    Action.each (fun p => releaseContentRef (failingSelects fails (backend env)) u p) ps (w, n) =
      beside (Action.each (fun p => releaseContentRef (backend env) u p) ps) (w, n) := by
  induction ps generalizing w with
  | nil => rfl
  | cons p ps ih =>
      obtain ⟨hp, hps⟩ := List.nodup_cons.mp hps
      have hkey : w.redis.strings (pathKey u (env.dialect.arg p)) ≠ [] := by
        rw [arg_exact hexact]
        exact hkeys p List.mem_cons_self
      obtain ⟨w₁, hrel, hview⟩ := releaseContentRef_view hexact (u := u) hw p
      have hops := @releaseContentRef_follows env u p w hw
      rw [hrel] at hops
      have hrel' := releaseContentRef_failing fails n p hkey
      rw [Action.beside_run hrel] at hrel'
      rw [Action.each_cons, bind_ok hrel', ih (hops.sound hw) hps]
      · rw [Action.beside_apply, Action.beside_apply, Action.each_cons, bind_ok hrel]
      · intro q hq
        have hne : ((u, q) : ℤ × Bytes) ≠ (u, p) := by
          rintro h
          rw [Prod.mk.injEq] at h
          exact hp (h.2 ▸ hq)
        rw [hview, RefStore.detach_link, if_neg hne]
        exact hkeys q (List.mem_cons_of_mem _ hq)

/-- The release of a path takes its reference away, with no SELECT statement. -/
theorem HoldsFile.release {p d : Bytes} (h : HoldsFile env w u p d) :
    ∃ w', releaseContentRef (failingSelects fails (backend env)) u p (w, n) = (.ok (), (w', n)) ∧
      Sound env w' ∧ Sheds w.fs w'.fs ∧ refMember u p ∉ (view env w').refs d := by
  have hkey : w.redis.strings (pathKey u (env.dialect.arg p)) ≠ [] := by
    rw [arg_exact hexact]
    exact fun hnil => h.nonempty (h.key.symm.trans hnil)
  obtain ⟨w', hrun, hview⟩ := releaseContentRef_view hexact (u := u) h.sound p
  have hops := @releaseContentRef_follows env u p w h.sound
  have hshed := @releaseContentRef_shed env u p w
  rw [hrun] at hops hshed
  have hrun' := releaseContentRef_failing fails n p hkey
  rw [Action.beside_run hrun] at hrun'
  refine ⟨w', hrun', hops.sound h.sound, hshed, ?_⟩
  have hreleased : d = (view env w).released (scheme env) (u, p) := by
    rw [RefStore.released, h.key, if_neg (show ¬ d = (scheme env).blank from h.nonempty)]
  rw [hview, RefStore.detach_refs, if_pos ⟨hreleased, h.nonempty⟩]
  simp [scheme]

/-- The references of other contents outlast the entry of a content. -/
theorem addContentRef_refs {p m d : Bytes} {size : ℕ} {r : Unit} (hd : d ≠ m)
    (hrun : addContentRef (backend env) u p m size w = (.ok r, w')) :
    (view env w').refs d = (view env w).refs d := by
  obtain ⟨w₁, hrun₁, hview⟩ := addContentRef_view hexact (u := u) (w := w) p m size
  rw [hrun₁] at hrun
  cases hrun
  rw [hview]
  simp [RefStore.attach, Function.update_of_ne hd]

/-- **A commit while SELECT statements fail.** It takes the reference away from the other
content that the path held, unless its first statement fails. -/
theorem commitUpload_failing (hw : Coherent env w) {session : UserSession} {st : UploadSession}
    {fd : ℕ} (hopen : OpenUpload env w st fd) {d : Bytes}
    (hfile : FileAt w session.userId st.virtualPath fun m => m = d) {n' : ℕ}
    (hrun : commitUpload (failingSelects fails (backend env)) session st (w, n) =
      (.ok (), (w', n'))) (hd : d ≠ st.md5) :
    refMember session.userId st.virtualPath ∈ w'.redis.sets (refsKey d) ↔ fails n = true := by
  have hrel := @failing_related env fails
  have hold := coherent_holds hexact hw hfile
  obtain ⟨row, hrow⟩ := hold.lookup
  obtain ⟨dest, hdest, hdesteq⟩ := hopen.dest
  obtain ⟨username, hname, hpart⟩ := hopen.part
  have hzero : 0 ∉ baseName st.destPath := by
    rw [hdesteq]
    exact zero_not_mem_baseName (zero_not_mem_render hdest.plain)
  have hclear : Clear env st.partPath := hpart ▸ clear_part hname hopen.md5 hzero
  -- the checks of the part file
  obtain ⟨size, hsize⟩ := @fileSize_ok env st.partPath w
  have hsize' : fileSize (failingSelects fails (backend env)).files st.partPath (w, n) =
      (.ok size, (w, n)) := by
    rw [show fileSize (failingSelects fails (backend env)).files st.partPath =
      beside (fileSize (files env) st.partPath) from (hrel.files 0).fileSize _]
    exact Action.beside_run hsize n
  unfold commitUpload at hrun
  rw [bind_ok hsize'] at hrun
  by_cases hsizeeq : size = st.totalSize
  swap
  · rw [if_pos hsizeeq] at hrun
    cases hrun
  rw [if_neg (not_not.mpr hsizeeq)] at hrun
  subst hsizeeq
  have hmd5' : md5File (failingSelects fails (backend env)) st.partPath =
    beside (md5File (backend env) st.partPath) := hrel.md5File 0 _
  rcases hmd5 : md5File (backend env) st.partPath w with ⟨e | md5, w₁⟩
  · rw [bind_error (by rw [hmd5', Action.beside_run hmd5])] at hrun
    cases hrun
  have hw₁ := (@md5File_reads env st.partPath).end_eq hmd5
  subst hw₁
  rw [bind_ok (by rw [hmd5', Action.beside_run hmd5])] at hrun
  by_cases hmd5eq : md5 = st.md5
  swap
  · rw [if_pos hmd5eq] at hrun
    cases hrun
  rw [if_neg (not_not.mpr hmd5eq)] at hrun
  subst hmd5eq
  obtain ⟨p, x, hm, hp, hx, hsource⟩ := commit_source hw.sound hopen hsize hmd5
  have hsized := sized_of_source hw.sound hm hx hsource
  -- the rest runs no SELECT statement, and leaves the references of other contents
  have hgo : ∀ w₂ n₂, Sound env w₂ → Sheds w₁.fs w₂.fs → ∀ s₁, view env w₂ = s₁ →
      (do
        publishObject (failingSelects fails (backend env)) st.md5 st.partPath st.totalSize
        let _ ← (failingSelects fails (backend env)).files.unlink st.partPath
        addContentRef (failingSelects fails (backend env)) session.userId st.virtualPath st.md5
          st.totalSize : Act (World × ℕ) Unit) (w₂, n₂) = (.ok (), (w', n')) →
      w'.redis.sets (refsKey d) = s₁.refs d := by
    rintro w₂ n₂ hw₂ hshed s₁ rfl hrest
    have hbeside := (Action.lifted Exn World ℕ).bind
      (hrel.publishObject 0 st.md5 st.partPath st.totalSize) fun _ =>
        (Action.lifted Exn World ℕ).bind ((hrel.files 0).unlink st.partPath) fun _ =>
          hrel.addContentRef 0 session.userId st.virtualPath st.md5 st.totalSize
    have hcommit : beside (commitRest env session.userId st) (w₂, n₂) = (.ok (), (w', n')) :=
      (congrFun hbeside (w₂, n₂)).symm.trans hrest
    obtain ⟨hsource₂, hsized₂⟩ := hsource.shed hshed hsized
    rcases commitRest_view hexact (u := session.userId) hw₂ hm hp hsource₂ hsized₂ hclear with h | h
    · obtain ⟨e, w₃, hrun₃, -⟩ := h
      rw [Action.beside_run hrun₃] at hcommit
      cases hcommit
    · obtain ⟨w₃, y, hrun₃, -, -, -, hview, -⟩ := h
      rw [Action.beside_run hrun₃] at hcommit
      cases hcommit
      have hrefs : w'.redis.sets (refsKey d) = _ := congrFun (congrArg RefStore.refs hview) d
      simpa [RefStore.attach, RefStore.publish, Function.update_of_ne hd] using hrefs
  rw [bind_ok (lookupPlainFile_failing fails n st.virtualPath), hrow] at hrun
  cases hfails : fails n with
  | false =>
      rw [hfails] at hrun
      obtain ⟨w₂, hrelease, hw₂, hshed, hgone⟩ := hold.release fails (n + 1) hexact
      rw [if_neg (by decide)] at hrun
      dsimp only at hrun
      rw [bind_ok hrelease] at hrun
      rw [hgo w₂ _ hw₂ hshed _ rfl hrun]
      exact iff_of_false hgone (by decide)
  | true =>
      rw [hfails] at hrun
      rw [if_pos rfl] at hrun
      dsimp only at hrun
      refine iff_of_true ?_ rfl
      obtain ⟨there, hthere⟩ := @fileExists_ok env st.destPath w₁
      have hthere' : fileExists (failingSelects fails (backend env)).files st.destPath (w₁, n + 1) =
          (.ok there, (w₁, n + 1)) := by
        rw [show fileExists (failingSelects fails (backend env)).files st.destPath =
          beside (fileExists (files env) st.destPath) from (hrel.files 0).fileExists _]
        exact Action.beside_run hthere _
      rw [bind_ok hthere'] at hrun
      cases there with
      | false =>
          rw [hgo w₁ _ hw.sound (Sheds.refl _) _ rfl hrun]
          exact hold.ref
      | true =>
          have hidle := quiet_idles (@unlink_quiet env _ (clear_user hdest)) w₁ hw.sound
          have hshed := @unlink_shed env (render dest) w₁
          rw [← hdesteq] at hidle hshed
          rcases hun : (files env).unlink st.destPath w₁ with ⟨e | r, w₂⟩
          · simp [files, World.fileCall] at hun
          · rw [hun] at hidle hshed
            have hun' : (failingSelects fails (backend env)).files.unlink st.destPath (w₁, n + 1) =
              (.ok r, (w₂, n + 1)) := Action.beside_run hun _
            rw [if_pos rfl, bind_ok hun'] at hrun
            rw [hgo w₂ _ (hidle.sound hw.sound) hshed _ (view_idles hidle) hrun]
            exact hold.ref

/-- The end of an upload while SELECT statements fail. -/
theorem finishUpload_failing (hw : Coherent env w) {session : UserSession} {st st' : UploadSession}
    {fd : ℕ} (hfd : st.fd = some fd) (hopen : OpenUpload env w st fd) {d : Bytes}
    (hfile : FileAt w session.userId st.virtualPath fun m => m = d) {n' : ℕ}
    (hrun : finishUpload (failingSelects fails (backend env)) session ((w, n), st) =
      (.ok (), ((w', n'), st'))) (hd : d ≠ st.md5) :
    refMember session.userId st.virtualPath ∈ w'.redis.sets (refsKey d) ↔ fails n = true := by
  rw [finishUpload_open hfd] at hrun
  rcases hcommit : commitUpload (failingSelects fails (backend env)) session st (w, n) with
    ⟨r, w₁, n₁⟩
  rw [hcommit] at hrun
  cases hrun
  exact commitUpload_failing fails n hexact hw hopen hfile hcommit hd

/-- The destination of an instant upload is made free, unless there is something that must
not be overwritten; a row that is not read does not count. -/
theorem clearDestination_failing {dest : Path} (hdest : UserPath env dest) {p d : Bytes}
    (hold : HoldsFile env w u p d) (overwrite : Bool) :
    ∃ r w', clearDestination (failingSelects fails (backend env)) u (render dest) p overwrite
        (w, n) = (r, (w', n + 1)) ∧ Sound env w' ∧
      (r = .ok () ↔ overwrite = true ∨ fails n = true ∧
        Vacant w (render dest)) ∧
      (r = .ok () → (refMember u p ∈ (view env w').refs d ↔ fails n = true)) := by
  have hrel := @failing_related env fails
  obtain ⟨row, hrow⟩ := hold.lookup
  unfold clearDestination
  rw [bind_ok (lookupPlainFile_failing fails n p), hrow]
  cases hfails : fails n with
  | false =>
      rw [if_neg (by decide)]
      dsimp only
      cases overwrite with
      | false => exact ⟨_, w, rfl, hold.sound, by simp, fun h => by simp at h⟩
      | true =>
          obtain ⟨w', hrun, hw', -, hgone⟩ := hold.release fails (n + 1) hexact
          exact ⟨_, w', hrun, hw', by simp, fun _ => iff_of_false hgone (by decide)⟩
  | true =>
      rw [if_pos rfl]
      dsimp only
      obtain ⟨there, hthere⟩ := @fileExists_ok env (render dest) w
      have hthere' : fileExists (failingSelects fails (backend env)).files (render dest)
          (w, n + 1) = (.ok there, (w, n + 1)) := by
        rw [show fileExists (failingSelects fails (backend env)).files (render dest) =
          beside (fileExists (files env) (render dest)) from (hrel.files 0).fileExists _]
        exact Action.beside_run hthere _
      rw [bind_ok hthere']
      cases there with
      | false =>
          exact ⟨_, w, rfl, hold.sound, by simp [fileExists_false hthere],
            fun _ => iff_of_true hold.ref rfl⟩
      | true =>
          cases overwrite with
          | false =>
              exact ⟨_, w, rfl, hold.sound, by simp [fileExists_true hthere],
                fun h => by simp at h⟩
          | true =>
              have hidle := quiet_idles (@unlink_quiet env _ (clear_user hdest)) w hold.sound
              refine ⟨_, ((files env).unlink (render dest) w).2, rfl, hidle.sound hold.sound,
                by simp, fun _ => iff_of_true ?_ rfl⟩
              rw [view_idles hidle]
              exact hold.ref

/-- **An instant upload while SELECT statements fail.** It does not see the file at its path,
and leaves its reference, exactly if the first statement fails. -/
theorem instantUpload_failing {session : UserSession} {dest : Path} (hdest : UserPath env dest)
    {p d : Bytes} (hold : HoldsFile env w session.userId p d) (md5 : Bytes) (size proofOffset : ℕ)
    (proofMd5 : Bytes) (overwrite : Bool) :
    ∃ r w', instantUpload (failingSelects fails (backend env)) session (render dest) p md5 size
        proofOffset proofMd5 overwrite (w, n) = (r, w') ∧
      (r = .ok () ↔
        checkProof (backend env) session md5 size proofOffset proofMd5 w = (.ok (), w) ∧
          (overwrite = true ∨ fails n = true ∧
            Vacant w (render dest))) ∧
      (r = .ok () → d ≠ md5 →
        (refMember session.userId p ∈ (view env w'.1).refs d ↔ fails n = true)) := by
  have hrel := @failing_related env fails
  have hcheck : checkProof (failingSelects fails (backend env)) session md5 size proofOffset
      proofMd5 = beside (checkProof (backend env) session md5 size proofOffset proofMd5) :=
    hrel.checkProof 0 _ _ _ _ _
  unfold instantUpload
  rw [hcheck]
  rcases hproof : checkProof (backend env) session md5 size proofOffset proofMd5 w with ⟨e | a, w₁⟩
  · rw [bind_error (Action.beside_run hproof n)]
    exact ⟨_, _, rfl, by simp, fun h => by cases h⟩
  · have hw₁ := (@checkProof_reads env session md5 size proofOffset proofMd5).end_eq hproof
    subst hw₁
    rw [bind_ok (Action.beside_run hproof n)]
    -- the world without the challenge
    have hdel : delChallenge (failingSelects fails (backend env)).redis session.token md5 (w₁, n) =
        beside (delChallenge (redisCalls env) session.token md5) (w₁, n) := rfl
    rw [bind_ok (hdel.trans (Action.beside_run (delChallenge_eq session.token md5 w₁) n))]
    have hop : IdleOp env w₁ (setSet (setString w₁ (env.dialect.arg (chalKey session.token md5)) [])
        (env.dialect.arg (chalKey session.token md5)) ∅) := IdleOp.unchallenge w₁ _ _
    have hfs : (setSet (setString w₁ (env.dialect.arg (chalKey session.token md5)) [])
        (env.dialect.arg (chalKey session.token md5)) ∅).fs = w₁.fs := rfl
    have hold₂ := hold.of_view (hop.sound hold.sound) (view_idleOp hop)
    generalize setSet (setString w₁ (env.dialect.arg (chalKey session.token md5)) [])
        (env.dialect.arg (chalKey session.token md5)) ∅ = w₂ at hop hold₂ hfs ⊢
    obtain ⟨r, w₃, hclear, hw₃, hok, hmem⟩ := clearDestination_failing fails n hexact hdest hold₂
      overwrite
    have hvacant : Vacant w₂ (render dest) ↔ Vacant w₁ (render dest) := by rw [Vacant, hfs, Vacant]
    rw [hvacant] at hok
    cases r with
    | error e =>
        rw [bind_error hclear]
        exact ⟨_, _, rfl, by simpa using hok, fun h => by cases h⟩
    | ok _ =>
        -- the rest runs no SELECT statement
        rw [bind_ok hclear]
        obtain ⟨made, w₄, hdir⟩ := @ensureDir_ok env (parentDir (render dest)) w₃
        have hdir' : ensureDir (failingSelects fails (backend env)).files (parentDir (render dest))
            (w₃, n + 1) = (.ok made, (w₄, n + 1)) := by
          rw [show ensureDir (failingSelects fails (backend env)).files (parentDir (render dest)) =
            beside (ensureDir (files env) (parentDir (render dest))) from (hrel.files 0).ensureDir _]
          exact Action.beside_run hdir _
        have hidle := quiet_idles (@ensureDir_parent_quiet env _ hdest) w₃ hw₃
        rw [hdir] at hidle
        obtain ⟨w', hadd, -⟩ := addContentRef_view hexact (u := session.userId) (w := w₄) p md5 size
        have hadd' : addContentRef (failingSelects fails (backend env)) session.userId p md5 size
            (w₄, n + 1) = (.ok (), (w', n + 1)) := by
          rw [show addContentRef (failingSelects fails (backend env)) session.userId p md5 size =
            beside (addContentRef (backend env) session.userId p md5 size) from
              hrel.addContentRef 0 _ _ _ _]
          exact Action.beside_run hadd _
        rw [bind_ok hdir', hadd']
        refine ⟨_, _, rfl, by simpa using hok, fun _ hd => ?_⟩
        rw [addContentRef_refs hexact hd hadd, view_idles hidle]
        exact hmem rfl

/-! ## Removing -/

/-- A file that is held is below a directory exactly if the pattern of the directory matches. -/
theorem HoldsFile.mem_filesBelow {p d : Bytes} (hold : HoldsFile env w u p d) (dir : Bytes) :
    (u, p) ∈ filesBelow env w u dir ↔
      env.dialect.like p (dirPrefix dir ++ str "%") = true := by
  simp only [filesBelow, List.mem_map, List.mem_filter, Prod.mk.injEq, true_and]
  constructor
  · rintro ⟨r, ⟨-, hr⟩, rfl⟩
    simp only [Bool.and_eq_true] at hr
    exact hr.2
  · intro hlike
    obtain ⟨size, hrow⟩ := hold.row
    obtain ⟨r, hr, hu, hp, hdir, -, -⟩ := mem_of_row hexact hrow
    refine ⟨r, ⟨hr, ?_⟩, hp⟩
    simp_all

/-- What the index has below a directory is released, if the statement that lists it does not
fail. -/
theorem releaseIndexedUnderPrefix_failing {dir : Bytes} (hw : Coherent env w) {n' : ℕ} {r : Unit}
    (hrun : releaseIndexedUnderPrefix (failingSelects fails (backend env)) u dir (w, n) =
      (.ok r, (w', n'))) :
    Sound env w' ∧ view env w' = (view env w).detachAll (scheme env) (filesBelow env w u dir) := by
  let below := w.rows.filter fun r =>
    r.userId = u && !r.isDir && env.dialect.like r.virtualPath (dirPrefix dir ++ str "%")
  have hnodup : (below.map FileRow.virtualPath).Nodup := by
    have hkeys : (below.map fun r => (r.userId, r.virtualPath)).Nodup :=
      (hw.sound.rowKeys hexact).sublist (List.filter_sublist.map _)
    have hmap : (below.map fun r => (r.userId, r.virtualPath)) =
        (below.map FileRow.virtualPath).map fun p => (u, p) := by
      rw [List.map_map]
      apply List.map_congr_left
      intro r hr
      simp only [below, List.mem_filter, Bool.and_eq_true, decide_eq_true_eq] at hr
      simp [hr.2.1.1]
    rw [hmap] at hkeys
    exact hkeys.of_map _
  have hkeys : ∀ p ∈ below.map FileRow.virtualPath, (view env w).link (u, p) ≠ [] := by
    intro p hp
    obtain ⟨r, hr, rfl⟩ := List.mem_map.mp hp
    simp only [below, List.mem_filter, Bool.and_eq_true, decide_eq_true_eq,
      Bool.not_eq_true'] at hr
    obtain ⟨hmem, ⟨hu, hdir⟩, -⟩ := hr
    have hold := coherent_holds hexact hw (d := r.md5) ⟨r, hmem, hu, rfl, hdir, rfl⟩
    exact fun hnil => hold.nonempty (hold.key.symm.trans hnil)
  have hlist : releaseIndexedUnderPrefix (failingSelects fails (backend env)) u dir (w, n) =
      (selecting fails ((backend env).sql.selectPathsLike u (dirPrefix dir ++ str "%")) >>=
        Action.each fun p => releaseContentRef (failingSelects fails (backend env)) u p)
          (w, n) := rfl
  rw [hlist, bind_apply] at hrun
  cases hfails : fails n with
  | true =>
      simp only [selecting, hfails, if_true] at hrun
      cases hrun
  | false =>
      have hselect : selecting fails ((backend env).sql.selectPathsLike u (dirPrefix dir ++ str "%"))
          (w, n) = (.ok (below.map FileRow.virtualPath), (w, n + 1)) := by
        simp only [selecting, hfails]
        rfl
      obtain ⟨w₁, hall, hw₁, hview⟩ := releaseAll_view hexact (u := u) hw.sound
        (below.map FileRow.virtualPath)
      rw [hselect] at hrun
      dsimp only at hrun
      rw [releaseAll_failing fails (n + 1) hexact hw.sound hnodup hkeys,
        Action.beside_run hall] at hrun
      cases hrun
      refine ⟨hw₁, ?_⟩
      rw [hview, List.map_map]
      rfl

/-- **A removal while SELECT statements fail.** It leaves the reference of a file exactly if
the first statement fails and there is a directory at the physical path. -/
theorem removeUserPath_failing {session : UserSession} {physical : Path}
    (hphys : UserPath env physical) (hw : Coherent env w) {p d : Bytes}
    (hfile : FileAt w session.userId p fun m => m = d) {n' : ℕ}
    (hrun : removeUserPath (failingSelects fails (backend env)) session (render physical) p (w, n) =
      (.ok (), (w', n'))) :
    refMember session.userId p ∈ w'.redis.sets (refsKey d) ↔
      fails n = true ∧ Library.Posix.lstat w.fs (render physical) = .ok .dir ∧
        env.dialect.like p (dirPrefix p ++ str "%") = false := by
  have hrel := @failing_related env fails
  have hold := coherent_holds hexact hw hfile
  obtain ⟨row, hrow⟩ := hold.lookup
  have hunlink : ∀ {w₁ w₂ : World} {r : Except Library.Errno Unit}, Sound env w₁ →
      (files env).unlink (render physical) w₁ = (.ok r, w₂) →
      Sound env w₂ ∧ view env w₂ = view env w₁ := by
    intro w₁ w₂ r hw₁ hun
    have hidle := quiet_idles (@unlink_quiet env _ (clear_user hphys)) w₁ hw₁
    rw [hun] at hidle
    exact ⟨hidle.sound hw₁, view_idles hidle⟩
  unfold removeUserPath at hrun
  rw [bind_ok (lookupPlainFile_failing fails n p), hrow] at hrun
  cases hfails : fails n with
  | false =>
      -- the row is found, and the path released
      rw [hfails, if_neg (by decide)] at hrun
      dsimp only at hrun
      obtain ⟨w₁, hrelease, hw₁, -, hgone⟩ := hold.release fails (n + 1) hexact
      rw [bind_ok hrelease] at hrun
      refine iff_of_false ?_ (by simp)
      obtain ⟨there, hthere⟩ := @fileExists_ok env (render physical) w₁
      have hthere' : fileExists (failingSelects fails (backend env)).files (render physical)
          (w₁, n + 1) = (.ok there, (w₁, n + 1)) := by
        rw [show fileExists (failingSelects fails (backend env)).files (render physical) =
          beside (fileExists (files env) (render physical)) from (hrel.files 0).fileExists _]
        exact Action.beside_run hthere _
      rw [bind_ok hthere'] at hrun
      cases there with
      | false =>
          cases hrun
          exact hgone
      | true =>
          obtain ⟨r, hun⟩ := @unlink_run env (render physical) w₁
          have hun' : (failingSelects fails (backend env)).files.unlink (render physical)
            (w₁, n + 1) = (.ok r, (_, n + 1)) := Action.beside_run hun _
          rw [if_pos rfl, bind_ok hun'] at hrun
          cases hrun
          intro hmem
          apply hgone
          rw [← (hunlink hw₁ hun).2]
          exact hmem
  | true =>
      -- the row is not found, and the physical path decides
      rw [hfails, if_pos rfl] at hrun
      dsimp only at hrun
      have hlook : (failingSelects fails (backend env)).files.lstat (render physical) (w, n + 1) =
        (.ok ((Library.Posix.lstat w.fs (render physical)).map (World.fileStat env w.fs)),
          (w, n + 1)) := rfl
      rw [bind_ok hlook] at hrun
      have hreleased : ∀ {w₁ : World} {n₁ : ℕ}, HoldsFile env w₁ session.userId p d →
          releaseContentRef (failingSelects fails (backend env)) session.userId p (w₁, n₁) =
            (.ok (), (w', n')) → refMember session.userId p ∉ w'.redis.sets (refsKey d) := by
        intro w₁ n₁ hold₁ hrelease
        obtain ⟨w₂, hrelease', -, -, hgone⟩ := hold₁.release fails n₁ hexact
        rw [hrelease'] at hrelease
        cases hrelease
        exact hgone
      cases hnode : Library.Posix.lstat w.fs (render physical) with
      | error e =>
          rw [hnode] at hrun
          exact iff_of_false (hreleased hold hrun) (by simp)
      | ok x =>
          rw [hnode] at hrun
          simp only [Except.map, World.fileStat] at hrun
          by_cases hdir : x = .dir
          · subst hdir
            rw [if_pos rfl] at hrun
            obtain ⟨_, ⟨w₁, n₁⟩, hall, hrun⟩ := bind_eq_ok hrun
            obtain ⟨hw₁, hview₁⟩ := releaseIndexedUnderPrefix_failing fails (n + 1) hexact hw hall
            obtain ⟨_, ⟨w₂, n₂⟩, hremove, hrun⟩ := bind_eq_ok hrun
            have hpath : FileManager.removePath (failingSelects fails (backend env)).files
              (render physical) = beside (FileManager.removePath (files env) (render physical)) :=
                (hrel.files 0).removePath _
            have hidle := quiet_idles (@removePath_quiet env _ hphys) w₁ hw₁
            rcases hremoved : FileManager.removePath (files env) (render physical) w₁ with ⟨r, w₃⟩
            rw [hremoved] at hidle
            rw [hpath, Action.beside_run hremoved] at hremove
            cases hremove
            have hun : unindex (failingSelects fails (backend env)) session.userId p =
              beside (unindex (backend env) session.userId p) := hrel.unindex 0 _ _
            obtain ⟨w₃, hunindex, hview₃⟩ := unindex_view hexact (u := session.userId) (w := w₂) p
            rw [hun, Action.beside_run hunindex] at hrun
            cases hrun
            have hrefs : (view env w').refs d = ((view env w).detachAll (scheme env)
                (filesBelow env w session.userId p)).refs d := by
              rw [hview₃, view_idles hidle, hview₁]
              rfl
            have hkept := @RefStore.detachAll_refs _ _ _ _ _ _ _ (scheme env) (view env w)
              (filesBelow env w session.userId p) (session.userId, p) d hold.nonempty hold.key
            rw [hold.mem_filesBelow hexact] at hkept
            have hiff : refMember session.userId p ∈ (view env w').refs d ↔
                env.dialect.like p (dirPrefix p ++ str "%") = false := by
              rw [hrefs, ← Bool.not_eq_true]
              exact hkept.trans (and_iff_right hold.ref)
            exact hiff.trans (by simp)
          · rw [if_neg hdir] at hrun
            obtain ⟨r, hun⟩ := @unlink_run env (render physical) w
            have hun' : (failingSelects fails (backend env)).files.unlink (render physical)
              (w, n + 1) = (.ok r, (_, n + 1)) := Action.beside_run hun _
            have hold₁ := hold.of_view (hunlink hold.sound hun).1 (hunlink hold.sound hun).2
            rw [bind_ok hun'] at hrun
            refine iff_of_false ?_ (by simp [hdir])
            cases r with
            | ok _ => exact hreleased hold₁ hrun
            | error e =>
                dsimp only at hrun
                split_ifs at hrun
                · exact hreleased hold₁ hrun
                · cases hrun

end

end CloudStore.Interface
