import CloudStore.Interface.ObjectCopy

/-!
# The services as store operations

Every function of `TransferService` that writes is a sequence of operations of its user,
from any sound store. The first part says what the records of Redis and the rows become;
the services follow in the order of `Model.Transfer`.
-/

set_option autoImplicit false

namespace CloudStore.Interface

open CloudStore.Library (Bytes Path Plain FileTree Keeps Sheds Fewer SameFiles Handle Action)
open CloudStore.Library.Action (Moves Reads bind_ok bind_error bind_apply bind_at read_bind)
open CloudStore.Library.Posix
open CloudStore.Model
open CloudStore.Model.RedisStore
open CloudStore.Model.TransferService
open CloudStore.Model.World (objectPath files redisCalls backend)

variable {env : Env} {u : ℤ}

/-! ## Records -/

theorem getPathMd5_eq (p : Bytes) (w : World) :
    getPathMd5 (redisCalls env) u p w =
      (.ok (w.redis.strings (pathKey u (env.dialect.arg p))), w) := by
  simp [getPathMd5, redisCalls, arg_pathKey]

theorem setPathMd5_eq (p m : Bytes) (w : World) :
    setPathMd5 (redisCalls env) u p m w =
      (.ok (), setString w (pathKey u (env.dialect.arg p)) m) := by
  simp [setPathMd5, redisCalls, World.redisCall, arg_pathKey, setString]

theorem delPathMd5_eq (p : Bytes) (w : World) :
    delPathMd5 (redisCalls env) u p w =
      (.ok (), setSet (setString w (pathKey u (env.dialect.arg p)) [])
        (pathKey u (env.dialect.arg p)) ∅) := by
  simp [delPathMd5, redisCalls, World.redisCall, arg_pathKey, setString, setSet]

theorem addRef_eq (m p : Bytes) (w : World) :
    addRef (redisCalls env) m u p w =
      (.ok (), setSet w (refsKey (env.dialect.arg m))
        (insert (refMember u (env.dialect.arg p)) (w.redis.sets (refsKey (env.dialect.arg m))))) := by
  simp [addRef, redisCalls, bind_apply, arg_refsKey, arg_refMember, setSet]

theorem removeRef_eq (m p : Bytes) (w : World) :
    removeRef (redisCalls env) m u p w =
      (.ok (((w.redis.sets (refsKey (env.dialect.arg m))).erase
          (refMember u (env.dialect.arg p))).card : ℤ),
        setSet w (refsKey (env.dialect.arg m))
          ((w.redis.sets (refsKey (env.dialect.arg m))).erase (refMember u (env.dialect.arg p)))) := by
  simp [removeRef, redisCalls, bind_apply, arg_refsKey, arg_refMember, setSet]

theorem deleteObjectMeta_eq (m : Bytes) (w : World) :
    deleteObjectMeta (redisCalls env) m w = (.ok (), dropMeta w (env.dialect.arg m)) := by
  simp [deleteObjectMeta, redisCalls, World.redisCall, bind_apply, arg_refsKey, arg_objKey,
    arg_objsizeKey, dropMeta]

theorem setChallenge_eq (t m : Bytes) (offset len : ℕ) (w : World) :
    setChallenge (redisCalls env) t m offset len w =
      (.ok (), setString w (env.dialect.arg (chalKey t m))
        (toDecimal offset ++ str ":" ++ toDecimal len)) := by
  simp [setChallenge, redisCalls, World.redisCall, setString]

theorem delChallenge_eq (t m : Bytes) (w : World) :
    delChallenge (redisCalls env) t m w =
      (.ok (), setSet (setString w (env.dialect.arg (chalKey t m)) [])
        (env.dialect.arg (chalKey t m)) ∅) := by
  simp [delChallenge, redisCalls, World.redisCall, setString, setSet]

theorem getObjectPath_eq (m : Bytes) (w : World) :
    getObjectPath (redisCalls env) m w =
      (.ok (w.redis.strings (objKey (env.dialect.arg m))), w) := by
  simp [getObjectPath, redisCalls, arg_objKey]

theorem lookupFile_eq (p : Bytes) (w : World) :
    lookupFile (backend env) u p w = (.ok (w.rows.find? (World.isRow env u p)), w) := rfl

theorem lookupPlainFile_eq (p : Bytes) (w : World) :
    lookupPlainFile (backend env) u p w =
      (.ok ((w.rows.find? (World.isRow env u p)).filter fun r => !r.isDir), w) := rfl

theorem unindex_eq (p : Bytes) (w : World) :
    unindex (backend env) u p w =
      (.ok (), setSet (setString { w with rows := w.rows.filter fun r => !World.isRow env u p r }
        (pathKey u (env.dialect.arg p)) []) (pathKey u (env.dialect.arg p)) ∅) := by
  have h := @delPathMd5_eq env u p
    { w with rows := w.rows.filter fun r => !World.isRow env u p r }
  exact h

/-- A row is written, with what the column keeps of the md5, or the statement fails. -/
theorem indexFile_eq (p md5 : Bytes) (size : ℕ) (isDir : Bool) (status : Bytes) (w : World) :
    (∃ kept, env.dialect.md5Column md5 = some kept ∧
      indexFile (backend env) u p md5 size isDir status w =
        (.ok (), { w with rows := World.upsertRow env w.rows ⟨u, p, kept, size, isDir, status⟩ })) ∨
    (env.dialect.md5Column md5 = none ∧
      ∃ e, indexFile (backend env) u p md5 size isDir status w = (.error e, w)) := by
  have hunfold : indexFile (backend env) u p md5 size isDir status w =
      (tryCatch ((backend env).sql.upsertFile ⟨u, p, md5, size, isDir, status⟩) fun e =>
        (fail .internal (str "index failed: " ++ e.what) : Act World Unit)) w := rfl
  rw [hunfold, Action.tryCatch_apply]
  simp only [World.backend_sql, World.sqlCalls]
  cases hcol : env.dialect.md5Column md5 with
  | none => exact Or.inr ⟨rfl, _, rfl⟩
  | some kept => exact Or.inl ⟨kept, rfl, rfl⟩

/-! ## Sequences of operations -/

variable (env) in
/-- From a sound store, the step is made of operations that leave the records alone. -/
def Idles (w w' : World) : Prop := Sound env w → IdleOps env w w'

variable (env u) in
/-- From a sound store, the step is made of operations of the user. -/
def Follows (w w' : World) : Prop := Sound env w → StoreOps env u w w'

theorem Idles.refl (w : World) : Idles env w w := fun _ => Relation.ReflTransGen.refl

theorem Idles.trans (w w' w'' : World) (h : Idles env w w') (h' : Idles env w' w'') :
    Idles env w w'' :=
  fun hw => (h hw).trans (h' ((h hw).sound hw))

theorem Idles.op {w w' : World} (h : IdleOp env w w') : Idles env w w' :=
  fun _ => Relation.ReflTransGen.single h

theorem Follows.refl (w : World) : Follows env u w w := fun _ => Relation.ReflTransGen.refl

theorem Follows.trans (w w' w'' : World) (h : Follows env u w w') (h' : Follows env u w' w'') :
    Follows env u w w'' :=
  fun hw => (h hw).trans (h' ((h hw).sound hw))

theorem Follows.op {w w' : World} (h : StoreOp env u w w') : Follows env u w w' :=
  fun _ => Relation.ReflTransGen.single h

/-- A program that answers in one way and does one operation. -/
theorem follows_op {α : Type} {a : Act World α} {w w' : World} {r : Except Exn α}
    (ha : a w = (r, w')) (h : StoreOp env u w w') : Follows env u w (a w).2 := by
  rw [ha]
  exact Follows.op h

theorem Quiet.idles {w w' : World} (h : Quiet env w w') : Idles env w w' := by
  intro hw
  obtain ⟨hcalm, heq⟩ := h hw.links
  rw [heq]
  exact Relation.ReflTransGen.single (IdleOp.tree w hcalm)

theorem quiet_idles {α : Type} {a : Act World α} (h : Moves (Quiet env) a) :
    Moves (Idles env) a := fun w => (h w).idles

theorem idles_follow {α : Type} {a : Act World α} (h : Moves (Idles env) a) :
    Moves (Follows env u) a := fun w hw => (h w hw).storeOps

theorem quiet_follows {α : Type} {a : Act World α} (h : Moves (Quiet env) a) :
    Moves (Follows env u) a := idles_follow (quiet_idles h)

theorem reads_idle {α : Type} {a : Act World α} (h : Reads a) : Moves (Idles env) a := by
  intro w
  rw [h w]
  exact Idles.refl w

theorem reads_follow {α : Type} {a : Act World α} (h : Reads a) : Moves (Follows env u) a :=
  idles_follow (reads_idle h)

/-! ## Reading -/

theorem fileExists_reads (s : Bytes) : Reads (fileExists (files env) s) := fun w =>
  fileExists_read s w

theorem fileSize_reads (s : Bytes) : Reads (fileSize (files env) s) := by
  refine (Reads.of_look _).bind fun r => ?_
  cases r <;> exact Reads.of_pure _

theorem md5File_reads (s : Bytes) : Reads (md5File (backend env) s) := by
  refine (Reads.of_look _).bind fun r => ?_
  cases r with
  | error e => exact Reads.of_throw _
  | ok h => exact (Reads.of_look _).bind fun _ => Reads.of_pure _

theorem md5FileRange_reads (s : Bytes) (offset len : ℕ) :
    Reads (md5FileRange (backend env) s offset len) := by
  refine (Reads.of_look _).bind fun r => ?_
  cases r with
  | error e => exact Reads.of_throw _
  | ok h =>
      dsimp only
      split
      · exact Reads.of_throw _
      · refine Reads.bind (fun w => rfl) fun r => ?_
        cases r with
        | error e =>
            dsimp only
            split
            · exact Reads.of_pure _
            · exact Reads.of_throw _
        | ok bytes =>
            dsimp only
            split
            · exact Reads.of_pure _
            · exact Reads.of_throw _

theorem lookupPlainFile_reads (p : Bytes) : Reads (lookupPlainFile (backend env) u p) :=
  fun _ => rfl

theorem listIndexed_reads (dir : Bytes) : Reads (listIndexed (backend env) u dir) := fun _ => rfl

theorem resolveObjectPath_reads (md5 : Bytes) : Reads (resolveObjectPath (backend env) md5) := by
  refine (Reads.of_look _).bind fun cached => ?_
  split
  · exact Reads.of_pure _
  · exact Reads.of_lift _

theorem hasSize_reads (s : Bytes) (size : ℕ) : Reads (hasSize (backend env) s size) := by
  refine (fileExists_reads s).bind fun r => ?_
  split
  · exact (fileSize_reads s).bind fun _ => Reads.of_pure _
  · exact Reads.of_pure _

theorem releasedMd5_reads (p : Bytes) : Reads (releasedMd5 (backend env) u p) := by
  refine (Reads.of_look _).bind fun md5 => ?_
  split
  · refine (lookupPlainFile_reads p).bind fun r => ?_
    cases r <;> exact Reads.of_pure _
  · exact Reads.of_pure _

theorem getChallenge_reads (t m : Bytes) : Reads (getChallenge (redisCalls env) t m) := by
  refine (Reads.of_look _).bind fun s => ?_
  split
  · exact (Reads.of_lift _).bind fun _ => (Reads.of_lift _).bind fun _ => Reads.of_pure _
  · exact Reads.of_pure _

theorem checkProof_reads (session : UserSession) (md5 : Bytes) (size proofOffset : ℕ)
    (proofMd5 : Bytes) :
    Reads (checkProof (backend env) session md5 size proofOffset proofMd5) := by
  refine (getChallenge_reads _ _).bind fun challenge => ?_
  cases challenge with
  | none => exact Reads.of_throw _
  | some ol =>
      dsimp only
      split
      · exact Reads.of_throw _
      · refine (resolveObjectPath_reads _).bind fun obj => (fileExists_reads _).bind fun r => ?_
        split
        · exact Reads.of_throw _
        · refine (fileSize_reads _).bind fun n => ?_
          split
          · exact Reads.of_throw _
          · split
            · refine (md5FileRange_reads _ _ _).bind fun real => ?_
              split
              · exact Reads.of_throw _
              · exact Reads.of_pure _
            · exact Reads.of_pure _

theorem downloadMd5_reads (p : Bytes) : Reads (downloadMd5 (backend env) u p) := by
  refine (Reads.of_look _).bind fun key => ?_
  split
  · refine (lookupPlainFile_reads p).bind fun r => ?_
    cases r with
    | none => exact Reads.of_throw _
    | some info =>
        dsimp only
        split
        · exact Reads.of_throw _
        · exact Reads.of_pure _
  · exact Reads.of_pure _

theorem readChunk_reads (st : DownloadSession) (offset len : ℕ) :
    Reads (readChunk (backend env) st offset len) := by
  unfold readChunk
  split
  · exact Reads.of_throw _
  · split
    · exact Reads.of_pure _
    · refine Reads.bind (Reads.of_look _) fun r => ?_
      cases r with
      | error e => exact Reads.of_throw _
      | ok bytes => exact Reads.of_pure _

theorem statPath_reads (physical : Bytes) : Reads (FileManager.statPath (files env) physical) := by
  refine (Reads.of_look _).bind fun r => ?_
  cases r with
  | error e => exact Reads.of_throw _
  | ok st => exact Reads.of_pure _

theorem listNames_reads {descend : Bytes → Bytes → Act World (List FileEntry)}
    (hdescend : ∀ physical logical, Reads (descend physical logical)) (recursive : Bool)
    (physical logical : Bytes) (names : List Bytes) :
    Reads (FileManager.listNames (files env) descend recursive physical logical names) := by
  induction names with
  | nil => exact Reads.of_pure _
  | cons name names ih =>
      rw [FileManager.listNames]
      split
      · exact ih
      · refine (Reads.of_look _).bind fun r => ?_
        cases r with
        | error e => exact ih
        | ok st =>
            dsimp only
            split
            · refine Reads.bind (hdescend _ _) fun below => ?_
              exact Reads.bind ih fun rest => Reads.of_pure _
            · refine Reads.bind (a := (pure [] : Act World (List FileEntry))) (Reads.of_pure _)
                fun below => ?_
              exact Reads.bind ih fun rest => Reads.of_pure _

/-- A listing reads: induction on the depth. -/
theorem listDirRecursive_reads (recursive : Bool) (depth : ℕ) (physical logical : Bytes) :
    Reads (FileManager.listDirRecursive (files env) recursive depth physical logical) := by
  induction depth generalizing physical logical with
  | zero => exact Reads.of_throw _
  | succ depth ih =>
      rw [FileManager.listDirRecursive]
      refine (Reads.of_look _).bind fun r => ?_
      cases r with
      | error e => exact Reads.of_throw _
      | ok names =>
          exact (listNames_reads ih recursive physical logical names).bind fun out =>
            (Reads.of_pure _).bind fun _ => Reads.of_pure _

theorem listDir_reads (physical : Bytes) (recursive : Bool) :
    Reads (FileManager.listDir (files env) physical recursive) :=
  (Reads.of_look _).bind fun depth => listDirRecursive_reads recursive depth physical []

/-- The md5 that a release acts on is short. -/
theorem releasedMd5_short {p md5 : Bytes} {w w' : World} (hw : Sound env w)
    (h : releasedMd5 (backend env) u p w = (.ok md5, w')) : Short env.dialect md5 := by
  unfold releasedMd5 at h
  simp only [World.backend_redis] at h
  rw [bind_ok (getPathMd5_eq p w)] at h
  split_ifs at h with hnil
  · rw [bind_ok (lookupPlainFile_eq p w)] at h
    cases hrow : (w.rows.find? (World.isRow env u p)).filter fun r => !r.isDir with
    | none =>
        simp only [hrow, Action.pure_apply, Prod.mk.injEq, Except.ok.injEq] at h
        exact h.1 ▸ short_nil _
    | some r =>
        simp only [hrow, Action.pure_apply, Prod.mk.injEq, Except.ok.injEq] at h
        rw [Option.filter_eq_some_iff] at hrow
        exact h.1 ▸ hw.rowShort r (List.mem_of_find?_eq_some hrow.1)
  · simp only [Action.pure_apply, Prod.mk.injEq, Except.ok.injEq] at h
    exact h.1 ▸ hw.linkShort u _

/-- The path of an object is the cached one or the one of the digest. -/
theorem resolveObjectPath_ok {md5 obj : Bytes} {w w' : World} (hw : Sound env w)
    (h : resolveObjectPath (backend env) md5 w = (.ok obj, w')) :
    2 ≤ md5.length ∧ obj = objectText env md5 ∨
      Hex32 (env.dialect.arg md5) ∧ obj = objectText env (env.dialect.arg md5) := by
  unfold resolveObjectPath at h
  simp only [World.backend_redis] at h
  rw [bind_ok (getObjectPath_eq md5 w)] at h
  split_ifs at h with hcached
  · obtain ⟨hhex, hpath⟩ := hw.cached _ hcached
    simp only [Action.pure_apply, Prod.mk.injEq, Except.ok.injEq] at h
    exact Or.inr ⟨hhex, by rw [← h.1, hpath]⟩
  · rw [objectPathFor_eq] at h
    split_ifs at h with hlen
    · simp at h
    · simp only [Action.monadLift_apply, Prod.mk.injEq, Except.ok.injEq] at h
      exact Or.inl ⟨by omega, h.1.symm⟩

/-! ## References and objects -/

/-- A short md5 leads to its own object or to none. -/
theorem object_of_short {t : FileTree} (hl : t.NoLinks) {md5 obj : Bytes} (hshort : Short env.dialect md5)
    (hobj : 2 ≤ md5.length ∧ obj = objectText env md5 ∨
      Hex32 (env.dialect.arg md5) ∧ obj = objectText env (env.dialect.arg md5))
    {follow : Bool} {q : Path} (hloc : locate t follow obj = .ok q) (hq : t.entry q ≠ some .dir) :
    q ∉ objectPlaces env {env.dialect.arg md5} := by
  rintro ⟨m, hm, hne, rfl⟩
  apply hne
  cases hobj with
  | inl h =>
      obtain ⟨hlen, rfl⟩ := h
      exact (hshort.hex hm (objectText_last env hl hlen hm hq hloc)).symm
  | inr h =>
      obtain ⟨hhex, rfl⟩ := h
      exact objectPath_injective env (locate_object hl hhex hloc)

/-- **The collection of an object without references.** -/
theorem collectObject_follows {md5 : Bytes} (hshort : Short env.dialect md5) {w : World}
    (hempty : w.redis.sets (refsKey (env.dialect.arg md5)) = ∅) :
    Follows env u w (collectObject (backend env) md5 w).2 := by
  intro hw
  have hdrop : ∀ {t : FileTree}, Calm env {env.dialect.arg md5} w.fs t → Sheds w.fs t →
      StoreOps env u w (dropMeta { w with fs := t } (env.dialect.arg md5)) := by
    intro t hcalm hsheds
    refine Relation.ReflTransGen.single (StoreOp.collect w _ hempty hcalm fun _ => ?_)
    cases hsheds.entry (objectPath env (env.dialect.arg md5)) with
    | inl h => exact Or.inl ⟨h, hsheds.data⟩
    | inr h => exact Or.inr h
  refine read_bind (R := StoreOps env u) Relation.ReflTransGen.refl
    (resolveObjectPath_reads md5 w) fun obj hobj => ?_
  have hpath := resolveObjectPath_ok hw hobj
  refine read_bind (R := StoreOps env u) Relation.ReflTransGen.refl
    (fileExists_reads obj w) fun there _ => ?_
  have hmeta : ∀ w' : World, deleteObjectMeta (redisCalls env) md5 w' =
    (.ok (), dropMeta w' (env.dialect.arg md5)) := deleteObjectMeta_eq md5
  cases there with
  | false =>
      have := hdrop (Keeps.refl w.fs) (Sheds.refl w.fs)
      simpa [hmeta] using this
  | true =>
      simp only [if_true, World.backend_files, World.backend_redis]
      cases hunlink : unlink w.fs obj with
      | error e =>
          have := hdrop (Keeps.refl w.fs) (Sheds.refl w.fs)
          simpa [bind_apply, files, World.fileCall, hunlink, hmeta] using this
      | ok t =>
          have hcalm : Calm env {env.dialect.arg md5} w.fs t :=
            unlink_keeps hunlink fun q hloc hq => object_of_short hw.links hshort hpath hloc hq
          have := hdrop hcalm (unlink_sheds hunlink)
          simpa [bind_apply, files, World.fileCall, hunlink, hmeta] using this

theorem unindex_follows (p : Bytes) : Moves (Follows env u) (unindex (backend env) u p) := by
  intro w
  rw [unindex_eq]
  refine Follows.trans _ _ _ (Follows.op (StoreOp.unrow w p)) ?_
  exact Follows.op (StoreOp.unlink _ _)

/-- `releaseContentRef`: a reference less, and the object gone if it was the last. -/
theorem releaseContentRef_follows (p : Bytes) :
    Moves (Follows env u) (releaseContentRef (backend env) u p) := by
  intro w hw
  refine read_bind (R := StoreOps env u) Relation.ReflTransGen.refl
    (releasedMd5_reads p w) fun md5 hmd5 => ?_
  have hshort := releasedMd5_short hw hmd5
  have hlast := @unindex_follows env u p
  dsimp only
  split
  · simp only [World.backend_redis]
    refine (bind_at Follows.trans
      (follows_op (removeRef_eq md5 p w) (StoreOp.removeRef w _ _)) fun refs w' hrefs => ?_) hw
    rw [removeRef_eq, Prod.mk.injEq, Except.ok.injEq] at hrefs
    obtain ⟨hcard, rfl⟩ := hrefs
    split
    next hle =>
      refine bind_at Follows.trans (collectObject_follows hshort ?_) fun _ w'' _ => hlast w''
      have hzero : ((w.redis.sets (refsKey (env.dialect.arg md5))).erase
          (refMember u (env.dialect.arg p))).card = 0 := by omega
      simpa [setSet] using hzero
    · exact hlast _
  · exact hlast w hw

theorem indexFile_follows {md5 : Bytes} (hshort : env.dialect.cStrings = false → Short env.dialect md5)
    (p : Bytes) (size : ℕ) (isDir : Bool) (status : Bytes) :
    Moves (Follows env u) (indexFile (backend env) u p md5 size isDir status) := by
  intro w
  cases @indexFile_eq env u p md5 size isDir status w with
  | inl h =>
      obtain ⟨kept, hkept, hindex⟩ := h
      exact follows_op hindex (StoreOp.row w _ rfl (short_column hshort hkept).2)
  | inr h =>
      obtain ⟨-, e, hindex⟩ := h
      rw [hindex]
      exact Follows.refl w

/-- A row and then the path key: the key is written only if the column takes the md5. -/
theorem index_then_link_follows {md5 : Bytes}
    (hshort : env.dialect.cStrings = false → Short env.dialect md5) (p : Bytes) (size : ℕ)
    (status : Bytes) {β : Type} {k : Act World β} (hk : Moves (Follows env u) k) :
    Moves (Follows env u) (do
      indexFile (backend env) u p md5 size false status
      setPathMd5 (redisCalls env) u p md5
      k) := by
  intro w
  refine bind_at Follows.trans (indexFile_follows hshort p size false status w) fun _ w' hindex => ?_
  have htaken : Short env.dialect md5 := by
    cases @indexFile_eq env u p md5 size false status w with
    | inl h =>
        obtain ⟨kept, hkept, -⟩ := h
        exact (short_column hshort hkept).1
    | inr h =>
        obtain ⟨-, e, he⟩ := h
        rw [he] at hindex
        simp at hindex
  refine bind_at Follows.trans (follows_op (setPathMd5_eq p md5 w') (StoreOp.link w' _ _ htaken))
    fun _ w'' _ => hk w''

theorem addContentRef_follows {md5 : Bytes}
    (hshort : env.dialect.cStrings = false → Short env.dialect md5) (p : Bytes) (size : ℕ) :
    Moves (Follows env u) (addContentRef (backend env) u p md5 size) := by
  refine Moves.bind Follows.trans (fun w => ?_) fun _ => ?_
  · exact follows_op (addRef_eq md5 p w) (StoreOp.addRef w _ _)
  · have h := (@index_then_link_follows env u _) hshort p size (str "ready")
      (k := (pure () : Act World Unit)) (Moves.of_pure Follows.refl ())
    exact h

theorem releaseIndexedUnderPrefix_follows (dir : Bytes) :
    Moves (Follows env u) (releaseIndexedUnderPrefix (backend env) u dir) := by
  intro w
  refine read_bind (Follows.refl w) rfl fun _ _ => ?_
  refine read_bind (Follows.refl w) rfl fun paths _ => ?_
  exact Moves.each Follows.refl Follows.trans (fun vp => releaseContentRef_follows vp) paths w

/-- `renameIndexedFile`: reference, key and row move to the new path. -/
theorem renameIndexedFile_follows {md5 : Bytes} (hshort : Short env.dialect md5) (p q : Bytes)
    (size : ℕ) : Moves (Follows env u) (renameIndexedFile (backend env) u p q md5 size) := by
  refine Moves.bind Follows.trans (fun w => ?_) fun _ => ?_
  · exact follows_op (removeRef_eq md5 p w) (StoreOp.removeRef w _ _)
  refine Moves.bind Follows.trans (fun w => ?_) fun _ => ?_
  · exact follows_op (addRef_eq md5 q w) (StoreOp.addRef w _ _)
  refine Moves.bind Follows.trans (fun w => ?_) fun _ => ?_
  · exact follows_op (delPathMd5_eq p w) (StoreOp.unlink w _)
  refine index_then_link_follows (fun _ => hshort) q size (str "ready") fun w => ?_
  exact Follows.op (StoreOp.unrow w p)

/-! ## Instant upload -/

theorem queryInstant_idles {session : UserSession}
    (htoken : env.dialect.cStrings = false → 58 ∉ session.token) (md5 : Bytes) (size : ℕ) :
    Moves (Idles env) (queryInstant (backend env) session md5 size) := by
  unfold queryInstant
  split
  · exact Moves.of_throw Idles.refl _
  next hlen =>
    have hlen : md5.length = 32 := not_not.mp hlen
    refine Moves.bind Idles.trans (reads_idle (resolveObjectPath_reads md5)) fun obj => ?_
    refine Moves.bind Idles.trans (reads_idle (hasSize_reads obj size)) fun hit => ?_
    split
    · refine Moves.bind Idles.trans (fun w => ?_) fun _ => Moves.of_pure Idles.refl _
      simp only [World.backend_redis]
      rw [setChallenge_eq]
      exact Idles.op (IdleOp.challenge w _ _ _ fun hexact => ⟨htoken hexact, fun _ => hlen⟩)
    · exact Moves.of_pure Idles.refl _

/-- A proof is only accepted for a challenge that was set. -/
theorem checkProof_ok {session : UserSession} {md5 proofMd5 : Bytes} {size proofOffset : ℕ}
    {w w' : World} {r : Unit}
    (h : checkProof (backend env) session md5 size proofOffset proofMd5 w = (.ok r, w')) :
    w.redis.strings (env.dialect.arg (chalKey session.token md5)) ≠ [] := by
  intro hnil
  have hget : getChallenge (redisCalls env) session.token md5 w = (.ok none, w) := by
    simp [getChallenge, redisCalls, bind_apply, hnil]
  unfold checkProof at h
  simp only [World.backend_redis] at h
  rw [bind_ok hget] at h
  simp [fail] at h

theorem clearDestination_follows {dest : Path} (hdest : UserPath env dest) (p : Bytes)
    (overwrite : Bool) :
    Moves (Follows env u) (clearDestination (backend env) u (render dest) p overwrite) := by
  refine Moves.bind Follows.trans (reads_follow (lookupPlainFile_reads p)) fun row => ?_
  cases row with
  | some r =>
      dsimp only
      split
      · exact releaseContentRef_follows p
      · exact Moves.of_throw Follows.refl _
  | none =>
      refine Moves.bind Follows.trans (reads_follow (fileExists_reads _)) fun there => ?_
      split
      · split
        · refine Moves.bind Follows.trans (quiet_follows (unlink_quiet (clear_user hdest))) fun _ => ?_
          exact Moves.of_pure Follows.refl _
        · exact Moves.of_throw Follows.refl _
      · exact Moves.of_pure Follows.refl _

theorem instantUpload_follows {session : UserSession}
    (htoken : env.dialect.cStrings = false → 58 ∉ session.token) {dest : Path}
    (hdest : UserPath env dest) (p md5 : Bytes) (size proofOffset : ℕ) (proofMd5 : Bytes)
    (overwrite : Bool) :
    Moves (Follows env session.userId)
      (instantUpload (backend env) session (render dest) p md5 size proofOffset proofMd5 overwrite) := by
  intro w hw
  refine read_bind (R := StoreOps env session.userId) Relation.ReflTransGen.refl
    (checkProof_reads session md5 size proofOffset proofMd5 w) fun _ hproof => ?_
  have hshort : env.dialect.cStrings = false → Short env.dialect md5 := by
    intro hexact
    have hchallenge := checkProof_ok hproof
    obtain ⟨-, -, hsame⟩ := arg_chalKey env.dialect session.token md5
    rw [hsame hexact] at hchallenge
    exact short_of_length _ (Or.inr (hw.challenges hexact _ _ (htoken hexact) hchallenge))
  refine (Moves.bind Follows.trans (fun w => ?_) fun _ => ?_) w hw
  · exact follows_op (delChallenge_eq _ _ w) (StoreOp.idle (IdleOp.unchallenge w _ _))
  refine Moves.bind Follows.trans (clearDestination_follows hdest p overwrite) fun _ => ?_
  refine Moves.bind Follows.trans (quiet_follows (ensureDir_parent_quiet hdest)) fun _ => ?_
  exact addContentRef_follows hshort p size

/-! ## Removing and renaming -/

theorem removeUserPath_follows {session : UserSession} {physical : Path}
    (hphys : UserPath env physical) (p : Bytes) :
    Moves (Follows env session.userId)
      (removeUserPath (backend env) session (render physical) p) := by
  have hunlink : Moves (Follows env session.userId) ((files env).unlink (render physical)) :=
    quiet_follows (unlink_quiet (clear_user hphys))
  refine Moves.bind Follows.trans (reads_follow (lookupPlainFile_reads p)) fun row => ?_
  cases row with
  | some r =>
      refine Moves.bind Follows.trans (releaseContentRef_follows p) fun _ => ?_
      refine Moves.bind Follows.trans (reads_follow (fileExists_reads _)) fun there => ?_
      split
      · exact Moves.bind Follows.trans hunlink fun _ => Moves.of_pure Follows.refl _
      · exact Moves.of_pure Follows.refl _
  | none =>
      refine Moves.bind Follows.trans (Moves.of_look Follows.refl _) fun st => ?_
      cases st with
      | error e => exact releaseContentRef_follows p
      | ok st =>
          dsimp only
          split
          · refine Moves.bind Follows.trans (releaseIndexedUnderPrefix_follows p) fun _ => ?_
            refine Moves.bind Follows.trans (quiet_follows (removePath_quiet hphys)) fun _ => ?_
            exact unindex_follows p
          · refine Moves.bind Follows.trans hunlink fun r => ?_
            cases r with
            | ok _ => exact releaseContentRef_follows p
            | error e =>
                dsimp only
                split
                · exact releaseContentRef_follows p
                · exact Moves.of_throw Follows.refl _

/-- `renamePhysical`: the new row takes the md5 of the old path key. -/
theorem renamePhysical_follows {source dest : Path} (hsource : UserPath env source)
    (hdest : UserPath env dest) (p q : Bytes) :
    Moves (Follows env u)
      (renamePhysical (backend env) u (render source) p (render dest) q) := by
  refine Moves.bind Follows.trans (quiet_follows (renamePath_quiet hsource hdest)) fun _ => ?_
  intro w hw
  have hread := @getPathMd5_eq env u p w
  simp only [World.backend_redis, World.backend_files]
  rw [bind_ok hread]
  have hshort := hw.linkShort u (env.dialect.arg p)
  refine (Moves.bind Follows.trans (reads_follow (fileExists_reads _)) fun there => ?_) w hw
  have hrest : ∀ sz, Moves (Follows env u) (do
      unindex (backend env) u p
      indexFile (backend env) u q (w.redis.strings (pathKey u (env.dialect.arg p))) sz false
        (str "ready")
      if w.redis.strings (pathKey u (env.dialect.arg p)) ≠ [] then
        setPathMd5 (redisCalls env) u q (w.redis.strings (pathKey u (env.dialect.arg p)))) := by
    intro sz
    refine Moves.bind Follows.trans (unindex_follows p) fun _ => ?_
    refine Moves.bind Follows.trans (indexFile_follows (fun _ => hshort) _ _ _ _) fun _ => ?_
    split
    · exact fun w' => follows_op (setPathMd5_eq q _ w') (StoreOp.link w' _ _ hshort)
    · exact Moves.of_pure Follows.refl _
  split
  · exact Moves.bind Follows.trans (reads_follow (fileSize_reads _)) fun sz => hrest sz
  · exact Moves.bind Follows.trans (Moves.of_pure Follows.refl 0) fun sz => hrest sz

theorem renameUserPath_follows {session : UserSession} {source dest : Path}
    (hsource : UserPath env source) (hdest : UserPath env dest) (p q : Bytes) :
    Moves (Follows env session.userId)
      (renameUserPath (backend env) session (render source) p (render dest) q) := by
  intro w hw
  unfold renameUserPath
  rw [bind_ok (lookupPlainFile_eq p w)]
  cases hrow : (w.rows.find? (World.isRow env session.userId p)).filter fun r => !r.isDir with
  | some r =>
      rw [Option.filter_eq_some_iff] at hrow
      have hshort := hw.rowShort r (List.mem_of_find?_eq_some hrow.1)
      exact renameIndexedFile_follows hshort p q r.size w hw
  | none => exact renamePhysical_follows hsource hdest p q w hw

/-! ## Upload in chunks -/

variable (env) in
/-- The session of an upload whose part file is open. -/
structure OpenUpload (w : World) (st : UploadSession) (fd : ℕ) : Prop where
  used : fd < w.fs.fresh
  clear : ∀ p ∈ objectPlaces env ∅, w.fs.entry p ≠ some (.file fd)
  part : ∃ username, NameOk username ∧ st.partPath = partText env username st.md5 st.destPath
  dest : ∃ p, UserPath env p ∧ st.destPath = render p
  md5 : st.md5.length = 32

theorem writeFile_quiet {w : World} {i : ℕ}
    (hi : ∀ p ∈ objectPlaces env ∅, w.fs.entry p ≠ some (.file i)) (bytes : Bytes) :
    Quiet env w { w with fs := w.fs.write i bytes } :=
  Quiet.withTree fun _ => Keeps.write bytes hi

theorem randomHex_idles (n : ℕ) : Moves (Idles env) (randomHex (backend env) n) := by
  refine Moves.bind Idles.trans (fun w => ?_) fun _ => Moves.of_pure Idles.refl _
  exact Idles.op (IdleOp.draw w _)

/-- A download only draws a random id. -/
theorem beginDownload_idles (session : UserSession) (p : Bytes) :
    Moves (Idles env) (beginDownload (backend env) session p) := by
  refine Moves.bind Idles.trans (randomHex_idles 16) fun fileId => ?_
  refine Moves.bind Idles.trans (reads_idle (downloadMd5_reads p)) fun md5 => ?_
  refine Moves.bind Idles.trans (reads_idle (resolveObjectPath_reads md5)) fun src => ?_
  refine Moves.bind Idles.trans (reads_idle (fileExists_reads src)) fun there => ?_
  split
  · exact Moves.of_throw Idles.refl _
  · refine Moves.bind Idles.trans (reads_idle (fileSize_reads src)) fun size => ?_
    refine Moves.bind Idles.trans (Moves.of_look Idles.refl _) fun r => ?_
    cases r with
    | error e => exact Moves.of_throw Idles.refl _
    | ok fd => exact Moves.of_pure Idles.refl _

/-- Opening a part file: no object is touched, and the inode is of no object. -/
theorem openPart_quiet {username md5 dest : Bytes} (hname : NameOk username)
    (hlen : md5.length = 32) (hdest : 0 ∉ baseName dest) {w : World} (hl : w.fs.NoLinks)
    {r : Except Library.Errno ℕ} {w' : World}
    (h : (files env).openCreate (partText env username md5 dest) w = (.ok r, w')) :
    Quiet env w w' ∧ ∀ fd, r = .ok fd →
      fd < w'.fs.fresh ∧ ∀ p ∈ objectPlaces env ∅, w'.fs.entry p ≠ some (.file fd) := by
  simp only [files, World.openCall, Action.move_apply] at h
  cases hopen : openCreate w.fs (partText env username md5 dest) with
  | error e =>
      simp only [hopen, Prod.mk.injEq, Except.ok.injEq] at h
      obtain ⟨rfl, rfl⟩ := h
      exact ⟨Quiet.refl w, by simp⟩
  | ok it =>
      obtain ⟨i, t⟩ := it
      simp only [hopen, Prod.mk.injEq, Except.ok.injEq] at h
      obtain ⟨rfl, rfl⟩ := h
      obtain ⟨hkeep, hused, hclear⟩ := openCreate_keeps (K := objectPlaces env ∅)
        (N := partPlaces env) hopen fun q hq hdir => clear_part hname hlen hdest w.fs true q hl hq hdir
      refine ⟨Quiet.withTree fun _ => hkeep, fun fd hfd => ?_⟩
      rw [Except.ok.injEq] at hfd
      exact hfd ▸ ⟨hused, hclear⟩

/-- `resumeAt` leaves the inodes of objects alone, and the names of all. -/
theorem resumeAt_quiet {fd : ℕ} (size : ℕ) {w : World}
    (hclear : ∀ p ∈ objectPlaces env ∅, w.fs.entry p ≠ some (.file fd)) :
    Quiet env w (resumeAt (backend env) fd size w).2 ∧
      (resumeAt (backend env) fd size w).2.fs.entry = w.fs.entry ∧
      (resumeAt (backend env) fd size w).2.fs.fresh = w.fs.fresh := by
  have hstat : (files env).fstat fd w = (.ok (.ok (w.fs.data fd).length), w) := rfl
  unfold resumeAt
  simp only [World.backend_files]
  rw [bind_ok hstat]
  dsimp only
  split
  · exact ⟨writeFile_quiet hclear [], rfl, rfl⟩
  · exact ⟨Quiet.refl w, rfl, rfl⟩

/-- The directories and the part file of `beginUpload`. -/
theorem beginUpload_idles {session : UserSession} (hname : NameOk session.username)
    {dest : Path} (hdest : UserPath env dest) (p md5 : Bytes) (size : ℕ) :
    Moves (Idles env) (beginUpload (backend env) session (render dest) p md5 size) := by
  unfold beginUpload
  split
  · exact Moves.of_throw Idles.refl _
  split
  · exact Moves.of_throw Idles.refl _
  next hlen =>
    have hlen : md5.length = 32 := not_not.mp hlen
    have hzero : 0 ∉ baseName (render dest) :=
      zero_not_mem_baseName (zero_not_mem_render hdest.plain)
    refine Moves.bind Idles.trans (quiet_idles (ensureDir_tmp_quiet hname)) fun _ => ?_
    refine Moves.bind Idles.trans (quiet_idles (ensureDir_parent_quiet hdest)) fun _ => ?_
    refine Moves.bind Idles.trans (randomHex_idles 16) fun fileId => ?_
    intro w hw
    refine bind_at (R := IdleOps env) (fun _ _ _ => Relation.ReflTransGen.trans)
      (a := (files env).openCreate (partText env session.username md5 (render dest))) ?_ ?_
    · rcases hopen : (files env).openCreate (partText env session.username md5 (render dest)) w with
        ⟨e | r, w'⟩
      · exact absurd hopen (by simp [files, World.openCall])
      · exact (openPart_quiet hname hlen hzero hw.links hopen).1.idles hw
    · intro r w' hopen
      obtain ⟨hquiet, hfd⟩ := openPart_quiet hname hlen hzero hw.links hopen
      cases r with
      | error e => exact Relation.ReflTransGen.refl
      | ok fd =>
          have hclear := (hfd fd rfl).2
          refine bind_at (R := Idles env) Idles.trans ?_ (fun _ w'' _ => Idles.refl w'')
            ((Quiet.idles hquiet hw).sound hw)
          exact (resumeAt_quiet size hclear).1.idles

/-- What `beginUpload` has done where it succeeds: it made directories, drew an id, and opened
the part file at the place to go on from. -/
theorem beginUpload_opens {session : UserSession} (hname : NameOk session.username)
    {dest : Path} (hdest : UserPath env dest) {p md5 : Bytes} {size : ℕ} {w w' : World}
    {st : UploadSession} (hl : w.fs.NoLinks)
    (h : beginUpload (backend env) session (render dest) p md5 size w = (.ok st, w')) :
    md5.length = 32 ∧ ∃ w₁ w₂ fd, SameFiles w.fs w₁.fs ∧ w₁.fs.NoLinks ∧
      (files env).openCreate (partText env session.username md5 (render dest)) w₁ = (.ok (.ok fd), w₂) ∧
      resumeAt (backend env) fd size w₂ = (.ok st.received, w') ∧
      st = { fileId := st.fileId, destPath := render dest, virtualPath := p
             partPath := partText env session.username md5 (render dest), md5 := md5
             totalSize := size, received := st.received, fd := some fd } := by
  unfold beginUpload at h
  split at h
  · simp [fail] at h
  split at h
  · simp [fail] at h
  next hlen =>
    obtain ⟨_, w₁, h₁, h⟩ := Action.bind_eq_ok h
    obtain ⟨_, w₂, h₂, h⟩ := Action.bind_eq_ok h
    obtain ⟨fileId, w₃, h₃, h⟩ := Action.bind_eq_ok h
    obtain ⟨r, w₄, h₄, h⟩ := Action.bind_eq_ok h
    have hl₁ : w₁.fs.NoLinks ∧ SameFiles w.fs w₁.fs := by
      have hquiet := @ensureDir_tmp_quiet env _ hname w
      have hlinks := (hquiet hl).1.links hl
      have hsame := @ensureDir_sameFiles env (joinPath env.cfg.tmpRoot session.username) w
      rw [show (ensureDir (files env) (joinPath env.cfg.tmpRoot session.username) w).2 = w₁ from
        congrArg Prod.snd h₁] at hlinks hsame
      exact ⟨hlinks, hsame⟩
    have hl₂ : w₂.fs.NoLinks ∧ SameFiles w₁.fs w₂.fs := by
      have hquiet := @ensureDir_parent_quiet env _ hdest w₁
      have hlinks := (hquiet hl₁.1).1.links hl₁.1
      have hsame := @ensureDir_sameFiles env (parentDir (render dest)) w₁
      rw [show (ensureDir (files env) (parentDir (render dest)) w₁).2 = w₂ from
        congrArg Prod.snd h₂] at hlinks hsame
      exact ⟨hlinks, hsame⟩
    have hdraw : w₃.fs = w₂.fs := (congrArg (fun r => r.2.fs) h₃).symm
    cases r with
    | error e => simp [fail] at h
    | ok fd =>
        obtain ⟨received, w₅, h₅, h⟩ := Action.bind_eq_ok h
        simp only [Action.pure_apply, Prod.mk.injEq, Except.ok.injEq] at h
        obtain ⟨rfl, rfl⟩ := h
        refine ⟨not_not.mp hlen, w₃, w₄, fd, ?_, ?_, h₄, h₅, rfl⟩
        · rw [hdraw]
          exact hl₁.2.trans hl₂.2
        · rw [hdraw]
          exact hl₂.1

/-- The session that `beginUpload` returns is open. -/
theorem beginUpload_ok {session : UserSession} (hname : NameOk session.username)
    {dest : Path} (hdest : UserPath env dest) {p md5 : Bytes} {size : ℕ} {w w' : World}
    {st : UploadSession} (hl : w.fs.NoLinks)
    (h : beginUpload (backend env) session (render dest) p md5 size w = (.ok st, w')) :
    ∃ fd, st.fd = some fd ∧ OpenUpload env w' st fd := by
  have hzero : 0 ∉ baseName (render dest) :=
    zero_not_mem_baseName (zero_not_mem_render hdest.plain)
  obtain ⟨hlen, w₁, w₂, fd, -, hl₁, hcreate, hresume, hst⟩ := beginUpload_opens hname hdest hl h
  obtain ⟨-, hfd⟩ := openPart_quiet hname hlen hzero hl₁ hcreate
  obtain ⟨hused, hclear⟩ := hfd fd rfl
  obtain ⟨-, hentry, hfresh⟩ := (@resumeAt_quiet env _) size hclear
  rw [hresume] at hentry hfresh
  dsimp only at hentry hfresh
  rw [hst]
  refine ⟨fd, rfl, ?_, ?_, ⟨session.username, hname, rfl⟩, ⟨dest, hdest, rfl⟩, hlen⟩
  · rw [hfresh]
    exact hused
  · rw [hentry]
    exact hclear

/-- `writeChunk` writes to the part file only. -/
theorem writeChunk_quiet {st : UploadSession} {w : World} (offset : ℕ) (data : Bytes)
    (hopen : ∀ fd, st.fd = some fd → OpenUpload env w st fd) :
    Quiet env w (writeChunk (backend env) offset data (w, st)).2.1 ∧
      ∀ fd, (writeChunk (backend env) offset data (w, st)).2.2.fd = some fd →
        OpenUpload env (writeChunk (backend env) offset data (w, st)).2.1
          (writeChunk (backend env) offset data (w, st)).2.2 fd := by
  unfold writeChunk
  rw [bind_ok (Action.look_apply Prod.snd (w, st))]
  cases hfd : st.fd with
  | none => simp [hfd, fail, Quiet.refl]
  | some fd =>
      obtain ⟨hused, hclear, hpart, hdest, hmd5⟩ := hopen fd hfd
      dsimp only
      split
      · exact ⟨Quiet.refl w, hopen⟩
      · have hsame : ∀ bytes, OpenUpload env { w with fs := w.fs.write fd bytes } st fd := fun _ =>
          ⟨hused, hclear, hpart, hdest, hmd5⟩
        have hfd' : ∀ fd', st.fd = some fd' → fd = fd' := fun fd' h =>
          Option.some.inj (hfd.symm.trans h)
        cases @pwrite_cases env fd offset data w with
        | inl h =>
            obtain ⟨part, -, -, h⟩ := h
            have hwrite : onSystem ((files env).pwrite fd offset data) (w, st) =
                (.ok (.ok part.length), ({ w with
                  fs := w.fs.write fd (World.written (w.fs.data fd) offset part) }, st)) := by
              simp only [onSystem, Action.zoom_apply, h]
            rw [World.backend_files, bind_ok hwrite]
            dsimp only
            split
            · refine ⟨writeFile_quiet hclear _, fun fd' h => ?_⟩
              obtain rfl := hfd' fd' h
              exact hsame _
            · split
              · refine ⟨writeFile_quiet hclear _, fun fd' h => ?_⟩
                obtain rfl := hfd' fd' h
                exact ⟨hused, hclear, hpart, hdest, hmd5⟩
              · refine ⟨writeFile_quiet hclear _, fun fd' h => ?_⟩
                obtain rfl := hfd' fd' h
                exact hsame _
        | inr h =>
            obtain ⟨e, h⟩ := h
            have hwrite : onSystem ((files env).pwrite fd offset data) (w, st) =
                (.ok (.error e), (w, st)) := by
              simp only [onSystem, Action.zoom_apply, h]
            rw [World.backend_files, bind_ok hwrite]
            exact ⟨Quiet.refl w, hopen⟩

/-! ## The end of an upload -/

/-- What only takes entries of the tree away. -/
abbrev Shed (w w' : World) : Prop := Sheds w.fs w'.fs

theorem Shed.trans (w w' w'' : World) (h : Shed w w') (h' : Shed w' w'') : Shed w w'' :=
  Sheds.trans h h'

theorem reads_shed {α : Type} {a : Act World α} (h : Reads a) : Moves Shed a := by
  intro w
  rw [h w]
  exact Sheds.refl w.fs

theorem unlink_shed (s : Bytes) : Moves Shed ((files env).unlink s) := by
  intro w
  simp only [files, World.fileCall, Action.move_apply]
  split
  next t h => exact unlink_sheds h
  · exact Sheds.refl w.fs

/-- The tree stays as it is. -/
theorem change_shed {f : World → World} (h : ∀ w, (f w).fs = w.fs) :
    Moves Shed (Action.change f : Act World Unit) := by
  intro w
  have hf : Sheds w.fs (f w).fs := by
    rw [h w]
    exact Sheds.refl w.fs
  exact hf

theorem collectObject_shed (md5 : Bytes) : Moves Shed (collectObject (backend env) md5) := by
  have hmeta : Moves Shed (deleteObjectMeta (redisCalls env) md5) := by
    intro w
    rw [deleteObjectMeta_eq]
    exact Sheds.refl w.fs
  refine Moves.bind Shed.trans (reads_shed (resolveObjectPath_reads md5)) fun obj => ?_
  refine Moves.bind Shed.trans (reads_shed (fileExists_reads obj)) fun there => ?_
  split
  · refine Moves.bind Shed.trans (reads_shed (fun _ => rfl)) fun _ => ?_
    exact Moves.bind Shed.trans (unlink_shed obj) fun _ => hmeta
  · exact hmeta

theorem releaseContentRef_shed (p : Bytes) :
    Moves Shed (releaseContentRef (backend env) u p) := by
  have hlast : Moves Shed (unindex (backend env) u p) := by
    intro w
    rw [unindex_eq]
    exact Sheds.refl w.fs
  refine Moves.bind Shed.trans (reads_shed (releasedMd5_reads p)) fun md5 => ?_
  dsimp only
  split
  · refine Moves.bind Shed.trans (fun w => ?_) fun refs => ?_
    · simp only [World.backend_redis]
      rw [removeRef_eq]
      exact Sheds.refl w.fs
    · split
      · exact Moves.bind Shed.trans (collectObject_shed md5) fun _ => hlast
      · exact hlast
  · exact hlast

/-- The part of `commitUpload` that makes the destination free. -/
theorem clearForCommit_steps {dest : Path} (hdest : UserPath env dest) (p : Bytes)
    {β : Type} {k : Act World β} {free : Prop} {w : World} (hw : Sound env w)
    (hk : ∀ w', StoreOps env u w w' → Shed w w' → UploadOps env free u w' (k w').2) :
    UploadOps env free u w ((do
      match ← lookupPlainFile (backend env) u p with
      | some _ => releaseContentRef (backend env) u p
      | none =>
        if ← fileExists (files env) (render dest) then
          let _ ← (files env).unlink (render dest)
      k) w).2 := by
  have hrelease := @releaseContentRef_follows env u p w hw
  have hshed := @releaseContentRef_shed env u p w
  have hunlink := quiet_follows (u := u) (unlink_quiet (clear_user hdest)) w hw
  have hshed' := @unlink_shed env (render dest) w
  have hthen : ∀ {α : Type} {a : Act World α}, StoreOps env u w (a w).2 → Shed w (a w).2 →
      UploadOps env free u w ((a >>= fun _ => k) w).2 := by
    intro α a ha hs
    refine bind_at (R := UploadOps env free u) (fun _ _ _ => Relation.ReflTransGen.trans)
      ha.uploadOps fun x w' hx => ?_
    rw [hx] at ha hs
    exact hk w' ha hs
  refine read_bind (R := UploadOps env free u) Relation.ReflTransGen.refl
    (lookupPlainFile_reads p w) fun row _ => ?_
  cases row with
  | some r => exact hthen hrelease hshed
  | none =>
      refine read_bind (R := UploadOps env free u) Relation.ReflTransGen.refl
        (fileExists_reads _ w) fun there _ => ?_
      split
      · exact hthen hunlink hshed'
      · exact hk w Relation.ReflTransGen.refl (Sheds.refl w.fs)

/-- What the checks of `commitUpload` have found: the part file, with its bytes. -/
theorem commit_source {st : UploadSession} {fd : ℕ} {w : World} (hw : Sound env w)
    (hopen : OpenUpload env w st fd)
    (hsize : fileSize (files env) st.partPath w = (.ok st.totalSize, w))
    (hmd5 : md5File (backend env) st.partPath w = (.ok st.md5, w)) :
    ∃ p x, Hex32 st.md5 ∧ st.partPath = render p ∧ w.fs.fileAt p = some x ∧
      Source env w p st.md5 st.totalSize := by
  have hhex : Hex32 st.md5 := by
    obtain ⟨r, w₁, h₁, h⟩ := Action.bind_eq_ok hmd5
    cases r with
    | error e => simp at h
    | ok handle =>
        obtain ⟨bytes, w₂, h₂, h⟩ := Action.bind_eq_ok h
        simp only [Action.pure_apply, Prod.mk.injEq, Except.ok.injEq] at h
        rw [← h.1]
        exact env.md5_hex bytes
  obtain ⟨username, hname, hpart⟩ := hopen.part
  obtain ⟨dest, hdest, hdesteq⟩ := hopen.dest
  have hzero : 0 ∉ baseName st.destPath := by
    rw [hdesteq]
    exact zero_not_mem_baseName (zero_not_mem_render hdest.plain)
  have hplain := partPath_plain env hname hhex hzero
  have hplace := partPath_mem env username st.md5 st.destPath
  have hnodir := hw.parts _ hplace
  rw [partText_eq env hname hhex hzero] at hpart
  refine ⟨partPath env username st.md5 st.destPath, ?_⟩
  rw [hpart] at hsize hmd5
  -- both checks see the file at the place of the part file
  obtain ⟨r, w₁, h₁, h⟩ := Action.bind_eq_ok hmd5
  simp only [World.backend_files, files, Action.look_apply, Prod.mk.injEq, Except.ok.injEq] at h₁
  obtain ⟨hread, rfl⟩ := h₁
  unfold openRead Library.Posix.stat at hread
  simp only [fileSize, files, bind_apply, Action.look_apply, Library.Posix.stat] at hsize
  cases hnode : node w.fs true (render (partPath env username st.md5 st.destPath)) with
  | error e =>
      simp only [hnode, Except.map] at hread
      subst hread
      simp at h
  | ok qx =>
      obtain ⟨q, x⟩ := qx
      obtain ⟨hloc, he⟩ := node_ok hnode
      obtain rfl := locate_plain hw.links hplain hloc
      simp only [hnode, Except.map] at hread hsize
      cases x with
      | dir => exact absurd he hnodir
      | link g => exact absurd he (hw.links _ g)
      | special k =>
          subst hread
          simp at h
      | file i =>
          subst hread
          simp only [World.fileStat, Library.Posix.sizeOf, Action.pure_apply, Prod.mk.injEq, Except.ok.injEq,
            and_true] at hsize
          simp only [World.backend_files, files, World.backend_md5Hex, bind_apply, Action.look_apply,
            Action.pure_apply, Prod.mk.injEq, Except.ok.injEq, and_true] at h
          have hfile : w.fs.fileAt (partPath env username st.md5 st.destPath) =
              some (w.fs.data i) := by
            simp [FileTree.fileAt, he]
          refine ⟨_, hhex, hpart, hfile, hplain, hnodir, hplace, fun y hy => ?_⟩
          rw [hfile, Option.some.injEq] at hy
          exact hy ▸ ⟨h, hsize⟩

/-- Where objects stand is room for objects. -/
theorem Sound.writable {w : World} (hw : Sound env w) {m : Bytes} (hm : Hex32 m) :
    Writable env w.fs m := by
  intro x hx
  obtain ⟨i, hi, -⟩ := hw.objects m hm x hx
  exact ⟨i, hi⟩

/-- Without collisions, what stands under the md5 of an upload has the same bytes. -/
theorem object_of_source {w : World} (hw : Sound env w) (hfree : World.CollisionFree env w)
    {p : Path} {x m : Bytes} {size : ℕ} (hm : Hex32 m) (hx : w.fs.fileAt p = some x)
    (hsource : Source env w p m size) {i : ℕ}
    (hi : w.fs.entry (objectPath env m) = some (.file i)) : w.fs.data i = x := by
  obtain ⟨j, hj, hdata⟩ := hw.objects m hm _ hi
  rw [Library.Node.file.injEq] at hj
  subst hj
  have hobj : w.fs.fileAt (objectPath env m) = some (w.fs.data i) := by
    simp [FileTree.fileAt, hi]
  exact hfree _ _ _ _ hobj hx (hdata.trans (hsource.bytes x hx).1.symm)

variable (env) in
/-- An object of another size than the upload stands under its md5 only if md5 is not free of
collisions. -/
def SizedUnless (free : Prop) (w : World) (m : Bytes) (size : ℕ) : Prop :=
  ∀ i, w.fs.entry (objectPath env m) = some (.file i) → (w.fs.data i).length ≠ size → ¬ free

/-- `publishObject`, for the bytes of a part file. -/
theorem publishObject_uploads {free : Prop} {w : World} (hw : Sound env w) {p : Path} {m : Bytes}
    {size : ℕ} (hm : Hex32 m) (hsource : Source env w p m size)
    (hsized : SizedUnless env free w m size) :
    UploadOps env free u w (publishObject (backend env) m (render p) size w).2 := by
  by_cases hthere : ∃ i, w.fs.entry (objectPath env m) = some (.file i) ∧ (w.fs.data i).length = size
  · obtain ⟨i, hi, hlen⟩ := hthere
    have hpub := publishObject_present hw.links hm hi (render p)
    rw [hlen] at hpub
    rw [hpub]
    exact Relation.ReflTransGen.single (UploadOp.op (StoreOp.idle (IdleOp.note w m hm size)))
  · have hother : ∀ i, w.fs.entry (objectPath env m) = some (.file i) → (w.fs.data i).length ≠ size :=
      fun i hi hlen => hthere ⟨i, hi, hlen⟩
    cases publishObject_copies hw.links hm hsource (hw.writable hm) hother with
    | inl h =>
        obtain ⟨t, i, j, x, hpub, hx, hcalm, hj, hrecycles, hdata, -⟩ := h
        have hdigest : env.md5Hex (t.data j) = m := by rw [hdata, (hsource.bytes x hx).1]
        rw [hpub]
        refine Relation.ReflTransGen.trans (b := { w with fs := t })
          (Relation.ReflTransGen.single ?_)
          (Relation.ReflTransGen.single (UploadOp.op (StoreOp.idle (IdleOp.note _ m hm size))))
        cases hrecycles with
        | inl hold =>
            exact UploadOp.replace w m hm (hsized j hold (hother j hold)) hcalm
              (Or.inr ⟨j, hj, hold, hdigest⟩)
        | inr hnew =>
            exact UploadOp.op (StoreOp.publish w m hm hcalm hnew.1 ⟨j, hj, hnew.2, hdigest⟩)
    | inr h =>
        obtain ⟨e, t, hpub, hcalm, -⟩ := h
        rw [hpub]
        refine Relation.ReflTransGen.single ?_
        cases hcalm with
        | inl hcalm => exact UploadOp.op (StoreOp.idle (IdleOp.tree w hcalm))
        | inr hgone =>
            cases he : w.fs.entry (objectPath env m) with
            | none =>
                exact UploadOp.op (StoreOp.idle (IdleOp.tree w (calm_absent hgone.1 he hgone.2)))
            | some x =>
                obtain ⟨i, rfl⟩ := hw.writable hm x he
                exact UploadOp.replace w m hm (hsized i he (hother i he)) hgone.1 (Or.inl hgone.2)

/-- After files were removed, a source is still one, and what stands under its md5 is still
sized. -/
theorem Source.shed {free : Prop} {w w' : World} {p : Path} {m : Bytes} {size : ℕ}
    (h : Source env w p m size) (hshed : Shed w w') (hsized : SizedUnless env free w m size) :
    Source env w' p m size ∧ SizedUnless env free w' m size := by
  constructor
  · refine h.fewer hshed.fewer fun hd => ?_
    cases hshed.entry p with
    | inl h => rwa [h] at hd
    | inr h => simp [h] at hd
  · intro i hi hlen
    cases hshed.entry (objectPath env m) with
    | inr h => simp [h] at hi
    | inl h =>
        rw [h] at hi
        rw [hshed.data] at hlen
        exact hsized i hi hlen

/-- Under its md5 stands nothing of another size than the upload, unless md5 collides. -/
theorem sized_of_source {w : World} (hw : Sound env w) {p : Path} {x m : Bytes} {size : ℕ}
    (hm : Hex32 m) (hx : w.fs.fileAt p = some x) (hsource : Source env w p m size) :
    SizedUnless env (World.CollisionFree env w) w m size := by
  intro i hi hlen hfree
  rw [object_of_source hw hfree hm hx hsource hi] at hlen
  exact hlen (hsource.bytes x hx).2

/-- With an open descriptor, `finishUpload` closes it and commits. -/
theorem finishUpload_open {σ : Type} {b : Backend σ} {session : UserSession} {st : UploadSession}
    {fd : ℕ} (hfd : st.fd = some fd) (s : σ) :
    finishUpload b session (s, st) =
      ((commitUpload b session st s).1, (commitUpload b session st s).2, { st with fd := none }) := by
  have hset : (setSession fun st => { st with fd := none } : Act (σ × UploadSession) Unit)
      (s, st) = (.ok (), (s, { st with fd := none })) := rfl
  unfold finishUpload
  rw [Action.bind_ok (Action.look_apply Prod.snd (s, st))]
  simp only [hfd]
  rw [Action.bind_ok hset]
  rfl

/-- **The commit of an upload.** -/
theorem commitUpload_uploads {session : UserSession} {st : UploadSession} {fd : ℕ} {w : World}
    (hopen : OpenUpload env w st fd) (hw : Sound env w) :
    UploadOps env (World.CollisionFree env w) session.userId w
      (commitUpload (backend env) session st w).2 := by
  obtain ⟨dest, hdest, hdesteq⟩ := hopen.dest
  obtain ⟨username, hname, hpart⟩ := hopen.part
  have hzero : 0 ∉ baseName st.destPath := by
    rw [hdesteq]
    exact zero_not_mem_baseName (zero_not_mem_render hdest.plain)
  have hunlink : Moves (Follows env session.userId) ((files env).unlink st.partPath) := by
    rw [hpart]
    exact quiet_follows (unlink_quiet (clear_part hname hopen.md5 hzero))
  have htrans : ∀ w₁ w₂ w₃ : World,
      UploadOps env (World.CollisionFree env w) session.userId w₁ w₂ →
      UploadOps env (World.CollisionFree env w) session.userId w₂ w₃ →
      UploadOps env (World.CollisionFree env w) session.userId w₁ w₃ :=
    fun _ _ _ => Relation.ReflTransGen.trans
  unfold commitUpload
  simp only [World.backend_files]
  refine read_bind (R := UploadOps env _ session.userId) Relation.ReflTransGen.refl
    (fileSize_reads _ w) fun size hsize => ?_
  split
  · exact Relation.ReflTransGen.refl
  next hsizeeq =>
    have hsizeeq : size = st.totalSize := not_not.mp hsizeeq
    subst hsizeeq
    refine read_bind (R := UploadOps env _ session.userId) Relation.ReflTransGen.refl
      (md5File_reads _ w) fun md5 hmd5 => ?_
    split
    · refine StoreOps.uploadOps ?_
      exact Moves.bind Follows.trans hunlink (fun _ => Moves.of_throw Follows.refl _) w hw
    next hmd5eq =>
      have hmd5eq : md5 = st.md5 := not_not.mp hmd5eq
      subst hmd5eq
      obtain ⟨p, x, hhex, hp, hx, hsource⟩ := commit_source hw hopen hsize hmd5
      have hsized := sized_of_source hw hhex hx hsource
      have hsteps := @clearForCommit_steps env session.userId _ hdest st.virtualPath Unit (do
        publishObject (backend env) st.md5 st.partPath st.totalSize
        let _ ← (files env).unlink st.partPath
        addContentRef (backend env) session.userId st.virtualPath st.md5 st.totalSize)
        (World.CollisionFree env w) w hw fun w' hops hshed => ?_
      · rw [hdesteq]
        exact hsteps
      · have hw' := hops.sound hw
        obtain ⟨hsource', hsized'⟩ := hsource.shed hshed hsized
        refine bind_at (R := UploadOps env _ session.userId) htrans ?_ fun _ w'' hpub => ?_
        · rw [hp]
          exact publishObject_uploads hw' hhex hsource' hsized'
        · have hw'' : Sound env w'' := by
            have hops' := publishObject_uploads (u := session.userId) hw' hhex hsource' hsized'
            rw [← hp, hpub] at hops'
            exact hops'.sound hw'
          refine StoreOps.uploadOps ?_
          refine Moves.bind Follows.trans hunlink (fun _ => ?_) w'' hw''
          exact addContentRef_follows (fun _ => short_of_length _ (Or.inr hhex.1)) _ _

end CloudStore.Interface
