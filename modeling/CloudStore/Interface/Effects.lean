import CloudStore.Interface.ServiceViews

/-!
# What a call does to the content store

`Effect` lists the stores that a call can lead to, and `call_effect` says that every call
leads to one of these. `run_view` is the induction over the runs of the server that an
invariant of the content store needs: one case for each effect.
-/

set_option autoImplicit false

namespace CloudStore.Interface

open CloudStore.Library (Bytes FileTree RefStore Action)
open CloudStore.Library.Action (bind_ok)
open CloudStore.Library.Posix
open CloudStore.Model
open CloudStore.Model.TransferService
open CloudStore.Model.World (objectPath files backend)

variable {env : Env} {w : World}

variable (env) in
/-- The stores that a call can lead to, from the world `w` of its record. -/
inductive Effect (w : World) (c : Connection) :
    Call → RefStore (ℤ × Bytes) Bytes Bytes Bytes → Prop
  /-- The records are left alone. -/
  | same (call : Call) : Effect w c call (view env w)
  /-- A directory is indexed. -/
  | mkdir (u : ℤ) (p status : Bytes) :
      Effect w c (.indexFile u p [] 0 true status) ((view env w).mkdir (u, p))
  /-- A path is removed. -/
  | remove (session : UserSession) (physical p : Bytes) :
      Effect w c (.removeUserPath session physical p)
        ((view env w).detach (scheme env) (session.userId, p))
  /-- The files below a directory are removed. -/
  | removeBelow (session : UserSession) (physical p : Bytes)
      (hrow : ∀ d n, (view env w).row (session.userId, p) ≠ some (.file d n))
      (hdir : Library.Posix.lstat w.fs physical = .ok .dir) :
      Effect w c (.removeUserPath session physical p)
        ((view env w).detachAll (scheme env) (filesBelow env w session.userId p))
  /-- A directory is removed with the files below it. -/
  | removeDir (session : UserSession) (physical p : Bytes)
      (hrow : ∀ d n, (view env w).row (session.userId, p) ≠ some (.file d n))
      (hdir : Library.Posix.lstat w.fs physical = .ok .dir) :
      Effect w c (.removeUserPath session physical p)
        (((view env w).detachAll (scheme env) (filesBelow env w session.userId p)).clear
          (scheme env) (session.userId, p))
  /-- A file is renamed. -/
  | moveFile (session : UserSession) (source p dest q : Bytes) {d : Bytes} {n : ℕ}
      (hrow : (view env w).row (session.userId, p) = some (.file d n)) :
      Effect w c (.renameUserPath session source p dest q)
        ((view env w).moveFile (scheme env) (session.userId, p) (session.userId, q) d n)
  /-- Something else is renamed. -/
  | moveOther (session : UserSession) (source p dest q : Bytes) (n : ℕ)
      (hrow : ∀ d n, (view env w).row (session.userId, p) ≠ some (.file d n))
      (hmove : (FileManager.renamePath (files env) source dest w).1 = .ok ()) :
      Effect w c (.renameUserPath session source p dest q)
        ((view env w).moveOther (scheme env) (session.userId, p) (session.userId, q) n)
  /-- A path is attached to an object that was proved; a file that was there is detached. -/
  | instant (session : UserSession) (dest p md5 : Bytes) (size offset : ℕ) (proof : Bytes)
      (overwrite : Bool) {s₁ : RefStore (ℤ × Bytes) Bytes Bytes Bytes}
      (hproof : (checkProof (backend env) session md5 size offset proof w).1 = .ok ())
      (hobj : Hex32 md5 → ∃ x, (view env w).object md5 = some x ∧ x.length = size)
      (hcleared : overwrite = true ∧
          (∃ d n, (view env w).row (session.userId, p) = some (.file d n)) ∧
            s₁ = (view env w).detach (scheme env) (session.userId, p) ∨
          (∀ d n, (view env w).row (session.userId, p) ≠ some (.file d n)) ∧
            s₁ = view env w) :
      Effect w c (.instantUpload session dest p md5 size offset proof overwrite)
        (s₁.attach (scheme env) (session.userId, p) md5 size)
  /-- The file at the path of an upload is detached. -/
  | clearUpload (session : UserSession) (hopen : c.upload.fd ≠ none)
      (hrow : ∃ d n, (view env w).row (session.userId, c.upload.virtualPath) = some (.file d n)) :
      Effect w c (.finishUpload session)
        ((view env w).detach (scheme env) (session.userId, c.upload.virtualPath))
  /-- A path is attached to the bytes of an upload; a file that was there is detached. -/
  | finish (session : UserSession) (hopen : c.upload.fd ≠ none) {x : Bytes}
      {s₁ : RefStore (ℤ × Bytes) Bytes Bytes Bytes}
      (hcleared : (∃ d n, (view env w).row (session.userId, c.upload.virtualPath) =
              some (.file d n)) ∧
            s₁ = (view env w).detach (scheme env) (session.userId, c.upload.virtualPath) ∨
          (∀ d n, (view env w).row (session.userId, c.upload.virtualPath) ≠ some (.file d n)) ∧
            s₁ = view env w)
      (hhex : Hex32 c.upload.md5) (hdigest : env.md5Hex x = c.upload.md5)
      (hlen : x.length = c.upload.totalSize)
      (hsame : World.CollisionFree env w → ∀ y, s₁.object c.upload.md5 = some y → y = x) :
      Effect w c (.finishUpload session)
        ((s₁.publish c.upload.md5 x).attach (scheme env) (session.userId, c.upload.virtualPath)
          c.upload.md5 c.upload.totalSize)

  /-- Where md5 collides, an object gets lost on the way. -/
  | lose (session : UserSession) (hopen : c.upload.fd ≠ none)
      (hcollide : ¬ World.CollisionFree env w) {s₁ : RefStore (ℤ × Bytes) Bytes Bytes Bytes}
      (hcleared : (∃ d n, (view env w).row (session.userId, c.upload.virtualPath) =
              some (.file d n)) ∧
            s₁ = (view env w).detach (scheme env) (session.userId, c.upload.virtualPath) ∨
          (∀ d n, (view env w).row (session.userId, c.upload.virtualPath) ≠ some (.file d n)) ∧
            s₁ = view env w) :
      Effect w c (.finishUpload session) (s₁.lose c.upload.md5)

/-- **Every call that is issued has one of the effects.** -/
theorem call_effect (hexact : env.dialect = Dialect.exact) {c : Connection} {call : Call}
    (hw : Sound env w) (hc : ConnOk env w c) (hissued : Issued env w c call) :
    Effect env w c call (view env (runCall env w c call).1) := by
  have hidle : ∀ {call : Call}, IdleOps env w (runCall env w c call).1 →
      Effect env w c call (view env (runCall env w c call).1) := by
    intro call h
    rw [view_idles h]
    exact Effect.same call
  have hread : ∀ {call : Call}, (runCall env w c call).1 = w →
      Effect env w c call (view env (runCall env w c call).1) := by
    intro call h
    rw [h]
    exact Effect.same call
  have haccount : ∀ {call : Call}, AccountOps env w (runCall env w c call).1 →
      Effect env w c call (view env (runCall env w c call).1) := by
    intro call h
    rw [view_accounts h]
    exact Effect.same call
  cases hissued with
  | registerUser username password =>
      exact haccount (by simp only [runCall, settle_fst]; exact registerUser_ops _ _ hw)
  | login username password =>
      exact haccount (by simp only [runCall, settle_fst]; exact login_ops _ _ _ hw)
  | checkToken token hclosed =>
      exact haccount (by simp only [runCall, settle_fst]; exact checkToken_ops _ hw)
  | logout hauthed => exact haccount (by simp only [runCall, settle_fst]; exact logout_ops _ w)
  | listDir recursive h =>
      exact hread (by simp only [runCall, settle_fst]; exact listDir_reads _ _ w)
  | statPath h => exact hread (by simp only [runCall, settle_fst]; exact statPath_reads _ w)
  | makeDir h =>
      obtain ⟨p, hp, rfl⟩ := h.userPath hw hc
      exact hidle (by simp only [runCall, settle_fst]; exact quiet_idles (makeDir_quiet hp) w hw)
  | @indexFile path norm hauthed hnorm =>
      obtain ⟨w', hindex, -, hview⟩ := indexFile_view hexact (u := c.session.userId) (w := w)
        (str "/" ++ norm) [] 0 true (str "ready")
      simp only [runCall, settle_fst, hindex, hview, if_true]
      exact Effect.mkdir _ _ _
  | lookupFile virtualPath hauthed => exact hread rfl
  | listIndexed dir hauthed => exact hread rfl
  | removeUserPath hnorm hne h =>
      obtain ⟨p, hp, rfl⟩ := h.userPath hw hc
      simp only [runCall, settle_fst]
      rcases @removeUserPath_view env _ hexact c.session _ hp hw _ with h | h | ⟨hrow, hdir, h⟩
      · rw [h]
        exact Effect.remove _ _ _
      · rw [h]
        exact Effect.same _
      · obtain ⟨s₁, rfl, h | h⟩ := h
        · rw [h]
          exact Effect.removeBelow _ _ _ hrow hdir
        · rw [h]
          exact Effect.removeDir _ _ _ hrow hdir
  | @renameUserPath source dest fromNorm toNorm fromPhysical toPhysical hfrom hto hsource hdest =>
      obtain ⟨p, hp, rfl⟩ := hsource.userPath hw hc
      obtain ⟨q, hq, rfl⟩ := hdest.userPath hw hc
      simp only [runCall, settle_fst]
      unfold renameUserPath
      rw [bind_ok (lookupPlainFile_eq _ w)]
      cases hrow : (w.rows.find? (World.isRow env c.session.userId (str "/" ++ fromNorm))).filter
          fun r => !r.isDir with
      | some r =>
          obtain ⟨w', hren, hview⟩ := renameIndexedFile_view hexact (u := c.session.userId) (w := w)
            (str "/" ++ fromNorm) (str "/" ++ toNorm) r.md5 r.size
          simp only [hren, hview]
          exact Effect.moveFile _ _ _ _ _ (lookup_some hexact hrow).1
      | none =>
          dsimp only
          rcases renamePhysical_view hexact (u := c.session.userId) hp hq hw
            (str "/" ++ fromNorm) (str "/" ++ toNorm) with h | h
          · obtain ⟨w₁, w', n, hmove, hren, hview⟩ := h
            rw [hren, hview]
            exact Effect.moveOther _ _ _ _ _ n (lookup_none hrow) (by rw [hmove])
          · obtain ⟨e, w', hren, hview⟩ := h
            rw [hren, hview]
            exact Effect.same _
  | queryInstant md5 size hauthed =>
      exact hidle (by
        simp only [runCall, settle_fst]
        exact queryInstant_idles (hc.token hauthed) _ _ w hw)
  | instantUpload md5 size proofOffset proofMd5 overwrite hnorm h =>
      obtain ⟨p, hp, rfl⟩ := h.userPath hw hc
      simp only [runCall, settle_fst]
      rcases @instantUpload_view env _ hexact c.session _ hp hw _ md5 size proofOffset proofMd5
        overwrite with h | ⟨hproof, hobj, s₁, w', hrun, hview, hcleared⟩
      · obtain ⟨e, w', hrun, hview⟩ := h
        rw [hrun, hview]
        exact Effect.same _
      · rw [hrun, hview]
        exact Effect.instant _ _ _ _ _ _ _ _ hproof hobj hcleared
  | closeUpload hauthed => exact hread rfl
  | beginUpload md5 size hnorm h =>
      obtain ⟨p, hp, rfl⟩ := h.userPath hw hc
      exact hidle (by
        simp only [runCall, settle_fst]
        exact beginUpload_idles (hc.session h.1).name hp _ _ _ w hw)
  | writeChunk offset data hauthed hopen =>
      exact hidle ((writeChunk_quiet offset data hc.upload).1.idles hw)
  | finishUpload hauthed =>
      cases hfd : c.upload.fd with
      | none =>
          simp only [runCall, TransferService.finishUpload]
          rw [bind_ok (Action.look_apply Prod.snd (w, c.upload))]
          simp only [hfd, fail, Action.throw_apply]
          exact Effect.same _
      | some fd =>
          have hopen : c.upload.fd ≠ none := by simp [hfd]
          simp only [runCall, finishUpload_open hfd]
          rcases @commitUpload_view env _ hexact c.session _ _ hw (hc.upload fd hfd) with
            h | ⟨s₁, hcleared, h | h⟩
          · obtain ⟨e, w', hrun, hview⟩ := h
            simp only [hrun, hview]
            exact Effect.same _
          · obtain ⟨e, w', hrun, hview⟩ := h
            simp only [hrun]
            rcases hview with hview | ⟨hcollide, hview⟩
            · rw [hview]
              rcases hcleared with ⟨hrow, rfl⟩ | ⟨-, rfl⟩
              · exact Effect.clearUpload _ hopen hrow
              · exact Effect.same _
            · rw [hview]
              exact Effect.lose _ hopen hcollide hcleared
          · obtain ⟨w', x, hrun, hhex, hdigest, hlen, hsame, hview⟩ := h
            simp only [hrun, hview]
            exact Effect.finish _ hopen hcleared hhex hdigest hlen hsame
  | closeDownload hauthed => exact hread rfl
  | beginDownload hnorm h =>
      exact hidle (by simp only [runCall, settle_fst]; exact beginDownload_idles _ _ w hw)
  | readChunk offset len hauthed hopen =>
      exact hread (by simp only [runCall, settle_fst]; exact readChunk_reads _ _ _ w)

/-! ## Runs -/

/-- The view of an empty store is empty. -/
theorem view_empty (h : World.Empty env w) : view env w = RefStore.empty (scheme env) := by
  refine RefStore.ext ?_ ?_ ?_ (funext fun m => ?_)
  · simp [view, h.rows, RefStore.empty]
  · simp [view, h.redis, RefStore.empty, scheme]
  · simp [view, h.redis, RefStore.empty]
  · simp only [view, RefStore.empty]
    split
    next hm =>
      cases he : w.fs.entry (objectPath env m) with
      | none => simp [World.object, FileTree.fileAt, he]
      | some x =>
          have hdir := (empty_sound h).objects m hm x he
          exfalso
          have hpath : objectPath env m = World.objectsDir env ++ [m.take 2] ++ [m] := by
            simp [objectPath]
          have hbelow := w.fs.closed (World.objectsDir env ++ [m.take 2]) m
            (by rw [← hpath, he]; simp)
          rw [h.empty_dirs (World.objectsDir env) (by simp) (m.take 2)] at hbelow
          simp at hbelow
    · rfl

variable (env) in
/-- Every call of an event avoids `bad`. -/
def Avoids (bad : World → Connection → Call → Prop) (s : ServerState) (e : Event) : Prop :=
  ∀ r ∈ (Server.step env s e).2.calls, ¬ bad r.sys r.conn r.call

/-- **The induction over runs for the content store.** What the empty store has and every
effect keeps that avoids `bad`, every run has whose calls avoid `bad`. -/
theorem run_view (hexact : env.dialect = Dialect.exact) {bad : World → Connection → Call → Prop}
    {I : RefStore (ℤ × Bytes) Bytes Bytes Bytes → Prop} (hempty : I (RefStore.empty (scheme env)))
    (hstep : ∀ w c call s', Sound env w → I (view env w) → Effect env w c call s' →
      ¬ bad w c call → I s')
    {hist : List (Library.Machine.Record ServerState Event Output)} {s : ServerState}
    (run : (Server.machine env).Run (Server.Start env) (Avoids env bad) hist s) :
    Safe env s ∧ I (view env s.world) := by
  refine run.invariant (I := fun s => Safe env s ∧ I (view env s.world))
    (fun s h => ⟨start_safe h, by rw [view_empty h.1]; exact hempty⟩) ?_
  rintro s e ⟨hsafe, hI⟩ hbad
  refine ⟨step_safe hsafe e, ?_⟩
  simp only [Server.machine]
  cases e with
  | connect id ip =>
      unfold Server.step
      dsimp only
      cases s.conns id <;> exact hI
  | close id => exact hI
  | expire key =>
      have hsame : view env (Server.step env s (.expire key)).1.world = view env s.world :=
        view_expireKey key
      rwa [hsame]
  | disk d => exact hI
  | frame id f =>
      unfold Avoids at hbad
      unfold Server.step at hbad ⊢
      dsimp only at hbad ⊢
      cases hid : s.conns id with
      | none => exact hI
      | some c =>
          simp only [hid] at hbad
          have key := (onFrame_calls f s.world c).keep
            (P := fun w' c' => Sound env w' ∧ ConnOk env w' c' ∧ I (view env w'))
            (Q := fun r => ¬ bad r.sys r.conn r.call)
            ⟨hsafe.world, hsafe.conns id c hid, hI⟩ hbad ?_
          · exact key.2.2
          · rintro w₁ c₁ call ⟨hw₁, hc₁, hI₁⟩ hissued hbad₁
            exact ⟨(call_operates hw₁ hc₁ hissued).sound hw₁, call_connOk hw₁ hc₁ hissued,
              hstep w₁ c₁ call _ hw₁ hI₁ (call_effect hexact hw₁ hc₁ hissued) hbad₁⟩

end CloudStore.Interface
