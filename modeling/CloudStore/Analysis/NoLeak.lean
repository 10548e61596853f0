import CloudStore.Interface.Playback

/-!
# No leaked reference or object

Every member of a reference set stands for a file of the index with that md5, and every
object is referred to; so without files there are no objects. A call leaks a reference if
it writes over a counted file without releasing it, if it renames a file to itself, or if
it releases a file of the empty md5 that is counted. Every run that avoids these calls
leaks nothing.
-/

set_option autoImplicit false

namespace CloudStore.Analysis

open CloudStore.Library (Bytes RefStore)
open CloudStore.Model
open CloudStore.Model.RedisStore
open CloudStore.Model.World (files backend)
open CloudStore.Interface

variable (env : Env)

/-- Every reference is that of a file of the index, and every object has a reference. -/
structure NoLeak (w : World) : Prop where
  refs : ∀ m, ∀ x ∈ w.redis.sets (refsKey m), ∃ r ∈ w.rows,
    refMember r.userId r.virtualPath = x ∧ r.isDir = false ∧ r.md5 = m
  objects : ∀ m, Hex32 m → World.object env w m ≠ none → w.redis.sets (refsKey m) ≠ ∅

/-- There is a file of the index at a path that is among the references to its md5, which
is of a kind. -/
def Counted (w : World) (u : ℤ) (p : Bytes) (P : Bytes → Prop) : Prop :=
  FileAt w u p fun d => P d ∧ refMember u p ∈ w.redis.sets (refsKey d)

instance (w : World) (u : ℤ) (p : Bytes) (P : Bytes → Prop) [DecidablePred P] :
    Decidable (Counted w u p P) := inferInstanceAs (Decidable (FileAt _ _ _ _))

/-- The calls that leave a reference behind. -/
def Leaks (w : World) (c : Connection) : Call → Prop
  | .indexFile u p _ _ isDir _ => isDir = true ∧ Counted w u p fun _ => True
  | .removeUserPath session physical p =>
    Counted w session.userId p (fun d => d = []) ∨
      Library.Posix.lstat w.fs physical = .ok .dir ∧
        ∃ k ∈ filesBelow env w session.userId p, Counted w k.1 k.2 fun d => d = []
  | .renameUserPath session source p dest q =>
    (FileAt w session.userId p fun d => p = q ∨ Counted w session.userId q fun d' => d' ≠ d) ∨
      ¬ FileAt w session.userId p (fun _ => True) ∧
        (FileManager.renamePath (files env) source dest w).1 = .ok () ∧
        Counted w session.userId q fun d' => d' ≠ w.redis.strings (pathKey session.userId p)
  | .instantUpload session _ p md5 size offset proof overwrite =>
    overwrite = true ∧ Counted w session.userId p (fun d => d = []) ∧
      (TransferService.checkProof (backend env) session md5 size offset proof w).1 = .ok ()
  | .finishUpload session =>
    c.upload.fd ≠ none ∧ Counted w session.userId c.upload.virtualPath fun d => d = []
  | _ => False

instance (w : World) (c : Connection) (call : Call) : Decidable (Leaks env w c call) :=
  match call with
  | .indexFile .. => by dsimp only [Leaks]; infer_instance
  | .removeUserPath .. => by dsimp only [Leaks]; infer_instance
  | .renameUserPath .. => by dsimp only [Leaks]; infer_instance
  | .instantUpload .. => by dsimp only [Leaks]; infer_instance
  | .finishUpload .. => by dsimp only [Leaks]; infer_instance
  | .registerUser .. | .login .. | .checkToken .. | .logout .. | .listDir .. | .statPath .. |
    .makeDir .. | .lookupFile .. | .listIndexed .. | .queryInstant .. | .closeUpload |
    .beginUpload .. | .writeChunk .. | .closeDownload | .beginDownload .. | .readChunk .. =>
    inferInstanceAs (Decidable False)

variable {env} {w : World}

/-- What is exact in the view does not leak. -/
theorem noLeak_of_exact (hexact : env.dialect = Dialect.exact)
    (h : (view env w).Exact (scheme env)) : NoLeak env w where
  refs := by
    intro m x hx
    obtain ⟨k, n, rfl, hrow⟩ := h.1 m x hx
    obtain ⟨r, hr, hu, hp, hdir, hmd5, -⟩ := mem_of_row hexact hrow
    refine ⟨r, hr, ?_, hdir, hmd5⟩
    rw [hu, hp]
    rfl
  objects := by
    intro m hm hobj
    have hview : (view env w).object m ≠ none := by simpa only [view, if_pos hm] using hobj
    exact h.2.1 m hview

/-- Without files in the index there are no objects. -/
theorem NoLeak.empty (h : NoLeak env w) (hrows : ∀ r ∈ w.rows, r.isDir = true) {m : Bytes}
    (hm : Hex32 m) : World.object env w m = none := by
  by_contra hobj
  obtain ⟨x, hx⟩ := Finset.nonempty_iff_ne_empty.mpr (h.objects m hm hobj)
  obtain ⟨r, hr, -, hdir, -⟩ := h.refs m x hx
  rw [hrows r hr] at hdir
  exact absurd hdir (by decide)

section

variable (hexact : env.dialect = Dialect.exact) (hw : Sound env w)
include hexact hw

theorem counted_iff {u : ℤ} {p : Bytes} {P : Bytes → Prop} :
    Counted w u p P ↔ ∃ d n, (view env w).row (u, p) = some (.file d n) ∧ P d ∧
      (scheme env).ref (u, p) ∈ (view env w).refs d := by
  unfold Counted
  rw [fileAt_iff hexact hw]
  exact Iff.rfl

/-- **Every effect of a call that leaves no reference behind keeps the store exact.** -/
theorem effect_exact {c : Connection} {call : Call}
    {s' : RefStore (ℤ × Bytes) Bytes Bytes Bytes} (h : (view env w).Exact (scheme env))
    (heffect : Effect env w c call s') (hcall : ¬ Leaks env w c call) :
    s'.Exact (scheme env) := by
  -- the blank files that are released are not counted
  have hblank : ∀ {k : ℤ × Bytes}, ¬ Counted w k.1 k.2 (fun d => d = []) → ∀ n,
      (view env w).row k = some (.file (scheme env).blank n) →
        (scheme env).ref k ∉ (view env w).refs (scheme env).blank :=
    fun hk n hrow href => hk ((counted_iff hexact hw).mpr ⟨_, n, hrow, rfl, href⟩)
  have hgone : ∀ {k : ℤ × Bytes}, ∀ d n,
      ((view env w).detach (scheme env) k).row k ≠ some (.file d n) := by
    intro k d n
    simp [RefStore.detach_row]
  cases heffect with
  | same => exact h
  | mkdir u p status =>
      refine h.mkdir fun d n hrow href => hcall ⟨rfl, ?_⟩
      exact (counted_iff hexact hw).mpr ⟨d, n, hrow, trivial, href⟩
  | remove session physical p =>
      exact h.detach _ (hblank (k := (session.userId, p)) fun hk => hcall (Or.inl hk))
  | removeBelow session physical p hrow hdir =>
      exact h.detachAll _ fun k hk => hblank fun hc => hcall (Or.inr ⟨hdir, k, hk, hc⟩)
  | removeDir session physical p hrow hdir =>
      have hall := h.detachAll _ fun k hk => hblank fun hc => hcall (Or.inr ⟨hdir, k, hk, hc⟩)
      exact hall.clear (RefStore.detachAll_row _ hrow)
  | @moveFile session source p dest q d n hrow =>
      refine h.moveFile hrow ?_ fun d' n' hdest href => ?_
      · intro heq
        refine hcall (Or.inl ((fileAt_iff hexact hw).mpr ⟨d, n, hrow, Or.inl ?_⟩))
        exact (Prod.mk.inj heq).2
      · by_contra hne
        refine hcall (Or.inl ((fileAt_iff hexact hw).mpr ⟨d, n, hrow, Or.inr ?_⟩))
        exact (counted_iff hexact hw).mpr ⟨d', n', hdest, hne, href⟩
  | moveOther session source p dest q n hrow hmove =>
      refine h.moveOther hrow fun d n' hdest href => ?_
      by_contra hne
      refine hcall (Or.inr ⟨?_, hmove, (counted_iff hexact hw).mpr ⟨d, n', hdest, hne, href⟩⟩)
      rw [fileAt_iff hexact hw]
      rintro ⟨d', m, hd', -⟩
      exact hrow d' m hd'
  | instant session dest p md5 size offset proof overwrite hproof hobj hcleared =>
      rcases hcleared with ⟨hover, -, rfl⟩ | ⟨hnone, rfl⟩
      · refine RefStore.Exact.attach (h.detach _ ?_) hgone
        exact hblank (k := (session.userId, p)) fun hk => hcall ⟨hover, hk, hproof⟩
      · exact h.attach hnone
  | clearUpload session hopen hrow =>
      exact h.detach _ (hblank (k := (session.userId, c.upload.virtualPath))
        fun hk => hcall ⟨hopen, hk⟩)
  | @finish session hopen x s₁ hcleared hhex hdigest hlen hsame =>
      rcases hcleared with ⟨-, rfl⟩ | ⟨hnone, rfl⟩
      · refine RefStore.Exact.publish_attach (h.detach _ ?_) hgone
        exact hblank (k := (session.userId, c.upload.virtualPath)) fun hk => hcall ⟨hopen, hk⟩
      · exact h.publish_attach hnone
  | lose session hopen hcollide hcleared =>
      rcases hcleared with ⟨-, rfl⟩ | ⟨-, rfl⟩
      · refine RefStore.Exact.lose (h.detach _ ?_) _
        exact hblank (k := (session.userId, c.upload.virtualPath)) fun hk => hcall ⟨hopen, hk⟩
      · exact h.lose _

end

/-- **No leak.** In every run whose calls leave no reference behind, every reference is that
of a file of the index and every object has a reference; so once no files remain, no object
remains. -/
theorem no_leak (hexact : env.dialect = Dialect.exact)
    {hist : List (Library.Machine.Record ServerState Event Output)} {s : ServerState}
    (run : (Server.machine env).Run (Server.Start env) (Avoids env (Leaks env)) hist s) :
    NoLeak env s.world ∧
      ((∀ r ∈ s.world.rows, r.isDir = true) → ∀ m, Hex32 m → World.object env s.world m = none) := by
  have key := run_view (I := fun s => s.Exact (scheme env)) hexact RefStore.Exact.empty
    (fun w c call s' hw h heffect hcall => effect_exact hexact hw h heffect hcall) run
  have hleak := noLeak_of_exact hexact key.2
  exact ⟨hleak, fun hrows m hm => hleak.empty hrows hm⟩

/-- The run of an upload. -/
theorem no_leak_upload :
    NoLeak Sample.env (Sample.after (Sample.login ++ Sample.uploadEmpty "/a")).world :=
  (no_leak rfl (playback_run (by decide +kernel))).1

/-- A directory that is made over a file leaves the reference of the file behind. -/
theorem leak_mkdir : ∃ hist s,
    (Server.machine Sample.env).Run (Server.Start Sample.env) (fun _ _ => True) hist s ∧
      ¬ NoLeak Sample.env s.world ∧ (∀ r ∈ s.world.rows, r.isDir = true) ∧
      ∃ m, Hex32 m ∧ World.object Sample.env s.world m ≠ none := by
  let es := Sample.login ++ Sample.uploadEmpty "/a" ++
    [.frame 0 (request "mkdir" [("path", .str (str "/a"))])]
  have h : (Server.machine Sample.env).Allows (fun _ _ => True)
        (started Sample.env 4096 Sample.entropy) es ∧
      (∀ r ∈ (Sample.after es).world.rows, r.isDir = true) ∧ Hex32 (Sample.md5Hex []) ∧
        World.object Sample.env (Sample.after es).world (Sample.md5Hex []) ≠ none := by
    decide +kernel
  obtain ⟨hrun, hrows, hhex, hobj⟩ := h
  refine ⟨_, _, playback_run hrun, fun hleak => ?_, hrows, _, hhex, hobj⟩
  exact hobj (hleak.empty hrows hhex)

end CloudStore.Analysis
