import CloudStore.Interface.Playback

/-!
# Path keys and rows agree

A path key holds an md5 if and only if the index has a file with that md5 at the path, so
a download reads the object that a listing describes. A directory that is indexed over a
file, a file that is renamed to itself, and something else that is renamed over a file
break this. Every run that avoids these calls keeps it.
-/

set_option autoImplicit false

namespace CloudStore.Analysis

open CloudStore.Library (Bytes RefStore)
open CloudStore.Library.Action (bind_ok)
open CloudStore.Model
open CloudStore.Model.RedisStore
open CloudStore.Model.World (files backend)
open CloudStore.Interface

variable (env : Env)

/-- A path key holds an md5 exactly if the index has a file with that md5 there. -/
def Agree (w : World) : Prop :=
  ∀ u p m, m ≠ [] → (w.redis.strings (pathKey u p) = m ↔ FileAt w u p fun d => d = m)

/-- What a download reads of a path is what the index tells of it. -/
def DownloadsIndexed (w : World) : Prop :=
  ∀ u p, (∃ r, (TransferService.lookupPlainFile (backend env) u p w).1 = .ok (some r) ∧
      r.md5 ≠ [] ∧ (TransferService.downloadMd5 (backend env) u p w).1 = .ok r.md5) ∨
    ¬ FileAt w u p (fun d => d ≠ []) ∧
      (TransferService.downloadMd5 (backend env) u p w).1 =
        .error (.cloud .notFound (str "file not found"))

/-- The calls that write one of both stores only. -/
def Diverges (w : World) (_ : Connection) : Call → Prop
  | .indexFile u p _ _ isDir _ => isDir = true ∧ FileAt w u p fun d => d ≠ []
  | .renameUserPath session source p dest q =>
    p = q ∧ FileAt w session.userId p (fun d => d ≠ []) ∨
      ¬ FileAt w session.userId p (fun _ => True) ∧
        (FileManager.renamePath (files env) source dest w).1 = .ok () ∧
        FileAt w session.userId q fun d => d ≠ []
  | _ => False

instance (w : World) (c : Connection) (call : Call) : Decidable (Diverges env w c call) :=
  match call with
  | .indexFile .. => by dsimp only [Diverges]; infer_instance
  | .renameUserPath .. => by dsimp only [Diverges]; infer_instance
  | .registerUser .. | .login .. | .checkToken .. | .logout .. | .listDir .. | .statPath .. |
    .makeDir .. | .lookupFile .. | .listIndexed .. | .removeUserPath .. | .queryInstant .. |
    .instantUpload .. | .closeUpload | .beginUpload .. | .writeChunk .. | .finishUpload .. |
    .closeDownload | .beginDownload .. | .readChunk .. =>
    inferInstanceAs (Decidable False)

variable {env} {w : World}

section

variable (hexact : env.dialect = Dialect.exact) (hw : Sound env w)
include hexact hw

theorem agree_of_mirrored (h : (view env w).Mirrored (scheme env)) : Agree w := by
  intro u p m hm
  rw [fileAt_iff hexact hw]
  refine (h (u, p) m hm).trans ?_
  constructor
  · rintro ⟨n, hn⟩
    exact ⟨m, n, hn, rfl⟩
  · rintro ⟨d, n, hn, rfl⟩
    exact ⟨n, hn⟩

/-- Where keys and rows agree, a download reads what the index tells. -/
theorem downloadsIndexed_of_agree (h : Agree w) : DownloadsIndexed env w := by
  intro u p
  have hlookup := @lookupPlainFile_eq env u p w
  have hkey := @getPathMd5_eq env u p w
  rw [arg_exact hexact] at hkey
  cases hrow : (w.rows.find? (World.isRow env u p)).filter fun r => !r.isDir with
  | none =>
      have hnone : ∀ P : Bytes → Prop, ¬ FileAt w u p P := by
        intro P hfile
        obtain ⟨d, n, hd, -⟩ := (fileAt_iff hexact hw).mp hfile
        exact lookup_none hrow d n hd
      have hnil : w.redis.strings (pathKey u p) = [] := by
        by_contra hne
        exact hnone _ ((h u p _ hne).mp rfl)
      right
      refine ⟨hnone _, ?_⟩
      unfold TransferService.downloadMd5
      simp only [World.backend_redis]
      rw [bind_ok hkey, if_pos hnil, bind_ok hlookup, hrow]
      rfl
  | some r =>
      obtain ⟨hview, hr, hu, hp, hdir⟩ := lookup_some hexact hrow
      by_cases hmd5 : r.md5 = []
      · right
        have hnot : ∀ m, m ≠ [] → ¬ FileAt w u p fun d => d = m := by
          intro m hm hfile
          obtain ⟨d, n, hd, rfl⟩ := (fileAt_iff hexact hw).mp hfile
          rw [hview, Option.some.injEq, Library.Entry.file.injEq] at hd
          exact hm (hd.1 ▸ hmd5)
        have hnil : w.redis.strings (pathKey u p) = [] := by
          by_contra hne
          exact hnot _ hne ((h u p _ hne).mp rfl)
        refine ⟨?_, ?_⟩
        · rintro ⟨r', hr', hu', hp', hdir', hne⟩
          exact hnot _ hne ⟨r', hr', hu', hp', hdir', rfl⟩
        · unfold TransferService.downloadMd5
          simp only [World.backend_redis]
          rw [bind_ok hkey, if_pos hnil, bind_ok hlookup, hrow]
          simp [hmd5, fail]
      · left
        have hlink : w.redis.strings (pathKey u p) = r.md5 :=
          (h u p _ hmd5).mpr ⟨r, hr, hu, hp, hdir, rfl⟩
        refine ⟨r, by rw [hlookup, hrow], hmd5, ?_⟩
        unfold TransferService.downloadMd5
        simp only [World.backend_redis]
        rw [bind_ok hkey, hlink, if_neg hmd5]
        rfl

omit hw in
/-- Where no file is left in the index, a path key that is left is still read. -/
theorem stale_key {u : ℤ} {p : Bytes} (hkey : w.redis.strings (pathKey u p) ≠ [])
    (hrows : ∀ r ∈ w.rows, r.isDir = true) : ¬ Agree w ∧ ¬ DownloadsIndexed env w := by
  have hnot : ∀ P : Bytes → Prop, ¬ FileAt w u p P := by
    rintro P ⟨r, hr, -, -, hdir, -⟩
    rw [hrows r hr] at hdir
    exact absurd hdir (by decide)
  refine ⟨fun hagree => hnot _ ((hagree u p _ hkey).mp rfl), fun hdown => ?_⟩
  rcases hdown u p with ⟨r, hr, -, -⟩ | ⟨-, hfail⟩
  · rw [lookupPlainFile_eq, Except.ok.injEq] at hr
    obtain ⟨-, hr', hu, hp, hdir⟩ := lookup_some hexact hr
    exact hnot (fun _ => True) ⟨r, hr', hu, hp, hdir, trivial⟩
  · have hread := @getPathMd5_eq env u p w
    rw [arg_exact hexact] at hread
    unfold TransferService.downloadMd5 at hfail
    simp only [World.backend_redis] at hfail
    rw [bind_ok hread, if_neg hkey] at hfail
    simp at hfail

/-- **Every effect of a call that writes both stores keeps them in step.** -/
theorem effect_mirrored {c : Connection} {call : Call}
    {s' : RefStore (ℤ × Bytes) Bytes Bytes Bytes} (h : (view env w).Mirrored (scheme env))
    (heffect : Effect env w c call s') (hcall : ¬ Diverges env w c call) :
    s'.Mirrored (scheme env) := by
  -- a file that does not have to be there has no md5
  have hblank : ∀ {k : ℤ × Bytes}, ¬ FileAt w k.1 k.2 (fun d => d ≠ []) → ∀ d n,
      (view env w).row k = some (.file d n) → d = (scheme env).blank := by
    intro k hk d n hrow
    by_contra hne
    exact hk ((fileAt_iff hexact hw).mpr ⟨d, n, hrow, hne⟩)
  cases heffect with
  | same => exact h
  | mkdir u p status => exact h.mkdir (hblank (k := (u, p)) fun hk => hcall ⟨rfl, hk⟩)
  | remove session physical p => exact h.detach _
  | removeBelow session physical p hrow hdir =>
      exact RefStore.detachAll_keeps (P := fun s => s.Mirrored (scheme env))
        (fun _ k h => h.detach k) h _
  | removeDir session physical p hrow hdir =>
      exact RefStore.Mirrored.clear (RefStore.detachAll_keeps
        (P := fun s => s.Mirrored (scheme env)) (fun _ k h => h.detach k) h _) _
  | @moveFile session source p dest q d n hrow =>
      refine h.moveFile hrow ?_
      by_cases hpq : p = q
      · subst hpq
        right
        exact hblank (k := (session.userId, p)) (fun hk => hcall (Or.inl ⟨rfl, hk⟩)) d n hrow
      · exact Or.inl fun heq => hpq (Prod.mk.inj heq).2
  | moveOther session source p dest q n hrow hmove =>
      refine h.moveOther hrow (hblank (k := (session.userId, q)) fun hk => ?_)
      refine hcall (Or.inr ⟨?_, hmove, hk⟩)
      rw [fileAt_iff hexact hw]
      rintro ⟨d, m, hd, -⟩
      exact hrow d m hd
  | instant session dest p md5 size offset proof overwrite hproof hobj hcleared =>
      rcases hcleared with ⟨-, -, rfl⟩ | ⟨-, rfl⟩
      · exact RefStore.Mirrored.attach (h.detach _) _ _ _
      · exact h.attach _ _ _
  | clearUpload session hopen hrow => exact h.detach _
  | @finish session hopen x s₁ hcleared hhex hdigest hlen hsame =>
      rcases hcleared with ⟨-, rfl⟩ | ⟨-, rfl⟩
      · exact RefStore.Mirrored.attach (RefStore.Mirrored.publish (h.detach _) _ x) _ _ _
      · exact RefStore.Mirrored.attach (RefStore.Mirrored.publish h _ x) _ _ _
  | lose session hopen hcollide hcleared =>
      rcases hcleared with ⟨-, rfl⟩ | ⟨-, rfl⟩
      · exact RefStore.Mirrored.lose (h.detach _) _
      · exact h.lose _

end

/-- **Path keys and rows agree** in every run whose calls write both, and a download reads
the object that the index tells of. -/
theorem keys_agree (hexact : env.dialect = Dialect.exact)
    {hist : List (Library.Machine.Record ServerState Event Output)} {s : ServerState}
    (run : (Server.machine env).Run (Server.Start env) (Avoids env (Diverges env)) hist s) :
    Agree s.world ∧ DownloadsIndexed env s.world := by
  have key := run_view (I := fun s => s.Mirrored (scheme env)) hexact RefStore.Mirrored.empty
    (fun w c call s' hw h heffect hcall => effect_mirrored hexact hw h heffect hcall) run
  have hagree := agree_of_mirrored hexact key.1.world key.2
  exact ⟨hagree, downloadsIndexed_of_agree hexact key.1.world hagree⟩

/-- The run of an upload. -/
theorem keys_agree_upload :
    Agree (Sample.after (Sample.login ++ Sample.uploadEmpty "/a")).world :=
  (keys_agree rfl (playback_run (by decide +kernel))).1

/-- A directory that is made over a file leaves the path key of the file, which a download
still reads. -/
theorem disagree_mkdir : ∃ hist s,
    (Server.machine Sample.env).Run (Server.Start Sample.env) (fun _ _ => True) hist s ∧
      ¬ Agree s.world ∧ ¬ DownloadsIndexed Sample.env s.world := by
  let es := Sample.login ++ Sample.uploadEmpty "/a" ++
    [.frame 0 (request "mkdir" [("path", .str (str "/a"))])]
  have h : (Server.machine Sample.env).Allows (fun _ _ => True)
        (started Sample.env 4096 Sample.entropy) es ∧
      (∀ r ∈ (Sample.after es).world.rows, r.isDir = true) ∧
        (Sample.after es).world.redis.strings (pathKey 1 (str "/a")) ≠ [] := by
    decide +kernel
  obtain ⟨hrun, hrows, hkey⟩ := h
  have hstale := @stale_key Sample.env (Sample.after es).world rfl 1 (str "/a") hkey hrows
  exact ⟨_, _, playback_run hrun, hstale⟩

end CloudStore.Analysis
